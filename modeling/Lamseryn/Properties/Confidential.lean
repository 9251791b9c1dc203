import Lamseryn.Properties.SessionRules
import Lamseryn.Properties.Scripted

/-!
# Responses on TLS connections leave encrypted

Responses are started in five places, and not all of them ask whether the connection uses TLS.  The 408 of
an expired request deadline and the 503 of an overloaded accept are sent to the socket as they are; so is
what a partial `tls_conn_send` leaves over, and so would be an attached file.

The OpenSSL write behind `tls_conn_send` is whole or fails, request handling attaches no file to a TLS
connection, and no handshake is over at accept.  Then the deadlines are the one way out: every other
session sends response bytes through `tls_conn_send` only.
-/

namespace Lamseryn

open ByteText GuardedRun IoView

/-- The operations that hand response bytes to the socket. -/
def Io.isRaw : Io → Bool
  | .postSend _ => true
  | .sendfile _ _ => true
  | _ => false

/-- Response bytes were only handed to the TLS layer. -/
def Confidential (h : List Io) : Prop :=
  ∀ op ∈ h, op.isRaw = false

instance (h : List Io) : Decidable (Confidential h) :=
  inferInstanceAs (Decidable (∀ op ∈ h, _))

/-- A `tls_conn_send` that succeeded has taken all that it was given. -/
def Io.isWhole : Io → Bool
  | .tlsSend buf (.sent n) => decide (buf.length ≤ n)
  | _ => true

/-- The writes to the TLS layer are whole. -/
def WholeWrites (h : List Io) : Prop :=
  ∀ op ∈ h, op.isWhole = true

instance (h : List Io) : Decidable (WholeWrites h) :=
  inferInstanceAs (Decidable (∀ op ∈ h, _))

variable {L : Llhttp} {v : IoView}

lemma WholeWrites.of_append {h ops : List Io} (hwhole : WholeWrites (h ++ ops)) : WholeWrites h :=
  fun op hmem => hwhole op (List.mem_append_left _ hmem)

lemma Confidential.append {h ops : List Io} (hconf : Confidential h)
    (hops : ∀ op ∈ ops, op.isRaw = false) : Confidential (h ++ ops) := by
  intro op hmem
  rcases List.mem_append.mp hmem with hmem | hmem
  · exact hconf op hmem
  · exact hops op hmem

lemma Confidential.sendsInFlight {h : List Io} (hconf : Confidential h) : sendsInFlight h = 0 := by
  have hnone : h.countP Io.isPostSend = 0 := by
    refine List.countP_eq_zero.mpr fun op hmem hpost => ?_
    have hraw := hconf op hmem
    cases op with
    | postSend buf => simp [Io.isRaw] at hraw
    | _ => simp [Io.isPostSend] at hpost
  unfold Lamseryn.sendsInFlight
  rw [hnone, Nat.zero_sub]

/-! ## The invariant -/

/-- What holds of a TLS connection as long as the writes to the TLS layer are whole. -/
structure Sealed (v : IoView) : Prop where
  tls : v.tls = true
  confidential : WholeWrites v.history → Confidential v.history ∧ v.tx.file = none

/-- A completed write to the TLS layer has taken all that was pending. -/
structure SealedWrite (res : IoRes) (v : IoView) : Prop extends Sealed v where
  whole : WholeWrites v.history → ∃ n, res = .sent n ∧ v.tx.pending.length ≤ n

lemma Sealed.emit (h : Sealed v) (ops : List Io) (hops : ∀ op ∈ ops, op.isRaw = false) :
    Sealed (v.emit ops) := by
  refine ⟨h.tls, fun hwhole => ?_⟩
  obtain ⟨hconf, hfile⟩ := h.confidential hwhole.of_append
  exact ⟨hconf.append hops, hfile⟩

lemma Sealed.setTx (h : Sealed v) (tx : TxState) (hfile : v.tx.file = none → tx.file = none) :
    Sealed (v.setTx tx) :=
  ⟨h.tls, fun hwhole => (h.confidential hwhole).imp_right hfile⟩

lemma Sealed.armPoll (h : Sealed v) : Sealed v.armPoll :=
  (h.setTx { v.tx with writePollArmed := true } id).emit [.ref, .postPollOut] (by simp [Io.isRaw])

lemma Sealed.close (h : Sealed v) (sync armed : Bool) : Sealed (v.close sync armed) := by
  have hemit := h.emit (closeOps sync) (by cases sync <;> simp [closeOps, Io.isRaw])
  exact ⟨h.tls, fun hwhole => ⟨(hemit.confidential hwhole).1, rfl⟩⟩

lemma txPendingHeaders_of_whole {tx : TxState} {n : ℕ} (h : tx.pending.length ≤ n) :
    txPendingHeaders (txOnHeadersResult tx (.sent n)).1 = false := by
  have hlen : tx.writeBuf.length ≤ tx.writeOff + n := by
    unfold TxState.pending at h
    rw [List.length_drop] at h
    omega
  refine decide_eq_false (not_lt.mpr ?_)
  cases n with
  | zero => exact hlen
  | succ n =>
    unfold txOnHeadersResult
    dsimp only
    split_ifs with hbuf
    · simp [hbuf]
    all_goals exact hlen

/-- **TLS responses stay sealed**: every operation of the handlers keeps the invariant. -/
lemma sealedRules (w : Worker L) (hfile : ∀ file, w.Attaches true file → file = none) :
    SessionRules w Sealed Sealed SealedWrite Sealed Sealed Sealed where
  idle h := h
  parsed _ h := ⟨h.tls, h.confidential⟩
  waiting h := h
  settled h := h
  disarmPoll h := h.setTx _ id
  refPut h := h.emit _ (by simp [Io.isRaw])
  close sync armed h _ := h.close sync armed
  read h _ _ _ :=
    have hemit := h.emit [.ref, .postRead] (by simp [Io.isRaw])
    ⟨h.tls, hemit.confidential⟩
  poll h := h.armPoll
  tlsPoll h _ _ := h.armPoll
  advance {v res} h := h.toSealed.setTx _ fun hnone => (txOnHeadersResult_frame v.tx res).1.trans hnone
  more {v res} h hpending := by
    -- a whole write leaves nothing to send
    refine ⟨h.tls, fun hwhole => ?_⟩
    obtain ⟨n, rfl, hlen⟩ := h.whole hwhole.of_append
    exact absurd (hpending.symm.trans (txPendingHeaders_of_whole hlen)) (by decide)
  resend h hplain _ := absurd (hplain.symm.trans h.tls) (by decide)
  sendfile r h hactive _ := by
    refine ⟨h.tls, fun hwhole => ?_⟩
    have hnone := (h.confidential hwhole.of_append).2
    simp [txSendfileIsActive, hnone] at hactive
  dropFile h _ := h.setTx _ fun _ => rfl
  discard h _ := h.setTx _ id
  reset h _ _ _ := by
    have hemit := h.emit [.reset] (by simp [Io.isRaw])
    exact ⟨h.tls, fun hwhole => ⟨(hemit.confidential hwhole).1, rfl⟩⟩
  tlsSent n h _ _ :=
    ⟨h.emit _ (by simp [Io.isRaw]), fun hwhole =>
      ⟨n, rfl, of_decide_eq_true (hwhole _ (List.mem_append_right _ List.mem_cons_self))⟩⟩
  tlsWait r h _ _ _ := h.emit _ (by simp [Io.isRaw])
  respond {v tx closing} draining h hplaces _ := by
    have hemit := h.emit [.respond tx.writeBuf tx.file] (by simp [Io.isRaw])
    refine ⟨h.tls, fun hwhole => ?_⟩
    obtain ⟨hconf, hnone⟩ := hemit.confidential hwhole
    refine ⟨hconf, hplaces.file.elim (fun heq => heq.trans hnone) fun hattached => ?_⟩
    rw [h.tls] at hattached
    exact hfile _ hattached
  start h hplain _ := absurd (hplain.symm.trans h.tls) (by decide)
  readArrives h _ _ _ :=
    have hemit := h.emit [.readDone] (by simp [Io.isRaw])
    ⟨h.tls, hemit.confidential⟩
  readDropped h _ _ :=
    have hemit := h.emit [.readDone] (by simp [Io.isRaw])
    ⟨h.tls, hemit.confidential⟩
  sendDropped _ h _ _ := h.emit _ (by simp [Io.isRaw])
  handshakePoll h _ _ := (h.emit [.pollDone] (by simp [Io.isRaw])).setTx _ id
  pollDropped h _ _ := h.emit _ (by simp [Io.isRaw])
  closeArrives h _ :=
    have hemit := h.emit [.closeDone, .put] (by simp [Io.isRaw])
    ⟨h.tls, hemit.confidential⟩
  put h := h.emit _ (by simp [Io.isRaw])
  expire sync armed h _ := h.close sync armed

/-! ## Sessions -/

lemma sealed_accept {w : Worker L} (hfile : ∀ file, w.Attaches true file → file = none)
    (vhost : Option Vhost) (arena : List Bool) {hs : HsStatus} (hdone : hs ≠ .done) (env : Env) :
    Sealed (acceptSession w vhost true arena hs env).loop.view := by
  refine (sealedRules w hfile).accepts vhost true arena hs env ⟨rfl, fun _ => ⟨?_, rfl⟩⟩ ?_
  · intro op hmem
    simp [IoView.initial] at hmem
  · intro hover
    exact absurd (hover rfl) hdone

lemma Sealed.step {w : Worker L} (hfile : ∀ file, w.Attaches true file → file = none) {s : Session L}
    (h : Sealed s.loop.view) {e : SessionEvent × Env} (hen : s.enabled e = true)
    (htime : e.1 ≠ .timeout) : Sealed (s.step w e).loop.view := by
  refine (sealedRules w hfile).step h e hen (fun res _ hsends _ => ?_)
    (fun _ _ _ => (sealedRules w hfile).disarmPoll (h.emit _ (by simp [Io.isRaw])))
    (fun buf he _ _ => ?_)
    (fun _ _ => Or.inl fun _ h _ => h) (fun he _ => absurd he htime)
  · -- a send in flight is one that was posted
    refine ⟨h.emit _ (by simp [Io.isRaw]), fun hwhole => ?_⟩
    have hnone := (h.confidential hwhole.of_append).1.sendsInFlight
    unfold Session.history at hsends
    exact absurd (hnone ▸ hsends) (by simp)
  · -- a TLS connection has no plain reads
    unfold Session.enabled at hen
    rw [he] at hen
    simp only [Bool.and_eq_true, Bool.not_eq_true'] at hen
    exact absurd (hen.1.1.symm.trans h.tls) (by decide)

/-- That session writes its response to the TLS layer. -/
def encryptedAnswerScript :
    Script (Session.step (sampleWorker (scripted bareRequest)))
      (fun s e => s.enabled e = true ∧ e.1 ≠ .timeout)
      (acceptSession (sampleWorker (scripted bareRequest)) (some {}) true [] .wantRead {})
      fun s => (Io.tlsSend [1] (.sent 1) ∈ s.history ∧ WholeWrites s.history) where
  events := answeredAtOnce
  allowed := by decide +kernel
  ends := by decide +kernel

/-- A TLS request stays incomplete until its deadline. -/
def clearTimeoutScript :
    Script (Session.step (sampleWorker (scripted bareRequest)))
      (fun s e => s.enabled e = true)
      (acceptSession (sampleWorker (scripted bareRequest)) (some {}) true [] .wantRead {})
      fun s => (s.loop.conn.tlsEnabled = true ∧ WholeWrites s.history) ∧
      s.history.drop 10 = [.respond [1] none, .ref, .postSend [1]] ∧ ¬ Confidential s.history where
  events := [(.handshakeRead false .done, {}),
      (.io (.tlsRead [.data (ascii "GET /"), .again true false]), {}),
      (.timeout, {})]
  allowed := by decide +kernel
  ends := by decide +kernel

end Lamseryn
