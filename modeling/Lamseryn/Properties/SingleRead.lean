import Lamseryn.Properties.PlainTransmit
import Lamseryn.Properties.References

/-!
# One read at a time

The flag `recv_armed` is to say whether a read of the connection is posted, so that there are never two.
On a plain connection it does: a response is only sent while no read is posted, and so the reset behind
the response, which clears the flag with the rest of the transmit state, finds no read.

On a TLS connection reads stay posted while a response waits for the socket.  When that response completes
on a write poll, or behind a later decrypted read of the same event, the reset clears the flag of a read
that is still posted, and a second one is posted.  Without these two the flag is right on TLS connections
too.
-/

namespace Lamseryn

open ByteText GuardedRun IoView

variable {L : Llhttp} {v : IoView}

/-! ## TLS connections -/

/-- What holds between events of a TLS connection. -/
structure TlsReads (v : IoView) : Prop where
  tls : v.tls = true
  keepalive : v.fdOpen = true → v.closing = true → v.tx.keepalive = false
  reading : v.fdOpen = true → v.closing = false → v.OneRead

/-- No read is posted. -/
structure TlsFresh (v : IoView) : Prop where
  tls : v.tls = true
  closing : v.closing = false
  recvOps : v.recvOps = 0
  recvArmed : v.tx.recvArmed = false

/-- A read is posted only behind a response that ends the connection. -/
structure TlsReady (v : IoView) : Prop where
  tls : v.tls = true
  keepalive : v.closing = true → v.tx.keepalive = false
  reads : v.closing = false →
    (v.tx.recvArmed = false ∧ v.recvOps = 0) ∨ (v.tx.keepalive = false ∧ v.OneRead)

lemma TlsFresh.settled (h : TlsFresh v) : TlsReads v :=
  ⟨h.tls, fun _ hclosing => absurd (h.closing.symm.trans hclosing) (by decide),
    fun _ _ => Or.inr ⟨h.recvArmed, h.recvOps⟩⟩

lemma TlsReady.settled (h : TlsReady v) : TlsReads v :=
  ⟨h.tls, fun _ => h.keepalive, fun _ hclosing => (h.reads hclosing).elim Or.inr And.right⟩

lemma TlsReady.setTx (h : TlsReady v) (tx : TxState) (hka : tx.keepalive = v.tx.keepalive)
    (harmed : tx.recvArmed = v.tx.recvArmed) : TlsReady (v.setTx tx) := by
  refine ⟨h.tls, fun hclosing => hka.trans (h.keepalive hclosing), fun hclosing => ?_⟩
  unfold IoView.OneRead IoView.setTx
  dsimp only
  rw [hka, harmed]
  exact h.reads hclosing

lemma TlsReads.armRead (h : TlsReads v) (hfd : v.fdOpen = true) (harmed : v.tx.recvArmed = false) :
    TlsReads v.armRead := by
  refine ⟨h.tls, h.keepalive, fun _ hclosing => Or.inl ⟨rfl, ?_⟩⟩
  show v.recvOps + 1 = 1
  rcases h.reading hfd hclosing with ⟨hread, -⟩ | ⟨-, hnone⟩
  · exact absurd (harmed.symm.trans hread) (by decide)
  · omega

lemma TlsReads.of_detached (htls : v.tls = true) (hfd : v.fdOpen = false) : TlsReads v :=
  ⟨htls, fun hopen => absurd (hfd.symm.trans hopen) (by decide),
    fun hopen => absurd (hfd.symm.trans hopen) (by decide)⟩

/-- **A TLS connection keeps its flag**, if a completed send or write poll finds no read behind a
keep-alive response. -/
lemma tlsReadRules (w : Worker L) :
    SessionRules w TlsReads TlsFresh (fun _ => TlsReady) TlsReady TlsReads TlsReads where
  idle h := h.settled
  parsed _ h := ⟨h.tls, h.closing, h.recvOps, h.recvArmed⟩
  waiting h := h.settled
  settled h := h
  disarmPoll h := h.setTx _ rfl rfl
  refPut h := ⟨h.tls, h.keepalive, h.reads⟩
  close _ _ h _ := .of_detached h.tls rfl
  read h hfd _ harmed := h.armRead hfd harmed
  poll h := ⟨h.tls, h.settled.keepalive, h.settled.reading⟩
  tlsPoll h _ _ := ⟨h.tls, h.keepalive, h.reading⟩
  advance {v res} h := by
    obtain ⟨-, hka, harmed⟩ := txOnHeadersResult_frame v.tx res
    exact h.setTx _ hka harmed
  more {v res} h _ := by
    obtain ⟨-, hka, harmed⟩ := txOnHeadersResult_frame v.tx res
    have hready := (h.setTx _ hka harmed).settled
    exact ⟨hready.tls, hready.keepalive, hready.reading⟩
  resend h hplain _ := absurd (hplain.symm.trans h.tls) (by decide)
  sendfile {v} r h _ _ := by
    obtain ⟨-, hka, harmed⟩ := txOnSendfileResult_frame v.tx r
    have hready := h.setTx _ hka harmed
    exact ⟨hready.tls, hready.keepalive, hready.reads⟩
  dropFile h _ := h.setTx _ rfl rfl
  discard h _ := h.setTx _ rfl rfl
  reset {v} h _ _ hka := by
    have hnoka : v.tx.keepalive ≠ false := by simp [hka]
    have hclosing : v.closing = false := Bool.eq_false_iff.mpr fun hclosing => hnoka (h.keepalive hclosing)
    rcases h.reads hclosing with ⟨-, hnone⟩ | ⟨hoff, -⟩
    · exact ⟨h.tls, rfl, hnone, rfl⟩
    · exact absurd hoff hnoka
  tlsSent _ h _ _ := ⟨h.tls, h.keepalive, h.reads⟩
  tlsWait _ h _ _ _ := ⟨h.tls, h.keepalive, h.reads⟩
  respond _ h hplaces _ := by
    refine ⟨h.tls, fun hclosing => ?_, fun _ => Or.inl ⟨hplaces.recv.trans h.recvArmed, h.recvOps⟩⟩
    rcases hplaces.closing with heq | ⟨-, hka⟩
    · exact absurd (hclosing.symm.trans (heq.trans h.closing)) (by decide)
    · exact hka
  start h hplain _ := absurd (hplain.symm.trans h.tls) (by decide)
  readArrives {v} h hreads hfd hclosing := by
    refine ⟨h.tls, hclosing, ?_, rfl⟩
    show v.recvOps - 1 = 0
    rcases h.reading hfd hclosing with ⟨-, hone⟩ | ⟨-, hnone⟩
    · omega
    · omega
  readDropped h _ hskip := by
    refine ⟨h.tls, h.keepalive, fun hfd hclosing => ?_⟩
    rcases hskip with hskip | hskip
    · exact absurd (hskip.symm.trans hfd) (by decide)
    · exact absurd (hskip.symm.trans hclosing) (by decide)
  sendDropped _ h _ _ := ⟨h.tls, h.keepalive, h.reading⟩
  handshakePoll h _ _ := ⟨h.tls, h.keepalive, h.reading⟩
  pollDropped h _ _ := ⟨h.tls, h.keepalive, h.reading⟩
  closeArrives h _ := .of_detached h.tls rfl
  put h := ⟨h.tls, h.keepalive, h.reading⟩
  expire _ _ h _ := .of_detached h.tls rfl

lemma TlsReads.refuse (h : TlsReads v) {tx : TxState} (draining : Bool) (hka : tx.keepalive = false) :
    TlsReads ((v.respond tx true draining).post tx.writeBuf) :=
  ⟨h.tls, fun _ _ => hka, fun _ hclosing => absurd hclosing (by simp [IoView.respond, IoView.post, IoView.emit])⟩

lemma tlsReads_initial : TlsReads (IoView.initial true) :=
  ⟨rfl, fun _ hclosing => by simp [IoView.initial] at hclosing, fun _ _ => Or.inr ⟨rfl, rfl⟩⟩

lemma tlsReads_accept (w : Worker L) (vhost : Option Vhost) (arena : List Bool) (hs : HsStatus)
    (env : Env) : TlsReads (acceptSession w vhost true arena hs env).loop.view := by
  refine (tlsReadRules w).accepts vhost true arena hs env tlsReads_initial ?_
  intro _ v tx h _ _ _ _ _ hka
  exact h.refuse v.draining hka

/-! ## Runs -/

/-- No reset can find a posted read: one decrypted read of an event at most brings data, and a completed
send or write poll of a TLS connection finds no read posted, or no keep-alive. -/
def Session.readsAlone (s : Session L) (e : SessionEvent × Env) : Bool :=
  let alone := !s.loop.conn.tlsEnabled || !s.loop.conn.tx.recvArmed || !s.loop.conn.tx.keepalive
  match e.1 with
  | .io (.tlsRead rs) => rs.tail.all fun r => !r.isData
  | .io (.write _) => alone
  | .io .writeReady => alone
  | _ => true

lemma TlsReads.ready (h : TlsReads v) (hfd : v.fdOpen = true)
    (halone : (!v.tls || !v.tx.recvArmed || !v.tx.keepalive) = true) : TlsReady v := by
  simp only [h.tls, Bool.not_true, Bool.false_or, Bool.or_eq_true, Bool.not_eq_true'] at halone
  refine ⟨h.tls, h.keepalive hfd, fun hclosing => ?_⟩
  have hone := h.reading hfd hclosing
  rcases halone with harmed | hka
  · rcases hone with ⟨hread, -⟩ | hnone
    · exact absurd (harmed.symm.trans hread) (by decide)
    · exact Or.inl hnone
  · exact Or.inr ⟨hka, hone⟩

lemma TlsReads.step {w : Worker L} {s : Session L} (h : TlsReads s.loop.view)
    {e : SessionEvent × Env} (hen : s.enabled e = true) (halone : s.readsAlone e = true) :
    TlsReads (s.step w e).loop.view := by
  unfold Session.readsAlone at halone
  refine (tlsReadRules w).step h e hen (fun res he _ hfd => ?_) (fun he _ hfd => ?_)
    (fun buf he _ _ => ?_) (fun rs he => Or.inr ⟨fun _ h => h, fun buf hmem => ?_⟩)
    (fun _ _ => (tlsReadRules w).timesOut h fun tx _ hka => h.refuse _ hka)
  · rw [he] at halone
    have hready := h.ready hfd halone
    exact ⟨hready.tls, hready.keepalive, hready.reads⟩
  · rw [he] at halone
    have hready := h.ready hfd halone
    exact (tlsReadRules w).disarmPoll ⟨hready.tls, hready.keepalive, hready.reads⟩
  · -- a TLS connection has no plain reads
    unfold Session.enabled at hen
    rw [he] at hen
    simp only [Bool.and_eq_true, Bool.not_eq_true'] at hen
    exact absurd (hen.1.1.symm.trans h.tls) (by decide)
  · rw [he] at halone
    have hdata := List.all_eq_true.mp halone _ hmem
    simp [TlsRecv.isData] at hdata

/-- **One read at a time.**  In every session whose resets find no posted read, an open connection that is
not closing has a read in flight exactly when its flag says so, and never two. -/
theorem recvArmed_iff_of_readsAlone (w : Worker L) (vhost : Option Vhost) (tls : Bool)
    (arena : List Bool) (hs : HsStatus) (env : Env) {es : List (SessionEvent × Env)} {s : Session L}
    (hrun : Run (Session.step w) (fun s e => s.enabled e = true ∧ s.readsAlone e = true)
      (acceptSession w vhost tls arena hs env) es s)
    (hfd : s.loop.conn.fdOpen = true) (hclosing : s.loop.conn.closing = false) :
    (s.loop.conn.tx.recvArmed = true ↔ readsInFlight s.history = 1) ∧
      (s.loop.conn.tx.recvArmed = false ↔ readsInFlight s.history = 0) := by
  have hcount : readsInFlight s.history = s.loop.recvOps := by
    have hheld : Held 0 s.loop.view :=
      hrun.invariant (fun _ s => Held 0 s.loop.view) (held_accept w vhost tls arena hs env)
        fun _ _ _ h hok => h.step_session hok.1
    exact (holding_reads hheld.accepts).trans hheld.reads
  have hone : s.loop.view.OneRead := by
    cases tls with
    | false =>
      have hinv : TxInv s.loop.view :=
        hrun.invariant (fun _ s => TxInv s.loop.view) (txInv_accept w vhost arena hs env)
          fun _ _ _ h hok => h.step hok.1
      exact hinv.reading hfd hclosing
    | true =>
      have hinv : TlsReads s.loop.view :=
        hrun.invariant (fun _ s => TlsReads s.loop.view) (tlsReads_accept w vhost arena hs env)
          fun _ _ _ h hok => h.step hok.1 hok.2
      exact hinv.reading hfd hclosing
  rw [hcount]
  rcases hone with ⟨harmed, hops⟩ | ⟨harmed, hops⟩
  · have harmed' : s.loop.conn.tx.recvArmed = true := harmed
    have hops' : s.loop.recvOps = 1 := hops
    simp [harmed', hops']
  · have harmed' : s.loop.conn.tx.recvArmed = false := harmed
    have hops' : s.loop.recvOps = 0 := hops
    simp [harmed', hops']

/-- Behind that session the connection is open. -/
def nextReadScript :
    Script (Session.step (sampleWorker (scripted bareRequest)))
      (fun s e => s.enabled e = true ∧ s.readsAlone e = true)
      (acceptSession (sampleWorker (scripted bareRequest)) (some {}) true [] .wantRead {})
      fun s => (s.loop.conn.fdOpen = true ∧ s.loop.conn.closing = false) where
  events := answeredAtOnce
  allowed := by decide +kernel
  ends := by decide +kernel

/-- The next read is posted, and it is the only one. -/
theorem recvArmed_iff_answered_at_once :
    ∃ s, Run (Session.step (sampleWorker (scripted bareRequest)))
        (fun s e => s.enabled e = true ∧ s.readsAlone e = true)
        (acceptSession (sampleWorker (scripted bareRequest)) (some {}) true [] .wantRead {})
        answeredAtOnce s ∧
      (s.loop.conn.fdOpen = true ∧ s.loop.conn.closing = false) ∧
      (s.loop.conn.tx.recvArmed = true ↔ readsInFlight s.history = 1) ∧
      (s.loop.conn.tx.recvArmed = false ↔ readsInFlight s.history = 0) := by
  obtain ⟨s, hrun, hopen⟩ := nextReadScript.exists_run
  exact ⟨s, hrun, hopen, recvArmed_iff_of_readsAlone _ _ _ _ _ _ hrun hopen.1 hopen.2⟩

/-- A response waits for the socket while the next read is posted. -/
def secondReadScript :
    Script (Session.step (sampleWorker (scripted bareRequest)))
      (fun s e => s.enabled e = true)
      (acceptSession (sampleWorker (scripted bareRequest)) (some {}) true [] .wantRead {})
      fun s => (s.loop.conn.fdOpen = true ∧ s.loop.conn.closing = false) ∧
      s.loop.conn.tx.recvArmed = true ∧ readsInFlight s.history = 2 where
  events := [(.handshakeRead false .done, {}),
      (.io (.tlsRead [.data (scriptBytes bareRequest), .again true false]),
      { tlsSends := [.again false true] }),
      (.io .writeReady, { tlsSends := [.sent 1] })]
  allowed := by decide +kernel
  ends := by decide +kernel

/-- A response that waits for the socket while the next read is posted: behind it two reads are in
flight. -/
theorem recvArmed_fails_on_waiting_response :
    ∃ s, Run (Session.step (sampleWorker (scripted bareRequest))) (fun s e => s.enabled e = true)
        (acceptSession (sampleWorker (scripted bareRequest)) (some {}) true [] .wantRead {})
        [(.handshakeRead false .done, {}),
         (.io (.tlsRead [.data (scriptBytes bareRequest), .again true false]),
          { tlsSends := [.again false true] }),
         (.io .writeReady, { tlsSends := [.sent 1] })] s ∧
      (s.loop.conn.fdOpen = true ∧ s.loop.conn.closing = false) ∧
      s.loop.conn.tx.recvArmed = true ∧ readsInFlight s.history = 2 :=
  secondReadScript.exists_run

end Lamseryn
