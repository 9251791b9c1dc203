import Lamseryn.Properties.TransmitLedger

/-!
# Transmission on plain connections

The handlers keep the account of `TransmitLedger`: the rules for the single operations
(`txRules`) give the invariant over whole sessions, from accept on, through request deadlines and late
completions.
-/

namespace Lamseryn

open ByteText GuardedRun IoView

variable {L : Llhttp} {v : IoView}

/-- A response on its way, with nothing outstanding. -/
def TxReady (v : IoView) : Prop :=
  Calm v ∧ Responding v

/-- A connection that may wait for input. -/
def TxWaiting (v : IoView) : Prop :=
  Calm v ∧ (v.closing = false → v.OneRead)

lemma TxFresh.waiting (h : TxFresh v) : TxWaiting v :=
  ⟨h.calm, fun _ => Or.inr ⟨h.recvArmed, h.recvOps⟩⟩

lemma TxReady.waiting (h : TxReady v) : TxWaiting v :=
  ⟨h.1, fun hclosing => Or.inr (h.2.reads hclosing).symm⟩

lemma TxWaiting.settled (h : TxWaiting v) : TxInv v :=
  h.1.settled h.2

lemma TxReady.setTx (h : TxReady v) (tx : TxState) (hka : tx.keepalive = v.tx.keepalive)
    (harmed : tx.recvArmed = v.tx.recvArmed)
    (hunsent : tx.pending ++ tx.file.getD [] = v.unsent) : TxReady (v.setTx tx) := by
  refine ⟨h.1.congr rfl rfl rfl hka hunsent, fun hclosing => ?_, h.2.live⟩
  have hreads := h.2.reads hclosing
  exact ⟨hreads.1, harmed.trans hreads.2⟩

lemma TxReady.disarmPoll (h : TxReady v) : TxReady v.disarmPoll :=
  h.setTx _ rfl rfl rfl

lemma TxFresh.respond {w : Worker L} (h : TxFresh v) {tx : TxState} {closing : Bool} (draining : Bool)
    (hplaces : Places w v tx closing) (hlive : v.done = true ∨ closing = true ∨ draining = true) :
    TxReady (v.respond tx closing draining) := by
  refine ⟨h.calm.toUnposted.respond draining hplaces.off fun hclosing => ?_, fun _ => ?_, hlive⟩
  · rcases hplaces.closing with heq | ⟨-, hka⟩
    · exact absurd (hclosing.symm.trans (heq.trans h.closing)) (by decide)
    · exact hka
  · exact ⟨h.recvOps, hplaces.recv.trans h.recvArmed⟩

lemma TxReady.start (h : TxReady v) (hoff : v.tx.writeOff = 0) : TxInv (v.post v.tx.writeBuf) := by
  have hpending : v.tx.pending = v.tx.writeBuf := by
    unfold TxState.pending
    rw [hoff, List.drop_zero]
  rw [← hpending]
  exact h.1.post h.2

lemma TxWaiting.armRead (h : TxWaiting v) (harmed : v.tx.recvArmed = false) : TxWaiting v.armRead := by
  refine ⟨(h.1.neutral [.ref, .postRead] (by simp [Io.neutral])).congr rfl rfl rfl rfl rfl,
    fun hclosing => Or.inl ⟨rfl, ?_⟩⟩
  show v.recvOps + 1 = 1
  rcases h.2 hclosing with ⟨hread, -⟩ | ⟨-, hnone⟩
  · exact absurd (harmed.symm.trans hread) (by decide)
  · omega

lemma Landed.ready {res : IoRes} (h : Landed res v) (hresp : Responding v) :
    TxReady (v.advance res) := by
  obtain ⟨-, -, harmed⟩ := txOnHeadersResult_frame v.tx res
  refine ⟨h.advance, fun hclosing => ?_, hresp.live⟩
  have hreads := hresp.reads hclosing
  exact ⟨hreads.1, harmed.trans hreads.2⟩

/-- **The account is kept by every operation of the handlers.** -/
lemma txRules (w : Worker L) :
    SessionRules w TxInv TxFresh (fun res v => Landed res v ∧ Responding v) TxReady TxWaiting TxInv where
  idle h := h.waiting
  parsed _ h := ⟨h.calm.congr rfl rfl rfl rfl rfl, h.closing, h.recvOps, h.recvArmed⟩
  waiting h := h.waiting
  settled h := h.settled
  disarmPoll h := h.disarmPoll
  refPut h := ⟨h.1.neutral _ (by simp [Io.neutral]), h.2.reads, h.2.live⟩
  close sync armed h _ := h.settled.close sync armed
  read h _ _ harmed := h.armRead harmed
  poll h := h.1.poll h.2
  tlsPoll h htls _ := absurd (h.1.plain.symm.trans htls) (by decide)
  advance h := h.1.ready h.2
  more h _ := (h.1.ready h.2).1.post (h.1.ready h.2).2
  resend h _ _ := h.1.post h.2
  sendfile r h _ hpending := by
    obtain ⟨-, -, harmed⟩ := txOnSendfileResult_frame _ r
    refine ⟨h.1.sendfile r hpending, fun hclosing => ?_, h.2.live⟩
    have hreads := h.2.reads hclosing
    exact ⟨hreads.1, harmed.trans hreads.2⟩
  dropFile h hfile := h.setTx _ rfl rfl (by simp [txCloseAttachedFile, unsent, TxState.pending,
    file_eq_nil hfile])
  discard h hpending := h.setTx _ rfl rfl (by simp [txDiscard, unsent, TxState.pending,
    ← pending_eq_nil hpending])
  reset {v} h hpending hfile hka := by
    -- a closing connection has no keep-alive, so nothing is read
    have hclosing : v.closing = false := by
      refine Bool.eq_false_iff.mpr fun hclosing => ?_
      exact absurd (hka.symm.trans (h.1.keepalive hclosing)) (by decide)
    exact ⟨h.1.reset hpending hfile, rfl, (h.2.reads hclosing).1, rfl⟩
  tlsSent _ h htls _ := absurd (h.1.plain.symm.trans htls) (by decide)
  tlsWait _ h htls _ _ := absurd (h.1.plain.symm.trans htls) (by decide)
  respond draining h hplaces hlive := h.respond draining hplaces hlive
  start h _ hoff := h.start hoff
  readArrives h hreads hfd hclosing := h.readArrives hreads hfd hclosing
  readDropped h _ hskip := h.readDropped hskip
  sendDropped res h hsends hfd := h.sendDropped res hsends hfd
  handshakePoll h hpolls hfd := (TxReady.disarmPoll (h.pollArrives hpolls hfd)).waiting
  pollDropped h hpolls hskip := h.pollDropped hpolls (hskip.imp_right And.left)
  closeArrives h _ := (h.detach _ _).neutral _ (by simp [Io.neutral])
  put h := h.neutral _ (by simp [Io.neutral])
  expire sync armed h _ := h.close sync armed

lemma txRules_late (w : Worker L) : ToleratesLate w TxWaiting TxInv := by
  intro v sync armed tx closing draining h _ _ hplaces
  have hunposted : Unposted (v.close sync armed) := by
    have hneutral : Unposted (v.emit (closeOps sync)) := by
      refine h.1.toUnposted.neutral (closeOps sync) ?_
      cases sync <;> simp [closeOps, Io.neutral]
    exact ⟨hneutral.accepts, hneutral.plain, hneutral.sends, hneutral.polls⟩
  have hready : TxReady ((v.close sync armed).respond { tx with keepalive := false } true draining) :=
    ⟨hunposted.respond draining hplaces.off fun _ => rfl, fun hopen => by simp [IoView.respond] at hopen,
      Or.inr (Or.inl rfl)⟩
  exact (hready.start hplaces.off).detach tx closing

/-! ## Sessions -/

lemma txWaiting_initial : TxWaiting (IoView.initial false) :=
  ⟨⟨⟨trivial, rfl, rfl, rfl⟩, fun hclosing => by simp [IoView.initial] at hclosing, rfl⟩,
    fun _ => Or.inr ⟨rfl, rfl⟩⟩

lemma Calm.refuse {w : Worker L} (h : Calm v) {tx : TxState} (draining : Bool)
    (hplaces : Places w v tx true) (hka : tx.keepalive = false) :
    TxInv ((v.respond tx true draining).post tx.writeBuf) := by
  have hready : TxReady (v.respond tx true draining) :=
    ⟨h.toUnposted.respond draining hplaces.off fun _ => hka, fun hopen => by simp [IoView.respond] at hopen,
      Or.inr (Or.inl rfl)⟩
  exact hready.start hplaces.off

lemma txInv_accept (w : Worker L) (vhost : Option Vhost) (arena : List Bool) (hs : HsStatus)
    (env : Env) : TxInv (acceptSession w vhost false arena hs env).loop.view := by
  refine (txRules w).accepts vhost false arena hs env txWaiting_initial ?_
  intro _ v tx h _ _ _ _ hplaces hka
  exact h.1.refuse v.draining hplaces hka

lemma TxInv.timeout {w : Worker L} {s : Session L} (h : TxInv s.loop.view) (env : Env)
    (hprogress : s.requestInProgress = true) : TxInv (requestTimeout w (s.entered env)).view := by
  unfold Session.requestInProgress at hprogress
  simp only [Bool.and_eq_true, Bool.not_eq_true'] at hprogress
  obtain ⟨⟨⟨⟨⟨hfd, hdraining⟩, -⟩, hclosing⟩, hdone⟩, -⟩ := hprogress
  have hcalm : Calm (s.entered env).view :=
    TxInv.calm_of_reading h hfd hclosing (Or.inr ⟨hdone, hdraining⟩)
  exact (txRules w).timesOut h fun tx hplaces hka => hcalm.refuse _ hplaces hka

lemma TxInv.step {w : Worker L} {s : Session L} (h : TxInv s.loop.view) {e : SessionEvent × Env}
    (hen : s.enabled e = true) : TxInv (s.step w e).loop.view := by
  refine (txRules w).step h e hen (fun res _ hsends hfd => h.sendArrives res hsends hfd)
    (fun _ hpolls hfd => (txRules w).disarmPoll (h.pollArrives hpolls hfd))
    (fun _ _ _ _ => Or.inr (txRules_late w)) (fun rs he => ?_) (fun _ hprogress => h.timeout e.2 hprogress)
  -- a plain connection has no decrypted reads
  unfold Session.enabled at hen
  rw [he] at hen
  simp only [Bool.and_eq_true] at hen
  exact absurd (h.plain.symm.trans hen.1.1.1) (by decide)

lemma txInv_of_run {w : Worker L} {vhost : Option Vhost} {arena : List Bool} {hs : HsStatus} {env : Env}
    {es : List (SessionEvent × Env)} {s : Session L}
    (hrun : Run (Session.step w) (fun s e => s.enabled e = true)
      (acceptSession w vhost false arena hs env) es s) : TxInv s.loop.view :=
  hrun.invariant (fun _ s => TxInv s.loop.view) (txInv_accept w vhost arena hs env)
    fun _ _ _ h hen => h.step hen

/-- **Responses are transmitted byte for byte.**  In every session over a plain connection, whatever the
kernel accepts and whenever operations complete, the history is exact. -/
theorem txExact_of_plain_run (w : Worker L) (vhost : Option Vhost) (arena : List Bool) (hs : HsStatus)
    (env : Env) {es : List (SessionEvent × Env)} {s : Session L}
    (hrun : Run (Session.step w) (fun s e => s.enabled e = true)
      (acceptSession w vhost false arena hs env) es s) : TxExact s.history :=
  txExact_of_accepts (txInv_of_run hrun).accepts

/-- A worker that answers every request with three bytes of header and a file of three bytes. -/
def fileWorker (L : Llhttp) : Worker L :=
  { sampleWorker L with
    handlers :=
      { (sampleWorker L).handlers with
        dispatchOk := fun _ _ _ => .txBuffer ⟨.okKa, [1, 2, 3], by decide, true, some [4, 5, 6]⟩ } }

/-- The response is accepted in pieces, with a full socket before and during the file. -/
def acceptedInPieces : List (SessionEvent × Env) :=
  [(.io (.recv (.data (scriptBytes bareRequest))), {}),
   (.io (.write (.sent 2)), {}),
   (.io (.write .again), {}),
   (.io .writeReady, {}),
   (.io (.write (.sent 1)), { sendfiles := [.interrupted, .sent 2, .again] }),
   (.io .writeReady, { sendfiles := [.sent 1] })]

/-- The kernel accepts all of that response. -/
def acceptedInPiecesScript :
    Script (Session.step (fileWorker (scripted bareRequest)))
      (fun s e => s.enabled e = true)
      (acceptSession (fileWorker (scripted bareRequest)) (some {}) false [] .done {})
      fun s => (Io.reset ∈ s.history ∧ (ledger s.history).accepted = [1, 2, 3, 4, 5, 6]) where
  events := acceptedInPieces
  allowed := by decide +kernel
  ends := by decide +kernel

/-- All of that response is accepted before the request is reset. -/
theorem txExact_accepted_in_pieces :
    ∃ s, Run (Session.step (fileWorker (scripted bareRequest))) (fun s e => s.enabled e = true)
        (acceptSession (fileWorker (scripted bareRequest)) (some {}) false [] .done {})
        acceptedInPieces s ∧
      (Io.reset ∈ s.history ∧ (ledger s.history).accepted = [1, 2, 3, 4, 5, 6]) ∧
      TxExact s.history := by
  obtain ⟨s, hrun, hwhole⟩ := acceptedInPiecesScript.exists_run
  exact ⟨s, hrun, hwhole, txExact_of_plain_run _ _ _ _ _ hrun⟩

end Lamseryn
