import Lamseryn.Properties.SessionRules
import Lamseryn.Properties.Scripted

/-!
# A closed descriptor is left alone

`schedule_or_sync_close` gives the descriptor of a connection away; afterwards its number may belong to
another connection.  In the history of a session this is one entry, `closeFd` or `postClose`, and the
question is whether any operation on the descriptor follows it.

There is one place where it does.  `worker_loop_read_handle_cqe` closes a connection whose leftover bytes
do not fit the stash and then applies the classified action all the same, so that a complete request is
answered on the descriptor that was just given away.  While every leftover fits, nothing follows a close,
in any run of any session.
-/

namespace Lamseryn

open ByteText GuardedRun IoView

/-- The operations that give the descriptor away. -/
def Io.detaches : Io → Bool
  | .closeFd => true
  | .postClose => true
  | _ => false

/-- The operations on the descriptor other than its close. -/
def Io.touches : Io → Bool
  | .postRead => true
  | .postSend _ => true
  | .postPollOut => true
  | .sendfile _ _ => true
  | .tlsSend _ _ => true
  | _ => false

/-- Nothing touches the descriptor after it was given away. -/
def QuietAfterClose (h : List Io) : Prop :=
  h.Pairwise fun a b => a.detaches = true → b.touches = false

instance (h : List Io) : Decidable (QuietAfterClose h) :=
  inferInstanceAs (Decidable (List.Pairwise _ h))

lemma QuietAfterClose.append_silent {h ops : List Io} (hquiet : QuietAfterClose h)
    (hops : ∀ op ∈ ops, op.touches = false) : QuietAfterClose (h ++ ops) := by
  refine List.pairwise_append.mpr ⟨hquiet, ?_, fun a _ b hb _ => hops b hb⟩
  exact List.pairwise_of_forall_mem_list fun a _ b hb _ => hops b hb

lemma QuietAfterClose.append_attached {h ops : List Io} (hquiet : QuietAfterClose h)
    (hattached : ∀ op ∈ h, op.detaches = false) (hops : ∀ op ∈ ops, op.detaches = false) :
    QuietAfterClose (h ++ ops) := by
  refine List.pairwise_append.mpr ⟨hquiet, ?_, fun a ha b _ hdet => ?_⟩
  · exact List.pairwise_of_forall_mem_list fun a ha b _ hdet => by simp [hops a ha] at hdet
  · simp [hattached a ha] at hdet

/-! ## The invariant -/

/-- What holds at all times: the history is quiet, an open descriptor was never given away, and a
detached connection is closing. -/
structure Quiet (v : IoView) : Prop where
  quiet : QuietAfterClose v.history
  attached : v.fdOpen = true → ∀ op ∈ v.history, op.detaches = false
  closing : v.fdOpen = false → v.closing = true

variable {L : Llhttp} {v v' : IoView}

lemma Quiet.congr (h : Quiet v) (hhistory : v'.history = v.history) (hfd : v'.fdOpen = v.fdOpen)
    (hclosing : v'.closing = v.closing) : Quiet v' := by
  refine ⟨?_, ?_, ?_⟩
  · rw [hhistory]
    exact h.quiet
  · rw [hfd, hhistory]
    exact h.attached
  · rw [hfd, hclosing]
    exact h.closing

lemma Quiet.silent (h : Quiet v) (ops : List Io)
    (hops : ∀ op ∈ ops, op.touches = false ∧ op.detaches = false) : Quiet (v.emit ops) := by
  refine ⟨h.quiet.append_silent fun op hop => (hops op hop).1, fun hfd op hop => ?_, h.closing⟩
  rcases List.mem_append.mp hop with hop | hop
  · exact h.attached hfd op hop
  · exact (hops op hop).2

lemma Quiet.touch (h : Quiet v) (ops : List Io) (hfd : v.fdOpen = true)
    (hops : ∀ op ∈ ops, op.detaches = false) : Quiet (v.emit ops) := by
  refine ⟨h.quiet.append_attached (h.attached hfd) hops, fun _ op hop => ?_, h.closing⟩
  rcases List.mem_append.mp hop with hop | hop
  · exact h.attached hfd op hop
  · exact hops op hop

lemma Quiet.close (h : Quiet v) (sync armed : Bool) : Quiet (v.close sync armed) := by
  refine ⟨h.quiet.append_silent ?_, by simp [IoView.close], fun _ => rfl⟩
  cases sync <;> simp [closeOps, Io.touches]

lemma Quiet.detached_of_closesInFlight (h : Quiet v) (hcloses : 0 < closesInFlight v.history) :
    v.fdOpen = false := by
  refine Bool.eq_false_iff.mpr fun hfd => ?_
  have hnone : v.history.count .postClose = 0 := by
    refine List.count_eq_zero.mpr fun hmem => ?_
    exact absurd (h.attached hfd _ hmem) (by simp [Io.detaches])
  simp [closesInFlight, hnone] at hcloses

lemma Quiet.respond (h : Quiet v) (hfd : v.fdOpen = true) (tx : TxState) (closing draining : Bool) :
    Quiet (v.respond tx closing draining) := by
  have hplaced := h.silent [.respond tx.writeBuf tx.file] (by simp [Io.touches, Io.detaches])
  refine ⟨hplaced.quiet, hplaced.attached, fun hclosed => ?_⟩
  simp [IoView.respond, hfd] at hclosed

/-- A quiet connection with its descriptor. -/
def QuietOpen (v : IoView) : Prop :=
  Quiet v ∧ v.fdOpen = true

/-- **Closing is quiet**: every operation of the handlers keeps the invariant. -/
lemma quietRules (w : Worker L) :
    SessionRules w Quiet QuietOpen (fun _ => QuietOpen) QuietOpen Quiet Quiet where
  idle h := h.1
  parsed _ h := ⟨h.1.congr rfl rfl rfl, h.2⟩
  waiting h := h.1
  settled h := h
  disarmPoll h := ⟨h.1.congr rfl rfl rfl, h.2⟩
  refPut h := ⟨h.1.silent _ (by simp [Io.touches, Io.detaches]), h.2⟩
  close sync armed h _ := h.close sync armed
  read h hfd _ _ := (h.touch [.ref, .postRead] hfd (by simp [Io.detaches])).congr rfl rfl rfl
  poll h := (h.1.touch [.ref, .postPollOut] h.2 (by simp [Io.detaches])).congr rfl rfl rfl
  tlsPoll h _ hfd :=
    (h.touch [.ref, .postPollOut] hfd (by simp [Io.detaches])).congr rfl rfl rfl
  advance h := ⟨h.1.congr rfl rfl rfl, h.2⟩
  more h _ := (h.1.touch [.ref, .postSend _] h.2 (by simp [Io.detaches])).congr rfl rfl rfl
  resend h _ _ := h.1.touch _ h.2 (by simp [Io.detaches])
  sendfile r h _ _ :=
    ⟨(h.1.touch [.sendfile _ r] h.2 (by simp [Io.detaches])).congr rfl rfl rfl, h.2⟩
  dropFile h _ := ⟨h.1.congr rfl rfl rfl, h.2⟩
  discard h _ := ⟨h.1.congr rfl rfl rfl, h.2⟩
  reset h _ _ _ := by
    have hsilent := h.1.silent [.reset] (by simp [Io.touches, Io.detaches])
    exact ⟨⟨hsilent.quiet, hsilent.attached, fun hfd => by simp [IoView.reset, h.2] at hfd⟩, h.2⟩
  tlsSent n h _ _ := ⟨h.1.touch _ h.2 (by simp [Io.detaches]), h.2⟩
  tlsWait r h _ _ _ := ⟨h.1.touch _ h.2 (by simp [Io.detaches]), h.2⟩
  respond draining h _ _ := ⟨h.1.respond h.2 _ _ draining, h.2⟩
  start h _ _ := h.1.touch _ h.2 (by simp [Io.detaches])
  readArrives h _ hfd _ :=
    ⟨(h.silent [.readDone] (by simp [Io.touches, Io.detaches])).congr rfl rfl rfl, hfd⟩
  readDropped h _ _ :=
    (h.silent [.readDone] (by simp [Io.touches, Io.detaches])).congr rfl rfl rfl
  sendDropped res h _ _ := h.silent _ (by simp [Io.touches, Io.detaches])
  handshakePoll h _ _ :=
    (h.silent [.pollDone] (by simp [Io.touches, Io.detaches])).congr rfl rfl rfl
  pollDropped h _ _ := h.silent _ (by simp [Io.touches, Io.detaches])
  closeArrives h hcloses := by
    have hfd := h.detached_of_closesInFlight hcloses
    refine Quiet.silent (h.congr ?_ hfd.symm ?_) _ (by simp [Io.touches, Io.detaches])
    · rfl
    · rfl
  put h := h.silent _ (by simp [Io.touches, Io.detaches])
  expire sync armed h _ := h.close sync armed

lemma quiet_initial (tls : Bool) : Quiet (IoView.initial tls) :=
  ⟨List.Pairwise.nil, by simp [IoView.initial], by simp [IoView.initial]⟩

lemma Quiet.refuse (h : Quiet v) (hfd : v.fdOpen = true) (tx : TxState) (draining : Bool) :
    Quiet ((v.respond tx true draining).post tx.writeBuf) :=
  (h.respond hfd tx true draining).touch _ hfd (by simp [Io.detaches])

lemma quiet_accept (w : Worker L) (vhost : Option Vhost) (tls : Bool) (arena : List Bool)
    (hs : HsStatus) (env : Env) : Quiet (acceptSession w vhost tls arena hs env).loop.view := by
  refine (quietRules w).accepts vhost tls arena hs env (quiet_initial tls) ?_
  intro _ v tx h _ hfd _ _ _ _
  exact h.refuse hfd tx v.draining

/-! ## Runs -/

/-- Data received by a live connection leave nothing that the stash cannot take. -/
def LeftoverFits (s : Session L) (e : SessionEvent × Env) : Prop :=
  match e.1 with
  | .io (.recv (.data buf)) =>
    s.loop.conn.fdOpen = true → s.loop.conn.closing = false → s.stashFits buf e.2
  | _ => True

instance (s : Session L) (e : SessionEvent × Env) : Decidable (LeftoverFits s e) :=
  match e with
  | ⟨.io (.recv (.data _)), _⟩ => inferInstanceAs (Decidable (_ → _ → _))
  | ⟨.io (.recv .noBuffer), _⟩ => inferInstanceAs (Decidable True)
  | ⟨.io (.recv .again), _⟩ => inferInstanceAs (Decidable True)
  | ⟨.io (.recv .closed), _⟩ => inferInstanceAs (Decidable True)
  | ⟨.io (.tlsRead _), _⟩ => inferInstanceAs (Decidable True)
  | ⟨.io (.write _), _⟩ => inferInstanceAs (Decidable True)
  | ⟨.io .writeReady, _⟩ => inferInstanceAs (Decidable True)
  | ⟨.io .shutdown, _⟩ => inferInstanceAs (Decidable True)
  | ⟨.io .expire, _⟩ => inferInstanceAs (Decidable True)
  | ⟨.handshakeRead _ _, _⟩ => inferInstanceAs (Decidable True)
  | ⟨.handshakeReady _, _⟩ => inferInstanceAs (Decidable True)
  | ⟨.closed, _⟩ => inferInstanceAs (Decidable True)
  | ⟨.timeout, _⟩ => inferInstanceAs (Decidable True)

lemma Quiet.step {w : Worker L} {s : Session L} (h : Quiet s.loop.view) {e : SessionEvent × Env}
    (hen : s.enabled e = true) (hfits : LeftoverFits s e) : Quiet (s.step w e).loop.view := by
  refine (quietRules w).step h e hen (fun res _ _ hfd => ⟨h.silent _ ?_, hfd⟩)
    (fun _ _ hfd => (quietRules w).disarmPoll ⟨h.silent _ ?_, hfd⟩) (fun buf he hfd hclosing => Or.inl ?_)
    (fun rs _ => Or.inl ?_) (fun _ hprogress => (quietRules w).timesOut h fun tx _ _ => ?_)
  · simp [Io.touches, Io.detaches]
  · simp [Io.touches, Io.detaches]
  · unfold LeftoverFits at hfits
    rw [he] at hfits
    exact hfits hfd hclosing
  · -- a settled connection that is not closing still has its descriptor
    intro v hv hclosing
    refine ⟨hv, Bool.not_eq_false _ ▸ fun hfd => ?_⟩
    simp [hv.closing hfd] at hclosing
  · unfold Session.requestInProgress at hprogress
    simp only [Bool.and_eq_true] at hprogress
    exact h.refuse hprogress.1.1.1.1.1 tx _

/-- **Closed means closed.**  In every session whose received data always leave what fits the stash,
nothing touches the descriptor once it was given away. -/
theorem quietAfterClose_of_leftoverFits (w : Worker L) (vhost : Option Vhost) (tls : Bool)
    (arena : List Bool) (hs : HsStatus) (env : Env) {es : List (SessionEvent × Env)} {s : Session L}
    (hrun : Run (Session.step w) (fun s e => s.enabled e = true ∧ LeftoverFits s e)
      (acceptSession w vhost tls arena hs env) es s) : QuietAfterClose s.history :=
  (hrun.invariant (fun _ s => Quiet s.loop.view) (quiet_accept w vhost tls arena hs env)
    fun _ _ _ h hok => h.step hok.1 hok.2).quiet

/-- A request is answered, and then the client closes. -/
def servedThenClosed : List (SessionEvent × Env) :=
  [(.io (.recv (.data (scriptBytes bareRequest))), {}),
   (.io (.write (.sent 1)), {}),
   (.io (.recv .closed), {}),
   (.closed, {})]

/-- That session posts its response and then the close. -/
def servedThenClosedScript :
    Script (Session.step (sampleWorker (scripted bareRequest)))
      (fun s e => s.enabled e = true ∧ LeftoverFits s e)
      (acceptSession (sampleWorker (scripted bareRequest)) (some {}) false [] .done {})
      fun s => (Io.postSend [1] ∈ s.history ∧ Io.postClose ∈ s.history) where
  events := servedThenClosed
  allowed := by decide +kernel
  ends := by decide +kernel

/-- The descriptor of that session is given away, and is left alone from then on. -/
theorem quietAfterClose_served_then_closed :
    ∃ s, Run (Session.step (sampleWorker (scripted bareRequest)))
        (fun s e => s.enabled e = true ∧ LeftoverFits s e)
        (acceptSession (sampleWorker (scripted bareRequest)) (some {}) false [] .done {})
        servedThenClosed s ∧
      (Io.postSend [1] ∈ s.history ∧ Io.postClose ∈ s.history) ∧ QuietAfterClose s.history := by
  obtain ⟨s, hrun, hclosed⟩ := servedThenClosedScript.exists_run
  exact ⟨s, hrun, hclosed, quietAfterClose_of_leftoverFits _ _ _ _ _ _ hrun⟩

/-- A request and one byte more arrive while there is no stash block. -/
def overflowScript :
    Script (Session.step (sampleWorker (scripted bareRequest)))
      (fun s e => s.enabled e = true)
      (acceptSession (sampleWorker (scripted bareRequest)) (some {}) false [] .done {})
      fun s => s.history.drop 4 =
      [.postClose, .storeDel, .put, .respond [1] none, .ref, .postSend [1], .put] ∧
      ¬ QuietAfterClose s.history where
  events := [(.io (.recv (.data (scriptBytes bareRequest ++ [71]))), { stashBlocks := [false] })]
  allowed := by decide +kernel
  ends := by decide +kernel

/-- A request and one byte more arrive while there is no stash block: the connection is closed, and the
response is sent on the descriptor that was given away. -/
theorem quietAfterClose_fails_on_overflow :
    ∃ s, Run (Session.step (sampleWorker (scripted bareRequest))) (fun s e => s.enabled e = true)
        (acceptSession (sampleWorker (scripted bareRequest)) (some {}) false [] .done {})
        [(.io (.recv (.data (scriptBytes bareRequest ++ [71]))), { stashBlocks := [false] })] s ∧
      s.history.drop 4 =
        [.postClose, .storeDel, .put, .respond [1] none, .ref, .postSend [1], .put] ∧
      ¬ QuietAfterClose s.history :=
  overflowScript.exists_run

end Lamseryn
