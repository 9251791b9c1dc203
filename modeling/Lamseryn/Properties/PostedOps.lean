import Lamseryn.Framework.Runs
import Lamseryn.Properties.SessionRules

/-!
# Flags and posted operations

Two flags of a connection speak about operations in the ring: `write_poll_armed` about a write poll and
the descriptor about its close.  In every session, plain or TLS, a write poll that is flagged is in flight,
and no close was posted for a descriptor that is still there (`Posted`).

A connection that is closing without a response ignores the completion of its poll, so the flag says
nothing there.
-/

namespace Lamseryn

open ByteText GuardedRun IoView

variable {L : Llhttp} {v v' : IoView}

/-- The flag of the write poll is set, on a connection that will take note of its completion. -/
def IoView.PollFlagged (v : IoView) : Prop :=
  v.tx.writePollArmed = true ∧ ¬ (v.closing = true ∧ v.tx.respKind = .none)

/-- The flags are right about the operations in the history. -/
structure Posted (v : IoView) : Prop where
  pollsDone : v.history.count .pollDone ≤ v.history.count .postPollOut
  pollArmed : v.fdOpen = true → v.PollFlagged →
    v.history.count .pollDone < v.history.count .postPollOut
  unclosed : v.fdOpen = true → .postClose ∉ v.history

lemma Posted.polls (h : Posted v) (hfd : v.fdOpen = true) (hflag : v.PollFlagged) :
    0 < pollsInFlight v.history :=
  Nat.sub_pos_of_lt (h.pollArmed hfd hflag)

lemma Posted.closesInFlight (h : Posted v) (hfd : v.fdOpen = true) : closesInFlight v.history = 0 := by
  unfold Lamseryn.closesInFlight
  rw [List.count_eq_zero.mpr (h.unclosed hfd), Nat.zero_sub]

/-- Neither a poll nor a close. -/
def Io.isAside : Io → Bool
  | .postPollOut | .pollDone | .postClose => false
  | _ => true

lemma count_append_aside {ops : List Io} (hops : ∀ op ∈ ops, op.isAside = true) (h : List Io) (op : Io)
    (hop : op.isAside = false) : (h ++ ops).count op = h.count op := by
  have hnone : ops.count op = 0 := by
    refine List.count_eq_zero.mpr fun hmem => ?_
    exact absurd (hops op hmem) (by simp [hop])
  rw [List.count_append, hnone, Nat.add_zero]

lemma Posted.aside (h : Posted v) (ops : List Io) (hhistory : v'.history = v.history ++ ops)
    (hops : ∀ op ∈ ops, op.isAside = true) (hfd : v'.fdOpen = v.fdOpen)
    (hflag : v'.PollFlagged → v.PollFlagged) : Posted v' := by
  have hpost := count_append_aside hops v.history .postPollOut rfl
  have hdone := count_append_aside hops v.history .pollDone rfl
  refine ⟨?_, ?_, ?_⟩
  · rw [hhistory, hpost, hdone]
    exact h.pollsDone
  · intro hopen hflagged
    rw [hhistory, hpost, hdone]
    exact h.pollArmed (hfd.symm.trans hopen) (hflag hflagged)
  · intro hopen hmem
    rw [hhistory] at hmem
    rcases List.mem_append.mp hmem with hold | hnew
    · exact h.unclosed (hfd.symm.trans hopen) hold
    · exact absurd (hops _ hnew) (by simp [Io.isAside])

lemma Posted.armPoll (h : Posted v) : Posted v.armPoll := by
  have hpost : v.armPoll.history.count .postPollOut = v.history.count .postPollOut + 1 := by
    simp [IoView.armPoll, IoView.emit, IoView.setTx, List.count_append]
  have hdone : v.armPoll.history.count .pollDone = v.history.count .pollDone := by
    simp [IoView.armPoll, IoView.emit, IoView.setTx, List.count_append]
  have hle := h.pollsDone
  refine ⟨by omega, fun _ _ => by omega, fun hfd hmem => ?_⟩
  simp only [IoView.armPoll, IoView.emit, IoView.setTx, List.mem_append] at hmem
  rcases hmem with hold | hnew
  · exact h.unclosed hfd hold
  · simp at hnew

lemma Posted.detach (h : Posted v) (ops : List Io) (hhistory : v'.history = v.history ++ ops)
    (hpolls : ops.count .postPollOut = 0 ∧ ops.count .pollDone = 0) (hfd : v'.fdOpen = false) :
    Posted v' := by
  refine ⟨?_, fun hopen => ?_, fun hopen => ?_⟩
  · rw [hhistory, List.count_append, List.count_append, hpolls.1, hpolls.2]
    exact h.pollsDone
  · exact absurd (hopen.symm.trans hfd) (by decide)
  · exact absurd (hopen.symm.trans hfd) (by decide)

lemma Posted.close (h : Posted v) (sync armed : Bool) : Posted (v.close sync armed) :=
  h.detach (closeOps sync) rfl (by cases sync <;> simp [closeOps]) rfl

lemma Posted.pollDone (h : Posted v) (hpolls : 0 < pollsInFlight v.history)
    (hhistory : v'.history = v.history ++ [.pollDone]) (hfd : v'.fdOpen = v.fdOpen)
    (hnote : v'.fdOpen = true → ¬ v'.PollFlagged) : Posted v' := by
  unfold pollsInFlight at hpolls
  refine ⟨?_, fun hopen hflagged => absurd hflagged (hnote hopen), fun hopen hmem => ?_⟩
  · rw [hhistory, List.count_append, List.count_append]
    simp only [List.count_singleton_self, show List.count Io.postPollOut [.pollDone] = 0 from rfl]
    omega
  · rw [hhistory] at hmem
    rcases List.mem_append.mp hmem with hold | hnew
    · exact h.unclosed (hfd.symm.trans hopen) hold
    · simp at hnew

/-! ## The handlers -/

lemma txOnHeadersResult_flags (tx : TxState) (res : IoRes) :
    (txOnHeadersResult tx res).1.writePollArmed = tx.writePollArmed ∧
      (txOnHeadersResult tx res).1.respKind = tx.respKind := by
  unfold txOnHeadersResult
  split
  · exact ⟨rfl, rfl⟩
  · exact ⟨rfl, rfl⟩
  · exact ⟨rfl, rfl⟩
  · exact ⟨rfl, rfl⟩
  · dsimp only
    split_ifs <;> exact ⟨rfl, rfl⟩

lemma txOnSendfileResult_flags (tx : TxState) (r : IoRes) :
    (txOnSendfileResult tx r).1.writePollArmed = tx.writePollArmed ∧
      (txOnSendfileResult tx r).1.respKind = tx.respKind := by
  unfold txOnSendfileResult
  split
  · exact ⟨rfl, rfl⟩
  · exact ⟨rfl, rfl⟩
  · exact ⟨rfl, rfl⟩
  · exact ⟨rfl, rfl⟩
  · dsimp only
    split_ifs <;> exact ⟨rfl, rfl⟩

/-- A connection on which a response may be placed. -/
def PostedFresh (v : IoView) : Prop :=
  Posted v ∧ v.closing = false

lemma PostedFresh.respond {w : Worker L} (h : PostedFresh v) {tx : TxState} {closing : Bool}
    (draining : Bool) (hplaces : Places w v tx closing) : Posted (v.respond tx closing draining) := by
  refine h.1.aside [.respond tx.writeBuf tx.file] rfl (by simp [Io.isAside]) rfl ?_
  rintro ⟨harmed, -⟩
  exact ⟨hplaces.poll.symm.trans harmed, fun hskip => absurd (h.2.symm.trans hskip.1) (by decide)⟩

lemma Posted.post (h : Posted v) (buf : Bytes) : Posted (v.post buf) :=
  h.aside [.ref, .postSend buf] rfl (by simp [Io.isAside]) rfl id

lemma Posted.setTx (h : Posted v) (tx : TxState) (hflag : tx.writePollArmed = v.tx.writePollArmed)
    (hkind : tx.respKind = v.tx.respKind) : Posted (v.setTx tx) := by
  refine h.aside [] (List.append_nil _).symm (by simp) rfl ?_
  rintro ⟨harmed, hlive⟩
  exact ⟨hflag.symm.trans harmed, fun hskip => hlive ⟨hskip.1, hkind.trans hskip.2⟩⟩

lemma Posted.advance (h : Posted v) (res : IoRes) : Posted (v.advance res) :=
  h.setTx _ (txOnHeadersResult_flags v.tx res).1 (txOnHeadersResult_flags v.tx res).2

lemma Posted.disarmPoll (h : Posted v) : Posted v.disarmPoll :=
  h.aside [] (List.append_nil _).symm (by simp) rfl fun hflag => absurd hflag.1 Bool.false_ne_true

lemma not_pollFlagged_disarmPoll (v : IoView) : ¬ v.disarmPoll.PollFlagged :=
  fun hflag => absurd hflag.1 Bool.false_ne_true

/-- **Every operation of the handlers keeps the flags right.** -/
lemma postedRules (w : Worker L) :
    SessionRules w Posted PostedFresh (fun _ => Posted) Posted Posted Posted where
  idle h := h.1
  parsed _ h := ⟨h.1.aside [] (List.append_nil _).symm (by simp) rfl id, h.2⟩
  waiting h := h
  settled h := h
  disarmPoll h := h.disarmPoll
  refPut h := h.aside [.ref, .put] rfl (by simp [Io.isAside]) rfl id
  close sync armed h _ := h.close sync armed
  read h _ _ _ := h.aside [.ref, .postRead] rfl (by simp [Io.isAside]) rfl id
  poll h := h.armPoll
  tlsPoll h _ _ := h.armPoll
  advance h := h.advance _
  more h _ := (h.advance _).post _
  resend h _ _ := h.post _
  sendfile {v} r h _ _ := by
    have hcalled : Posted (v.emit [.sendfile (v.tx.file.getD []) r]) :=
      h.aside [.sendfile _ r] rfl (by simp [Io.isAside]) rfl id
    exact hcalled.setTx _ (txOnSendfileResult_flags v.tx r).1 (txOnSendfileResult_flags v.tx r).2
  dropFile h _ := h.setTx _ rfl rfl
  discard h _ := h.setTx _ rfl rfl
  reset h _ _ _ :=
    ⟨h.aside [.reset] rfl (by simp [Io.isAside]) rfl fun hflag => absurd hflag.1 Bool.false_ne_true, rfl⟩
  tlsSent n h _ _ := h.aside [.tlsSend _ (.sent n)] rfl (by simp [Io.isAside]) rfl id
  tlsWait r h _ _ _ := h.aside [.tlsSend _ r] rfl (by simp [Io.isAside]) rfl id
  respond draining h hplaces _ := h.respond draining hplaces
  start h _ _ := h.post _
  readArrives h _ _ hclosing :=
    ⟨h.aside [.readDone] rfl (by simp [Io.isAside]) rfl id, hclosing⟩
  readDropped h _ _ := h.aside [.readDone] rfl (by simp [Io.isAside]) rfl id
  sendDropped res h _ _ := h.aside [.sendDone res] rfl (by simp [Io.isAside]) rfl id
  handshakePoll {v} h hpolls _ :=
    h.pollDone hpolls rfl rfl fun _ => not_pollFlagged_disarmPoll (v.emit [.pollDone])
  pollDropped h hpolls hskip := by
    refine h.pollDone hpolls rfl rfl fun hfd hflag => ?_
    rcases hskip with hclosed | hskip
    · exact absurd (hfd.symm.trans hclosed) (by decide)
    · exact hflag.2 hskip
  closeArrives h _ := h.detach [.closeDone, .put] rfl (by simp) rfl
  put h := h.aside [.put] rfl (by simp [Io.isAside]) rfl id
  expire sync armed h _ := h.close sync armed

/-! ## Sessions -/

lemma posted_initial (tls : Bool) : Posted (IoView.initial tls) :=
  ⟨le_rfl, fun _ hflag => absurd hflag.1 Bool.false_ne_true, by simp [IoView.initial]⟩

lemma posted_accept (w : Worker L) (vhost : Option Vhost) (tls : Bool) (arena : List Bool)
    (hs : HsStatus) (env : Env) : Posted (acceptSession w vhost tls arena hs env).loop.view := by
  refine (postedRules w).accepts vhost tls arena hs env (posted_initial tls) ?_
  intro _ v tx h _ _ hclosing _ hplaces _
  exact (PostedFresh.respond ⟨h, hclosing⟩ v.draining hplaces).post tx.writeBuf

lemma postedRules_late (w : Worker L) : ToleratesLate w Posted Posted := by
  intro v sync armed tx closing draining h _ _ _
  have hplaced : Posted ((v.close sync armed).respond tx closing draining) :=
    (h.close sync armed).detach [.respond tx.writeBuf tx.file] rfl (by simp) rfl
  exact hplaced.post tx.writeBuf

lemma Posted.step {w : Worker L} {s : Session L} (h : Posted s.loop.view) {e : SessionEvent × Env}
    (hen : s.enabled e = true) : Posted (s.step w e).loop.view := by
  refine (postedRules w).step h e hen
    (fun res _ _ _ => h.aside [.sendDone res] rfl (by simp [Io.isAside]) rfl id)
    (fun _ hpolls _ => (postedRules w).handshakePoll h hpolls ‹_›)
    (fun _ _ _ _ => Or.inr (postedRules_late w)) (fun _ _ => Or.inl fun v hv hclosing => ⟨hv, hclosing⟩)
    (fun _ hprogress => (postedRules w).timesOut h fun tx hplaces _ => ?_)
  unfold Session.requestInProgress at hprogress
  simp only [Bool.and_eq_true, Bool.not_eq_true'] at hprogress
  exact (PostedFresh.respond ⟨h, hprogress.1.1.2⟩ _ hplaces).post tx.writeBuf

/-- **In every session the flags are right about the posted operations.** -/
lemma posted_of_run {w : Worker L} {vhost : Option Vhost} {tls : Bool} {arena : List Bool}
    {hs : HsStatus} {env : Env} {es : List (SessionEvent × Env)} {s : Session L}
    (hrun : Run (Session.step w) (fun s e => s.enabled e = true)
      (acceptSession w vhost tls arena hs env) es s) : Posted s.loop.view :=
  hrun.invariant (fun _ s => Posted s.loop.view) (posted_accept w vhost tls arena hs env)
    fun _ _ _ h hen => h.step hen

end Lamseryn
