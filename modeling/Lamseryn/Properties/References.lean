import Lamseryn.Framework.Monitor
import Lamseryn.Properties.SessionRules

/-!
# References to a connection

A connection is referenced by the descriptor store and by every operation in flight; a handled completion
keeps the reference of its operation until the handler is done.  `Holding` is the account of these
references over a history, and `lifeMonitor` says what each entry needs: the connection is touched only
while it is referenced, an operation completes only if it is in flight, and the descriptor is closed once.

The handlers keep the account balanced (`holdRules`), whether they run on a completion, which lends them a
reference, or on accept and on deadlines, which do not.
-/

namespace Lamseryn

open ByteText GuardedRun TraceMonitor IoView

/-! ## The account -/

/-- The references to a connection and what they are for; `closes` counts how often its descriptor was
given away. -/
structure Holding where
  refs : ℕ := 1
  stored : Bool := true
  reads : ℕ := 0
  sends : ℕ := 0
  polls : ℕ := 0
  closing : ℕ := 0
  closes : ℕ := 0
  deriving DecidableEq

/-- The account after an entry of the history. -/
@[simp] def Holding.next (t : Holding) : Io → Holding
  | .ref => { t with refs := t.refs + 1 }
  | .put => { t with refs := t.refs - 1 }
  | .postRead => { t with reads := t.reads + 1 }
  | .readDone => { t with reads := t.reads - 1 }
  | .postSend _ => { t with sends := t.sends + 1 }
  | .sendDone _ => { t with sends := t.sends - 1 }
  | .postPollOut => { t with polls := t.polls + 1 }
  | .pollDone => { t with polls := t.polls - 1 }
  | .postClose => { t with closing := t.closing + 1, closes := t.closes + 1 }
  | .closeDone => { t with closing := t.closing - 1 }
  | .closeFd => { t with closes := t.closes + 1 }
  | .storeDel => { t with stored := false }
  | _ => t

/-- What must hold before an entry, besides a reference. -/
def Holding.guard (t : Holding) : Io → Prop
  | .readDone => 0 < t.reads
  | .sendDone _ => 0 < t.sends
  | .pollDone => 0 < t.polls
  | .closeDone => 0 < t.closing
  | .postClose => t.closes = 0
  | .closeFd => t.closes = 0
  | .storeDel => t.stored = true
  | _ => True

/-- The monitor of the account: every entry needs a reference. -/
def lifeMonitor : Monitor Holding Io where
  start := {}
  next := Holding.next
  allows t op := 0 < t.refs ∧ t.guard op

/-- The account of a history. -/
def holding (h : List Io) : Holding :=
  lifeMonitor.state h

/-- The references that are needed: one for the store and one for each operation in flight. -/
def Holding.needed (t : Holding) : ℕ :=
  t.stored.toNat + t.reads + t.sends + t.polls + t.closing

section Accepted

variable {h : List Io}

lemma holding_append (h ops : List Io) : holding (h ++ ops) = ops.foldl Holding.next (holding h) :=
  lifeMonitor.state_append h ops

lemma lifeMonitor_append (h ops : List Io) : lifeMonitor.Accepts (h ++ ops) ↔
    lifeMonitor.Accepts h ∧ lifeMonitor.AcceptsFrom (holding h) ops :=
  lifeMonitor.accepts_append h ops

lemma holding_reads (hacc : lifeMonitor.Accepts h) : readsInFlight h = (holding h).reads := by
  have hcount := hacc.countP_sub Holding.reads (· == .postRead) (· == .readDone) ?_
  · rwa [show lifeMonitor.start.reads = 0 from rfl, Nat.zero_add] at hcount
  · rintro t op ⟨-, hguard⟩
    cases op with
    | readDone => exact Nat.sub_add_cancel hguard
    | _ => rfl

lemma holding_sends (hacc : lifeMonitor.Accepts h) : sendsInFlight h = (holding h).sends := by
  have hcount := hacc.countP_sub Holding.sends Io.isPostSend Io.isSendDone ?_
  · rwa [show lifeMonitor.start.sends = 0 from rfl, Nat.zero_add] at hcount
  · rintro t op ⟨-, hguard⟩
    cases op with
    | sendDone res => exact Nat.sub_add_cancel hguard
    | _ => rfl

lemma holding_polls (hacc : lifeMonitor.Accepts h) : pollsInFlight h = (holding h).polls := by
  have hcount := hacc.countP_sub Holding.polls (· == .postPollOut) (· == .pollDone) ?_
  · rwa [show lifeMonitor.start.polls = 0 from rfl, Nat.zero_add] at hcount
  · rintro t op ⟨-, hguard⟩
    cases op with
    | pollDone => exact Nat.sub_add_cancel hguard
    | _ => rfl

lemma holding_closing (hacc : lifeMonitor.Accepts h) : closesInFlight h = (holding h).closing := by
  have hcount := hacc.countP_sub Holding.closing (· == .postClose) (· == .closeDone) ?_
  · rwa [show lifeMonitor.start.closing = 0 from rfl, Nat.zero_add] at hcount
  · rintro t op ⟨-, hguard⟩
    cases op with
    | closeDone => exact Nat.sub_add_cancel hguard
    | _ => rfl

end Accepted

/-! ## The invariant -/

variable {L : Llhttp} {v v' : IoView} {lent lent' : ℕ}

/-- The account is balanced, but for the references lent to the handler; the store holds the connection
exactly while it has its descriptor, which was given away at most once. -/
structure Held (lent : ℕ) (v : IoView) : Prop where
  accepts : lifeMonitor.Accepts v.history
  balance : (holding v.history).refs = (holding v.history).needed + lent
  stored : (holding v.history).stored = v.fdOpen
  closes : (holding v.history).closes = (!v.fdOpen).toNat
  reads : (holding v.history).reads = v.recvOps
  detached : v.fdOpen = false → v.closing = true

/-- A held connection with its descriptor. -/
def HeldOpen (lent : ℕ) (v : IoView) : Prop :=
  Held lent v ∧ v.fdOpen = true

lemma Held.alive (h : Held lent v) (hwhy : 0 < lent ∨ v.fdOpen = true) : 0 < (holding v.history).refs := by
  rw [h.balance]
  rcases hwhy with hlent | hfd
  · omega
  · unfold Holding.needed
    rw [h.stored, hfd, Bool.toNat_true]
    omega

lemma HeldOpen.alive (h : HeldOpen lent v) : 0 < (holding v.history).refs :=
  h.1.alive (Or.inr h.2)

lemma Held.step (h : Held lent v) (ops : List Io) (hhistory : v'.history = v.history ++ ops)
    (hacc : lifeMonitor.AcceptsFrom (holding v.history) ops)
    (hbalance : (ops.foldl Holding.next (holding v.history)).refs =
      (ops.foldl Holding.next (holding v.history)).needed + lent')
    (hstored : (ops.foldl Holding.next (holding v.history)).stored = v'.fdOpen)
    (hcloses : (ops.foldl Holding.next (holding v.history)).closes = (!v'.fdOpen).toNat)
    (hreads : (ops.foldl Holding.next (holding v.history)).reads = v'.recvOps)
    (hdetached : v'.fdOpen = false → v'.closing = true) : Held lent' v' := by
  have hholding : holding v'.history = ops.foldl Holding.next (holding v.history) := by
    rw [hhistory, holding_append]
  refine ⟨?_, hholding ▸ hbalance, hholding ▸ hstored, hholding ▸ hcloses, hholding ▸ hreads, hdetached⟩
  rw [hhistory]
  exact (lifeMonitor_append _ _).mpr ⟨h.accepts, hacc⟩

/-- Entries that move no reference: calls on the descriptor and the ends of a response. -/
def Io.free : Io → Bool
  | .sendfile _ _ => true
  | .tlsSend _ _ => true
  | .respond _ _ => true
  | .reset => true
  | _ => false

lemma Held.free (h : Held lent v) (op : Io) (hop : op.free = true)
    (halive : 0 < (holding v.history).refs) (hhistory : v'.history = v.history ++ [op])
    (hfd : v'.fdOpen = v.fdOpen) (hrecv : v'.recvOps = v.recvOps)
    (hdetached : v'.fdOpen = false → v'.closing = true) : Held lent v' := by
  have hnext : (holding v.history).next op = holding v.history ∧ (holding v.history).guard op := by
    cases op with
    | sendfile rest res => exact ⟨rfl, trivial⟩
    | tlsSend buf res => exact ⟨rfl, trivial⟩
    | respond buf file => exact ⟨rfl, trivial⟩
    | reset => exact ⟨rfl, trivial⟩
    | _ => simp [Io.free] at hop
  refine h.step [op] hhistory ⟨⟨halive, hnext.2⟩, trivial⟩ ?_ ?_ ?_ ?_ hdetached
  · rw [List.foldl_cons, List.foldl_nil, hnext.1]
    exact h.balance
  · rw [List.foldl_cons, List.foldl_nil, hnext.1, hfd]
    exact h.stored
  · rw [List.foldl_cons, List.foldl_nil, hnext.1, hfd]
    exact h.closes
  · rw [List.foldl_cons, List.foldl_nil, hnext.1, hrecv]
    exact h.reads

lemma Held.congr (h : Held lent v) (hhistory : v'.history = v.history) (hfd : v'.fdOpen = v.fdOpen)
    (hrecv : v'.recvOps = v.recvOps) (hclosing : v'.closing = v.closing) : Held lent v' := by
  refine h.step [] (hhistory.trans (List.append_nil _).symm) trivial h.balance ?_ ?_ ?_ ?_
  · rw [hfd]
    exact h.stored
  · rw [hfd]
    exact h.closes
  · rw [hrecv]
    exact h.reads
  · rw [hfd, hclosing]
    exact h.detached

/-! ### Posted operations -/

lemma Held.armRead (h : Held lent v) (halive : 0 < (holding v.history).refs) : Held lent v.armRead := by
  have hbal := h.balance
  unfold Holding.needed at hbal
  refine h.step [.ref, .postRead] rfl ⟨⟨halive, trivial⟩, ⟨Nat.succ_pos _, trivial⟩, trivial⟩ ?_ h.stored
    h.closes (congrArg (· + 1) h.reads) h.detached
  simp only [List.foldl_cons, List.foldl_nil, Holding.next, Holding.needed]
  omega

lemma Held.armPoll (h : Held lent v) (halive : 0 < (holding v.history).refs) : Held lent v.armPoll := by
  have hbal := h.balance
  unfold Holding.needed at hbal
  refine h.step [.ref, .postPollOut] rfl ⟨⟨halive, trivial⟩, ⟨Nat.succ_pos _, trivial⟩, trivial⟩ ?_
    h.stored h.closes h.reads h.detached
  simp only [List.foldl_cons, List.foldl_nil, Holding.next, Holding.needed]
  omega

lemma Held.post (h : Held lent v) (halive : 0 < (holding v.history).refs) (buf : Bytes) :
    Held lent (v.post buf) := by
  have hbal := h.balance
  unfold Holding.needed at hbal
  refine h.step [.ref, .postSend buf] rfl ⟨⟨halive, trivial⟩, ⟨Nat.succ_pos _, trivial⟩, trivial⟩ ?_
    h.stored h.closes h.reads h.detached
  simp only [List.foldl_cons, List.foldl_nil, Holding.next, Holding.needed]
  omega

lemma Held.refPut (h : Held lent v) (halive : 0 < (holding v.history).refs) :
    Held lent (v.emit [.ref, .put]) := by
  have hbal := h.balance
  unfold Holding.needed at hbal
  refine h.step [.ref, .put] rfl ⟨⟨halive, trivial⟩, ⟨Nat.succ_pos _, trivial⟩, trivial⟩ ?_ h.stored
    h.closes h.reads h.detached
  simp only [List.foldl_cons, List.foldl_nil, Holding.next, Holding.needed]
  omega

/-- **Closing** gives the reference of the store to the close, or drops it with the one just taken. -/
lemma Held.close (h : Held lent v) (hfd : v.fdOpen = true) (sync armed : Bool) :
    Held lent (v.close sync armed) := by
  have halive := h.alive (Or.inr hfd)
  have hstored := h.stored.trans hfd
  have hcloses : (holding v.history).closes = 0 := by
    rw [h.closes, hfd]
    rfl
  have hbal := h.balance
  unfold Holding.needed at hbal
  rw [hstored, Bool.toNat_true] at hbal
  cases sync with
  | true =>
    refine h.step [.ref, .closeFd, .storeDel, .put, .put] rfl ?_ ?_ rfl ?_ h.reads fun _ => rfl
    · simp only [Monitor.AcceptsFrom, lifeMonitor, Holding.next, Holding.guard, and_true]
      refine ⟨halive, ⟨Nat.succ_pos _, hcloses⟩, ⟨Nat.succ_pos _, hstored⟩, Nat.succ_pos _, ?_⟩
      exact halive
    · simp only [List.foldl_cons, List.foldl_nil, Holding.next, Holding.needed, Bool.toNat_false]
      omega
    · exact congrArg (· + 1) hcloses
  | false =>
    refine h.step [.ref, .postClose, .storeDel, .put] rfl ?_ ?_ rfl ?_ h.reads fun _ => rfl
    · simp only [Monitor.AcceptsFrom, lifeMonitor, Holding.next, Holding.guard, and_true]
      exact ⟨halive, ⟨Nat.succ_pos _, hcloses⟩, ⟨Nat.succ_pos _, hstored⟩, Nat.succ_pos _⟩
    · simp only [List.foldl_cons, List.foldl_nil, Holding.next, Holding.needed, Bool.toNat_false]
      omega
    · exact congrArg (· + 1) hcloses

/-! ### Completions -/

lemma Held.readDone (h : Held 0 v) (hreads : 0 < v.recvOps) : Held 1 v.readDone := by
  have hpos : 0 < (holding v.history).reads := h.reads ▸ hreads
  have hbal := h.balance
  unfold Holding.needed at hbal
  refine h.step [.readDone] rfl ⟨⟨by omega, hpos⟩, trivial⟩ ?_ h.stored h.closes
    (congrArg (· - 1) h.reads) h.detached
  simp only [List.foldl_cons, List.foldl_nil, Holding.next, Holding.needed]
  omega

lemma Held.sendDone (h : Held 0 v) (res : IoRes) (hsends : 0 < sendsInFlight v.history) :
    Held 1 (v.emit [.sendDone res]) := by
  rw [holding_sends h.accepts] at hsends
  have hbal := h.balance
  unfold Holding.needed at hbal
  refine h.step [.sendDone res] rfl ⟨⟨by omega, hsends⟩, trivial⟩ ?_ h.stored h.closes h.reads h.detached
  simp only [List.foldl_cons, List.foldl_nil, Holding.next, Holding.needed]
  omega

lemma Held.pollDone (h : Held 0 v) (hpolls : 0 < pollsInFlight v.history) :
    Held 1 (v.emit [.pollDone]) := by
  rw [holding_polls h.accepts] at hpolls
  have hbal := h.balance
  unfold Holding.needed at hbal
  refine h.step [.pollDone] rfl ⟨⟨by omega, hpolls⟩, trivial⟩ ?_ h.stored h.closes h.reads h.detached
  simp only [List.foldl_cons, List.foldl_nil, Holding.next, Holding.needed]
  omega

lemma Held.put (h : Held 1 v) : Held 0 (v.emit [.put]) := by
  have hbal := h.balance
  unfold Holding.needed at hbal
  refine h.step [.put] rfl ⟨⟨h.alive (Or.inl Nat.one_pos), trivial⟩, trivial⟩ ?_ h.stored h.closes
    h.reads h.detached
  simp only [List.foldl_cons, List.foldl_nil, Holding.next, Holding.needed]
  omega

lemma closing_le_closes {h : List Io} (hacc : lifeMonitor.Accepts h) :
    (holding h).closing ≤ (holding h).closes := by
  refine hacc.invariant (fun _ t => t.closing ≤ t.closes) le_rfl ?_
  intro _ t op hle _
  cases op with
  | postClose => exact Nat.succ_le_succ hle
  | closeFd => exact le_trans hle (Nat.le_succ _)
  | closeDone => exact le_trans (Nat.sub_le _ _) hle
  | _ => exact hle

lemma Held.closeDone (h : Held 0 v) (hclosing : 0 < closesInFlight v.history) :
    Held 0 ({ v with fdOpen := false }.emit [.closeDone, .put]) := by
  rw [holding_closing h.accepts] at hclosing
  have hfd : v.fdOpen = false := by
    have hle := closing_le_closes h.accepts
    rw [h.closes] at hle
    refine Bool.eq_false_iff.mpr fun hfd => ?_
    rw [hfd] at hle
    simp at hle
    omega
  have hbal := h.balance
  unfold Holding.needed at hbal
  refine h.step [.closeDone, .put] rfl ?_ ?_ (h.stored.trans hfd) ?_ h.reads fun _ => h.detached hfd
  · simp only [Monitor.AcceptsFrom, lifeMonitor, Holding.next, Holding.guard, and_true]
    exact ⟨⟨by omega, hclosing⟩, by omega⟩
  · simp only [List.foldl_cons, List.foldl_nil, Holding.next, Holding.needed]
    omega
  · rw [← hfd]
    exact h.closes

/-! ## The rules -/

lemma HeldOpen.free (h : HeldOpen lent v) (op : Io) (hop : op.free = true)
    (hhistory : v'.history = v.history ++ [op]) (hfd : v'.fdOpen = v.fdOpen)
    (hrecv : v'.recvOps = v.recvOps) : HeldOpen lent v' := by
  refine ⟨h.1.free op hop h.alive hhistory hfd hrecv fun hclosed => ?_, hfd.trans h.2⟩
  exact absurd (hclosed.symm.trans (hfd.trans h.2)) (by decide)

/-- **The handlers keep the account**, with a lent reference or without. -/
lemma holdRules (w : Worker L) (lent : ℕ) : HandlerRules w (HeldOpen lent) (fun _ => HeldOpen lent)
    (HeldOpen lent) (Held lent) (Held lent) where
  idle h := h.1
  parsed _ h := ⟨h.1.congr rfl rfl rfl rfl, h.2⟩
  waiting h := h.1
  settled h := h
  disarmPoll h := ⟨h.1.congr rfl rfl rfl rfl, h.2⟩
  refPut h := ⟨h.1.refPut h.alive, h.2⟩
  close sync armed h hfd := h.close hfd sync armed
  read h hfd _ _ := h.armRead (h.alive (Or.inr hfd))
  poll h := h.1.armPoll h.alive
  tlsPoll h _ hfd := h.armPoll (h.alive (Or.inr hfd))
  advance h := ⟨h.1.congr rfl rfl rfl rfl, h.2⟩
  more h _ := (h.1.post h.alive _).congr rfl rfl rfl rfl
  resend h _ _ := h.1.post h.alive _
  sendfile r h _ _ := h.free (.sendfile _ r) rfl rfl rfl rfl
  dropFile h _ := ⟨h.1.congr rfl rfl rfl rfl, h.2⟩
  discard h _ := ⟨h.1.congr rfl rfl rfl rfl, h.2⟩
  reset h _ _ _ := h.free .reset rfl rfl rfl rfl
  tlsSent _ h _ _ := h.free _ rfl rfl rfl rfl
  tlsWait _ h _ _ _ := h.free _ rfl rfl rfl rfl
  respond _ h _ _ := h.free (.respond _ _) rfl rfl rfl rfl
  start h _ _ := h.1.post h.alive _

lemma lifeRules (w : Worker L) : SessionRules w (Held 0) (HeldOpen 1) (fun _ => HeldOpen 1) (HeldOpen 1)
    (Held 1) (Held 1) where
  toHandlerRules := holdRules w 1
  readArrives h hreads hfd _ := ⟨(h.readDone hreads).congr rfl rfl rfl rfl, hfd⟩
  readDropped h hreads _ := h.readDone hreads
  sendDropped res h hsends _ := h.sendDone res hsends
  handshakePoll h hpolls _ := (h.pollDone hpolls).congr rfl rfl rfl rfl
  pollDropped h hpolls _ := h.pollDone hpolls
  closeArrives h hclosing := h.closeDone hclosing
  put h := h.put
  expire sync armed h hfd := h.close hfd sync armed

/-! ## Sessions -/

lemma HeldOpen.refuse (h : HeldOpen lent v) (tx : TxState) (draining : Bool) :
    Held lent ((v.respond tx true draining).post tx.writeBuf) := by
  have hplaced : HeldOpen lent (v.respond tx true draining) :=
    h.free (.respond tx.writeBuf tx.file) rfl rfl rfl rfl
  exact hplaced.1.post hplaced.alive _

lemma held_accept (w : Worker L) (vhost : Option Vhost) (tls : Bool) (arena : List Bool) (hs : HsStatus)
    (env : Env) : Held 0 (acceptSession w vhost tls arena hs env).loop.view := by
  refine (holdRules w 0).accepts vhost tls arena hs env ?_ ?_
  · exact ⟨trivial, rfl, rfl, rfl, rfl, fun hclosed => by simp [IoView.initial] at hclosed⟩
  · intro _ v tx h _ hfd _ _ _ _
    exact HeldOpen.refuse ⟨h, hfd⟩ tx v.draining

lemma lifeRules_late (w : Worker L) : ToleratesLate w (Held 1) (Held 1) := by
  intro v sync armed tx closing draining h hfd _ hplaces
  have hclosed := h.close hfd sync armed
  have hplaced : Held 1 ((v.close sync armed).respond tx closing draining) := by
    refine hclosed.free (.respond tx.writeBuf tx.file) rfl (hclosed.alive (Or.inl Nat.one_pos)) rfl rfl
      rfl fun _ => ?_
    exact hplaces.closing.elim id And.left
  exact hplaced.post (hplaced.alive (Or.inl Nat.one_pos)) _

/-- **One step of a session keeps its references balanced.** -/
lemma Held.step_session {w : Worker L} {s : Session L} (h : Held 0 s.loop.view) {e : SessionEvent × Env}
    (hen : s.enabled e = true) : Held 0 (s.step w e).loop.view := by
  refine (lifeRules w).step h e hen (fun res _ hsends hfd => ⟨h.sendDone res hsends, hfd⟩)
    (fun _ hpolls hfd => (lifeRules w).disarmPoll ⟨h.pollDone hpolls, hfd⟩)
    (fun _ _ _ _ => Or.inr (lifeRules_late w)) (fun _ _ => Or.inl ?_) (fun _ hprogress => (lifeRules w).timesOut h fun tx _ _ => ?_)
  · -- a settled connection that is not closing still has its descriptor
    intro v hv hclosing
    refine ⟨hv, Bool.not_eq_false _ ▸ fun hfd => ?_⟩
    simp [hv.detached hfd] at hclosing
  · unfold Session.requestInProgress at hprogress
    simp only [Bool.and_eq_true] at hprogress
    exact HeldOpen.refuse ⟨h, hprogress.1.1.1.1.1⟩ tx _

end Lamseryn
