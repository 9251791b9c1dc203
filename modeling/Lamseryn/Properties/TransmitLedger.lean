import Lamseryn.Framework.Monitor
import Lamseryn.Properties.SessionRules
import Lamseryn.Properties.Scripted

/-!
# What the kernel accepts of a response

The history of a plain connection tells which bytes the kernel has accepted: those a completed `send`
reports of the bytes it was given, and those a `sendfile` reports.  `Ledger` keeps this account, together
with the sends and write polls that are outstanding, and `txMonitor` says what the account must allow at
each entry.  Every session over a plain connection is accepted, whatever the kernel answers and in
whatever order completions arrive: what was accepted is always a beginning of the response, a request is
only reset behind a whole response, and one operation at a time is at work.
-/

namespace Lamseryn

open ByteText GuardedRun TraceMonitor IoView

/-! ## The ledger -/

/-- The account of the current response: all of its bytes, those accepted so far, the buffers of
outstanding sends and the number of outstanding write polls. -/
structure Ledger where
  expected : Bytes := []
  accepted : Bytes := []
  sends : List Bytes := []
  polls : ℕ := 0
  deriving DecidableEq

/-- The bytes of a buffer that an operation with this result has accepted. -/
def IoRes.taken : IoRes → Bytes → Bytes
  | .sent n, buf => buf.take n
  | _, _ => []

/-- The account after an entry of the history. -/
def Ledger.next (t : Ledger) : Io → Ledger
  | .respond buf file => { t with expected := buf ++ file.getD [], accepted := [] }
  | .postSend buf => { t with sends := t.sends ++ [buf] }
  | .sendDone res =>
    { t with accepted := t.accepted ++ res.taken (t.sends.headD []), sends := t.sends.tail }
  | .sendfile rest res => { t with accepted := t.accepted ++ res.taken rest }
  | .postPollOut => { t with polls := t.polls + 1 }
  | .pollDone => { t with polls := t.polls - 1 }
  | _ => t

/-- What must hold before an entry. -/
def Ledger.guard (t : Ledger) : Io → Prop
  | .respond _ _ => t.sends = []
  | .postSend _ => t.sends = []
  | .sendDone _ => t.sends ≠ []
  | .sendfile _ _ => t.sends = []
  | .pollDone => 0 < t.polls
  | .reset => t.accepted = t.expected
  | _ => True

/-- The monitor of the account: after each entry, what is accepted is a beginning of what is
expected. -/
def txMonitor : Monitor Ledger Io where
  start := {}
  next := Ledger.next
  allows t op := t.guard op ∧ (t.next op).accepted <+: (t.next op).expected

/-- The account of a history. -/
def ledger (h : List Io) : Ledger :=
  txMonitor.state h

lemma ledger_append (h ops : List Io) : ledger (h ++ ops) = ops.foldl Ledger.next (ledger h) :=
  txMonitor.state_append h ops

/-- **Byte exactness of a history**: at all times what the kernel has accepted is a beginning of the
response and at most one send is outstanding; no send is outstanding at a `sendfile` or when a response
is placed; a request is reset only when its response was accepted as a whole. -/
structure TxExact (h : List Io) : Prop where
  accepted : ∀ p, p <+: h → (ledger p).accepted <+: (ledger p).expected
  oneSend : ∀ p, p <+: h → (ledger p).sends.length ≤ 1
  sendfileAlone : ∀ p rest res, p ++ [.sendfile rest res] <+: h → (ledger p).sends = []
  respondAlone : ∀ p buf file, p ++ [.respond buf file] <+: h → (ledger p).sends = []
  resetComplete : ∀ p, p ++ [.reset] <+: h → (ledger p).accepted = (ledger p).expected

section Accepted

variable {h : List Io}

lemma accepted_isPrefix (hacc : txMonitor.Accepts h) :
    (ledger h).accepted <+: (ledger h).expected := by
  refine hacc.invariant (fun _ t => t.accepted <+: t.expected) (List.prefix_refl _) ?_
  intro _ t op _ hallowed
  exact hallowed.2

lemma sends_length_le (hacc : txMonitor.Accepts h) : (ledger h).sends.length ≤ 1 := by
  refine hacc.invariant (fun _ t => t.sends.length ≤ 1) (by simp [txMonitor]) ?_
  intro _ t op hlen hallowed
  have hguard := hallowed.1
  cases op with
  | postSend buf =>
    have hsends : t.sends = [] := hguard
    simp [txMonitor, Ledger.next, hsends]
  | sendDone res =>
    show t.sends.tail.length ≤ 1
    rw [List.length_tail]
    omega
  | _ => exact hlen

lemma sendsInFlight_eq (hacc : txMonitor.Accepts h) : sendsInFlight h = (ledger h).sends.length := by
  have hcount := hacc.countP_sub (fun t => t.sends.length) Io.isPostSend Io.isSendDone ?_
  · rwa [show txMonitor.start.sends.length = 0 from rfl, Nat.zero_add] at hcount
  · rintro t op ⟨hguard, -⟩
    cases op with
    | postSend buf => simp [txMonitor, Ledger.next, Io.isPostSend, Io.isSendDone]
    | sendDone res =>
      have hpos : 0 < t.sends.length := List.length_pos_iff.mpr hguard
      show t.sends.tail.length + 1 = t.sends.length + 0
      rw [List.length_tail]
      omega
    | _ => rfl

lemma pollsInFlight_eq (hacc : txMonitor.Accepts h) : pollsInFlight h = (ledger h).polls := by
  have hcount := hacc.countP_sub Ledger.polls (· == .postPollOut) (· == .pollDone) ?_
  · rwa [show txMonitor.start.polls = 0 from rfl, Nat.zero_add] at hcount
  · rintro t op ⟨hguard, -⟩
    cases op with
    | pollDone =>
      have hpos : 0 < t.polls := hguard
      show t.polls - 1 + 1 = t.polls + 0
      omega
    | _ => rfl

lemma txExact_of_accepts (hacc : txMonitor.Accepts h) : TxExact h where
  accepted _ hp := accepted_isPrefix (hacc.of_isPrefix hp)
  oneSend _ hp := sends_length_le (hacc.of_isPrefix hp)
  sendfileAlone _ _ _ hp := (hacc.allows_of_isPrefix hp).1
  respondAlone _ _ _ hp := (hacc.allows_of_isPrefix hp).1
  resetComplete _ hp := (hacc.allows_of_isPrefix hp).1

lemma accepts_snoc {op : Io} : txMonitor.Accepts (h ++ [op]) ↔ txMonitor.Accepts h ∧
    (ledger h).guard op ∧ ((ledger h).next op).accepted <+: ((ledger h).next op).expected := by
  rw [txMonitor.accepts_append]
  simp [Monitor.AcceptsFrom, txMonitor, ledger]

lemma ledger_snoc {op : Io} : ledger (h ++ [op]) = (ledger h).next op :=
  ledger_append h [op]

/-- The entries that the account ignores. -/
def Io.neutral : Io → Bool
  | .ref => true
  | .put => true
  | .postRead => true
  | .readDone => true
  | .closeFd => true
  | .postClose => true
  | .closeDone => true
  | .storeDel => true
  | _ => false

lemma Ledger.next_neutral (t : Ledger) {op : Io} (hop : op.neutral = true) :
    t.next op = t ∧ t.guard op := by
  cases op with
  | ref => exact ⟨rfl, trivial⟩
  | put => exact ⟨rfl, trivial⟩
  | postRead => exact ⟨rfl, trivial⟩
  | readDone => exact ⟨rfl, trivial⟩
  | closeFd => exact ⟨rfl, trivial⟩
  | postClose => exact ⟨rfl, trivial⟩
  | closeDone => exact ⟨rfl, trivial⟩
  | storeDel => exact ⟨rfl, trivial⟩
  | _ => simp [Io.neutral] at hop

lemma accepts_neutral (ops : List Io) (hacc : txMonitor.Accepts h)
    (hops : ∀ op ∈ ops, op.neutral = true) :
    txMonitor.Accepts (h ++ ops) ∧ ledger (h ++ ops) = ledger h := by
  induction ops using List.reverseRecOn with
  | nil => simpa using hacc
  | append_singleton ops op ih =>
    obtain ⟨hrest, heq⟩ := ih fun op' hmem => hops op' (List.mem_append_left _ hmem)
    obtain ⟨hnext, hguard⟩ := (ledger (h ++ ops)).next_neutral (hops op (by simp))
    rw [← List.append_assoc, accepts_snoc, ledger_snoc, hnext]
    exact ⟨⟨hrest, hguard, accepted_isPrefix hrest⟩, heq⟩

end Accepted

/-! ## Results of operations -/

lemma taken_isPrefix (res : IoRes) (buf : Bytes) : res.taken buf <+: buf := by
  cases res with
  | sent n => exact List.take_prefix n buf
  | _ => exact List.nil_prefix

/-- What a `send` has accepted and what is then still to be sent make up what was to be sent. -/
lemma taken_append_pending (tx : TxState) (res : IoRes) :
    res.taken tx.pending ++ (txOnHeadersResult tx res).1.pending = tx.pending := by
  unfold txOnHeadersResult
  split
  · rfl
  · rfl
  · rfl
  · rfl
  · rename_i n
    dsimp only
    have hsplit : tx.pending.take (n + 1) ++ tx.writeBuf.drop (tx.writeOff + (n + 1)) = tx.pending := by
      unfold TxState.pending
      rw [← List.drop_drop]
      exact List.take_append_drop _ _
    split_ifs with hbuf
    · simp [IoRes.taken, TxState.pending, hbuf]
    all_goals exact hsplit

/-- What a `sendfile` has accepted and what is then left of the file make up the file. -/
lemma taken_append_file (tx : TxState) (res : IoRes) :
    res.taken (tx.file.getD []) ++ (txOnSendfileResult tx res).1.file.getD [] = tx.file.getD [] := by
  unfold txOnSendfileResult
  split
  · rfl
  · rfl
  · rfl
  · rfl
  · rename_i n
    dsimp only
    split_ifs with hrest hmore
    · simp [IoRes.taken, hrest]
    all_goals exact List.take_append_drop _ _

/-! ## The invariant -/

/-- The flag of a posted read tells whether one is posted, and there are never two. -/
def IoView.OneRead (v : IoView) : Prop :=
  (v.tx.recvArmed = true ∧ v.recvOps = 1) ∨ (v.tx.recvArmed = false ∧ v.recvOps = 0)

/-- What is still to be sent. -/
def IoView.unsent (v : IoView) : Bytes :=
  v.tx.pending ++ v.tx.file.getD []

variable {L : Llhttp} {v v' : IoView}

/-- Nothing of a response is outstanding. -/
structure Unposted (v : IoView) : Prop where
  accepts : txMonitor.Accepts v.history
  plain : v.tls = false
  sends : (ledger v.history).sends = []
  polls : (ledger v.history).polls = 0

/-- Nothing of the response is outstanding, and the account and the transmit state agree. -/
structure Calm (v : IoView) : Prop extends Unposted v where
  keepalive : v.closing = true → v.tx.keepalive = false
  balance : (ledger v.history).accepted ++ v.unsent = (ledger v.history).expected

/-- A response is being sent: no read is posted, and the request is complete unless the connection ends
with it. -/
structure Responding (v : IoView) : Prop where
  reads : v.closing = false → v.recvOps = 0 ∧ v.tx.recvArmed = false
  live : v.done = true ∨ v.closing = true ∨ v.draining = true

/-- What holds between events of a plain connection.  Of a detached connection only late completions
are left; an open one waits for a send of all that is pending, for a write poll, or for input. -/
structure TxInv (v : IoView) : Prop where
  accepts : txMonitor.Accepts v.history
  plain : v.tls = false
  keepalive : v.fdOpen = true → v.closing = true → v.tx.keepalive = false
  detached : v.fdOpen = false →
    (ledger v.history).accepted ++ (ledger v.history).sends.flatten <+: (ledger v.history).expected
  balance : v.fdOpen = true → (ledger v.history).accepted ++ v.unsent = (ledger v.history).expected
  one : v.fdOpen = true → ((ledger v.history).sends = [] ∧ (ledger v.history).polls ≤ 1) ∨
    ((ledger v.history).sends = [v.tx.pending] ∧ (ledger v.history).polls = 0)
  reading : v.fdOpen = true → v.closing = false → v.OneRead
  busy : v.fdOpen = true → v.closing = false →
    (ledger v.history).sends ≠ [] ∨ (ledger v.history).polls ≠ 0 → Responding v

/-- The handler has seen the completion of a send but not yet accounted for it. -/
structure Landed (res : IoRes) (v : IoView) : Prop extends Unposted v where
  keepalive : v.closing = true → v.tx.keepalive = false
  balance : ∃ old, (ledger v.history).accepted = old ++ res.taken v.tx.pending ∧
    old ++ v.unsent = (ledger v.history).expected

/-! ### Calm connections -/

lemma Calm.congr (h : Calm v) (hhistory : v'.history = v.history) (htls : v'.tls = v.tls)
    (hclosing : v'.closing = v.closing) (hka : v'.tx.keepalive = v.tx.keepalive)
    (hunsent : v'.unsent = v.unsent) : Calm v' := by
  refine ⟨⟨hhistory ▸ h.accepts, htls.trans h.plain, hhistory ▸ h.sends, hhistory ▸ h.polls⟩, ?_, ?_⟩
  · rw [hclosing, hka]
    exact h.keepalive
  · rw [hhistory, hunsent]
    exact h.balance

lemma Unposted.neutral (h : Unposted v) (ops : List Io) (hops : ∀ op ∈ ops, op.neutral = true) :
    Unposted (v.emit ops) := by
  obtain ⟨hacc, heq⟩ := accepts_neutral ops h.accepts hops
  exact ⟨hacc, h.plain, heq ▸ h.sends, heq ▸ h.polls⟩

lemma Calm.neutral (h : Calm v) (ops : List Io) (hops : ∀ op ∈ ops, op.neutral = true) :
    Calm (v.emit ops) := by
  refine ⟨h.toUnposted.neutral ops hops, h.keepalive, ?_⟩
  show (ledger (v.history ++ ops)).accepted ++ v.unsent = (ledger (v.history ++ ops)).expected
  rw [(accepts_neutral ops h.accepts hops).2]
  exact h.balance

lemma Unposted.respond (h : Unposted v) {tx : TxState} {closing : Bool} (draining : Bool)
    (hoff : tx.writeOff = 0) (hka : closing = true → tx.keepalive = false) :
    Calm (v.respond tx closing draining) := by
  have hpending : tx.pending = tx.writeBuf := by
    unfold TxState.pending
    rw [hoff, List.drop_zero]
  have heq : ledger (v.history ++ [.respond tx.writeBuf tx.file]) =
      (ledger v.history).next (.respond tx.writeBuf tx.file) := ledger_snoc
  refine ⟨⟨accepts_snoc.mpr ⟨h.accepts, h.sends, List.nil_prefix⟩, h.plain, ?_, ?_⟩, hka, ?_⟩
  · exact (congrArg Ledger.sends heq).trans h.sends
  · exact (congrArg Ledger.polls heq).trans h.polls
  · show (ledger (v.history ++ [.respond tx.writeBuf tx.file])).accepted ++
      (tx.pending ++ tx.file.getD []) = (ledger (v.history ++ [.respond tx.writeBuf tx.file])).expected
    rw [heq, hpending]
    rfl

lemma Calm.settled (h : Calm v) (hread : v.closing = false → v.OneRead) : TxInv v where
  accepts := h.accepts
  plain := h.plain
  keepalive _ := h.keepalive
  detached _ := by
    rw [h.sends]
    simpa using accepted_isPrefix h.accepts
  balance _ := h.balance
  one _ := Or.inl ⟨h.sends, by simp [h.polls]⟩
  reading _ := hread
  busy _ _ hbusy := by simp [h.sends, h.polls] at hbusy

/-- The pending bytes are handed to a send. -/
lemma Calm.post (h : Calm v) (hresp : Responding v) : TxInv (v.post v.tx.pending) := by
  have hsent : ledger (v.history ++ [.ref] ++ [.postSend v.tx.pending]) =
      (ledger v.history).next (.postSend v.tx.pending) := by
    rw [ledger_snoc, ledger_snoc]
    rfl
  have href := accepts_neutral [.ref] h.accepts (by simp [Io.neutral])
  have hacc : txMonitor.Accepts (v.history ++ [.ref] ++ [.postSend v.tx.pending]) := by
    refine accepts_snoc.mpr ⟨href.1, ?_, ?_⟩
    · rw [href.2]
      exact h.sends
    · exact accepted_isPrefix href.1
  have hhistory : (v.post v.tx.pending).history = v.history ++ [.ref] ++ [.postSend v.tx.pending] := by
    simp [IoView.post, IoView.emit]
  have hsends : (ledger (v.post v.tx.pending).history).sends = [v.tx.pending] := by
    rw [hhistory, hsent]
    show (ledger v.history).sends ++ [v.tx.pending] = [v.tx.pending]
    rw [h.sends, List.nil_append]
  have haccepted : (ledger (v.post v.tx.pending).history).accepted = (ledger v.history).accepted := by
    rw [hhistory, hsent]
    rfl
  have hexpected : (ledger (v.post v.tx.pending).history).expected = (ledger v.history).expected := by
    rw [hhistory, hsent]
    rfl
  refine ⟨hhistory ▸ hacc, h.plain, fun _ => h.keepalive, fun _ => ?_, fun _ => ?_, fun _ => Or.inr ?_,
    fun _ hclosing => Or.inr (hresp.reads hclosing).symm, fun _ _ _ => ⟨hresp.reads, hresp.live⟩⟩
  · rw [hsends, haccepted, hexpected, ← h.balance]
    refine ⟨v.tx.file.getD [], ?_⟩
    simp [IoView.unsent]
  · rw [haccepted, hexpected]
    exact h.balance
  · refine ⟨hsends, ?_⟩
    rw [hhistory, hsent]
    exact h.polls

lemma Calm.poll (h : Calm v) (hresp : Responding v) : TxInv v.armPoll := by
  have hpolled : ledger (v.history ++ [.ref] ++ [.postPollOut]) =
      (ledger v.history).next .postPollOut := by
    rw [ledger_snoc, ledger_snoc]
    rfl
  have href := accepts_neutral [.ref] h.accepts (by simp [Io.neutral])
  have hacc : txMonitor.Accepts (v.history ++ [.ref] ++ [.postPollOut]) :=
    accepts_snoc.mpr ⟨href.1, trivial, accepted_isPrefix href.1⟩
  have hhistory : v.armPoll.history = v.history ++ [.ref] ++ [.postPollOut] := by
    simp [IoView.armPoll, IoView.emit, IoView.setTx]
  have hsends : (ledger v.armPoll.history).sends = [] := by
    rw [hhistory, hpolled]
    exact h.sends
  refine ⟨hhistory ▸ hacc, h.plain, fun _ => h.keepalive, fun _ => ?_, fun _ => ?_, fun _ => Or.inl ?_,
    fun _ hclosing => Or.inr (hresp.reads hclosing).symm, fun _ _ _ => ⟨hresp.reads, hresp.live⟩⟩
  · rw [hsends, List.flatten_nil, List.append_nil, hhistory]
    exact accepted_isPrefix hacc
  · rw [hhistory, hpolled]
    exact h.balance
  · refine ⟨hsends, ?_⟩
    rw [hhistory, hpolled]
    show (ledger v.history).polls + 1 ≤ 1
    rw [h.polls]

/-- `sendfile` is called when all of the header block is sent. -/
lemma Calm.sendfile (h : Calm v) (r : IoRes) (hpending : txPendingHeaders v.tx = false) :
    Calm (v.sendfile r) := by
  obtain ⟨hpend, hka, -⟩ := txOnSendfileResult_frame v.tx r
  have hnil := pending_eq_nil hpending
  have hbalance : (ledger v.history).accepted ++ v.tx.file.getD [] = (ledger v.history).expected := by
    have hbal := h.balance
    unfold IoView.unsent at hbal
    rwa [hnil, List.nil_append] at hbal
  have heq : ledger (v.history ++ [.sendfile (v.tx.file.getD []) r]) =
      (ledger v.history).next (.sendfile (v.tx.file.getD []) r) := ledger_snoc
  refine ⟨⟨accepts_snoc.mpr ⟨h.accepts, h.sends, ?_⟩, h.plain, ?_, ?_⟩, fun hclosing => ?_, ?_⟩
  · show (ledger v.history).accepted ++ r.taken (v.tx.file.getD []) <+: (ledger v.history).expected
    rw [← hbalance]
    exact (List.prefix_append_right_inj _).mpr (taken_isPrefix r _)
  · exact (congrArg Ledger.sends heq).trans h.sends
  · exact (congrArg Ledger.polls heq).trans h.polls
  · exact hka.trans (h.keepalive hclosing)
  · show (ledger (v.history ++ [.sendfile (v.tx.file.getD []) r])).accepted ++
      ((txOnSendfileResult v.tx r).1.pending ++ (txOnSendfileResult v.tx r).1.file.getD []) =
      (ledger (v.history ++ [.sendfile (v.tx.file.getD []) r])).expected
    rw [heq, hpend, hnil, List.nil_append]
    show ((ledger v.history).accepted ++ r.taken (v.tx.file.getD [])) ++ _ = (ledger v.history).expected
    rw [List.append_assoc, taken_append_file]
    exact hbalance

lemma Calm.reset (h : Calm v) (hpending : txPendingHeaders v.tx = false)
    (hfile : txSendfileIsActive v.tx = false) : Calm v.reset := by
  have hwhole : (ledger v.history).accepted = (ledger v.history).expected := by
    have hbal := h.balance
    unfold IoView.unsent at hbal
    rwa [pending_eq_nil hpending, file_eq_nil hfile, List.append_nil, List.append_nil] at hbal
  have heq : ledger (v.history ++ [.reset]) = ledger v.history := ledger_snoc
  refine ⟨⟨accepts_snoc.mpr ⟨h.accepts, hwhole, accepted_isPrefix h.accepts⟩, h.plain, ?_, ?_⟩,
    fun hclosing => absurd hclosing (by simp [IoView.reset]), ?_⟩
  · exact (congrArg Ledger.sends heq).trans h.sends
  · exact (congrArg Ledger.polls heq).trans h.polls
  · show (ledger (v.history ++ [.reset])).accepted ++ [] = (ledger (v.history ++ [.reset])).expected
    rw [heq, List.append_nil]
    exact hwhole

lemma Landed.advance {res : IoRes} (h : Landed res v) : Calm (v.advance res) := by
  obtain ⟨hfile, hka, -⟩ := txOnHeadersResult_frame v.tx res
  obtain ⟨old, haccepted, hexpected⟩ := h.balance
  refine ⟨⟨h.accepts, h.plain, h.sends, h.polls⟩, fun hclosing => hka.trans (h.keepalive hclosing), ?_⟩
  show (ledger v.history).accepted ++
    ((txOnHeadersResult v.tx res).1.pending ++ (txOnHeadersResult v.tx res).1.file.getD []) =
    (ledger v.history).expected
  rw [haccepted, hfile, List.append_assoc, ← List.append_assoc (res.taken _), taken_append_pending]
  exact hexpected

/-! ### Between events -/

lemma TxInv.neutral (h : TxInv v) (ops : List Io) (hops : ∀ op ∈ ops, op.neutral = true) :
    TxInv (v.emit ops) := by
  obtain ⟨hacc, heq⟩ := accepts_neutral ops h.accepts hops
  have hledger : ledger (v.emit ops).history = ledger v.history := heq
  refine ⟨hacc, h.plain, h.keepalive, ?_, ?_, ?_, h.reading, ?_⟩
  · rw [hledger]
    exact h.detached
  · rw [hledger]
    exact h.balance
  · rw [hledger]
    exact h.one
  · rw [hledger]
    intro hfd hclosing hbusy
    have hresp := h.busy hfd hclosing hbusy
    exact ⟨hresp.reads, hresp.live⟩

lemma TxInv.detach (h : TxInv v) (tx : TxState) (closing : Bool) :
    TxInv { v with tx := tx, closing := closing, fdOpen := false } := by
  refine ⟨h.accepts, h.plain, by simp, fun _ => ?_, by simp, by simp, by simp, by simp⟩
  by_cases hfd : v.fdOpen = true
  · rcases h.one hfd with ⟨hsends, -⟩ | ⟨hsends, -⟩
    · rw [hsends, List.flatten_nil, List.append_nil]
      exact accepted_isPrefix h.accepts
    · rw [hsends, ← h.balance hfd]
      refine ⟨v.tx.file.getD [], ?_⟩
      simp [IoView.unsent]
  · exact h.detached (Bool.eq_false_iff.mpr hfd)

lemma TxInv.close (h : TxInv v) (sync armed : Bool) : TxInv (v.close sync armed) := by
  refine (h.detach _ true).neutral (closeOps sync) ?_
  cases sync <;> simp [closeOps, Io.neutral]

/-- The completion of a send on an open connection: it was given all that is pending. -/
lemma TxInv.sendArrives (h : TxInv v) (res : IoRes) (hsends : 0 < sendsInFlight v.history)
    (hfd : v.fdOpen = true) :
    Landed res (v.emit [.sendDone res]) ∧ Responding (v.emit [.sendDone res]) := by
  rw [sendsInFlight_eq h.accepts] at hsends
  have hne : (ledger v.history).sends ≠ [] := List.length_pos_iff.mp hsends
  rcases h.one hfd with ⟨hnone, -⟩ | ⟨hone, hpolls⟩
  · exact absurd hnone hne
  · have heq : ledger (v.history ++ [.sendDone res]) = { ledger v.history with
        accepted := (ledger v.history).accepted ++ res.taken v.tx.pending
        sends := [] } := by
      rw [ledger_snoc]
      simp [Ledger.next, hone]
    have hlanded : Landed res (v.emit [.sendDone res]) := by
      refine ⟨⟨accepts_snoc.mpr ⟨h.accepts, hne, ?_⟩, h.plain, ?_, ?_⟩, h.keepalive hfd, ?_⟩
      · rw [← ledger_snoc, heq]
        show (ledger v.history).accepted ++ res.taken v.tx.pending <+: (ledger v.history).expected
        rw [← h.balance hfd]
        refine (List.prefix_append_right_inj _).mpr ?_
        exact (taken_isPrefix res _).trans (List.prefix_append _ _)
      · exact congrArg Ledger.sends heq
      · exact (congrArg Ledger.polls heq).trans hpolls
      · exact ⟨(ledger v.history).accepted, congrArg Ledger.accepted heq,
          (h.balance hfd).trans (congrArg Ledger.expected heq).symm⟩
    refine ⟨hlanded, ?_⟩
    by_cases hclosing : v.closing = true
    · exact ⟨fun hopen => absurd (hclosing.symm.trans hopen) (by decide), Or.inr (Or.inl hclosing)⟩
    · have hresp := h.busy hfd (Bool.eq_false_iff.mpr hclosing) (Or.inl hne)
      exact ⟨hresp.reads, hresp.live⟩

lemma TxInv.sendDropped (h : TxInv v) (res : IoRes) (hsends : 0 < sendsInFlight v.history)
    (hfd : v.fdOpen = false) : TxInv (v.emit [.sendDone res]) := by
  rw [sendsInFlight_eq h.accepts] at hsends
  have hne : (ledger v.history).sends ≠ [] := List.length_pos_iff.mp hsends
  obtain ⟨buf, hone⟩ : ∃ buf, (ledger v.history).sends = [buf] :=
    List.length_eq_one_iff.mp (le_antisymm (sends_length_le h.accepts) hsends)
  have hdetached := h.detached hfd
  rw [hone, List.flatten_singleton] at hdetached
  have heq : ledger (v.history ++ [.sendDone res]) = { ledger v.history with
      accepted := (ledger v.history).accepted ++ res.taken buf
      sends := [] } := by
    rw [ledger_snoc]
    simp [Ledger.next, hone]
  have hprefix : (ledger v.history).accepted ++ res.taken buf <+: (ledger v.history).expected :=
    ((List.prefix_append_right_inj _).mpr (taken_isPrefix res buf)).trans hdetached
  have hopen : ∀ {P : Prop}, (v.emit [.sendDone res]).fdOpen = true → P :=
    fun hopen => absurd (hfd.symm.trans hopen) (by decide)
  refine ⟨accepts_snoc.mpr ⟨h.accepts, hne, ?_⟩, h.plain, hopen, fun _ => ?_, hopen, hopen, hopen,
    hopen⟩
  · rw [← ledger_snoc, heq]
    exact hprefix
  · show (ledger (v.history ++ [.sendDone res])).accepted ++
      (ledger (v.history ++ [.sendDone res])).sends.flatten <+:
      (ledger (v.history ++ [.sendDone res])).expected
    rw [heq, List.flatten_nil, List.append_nil]
    exact hprefix

lemma TxInv.pollDone (h : TxInv v) (hpolls : 0 < pollsInFlight v.history) :
    txMonitor.Accepts (v.history ++ [.pollDone]) ∧
      ledger (v.history ++ [.pollDone]) = { ledger v.history with
        polls := (ledger v.history).polls - 1 } := by
  rw [pollsInFlight_eq h.accepts] at hpolls
  exact ⟨accepts_snoc.mpr ⟨h.accepts, hpolls, accepted_isPrefix h.accepts⟩, ledger_snoc⟩

lemma TxInv.pollArrives (h : TxInv v) (hpolls : 0 < pollsInFlight v.history)
    (hfd : v.fdOpen = true) : Calm (v.emit [.pollDone]) ∧ Responding (v.emit [.pollDone]) := by
  obtain ⟨hacc, heq⟩ := h.pollDone hpolls
  rw [pollsInFlight_eq h.accepts] at hpolls
  rcases h.one hfd with ⟨hsends, hle⟩ | ⟨-, hnone⟩
  · have hcalm : Calm (v.emit [.pollDone]) := by
      refine ⟨⟨hacc, h.plain, (congrArg Ledger.sends heq).trans hsends, ?_⟩, h.keepalive hfd, ?_⟩
      · refine (congrArg Ledger.polls heq).trans ?_
        show (ledger v.history).polls - 1 = 0
        omega
      · show (ledger (v.history ++ [.pollDone])).accepted ++ v.unsent =
          (ledger (v.history ++ [.pollDone])).expected
        rw [heq]
        exact h.balance hfd
    refine ⟨hcalm, ?_⟩
    by_cases hclosing : v.closing = true
    · exact ⟨fun hopen => absurd (hclosing.symm.trans hopen) (by decide), Or.inr (Or.inl hclosing)⟩
    · have hresp := h.busy hfd (Bool.eq_false_iff.mpr hclosing) (Or.inr (by omega))
      exact ⟨hresp.reads, hresp.live⟩
  · omega

lemma TxInv.pollDropped (h : TxInv v) (hpolls : 0 < pollsInFlight v.history)
    (hskip : v.fdOpen = false ∨ v.closing = true) : TxInv (v.emit [.pollDone]) := by
  by_cases hfd : v.fdOpen = true
  · have hclosing : v.closing = true := hskip.resolve_left (by simp [hfd])
    refine (h.pollArrives hpolls hfd).1.settled fun hopen => ?_
    exact absurd (hclosing.symm.trans hopen) (by decide)
  · obtain ⟨hacc, heq⟩ := h.pollDone hpolls
    have hopen : ∀ {P : Prop}, (v.emit [.pollDone]).fdOpen = true → P := fun hopen => absurd hopen hfd
    refine ⟨hacc, h.plain, hopen, fun _ => ?_, hopen, hopen, hopen, hopen⟩
    show (ledger (v.history ++ [.pollDone])).accepted ++
      (ledger (v.history ++ [.pollDone])).sends.flatten <+:
      (ledger (v.history ++ [.pollDone])).expected
    rw [heq]
    exact h.detached (Bool.eq_false_iff.mpr hfd)

/-- A connection on which a response may be placed. -/
structure TxFresh (v : IoView) : Prop where
  calm : Calm v
  closing : v.closing = false
  recvOps : v.recvOps = 0
  recvArmed : v.tx.recvArmed = false

lemma TxInv.calm_of_reading (h : TxInv v) (hfd : v.fdOpen = true) (hclosing : v.closing = false)
    (hidle : 0 < v.recvOps ∨ (v.done = false ∧ v.draining = false)) : Calm v := by
  have hnone : ¬ ((ledger v.history).sends ≠ [] ∨ (ledger v.history).polls ≠ 0) := by
    intro hbusy
    have hresp := h.busy hfd hclosing hbusy
    rcases hidle with hreads | ⟨hdone, hdraining⟩
    · have hzero := (hresp.reads hclosing).1
      omega
    · rcases hresp.live with hlive | hlive | hlive
      · simp [hdone] at hlive
      · simp [hclosing] at hlive
      · simp [hdraining] at hlive
  simp only [not_or, not_not] at hnone
  exact ⟨⟨h.accepts, h.plain, hnone.1, hnone.2⟩, h.keepalive hfd, h.balance hfd⟩

lemma TxInv.readArrives (h : TxInv v) (hreads : 0 < v.recvOps) (hfd : v.fdOpen = true)
    (hclosing : v.closing = false) : TxFresh v.readDone.disarmRead := by
  have hcalm := h.calm_of_reading hfd hclosing (Or.inl hreads)
  refine ⟨(hcalm.neutral [.readDone] (by simp [Io.neutral])).congr rfl rfl rfl rfl rfl, hclosing, ?_,
    rfl⟩
  show v.recvOps - 1 = 0
  rcases h.reading hfd hclosing with ⟨-, hone⟩ | ⟨-, hnone⟩
  · omega
  · omega

lemma TxInv.readDropped (h : TxInv v) (hskip : v.fdOpen = false ∨ v.closing = true) :
    TxInv v.readDone := by
  have hdone := h.neutral [.readDone] (by simp [Io.neutral])
  have hnever : ∀ {P : Prop}, v.fdOpen = true → v.closing = false → P := by
    intro P hfd hclosing
    rcases hskip with hskip | hskip
    · exact absurd (hskip.symm.trans hfd) (by decide)
    · exact absurd (hskip.symm.trans hclosing) (by decide)
  exact ⟨hdone.accepts, hdone.plain, hdone.keepalive, hdone.detached, hdone.balance, hdone.one,
    fun hfd hclosing => hnever hfd hclosing, fun hfd hclosing _ => hnever hfd hclosing⟩

end Lamseryn
