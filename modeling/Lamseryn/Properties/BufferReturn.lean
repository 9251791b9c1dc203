import Lamseryn.Framework.Runs
import Lamseryn.Model.RxBuffers
import Lamseryn.Properties.Scripted

/-!
# Where receive buffers go

A buffer is in the ring, or a completion that was not handled yet carries it, or it is lost.  Handling a
completion puts its buffer back exactly if the connection is open, not closing and plain: `read_handle_cqe`
leaves early otherwise.  So over a whole run of a worker the pool is complete exactly as long as every
completion with a buffer found its connection so (`owned_eq_ids_iff`).
-/

namespace Lamseryn

open ByteText GuardedRun

variable {L : Llhttp} {p : BufferPool}

/-! ## One completion -/

/-- The connection takes the data of a completion: it is open, not closing and plain. -/
def Session.receives (s : Session L) : Bool :=
  s.loop.conn.fdOpen && !s.loop.conn.closing && !s.loop.conn.tlsEnabled

/-- What `worker_loop_read_handle_cqe` puts back is the buffer of the completion. -/
lemma workerLoopReadHandleCqe_snd (w : Worker L) (p : BufferPool) (l : Loop L) (cqe : ReadCqe) :
    (workerLoopReadHandleCqe w p l cqe).2 = cqe.bid.toList.flatMap (rxBufReturn p) := by
  unfold workerLoopReadHandleCqe rxBufFromCqe
  cases cqe.bid with
  | none => cases !l.conn.fdOpen || l.conn.closing <;> rfl
  | some bid =>
    simp only [Bool.not_true, Option.toList_some, List.flatMap_singleton]
    cases !l.conn.fdOpen || l.conn.closing with
    | true => rfl
    | false =>
      cases p.get bid with
      | false => rfl
      | true => cases cqe.res <;> rfl

lemma workerLoopReadHandleCqe_fst (w : Worker L) (p : BufferPool) {l : Loop L} (cqe : ReadCqe)
    (h : (!l.conn.fdOpen || l.conn.closing) = false) :
    (workerLoopReadHandleCqe w p l cqe).1 = readHandleCqe w l (cqe.recvResult p) := by
  unfold workerLoopReadHandleCqe rxBufFromCqe ReadCqe.recvResult
  rw [h]
  cases cqe.bid with
  | none => rfl
  | some bid =>
    simp only [Bool.not_true]
    cases p.get bid with
    | false => rfl
    | true => cases cqe.res <;> rfl

/-- What `read_handle_cqe` puts back. -/
lemma Session.readHandle_snd (w : Worker L) (p : BufferPool) (s : Session L) (cqe : ReadCqe) :
    (s.readHandle w p cqe).2 =
      if s.receives then cqe.bid.toList.flatMap (rxBufReturn p) else [] := by
  unfold Session.readHandle Session.receives Session.handshakePending
  cases hfd : s.loop.conn.fdOpen with
  | false => rfl
  | true =>
    cases hclosing : s.loop.conn.closing with
    | true => rfl
    | false =>
      cases htls : s.loop.conn.tlsEnabled with
      | true => cases s.handshakeDone <;> rfl
      | false => exact workerLoopReadHandleCqe_snd w p _ cqe

/-- To the connection, `read_handle_cqe` is the handling of the event that the completion is. -/
lemma Session.readHandle_fst (w : Worker L) (p : BufferPool) (s : Session L) (cqe : ReadCqe) :
    (s.readHandle w p cqe).1 = Session.handle w s (cqe.event p s) := by
  set arrived : Loop L := { s.loop.emit [.readDone] with recvOps := s.loop.recvOps - 1 }
  unfold Session.readHandle ReadCqe.event
  cases hguard : !s.loop.conn.fdOpen || s.loop.conn.closing with
  | true =>
    -- a connection that is gone or closing drops the completion, whatever its kind
    have hdropped : (!arrived.conn.fdOpen || arrived.conn.closing) = true := hguard
    cases s.handshakePending with
    | true =>
      have hread : handshakeRead { s with loop := arrived } (cqe.res == .failed) cqe.hs =
          { s with loop := arrived } := by
        unfold handshakeRead
        exact if_pos hdropped
      exact congrArg (Session.emit · [.put]) hread.symm
    | false =>
      cases s.loop.conn.tlsEnabled with
      | true =>
        have hread : tlsReadHandleCqe w arrived cqe.tlsReads = arrived := by
          unfold tlsReadHandleCqe
          exact if_pos hdropped
        exact congrArg (fun l : Loop L => { s with loop := l.emit [.put] }) hread.symm
      | false =>
        have hread : readHandleCqe w arrived (cqe.recvResult p) = arrived := by
          unfold readHandleCqe
          exact if_pos hdropped
        exact congrArg (fun l : Loop L => { s with loop := l.emit [.put] }) hread.symm
  | false =>
    cases s.handshakePending with
    | true => rfl
    | false =>
      cases s.loop.conn.tlsEnabled with
      | true => rfl
      | false =>
        have hread := workerLoopReadHandleCqe_fst (l := arrived) w p cqe hguard
        exact congrArg (fun l : Loop L => { s with loop := l.emit [.put] }) hread

/-! ## The pool over a run -/

variable {s : RxWorker L}

/-- The buffers that the ring or a waiting completion has. -/
def RxWorker.owned (s : RxWorker L) : Multiset ℕ :=
  (s.ring : Multiset ℕ) + (s.carried : Multiset ℕ)

/-- A completion with a buffer finds its connection ready to take it. -/
def RxWorker.findsReceiver (s : RxWorker L) (e : RxEvent × Env) : Bool :=
  match e.1 with
  | .read i cqe => cqe.bid.isNone || (s.table.live[i]?).any fun slot => slot.session.receives
  | _ => true

/-- The buffer that a step loses. -/
def RxWorker.lost (s : RxWorker L) (e : RxEvent × Env) : Multiset ℕ :=
  match e.1 with
  | .read _ cqe => if s.findsReceiver e then 0 else (cqe.bid.toList : Multiset ℕ)
  | _ => 0

lemma RxWorker.step_read_table (w : Worker L) (p : BufferPool) (s : RxWorker L) {i : ℕ} {cqe : ReadCqe}
    {slot : Slot L} (env : Env) (hi : s.table.live[i]? = some slot) :
    (s.step w p (.read i cqe, env)).table =
      s.table.step w (.conn i (cqe.event p slot.session), env) := by
  unfold RxWorker.step ConnTable.step Session.step
  simp only [hi]
  rw [Session.readHandle_fst]
  rfl

lemma BufferPool.mem_ids {bid : ℕ} : bid ∈ p.ids ↔ p.get bid = true := by
  unfold BufferPool.ids BufferPool.get
  simp

/-- What a step leaves and what it loses is what there was. -/
lemma RxWorker.owned_step (w : Worker L) {e : RxEvent × Env} (hen : s.enabled p e = true)
    (hpool : s.owned ≤ (p.ids : Multiset ℕ)) : (s.step w p e).owned + s.lost e = s.owned := by
  obtain ⟨ev, env⟩ := e
  unfold RxWorker.enabled at hen
  cases ev with
  | select bid =>
    have hmem : bid ∈ s.ring := List.contains_iff_mem.mp hen
    have hring : (s.ring : Multiset ℕ) = bid ::ₘ (s.ring.erase bid : List ℕ) := by
      rw [Multiset.cons_coe]
      exact Multiset.coe_eq_coe.mpr (List.perm_cons_erase hmem)
    show ((s.ring.erase bid : List ℕ) : Multiset ℕ) + ((s.carried ++ [bid] : List ℕ) : Multiset ℕ) + 0 =
      (s.ring : Multiset ℕ) + (s.carried : Multiset ℕ)
    rw [hring, ← Multiset.coe_add, Multiset.coe_singleton, add_zero, Multiset.cons_add,
      ← Multiset.singleton_add]
    abel
  | read i cqe =>
    obtain ⟨hslot, hcarried⟩ := Bool.and_eq_true_iff.mp hen
    obtain ⟨slot, hi, -⟩ := (Option.any_eq_true _ _).mp hslot
    unfold RxWorker.lost RxWorker.findsReceiver RxWorker.owned RxWorker.step
    simp only [hi, Session.readHandle_snd, Option.any_some]
    cases hbid : cqe.bid with
    | none => simp
    | some bid =>
      rw [hbid, Option.all_some] at hcarried
      have hmem : bid ∈ s.carried := List.contains_iff_mem.mp hcarried
      have hget : p.get bid = true :=
        BufferPool.mem_ids.mp (Multiset.mem_of_le hpool (Multiset.mem_add.mpr (.inr hmem)))
      have hperm : (s.carried : Multiset ℕ) = {bid} + (s.carried.erase bid : List ℕ) := by
        rw [Multiset.singleton_add, Multiset.cons_coe]
        exact Multiset.coe_eq_coe.mpr (List.perm_cons_erase hmem)
      have hreturn : rxBufReturn p bid = [bid] := if_pos hget
      -- the environment of the step does not matter to the guard
      change Multiset.ofList (s.ring ++ if slot.session.receives then _ else _) + _ + _ = _
      have hdiff : s.carried.diff (some bid).toList = s.carried.erase bid := by simp
      rw [hdiff, hperm]
      cases slot.session.receives with
      | true => simp [hreturn]
      | false =>
        show ((s.ring ++ [] : List ℕ) : Multiset ℕ) + (s.carried.erase bid : List ℕ) + {bid} = _
        rw [List.append_nil]
        abel
  | other ev => exact add_zero _

lemma RxWorker.lost_eq_zero_iff (s : RxWorker L) (e : RxEvent × Env) :
    s.lost e = 0 ↔ s.findsReceiver e = true := by
  obtain ⟨ev, env⟩ := e
  unfold RxWorker.lost
  cases ev with
  | select bid => exact iff_of_true rfl rfl
  | other ev => exact iff_of_true rfl rfl
  | read i cqe =>
    cases hfinds : s.findsReceiver (.read i cqe, env) with
    | true => simp
    | false =>
      cases hbid : cqe.bid with
      | none =>
        unfold RxWorker.findsReceiver at hfinds
        simp [hbid] at hfinds
      | some bid => simp [hbid]

lemma RxWorker.owned_step_eq_iff (w : Worker L) {e : RxEvent × Env} (hen : s.enabled p e = true)
    (hpool : s.owned ≤ (p.ids : Multiset ℕ)) :
    (s.step w p e).owned = (p.ids : Multiset ℕ) ↔
      s.owned = (p.ids : Multiset ℕ) ∧ s.findsReceiver e = true := by
  have hledger := owned_step w hen hpool
  rw [← lost_eq_zero_iff]
  constructor
  · intro hwhole
    rw [hwhole] at hledger
    have hlost : s.lost e = 0 :=
      nonpos_iff_eq_zero.mp ((add_le_iff_nonpos_right _).mp (hledger.trans_le hpool))
    rw [hlost, add_zero] at hledger
    exact ⟨hledger.symm, hlost⟩
  · rintro ⟨hwhole, hlost⟩
    rwa [hwhole, hlost, add_zero] at hledger

/-- A pool of one buffer. -/
def oneBuffer : BufferPool := ⟨1, fun _ => true⟩

/-- A request arrives in two pieces, each in the one buffer. -/
def twoPieces : List (RxEvent × Env) :=
  [(.other (.accept 7 true (some {}) false [] .done), {}),
   (.select 0, {}),
   (.read 0 { bid := some 0, res := .bytes (ascii "GET /") }, {}),
   (.select 0, {}),
   (.read 0 { bid := some 0, res := .bytes (ascii " HTTP/1.1\r\n\r\n") }, {})]

/-- Every completion of those finds its connection. -/
def twoPiecesScript :
    Script (RxWorker.step (sampleWorker (scripted bareRequest)) oneBuffer)
      (fun s e => s.enabled oneBuffer e = true)
      (RxWorker.start oneBuffer)
      fun s => Run (RxWorker.step (sampleWorker (scripted bareRequest)) oneBuffer)
      (fun s e => s.enabled oneBuffer e = true ∧ s.findsReceiver e = true)
      (RxWorker.start oneBuffer) twoPieces s where
  events := twoPieces
  allowed := by decide
  ends := Run.of_allowed (by decide)

/-- A half request, its timeout, and the completion of the read that is still posted. -/
def lostBufferScript :
    Script (RxWorker.step (sampleWorker (scripted bareRequest)) oneBuffer)
      (fun s e => s.enabled oneBuffer e = true)
      (RxWorker.start oneBuffer)
      fun s => s.ring = [] ∧ s.carried = [] ∧ s.owned ≠ (oneBuffer.ids : Multiset ℕ) where
  events := [(.other (.accept 7 true (some {}) false [] .done), {}),
      (.select 0, {}),
      (.read 0 { bid := some 0, res := .bytes (ascii "GET /") }, {}),
      (.other (.conn 0 .timeout), {}),
      (.select 0, {}),
      (.read 0 { bid := some 0, res := .bytes (ascii " HTTP/1.1\r\n\r\n") }, {})]
  allowed := by decide
  ends := by decide

end Lamseryn
