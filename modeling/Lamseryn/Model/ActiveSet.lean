import Lamseryn.Framework.SwapRemove
import Lamseryn.Model.ConnStore
import Lamseryn.Model.Deadline

/-!
# The active set (`src/conn_lifecycle.c`)

Each worker lists the descriptors of its connections in `active_fds`, and each connection records its
place there; the process counts the connections of all workers.  Of a connection this module keeps what
this bookkeeping reads and writes.  Connections are pointers into the worker's heap, where `conn_recycle`
puts them on a freelist for `conn_alloc`.

A result `none` means that a probe loop of the descriptor store does not return.
-/

namespace Lamseryn

open SwapRemove

/-- `CONN_FREELIST_CAP`. -/
def connFreelistCap : ℕ := 2 ^ 15

/-- What the active set reads and writes of a `struct conn`, zeroed; the number -1 is `none`. -/
structure ConnLink where
  fd : Option ℕ := some 0
  refcnt : ℤ := 0
  inActiveSet : Bool := false
  activeIdx : Option ℕ := some 0
  deriving DecidableEq, Repr

/-- A worker with the thread-local state that belongs to it; `activeFds` holds the entries below
`active_count`. -/
structure ActiveWorker where
  store : FdStore ℕ
  heap : List ConnLink := []
  freeList : List ℕ := []
  activeFds : List ℕ := []
  activeCap : ℕ := 0

/-- Write to the fields of a connection. -/
def ActiveWorker.setConn (w : ActiveWorker) (c : ℕ) (f : ConnLink → ConnLink) : ActiveWorker :=
  { w with heap := w.heap.modify c f }

/-! ## The process-wide counter -/

/-- `active_conns_inc`. -/
def activeConnsInc (total : ℕ) : ℕ := (total + 1) % 2 ^ 64

/-- `active_conns_dec`. -/
def activeConnsDec (total : ℕ) : ℕ := if total = 0 then 0 else total - 1

/-! ## The freelist -/

/-- `conn_alloc`, with the outcome of `calloc`. -/
def ActiveWorker.connAlloc (w : ActiveWorker) (calloc : Bool) : Option ℕ × ActiveWorker :=
  match w.freeList with
  | c :: rest => (some c, { w with freeList := rest }.setConn c fun _ => {})
  | [] => if calloc then (some w.heap.length, { w with heap := w.heap ++ [{}] }) else (none, w)

/-- `conn_recycle`. -/
def ActiveWorker.connRecycle (w : ActiveWorker) (c : ℕ) : ActiveWorker :=
  let w := w.setConn c fun link => { link with inActiveSet := false, activeIdx := none, fd := none }
  if connFreelistCap ≤ w.freeList.length then w else { w with freeList := c :: w.freeList }

/-- `conn_put`. -/
def ActiveWorker.connPut (w : ActiveWorker) (c : ℕ) : ActiveWorker :=
  let w := w.setConn c fun link => { link with refcnt := link.refcnt - 1 }
  if (w.heap[c]?).any fun link => link.refcnt = 0 then w.connRecycle c else w

/-! ## The array -/

/-- `worker_active_add`, with the outcome of `realloc`. -/
def ActiveWorker.workerActiveAdd (w : ActiveWorker) (fd : ℕ) (realloc : Bool) : Option ActiveWorker := do
  let some c ← connStoreGet w.store fd | return w
  if (w.heap[c]?).any ConnLink.inActiveSet then return w
  let full := w.activeFds.length = w.activeCap
  if full ∧ realloc = false then return w
  let cap := if full then if w.activeCap = 0 then 1024 else w.activeCap * 2 else w.activeCap
  let idx := w.activeFds.length
  return { w with activeFds := w.activeFds ++ [fd], activeCap := cap }.setConn c fun link =>
    { link with inActiveSet := true, activeIdx := some idx }

/-- The index at which `worker_active_remove` finds the descriptor: the recorded one or, if that is wrong,
the first. -/
def ActiveWorker.activeIdxOf (w : ActiveWorker) (link : ConnLink) (fd : ℕ) : Option ℕ :=
  (link.activeIdx.filter fun idx => w.activeFds[idx]? = some fd).or
    (w.activeFds.findIdx? fun other => other = fd)

/-- `worker_active_remove`. -/
def ActiveWorker.workerActiveRemove (w : ActiveWorker) (fd : ℕ) : Option ActiveWorker := do
  let some c ← connStoreGet w.store fd | return w
  let some link := w.heap[c]? | return w
  if link.inActiveSet = false then return w
  let leave (w : ActiveWorker) :=
    w.setConn c fun link => { link with inActiveSet := false, activeIdx := none }
  match w.activeIdxOf link fd, w.activeFds.getLast? with
  | some idx, some swappedFd =>
    let rest := { w with activeFds := swapRemove w.activeFds idx }
    if idx + 1 = w.activeFds.length then return leave rest
    let some cs ← connStoreGet w.store swappedFd | return leave rest
    return leave (rest.setConn cs fun link => { link with activeIdx := some idx })
  | _, _ => return leave w

/-! ## Connections come and go -/

/-- The outcomes of the allocations of `conn_init`: `calloc`, those of `fm_resize`, and `realloc`. -/
structure InitIo where
  calloc : Bool := true
  resize : Bool := true
  realloc : Bool := true
  deriving DecidableEq, Repr

/-- `conn_init`: whether it returns zero, the worker and the counter. -/
def ActiveWorker.connInit (w : ActiveWorker) (total fd : ℕ) (io : InitIo) :
    Option (Bool × ActiveWorker × ℕ) :=
  match w.connAlloc io.calloc with
  | (none, w) => return (false, w, total)
  | (some c, w) => do
    let w := w.setConn c fun link => { link with fd := some fd, refcnt := 1, activeIdx := none }
    let (store, stored) ← connStorePut w.store fd (some c) io.resize
    let w := { w with store := store }
    if stored = false then return (false, w.connRecycle c, total)
    let w ← w.workerActiveAdd fd io.realloc
    return (true, w, activeConnsInc total)

/-- What decides how `schedule_or_sync_close` closes: the deadline of the connection, `abortive_close`, and
whether the ring has an entry for the close. -/
structure CloseIo where
  deadlineKind : DeadlineKind := .none
  abortive : Bool := false
  sqe : Bool := true
  deriving DecidableEq, Repr

/-- The connection leaves the active set, the store and the counter. -/
def ActiveWorker.detach (w : ActiveWorker) (total fd : ℕ) : Option (ActiveWorker × ℕ) := do
  let w ← w.workerActiveRemove fd
  let store ← connStoreDel w.store fd
  return ({ w with store := store }, activeConnsDec total)

/-- `schedule_or_sync_close`. -/
def ActiveWorker.scheduleOrSyncClose (w : ActiveWorker) (total fd : ℕ) (io : CloseIo) :
    Option (ActiveWorker × ℕ) := do
  let some c ← connStoreGet w.store fd | return (w, total)
  match (w.heap[c]?).bind ConnLink.fd with
  | none => w.detach total fd
  | some fdToClose =>
    let w := w.setConn c fun link => { link with refcnt := link.refcnt + 1, fd := none }
    let (w, total) ← w.detach total fdToClose
    if io.deadlineKind = .initialIdle ∨ io.deadlineKind = .kaIdle ∨ io.deadlineKind = .drain ∨
        io.abortive = true ∨ io.sqe = false then
      return ((w.connPut c).connPut c, total)
    else return (w.connPut c, total)

/-! ## The workers of a process -/

structure ActiveProcess (n : ℕ) where
  workers : Fin n → ActiveWorker
  activeConnsGlobal : ℕ := 0

/-- The process after `conn_store_init` in each worker. -/
def ActiveProcess.init {n : ℕ} (capHint : Fin n → ℕ) : ActiveProcess n :=
  { workers := fun i => { store := connStoreInit (capHint i) } }

/-- A call by worker `i`. -/
inductive ActiveCall (n : ℕ) where
  | connInit (i : Fin n) (fd : ℕ) (io : InitIo)
  | close (i : Fin n) (fd : ℕ) (io : CloseIo)
  deriving DecidableEq, Repr

variable {n : ℕ}

/-- A worker has made a call. -/
def ActiveProcess.after (p : ActiveProcess n) (i : Fin n) (w : ActiveWorker) (total : ℕ) :
    ActiveProcess n :=
  { workers := Function.update p.workers i w, activeConnsGlobal := total }

def ActiveProcess.call (p : ActiveProcess n) : ActiveCall n → Option (ActiveProcess n)
  | .connInit i fd io => do
    let (_, w, total) ← (p.workers i).connInit p.activeConnsGlobal fd io
    return p.after i w total
  | .close i fd io => do
    let (w, total) ← (p.workers i).scheduleOrSyncClose p.activeConnsGlobal fd io
    return p.after i w total

/-- The state after a call that returns. -/
def ActiveProcess.step (p : ActiveProcess n) (call : ActiveCall n) : ActiveProcess n :=
  (p.call call).getD p

/-- A connection is made on a descriptor that no connection has, and `realloc` succeeds. -/
def ActiveProcess.allowed (p : ActiveProcess n) : ActiveCall n → Prop
  | .connInit _ fd io =>
    fd < 2 ^ 31 ∧ (∀ i, connStoreGet (p.workers i).store fd = some none) ∧ io.realloc = true
  | .close _ _ _ => True

instance (p : ActiveProcess n) : DecidablePred p.allowed
  | .connInit _ _ _ => inferInstanceAs (Decidable (_ ∧ _ ∧ _))
  | .close _ _ _ => inferInstanceAs (Decidable True)

end Lamseryn
