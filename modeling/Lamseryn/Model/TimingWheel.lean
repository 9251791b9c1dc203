import Lamseryn.Framework.IntrusiveList
import Lamseryn.Model.Deadline

/-!
# The timing wheel (`src/timing_wheel.c`)

The wheel of a worker with all its connections, which are linked into the buckets by their own fields
(`struct worker_link`).  A connection is its address; `heap` gives its fields, and `allocated` the number of
connections that were allocated so far.

Next to the functions of the wheel stand those that end a connection (`schedule_or_sync_close`, `conn_put`
and `conn_recycle` in `src/conn_lifecycle.c`), because a tick calls them while it walks over a bucket.  The
rest of the server occurs as events: it may change the fields that a deadline is computed from to any
values, and take and give back references of operations.

`sqes` holds the outcomes of the next calls of `get_sqe_batching`, and after its end every call succeeds.
Counters, logs and the text of the 408 are left out.
-/

namespace Lamseryn

open IntrusiveList

/-- The fields of `struct conn` that the wheel works on; `fd` is `none` for a negative descriptor.

The last five are history variables: whether the connection is allocated and not recycled, the references
held by posted operations, the time of the last `tw_reschedule`, and the time of the tick that computed a
new deadline after an expiry, if that was later. -/
structure WheelConn where
  fd : Option ℕ := none
  refcnt : ℕ := 0
  view : DeadlineView := {}
  abortiveClose : Bool := false
  writePollArmed : Bool := false
  deadlineKind : DeadlineKind := .none
  deadlineMs : ℕ := 0
  deadlineActive : Bool := false
  twPrev : Option ℕ := none
  twNext : Option ℕ := none
  twSlot : ℕ := 0
  inUse : Bool := false
  opRefs : ℕ := 0
  rescheduledMs : ℕ := 0
  rearmedMs : Option ℕ := none

/-- One expiry: the connection, its deadline, and the time. -/
structure Expiry where
  conn : ℕ
  deadlineMs : ℕ
  nowMs : ℕ
  deriving DecidableEq, Repr

/-- The wheel in `struct worker_ctx`, the connections, and the descriptor store.  History variables are
`clock`, the time of the last event; `visited`, the connections that the last tick visited; `expired`; and
`stuck`, which says that the walk of a tick did not come to an end. -/
structure Wheel where
  slots : ℕ
  tickMs : ℕ
  nowTick : ℕ := 0
  nextTickDeadlineMs : ℕ
  buckets : ℕ → Option ℕ := fun _ => none
  heap : ℕ → WheelConn := fun _ => {}
  allocated : ℕ := 0
  store : ℕ → Option ℕ := fun _ => none
  sqes : List Bool := []
  clock : ℕ
  visited : List ℕ := []
  expired : List Expiry := []
  stuck : Bool := false

/-- `tw_init`. -/
def twInit (slots tickMs nowMs : ℕ) : Wheel where
  slots := slots
  tickMs := tickMs
  nextTickDeadlineMs := nowMs + tickMs
  clock := nowMs

/-- `tw_mask`. -/
def Wheel.mask (w : Wheel) : ℕ := w.slots - 1

/-- Change the fields of a connection. -/
def Wheel.modify (w : Wheel) (c : ℕ) (f : WheelConn → WheelConn) : Wheel :=
  { w with heap := Function.update w.heap c (f (w.heap c)) }

/-- `get_sqe_batching`. -/
def Wheel.getSqe (w : Wheel) : Bool × Wheel :=
  match w.sqes with
  | [] => (true, w)
  | ok :: rest => (ok, { w with sqes := rest })

/-! ## Links -/

/-- `tw_slot_for`. -/
def twSlotFor (w : Wheel) (nowMs deadlineMs : ℕ) : ℕ :=
  let dt := if nowMs < deadlineMs then deadlineMs - nowMs else 0
  let ticksAhead := if w.tickMs ≠ 0 then dt / w.tickMs else 0
  (w.nowTick + ticksAhead) &&& w.mask

/-- Set the forward link of `prev`, or the head of the bucket if there is none. -/
def Wheel.setNext (w : Wheel) (slot : ℕ) (prev next : Option ℕ) : Wheel :=
  match prev with
  | some p => w.modify p fun x => { x with twNext := next }
  | none => { w with buckets := Function.update w.buckets slot next }

/-- Set the backward link of `next`, if there is one. -/
def Wheel.setPrev (w : Wheel) (next prev : Option ℕ) : Wheel :=
  match next with
  | some n => w.modify n fun x => { x with twPrev := prev }
  | none => w

/-- `tw_remove_internal`. -/
def twRemoveInternal (w : Wheel) (c : ℕ) : Wheel :=
  if !(w.heap c).deadlineActive then w
  else
    let slot := (w.heap c).twSlot
    let prev := (w.heap c).twPrev
    let next := (w.heap c).twNext
    ((w.setNext slot prev next).setPrev next prev).modify c fun x =>
      { x with twPrev := none, twNext := none, deadlineActive := false }

/-- `tw_insert_internal`. -/
def twInsertInternal (w : Wheel) (c nowMs deadlineMs : ℕ) : Wheel :=
  if (w.heap c).fd = none then w
  else
    let slot := twSlotFor w nowMs deadlineMs
    let head := w.buckets slot
    let w := w.modify c fun x =>
      { x with deadlineMs := deadlineMs, twSlot := slot, twNext := head, twPrev := none }
    ((w.setPrev head (some c)).setNext slot none (some c)).modify c fun x =>
      { x with deadlineActive := true }

/-- The deadline of a connection by `tw_compute_conn_deadline`. -/
def WheelConn.deadline (cfg : TimeoutCfg) (x : WheelConn) : DeadlineKind × ℕ :=
  twComputeConnDeadline cfg x.fd.isSome x.view

/-- `tw_reschedule`. -/
def twReschedule (cfg : TimeoutCfg) (w : Wheel) (c nowMs : ℕ) : Wheel :=
  let d := (w.heap c).deadline cfg
  let w := w.modify c fun x =>
    { x with deadlineKind := d.1, rescheduledMs := nowMs, rearmedMs := none }
  let w := twRemoveInternal w c
  if d.2 ≠ 0 then twInsertInternal w c nowMs d.2 else w

/-- `tw_cancel`. -/
def twCancel (w : Wheel) (c : ℕ) : Wheel :=
  (twRemoveInternal w c).modify c fun x => { x with deadlineKind := .none, deadlineMs := 0 }

/-! ## The end of a connection -/

/-- `conn_recycle`. -/
def connRecycle (w : Wheel) (c : ℕ) : Wheel :=
  w.modify c fun x =>
    { x with
      view := { x.view with writePending := false, sendfileActive := false }
      writePollArmed := false
      deadlineActive := false
      twPrev := none
      twNext := none
      fd := none
      inUse := false }

/-- `conn_put`. -/
def connPut (w : Wheel) (c : ℕ) : Wheel :=
  let last := (w.heap c).refcnt == 1
  let w := w.modify c fun x => { x with refcnt := x.refcnt - 1 }
  if last then connRecycle w c else w

/-- `worker_loop_cancel_write_poll_if_armed`. -/
def Wheel.cancelWritePollIfArmed (w : Wheel) (c : ℕ) : Wheel :=
  if (w.heap c).writePollArmed then
    match w.getSqe with
    | (false, w) => w
    | (true, w) => w.modify c fun x => { x with writePollArmed := false }
  else w

/-- `conn_store_del`. -/
def Wheel.storeDel (w : Wheel) (fd : ℕ) : Wheel :=
  { w with store := Function.update w.store fd none }

/-- The beginning of `schedule_or_sync_close`, up to the detached descriptor. -/
def Wheel.beginClose (w : Wheel) (c : ℕ) : Wheel :=
  (twCancel (w.modify c fun x => { x with abortiveClose := false }) c).modify c fun x =>
    { x with
      view := { x.view with closing := true, sendfileActive := false }
      refcnt := x.refcnt + 1
      fd := none }

/-- The kinds of deadline after which the close is synchronous. -/
def DeadlineKind.closesNow (k : DeadlineKind) : Bool :=
  k == .initialIdle || k == .kaIdle || k == .drain

/-- `schedule_or_sync_close`; the flag says that it returned zero, for a close that was posted.  The close
operation holds a reference. -/
def Wheel.scheduleOrSyncClose (w : Wheel) (fd : Option ℕ) : Bool × Wheel :=
  match fd.bind w.store with
  | none => (false, w)
  | some c =>
    let dk := (w.heap c).deadlineKind
    let abortive := (w.heap c).abortiveClose
    match (w.heap c).fd with
    | none =>
      let w := (twCancel (w.modify c fun x => { x with abortiveClose := false }) c).modify c fun x =>
        { x with view := { x.view with closing := true, sendfileActive := false } }
      (false, w.storeDel (fd.getD 0))
    | some fdToClose =>
      let w := w.beginClose c
      if dk.closesNow || abortive then
        (false, connPut (connPut ((w.cancelWritePollIfArmed c).storeDel fdToClose) c) c)
      else
        match w.getSqe with
        | (false, w) => (false, connPut (connPut (w.storeDel fdToClose) c) c)
        | (true, w) =>
          let w := (w.modify c fun x => { x with opRefs := x.opRefs + 1 }).cancelWritePollIfArmed c
          (true, connPut (w.storeDel fdToClose) c)

/-! ## Ticks -/

/-- The send of a 408 in `tw_process_tick`. -/
def Wheel.stage408 (w : Wheel) (c : ℕ) : Wheel :=
  w.modify c fun x =>
    { x with
      view := { x.view with closing := true, writePending := true }
      refcnt := x.refcnt + 1
      opRefs := x.opRefs + 1 }

/-- The cases `DK_HEADER_TIMEOUT` and `DK_BODY_TIMEOUT` of `tw_process_tick`. -/
def Wheel.timeoutRequest (w : Wheel) (c : ℕ) : Bool × Wheel :=
  match w.getSqe with
  | (false, w) => w.scheduleOrSyncClose (w.heap c).fd
  | (true, w) => (true, w.stage408 c)

/-- What `tw_process_tick` does about an expired deadline; the flag is `alive_after_action`. -/
def Wheel.expire (w : Wheel) (c : ℕ) : Bool × Wheel :=
  let fd := (w.heap c).fd
  match (w.heap c).deadlineKind with
  | .drain => w.scheduleOrSyncClose fd
  | .kaIdle => w.scheduleOrSyncClose fd
  | .initialIdle => w.scheduleOrSyncClose fd
  | .writeTimeout => (w.modify c fun x => { x with abortiveClose := true }).scheduleOrSyncClose fd
  | .headerTimeout => w.timeoutRequest c
  | .bodyTimeout => w.timeoutRequest c
  | .none => (true, w)

/-- The deadline that `tw_process_tick` computes for a connection that is alive after its expiry. -/
def Wheel.rearm (cfg : TimeoutCfg) (w : Wheel) (c nowMs : ℕ) : Wheel :=
  let d := (w.heap c).deadline cfg
  let w := w.modify c fun x => { x with deadlineKind := d.1 }
  if d.2 ≠ 0 then
    twInsertInternal (w.modify c fun x => { x with rearmedMs := some nowMs }) c nowMs d.2
  else w

/-- The start of the loop body of `tw_process_tick`: the connection is unlinked. -/
def Wheel.beginVisit (w : Wheel) (c : ℕ) : Wheel :=
  { w.modify c fun x => { x with twPrev := none, twNext := none, deadlineActive := false } with
    visited := w.visited ++ [c] }

/-- Record an expiry. -/
def Wheel.recordExpiry (w : Wheel) (e : Expiry) : Wheel :=
  { w with expired := w.expired ++ [e] }

/-- The loop body of `tw_process_tick`, after the next connection was read. -/
def Wheel.visit (cfg : TimeoutCfg) (w : Wheel) (c nowMs : ℕ) : Wheel :=
  let deadlineMs := (w.heap c).deadlineMs
  let w := w.beginVisit c
  if deadlineMs ≤ nowMs then
    let r := (w.recordExpiry ⟨c, deadlineMs, nowMs⟩).expire c
    if r.1 then r.2.rearm cfg c nowMs else r.2
  else twInsertInternal w c nowMs deadlineMs

/-- The loop of `tw_process_tick`; every connection can be visited once. -/
def Wheel.walk (cfg : TimeoutCfg) (nowMs : ℕ) : ℕ → Wheel → Option ℕ → Wheel
  | _, w, none => w
  | 0, w, some _ => { w with stuck := true }
  | n + 1, w, some cur => Wheel.walk cfg nowMs n (w.visit cfg cur nowMs) (w.heap cur).twNext

/-- The start of `tw_process_tick`: the bucket is taken out. -/
def Wheel.beginTick (w : Wheel) : Wheel :=
  { w with
    buckets := Function.update w.buckets (w.nowTick &&& w.mask) none
    nowTick := w.nowTick + 1
    visited := [] }

/-- `tw_process_tick`. -/
def twProcessTick (cfg : TimeoutCfg) (w : Wheel) (nowMs : ℕ) : Wheel :=
  w.beginTick.walk cfg nowMs w.allocated (w.buckets (w.nowTick &&& w.mask))

/-- The loop of `OP_SWEEP` in `worker_loop_try_handle_nonconn`. -/
def Wheel.sweepLoop (cfg : TimeoutCfg) (nowMs : ℕ) : ℕ → Wheel → Wheel
  | 0, w => w
  | n + 1, w =>
    if w.nextTickDeadlineMs ≤ nowMs then
      let w := twProcessTick cfg w nowMs
      Wheel.sweepLoop cfg nowMs n { w with nextTickDeadlineMs := w.nextTickDeadlineMs + w.tickMs }
    else w

/-- `OP_SWEEP`; a round of the loop moves the next tick by at least a millisecond. -/
def Wheel.sweep (cfg : TimeoutCfg) (w : Wheel) (nowMs : ℕ) : Wheel :=
  w.sweepLoop cfg nowMs (nowMs + 1 - w.nextTickDeadlineMs)

/-! ## Events -/

/-- The beginning of `conn_init`, on a connection that `conn_alloc` cleared. -/
def Wheel.connAlloc (w : Wheel) (c fd nowMs : ℕ) : Wheel :=
  { w with
    heap := Function.update w.heap c
      { fd := some fd
        refcnt := 1
        view := { lastActiveMs := nowMs, headerStartMs := nowMs }
        inUse := true }
    allocated := max w.allocated (c + 1) }

/-- `conn_store_put` where it succeeds. -/
def Wheel.storePut (w : Wheel) (fd c : ℕ) : Wheel :=
  { w with store := Function.update w.store fd (some c) }

/-- `conn_init`, with the outcome of `conn_store_put`. -/
def Wheel.connInit (cfg : TimeoutCfg) (w : Wheel) (c fd : ℕ) (stored : Bool) (nowMs : ℕ) : Wheel :=
  if stored then twReschedule cfg ((w.connAlloc c fd nowMs).storePut fd c) c nowMs
  else connRecycle (w.connAlloc c fd nowMs) c

/-- What happens to the wheel.  `update` is any change that the rest of the server makes to the fields that
a deadline and a close depend on; `post` and `complete` are the references of an operation. -/
inductive WheelEvent where
  | accept (c fd : ℕ) (stored : Bool) (nowMs : ℕ)
  | update (c : ℕ) (view : DeadlineView) (abortiveClose writePollArmed : Bool)
  | post (c : ℕ)
  | complete (c : ℕ)
  | reschedule (c nowMs : ℕ)
  | cancel (c : ℕ)
  | close (fd : ℕ)
  | tick (nowMs : ℕ)
  | sweep (nowMs : ℕ)
  deriving DecidableEq, Repr

/-- The time of an event. -/
def WheelEvent.time (clock : ℕ) : WheelEvent → ℕ
  | .accept _ _ _ nowMs => nowMs
  | .reschedule _ nowMs => nowMs
  | .tick nowMs => nowMs
  | .sweep nowMs => nowMs
  | _ => clock

/-- What the worker does on an event. -/
def Wheel.handle (cfg : TimeoutCfg) (w : Wheel) : WheelEvent → Wheel
  | .accept c fd stored nowMs => w.connInit cfg c fd stored nowMs
  | .update c view abortiveClose writePollArmed =>
    w.modify c fun x =>
      { x with view := view, abortiveClose := abortiveClose, writePollArmed := writePollArmed }
  | .post c => w.modify c fun x => { x with refcnt := x.refcnt + 1, opRefs := x.opRefs + 1 }
  | .complete c => connPut (w.modify c fun x => { x with opRefs := x.opRefs - 1 }) c
  | .reschedule c nowMs => twReschedule cfg w c nowMs
  | .cancel c => twCancel w c
  | .close fd => (w.scheduleOrSyncClose (some fd)).2
  | .tick nowMs => twProcessTick cfg w nowMs
  | .sweep nowMs => w.sweep cfg nowMs

/-- One step; the event comes with the outcomes of its `get_sqe_batching` calls. -/
def Wheel.step (cfg : TimeoutCfg) (w : Wheel) (e : WheelEvent × List Bool) : Wheel :=
  { w with sqes := e.2, clock := e.1.time w.clock }.handle cfg e.1

/-- The events that can occur: `conn_alloc` returns a connection that is not in use, the kernel hands out a
descriptor that is not in the store, operations are posted for a connection in use, and an operation that
completes holds a reference. -/
def Wheel.enabled (w : Wheel) (e : WheelEvent × List Bool) : Bool :=
  match e.1 with
  | .accept c fd _ _ => !(w.heap c).inUse && decide (c ≤ w.allocated) && w.store fd == none
  | .post c => (w.heap c).inUse
  | .complete c => decide (0 < (w.heap c).opRefs)
  | _ => true

/-- A call of `tw_process_tick` on its own. -/
def WheelEvent.isTick : WheelEvent → Bool
  | .tick _ => true
  | _ => false

/-- The events of a worker whose clock does not go back and whose ticks are those of sweeps. -/
def Wheel.timed (w : Wheel) (e : WheelEvent × List Bool) : Bool :=
  w.enabled e && decide (w.clock ≤ e.1.time w.clock) && !e.1.isTick

end Lamseryn
