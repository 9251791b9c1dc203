import Lamseryn.Framework.Runs

/-!
# The accept controller (`src/accept_controller.c`)

The listeners of a worker and the operations that the worker has posted for them.  A listener is its
index; `inflight` gives for each listener the accept operations that are staged or in flight, which the
source does not count, and `timers` the backoff timeouts.  The flags are those of `struct worker_ctx`.

An accept operation ends with a completion without `IORING_CQE_F_MORE`; only a multishot operation has
completions with it.  A cancellation of a listener's operations shows up as completions of them with
`ECANCELED`; the completion of the cancellation itself carries no context and is ignored.

`sqes` holds the outcomes of the next calls of `get_sqe_batching`, and after its end every call succeeds.
The build option `ENABLE_MULTISHOT_ACCEPT` is the parameter `multishotBuild`.
-/

namespace Lamseryn

/-- An accept operation. -/
structure AcceptOp where
  multishot : Bool
  deriving DecidableEq, Repr

/-- The result of an accept completion: a descriptor or an error. -/
inductive AcceptRes where
  | accepted
  | emfile
  | enfile
  | einval
  | eopnotsupp
  | ecanceled
  | other (code : ℕ)
  deriving DecidableEq, Repr

/-- The part of `struct worker_ctx` that the controller works on. -/
structure AcceptCtl where
  inflight : List (List AcceptOp)
  timers : ℕ := 0
  multishot : Bool := false
  paused : Bool := false
  cancelInflight : Bool := false
  backoffArmed : Bool := false
  draining : Bool := false
  sqes : List Bool := []
  deriving DecidableEq, Repr

/-- `num_listeners`. -/
def AcceptCtl.numListeners (s : AcceptCtl) : ℕ :=
  s.inflight.length

/-- `get_sqe_batching`. -/
def AcceptCtl.getSqe (s : AcceptCtl) : Bool × AcceptCtl :=
  match s.sqes with
  | [] => (true, s)
  | ok :: rest => (ok, { s with sqes := rest })

/-- `accept_can_rearm`. -/
def AcceptCtl.canRearm (s : AcceptCtl) : Bool :=
  !s.paused && !s.cancelInflight

/-- `accept_arm_backoff_timer`; the flag is its return value. -/
def acceptArmBackoffTimer (s : AcceptCtl) : Bool × AcceptCtl :=
  if s.backoffArmed then (false, s)
  else
    match s.getSqe with
    | (false, s) => (false, s)
    | (true, s) => (true, { s with backoffArmed := true, timers := s.timers + 1 })

/-- The loop of `accept_maybe_stage_cancel_all` over the listeners that remain: how many cancellations
were staged. -/
def acceptStageCancels : ℕ → AcceptCtl → ℕ × AcceptCtl
  | 0, s => (0, s)
  | n + 1, s =>
    match s.getSqe with
    | (false, s) => (0, s)
    | (true, s) =>
      let (posted, s) := acceptStageCancels n s
      (posted + 1, s)

/-- `accept_maybe_stage_cancel_all`. -/
def acceptMaybeStageCancelAll (s : AcceptCtl) : AcceptCtl :=
  if s.cancelInflight then s
  else
    let (posted, s') := acceptStageCancels s.numListeners s
    if posted = s.numListeners then { s' with cancelInflight := true } else s'

/-- `accept_resume_from_backoff`. -/
def acceptResumeFromBackoff (s : AcceptCtl) : AcceptCtl :=
  { s with backoffArmed := false, paused := false, cancelInflight := false }

/-- An operation is added to those of listener `i`. -/
def AcceptCtl.addOp (s : AcceptCtl) (i : ℕ) (op : AcceptOp) : AcceptCtl :=
  { s with inflight := s.inflight.modify i (· ++ [op]) }

/-- `accept_post_one`; the flag is its return value. -/
def acceptPostOne (multishotBuild : Bool) (s : AcceptCtl) (i : ℕ) : Bool × AcceptCtl :=
  match s.getSqe with
  | (false, s) => (false, s)
  | (true, s) => (true, s.addOp i ⟨multishotBuild && s.multishot⟩)

/-! ## Startup -/

/-- The pre-posted accepts of one listener in the single-shot build. -/
def acceptPrePost : ℕ → ℕ → AcceptCtl → AcceptCtl
  | 0, _, s => s
  | k + 1, i, s =>
    match s.getSqe with
    | (false, s) => s
    | (true, s) => acceptPrePost k i (s.addOp i ⟨false⟩)

/-- One round of the loop of `accept_arm_startup`. -/
def acceptArmListener (multishotBuild : Bool) (preAccepts : ℕ) (s : AcceptCtl) (i : ℕ) : AcceptCtl :=
  if multishotBuild then
    match s.getSqe with
    | (false, s) => s
    | (true, s) => { s.addOp i ⟨true⟩ with multishot := true }
  else acceptPrePost preAccepts i s

/-- `accept_arm_startup` for `n` listeners. -/
def acceptArmStartup (multishotBuild : Bool) (preAccepts n : ℕ) (sqes : List Bool) : AcceptCtl :=
  (List.range n).foldl (acceptArmListener multishotBuild preAccepts)
    { inflight := List.replicate n [], sqes := sqes }

/-! ## Completions -/

/-- `EMFILE` or `ENFILE`. -/
def AcceptRes.fdPressure (res : AcceptRes) : Bool :=
  res == .emfile || res == .enfile

/-- `EINVAL` or `EOPNOTSUPP`: multishot accept is not supported. -/
def AcceptRes.unsupported (res : AcceptRes) : Bool :=
  res == .einval || res == .eopnotsupp

/-- The re-arm guard of `accept_handle_cqe`.  The single-shot build has no test of the flag `more` after a
success; its flag `multishot` is never set, so that the test is the same in both builds. -/
def AcceptCtl.rearms (s : AcceptCtl) (more : Bool) : Bool :=
  s.canRearm && (!s.multishot || !more)

/-- `accept_handle_cqe` for listener `i`, without `worker_accept_success`. -/
def acceptHandleCqe (multishotBuild : Bool) (s : AcceptCtl) (i : ℕ) (res : AcceptRes) (more : Bool) :
    AcceptCtl :=
  if res = .accepted then
    if s.rearms more then (acceptPostOne multishotBuild s i).2 else s
  else
    let s := if s.multishot && res.unsupported then { s with multishot := false } else s
    if res.fdPressure then
      match acceptArmBackoffTimer s with
      | (true, s) => acceptMaybeStageCancelAll { s with paused := true }
      | (false, s) => if s.rearms more then (acceptPostOne multishotBuild s i).2 else s
    else if res = .ecanceled ∧ s.paused then s
    else if s.rearms more then (acceptPostOne multishotBuild s i).2
    else s

/-- The re-arm loop of `accept_handle_backoff`, from listener `i` on, `n` listeners. -/
def acceptRearmFrom (multishotBuild : Bool) : ℕ → ℕ → AcceptCtl → AcceptCtl
  | 0, _, s => s
  | n + 1, i, s =>
    match acceptPostOne multishotBuild s i with
    | (false, s) => s
    | (true, s) => acceptRearmFrom multishotBuild n (i + 1) s

/-- `accept_handle_backoff`. -/
def acceptHandleBackoff (multishotBuild : Bool) (s : AcceptCtl) : AcceptCtl :=
  if s.draining then { s with backoffArmed := false }
  else acceptRearmFrom multishotBuild s.numListeners 0 (acceptResumeFromBackoff s)

/-- `accept_enter_drain`. -/
def acceptEnterDrain (s : AcceptCtl) : AcceptCtl :=
  acceptMaybeStageCancelAll { s with draining := true, paused := true, backoffArmed := false }

/-! ## Events -/

/-- What happens to the controller: the completion of the `j`-th operation of listener `i`, the
completion of a cancellation, the completion of a backoff timeout, the worker's loop noticing the
shutdown, and the wake-up that starts the drain. -/
inductive AcceptEvent where
  | accept (i j : ℕ) (res : AcceptRes) (more : Bool)
  | cancelDone
  | backoff
  | noticeDrain
  | enterDrain
  deriving DecidableEq, Repr

/-- The `j`-th operation of listener `i`. -/
def AcceptCtl.op? (s : AcceptCtl) (i j : ℕ) : Option AcceptOp :=
  s.inflight[i]?.bind (·[j]?)

/-- The events that can occur. -/
def AcceptCtl.enabled (s : AcceptCtl) (e : AcceptEvent × List Bool) : Bool :=
  match e.1 with
  | .accept i j _ more => (s.op? i j).any fun op => op.multishot || !more
  | .backoff => decide (0 < s.timers)
  | _ => true

/-- An operation without further completions is no longer in flight. -/
def AcceptCtl.endOp (s : AcceptCtl) (i j : ℕ) : AcceptCtl :=
  { s with inflight := s.inflight.modify i (·.eraseIdx j) }

/-- One step of the controller; the event comes with the outcomes of its `get_sqe_batching` calls. -/
def AcceptCtl.step (multishotBuild : Bool) (s : AcceptCtl) (e : AcceptEvent × List Bool) : AcceptCtl :=
  let s := { s with sqes := e.2 }
  match e.1 with
  | .accept i j res more =>
    acceptHandleCqe multishotBuild (if more then s else s.endOp i j) i res more
  | .cancelDone => s
  | .backoff => acceptHandleBackoff multishotBuild { s with timers := s.timers - 1 }
  | .noticeDrain => { s with draining := true }
  | .enterDrain => acceptEnterDrain s

end Lamseryn
