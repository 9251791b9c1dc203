import Lamseryn.Model.ConfigIni
import Lamseryn.Model.TimingWheel

/-!
# Timer values (`src/accept_controller.c`, `src/worker_loop.c`)

The timeouts that a worker submits to the kernel: the accept backoff, and the timer that sweeps the timing
wheel.  The arithmetic is checked: a result that its C type does not have is `none`.
-/

namespace Lamseryn

/-- A result of type `uint64_t`. -/
def asU64 (n : ℕ) : Option ℕ :=
  if n < 2 ^ 64 then some n else none

/-- A result of type `long` or `time_t`. -/
def asLong (n : ℤ) : Option ℤ :=
  if -2 ^ 63 ≤ n ∧ n < 2 ^ 63 then some n else none

/-- `struct __kernel_timespec`. -/
structure KernelTimespec where
  tvSec : ℤ
  tvNsec : ℤ
  deriving DecidableEq, Repr

/-- `TW_TICK_MS`. -/
def twTickMs : ℕ := 100

/-- `TW_SLOTS`. -/
def twSlots : ℕ := 1024

/-- A time of `CLOCK_MONOTONIC`, which the kernel counts in nanoseconds in a signed 64-bit number. -/
structure MonotonicTime where
  ns : ℕ
  ns_lt : ns < 2 ^ 63

/-- `time_now_ms_monotonic`, from the seconds and the nanoseconds of the time. -/
def MonotonicTime.nowMs (t : MonotonicTime) : ℕ :=
  t.ns / 10 ^ 9 * 1000 + t.ns % 10 ^ 9 / 1000000

/-! ## The accept backoff -/

/-- `DEFAULT_ACCEPT_BACKOFF_MS`. -/
def defaultAcceptBackoffMs : ℕ := 5

/-- `backoff_ms` in `accept_arm_backoff_timer`. -/
def backoffMs (g : GlobalsCfg) : ℕ :=
  g.acceptBackoffMs.getD defaultAcceptBackoffMs

/-- The timeout that `accept_arm_backoff_timer` submits. -/
def acceptBackoffTimespec (g : GlobalsCfg) : Option KernelTimespec := do
  let nsec ← asLong (backoffMs g * 1000000)
  return { tvSec := 0, tvNsec := nsec }

/-! ## The sweep -/

/-- The loop of `OP_SWEEP` on `next_tick_deadline_ms`. -/
def sweepDeadline (tickMs nowMs : ℕ) : ℕ → ℕ → Option ℕ
  | 0, deadline => some deadline
  | n + 1, deadline =>
    if deadline ≤ nowMs then do
      let deadline ← asU64 (deadline + tickMs)
      sweepDeadline tickMs nowMs n deadline
    else some deadline

/-- The timeout that `OP_SWEEP` submits, on a worker with the time `deadline` of the next tick. -/
def sweepTimespec (tickMs nowMs deadline : ℕ) : Option KernelTimespec := do
  let deadline ← sweepDeadline tickMs nowMs (nowMs + 1 - deadline) deadline
  let deltaMs := if nowMs < deadline then deadline - nowMs else tickMs
  let nanos ← asU64 (deltaMs % 1000 * 1000000)
  let sec ← asLong (deltaMs / 1000 : ℕ)
  let nsec ← asLong nanos
  return { tvSec := sec, tvNsec := nsec }

example : sweepTimespec twTickMs 1950 1800 = some { tvSec := 0, tvNsec := 50000000 } := by decide

end Lamseryn
