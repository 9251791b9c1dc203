import Lamseryn.Model.Timers
import Lamseryn.Properties.Routing
import Lamseryn.Properties.WheelDeadlines

/-!
# Timer values

The kernel refuses a timeout whose nanoseconds are not below a second.  The sweep splits its milliseconds
into seconds and nanoseconds, and the time of the next tick stays within a tick of the clock, so its timer
is exact in every run.  The accept backoff puts all of its milliseconds into the nanoseconds, and the loader
accepts any 32-bit number of them.
-/

namespace Lamseryn

open ByteText GuardedRun

/-! ## Timeouts -/

/-- A timeout that the kernel accepts. -/
def KernelTimespec.Normal (ts : KernelTimespec) : Prop :=
  0 ≤ ts.tvSec ∧ 0 ≤ ts.tvNsec ∧ ts.tvNsec < 10 ^ 9

/-- The nanoseconds of a timeout are those of `ms` milliseconds. -/
def KernelTimespec.Denotes (ts : KernelTimespec) (ms : ℕ) : Prop :=
  ts.tvSec * 10 ^ 9 + ts.tvNsec = ms * 10 ^ 6

/-- A submitted timeout: computed without overflow, accepted by the kernel, and of `ms` milliseconds. -/
def ExactTimer (timer : Option KernelTimespec) (ms : ℕ) : Prop :=
  ∃ ts, timer = some ts ∧ ts.Normal ∧ ts.Denotes ms

lemma asU64_of_lt {n : ℕ} (h : n < 2 ^ 64) : asU64 n = some n :=
  if_pos h

lemma asLong_of_lt {n : ℕ} (h : n < 2 ^ 63) : asLong n = some (n : ℤ) :=
  if_pos ⟨by omega, by exact_mod_cast h⟩

lemma MonotonicTime.nowMs_lt (t : MonotonicTime) : t.nowMs < 2 ^ 62 := by
  have hns := t.ns_lt
  unfold MonotonicTime.nowMs
  omega

/-! ## The backoff -/

/-- All milliseconds are nanoseconds of the timeout, so they have to be less than a second. -/
lemma exactTimer_backoff_iff (g : GlobalsCfg) :
    ExactTimer (acceptBackoffTimespec g) (backoffMs g) ↔ backoffMs g < 1000 := by
  constructor
  · rintro ⟨ts, hts, ⟨-, -, hlt⟩, -⟩
    unfold acceptBackoffTimespec at hts
    obtain ⟨nsec, hnsec, hts⟩ := Option.bind_eq_some_iff.mp hts
    obtain rfl := Option.some.inj hts
    unfold asLong at hnsec
    split at hnsec
    · obtain rfl := Option.some.inj hnsec
      dsimp only at hlt
      omega
    · cases hnsec
  · intro hms
    have hlong : asLong (backoffMs g * 1000000) = some ((backoffMs g * 1000000 : ℕ) : ℤ) := by
      have hlt : backoffMs g * 1000000 < 2 ^ 63 := by omega
      rw [← asLong_of_lt hlt, Nat.cast_mul]
      rfl
    refine ⟨{ tvSec := 0, tvNsec := (backoffMs g * 1000000 : ℕ) }, ?_, ⟨le_rfl, ?_, ?_⟩, ?_⟩
    · rw [acceptBackoffTimespec, hlong]
      rfl
    · exact Int.natCast_nonneg _
    · dsimp only
      omega
    · unfold KernelTimespec.Denotes
      dsimp only
      omega

/-! ## The sweep -/

lemma Accurate.sweepDeadline_eq {w : Wheel} (h : Accurate w) (cfg : TimeoutCfg) {nowMs : ℕ}
    (hnow : nowMs + w.tickMs < 2 ^ 64) (n : ℕ) :
    sweepDeadline w.tickMs nowMs n w.nextTickDeadlineMs =
      some (w.sweepLoop cfg nowMs n).nextTickDeadlineMs := by
  induction n generalizing w with
  | zero => rfl
  | succ n ih =>
    unfold sweepDeadline Wheel.sweepLoop
    split
    case isTrue hdue =>
      obtain ⟨hacc, hnext, htick, -⟩ := h.tick hdue cfg
      have hrest := ih hacc (by
        show nowMs + (twProcessTick cfg w nowMs).tickMs < 2 ^ 64
        rwa [htick])
      dsimp only at hrest ⊢
      rw [hnext, htick] at hrest
      rw [asU64_of_lt (by omega), Option.bind_eq_bind, Option.bind_some, hnext, htick]
      exact hrest
    case isFalse hlater => rfl

lemma exactTimer_sweep {tickMs nowMs deadline next : ℕ}
    (hnext : sweepDeadline tickMs nowMs (nowMs + 1 - deadline) deadline = some next) (hlt : nowMs < next)
    (hbound : next < 2 ^ 63) : ExactTimer (sweepTimespec tickMs nowMs deadline) (next - nowMs) := by
  obtain ⟨delta, hdelta⟩ : ∃ delta, next - nowMs = delta := ⟨_, rfl⟩
  refine ⟨{ tvSec := (delta / 1000 : ℕ), tvNsec := (delta % 1000 * 1000000 : ℕ) }, ?_, ⟨?_, ?_, ?_⟩, ?_⟩
  · unfold sweepTimespec
    simp only [Option.bind_eq_bind]
    rw [hnext, Option.bind_some, if_pos hlt, hdelta, asU64_of_lt (by omega), Option.bind_some,
      asLong_of_lt (by omega), Option.bind_some, asLong_of_lt (by omega), Option.bind_some]
    rfl
  · exact Int.natCast_nonneg _
  · exact Int.natCast_nonneg _
  · dsimp only
    omega
  · unfold KernelTimespec.Denotes
    dsimp only
    rw [hdelta]
    omega

/-- The timer of a sweep ends at the next tick. -/
structure ExactSweep (cfg : TimeoutCfg) (w : Wheel) (nowMs : ℕ) : Prop where
  later : nowMs < (w.sweep cfg nowMs).nextTickDeadlineMs
  timer : ExactTimer (sweepTimespec w.tickMs nowMs w.nextTickDeadlineMs)
    ((w.sweep cfg nowMs).nextTickDeadlineMs - nowMs)

lemma exactSweep_of_run (cfg : TimeoutCfg) (startMs : ℕ) {es : List (WheelEvent × List Bool)} {w : Wheel}
    (hrun : Run (Wheel.step cfg) (fun w e => w.timed e = true) (twInit twSlots twTickMs startMs) es w)
    (now : MonotonicTime) (hclock : w.clock ≤ now.nowMs) : ExactSweep cfg w now.nowMs := by
  obtain ⟨hacc, hnext, htick⟩ := accurate_of_run cfg ⟨10, rfl⟩ (by decide) startMs hrun
  have hnow := now.nowMs_lt
  have htick100 : w.tickMs = 100 := htick
  have hahead : w.nextTickDeadlineMs ≤ now.nowMs + w.tickMs := by omega
  have hroom : now.nowMs + w.tickMs < 2 ^ 63 := by omega
  obtain ⟨-, hlt, hle, htick', -⟩ := hacc.sweepLoop cfg le_rfl hahead
  have hdeadline := hacc.sweepDeadline_eq cfg (hroom.trans (by norm_num))
    (now.nowMs + 1 - w.nextTickDeadlineMs)
  rw [htick'] at hle
  exact ⟨hlt, exactTimer_sweep hdeadline hlt (hle.trans_lt hroom)⟩

/-! ## Both timers -/

/-- Both timeouts of a worker are exact, that of the sweep in every run. -/
structure TimersExact (g : GlobalsCfg) : Prop where
  backoff : ExactTimer (acceptBackoffTimespec g) (backoffMs g)
  sweep : ∀ (cfg : TimeoutCfg) (start : MonotonicTime) (es : List (WheelEvent × List Bool)) (w : Wheel),
    Run (Wheel.step cfg) (fun w e => w.timed e = true) (twInit twSlots twTickMs start.nowMs) es w →
      ∀ now : MonotonicTime, w.clock ≤ now.nowMs → ExactSweep cfg w now.nowMs

/-- A file with a backoff of one second. -/
def slowBackoff : List IniItem :=
  [fileKey 1 "globals" "accept_backoff_ms" "1000",
   fileKey 3 "vhost a" "port" "8080"]

/-- The configuration of `slowBackoff`. -/
def slowBackoffConfig : Config where
  g := { acceptBackoffMs := some 1000 }
  vhosts := [{ newVhost {} (ascii "a") with port := 8080 }]

end Lamseryn
