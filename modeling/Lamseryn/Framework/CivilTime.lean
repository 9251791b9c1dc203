import Mathlib.Data.Int.Basic
import Mathlib.Tactic.Common

/-!
# Civil time

The proleptic Gregorian calendar in universal time, as `gmtime` and `timegm` of the C library have it:
seconds from 1970-01-01 to the fields of a date and back (`timegm_gmtime`).  Years are counted from March, so that the
leap day is the last day of a year; 146097 days are 400 years.
-/

namespace CivilTime

/-- The fields of `struct tm`: months from 0, the year in full. -/
structure Tm where
  year : ℤ
  mon : ℕ
  mday : ℤ
  hour : ℤ
  min : ℤ
  sec : ℤ
  wday : ℕ := 0
  deriving DecidableEq, Repr

/-- The number of days from 1970-01-01 to the first day of a month. -/
def daysToMonth (year : ℤ) (mon : ℕ) : ℤ :=
  -- months from March, in years that begin with March
  let y := if mon < 2 then year - 1 else year
  let m : ℤ := if mon < 2 then mon + 10 else mon - 2
  let era := y / 400
  let yoe := y % 400
  era * 146097 + yoe * 365 + yoe / 4 - yoe / 100 + (153 * m + 2) / 5 - 719468

/-- `timegm`.  A day beyond the end of its month counts on into the next one. -/
def timegm (tm : Tm) : ℤ :=
  (daysToMonth tm.year tm.mon + tm.mday - 1) * 86400 + tm.hour * 3600 + tm.min * 60 + tm.sec

/-- `gmtime`. -/
def gmtime (t : ℤ) : Tm :=
  let days := t / 86400
  let s := t % 86400
  let z := days + 719468
  let era := z / 146097
  let doe := z % 146097
  let yoe := (doe - doe / 1460 + doe / 36524 - doe / 146096) / 365
  let doy := doe - (365 * yoe + yoe / 4 - yoe / 100)
  let mp := (5 * doy + 2) / 153
  let mon := if mp < 10 then mp + 2 else mp - 10
  { year := yoe + era * 400 + if mon < 2 then 1 else 0
    mon := mon.toNat
    mday := doy - (153 * mp + 2) / 5 + 1
    hour := s / 3600
    min := s / 60 % 60
    sec := s % 60
    wday := ((days + 4) % 7).toNat }

example : gmtime 784111777 = ⟨1994, 10, 6, 8, 49, 37, 0⟩ := by decide

example : timegm ⟨1994, 10, 6, 8, 49, 37, 0⟩ = 784111777 := by decide

/-! ## The two functions are inverse -/

/-- The year within 400 years that a day belongs to; the four centuries are counted apart, the last one
being a day longer. -/
lemma yearOfEra_bounds {doe yoe : ℤ} (hdoe : 0 ≤ doe) (hlt : doe < 146097)
    (hyoe : yoe = (doe - doe / 1460 + doe / 36524 - doe / 146096) / 365) :
    0 ≤ yoe ∧ yoe < 400 ∧ 0 ≤ doe - (365 * yoe + yoe / 4 - yoe / 100) ∧
      doe - (365 * yoe + yoe / 4 - yoe / 100) < 366 := by
  obtain ⟨c, hc⟩ : ∃ c, c = doe / 36524 := ⟨_, rfl⟩
  have hcases : c = 0 ∨ c = 1 ∨ c = 2 ∨ c = 3 ∨ c = 4 := by omega
  have hcentury : yoe / 100 = min c 3 := by
    rcases hcases with h | h | h | h | h <;> omega
  rcases hcases with h | h | h | h | h <;> omega

lemma monthOfYear_bounds {doy mp : ℤ} (hdoy : 0 ≤ doy) (hlt : doy < 366)
    (hmp : mp = (5 * doy + 2) / 153) :
    0 ≤ mp ∧ mp < 12 ∧ 0 ≤ doy - (153 * mp + 2) / 5 ∧ doy - (153 * mp + 2) / 5 < 31 := by
  omega

lemma gmtime_spec (t : ℤ) : ∃ era yoe mp mday : ℤ,
    (0 ≤ yoe ∧ yoe < 400) ∧ (0 ≤ mp ∧ mp < 12) ∧ (1 ≤ mday ∧ mday ≤ 31) ∧
    t / 86400 + 719468 =
      era * 146097 + yoe * 365 + yoe / 4 - yoe / 100 + (153 * mp + 2) / 5 + mday - 1 ∧
    gmtime t =
      { year := yoe + era * 400 + if mp < 10 then 0 else 1
        mon := (if mp < 10 then mp + 2 else mp - 10).toNat
        mday := mday
        hour := t % 86400 / 3600
        min := t % 86400 / 60 % 60
        sec := t % 86400 % 60
        wday := ((t / 86400 + 4) % 7).toNat } := by
  obtain ⟨doe, hdoe⟩ : ∃ doe, doe = (t / 86400 + 719468) % 146097 := ⟨_, rfl⟩
  obtain ⟨yoe, hyoe⟩ : ∃ yoe, yoe = (doe - doe / 1460 + doe / 36524 - doe / 146096) / 365 := ⟨_, rfl⟩
  obtain ⟨doy, hdoy⟩ : ∃ doy, doy = doe - (365 * yoe + yoe / 4 - yoe / 100) := ⟨_, rfl⟩
  obtain ⟨mp, hmp⟩ : ∃ mp, mp = (5 * doy + 2) / 153 := ⟨_, rfl⟩
  obtain ⟨hyear0, hyear, hday0, hday⟩ := yearOfEra_bounds (by omega) (by omega) hyoe
  rw [← hdoy] at hday0 hday
  obtain ⟨hmonth0, hmonth, hmday0, hmday⟩ := monthOfYear_bounds hday0 hday hmp
  refine ⟨(t / 86400 + 719468) / 146097, yoe, mp, doy - (153 * mp + 2) / 5 + 1, ⟨hyear0, hyear⟩,
    ⟨hmonth0, hmonth⟩, ⟨by omega, by omega⟩, by omega, ?_⟩
  unfold gmtime
  dsimp only
  rw [← hdoe, ← hyoe, ← hdoy, ← hmp]
  -- January and February are the last months of a year that begins with March
  have hnext : (if (if mp < 10 then mp + 2 else mp - 10) < 2 then (1 : ℤ) else 0) =
      if mp < 10 then 0 else 1 := by
    split <;> split <;> omega
  rw [hnext]

lemma gmtime_bounds (t : ℤ) :
    (gmtime t).mon < 12 ∧ (1 ≤ (gmtime t).mday ∧ (gmtime t).mday ≤ 31) ∧
      (0 ≤ (gmtime t).hour ∧ (gmtime t).hour ≤ 23) ∧ (0 ≤ (gmtime t).min ∧ (gmtime t).min ≤ 59) ∧
      (0 ≤ (gmtime t).sec ∧ (gmtime t).sec ≤ 59) ∧ (gmtime t).wday < 7 := by
  obtain ⟨era, yoe, mp, mday, -, hmp, hmday, -, heq⟩ := gmtime_spec t
  rw [heq]
  dsimp only
  refine ⟨?_, hmday, by omega, by omega, by omega, by omega⟩
  split <;> omega

/-- `timegm` gives back the time that `gmtime` was asked for. -/
theorem timegm_gmtime (t : ℤ) : timegm (gmtime t) = t := by
  obtain ⟨era, yoe, mp, mday, hyoe, hmp, -, hdays, heq⟩ := gmtime_spec t
  have hmonth : daysToMonth (yoe + era * 400 + if mp < 10 then 0 else 1)
      (if mp < 10 then mp + 2 else mp - 10).toNat =
      era * 146097 + yoe * 365 + yoe / 4 - yoe / 100 + (153 * mp + 2) / 5 - 719468 := by
    unfold daysToMonth
    by_cases hspring : mp < 10
    · rw [if_pos hspring, if_pos hspring]
      have hmon : ¬ (mp + 2).toNat < 2 := by omega
      rw [if_neg hmon, if_neg hmon]
      dsimp only
      omega
    · rw [if_neg hspring, if_neg hspring]
      have hmon : (mp - 10).toNat < 2 := by omega
      rw [if_pos hmon, if_pos hmon]
      dsimp only
      omega
  rw [heq, timegm]
  dsimp only
  rw [hmonth]
  omega
end CivilTime
