import Lamseryn.Model.Conditional

/-!
# Dates

`static_serve_parse_http_date` reads what `time_format_http_date` writes, for every time in the years
0 to 9999: there the year has four digits.
-/

namespace Lamseryn

open ByteText CText CivilTime

/-! ## Fields -/

lemma decimalFrom_zero_replicate (k : ℕ) (ds : Bytes) :
    decimalFrom 0 (List.replicate k 48 ++ ds) = decimalFrom 0 ds := by
  induction k with
  | zero => rfl
  | succ k ih =>
    rw [List.replicate_succ, List.cons_append, decimalFrom_cons]
    exact ih

lemma zeroPadded_spec {w n : ℕ} (hw : 0 < w) (hn : n < 10 ^ w) :
    (zeroPadded w n).length = w ∧ (zeroPadded w n).all isDigit = true ∧
      decimal (zeroPadded w n) = n := by
  have hlen := numeral_length_le hw hn
  have heq : zeroPadded w n = List.replicate (w - (numeral n).length) 48 ++ numeral n := by
    unfold zeroPadded
    rw [Int.natAbs_natCast, if_neg (by omega)]
  rw [heq]
  refine ⟨?_, ?_, ?_⟩
  · rw [List.length_append, List.length_replicate]
    omega
  · rw [List.all_eq_true]
    intro b hb
    rcases List.mem_append.mp hb with hzero | hdigit
    · rw [List.eq_of_mem_replicate hzero]
      decide
    · exact isDigit_of_mem_numeral hdigit
  · rw [decimal, decimalFrom_zero_replicate]
    exact decimal_numeral n

lemma digitField_zeroPadded {w n : ℕ} (hw : 0 < w) (hn : n < 10 ^ w) (rest : Bytes) :
    digitField w (zeroPadded w n ++ rest) = some (n, rest) := by
  obtain ⟨hlen, hdigits, hval⟩ := zeroPadded_spec hw hn
  unfold digitField
  rw [List.take_left' hlen, List.drop_left' hlen, hval, if_pos]
  rw [List.length_append]
  exact ⟨by omega, hdigits⟩

lemma expectText_append (text rest : Bytes) : expectText text (text ++ rest) = some rest := by
  unfold expectText
  rw [if_pos (by simp), List.drop_left]

/-! ## The whole date -/

lemma dayNames_length {wday : ℕ} (h : wday < 7) : (dayNames.getD wday []).length = 3 := by
  revert wday
  decide

lemma monthNames_length {mon : ℕ} (h : mon < 12) : (monthNames.getD mon []).length = 3 := by
  revert mon
  decide

lemma monthNames_findIdx {mon : ℕ} (h : mon < 12) :
    monthNames.findIdx? (· == monthNames.getD mon []) = some mon := by
  revert mon
  decide

/-- The fields of a date that is printed in the fixed format. -/
lemma staticServeParseHttpDate_text {wday mon year mday hour min sec : ℕ} (hwday : wday < 7)
    (hmon : mon < 12) (hyear : year < 10000) (hmday : 1 ≤ mday ∧ mday ≤ 31) (hhour : hour ≤ 23)
    (hmin : min ≤ 59) (hsec : sec ≤ 59) :
    staticServeParseHttpDate (httpDateText { year, mon, mday, hour, min, sec, wday }) =
      some (timegm { year, mon, mday, hour, min, sec }) := by
  have hday := dayNames_length hwday
  have hname := monthNames_length hmon
  have htext : httpDateText { year, mon, mday, hour, min, sec, wday } =
      dayNames.getD wday [] ++ (ascii ", " ++ (zeroPadded 2 mday ++ (ascii " " ++
        (monthNames.getD mon [] ++ (ascii " " ++ (zeroPadded 4 year ++ (ascii " " ++
          (zeroPadded 2 hour ++ (ascii ":" ++ (zeroPadded 2 min ++ (ascii ":" ++
            (zeroPadded 2 sec ++ ascii " GMT")))))))))))) := by
    simp only [httpDateText, List.append_assoc]
  have hrange : 1 ≤ mday ∧ mday ≤ 31 ∧ hour ≤ 23 ∧ min ≤ 59 ∧ sec ≤ 60 := by omega
  have hlen : 3 ≤ (httpDateText { year, mon, mday, hour, min, sec, wday }).length := by
    rw [htext, List.length_append]
    omega
  have htwo : 0 < 2 := Nat.two_pos
  unfold staticServeParseHttpDate
  refine Option.bind_eq_some_iff.mpr ⟨(), (Option.guard_eq_some' _).mpr hlen, ?_⟩
  rw [htext, List.drop_left' hday]
  refine Option.bind_eq_some_iff.mpr ⟨_, expectText_append _ _, ?_⟩
  refine Option.bind_eq_some_iff.mpr ⟨_, digitField_zeroPadded htwo (by omega) _, ?_⟩
  refine Option.bind_eq_some_iff.mpr ⟨_, expectText_append _ _, ?_⟩
  rw [List.take_left' hname, List.drop_left' hname]
  refine Option.bind_eq_some_iff.mpr ⟨_, monthNames_findIdx hmon, ?_⟩
  refine Option.bind_eq_some_iff.mpr ⟨_, expectText_append _ _, ?_⟩
  refine Option.bind_eq_some_iff.mpr ⟨_, digitField_zeroPadded (by omega) (by omega) _, ?_⟩
  refine Option.bind_eq_some_iff.mpr ⟨_, expectText_append _ _, ?_⟩
  refine Option.bind_eq_some_iff.mpr ⟨_, digitField_zeroPadded htwo (by omega) _, ?_⟩
  refine Option.bind_eq_some_iff.mpr ⟨_, expectText_append _ _, ?_⟩
  refine Option.bind_eq_some_iff.mpr ⟨_, digitField_zeroPadded htwo (by omega) _, ?_⟩
  refine Option.bind_eq_some_iff.mpr ⟨_, expectText_append _ _, ?_⟩
  refine Option.bind_eq_some_iff.mpr ⟨_, digitField_zeroPadded htwo (by omega) _, ?_⟩
  refine Option.bind_eq_some_iff.mpr ⟨(), (Option.guard_eq_some' _).mpr rfl, ?_⟩
  exact Option.bind_eq_some_iff.mpr ⟨(), (Option.guard_eq_some' _).mpr hrange, rfl⟩

/-- A time whose year has at most four digits. -/
def FourDigitYear (t : ℤ) : Prop :=
  0 ≤ (gmtime t).year ∧ (gmtime t).year ≤ 9999

lemma staticServeParseHttpDate_timeFormatHttpDate {t : ℤ} (ht : FourDigitYear t) :
    staticServeParseHttpDate (timeFormatHttpDate 64 t) = some t := by
  have hparse : staticServeParseHttpDate (httpDateText (gmtime t)) = some t := by
    obtain ⟨hmon, hmday, hhour, hmin, hsec, hwday⟩ := gmtime_bounds t
    have hback := timegm_gmtime t
    unfold FourDigitYear at ht
    generalize gmtime t = tm at *
    obtain ⟨year, mon, mday, hour, min, sec, wday⟩ := tm
    dsimp only at *
    lift year to ℕ using ht.1
    lift mday to ℕ using by omega
    lift hour to ℕ using hhour.1
    lift min to ℕ using hmin.1
    lift sec to ℕ using hsec.1
    rw [staticServeParseHttpDate_text hwday hmon (by omega) (by omega) (by omega) (by omega) (by omega)]
    exact congrArg some hback
  have hlen := staticServeParseHttpDate_length hparse
  have hformat : timeFormatHttpDate 64 t = httpDateText (gmtime t) := by
    unfold timeFormatHttpDate
    have hyear := ht
    unfold FourDigitYear at hyear
    dsimp only
    rw [if_neg (by omega), if_pos (by omega)]
  rw [hformat, hparse]

end Lamseryn
