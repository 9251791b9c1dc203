import Lamseryn.Model.HttpRange

/-!
# The grammar of a range

Which values of a `Range` header `http_range_parse` takes, and what `http_range_resolve` makes of
them.  The grammar below names the three forms `A-`, `A-B` and `-N` by a `RangeForm` of its own, so
that the interval of a form is stated without the sentinel that marks an open end in
`struct byte_range`: `UINT64_MAX` is also a bound a client may send, and `RangeForm.resolve_eq` is
where the two are seen to give one interval.
-/

namespace Lamseryn

open ByteText CText

/-! ## The forms -/

/-- The three forms of a single range. -/
inductive RangeForm where
  | fromByte (a : ℕ)
  | between (a b : ℕ)
  | final (n : ℕ)
  deriving DecidableEq, Repr

/-- The text of a number: at least one digit, and a value of 64 bits. -/
structure U64Text (ds : Bytes) (n : ℕ) : Prop where
  nonempty : ds ≠ []
  digits : ∀ d ∈ ds, isDigit d = true
  value : decimal ds = n
  fits : n ≤ uint64Max

/-- The texts behind the unit and the blanks. -/
inductive RangeBody : Bytes → RangeForm → Prop where
  | fromByte {ds : Bytes} {a : ℕ} : U64Text ds a → RangeBody (ds ++ [45]) (.fromByte a)
  | between {ds es : Bytes} {a b : ℕ} :
      U64Text ds a → U64Text es b → a ≤ b → RangeBody (ds ++ 45 :: es) (.between a b)
  | final {ds : Bytes} {n : ℕ} : U64Text ds n → 0 < n → RangeBody (45 :: ds) (.final n)

/-- The whole value: the unit in any case, `=`, blanks and a range. -/
def RangeText (v : Bytes) (form : RangeForm) : Prop :=
  ∃ unit blanks body, v = unit ++ 61 :: (blanks ++ body) ∧ lower unit = ascii "bytes" ∧
    (∀ b ∈ blanks, isOws b = true) ∧ RangeBody body form

/-- The first and the last byte a form selects from `size` bytes. -/
def RangeForm.interval (size : ℕ) : RangeForm → Option (ℕ × ℕ)
  | .fromByte a => if a < size then some (a, size - 1) else none
  | .between a b => if a < size then some (a, min b (size - 1)) else none
  | .final n => if 0 < size then some (size - min n size, size - 1) else none

/-- The `struct byte_range` of a form. -/
def RangeForm.byteRange : RangeForm → ByteRange
  | .fromByte a => ⟨false, a, uint64Max⟩
  | .between a b => ⟨false, a, b⟩
  | .final n => ⟨true, n, 0⟩

/-! ## Numbers -/

/-- The loop of `parse_u64` over a run of digits: the test before each step is the test on the
final value. -/
lemma parseU64From_append {ds rest : Bytes} (hds : ∀ d ∈ ds, isDigit d = true)
    (hrest : rest.head?.any isDigit = false) {v : ℕ} (hv : v ≤ uint64Max) :
    parseU64From v (ds ++ rest) =
      if decimalFrom v ds ≤ uint64Max then some (decimalFrom v ds, rest) else none := by
  induction ds generalizing v with
  | nil =>
    rw [List.nil_append, decimalFrom_nil, if_pos hv]
    cases rest with
    | nil => rfl
    | cons d rest => simp_all [parseU64From]
  | cons d ds ih =>
    have hd : isDigit d = true := hds d List.mem_cons_self
    have hnine : digitVal d ≤ 9 := digitVal_le_nine hd
    have htail : ∀ x ∈ ds, isDigit x = true := fun x hx => hds x (List.mem_cons_of_mem d hx)
    have hguard : (uint64Max / 10 < v ∨ v = uint64Max / 10 ∧ uint64Max % 10 < digitVal d) ↔
        uint64Max < v * 10 + digitVal d := by
      simp only [uint64Max]
      omega
    rw [List.cons_append, parseU64From, if_neg (by simp [hd]), decimalFrom_cons]
    by_cases hover : uint64Max < v * 10 + digitVal d
    · rw [if_pos (hguard.mpr hover), if_neg]
      exact not_le.mpr (lt_of_lt_of_le hover (le_decimalFrom _ ds))
    · rw [if_neg (fun h => hover (hguard.mp h)), ih htail (not_lt.mp hover)]

/-- `parse_u64` reads the longest run of digits, if it is a number of 64 bits. -/
lemma parseU64_eq_some_iff {s rest : Bytes} {n : ℕ} :
    parseU64 s = some (n, rest) ↔
      ∃ ds, s = ds ++ rest ∧ U64Text ds n ∧ rest.head?.any isDigit = false := by
  have hzero : 0 ≤ uint64Max := Nat.zero_le _
  constructor
  · intro h
    unfold parseU64 at h
    split at h
    case isFalse => cases h
    case isTrue hhead =>
      have hall : ∀ d ∈ s.takeWhile isDigit, isDigit d = true := fun d hd =>
        List.mem_takeWhile_imp hd
      have hstop : (s.dropWhile isDigit).head?.any isDigit = false := by
        have := List.head?_dropWhile_not isDigit s
        cases hd : (s.dropWhile isDigit).head? with
        | none => rfl
        | some d => simpa [hd] using this
      rw [← List.takeWhile_append_dropWhile (p := isDigit) (l := s),
        parseU64From_append hall hstop hzero] at h
      split at h
      case isFalse => cases h
      case isTrue hfits =>
        obtain ⟨rfl, rfl⟩ := Prod.mk.inj (Option.some.inj h)
        refine ⟨s.takeWhile isDigit, (List.takeWhile_append_dropWhile).symm,
          ⟨?_, hall, rfl, hfits⟩, hstop⟩
        cases s with
        | nil => simp at hhead
        | cons d s => simp_all
  · rintro ⟨ds, rfl, hds, hrest⟩
    obtain ⟨d, ds, rfl⟩ := List.exists_cons_of_ne_nil hds.nonempty
    have hd : isDigit d = true := hds.digits d List.mem_cons_self
    have hvalue : decimalFrom 0 (d :: ds) = n := hds.value
    rw [parseU64, if_pos (by simp [hd]), parseU64From_append hds.digits hrest hzero, hvalue,
      if_pos hds.fits]

lemma isDigit_hyphen : isDigit 45 = false := by
  decide

lemma U64Text.parse_eq {ds : Bytes} {n : ℕ} (h : U64Text ds n) : parseU64 ds = some (n, []) :=
  parseU64_eq_some_iff.mpr ⟨ds, (List.append_nil ds).symm, h, rfl⟩

lemma U64Text.parse_hyphen {ds : Bytes} {n : ℕ} (h : U64Text ds n) (rest : Bytes) :
    parseU64 (ds ++ 45 :: rest) = some (n, 45 :: rest) :=
  parseU64_eq_some_iff.mpr ⟨ds, rfl, h, isDigit_hyphen⟩

lemma U64Text.of_parse {s : Bytes} {n : ℕ} (h : parseU64 s = some (n, [])) : U64Text s n := by
  obtain ⟨ds, rfl, hds, -⟩ := parseU64_eq_some_iff.mp h
  rwa [List.append_nil]

/-! ## The range behind the unit -/

lemma rangeSpecParse_digit {d : UInt8} (hd : isDigit d = true) (s : Bytes) :
    rangeSpecParse (d :: s) =
      match parseU64 (d :: s) with
      | some (first, [45]) => some ⟨false, first, uint64Max⟩
      | some (first, 45 :: rest) =>
        match parseU64 rest with
        | some (last, []) => if last < first then none else some ⟨false, first, last⟩
        | _ => none
      | _ => none := by
  have hne : d ≠ 45 := by
    rintro rfl
    exact absurd hd (by simp [isDigit_hyphen])
  unfold rangeSpecParse
  split
  · contradiction
  · simp_all
  · rfl

lemma RangeBody.parse {body : Bytes} {form : RangeForm} (h : RangeBody body form) :
    rangeSpecParse body = some form.byteRange := by
  cases h with
  | @fromByte ds a hds =>
    obtain ⟨d, ds, rfl⟩ := List.exists_cons_of_ne_nil hds.nonempty
    rw [List.cons_append, rangeSpecParse_digit (hds.digits d List.mem_cons_self),
      ← List.cons_append, hds.parse_hyphen]
    rfl
  | @between ds es a b hds hes hle =>
    obtain ⟨d, ds, rfl⟩ := List.exists_cons_of_ne_nil hds.nonempty
    obtain ⟨e, es, rfl⟩ := List.exists_cons_of_ne_nil hes.nonempty
    rw [List.cons_append, rangeSpecParse_digit (hds.digits d List.mem_cons_self),
      ← List.cons_append, hds.parse_hyphen]
    simp only [hes.parse_eq, if_neg (not_lt.mpr hle)]
    rfl
  | @final ds n hds hpos =>
    simp only [rangeSpecParse, hds.parse_eq, if_neg hpos.ne']
    rfl

lemma RangeBody.of_parse {body : Bytes} {br : ByteRange} (h : rangeSpecParse body = some br) :
    ∃ form, RangeBody body form := by
  unfold rangeSpecParse at h
  split at h
  · cases h
  · split at h
    case h_2 => cases h
    case h_1 n hn =>
      split at h
      case isTrue => cases h
      case isFalse hpos =>
        exact ⟨.final n, .final (.of_parse hn) (Nat.pos_of_ne_zero hpos)⟩
  · split at h
    case h_3 => cases h
    case h_1 first hfirst =>
      obtain ⟨ds, rfl, hds, -⟩ := parseU64_eq_some_iff.mp hfirst
      exact ⟨.fromByte first, .fromByte hds⟩
    case h_2 first rest _ hfirst =>
      obtain ⟨ds, rfl, hds, -⟩ := parseU64_eq_some_iff.mp hfirst
      split at h
      case h_2 => cases h
      case h_1 last hlast =>
        split at h
        case isTrue => cases h
        case isFalse horder =>
          exact ⟨.between first last, .between hds (.of_parse hlast) (not_lt.mp horder)⟩

lemma RangeBody.bytes {body : Bytes} {form : RangeForm} (h : RangeBody body form) :
    body ≠ [] ∧ ∀ b ∈ body, isDigit b = true ∨ b = 45 := by
  cases h with
  | fromByte hds =>
    refine ⟨by simp, fun b hb => ?_⟩
    rcases List.mem_append.mp hb with hb | hb
    · exact .inl (hds.digits b hb)
    · exact .inr (List.mem_singleton.mp hb)
  | between hds hes =>
    refine ⟨by simp, fun b hb => ?_⟩
    rcases List.mem_append.mp hb with hb | hb
    · exact .inl (hds.digits b hb)
    · rcases List.mem_cons.mp hb with rfl | hb
      · exact .inr rfl
      · exact .inl (hes.digits b hb)
  | final hds =>
    refine ⟨by simp, fun b hb => ?_⟩
    rcases List.mem_cons.mp hb with rfl | hb
    · exact .inr rfl
    · exact .inl (hds.digits b hb)

lemma not_isOws_of_range {b : UInt8} (h : isDigit b = true ∨ b = 45) : isOws b = false := by
  rcases h with h | rfl
  · simp only [isDigit, Bool.and_eq_true, decide_eq_true_eq, UInt8.le_iff_toNat_le] at h
    have h48 : 48 ≤ b.toNat := h.1
    simp only [isOws, Bool.or_eq_false_iff, beq_eq_false_iff_ne]
    constructor <;> rintro rfl <;> simp at h48
  · rfl

lemma RangeBody.comma_notMem {body : Bytes} {form : RangeForm} (h : RangeBody body form) :
    (44 : UInt8) ∉ body := by
  intro hmem
  rcases h.bytes.2 44 hmem with hdigit | heq
  · exact absurd hdigit (by decide)
  · exact absurd heq (by decide)

/-! ## The whole value -/

lemma RangeText.parse {v : Bytes} {form : RangeForm} (h : RangeText v form) :
    httpRangeParse v = some form.byteRange := by
  obtain ⟨unit, blanks, body, rfl, hunit, hblanks, hbody⟩ := h
  have hfive : unit.length = 5 := by
    rw [← lower_length, hunit]
    rfl
  have htake : (unit ++ 61 :: (blanks ++ body)).take 5 = unit := by
    rw [← hfive, List.take_left]
  have hdrop : (unit ++ 61 :: (blanks ++ body)).drop 5 = 61 :: (blanks ++ body) := by
    rw [← hfive, List.drop_left]
  have hspec : (unit ++ 61 :: (blanks ++ body)).drop 6 = blanks ++ body := by
    rw [← List.drop_drop (i := 1) (j := 5), hdrop, List.drop_one, List.tail_cons]
  have hskip : (blanks ++ body).dropWhile isOws = body := by
    rw [List.dropWhile_append_of_pos hblanks]
    obtain ⟨b, rest, rfl⟩ := List.exists_cons_of_ne_nil hbody.bytes.1
    have hb : isOws b = false := not_isOws_of_range (hbody.bytes.2 b List.mem_cons_self)
    rw [List.dropWhile_cons_of_neg (by simp [hb])]
  unfold httpRangeParse
  rw [if_neg (by simp [hfive]; omega), htake, hdrop, if_neg (by simp [hunit])]
  simp only [hspec, hskip, if_neg hbody.comma_notMem]
  exact hbody.parse

lemma RangeText.of_parse {v : Bytes} {br : ByteRange} (h : httpRangeParse v = some br) :
    ∃ form, RangeText v form := by
  unfold httpRangeParse at h
  split at h
  case isTrue => cases h
  case isFalse hlen =>
    split at h
    case isTrue => cases h
    case isFalse hunit =>
      dsimp only at h
      split at h
      case isTrue => cases h
      case isFalse =>
        obtain ⟨form, hbody⟩ := RangeBody.of_parse h
        rw [not_or, not_not, not_not] at hunit
        obtain ⟨rest, hrest⟩ := List.head?_eq_some_iff.mp hunit.2
        have hspec : v.drop 6 = rest := by
          rw [← List.drop_drop (i := 1) (j := 5), hrest, List.drop_one, List.tail_cons]
        refine ⟨form, v.take 5, (v.drop 6).takeWhile isOws, (v.drop 6).dropWhile isOws, ?_,
          hunit.1, fun b hb => List.mem_takeWhile_imp hb, hbody⟩
        rw [List.takeWhile_append_dropWhile, hspec, ← hrest, List.take_append_drop]

/-! ## The interval -/

/-- The resolved range is the interval of the form; the clamp of a last byte `UINT64_MAX` and the
one of an open end agree, since no file has more bytes. -/
lemma RangeForm.resolve_eq (form : RangeForm) {size : ℕ} (hsize : size ≤ uint64Max) :
    (httpRangeResolve form.byteRange size).map (fun rr => (rr.start, rr.stop)) =
      form.interval size := by
  rcases Nat.eq_zero_or_pos size with rfl | hpos
  · cases form <;> rfl
  cases form with
  | fromByte a =>
    rw [RangeForm.byteRange, RangeForm.interval, httpRangeResolve, if_neg hpos.ne',
      if_neg Bool.false_ne_true]
    by_cases ha : a < size
    · rw [if_neg (not_le.mpr ha), if_pos ha, Option.map_some]
      simp only [true_or, if_true]
    · rw [if_pos (not_lt.mp ha), if_neg ha, Option.map_none]
  | between a b =>
    rw [RangeForm.byteRange, RangeForm.interval, httpRangeResolve, if_neg hpos.ne',
      if_neg Bool.false_ne_true]
    by_cases ha : a < size
    · rw [if_neg (not_le.mpr ha), if_pos ha, Option.map_some]
      have hstop : (if b = uint64Max ∨ size ≤ b then size - 1 else b) = min b (size - 1) := by
        split <;> omega
      rw [hstop]
    · rw [if_pos (not_lt.mp ha), if_neg ha, Option.map_none]
  | final n =>
    rw [RangeForm.byteRange, RangeForm.interval, httpRangeResolve, if_neg hpos.ne', if_pos rfl,
      if_pos hpos]
    by_cases hn : size ≤ n
    · rw [if_pos hn, Option.map_some, min_eq_right hn, Nat.sub_self]
    · rw [if_neg hn, Option.map_some, min_eq_left (not_le.mp hn).le]

/-- **Ranges.**  A value is valid exactly when it is a text of the grammar, and then resolves, for
every file size of 64 bits, to the interval of its form; the interval lies in the file, and its
length, computed in 64 bits, is the number of its bytes. -/
theorem rangeGrammar (v : Bytes) (size : ℕ) (hsize : size ≤ uint64Max) :
    ((httpRangeParse v).isSome = true ↔ ∃ form, RangeText v form) ∧
      ∀ form, RangeText v form → ∃ br, httpRangeParse v = some br ∧
        (httpRangeResolve br size).map (fun rr => (rr.start, rr.stop)) = form.interval size ∧
        ∀ rr, httpRangeResolve br size = some rr →
          rr.start ≤ rr.stop ∧ rr.stop < size ∧ rr.length = rr.stop - rr.start + 1 ∧
            rr.length ≤ uint64Max := by
  refine ⟨⟨fun h => ?_, fun ⟨form, hform⟩ => ?_⟩, fun form hform => ?_⟩
  · obtain ⟨br, hbr⟩ := Option.isSome_iff_exists.mp h
    exact RangeText.of_parse hbr
  · rw [hform.parse]
    rfl
  · refine ⟨form.byteRange, hform.parse, form.resolve_eq hsize, fun rr hrr => ?_⟩
    obtain ⟨hle, hlt, hlen⟩ := httpRangeResolve_some (httpRangeParse_valid hform.parse) hrr
    refine ⟨hle, hlt, hlen, ?_⟩
    omega

/-- The largest last byte there is, on a file of ten bytes. -/
theorem rangeGrammar_max :
    RangeText (ascii "Bytes= 4-18446744073709551615") (.between 4 uint64Max) ∧
      ∃ br, httpRangeParse (ascii "Bytes= 4-18446744073709551615") = some br ∧
        (httpRangeResolve br 10).map (fun rr => (rr.start, rr.stop)) = some (4, 9) := by
  have htext : RangeText (ascii "Bytes= 4-18446744073709551615") (.between 4 uint64Max) := by
    refine ⟨ascii "Bytes", ascii " ", ascii "4-18446744073709551615", by decide,
      by decide +kernel, by decide +kernel, ?_⟩
    exact @RangeBody.between (ascii "4") (ascii "18446744073709551615") 4 uint64Max
      ⟨by decide +kernel, by decide +kernel, by decide +kernel, by decide +kernel⟩
      ⟨by decide +kernel, by decide +kernel, by decide +kernel, by decide +kernel⟩
      (by decide)
  obtain ⟨br, hbr, hres, -⟩ := (rangeGrammar _ 10 (by decide)).2 _ htext
  exact ⟨htext, br, hbr, hres⟩

end Lamseryn
