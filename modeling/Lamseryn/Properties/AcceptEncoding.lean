import Lamseryn.Properties.AcceptScanner

/-!
# Accept-Encoding

The grammar of the header, and what `compress_parse_accept_encoding` makes of a value of it.  An
element of the grammar has no comma, so the pieces of the value are its elements
(`splitOnP_codingListText`), and each of them is recorded as its coding and its weight say
(`aeElement_text`); the fold over the list keeps the last decision for each name.
-/

namespace Lamseryn

open ByteText CText Cursor Splitting

/-! ## The grammar -/

/-- The bytes of a token. -/
def isTchar (b : UInt8) : Bool :=
  isDigit b || (65 ≤ b && b ≤ 90) || (97 ≤ b && b ≤ 122) || decide (b ∈ ascii "!#$%&'*+-.^_`|~")

/-- A weight between 0 and 1 with at most three digits behind the point. -/
structure QValue where
  one : Bool
  fraction : Option Bytes
  short : ∀ ds ∈ fraction, ds.length ≤ 3
  digits : ∀ ds ∈ fraction, ∀ d ∈ ds, isDigit d = true
  atMostOne : one = true → ∀ ds ∈ fraction, ∀ d ∈ ds, d = 48

def QValue.text (q : QValue) : Bytes :=
  (if q.one then 49 else 48) :: q.fraction.elim [] fun ds => 46 :: ds

/-- The number a weight stands for. -/
def QValue.value (q : QValue) : ℚ :=
  (if q.one then 1 else 0) + q.fraction.elim 0 fun ds => (decimal ds : ℚ) / 10 ^ ds.length

/-- A weight behind its coding: `;q=`, with blanks around the semicolon. -/
structure Weight where
  before : Bytes
  after : Bytes
  upper : Bool
  qvalue : QValue
  blank_before : ∀ b ∈ before, isOws b = true
  blank_after : ∀ b ∈ after, isOws b = true

def Weight.param (w : Weight) : Bytes :=
  w.after ++ (if w.upper then 81 else 113) :: 61 :: w.qvalue.text

def Weight.text (w : Weight) : Bytes :=
  w.before ++ 59 :: w.param

/-- A coding, possibly with a weight. -/
structure Coding where
  name : Bytes
  weight : Option Weight
  nonempty : name ≠ []
  token : ∀ b ∈ name, isTchar b = true

def Coding.text (c : Coding) : Bytes :=
  c.name ++ c.weight.elim [] Weight.text

/-- The weight is not zero; without one it is 1. -/
def Coding.Accepted (c : Coding) : Prop :=
  ∀ w ∈ c.weight, w.qvalue.value ≠ 0

/-- An element of the list, possibly empty, between blanks. -/
structure CodingElement where
  before : Bytes
  coding : Option Coding
  after : Bytes
  blank_before : ∀ b ∈ before, isOws b = true
  blank_after : ∀ b ∈ after, isOws b = true

def CodingElement.text (e : CodingElement) : Bytes :=
  e.before ++ (e.coding.elim [] Coding.text ++ e.after)

/-- The value of the header. -/
def codingListText (elements : List CodingElement) : Bytes :=
  [44].intercalate (elements.map CodingElement.text)

/-- The last element with a given name, in any case. -/
def lastNamed (elements : List CodingElement) (name : Bytes) : Option Coding :=
  (elements.filterMap CodingElement.coding).reverse.find? fun c => lower c.name = name

/-- A coding is wanted if the last element that names it has a weight, or nothing names it and the
last `*` has one. -/
def Wanted (elements : List CodingElement) (c : ContentCoding) : Prop :=
  (∃ k, lastNamed elements (compressEncName c) = some k ∧ k.Accepted) ∨
    lastNamed elements (compressEncName c) = none ∧
      ∃ k, lastNamed elements (ascii "*") = some k ∧ k.Accepted

/-! ## Weights -/

/-- A weight that the source takes for zero. -/
def QValue.isZero (q : QValue) : Bool :=
  !q.one && q.fraction.elim true fun ds => ds.all (· == 48)

lemma digitVal_eq_zero_iff {d : UInt8} (h : isDigit d = true) : digitVal d = 0 ↔ d = 48 := by
  simp only [isDigit, Bool.and_eq_true, decide_eq_true_eq, UInt8.le_iff_toNat_le] at h
  have hle : 48 ≤ d.toNat := h.1
  rw [digitVal, ← UInt8.toNat_inj]
  show d.toNat - 48 = 0 ↔ d.toNat = 48
  omega

lemma decimalFrom_eq_zero_iff {ds : Bytes} (hds : ∀ d ∈ ds, isDigit d = true) (n : ℕ) :
    decimalFrom n ds = 0 ↔ n = 0 ∧ ∀ d ∈ ds, d = 48 := by
  induction ds generalizing n with
  | nil => simp
  | cons d ds ih =>
    have hd := digitVal_eq_zero_iff (hds d List.mem_cons_self)
    have hstep : n * 10 + digitVal d = 0 ↔ n = 0 ∧ digitVal d = 0 := by omega
    rw [decimalFrom_cons, ih fun x hx => hds x (List.mem_cons_of_mem d hx), List.forall_mem_cons,
      ← hd, hstep, and_assoc]

lemma QValue.isZero_iff (q : QValue) : q.isZero = true ↔ q.value = 0 := by
  obtain ⟨one, fraction, -, digits, -⟩ := q
  unfold QValue.isZero QValue.value
  have hnonneg : (0 : ℚ) ≤ fraction.elim 0 fun ds => (decimal ds : ℚ) / 10 ^ ds.length := by
    cases fraction with
    | none => exact le_rfl
    | some ds => exact div_nonneg (Nat.cast_nonneg _) (pow_nonneg (by norm_num) _)
  cases one with
  | true =>
    refine iff_of_false (by simp) ?_
    dsimp only
    rw [if_pos rfl]
    linarith
  | false =>
    dsimp only
    rw [if_neg Bool.false_ne_true, zero_add, Bool.not_false, Bool.true_and]
    cases fraction with
    | none => simp
    | some ds =>
      have hpow : (10 : ℚ) ^ ds.length ≠ 0 := pow_ne_zero _ (by norm_num)
      have hzero := decimalFrom_eq_zero_iff (digits ds rfl) 0
      simp only [Option.elim_some, List.all_eq_true, beq_iff_eq, div_eq_zero_iff, hpow, or_false,
        Nat.cast_eq_zero]
      rw [decimal, hzero, and_iff_right rfl]

/-- `ae_q_is_zero` on a weight with blanks behind it. -/
lemma aeQIsZero_text (q : QValue) {after : Bytes} (hafter : ∀ b ∈ after, isOws b = true) :
    aeQIsZero (q.text ++ after) = q.isZero := by
  obtain ⟨one, fraction, -, digits, -⟩ := q
  unfold QValue.text QValue.isZero aeQIsZero
  dsimp only
  cases one with
  | true => rfl
  | false =>
    rw [if_neg Bool.false_ne_true, List.cons_append, List.dropWhile_cons_of_neg (by decide)]
    cases fraction with
    | none =>
      have hpoint : ∀ rest : Bytes, after ≠ 46 :: rest := by
        rintro rest rfl
        exact absurd (hafter 46 List.mem_cons_self) (by decide)
      rw [Option.elim_none, List.nil_append]
      split
      · rename_i rest heq
        exact (hpoint rest (List.cons.inj heq).2).elim
      · rfl
      · simp_all
    | some ds =>
      have hstop : Stops isDigit after := by
        intro b hb
        have hblank := hafter b (List.mem_of_mem_head? hb)
        rw [isOws, Bool.or_eq_true, beq_iff_eq, beq_iff_eq] at hblank
        rcases hblank with rfl | rfl
        · rfl
        · rfl
      rw [Option.elim_some, List.cons_append]
      show ((ds ++ after).takeWhile isDigit).all (· == 48) = _
      rw [hstop.takeWhile_append, takeWhile_of_forall (digits ds rfl)]
      rfl

/-! ## Elements -/

lemma isTchar_ne {b : UInt8} (h : isTchar b = true) : isOws b = false ∧ b ≠ 44 ∧ b ≠ 59 := by
  refine ⟨?_, ?_, ?_⟩
  · by_contra hows
    rw [Bool.not_eq_false, isOws, Bool.or_eq_true, beq_iff_eq, beq_iff_eq] at hows
    rcases hows with rfl | rfl
    · exact absurd h (by decide)
    · exact absurd h (by decide)
  · rintro rfl
    exact absurd h (by decide)
  · rintro rfl
    exact absurd h (by decide)

lemma isOws_ne {b : UInt8} (h : isOws b = true) : b ≠ 44 ∧ b ≠ 59 :=
  isAeValueByte_iff.mp (isAeValueByte_of_isOws b h)

lemma QValue.text_ne (q : QValue) : ∀ b ∈ q.text, b ≠ 44 ∧ b ≠ 59 := by
  intro b hb
  rw [QValue.text, List.mem_cons] at hb
  rcases hb with rfl | hb
  · split <;> decide
  · cases hf : q.fraction with
    | none =>
      rw [hf] at hb
      cases hb
    | some ds =>
      rw [hf, Option.elim_some, List.mem_cons] at hb
      rcases hb with rfl | hb
      · decide
      · exact isAeValueByte_iff.mp (isAeValueByte_of_isDigit b (q.digits ds hf b hb))

lemma Weight.param_ne (w : Weight) : ∀ b ∈ w.param, b ≠ 44 ∧ b ≠ 59 := by
  intro b hb
  rw [Weight.param, List.mem_append, List.mem_cons, List.mem_cons] at hb
  rcases hb with hb | rfl | rfl | hb
  · exact isOws_ne (w.blank_after b hb)
  · split <;> decide
  · decide
  · exact w.qvalue.text_ne b hb

lemma aeParam_weight (w : Weight) {after : Bytes} (hafter : ∀ b ∈ after, isOws b = true) :
    aeParam false (w.param ++ after) = w.qvalue.isZero := by
  have hletter : isOws (if w.upper then 81 else 113) = false := by
    split <;> rfl
  have hname : (if w.upper then (81 : UInt8) else 113) ≠ 61 := by
    split <;> decide
  have hq : [if w.upper then (81 : UInt8) else 113] = ascii "q" ∨
      [if w.upper then (81 : UInt8) else 113] = ascii "Q" := by
    split
    · exact .inr (by decide)
    · exact .inl (by decide)
  generalize hx : (if w.upper then (81 : UInt8) else 113) = x at hletter hname hq
  have htake : (x :: 61 :: (w.qvalue.text ++ after)).takeWhile (· ≠ 61) = [x] := by
    simp [hname]
  have hdrop : (x :: 61 :: (w.qvalue.text ++ after)).dropWhile (· ≠ 61) =
      61 :: (w.qvalue.text ++ after) := by
    simp [hname]
  unfold aeParam
  rw [Weight.param, hx, List.append_assoc, List.dropWhile_append_of_pos w.blank_after,
    List.cons_append, List.cons_append, List.dropWhile_cons_of_neg (by simp [hletter])]
  simp only [htake, hdrop, if_pos hq]
  exact aeQIsZero_text w.qvalue hafter

/-- The decision that an element of the grammar brings about. -/
def Coding.rejected (c : Coding) : Bool :=
  c.weight.elim false fun w => w.qvalue.isZero

lemma Coding.rejected_eq_false_iff (c : Coding) : c.rejected = false ↔ c.Accepted := by
  unfold Coding.rejected Coding.Accepted
  cases c.weight with
  | none => simp
  | some w => simp [← QValue.isZero_iff]

/-- What is recorded for an element of the grammar. -/
def AeState.noted (st : AeState) (c : Option Coding) : AeState :=
  c.elim st fun c => st.record (decide (lower c.name = ascii "gzip"))
    (decide (lower c.name = ascii "br")) (decide (lower c.name = ascii "*")) c.rejected

/-- An element of the grammar is recorded as its coding and its weight say. -/
lemma aeElement_text (st : AeState) (e : CodingElement) :
    aeElement st e.text = st.noted e.coding := by
  obtain ⟨before, coding, after, hbefore, hafter⟩ := e
  cases coding with
  | none =>
    have hblank : (before ++ ([] ++ after)).dropWhile isOws = [] ++ [] := by
      rw [List.nil_append, List.dropWhile_append_of_pos hbefore, List.dropWhile_eq_nil_iff.mpr hafter]
      rfl
    rw [CodingElement.text, Option.elim_none, aeElement_eq hblank List.not_mem_nil (by simp)]
    rfl
  | some c =>
    have hname : ∀ b ∈ c.name, isOws b = false := fun b hb => (isTchar_ne (c.token b hb)).1
    have hsemi : (59 : UInt8) ∉ c.name := fun h => (isTchar_ne (c.token 59 h)).2.2 rfl
    have hfree : ∀ s : Bytes, (∀ b ∈ s, isOws b = true) → (59 : UInt8) ∉ s := fun s hs h =>
      (isOws_ne (hs 59 h)).2 rfl
    rw [CodingElement.text, Option.elim_some, AeState.noted, Option.elim_some, Coding.text,
      Coding.rejected]
    cases hweight : c.weight with
    | none =>
      have hcut : (before ++ (c.name ++ [] ++ after)).dropWhile isOws = (c.name ++ after) ++ [] := by
        rw [List.append_nil, List.append_nil, dropWhile_append hbefore c.nonempty hname]
      rw [Option.elim_none, aeElement_eq hcut _ (by simp), rdropWhile_append hname hafter]
      · rfl
      · rw [List.mem_append, not_or]
        exact ⟨hsemi, hfree after hafter⟩
    | some w =>
      have hcut : (before ++ (c.name ++ w.text ++ after)).dropWhile isOws =
          (c.name ++ w.before) ++ 59 :: (w.param ++ after) := by
        rw [List.append_assoc, dropWhile_append hbefore c.nonempty hname, Weight.text]
        simp
      have hparam : (59 : UInt8) ∉ w.param ++ after := by
        rw [List.mem_append, not_or]
        exact ⟨fun h => (w.param_ne 59 h).2 rfl, hfree after hafter⟩
      rw [Option.elim_some, aeElement_eq hcut _ (by simp), rdropWhile_append hname w.blank_before]
      · rw [aeParamsOf, splitOnP_beq_of_notMem hparam, List.foldl_cons, List.foldl_nil,
          aeParam_weight w hafter]
        rfl
      · rw [List.mem_append, not_or]
        exact ⟨hsemi, hfree w.before w.blank_before⟩

/-! ## The whole list -/

lemma CodingElement.comma_notMem (e : CodingElement) : (44 : UInt8) ∉ e.text := by
  have hblank : ∀ s : Bytes, (∀ b ∈ s, isOws b = true) → (44 : UInt8) ∉ s := fun s hs h =>
    (isOws_ne (hs 44 h)).1 rfl
  rw [CodingElement.text, List.mem_append, List.mem_append, not_or, not_or]
  refine ⟨hblank _ e.blank_before, ?_, hblank _ e.blank_after⟩
  cases e.coding with
  | none => exact List.not_mem_nil
  | some c =>
    rw [Option.elim_some, Coding.text, List.mem_append, not_or]
    refine ⟨fun h => (isTchar_ne (c.token 44 h)).2.1 rfl, ?_⟩
    cases c.weight with
    | none => exact List.not_mem_nil
    | some w =>
      rw [Option.elim_some, Weight.text, List.mem_append, List.mem_cons, not_or, not_or]
      exact ⟨hblank _ w.blank_before, by decide, fun h => (w.param_ne 44 h).1 rfl⟩

lemma splitOnP_codingListText {elements : List CodingElement} (hne : elements ≠ []) :
    (codingListText elements).splitOnP (· == 44) = elements.map CodingElement.text := by
  rw [codingListText, splitOnP_intercalate (by simpa using hne), List.flatMap_map]
  simp only [splitOnP_beq_of_notMem (CodingElement.comma_notMem _)]
  exact List.map_eq_flatMap.symm

lemma lastNamed_concat_none {e : CodingElement} (he : e.coding = none)
    (elements : List CodingElement) (name : Bytes) :
    lastNamed (elements ++ [e]) name = lastNamed elements name := by
  simp [lastNamed, he]

lemma lastNamed_concat_some {e : CodingElement} {c : Coding} (he : e.coding = some c)
    (elements : List CodingElement) (name : Bytes) :
    lastNamed (elements ++ [e]) name =
      if lower c.name = name then some c else lastNamed elements name := by
  unfold lastNamed
  rw [List.filterMap_append, List.filterMap_cons_some he, List.filterMap_nil, List.reverse_append,
    List.reverse_singleton, List.singleton_append, List.find?_cons]
  by_cases hname : lower c.name = name
  · simp [hname]
  · simp [hname]

/-- The decisions recorded for a list are the ones of the last elements of each name. -/
lemma noted_elements (elements : List CodingElement) :
    elements.foldl (fun st e => AeState.noted st e.coding) {} =
      { gzip := (lastNamed elements (ascii "gzip")).map fun c => !c.rejected
        brotli := (lastNamed elements (ascii "br")).map fun c => !c.rejected
        wildcard := (lastNamed elements (ascii "*")).map fun c => !c.rejected } := by
  induction elements using List.reverseRecOn with
  | nil => rfl
  | append_singleton elements e ih =>
    rw [List.foldl_append, ih, List.foldl_cons, List.foldl_nil]
    have hgb : ascii "gzip" ≠ ascii "br" := by decide
    have hgw : ascii "gzip" ≠ ascii "*" := by decide
    have hbw : ascii "br" ≠ ascii "*" := by decide
    cases he : e.coding with
    | none => simp only [lastNamed_concat_none he, AeState.noted, Option.elim_none]
    | some c =>
      simp only [lastNamed_concat_some he, AeState.noted, Option.elim_some, AeState.record,
        decide_eq_true_eq]
      by_cases hgzip : lower c.name = ascii "gzip"
      · simp [hgzip, hgb, hgw]
      · by_cases hbr : lower c.name = ascii "br"
        · simp [hbr, hgb.symm, hbw]
        · by_cases hstar : lower c.name = ascii "*"
          · simp [hstar, hgw.symm, hbw.symm]
          · simp [hgzip, hbr, hstar]

lemma compressParse_codingList (elements : List CodingElement) (c : ContentCoding) :
    (compressParseAcceptEncoding (codingListText elements)).has c = true ↔ Wanted elements c := by
  have hfold : ((codingListText elements).splitOnP (· == 44)).foldl aeElement {} =
      elements.foldl (fun st e => AeState.noted st e.coding) {} := by
    rcases eq_or_ne elements [] with rfl | hne
    · rfl
    · rw [splitOnP_codingListText hne, List.foldl_map]
      simp only [aeElement_text]
  have hdecision : ∀ o w : Option Coding,
      (o.map fun c => !c.rejected).getD ((w.map fun c => !c.rejected).getD false) = true ↔
        (∃ k, o = some k ∧ k.Accepted) ∨ o = none ∧ ∃ k, w = some k ∧ k.Accepted := by
    intro o w
    cases o with
    | some k => simp [← Coding.rejected_eq_false_iff]
    | none =>
      cases w with
      | some k => simp [← Coding.rejected_eq_false_iff]
      | none => simp
  unfold compressParseAcceptEncoding
  rw [hfold, noted_elements]
  cases c with
  | gzip => exact hdecision _ _
  | brotli => exact hdecision _ _

/-- **Accept-Encoding.**  For every value of the grammar the scanner includes a coding exactly if it
is wanted; and on every text at all it ends, within one round for each byte, with all its reads inside
the text. -/
theorem acceptEncoding_evaluated :
    (∀ (elements : List CodingElement) (fuel : ℕ), (codingListText elements).length < fuel →
      ∃ mask, compressScanAcceptEncoding fuel (codingListText elements) = some mask ∧
        ∀ c, mask.has c = true ↔ Wanted elements c) ∧
      ∀ (v : Bytes) (fuel : ℕ), v.length < fuel → (compressScanAcceptEncoding fuel v).isSome = true := by
  refine ⟨fun elements fuel hfuel => ?_, fun v fuel hfuel => ?_⟩
  · exact ⟨_, compressScanAcceptEncoding_eq hfuel, compressParse_codingList elements⟩
  · rw [compressScanAcceptEncoding_eq hfuel]
    rfl

lemma no_blank : ∀ b ∈ ([] : Bytes), isOws b = true :=
  List.forall_mem_nil _

/-- The value `gzip;q=0,*`. -/
def gzipRefused : List CodingElement :=
  [⟨[], some ⟨ascii "gzip", some ⟨[], [], false, ⟨false, none, nofun, nofun, nofun⟩,
      no_blank, no_blank⟩, by decide +kernel, by decide +kernel⟩, [],
      no_blank, no_blank⟩,
    ⟨[], some ⟨ascii "*", none, by decide +kernel, by decide +kernel⟩, [], no_blank,
      no_blank⟩]

theorem acceptEncoding_evaluated_refused :
    compressScanAcceptEncoding 11 (codingListText gzipRefused) = some ⟨false, true⟩ ∧
      ∃ mask, compressScanAcceptEncoding 11 (codingListText gzipRefused) = some mask ∧
        ∀ c, mask.has c = true ↔ Wanted gzipRefused c :=
  ⟨by decide, acceptEncoding_evaluated.1 gzipRefused 11 (by decide)⟩

end Lamseryn
