import Lamseryn.Framework.Splitting
import Lamseryn.Model.AcceptScan

/-!
# The scanner of Accept-Encoding

The scanner of `compress_parse_accept_encoding` against the elements of the value.

A position of the scanner is described by what is left of the value (`Cursor.At`): the rest of the
segment it is in, followed by a text that begins with the delimiter of the segment.  Each loop of the
source has one lemma of this form; none of them asks anything of the bytes of the value.
-/

namespace Lamseryn

open ByteText CText Cursor Splitting

/-! ## Segments of the value -/

variable {v s t : Bytes} {p : ℕ}

lemma isAeValueByte_iff {b : UInt8} : isAeValueByte b = true ↔ b ≠ 44 ∧ b ≠ 59 := by
  simp [isAeValueByte]

lemma isAeValueByte_of_isOws (b : UInt8) (h : isOws b = true) : isAeValueByte b = true := by
  rw [isOws, Bool.or_eq_true, beq_iff_eq, beq_iff_eq] at h
  rcases h with rfl | rfl
  · rfl
  · rfl

lemma isAeValueByte_of_isDigit (b : UInt8) (h : isDigit b = true) : isAeValueByte b = true := by
  rw [isAeValueByte_iff]
  constructor
  · rintro rfl
    exact absurd h (by decide)
  · rintro rfl
    exact absurd h (by decide)

lemma takeWhile_of_forall {c : UInt8 → Bool} (hs : ∀ b ∈ s, c b = true) : s.takeWhile c = s :=
  List.takeWhile_eq_self_iff.mpr hs

lemma aeSkipValue_eq (h : At v p (s ++ t)) (hs : ∀ b ∈ s, isAeValueByte b = true)
    (ht : Stops isAeValueByte t) : aeSkipValue v p = some (p + s.length) := by
  rw [aeSkipValue, (h.skip_segment ht).1, takeWhile_of_forall hs]

/-! ## The weight -/

/-- The loop over the digits behind the point. -/
lemma aeFractionIsZero_eq {fuel : ℕ} (h : At v p (s ++ t)) (ht : Stops isDigit t)
    (hfuel : s.length < fuel) :
    ∃ k ≤ s.length, aeFractionIsZero v fuel p =
      some ((s.takeWhile isDigit).all (· == 48), p + k) := by
  induction fuel generalizing p s with
  | zero => omega
  | succ fuel ih =>
    cases s with
    | nil =>
      refine ⟨0, le_rfl, ?_⟩
      rw [List.nil_append] at h
      rw [aeFractionIsZero]
      cases t with
      | nil =>
        rw [if_neg h.not_lt]
        rfl
      | cons b t =>
        have hb : isDigit b = false := ht b rfl
        rw [if_pos h.lt, h.read, Option.bind_some, if_neg (by simp [hb])]
        rfl
    | cons b s =>
      rw [List.cons_append] at h
      rw [List.length_cons] at hfuel
      rw [aeFractionIsZero, if_pos h.lt, h.read, Option.bind_some]
      by_cases hb : isDigit b = true
      · rw [if_pos hb, List.takeWhile_cons_of_pos hb, List.all_cons]
        by_cases hzero : b = 48
        · obtain ⟨k, hk, heq⟩ := ih h.next (by omega)
          refine ⟨k + 1, by simpa using hk, ?_⟩
          rw [if_neg (not_not.mpr hzero), heq, hzero, beq_self_eq_true, Bool.true_and]
          congr 2
          omega
        · refine ⟨0, Nat.zero_le _, ?_⟩
          rw [if_pos hzero, beq_eq_false_iff_ne.mpr hzero, Bool.false_and, Nat.add_zero]
      · refine ⟨0, Nat.zero_le _, ?_⟩
        rw [if_neg hb, List.takeWhile_cons_of_neg hb, List.all_nil, Nat.add_zero]

lemma aeSkipValue_drop (h : At v p (s ++ t)) (hs : ∀ b ∈ s, isAeValueByte b = true)
    (ht : Stops isAeValueByte t) {k : ℕ} (hk : k ≤ s.length) :
    aeSkipValue v (p + k) = some (p + s.length) := by
  have hcut : s ++ t = s.take k ++ (s.drop k ++ t) := by
    rw [← List.append_assoc, List.take_append_drop]
  rw [hcut] at h
  have hat := h.append
  rw [List.length_take, min_eq_left hk] at hat
  rw [aeSkipValue_eq hat (fun b hb => hs b (List.mem_of_mem_drop hb)) ht, List.length_drop]
  congr 1
  omega

/-- `ae_q_is_zero` reads the value up to its delimiter. -/
lemma aeQIsZeroScan_eq (h : At v p (s ++ t)) (hs : ∀ b ∈ s, isAeValueByte b = true)
    (ht : Stops isAeValueByte t) : aeQIsZeroScan v p = some (aeQIsZero s, p + s.length) := by
  obtain ⟨hskip, hat⟩ := h.skip_segment (ht.weaken isAeValueByte_of_isOws)
  have hlen : (s.takeWhile isOws).length + (s.dropWhile isOws).length = s.length := by
    rw [← List.length_append, List.takeWhile_append_dropWhile]
  have hvalue : ∀ b ∈ s.dropWhile isOws, isAeValueByte b = true := fun b hb =>
    hs b ((List.dropWhile_sublist isOws).subset hb)
  rw [aeQIsZeroScan, aeSkipWs, hskip, Option.bind_some, aeQIsZero, ← hlen, ← Nat.add_assoc]
  generalize p + (s.takeWhile isOws).length = q at hat
  generalize s.dropWhile isOws = w at hat hvalue
  have hend := fun k (hk : k ≤ w.length) => aeSkipValue_drop hat hvalue ht hk
  match w with
  | [] =>
    rw [List.nil_append] at hat
    cases t with
    | nil =>
      rw [if_neg hat.not_lt]
      rfl
    | cons b t =>
      have hb : b ≠ 48 := by
        rintro rfl
        exact absurd (ht 48 rfl) (by decide)
      rw [if_pos hat.lt, hat.read, Option.bind_some, if_pos hb, ← Nat.add_zero q, hend 0 le_rfl]
      rfl
  | [b] =>
    rw [List.singleton_append] at hat
    rw [if_pos hat.lt, hat.read, Option.bind_some]
    by_cases hb : b = 48
    · subst hb
      rw [if_neg (not_not.mpr rfl)]
      cases t with
      | nil =>
        rw [if_neg hat.next.not_lt]
        rfl
      | cons d t =>
        have hd : d ≠ 46 := by
          rintro rfl
          exact absurd (ht 46 rfl) (by decide)
        rw [if_pos hat.next.lt, hat.next.read, Option.bind_some, if_neg hd, hend 1 le_rfl]
        rfl
    · rw [if_pos hb, ← Nat.add_zero q, hend 0 (Nat.zero_le _)]
      split
      · simp_all
      · simp_all
      · rfl
  | b :: d :: w =>
    rw [List.cons_append, List.cons_append] at hat
    rw [if_pos hat.lt, hat.read, Option.bind_some]
    by_cases hb : b = 48
    · subst hb
      rw [if_neg (not_not.mpr rfl), if_pos hat.next.lt, hat.next.read, Option.bind_some]
      by_cases hd : d = 46
      · subst hd
        have hwlen : w.length < v.length + 1 := by
          have := hat.lt_fuel
          simp only [List.length_cons, List.length_append] at this
          omega
        obtain ⟨k, hk, hfrac⟩ := aeFractionIsZero_eq hat.next.next
          (ht.weaken isAeValueByte_of_isDigit) hwlen
        rw [if_pos rfl, hfrac, Option.bind_some]
        dsimp only
        rw [Nat.add_assoc q 2 k, hend (2 + k) (by simp only [List.length_cons]; omega)]
        rfl
      · rw [if_neg hd, hend 1 (by simp)]
        split
        · simp_all
        · rfl
        · simp_all
    · rw [if_pos hb, ← Nat.add_zero q, hend 0 (Nat.zero_le _)]
      split
      · simp_all
      · simp_all
      · rfl

/-! ## Parameters -/

lemma isAeNameByte_iff {b : UInt8} (hb : isAeValueByte b = true) :
    (b != 61 && isAeValueByte b) = decide (b ≠ 61) := by
  rw [hb, Bool.and_true]
  by_cases h : b = 61
  · simp [h]
  · simp [h]

lemma takeWhile_name (hs : ∀ b ∈ s, isAeValueByte b = true) :
    s.takeWhile (fun b => b != 61 && isAeValueByte b) = s.takeWhile (· ≠ 61) ∧
      s.dropWhile (fun b => b != 61 && isAeValueByte b) = s.dropWhile (· ≠ 61) := by
  induction s with
  | nil => exact ⟨rfl, rfl⟩
  | cons b s ih =>
    obtain ⟨htake, hdrop⟩ := ih fun x hx => hs x (List.mem_cons_of_mem b hx)
    have hb := isAeNameByte_iff (hs b List.mem_cons_self)
    simp only [List.takeWhile_cons, List.dropWhile_cons, hb, htake, hdrop, and_self]

/-- Is a name of a parameter, read by position, the name `q`? -/
lemma isQ_eq {name rest : Bytes} (h : At v p (name ++ rest)) :
    (if p + name.length - p = 1 then v[p]?.map fun b => b == 113 || b == 81 else some false) =
      some (decide (name = ascii "q" ∨ name = ascii "Q")) := by
  have hq : ascii "q" = [113] := by decide
  have hQ : ascii "Q" = [81] := by decide
  rw [Nat.add_sub_cancel_left, hq, hQ]
  match name with
  | [] => rfl
  | [b] =>
    rw [List.singleton_append] at h
    rw [if_pos List.length_singleton, h.read, Option.map_some]
    rw [Option.some.injEq, Bool.eq_iff_iff]
    simp
  | b :: c :: name =>
    rw [if_neg (by simp)]
    simp

/-- One parameter, from behind its semicolon to its delimiter. -/
lemma aeParam_eq (h : At v p (s ++ t)) (hs : ∀ b ∈ s, isAeValueByte b = true)
    (ht : Stops isAeValueByte t) (qZero : Bool) :
    ((aeSkipWs v p).bind fun param =>
      (skipWhile (fun b => b != 61 && isAeValueByte b) v (v.length + 1) param).bind fun p =>
        aeParamValue v qZero param p) = some (aeParam qZero s, p + s.length) := by
  obtain ⟨hskip, hat⟩ := h.skip_segment (ht.weaken isAeValueByte_of_isOws)
  have hlen : (s.takeWhile isOws).length + (s.dropWhile isOws).length = s.length := by
    rw [← List.length_append, List.takeWhile_append_dropWhile]
  have hvalue : ∀ b ∈ s.dropWhile isOws, isAeValueByte b = true := fun b hb =>
    hs b ((List.dropWhile_sublist isOws).subset hb)
  rw [aeSkipWs, hskip, Option.bind_some, aeParam, ← hlen, ← Nat.add_assoc]
  generalize p + (s.takeWhile isOws).length = q at hat
  generalize s.dropWhile isOws = w at hat hvalue
  obtain ⟨hname, hat'⟩ := hat.skip_segment
    (ht.weaken fun b (hb : (b != 61 && isAeValueByte b) = true) => (Bool.and_eq_true_iff.mp hb).2)
  rw [(takeWhile_name hvalue).1, (takeWhile_name hvalue).2] at hat'
  rw [hname, Option.bind_some, (takeWhile_name hvalue).1]
  have hcut : w = w.takeWhile (· ≠ 61) ++ w.dropWhile (· ≠ 61) :=
    List.takeWhile_append_dropWhile.symm
  have hrest : ∀ b ∈ w.dropWhile (· ≠ 61), isAeValueByte b = true := fun b hb =>
    hvalue b ((List.dropWhile_sublist _).subset hb)
  have hfirst : ∀ b ∈ (w.dropWhile (· ≠ 61)).head?, b = 61 := fun b hb => by
    simpa using stops_dropWhile (fun b : UInt8 => decide (b ≠ 61)) w b hb
  have hwlen : w.length = (w.takeWhile (· ≠ 61)).length + (w.dropWhile (· ≠ 61)).length := by
    rw [← List.length_append, ← hcut]
  have hwhole : At v q (w.takeWhile (· ≠ 61) ++ (w.dropWhile (· ≠ 61) ++ t)) := by
    rwa [← List.append_assoc, ← hcut]
  rw [hwlen]
  generalize w.takeWhile (· ≠ 61) = name at *
  generalize w.dropWhile (· ≠ 61) = tail at *
  rw [aeParamValue]
  cases tail with
  | nil =>
    rw [List.nil_append] at hat'
    simp only [List.length_nil, Nat.add_zero]
    cases t with
    | nil => rw [if_neg hat'.not_lt]
    | cons b t =>
      have hb : b ≠ 61 := by
        rintro rfl
        exact absurd (ht 61 rfl) (by decide)
      rw [if_pos hat'.lt, hat'.read, Option.bind_some, if_neg hb]
  | cons b tail =>
    have hb : b = 61 := hfirst b rfl
    subst hb
    rw [List.cons_append] at hat'
    have hvalue' : ∀ b ∈ tail, isAeValueByte b = true := fun b hb =>
      hrest b (List.mem_cons_of_mem _ hb)
    rw [if_pos hat'.lt, hat'.read, Option.bind_some, if_pos rfl, isQ_eq hwhole, Option.bind_some]
    have hpos : q + name.length + 1 + tail.length = q + (name.length + (61 :: tail).length) := by
      rw [List.length_cons]
      omega
    dsimp only
    by_cases hq : name = ascii "q" ∨ name = ascii "Q"
    · rw [if_pos (decide_eq_true hq), if_pos hq, aeQIsZeroScan_eq hat'.next hvalue' ht, hpos]
    · rw [if_neg (by simpa using hq), if_neg hq, aeSkipValue_eq hat'.next hvalue' ht, hpos]
      rfl

/-- The decision of the parameters behind a coding, whose text is empty or begins with a
semicolon. -/
def aeParamsOf (qZero : Bool) : Bytes → Bool
  | [] => qZero
  | _ :: params => (params.splitOnP (· == 59)).foldl aeParam qZero

lemma aeParamsOf_cons {x : UInt8} {seg tail : Bytes} (hseg : (59 : UInt8) ∉ seg)
    (htail : ∀ b ∈ tail.head?, b = 59) (qZero : Bool) :
    aeParamsOf qZero (x :: (seg ++ tail)) = aeParamsOf (aeParam qZero seg) tail := by
  cases tail with
  | nil =>
    rw [List.append_nil]
    show (seg.splitOnP (· == 59)).foldl aeParam qZero = aeParam qZero seg
    rw [splitOnP_beq_of_notMem hseg, List.foldl_cons, List.foldl_nil]
  | cons b tail =>
    have hb : b = 59 := htail b rfl
    rw [hb, aeParamsOf, aeParamsOf, splitOnP_beq_append, splitOnP_beq_of_notMem hseg,
      List.singleton_append, List.foldl_cons]

/-- A text cut in front of the first `x`. -/
lemma exists_segment (x : UInt8) (s : Bytes) :
    ∃ seg tail, s = seg ++ tail ∧ x ∉ seg ∧ ∀ b ∈ tail.head?, b = x := by
  refine ⟨s.takeWhile (· ≠ x), s.dropWhile (· ≠ x), List.takeWhile_append_dropWhile.symm,
    fun h => ?_, fun b hb => ?_⟩
  · simpa using List.mem_takeWhile_imp h
  · simpa using stops_dropWhile (fun b : UInt8 => decide (b ≠ x)) s b hb

/-- The loop over the parameters of an element. -/
lemma aeParams_eq {fuel : ℕ} (h : At v p (s ++ t)) (hs : (44 : UInt8) ∉ s)
    (hhead : ∀ b ∈ s.head?, b = 59) (ht : ∀ b ∈ t.head?, b = 44) (qZero : Bool)
    (hfuel : s.length < fuel) :
    aeParams v fuel p qZero = some (aeParamsOf qZero s, p + s.length) := by
  induction fuel generalizing p s qZero with
  | zero => omega
  | succ fuel ih =>
    cases s with
    | nil =>
      rw [List.nil_append] at h
      rw [aeParams, aeParamsOf]
      cases t with
      | nil => rw [if_neg h.not_lt, List.length_nil, Nat.add_zero]
      | cons b t =>
        have hb : b = 44 := ht b rfl
        rw [if_pos h.lt, h.read, Option.bind_some, if_neg (by rw [hb]; decide), List.length_nil,
          Nat.add_zero]
    | cons b s =>
      have hb : b = 59 := hhead b rfl
      subst hb
      rw [List.cons_append] at h
      obtain ⟨seg, tail, rfl, hseg, htail⟩ := exists_segment 59 s
      have hcomma : (44 : UInt8) ∉ seg ∧ (44 : UInt8) ∉ tail := by
        simpa [not_or] using hs
      have hvalue : ∀ b ∈ seg, isAeValueByte b = true := by
        intro b hb
        rw [isAeValueByte_iff]
        exact ⟨fun hcon => hcomma.1 (hcon ▸ hb), fun hcon => hseg (hcon ▸ hb)⟩
      have hstop : Stops isAeValueByte (tail ++ t) := by
        intro b hb
        cases tail with
        | nil =>
          rw [ht b hb]
          rfl
        | cons c tail =>
          rw [htail b hb]
          rfl
      have hat := h.next
      rw [List.append_assoc] at hat
      have hparam := congrArg (fun r => r.bind fun r => aeParams v fuel r.2 r.1)
        (aeParam_eq hat hvalue hstop qZero)
      simp only [Option.bind_assoc, Option.bind_some] at hparam
      simp only [List.length_cons, List.length_append] at hfuel
      rw [aeParams, if_pos h.lt, h.read, Option.bind_some, if_pos rfl, hparam,
        ih hat.append hcomma.2 htail _ (by omega), aeParamsOf_cons hseg htail, List.length_cons,
        List.length_append]
      congr 2
      omega

/-! ## Elements -/

lemma aeTokenIeq_eq {tok name : Bytes} (h : At v p (tok ++ t)) :
    aeTokenIeq v p (p + tok.length - p) name = some (decide (lower tok = name)) := by
  rw [aeTokenIeq, Nat.add_sub_cancel_left]
  by_cases hlen : tok.length = name.length
  · rw [if_neg (not_not.mpr hlen), equalFrom_eq h hlen]
    rfl
  · rw [if_pos hlen, decide_eq_false]
    intro heq
    rw [← heq, lower_length] at hlen
    exact hlen rfl

lemma lowerByte_eq_star {b : UInt8} : lowerByte b = 42 ↔ b = 42 := by
  unfold lowerByte
  split
  case isFalse => exact Iff.rfl
  case isTrue hupper =>
    constructor
    · intro h
      have hten : b = 10 := add_right_cancel (h.trans (by decide : (42 : UInt8) = 10 + 32))
      exact absurd hupper (by rw [hten]; decide)
    · intro h
      exact absurd hupper (by rw [h]; decide)

lemma isWildcard_eq {tok : Bytes} (h : At v p (tok ++ t)) :
    aeIsWildcard v p (p + tok.length - p) = some (decide (lower tok = ascii "*")) := by
  have hstar : ascii "*" = [42] := by decide
  rw [aeIsWildcard, Nat.add_sub_cancel_left, hstar]
  match tok with
  | [] => rfl
  | [b] =>
    rw [List.singleton_append] at h
    rw [if_pos List.length_singleton, h.read, Option.map_some]
    simp only [lower, List.map_cons, List.map_nil, List.cons.injEq, and_true]
    rw [Option.some.injEq, Bool.eq_iff_iff, beq_iff_eq, decide_eq_true_iff, lowerByte_eq_star]
  | b :: c :: tok =>
    rw [if_neg (by simp)]
    simp [lower]

lemma aeElement_eq {e coding tail : Bytes} (he : e.dropWhile isOws = coding ++ tail)
    (hcoding : (59 : UInt8) ∉ coding) (htail : ∀ b ∈ tail.head?, b = 59) (st : AeState) :
    aeElement st e = st.record (decide (lower (coding.rdropWhile isOws) = ascii "gzip"))
      (decide (lower (coding.rdropWhile isOws) = ascii "br"))
      (decide (lower (coding.rdropWhile isOws) = ascii "*")) (aeParamsOf false tail) := by
  have hsplit : ∃ params, (e.dropWhile isOws).splitOnP (· == 59) = coding :: params ∧
      params.foldl aeParam false = aeParamsOf false tail := by
    rw [he]
    cases tail with
    | nil => exact ⟨[], by rw [List.append_nil, splitOnP_beq_of_notMem hcoding], rfl⟩
    | cons b tail =>
      have hb : b = 59 := htail b rfl
      refine ⟨tail.splitOnP (· == 59), ?_, rfl⟩
      rw [hb, splitOnP_beq_append, splitOnP_beq_of_notMem hcoding, List.singleton_append]
  obtain ⟨params, hparts, hfold⟩ := hsplit
  unfold aeElement AeState.record
  simp only [hparts, hfold, decide_eq_true_eq]

/-- The element, whose leading blanks are behind the cursor. -/
lemma aeElementScan_eq {e : Bytes} (h : At v p (e.dropWhile isOws ++ t)) (he : (44 : UInt8) ∉ e)
    (ht : ∀ b ∈ t.head?, b = 44) (st : AeState) :
    ∃ q, aeElementScan v p st = some (aeElement st e, q) ∧ At v q t.tail := by
  obtain ⟨coding, tail, hcut, hcoding, htail⟩ := exists_segment 59 (e.dropWhile isOws)
  have hcomma : (44 : UInt8) ∉ coding ∧ (44 : UInt8) ∉ tail := by
    have hnot : (44 : UInt8) ∉ e.dropWhile isOws := fun hmem =>
      he ((List.dropWhile_sublist isOws).subset hmem)
    rw [hcut, List.mem_append, not_or] at hnot
    exact hnot
  rw [aeElement_eq hcut hcoding htail]
  rw [hcut, List.append_assoc] at h
  have hvalue : ∀ b ∈ coding, isAeValueByte b = true := by
    intro b hb
    rw [isAeValueByte_iff]
    exact ⟨fun hcon => hcomma.1 (hcon ▸ hb), fun hcon => hcoding (hcon ▸ hb)⟩
  have hstop : Stops isAeValueByte (tail ++ t) := by
    intro b hb
    cases tail with
    | nil =>
      rw [ht b hb]
      rfl
    | cons c tail =>
      rw [htail b hb]
      rfl
  -- the coding without the blanks behind it is a prefix of what is left
  obtain ⟨blanks, hblanks⟩ := List.rdropWhile_prefix isOws (l := coding)
  have htok : At v p (coding.rdropWhile isOws ++ (blanks ++ (tail ++ t))) := by
    rwa [← List.append_assoc, hblanks]
  have hparams := h.append
  have hend := hparams.append
  have hblank : Stops isOws t := by
    intro b hb
    rw [ht b hb]
    rfl
  have hws : aeSkipWs v (p + coding.length + tail.length) = some (p + coding.length + tail.length) := by
    rw [← List.nil_append t] at hend
    rw [aeSkipWs, (hend.skip_segment hblank).1]
    rfl
  have hfuel : tail.length < v.length + 1 := by
    have := hparams.lt_fuel
    rw [List.length_append] at this
    omega
  have hcommaSkip : ∃ q, aeSkipComma v (p + coding.length + tail.length) = some q ∧ At v q t.tail := by
    cases t with
    | nil => exact ⟨_, by rw [aeSkipComma, if_neg hend.not_lt], hend⟩
    | cons b t =>
      have hb : b = 44 := ht b rfl
      exact ⟨_, by rw [aeSkipComma, if_pos hend.lt, hend.read, Option.map_some, if_pos hb], hend.next⟩
  obtain ⟨q, hq, hatq⟩ := hcommaSkip
  refine ⟨q, ?_, hatq⟩
  simp only [aeElementScan, aeSkipValue_eq h hvalue hstop, trimEnd_eq h, aeTokenIeq_eq htok,
    isWildcard_eq htok, aeParams_eq hparams hcomma.2 htail ht false hfuel, hws, hq,
    Option.bind_eq_bind, Option.bind_some]
  rfl

/-- The loop over the elements. -/
lemma aeElements_eq {fuel : ℕ} (h : At v p s) (hfuel : s.length < fuel) (st : AeState) :
    aeElements v fuel p st = some ((s.splitOnP (· == 44)).foldl aeElement st) := by
  induction fuel generalizing p s st with
  | zero => omega
  | succ fuel ih =>
    obtain ⟨e, t, rfl, he, ht⟩ := exists_segment 44 s
    have hstop : Stops isOws t := by
      intro b hb
      rw [ht b hb]
      rfl
    have hblank : ∀ (st : AeState) (e : Bytes), e.dropWhile isOws = [] → aeElement st e = st := by
      intro st e hnil
      rw [@aeElement_eq e [] [] hnil List.not_mem_nil (by simp)]
      rfl
    obtain ⟨hskip, hat⟩ := h.skip_segment hstop
    rw [aeElements]
    by_cases hp : p < v.length
    · rw [if_pos hp, aeSkipWs, hskip, Option.bind_some]
      by_cases htok : p + (e.takeWhile isOws).length < v.length
      · rw [if_pos htok]
        obtain ⟨q, hscan, hatq⟩ := aeElementScan_eq hat he ht st
        rw [hscan, Option.bind_some]
        dsimp only
        cases t with
        | nil =>
          have hne : 0 < e.length := by
            rw [List.append_nil] at h
            have := h.length
            omega
          rw [List.length_append, List.length_nil] at hfuel
          rw [ih hatq (by rw [List.tail_nil, List.length_nil]; omega), List.append_nil,
            splitOnP_beq_of_notMem he, List.tail_nil, List.splitOnP_nil]
          rw [List.foldl_cons, List.foldl_nil, List.foldl_cons, List.foldl_nil, hblank _ [] rfl]
        | cons b t =>
          have hb : b = 44 := ht b rfl
          rw [List.length_append, List.length_cons] at hfuel
          rw [ih hatq (by rw [List.tail_cons]; omega), List.tail_cons, hb, splitOnP_beq_append,
            splitOnP_beq_of_notMem he, List.singleton_append, List.foldl_cons]
      · -- blanks up to the end of the value
        have hrest : e.dropWhile isOws ++ t = [] := by
          rw [← List.length_eq_zero_iff]
          have := hat.length
          omega
        obtain ⟨hnil, rfl⟩ := List.append_eq_nil_iff.mp hrest
        rw [if_neg htok, List.append_nil, splitOnP_beq_of_notMem he, List.foldl_cons, List.foldl_nil,
          hblank st e hnil]
    · have hnil : e ++ t = [] := by
        rw [← List.length_eq_zero_iff]
        have := h.length
        omega
      rw [if_neg hp, hnil, List.splitOnP_nil, List.foldl_cons, List.foldl_nil, hblank st [] rfl]

/-- The scanner ends after at most one round for each byte, reads inside the value only, and returns
what the elements of the value say. -/
lemma compressScanAcceptEncoding_eq {fuel : ℕ} (hfuel : v.length < fuel) :
    compressScanAcceptEncoding fuel v = some (compressParseAcceptEncoding v) := by
  rw [compressScanAcceptEncoding]
  split
  · rename_i hnil
    rw [List.length_eq_zero_iff.mp hnil]
    rfl
  · rw [aeElements_eq (At.start v) hfuel]
    rfl

end Lamseryn
