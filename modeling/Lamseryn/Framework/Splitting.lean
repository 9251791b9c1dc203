import Mathlib

/-!
# Texts split at separators

What `List.splitOnP` leaves of a text: pieces without a separator, which with the separators between them
make up the length of the text.  A text that is a join of such pieces splits into them again.  With one
separator, a join of arbitrary texts splits into the pieces of the texts, and the pieces are the
stretches between two separators.  The blanks around a piece are what `dropWhile` and `rdropWhile`
take off it.
-/

namespace Splitting

variable {α : Type*} {sep : α → Bool}

lemma splitOnP_cons_of_not {a : α} (h : sep a = false) (s : List α) :
    ∃ piece rest, s.splitOnP sep = piece :: rest ∧ (a :: s).splitOnP sep = (a :: piece) :: rest := by
  obtain ⟨piece, rest, hs⟩ := List.exists_cons_of_ne_nil (List.splitOnP_ne_nil sep s)
  refine ⟨piece, rest, hs, ?_⟩
  rw [List.splitOnP_cons_eq_if_modifyHead, if_neg (by simp [h]), hs, List.modifyHead_cons]

lemma splitOnP_cons_of_sep {a : α} (h : sep a = true) (s : List α) :
    (a :: s).splitOnP sep = [] :: s.splitOnP sep := by
  rw [List.splitOnP_cons_eq_if_modifyHead, if_pos h]

lemma not_sep_of_mem_splitOnP (s : List α) : ∀ piece ∈ s.splitOnP sep, ∀ a ∈ piece, sep a = false := by
  induction s with
  | nil =>
    intro piece hpiece a ha
    rw [List.splitOnP_nil, List.mem_singleton] at hpiece
    subst hpiece
    cases ha
  | cons b s ih =>
    intro piece hpiece a ha
    by_cases hb : sep b = true
    · rw [splitOnP_cons_of_sep hb] at hpiece
      rcases List.mem_cons.mp hpiece with rfl | hpiece
      · cases ha
      · exact ih piece hpiece a ha
    · have hb : sep b = false := by simpa using hb
      obtain ⟨first, rest, hs, hbs⟩ := splitOnP_cons_of_not hb s
      rw [hbs] at hpiece
      rw [hs] at ih
      rcases List.mem_cons.mp hpiece with rfl | hpiece
      · rcases List.mem_cons.mp ha with rfl | ha
        · exact hb
        · exact ih first List.mem_cons_self a ha
      · exact ih piece (List.mem_cons_of_mem first hpiece) a ha

lemma sum_length_splitOnP (s : List α) :
    ((s.splitOnP sep).map fun piece => piece.length + 1).sum = s.length + 1 := by
  induction s with
  | nil => simp
  | cons b s ih =>
    by_cases hb : sep b = true
    · rw [splitOnP_cons_of_sep hb, List.map_cons, List.sum_cons, ih, List.length_cons, List.length_nil]
      omega
    · obtain ⟨first, rest, hs, hbs⟩ := splitOnP_cons_of_not (by simpa using hb : sep b = false) s
      rw [hs, List.map_cons, List.sum_cons] at ih
      rw [hbs, List.map_cons, List.sum_cons, List.length_cons, List.length_cons]
      omega

lemma splitOnP_append_last {c : α} (hc : sep c = true) (s : List α) {piece : List α}
    (hpiece : ∀ a ∈ piece, sep a = false) :
    (s ++ c :: piece).splitOnP sep = s.splitOnP sep ++ [piece] := by
  rw [List.splitOnP_append_cons s piece hc, List.splitOnP_eq_singleton hpiece]

lemma subset_intercalate {glue text : List α} {texts : List (List α)} (h : text ∈ texts) :
    text ⊆ glue.intercalate texts := by
  induction texts with
  | nil => cases h
  | cons first texts ih =>
    cases texts with
    | nil =>
      rw [List.intercalate_singleton, List.mem_singleton.mp h]
      exact List.Subset.refl first
    | cons second texts =>
      rw [List.intercalate_cons_cons]
      rcases List.mem_cons.mp h with rfl | h
      · exact fun a ha => List.mem_append_left _ (List.mem_append_left _ ha)
      · exact fun a ha => List.mem_append_right _ (ih h ha)

/-! ## Blanks around a piece -/

section Blanks

variable {blank : α → Bool} {before core after : List α}

lemma dropWhile_of_not (hcore : ∀ a ∈ core, blank a = false) : core.dropWhile blank = core := by
  cases core with
  | nil => rfl
  | cons a core =>
    apply List.dropWhile_cons_of_neg
    simp [hcore a List.mem_cons_self]

lemma rdropWhile_append (hcore : ∀ a ∈ core, blank a = false)
    (hafter : ∀ a ∈ after, blank a = true) : (core ++ after).rdropWhile blank = core := by
  rw [List.rdropWhile, List.reverse_append,
    List.dropWhile_append_of_pos fun a ha => hafter a (List.mem_reverse.mp ha),
    dropWhile_of_not fun a ha => hcore a (List.mem_reverse.mp ha), List.reverse_reverse]

lemma dropWhile_append (hbefore : ∀ a ∈ before, blank a = true) (hne : core ≠ [])
    (hcore : ∀ a ∈ core, blank a = false) (t : List α) :
    (before ++ (core ++ t)).dropWhile blank = core ++ t := by
  obtain ⟨a, core, rfl⟩ := List.exists_cons_of_ne_nil hne
  rw [List.dropWhile_append_of_pos hbefore, List.cons_append]
  apply List.dropWhile_cons_of_neg
  simp [hcore a List.mem_cons_self]

lemma trim_append (hbefore : ∀ a ∈ before, blank a = true) (hcore : ∀ a ∈ core, blank a = false)
    (hafter : ∀ a ∈ after, blank a = true) :
    ((before ++ (core ++ after)).dropWhile blank).rdropWhile blank = core := by
  rcases eq_or_ne core [] with rfl | hne
  · rw [List.nil_append, List.dropWhile_append_of_pos hbefore, List.dropWhile_eq_nil_iff.mpr hafter,
      List.rdropWhile_nil]
  · rw [dropWhile_append hbefore hne hcore, rdropWhile_append hcore hafter]

end Blanks

/-! ## One separator -/

section Separator

variable [BEq α] [LawfulBEq α] {x : α}

lemma splitOnP_beq_of_notMem {s : List α} (h : x ∉ s) : s.splitOnP (· == x) = [s] := by
  apply List.splitOnP_eq_singleton
  intro a ha
  rw [beq_eq_false_iff_ne]
  rintro rfl
  exact h ha

lemma splitOnP_beq_append (s t : List α) :
    (s ++ x :: t).splitOnP (· == x) = s.splitOnP (· == x) ++ t.splitOnP (· == x) :=
  List.splitOnP_append_cons s t (p := (· == x)) (beq_self_eq_true x)

lemma splitOnP_intercalate {texts : List (List α)} (h : texts ≠ []) :
    ([x].intercalate texts).splitOnP (· == x) = texts.flatMap (List.splitOnP (· == x)) := by
  induction texts with
  | nil => exact (h rfl).elim
  | cons text texts ih =>
    cases texts with
    | nil => rw [List.intercalate_singleton, List.flatMap_singleton]
    | cons text' texts =>
      rw [List.flatMap_cons, List.intercalate_cons_cons, List.append_assoc, List.singleton_append,
        splitOnP_beq_append, ih (List.cons_ne_nil _ _)]

/-- A piece, with a separator on either side, is a stretch of the text with separators put around
it. -/
lemma infix_of_mem_splitOnP {s piece : List α} (h : piece ∈ s.splitOnP (· == x)) :
    x :: (piece ++ [x]) <:+: x :: (s ++ [x]) := by
  induction hn : s.length using Nat.strong_induction_on generalizing s with
  | _ n ih =>
    by_cases hx : x ∈ s
    · obtain ⟨a, b, rfl, ha⟩ := List.eq_append_cons_of_mem hx
      rw [splitOnP_beq_append, splitOnP_beq_of_notMem ha] at h
      rcases List.mem_cons.mp h with rfl | h
      · exact ⟨[], b ++ [x], by simp⟩
      · have hlt : b.length < n := by
          rw [← hn, List.length_append, List.length_cons]
          omega
        obtain ⟨u, w, huw⟩ := ih _ hlt h rfl
        refine ⟨x :: (a ++ u), w, ?_⟩
        simp only [List.cons_append, List.append_assoc] at huw ⊢
        rw [huw]
    · rw [splitOnP_beq_of_notMem hx, List.mem_singleton] at h
      rw [h]

lemma mem_of_mem_splitOnP {s piece : List α} (h : piece ∈ s.splitOnP (· == x)) {a : α}
    (ha : a ∈ piece) : a ∈ s := by
  have hne : a ≠ x := beq_eq_false_iff_ne.mp (not_sep_of_mem_splitOnP s piece h a ha)
  have hmem : a ∈ x :: (s ++ [x]) := (infix_of_mem_splitOnP h).subset <|
    List.mem_cons_of_mem x (List.mem_append_left [x] ha)
  rcases List.mem_cons.mp hmem with rfl | hmem
  · exact (hne rfl).elim
  · exact (List.mem_append.mp hmem).resolve_right fun hx => hne (List.mem_singleton.mp hx)

/-- The pieces of a text with at least two separators: one in front of the first, one behind the
last, and those of the text in between, which are the stretches with separators on both sides. -/
lemma mem_splitOnP_iff_infix {first middle last piece : List α} (hfirst : x ∉ first)
    (hlast : x ∉ last) (hpiece : x ∉ piece) :
    piece ∈ middle.splitOnP (· == x) ↔
      x :: (piece ++ [x]) <:+: first ++ x :: (middle ++ x :: last) := by
  constructor
  · intro h
    obtain ⟨u, w, huw⟩ := infix_of_mem_splitOnP h
    refine ⟨first ++ u, w ++ last, ?_⟩
    simp only [List.append_assoc, List.cons_append] at huw ⊢
    have hcut : u ++ x :: (piece ++ x :: (w ++ last)) = (x :: (middle ++ [x])) ++ last := by
      rw [← huw]
      simp
    simp [hcut]
  · rintro ⟨u, w, huw⟩
    have hcut : (first ++ x :: (middle ++ x :: last)).splitOnP (· == x) =
        first :: (middle.splitOnP (· == x) ++ [last]) := by
      rw [splitOnP_beq_append, splitOnP_beq_append,
        splitOnP_beq_of_notMem hfirst, splitOnP_beq_of_notMem hlast, List.singleton_append]
    have hcut' : (u ++ x :: (piece ++ [x]) ++ w).splitOnP (· == x) =
        u.splitOnP (· == x) ++ piece :: w.splitOnP (· == x) := by
      have hassoc : u ++ x :: (piece ++ [x]) ++ w = u ++ x :: (piece ++ x :: w) := by simp
      rw [hassoc, splitOnP_beq_append, splitOnP_beq_append,
        splitOnP_beq_of_notMem hpiece, List.singleton_append]
    rw [huw, hcut] at hcut'
    obtain ⟨p, ps, hps⟩ := List.exists_cons_of_ne_nil (List.splitOnP_ne_nil (· == x) u)
    have hw := List.dropLast_append_getLast (List.splitOnP_ne_nil (· == x) w)
    rw [hps, ← hw, List.cons_append, List.cons.injEq, ← List.cons_append, ← List.append_assoc] at hcut'
    rw [(List.append_inj_left' hcut'.2 rfl)]
    simp

end Separator

end Splitting
