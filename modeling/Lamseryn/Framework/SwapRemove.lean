import Mathlib

/-!
# Removal by the last entry

An entry of an array is removed in constant time by moving the last entry to its place.  Up to the order
this is a removal (`swapRemove_perm`).  `Indexed l pos` says that `pos` records where each entry of `l`
is: such an array has no repetition, and the record can be kept up through `push` and `swapRemove` by
changing it at one or two entries.
-/

namespace SwapRemove

variable {α : Type*} {l : List α} {a b : α} {i j : ℕ}

/-- Move the last entry to position `i` and drop it at the end. -/
def swapRemove (l : List α) (i : ℕ) : List α :=
  match l.getLast? with
  | none => l
  | some last => (l.set i last).dropLast

@[simp] lemma swapRemove_concat (l : List α) (a : α) (i : ℕ) :
    swapRemove (l ++ [a]) i = if i < l.length then l.set i a else l := by
  rw [swapRemove, List.getLast?_concat]
  dsimp only
  split
  · rename_i hi
    rw [List.set_append_left _ _ hi, List.dropLast_concat]
  · rename_i hi
    rw [List.set_append_right _ _ (Nat.le_of_not_lt hi)]
    obtain hzero | ⟨k, hk⟩ : i - l.length = 0 ∨ ∃ k, i - l.length = k + 1 := by
      rcases i - l.length with _ | k
      · exact .inl rfl
      · exact .inr ⟨k, rfl⟩
    · rw [hzero, List.set_cons_zero, List.dropLast_concat]
    · rw [hk, List.set_cons_succ, List.set_nil, List.dropLast_concat]

lemma swapRemove_perm (hi : i < l.length) : (swapRemove l i).Perm (l.eraseIdx i) := by
  obtain rfl | ⟨l, a, rfl⟩ := l.eq_nil_or_concat
  · exact absurd hi (Nat.not_lt_zero i)
  rw [List.concat_eq_append, List.length_append, List.length_singleton] at *
  rw [swapRemove_concat]
  split
  · rename_i hlt
    rw [List.eraseIdx_append_of_lt_length hlt]
    exact (List.set_perm_cons_eraseIdx hlt a).trans (List.perm_append_singleton a _).symm
  · rw [List.eraseIdx_append_of_length_le (by omega), show i - l.length = 0 by omega,
      List.eraseIdx_cons_zero, List.append_nil]

lemma getElem?_swapRemove (hi : i < l.length) (j : ℕ) :
    (swapRemove l i)[j]? =
      if j + 1 < l.length then if j = i then l.getLast? else l[j]? else none := by
  obtain rfl | ⟨l, last, rfl⟩ := l.eq_nil_or_concat
  · exact absurd hi (Nat.not_lt_zero i)
  rw [List.concat_eq_append] at *
  rw [swapRemove_concat, List.getLast?_concat, List.length_append, List.length_singleton]
  by_cases hj : j < l.length
  · have hroom : j + 1 < l.length + 1 := by omega
    rw [if_pos hroom, List.getElem?_append_left hj]
    by_cases hij : j = i
    · subst hij
      rw [if_pos hj, if_pos rfl, List.getElem?_set_self hj]
    · rw [if_neg hij]
      split
      · exact List.getElem?_set_ne (Ne.symm hij)
      · rfl
  · have hend : ¬ j + 1 < l.length + 1 := by omega
    rw [if_neg hend]
    refine List.getElem?_eq_none ?_
    split
    · rw [List.length_set]
      omega
    · omega

/-! ## Recorded positions -/

/-- `pos` records where each entry of `l` is. -/
def Indexed (l : List α) (pos : α → Option ℕ) : Prop :=
  ∀ a i, pos a = some i ↔ l[i]? = some a

variable {pos : α → Option ℕ}

lemma indexed_nil : Indexed ([] : List α) fun _ => none := by
  intro a i
  rw [List.getElem?_nil]
  exact ⟨nofun, nofun⟩

lemma Indexed.nodup (h : Indexed l pos) : l.Nodup := by
  rw [List.nodup_iff_getElem?_ne_getElem?]
  intro i j hij hj heq
  have hi := (h l[j] i).mpr (heq.trans (List.getElem?_eq_getElem hj))
  have hj' := (h l[j] j).mpr (List.getElem?_eq_getElem hj)
  have hsame : i = j := Option.some.inj (hi.symm.trans hj')
  omega

lemma Indexed.mem_iff (h : Indexed l pos) : a ∈ l ↔ (pos a).isSome = true := by
  rw [List.mem_iff_getElem?, Option.isSome_iff_exists]
  exact exists_congr fun i => (h a i).symm

lemma Indexed.lt_length (h : Indexed l pos) (ha : pos a = some i) : i < l.length :=
  (List.getElem?_eq_some_iff.mp ((h a i).mp ha)).1

lemma Indexed.push [DecidableEq α] (h : Indexed l pos) (ha : pos a = none) :
    Indexed (l ++ [a]) (Function.update pos a (some l.length)) := by
  intro b i
  by_cases hb : b = a
  · subst hb
    rw [Function.update_self, Option.some_inj]
    constructor
    · rintro rfl
      exact List.getElem?_concat_length
    · intro hget
      by_contra hne
      have hold : l[i]? = some b := by
        rcases Nat.lt_or_ge i l.length with hlt | hge
        · rwa [List.getElem?_append_left hlt] at hget
        · rw [List.getElem?_eq_none (by simp; omega)] at hget
          cases hget
      rw [← h, ha] at hold
      cases hold
  · rw [Function.update_of_ne hb, h b i, List.getElem?_append]
    split
    · rfl
    · rename_i hge
      rw [List.getElem?_eq_none (Nat.le_of_not_lt hge), List.getElem?_singleton]
      split
      · exact ⟨nofun, fun heq => absurd (Option.some.inj heq).symm hb⟩
      · rfl

/-- After a removal the moved entry has the position of the removed one. -/
lemma Indexed.swapRemove [DecidableEq α] (h : Indexed l pos) (ha : pos a = some i) :
    Indexed (swapRemove l i)
      fun b => if b = a then none else if l.getLast? = some b then some i else pos b := by
  have hi := h.lt_length ha
  have hunique : ∀ {b j k}, l[j]? = some b → l[k]? = some b → j = k := fun hj hk =>
    Option.some.inj (((h _ _).mpr hj).symm.trans ((h _ _).mpr hk))
  have hget : l[i]? = some a := (h a i).mp ha
  intro b j
  rw [getElem?_swapRemove hi, List.getLast?_eq_getElem?]
  dsimp only
  by_cases hb : b = a
  · subst hb
    rw [if_pos rfl]
    refine ⟨nofun, fun hnew => ?_⟩
    -- The removed entry is nowhere: the moved one was at another position.
    split at hnew
    · split at hnew
      · have := hunique hnew hget
        omega
      · exact absurd (hunique hnew hget) ‹_›
    · cases hnew
  rw [if_neg hb]
  by_cases hlast : l[l.length - 1]? = some b
  · rw [if_pos hlast, Option.some_inj]
    constructor
    · rintro rfl
      have hne : i ≠ l.length - 1 := fun heq => by
        rw [← heq, hget] at hlast
        exact hb (Option.some.inj hlast).symm
      have hroom : i + 1 < l.length := by omega
      rw [if_pos hroom, if_pos rfl]
      exact hlast
    · intro hnew
      split at hnew
      · split at hnew
        · exact Eq.symm ‹j = i›
        · have := hunique hnew hlast
          omega
      · cases hnew
  · rw [if_neg hlast, h b j]
    constructor
    · intro hold
      have hj := (List.getElem?_eq_some_iff.mp hold).1
      have hne : j ≠ l.length - 1 := fun heq => hlast (heq ▸ hold)
      have hji : j ≠ i := fun heq => by
        rw [heq, hget] at hold
        exact hb (Option.some.inj hold).symm
      have hroom : j + 1 < l.length := by omega
      rw [if_pos hroom, if_neg hji]
      exact hold
    · intro hnew
      split at hnew
      · split at hnew
        · exact absurd hnew hlast
        · exact hnew
      · cases hnew

end SwapRemove
