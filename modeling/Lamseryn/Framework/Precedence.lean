import Mathlib

/-!
# Selection by precedence

Insertion sort as it is written on an array, and the first match in a sorted list.

`insertLast` is the inner loop: the sorted part is walked from its end, and every entry that the new
one goes before moves one place.  Whether it goes before is a test on two entries; the results hold
whenever the test compares a rank in a linear order, on the entries that are there.
-/

namespace Precedence

variable {α β : Type*}

/-- Insert `key` into a sorted part that is given with its last entry first. -/
def insertLast (swap : α → α → Bool) (key : α) : List α → List α
  | [] => [key]
  | prev :: rest =>
    if swap prev key then prev :: insertLast swap key rest else key :: prev :: rest

/-- Insertion sort: the entries are inserted one after another. -/
def insertionSort (swap : α → α → Bool) (l : List α) : List α :=
  (l.foldl (fun sorted key => insertLast swap key sorted) []).reverse

lemma insertLast_perm (swap : α → α → Bool) (key : α) (l : List α) :
    (insertLast swap key l).Perm (key :: l) := by
  induction l with
  | nil => exact List.Perm.refl _
  | cons prev rest ih =>
    rw [insertLast]
    split
    · exact (ih.cons prev).trans (List.Perm.swap key prev rest)
    · exact List.Perm.refl _

lemma foldl_insertLast_perm (swap : α → α → Bool) (l sorted : List α) :
    (l.foldl (fun sorted key => insertLast swap key sorted) sorted).Perm (l ++ sorted) := by
  induction l generalizing sorted with
  | nil => exact List.Perm.refl _
  | cons key l ih =>
    refine (ih _).trans ?_
    exact ((insertLast_perm swap key sorted).append_left l).trans List.perm_middle

lemma insertionSort_perm (swap : α → α → Bool) (l : List α) : (insertionSort swap l).Perm l := by
  have h := foldl_insertLast_perm swap l []
  rw [List.append_nil] at h
  exact (List.reverse_perm _).trans h

section Rank

variable [LinearOrder β] (rank : α → β)

lemma insertLast_pairwise {swap : α → α → Bool} {key : α} {l : List α}
    (hswap : ∀ a ∈ l, swap a key = true ↔ rank key < rank a)
    (hl : l.Pairwise fun a b => rank b ≤ rank a) :
    (insertLast swap key l).Pairwise fun a b => rank b ≤ rank a := by
  induction l with
  | nil => exact List.pairwise_singleton _ _
  | cons prev rest ih =>
    have hrest := List.pairwise_cons.mp hl
    have hprev := hswap prev List.mem_cons_self
    rw [insertLast]
    split
    · rename_i hgo
      have htail := ih (fun a ha => hswap a (List.mem_cons_of_mem prev ha)) hrest.2
      refine List.pairwise_cons.mpr ⟨fun b hb => ?_, htail⟩
      rcases List.mem_cons.mp ((insertLast_perm swap key rest).mem_iff.mp hb) with rfl | hb
      · exact (hprev.mp hgo).le
      · exact hrest.1 b hb
    · rename_i hstop
      have hle : rank prev ≤ rank key := not_lt.mp fun hlt => hstop (hprev.mpr hlt)
      refine List.pairwise_cons.mpr ⟨fun b hb => ?_, hl⟩
      rcases List.mem_cons.mp hb with rfl | hb
      · exact hle
      · exact (hrest.1 b hb).trans hle

lemma foldl_insertLast_pairwise {swap : α → α → Bool} {l sorted : List α}
    (hswap : ∀ a ∈ l ++ sorted, ∀ b ∈ l ++ sorted, swap a b = true ↔ rank b < rank a)
    (hsorted : sorted.Pairwise fun a b => rank b ≤ rank a) :
    (l.foldl (fun sorted key => insertLast swap key sorted) sorted).Pairwise
      fun a b => rank b ≤ rank a := by
  induction l generalizing sorted with
  | nil => exact hsorted
  | cons key l ih =>
    have hmem : ∀ a ∈ l ++ insertLast swap key sorted, a ∈ key :: l ++ sorted := by
      intro a ha
      have hperm : (l ++ insertLast swap key sorted).Perm (key :: l ++ sorted) :=
        ((insertLast_perm swap key sorted).append_left l).trans List.perm_middle
      exact hperm.mem_iff.mp ha
    apply ih
    · intro a ha b hb
      exact hswap a (hmem a ha) b (hmem b hb)
    · apply insertLast_pairwise rank _ hsorted
      intro a ha
      exact hswap a (List.mem_append_right _ ha) key (by simp)

lemma insertionSort_pairwise {swap : α → α → Bool} {l : List α}
    (hswap : ∀ a ∈ l, ∀ b ∈ l, swap a b = true ↔ rank b < rank a) :
    (insertionSort swap l).Pairwise fun a b => rank a ≤ rank b := by
  rw [insertionSort, List.pairwise_reverse]
  apply foldl_insertLast_pairwise rank _ List.Pairwise.nil
  simpa using hswap

lemma rank_le_of_find? {l : List α} {p : α → Bool} {a : α}
    (hl : l.Pairwise fun a b => rank a ≤ rank b) (ha : l.find? p = some a) :
    ∀ b ∈ l, p b = true → rank a ≤ rank b := by
  obtain ⟨-, before, after, rfl, hbefore⟩ := List.find?_eq_some_iff_append.mp ha
  intro b hb hpb
  rcases List.mem_append.mp hb with hb | hb
  · have hnot := hbefore b hb
    rw [hpb] at hnot
    cases hnot
  · rcases List.mem_cons.mp hb with rfl | hb
    · exact le_rfl
    · exact (List.pairwise_cons.mp (List.pairwise_append.mp hl).2.1).1 b hb

end Rank

end Precedence
