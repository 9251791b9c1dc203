import Mathlib

/-!
# Resolving a list of segments with a stack

The segments of a path are read from left to right: some are skipped, some take the last segment away
again, and the others are kept.  What is kept at any time is a stack, here with its top first.  The
resolution of a list that holds only segments to be kept is the list itself, so resolving twice is the
same as resolving once.
-/

namespace SegmentStack

/-- What a segment does to the stack. -/
inductive Kind where
  | skip
  | up
  | keep
  deriving DecidableEq, Repr

variable {α : Type*} (kind : α → Kind)

/-- The stack after one more segment.  A segment that goes up is ignored on an empty stack. -/
def push (stack : List α) (a : α) : List α :=
  match kind a with
  | .skip => stack
  | .up => stack.tail
  | .keep => a :: stack

/-- The stack that a list of segments leaves, from an empty one. -/
def resolve (l : List α) : List α :=
  l.foldl (push kind) []

/-- At some point of the list the stack has more than `n` segments. -/
def Exceeds (n : ℕ) (stack l : List α) : Prop :=
  ∃ p, p <+: l ∧ n < (p.foldl (push kind) stack).length

variable {kind} {n : ℕ} {stack l : List α} {a : α}

lemma push_skip (h : kind a = .skip) : push kind stack a = stack := by
  simp only [push, h]

lemma push_up (h : kind a = .up) : push kind stack a = stack.tail := by
  simp only [push, h]

lemma push_keep (h : kind a = .keep) : push kind stack a = a :: stack := by
  simp only [push, h]

lemma keep_of_mem_push (hstack : ∀ b ∈ stack, kind b = .keep) :
    ∀ b ∈ push kind stack a, kind b = .keep := by
  intro b hb
  rcases h : kind a with _ | _ | _
  · rw [push_skip h] at hb
    exact hstack b hb
  · rw [push_up h] at hb
    exact hstack b (List.mem_of_mem_tail hb)
  · rw [push_keep h] at hb
    rcases List.mem_cons.mp hb with rfl | hb
    · exact h
    · exact hstack b hb

lemma keep_of_mem_foldl (l : List α) (hstack : ∀ b ∈ stack, kind b = .keep) :
    ∀ b ∈ l.foldl (push kind) stack, kind b = .keep := by
  induction l generalizing stack with
  | nil => exact hstack
  | cons a l ih => exact ih (keep_of_mem_push hstack)

lemma keep_of_mem_resolve (l : List α) : ∀ b ∈ resolve kind l, kind b = .keep :=
  keep_of_mem_foldl l (by simp)

lemma mem_of_mem_foldl (l : List α) : ∀ {stack : List α} {b : α},
    b ∈ l.foldl (push kind) stack → b ∈ stack ∨ b ∈ l := by
  induction l with
  | nil => exact fun h => Or.inl h
  | cons a l ih =>
    intro stack b hb
    rcases ih hb with h | h
    · rcases hk : kind a with _ | _ | _
      · rw [push_skip hk] at h
        exact Or.inl h
      · rw [push_up hk] at h
        exact Or.inl (List.mem_of_mem_tail h)
      · rw [push_keep hk] at h
        rcases List.mem_cons.mp h with rfl | h
        · exact Or.inr List.mem_cons_self
        · exact Or.inl h
    · exact Or.inr (List.mem_cons_of_mem a h)

lemma foldl_of_keep (h : ∀ b ∈ l, kind b = .keep) (stack : List α) :
    l.foldl (push kind) stack = l.reverse ++ stack := by
  induction l generalizing stack with
  | nil => rfl
  | cons a l ih =>
    rw [List.foldl_cons, push_keep (h a List.mem_cons_self),
      ih fun b hb => h b (List.mem_cons_of_mem a hb)]
    simp

/-! ## Bounded stacks -/

lemma not_exceeds_nil (h : stack.length ≤ n) : ¬ Exceeds kind n stack [] := by
  rintro ⟨p, hp, hlen⟩
  rw [List.prefix_nil.mp hp] at hlen
  exact absurd hlen (Nat.not_lt.mpr h)

lemma exceeds_cons (h : stack.length ≤ n) :
    Exceeds kind n stack (a :: l) ↔ Exceeds kind n (push kind stack a) l := by
  constructor
  · rintro ⟨p, hp, hlen⟩
    cases p with
    | nil => exact absurd hlen (Nat.not_lt.mpr h)
    | cons b p =>
      obtain ⟨rfl, hrest⟩ := List.cons_prefix_cons.mp hp
      exact ⟨p, hrest, hlen⟩
  · rintro ⟨p, hp, hlen⟩
    exact ⟨a :: p, List.cons_prefix_cons.mpr ⟨rfl, hp⟩, hlen⟩

lemma exceeds_of_lt (h : n < stack.length) (l : List α) : Exceeds kind n stack l :=
  ⟨[], List.nil_prefix, h⟩

lemma not_exceeds_of_keep (h : ∀ b ∈ l, kind b = .keep) (hlen : l.length ≤ n) :
    ¬ Exceeds kind n [] l := by
  rintro ⟨p, hp, hlt⟩
  rw [foldl_of_keep fun b hb => h b (hp.subset hb)] at hlt
  have hple := hp.length_le
  simp only [List.append_nil, List.length_reverse] at hlt
  omega

lemma length_foldl_le (h : ¬ Exceeds kind n stack l) : (l.foldl (push kind) stack).length ≤ n := by
  by_contra hlt
  exact h ⟨l, List.prefix_refl l, Nat.not_le.mp hlt⟩

/-! ## Skipped segments -/

/-- The segments that are not skipped. -/
def visited (kind : α → Kind) (l : List α) : List α :=
  l.filter fun a => kind a ≠ .skip

lemma foldl_visited (l stack : List α) :
    (visited kind l).foldl (push kind) stack = l.foldl (push kind) stack := by
  induction l generalizing stack with
  | nil => rfl
  | cons a l ih =>
    by_cases h : kind a = .skip
    · have hskip : visited kind (a :: l) = visited kind l := by simp [visited, h]
      rw [hskip, ih, List.foldl_cons, push_skip h]
    · have hkept : visited kind (a :: l) = a :: visited kind l := by simp [visited, h]
      rw [hkept, List.foldl_cons, List.foldl_cons, ih]

lemma exceeds_visited (h : stack.length ≤ n) :
    Exceeds kind n stack (visited kind l) ↔ Exceeds kind n stack l := by
  induction l generalizing stack with
  | nil => rfl
  | cons a l ih =>
    by_cases hskip : kind a = .skip
    · have heq : visited kind (a :: l) = visited kind l := by simp [visited, hskip]
      rw [heq, ih h, exceeds_cons h, push_skip hskip]
    · have heq : visited kind (a :: l) = a :: visited kind l := by simp [visited, hskip]
      rw [heq, exceeds_cons h, exceeds_cons h]
      by_cases hnext : (push kind stack a).length ≤ n
      · exact ih hnext
      · exact iff_of_true (exceeds_of_lt (Nat.not_le.mp hnext) _)
          (exceeds_of_lt (Nat.not_le.mp hnext) _)

lemma resolve_of_visited {l l' : List α} (h : visited kind l = visited kind l') :
    resolve kind l = resolve kind l' ∧ (Exceeds kind n [] l ↔ Exceeds kind n [] l') := by
  constructor
  · rw [resolve, resolve, ← foldl_visited, h, foldl_visited]
  · rw [← exceeds_visited (Nat.zero_le n), h, exceeds_visited (Nat.zero_le n)]

end SegmentStack
