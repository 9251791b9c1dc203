import Mathlib

/-!
# Scanning a text with a cursor

A scanner of a length-delimited text walks a position over it and reads one element at a time.  Here
a read is `v[p]?`, so that a read outside the text fails, and a loop has fuel, so that a loop that
makes no progress fails too: a scanner that returns a value has terminated and read inside the text.

`At v p s` says that `s` is what is left of `v` behind `p`.  The lemmas translate the loops of a
scanner into `takeWhile` and `dropWhile` of what is left.
-/

namespace Cursor

variable {α : Type*}

/-! ## What is left behind a position -/

/-- The position `p` lies in the text, and `s` is left behind it. -/
structure At (v : List α) (p : ℕ) (s : List α) : Prop where
  inside : p ≤ v.length
  rest : v.drop p = s

variable {v s t : List α} {p : ℕ} {a : α}

lemma At.start (v : List α) : At v 0 v :=
  ⟨Nat.zero_le _, List.drop_zero⟩

lemma At.length (h : At v p s) : p + s.length = v.length := by
  have := h.inside
  rw [← h.rest, List.length_drop]
  omega

lemma At.lt (h : At v p (a :: s)) : p < v.length := by
  have := h.length
  rw [List.length_cons] at this
  omega

lemma At.not_lt (h : At v p []) : ¬ p < v.length := by
  have := h.length
  rw [List.length_nil] at this
  omega

lemma At.lt_fuel (h : At v p s) : s.length < v.length + 1 := by
  have := h.length
  omega

lemma At.read (h : At v p (a :: s)) : v[p]? = some a := by
  rw [← List.head?_drop, h.rest, List.head?_cons]

lemma At.append (h : At v p (s ++ t)) : At v (p + s.length) t := by
  have := h.length
  rw [List.length_append] at this
  refine ⟨by omega, ?_⟩
  rw [← List.drop_drop, h.rest, List.drop_left]

lemma At.next (h : At v p (a :: s)) : At v (p + 1) s :=
  h.append (s := [a])

/-! ## Loops -/

/-- `while (p < end && cond(*p)) p++;` -/
def skipWhile (cond : α → Bool) (v : List α) : ℕ → ℕ → Option ℕ
  | 0, _ => none
  | fuel + 1, p =>
    if p < v.length then
      v[p]?.bind fun a => if cond a then skipWhile cond v fuel (p + 1) else some p
    else some p

lemma skipWhile_eq {cond : α → Bool} {fuel : ℕ} (h : At v p s) (hfuel : s.length < fuel) :
    skipWhile cond v fuel p = some (p + (s.takeWhile cond).length) := by
  induction fuel generalizing p s with
  | zero => omega
  | succ fuel ih =>
    cases s with
    | nil => rw [skipWhile, if_neg h.not_lt, List.takeWhile_nil, List.length_nil, Nat.add_zero]
    | cons a s =>
      rw [List.length_cons] at hfuel
      rw [skipWhile, if_pos h.lt, h.read, Option.bind_some]
      by_cases ha : cond a = true
      · rw [if_pos ha, ih h.next (by omega), List.takeWhile_cons_of_pos ha, List.length_cons]
        congr 1
        omega
      · rw [if_neg ha, List.takeWhile_cons_of_neg ha, List.length_nil, Nat.add_zero]

lemma At.skip (cond : α → Bool) (h : At v p s) :
    At v (p + (s.takeWhile cond).length) (s.dropWhile cond) := by
  apply At.append
  rwa [List.takeWhile_append_dropWhile]

/-- `while (stop > start && cond(stop[-1])) stop--;` -/
def trimEnd (cond : α → Bool) (v : List α) (start : ℕ) : ℕ → Option ℕ
  | 0 => some 0
  | stop + 1 =>
    if start < stop + 1 then
      v[stop]?.bind fun a => if cond a then trimEnd cond v start stop else some (stop + 1)
    else some (stop + 1)

lemma trimEnd_eq {cond : α → Bool} (h : At v p (s ++ t)) :
    trimEnd cond v p (p + s.length) = some (p + (s.rdropWhile cond).length) := by
  induction s using List.reverseRecOn generalizing t with
  | nil =>
    rw [List.rdropWhile_nil, List.length_nil, Nat.add_zero]
    cases p with
    | zero => rfl
    | succ p => rw [trimEnd, if_neg (lt_irrefl _)]
  | append_singleton s a ih =>
    rw [List.append_assoc] at h
    have hread : v[p + s.length]? = some a := h.append.read
    rw [List.length_append, List.length_singleton, ← Nat.add_assoc, trimEnd, if_pos (by omega), hread,
      Option.bind_some]
    by_cases ha : cond a = true
    · rw [if_pos ha, ih h, List.rdropWhile_concat_pos _ _ _ ha]
    · rw [if_neg ha, List.rdropWhile_concat_neg _ _ _ ha, List.length_append, List.length_singleton,
        Nat.add_assoc]

/-- `for (i = 0; i < len; i++) if (f(tok[i]) != expected[i]) return 0; return 1;` -/
def equalFrom [DecidableEq α] (f : α → α) (v : List α) : ℕ → List α → Option Bool
  | _, [] => some true
  | p, e :: expected =>
    v[p]?.bind fun a => if f a ≠ e then some false else equalFrom f v (p + 1) expected

lemma equalFrom_eq [DecidableEq α] {f : α → α} {expected : List α} (h : At v p (s ++ t))
    (hlen : s.length = expected.length) :
    equalFrom f v p expected = some (decide (s.map f = expected)) := by
  induction expected generalizing p s with
  | nil =>
    rw [List.length_nil, List.length_eq_zero_iff] at hlen
    subst hlen
    rfl
  | cons e expected ih =>
    cases s with
    | nil => cases hlen
    | cons a s =>
      rw [List.cons_append] at h
      rw [equalFrom, h.read, Option.bind_some]
      by_cases ha : f a = e
      · rw [if_neg (not_not.mpr ha), ih h.next (Nat.succ.inj hlen)]
        simp [ha]
      · rw [if_pos ha]
        simp [ha]

/-! ## Segments -/

/-- The text `t` begins with something that ends a run of `cond`, or is at its end. -/
def Stops (cond : α → Bool) (t : List α) : Prop :=
  ∀ a ∈ t.head?, cond a = false

lemma Stops.weaken {c d : α → Bool} (ht : Stops c t) (h : ∀ a, d a = true → c a = true) :
    Stops d t := by
  intro a ha
  by_contra hd
  have hc := h a (by simpa using hd)
  rw [ht a ha] at hc
  exact Bool.false_ne_true hc

lemma stops_dropWhile (cond : α → Bool) (s : List α) : Stops cond (s.dropWhile cond) := by
  intro a ha
  have h := List.head?_dropWhile_not cond s
  rw [Option.mem_def.mp ha] at h
  simpa using h

lemma Stops.takeWhile_append {cond : α → Bool} (ht : Stops cond t) (s : List α) :
    (s ++ t).takeWhile cond = s.takeWhile cond := by
  induction s with
  | nil =>
    cases t with
    | nil => rfl
    | cons a t =>
      have ha : cond a = false := ht a rfl
      rw [List.nil_append, List.takeWhile_cons_of_neg (by simp [ha]), List.takeWhile_nil]
  | cons b s ih => simp only [List.cons_append, List.takeWhile_cons, ih]

lemma Stops.dropWhile_append {cond : α → Bool} (ht : Stops cond t) (s : List α) :
    (s ++ t).dropWhile cond = s.dropWhile cond ++ t := by
  have h := List.takeWhile_append_dropWhile (p := cond) (l := s ++ t)
  rw [ht.takeWhile_append] at h
  apply @List.append_cancel_left _ (s.takeWhile cond)
  rw [h, ← List.append_assoc, List.takeWhile_append_dropWhile]

lemma At.skip_segment {cond : α → Bool} (h : At v p (s ++ t)) (ht : Stops cond t) :
    skipWhile cond v (v.length + 1) p = some (p + (s.takeWhile cond).length) ∧
      At v (p + (s.takeWhile cond).length) (s.dropWhile cond ++ t) := by
  have hskip := h.skip cond
  rw [ht.takeWhile_append, ht.dropWhile_append] at hskip
  refine ⟨?_, hskip⟩
  rw [skipWhile_eq h h.lt_fuel, ht.takeWhile_append]

end Cursor
