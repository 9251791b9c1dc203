import Mathlib

/-!
# A ring of slots between one producer and one consumer

The producer writes the slot at `head` and then moves `head`; the consumer moves `tail`.  Both indices
run modulo the capacity, and one slot stays free, so that equal indices mean an empty ring.

`Holds cap slots head tail sent taken` relates the indices to a history: `sent` is everything that was
published, and the first `taken` of it was released.  The facts about indices are read off the history
(`Holds.empty_iff`, `Holds.full_iff`), and each operation moves the history as its name says.

`Counted cap slots head tail count items` is the same for a ring that keeps the number of its items, and
can therefore be filled to the last slot.
-/

namespace RingBuffer

variable {α : Type*}

lemma eq_of_mod_eq {cap a b : ℕ} (h : a % cap = b % cap) (hle : a ≤ b) (hlt : b < a + cap) :
    a = b := by
  have hdvd : cap ∣ b - a := (Nat.modEq_iff_dvd' hle).mp h
  have hzero := Nat.eq_zero_of_dvd_of_lt hdvd (by omega)
  omega

/-- The ring holds what was sent and not yet taken. -/
structure Holds (cap : ℕ) (slots : ℕ → α) (head tail : ℕ) (sent : List α) (taken : ℕ) : Prop where
  head_eq : head = sent.length % cap
  tail_eq : tail = taken % cap
  taken_le : taken ≤ sent.length
  room : sent.length < taken + cap
  slot : ∀ k (h : k < sent.length), taken ≤ k → slots (k % cap) = sent[k]

variable {cap head tail taken : ℕ} {slots : ℕ → α} {sent : List α}

lemma Holds.init (hcap : 0 < cap) (slots : ℕ → α) : Holds cap slots 0 0 [] 0 :=
  ⟨by simp, by simp, by simp, by simpa using hcap, nofun⟩

lemma Holds.empty_iff (h : Holds cap slots head tail sent taken) :
    head = tail ↔ taken = sent.length := by
  rw [h.head_eq, h.tail_eq]
  exact ⟨fun heq => eq_of_mod_eq heq.symm h.taken_le h.room, fun heq => by rw [heq]⟩

lemma Holds.full_iff (h : Holds cap slots head tail sent taken) :
    (head + 1) % cap = tail ↔ sent.length + 1 = taken + cap := by
  have hnext : (head + 1) % cap = (sent.length + 1) % cap := by
    rw [h.head_eq, Nat.mod_add_mod]
  have hroom := h.room
  have hle := h.taken_le
  rw [hnext, h.tail_eq]
  constructor
  · intro heq
    by_cases hfull : sent.length + 1 = taken + cap
    · exact hfull
    · have heq' := eq_of_mod_eq heq.symm (by omega) (by omega)
      omega
  · intro heq
    rw [heq, Nat.add_mod_right]

lemma Holds.write (h : Holds cap slots head tail sent taken) (x : α) :
    Holds cap (Function.update slots head x) head tail sent taken := by
  refine ⟨h.head_eq, h.tail_eq, h.taken_le, h.room, fun k hk htaken => ?_⟩
  have hroom := h.room
  have hne : k % cap ≠ head := by
    rw [h.head_eq]
    intro heq
    have := eq_of_mod_eq heq hk.le (by omega)
    omega
  rw [Function.update_of_ne hne]
  exact h.slot k hk htaken

lemma Holds.push (h : Holds cap slots head tail sent taken)
    (hfree : sent.length + 1 < taken + cap) :
    Holds cap slots ((head + 1) % cap) tail (sent ++ [slots head]) taken := by
  have hle := h.taken_le
  refine ⟨?_, h.tail_eq, ?_, ?_, fun k hk htaken => ?_⟩
  · rw [h.head_eq, Nat.mod_add_mod, List.length_append, List.length_singleton]
  · rw [List.length_append]
    omega
  · rw [List.length_append, List.length_singleton]
    exact hfree
  · rw [List.length_append, List.length_singleton] at hk
    by_cases hlast : k < sent.length
    · rw [List.getElem_append_left hlast]
      exact h.slot k hlast htaken
    · have hk' : k = sent.length := by omega
      subst hk'
      rw [← h.head_eq]
      simp

lemma Holds.release (h : Holds cap slots head tail sent taken) {taken' : ℕ} (hle : taken ≤ taken')
    (hsent : taken' ≤ sent.length) : Holds cap slots head (taken' % cap) sent taken' := by
  have hroom := h.room
  exact ⟨h.head_eq, rfl, hsent, by omega, fun k hk htaken => h.slot k hk (hle.trans htaken)⟩

/-! ## A ring with a count -/

/-- The ring holds `items`, from the tail on. -/
structure Counted (cap : ℕ) (slots : ℕ → α) (head tail count : ℕ) (items : List α) : Prop where
  count_eq : count = items.length
  length_le : items.length ≤ cap
  tail_lt : tail < cap
  head_eq : head = (tail + items.length) % cap
  slot : ∀ k (h : k < items.length), slots ((tail + k) % cap) = items[k]

variable {count : ℕ} {items : List α}

lemma Counted.init (hcap : 0 < cap) (slots : ℕ → α) : Counted cap slots 0 0 0 [] :=
  ⟨rfl, Nat.zero_le cap, hcap, by simp, nofun⟩

lemma Counted.push (h : Counted cap slots head tail count items) (hroom : count < cap) (x : α) :
    Counted cap (Function.update slots head x) ((head + 1) % cap) tail (count + 1)
      (items ++ [x]) := by
  have hlen : items.length < cap := h.count_eq ▸ hroom
  refine ⟨by simp [h.count_eq], by simpa using hlen, h.tail_lt, ?_, fun k hk => ?_⟩
  · rw [h.head_eq, Nat.mod_add_mod, List.length_append, List.length_singleton, Nat.add_assoc]
  · rw [List.length_append, List.length_singleton] at hk
    by_cases hlast : k < items.length
    · have hne : (tail + k) % cap ≠ head := by
        rw [h.head_eq]
        intro heq
        have := eq_of_mod_eq heq (by omega) (by omega)
        omega
      rw [Function.update_of_ne hne, List.getElem_append_left hlast]
      exact h.slot k hlast
    · have hk' : k = items.length := by omega
      subst hk'
      rw [← h.head_eq, Function.update_self]
      simp

lemma Counted.drop (h : Counted cap slots head tail count items) {n : ℕ} (hn : n ≤ items.length) :
    Counted cap slots head ((tail + n) % cap) (count - n) (items.drop n) := by
  have hlen : (items.drop n).length = items.length - n := List.length_drop
  refine ⟨by rw [hlen, h.count_eq], ?_, ?_, ?_, fun k hk => ?_⟩
  · have hle := h.length_le
    omega
  · exact Nat.mod_lt _ (Nat.zero_lt_of_lt h.tail_lt)
  · rw [h.head_eq, Nat.mod_add_mod, hlen]
    congr 1
    omega
  · rw [Nat.mod_add_mod, List.getElem_drop, Nat.add_assoc]
    exact h.slot (n + k) (by omega)

/-- The contents of `n` slots from an index on. -/
def gather (cap : ℕ) (slots : ℕ → α) : ℕ → ℕ → List α
  | _, 0 => []
  | idx, n + 1 => slots idx :: gather cap slots ((idx + 1) % cap) n

lemma Counted.gather_eq {n : ℕ} (h : Counted cap slots head tail count items) (hn : n ≤ items.length) :
    gather cap slots tail n = items.take n := by
  induction n generalizing tail count items with
  | zero => rfl
  | succ n ih =>
    cases items with
    | nil => simp at hn
    | cons x items =>
      have hfirst := h.slot 0 (Nat.zero_lt_succ _)
      have hrest := @Counted.drop _ _ _ _ _ _ _ h 1 (by simp)
      rw [Nat.add_zero, Nat.mod_eq_of_lt h.tail_lt] at hfirst
      rw [gather, hfirst, ih hrest (by simpa using hn)]
      rfl

end RingBuffer
