import Mathlib

/-!
# Open addressing with linear probing

A table is a list of cells; a key is looked for from its home position, one cell after the other and
around the end of the list, until an empty cell or the key itself is met.  A removed key leaves a
tombstone, which a search passes over.

`Probed` is the invariant that makes such searches correct: no empty cell lies between a key and its
home, and no key is stored twice.  It is kept by every change of a cell to something that is not empty
as long as the new contents obey it (`Probed.set`), and it tells where a search ends
(`Probed.exists_stop`).  `Represents` relates a table to the finite map it stores.
-/

namespace OpenAddressing

variable {K V : Type*}

/-- A cell of a table. -/
inductive Cell (K V : Type*) where
  | empty
  | tomb
  | live (k : K) (v : V)
  deriving DecidableEq, Repr

def Cell.isEmpty : Cell K V → Bool
  | .empty => true
  | _ => false

def Cell.isTomb : Cell K V → Bool
  | .tomb => true
  | _ => false

def Cell.isLive : Cell K V → Bool
  | .live _ _ => true
  | _ => false

/-! ## Positions -/

lemma exists_offset {n i : ℕ} (home : ℕ) (hi : i < n) : ∃ d < n, (home + d) % n = i := by
  have hn : 0 < n := by omega
  have hhome : home % n < n := Nat.mod_lt _ hn
  refine ⟨(i + n - home % n) % n, Nat.mod_lt _ hn, ?_⟩
  rw [Nat.add_mod, Nat.mod_mod, ← Nat.add_mod]
  have hsum : home + (i + n - home % n) = i + n * (home / n + 1) := by
    have hdiv := Nat.div_add_mod home n
    have hmul : n * (home / n + 1) = n * (home / n) + n := by ring
    omega
  rw [hsum, Nat.add_mul_mod_self_left, Nat.mod_eq_of_lt hi]

lemma offset_injective {n home d e : ℕ} (hd : d < n) (he : e < n)
    (h : (home + d) % n = (home + e) % n) : d = e := by
  have hmod : d ≡ e [MOD n] := Nat.ModEq.add_left_cancel' home h
  have := hmod.eq_of_lt_of_lt hd he
  exact this

/-! ## The invariant of searches -/

/-- A search for `k` ends at position `i`. -/
def StopsAt (t : List (Cell K V)) (k : K) (i : ℕ) : Prop :=
  t[i]? = some .empty ∨ ∃ v, t[i]? = some (.live k v)

/-- The key `k` can be found `d` steps after its home: no cell before is empty. -/
def Chain (home : K → ℕ) (t : List (Cell K V)) (k : K) (d : ℕ) : Prop :=
  ∀ e < d, t[(home k + e) % t.length]? ≠ some .empty

/-- No empty cell lies between a key and its home, and no key is stored twice. -/
structure Probed (home : K → ℕ) (t : List (Cell K V)) : Prop where
  chain : ∀ (j : ℕ) k v, t[j]? = some (.live k v) →
    ∃ d < t.length, j = (home k + d) % t.length ∧ Chain home t k d
  unique : ∀ (i j : ℕ) k v w, t[i]? = some (.live k v) → t[j]? = some (.live k w) → i = j

variable {home : K → ℕ} {t : List (Cell K V)} {k : K} {v : V} {i : ℕ}

lemma Probed.replicate_empty (home : K → ℕ) (n : ℕ) :
    Probed home (List.replicate n (Cell.empty : Cell K V)) := by
  have hno : ∀ (j : ℕ) (k : K) (v : V), (List.replicate n Cell.empty)[j]? ≠ some (.live k v) := by
    intro j k v h
    simp [List.getElem?_replicate] at h
  exact ⟨fun j k v h => absurd h (hno j k v), fun i _ k v _ h _ => absurd h (hno i k v)⟩

/-- A search from the home of a key ends, and where it ends it has found the key or there is none. -/
lemma Probed.exists_stop (hp : Probed home t) (hempty : .empty ∈ t) (k : K) :
    ∃ d < t.length, (∀ e < d, ¬ StopsAt t k ((home k + e) % t.length)) ∧
      ((∃ v, t[(home k + d) % t.length]? = some (.live k v)) ∨
        t[(home k + d) % t.length]? = some .empty ∧ ∀ (i : ℕ) v, t[i]? ≠ some (.live k v)) := by
  classical
  obtain ⟨m, hm, hcell⟩ := List.getElem_of_mem hempty
  obtain ⟨dm, hdm, hpos⟩ := exists_offset (home k) hm
  have hex : ∃ d, StopsAt t k ((home k + d) % t.length) :=
    ⟨dm, Or.inl (by rw [hpos, List.getElem?_eq_getElem hm, hcell])⟩
  refine ⟨Nat.find hex, lt_of_le_of_lt (Nat.find_min' hex ?_) hdm, fun e he => Nat.find_min hex he, ?_⟩
  · exact Or.inl (by rw [hpos, List.getElem?_eq_getElem hm, hcell])
  · rcases Nat.find_spec hex with hend | hend
    · right
      refine ⟨hend, fun i v hlive => ?_⟩
      -- the search would have met the key before this empty cell
      obtain ⟨d, -, hi, hchain⟩ := hp.chain i k v hlive
      have hstop : StopsAt t k ((home k + d) % t.length) := Or.inr ⟨v, hi ▸ hlive⟩
      have hle : Nat.find hex ≤ d := Nat.find_min' hex hstop
      rcases hle.lt_or_eq with hlt | heq
      · exact hchain _ hlt hend
      · rw [heq, ← hi, hlive] at hend
        simp at hend
    · exact Or.inl hend

/-- Changing a cell to something that is not empty keeps the invariant if the new contents obey it. -/
lemma Probed.set (hp : Probed home t) (hi : i < t.length) {c : Cell K V} (hc : c ≠ .empty)
    (hchain : ∀ k v, c = .live k v →
      ∃ d < t.length, i = (home k + d) % t.length ∧ Chain home t k d)
    (hunique : ∀ k v, c = .live k v → ∀ (j : ℕ) w, t[j]? = some (.live k w) → j = i) :
    Probed home (t.set i c) := by
  have hkeep : ∀ k d, Chain home t k d → Chain home (t.set i c) k d := by
    intro k d h e he hempty
    rw [List.length_set, List.getElem?_set] at hempty
    split at hempty
    · simp only [Option.some.injEq] at hempty
      exact hc hempty
    · exact h e he hempty
  have hcell : ∀ (j : ℕ) k v, (t.set i c)[j]? = some (.live k v) →
      j = i ∧ c = .live k v ∨ j ≠ i ∧ t[j]? = some (.live k v) := by
    intro j k v h
    rw [List.getElem?_set] at h
    by_cases hij : i = j
    · rw [if_pos hij, if_pos hi] at h
      exact Or.inl ⟨hij.symm, by simpa using h⟩
    · rw [if_neg hij] at h
      exact Or.inr ⟨fun hji => hij hji.symm, h⟩
  constructor
  · intro j k v h
    rw [List.length_set]
    rcases hcell j k v h with ⟨rfl, hcv⟩ | ⟨-, h⟩
    · obtain ⟨d, hd, hj, hch⟩ := hchain k v hcv
      exact ⟨d, hd, hj, hkeep k d hch⟩
    · obtain ⟨d, hd, hj, hch⟩ := hp.chain j k v h
      exact ⟨d, hd, hj, hkeep k d hch⟩
  · intro a b k v w ha hb
    rcases hcell a k v ha with ⟨hai, hcv⟩ | ⟨hai, hta⟩
    · rcases hcell b k w hb with ⟨hbi, -⟩ | ⟨hbi, htb⟩
      · rw [hai, hbi]
      · exact absurd (hunique k v hcv b w htb) hbi
    · rcases hcell b k w hb with ⟨hbi, hcw⟩ | ⟨-, htb⟩
      · exact absurd (hunique k w hcw a v hta) hai
      · exact hp.unique a b k v w hta htb

/-! ## Counting cells -/

lemma length_eq_counts (t : List (Cell K V)) :
    t.length = t.countP Cell.isEmpty + t.countP Cell.isTomb + t.countP Cell.isLive := by
  induction t with
  | nil => rfl
  | cons c t ih =>
    rw [List.countP_cons, List.countP_cons, List.countP_cons, List.length_cons, ih]
    cases c with
    | empty => simp [Cell.isEmpty, Cell.isTomb, Cell.isLive]; omega
    | tomb => simp [Cell.isEmpty, Cell.isTomb, Cell.isLive]; omega
    | live k v => simp [Cell.isEmpty, Cell.isTomb, Cell.isLive]; omega

lemma empty_mem_of_counts (h : t.countP Cell.isTomb + t.countP Cell.isLive < t.length) :
    .empty ∈ t := by
  have hpos : 0 < t.countP Cell.isEmpty := by
    have := length_eq_counts t
    omega
  obtain ⟨c, hc, hempty⟩ := List.countP_pos_iff.mp hpos
  cases c with
  | empty => exact hc
  | tomb => simp [Cell.isEmpty] at hempty
  | live k v => simp [Cell.isEmpty] at hempty

/-! ## The map that a table stores -/

/-- The table stores the finite map `m`. -/
def Represents (t : List (Cell K V)) (m : K → Option V) : Prop :=
  ∀ k v, m k = some v ↔ ∃ i : ℕ, t[i]? = some (.live k v)

lemma represents_replicate_empty (n : ℕ) :
    Represents (List.replicate n (Cell.empty : Cell K V)) fun _ => none := by
  intro k v
  simp [List.getElem?_replicate]

lemma Represents.eq_none {m : K → Option V} (hm : Represents t m)
    (habsent : ∀ (i : ℕ) v, t[i]? ≠ some (.live k v)) : m k = none := by
  cases hk : m k with
  | none => rfl
  | some v =>
    obtain ⟨i, hi⟩ := (hm k v).mp hk
    exact absurd hi (habsent i v)

variable [DecidableEq K]

/-- Writing a key into its own cell, or into a cell without a key if no cell holds it. -/
lemma Represents.set_live {m : K → Option V} (hm : Represents t m) (hi : i < t.length)
    (hown : ∀ (j : ℕ) k' w, t[j]? = some (.live k' w) → (j = i ↔ k' = k)) (v : V) :
    Represents (t.set i (.live k v)) (Function.update m k (some v)) := by
  intro k' w
  by_cases hk : k' = k
  · subst hk
    simp only [Function.update_self, Option.some.injEq, List.getElem?_set]
    constructor
    · intro hvw
      exact ⟨i, by simp [hi, hvw]⟩
    · rintro ⟨j, hj⟩
      by_cases hij : i = j
      · simpa [hij, hij ▸ hi] using hj
      · rw [if_neg hij] at hj
        exact absurd ((hown j k' w hj).mpr rfl).symm hij
  · rw [Function.update_of_ne hk, hm k' w]
    constructor
    · rintro ⟨j, hj⟩
      have hji : j ≠ i := fun h => hk ((hown j k' w hj).mp h)
      exact ⟨j, by rw [List.getElem?_set_ne hji.symm, hj]⟩
    · rintro ⟨j, hj⟩
      rw [List.getElem?_set] at hj
      split at hj
      · simp only [Option.some.injEq, Cell.live.injEq] at hj
        exact absurd hj.1.symm hk
      · exact ⟨j, hj⟩

lemma Represents.set_tomb {m : K → Option V} (hm : Represents t m) (hp : Probed home t)
    (hi : t[i]? = some (.live k v)) :
    Represents (t.set i .tomb) (Function.update m k none) := by
  intro k' w
  by_cases hk : k' = k
  · subst hk
    simp only [Function.update_self, reduceCtorEq, List.getElem?_set, false_iff, not_exists]
    intro j hj
    split at hj
    · simp at hj
    · rename_i hij
      exact hij (hp.unique i j k' v w hi hj)
  · rw [Function.update_of_ne hk, hm k' w]
    constructor
    · rintro ⟨j, hj⟩
      have hji : j ≠ i := by
        rintro rfl
        rw [hi] at hj
        simp only [Option.some.injEq, Cell.live.injEq] at hj
        exact hk hj.1.symm
      exact ⟨j, by rw [List.getElem?_set_ne hji.symm, hj]⟩
    · rintro ⟨j, hj⟩
      rw [List.getElem?_set] at hj
      split at hj
      · simp at hj
      · exact ⟨j, hj⟩

end OpenAddressing
