import Lamseryn.Model.ConnStore

/-!
# The descriptor store is a finite map

`StoreInv s m` says that the table of `s` stores the map `m` with correct counters and at least one
empty cell.  Every operation keeps it and acts on `m` as its name says (`StoreInv.get`,
`StoreInv.put`, `StoreInv.del`); growing the table leaves `m` alone (`StoreInv.resize`).

The loops are followed by the distance from the home cell of the descriptor: `Probed.exists_stop` says
where a search ends, and one lemma for each loop says that it passes over the cells before.
-/

namespace Lamseryn

open OpenAddressing

variable {V : Type*}

/-- The table of `s` stores `m`. -/
structure StoreInv (s : FdStore V) (m : ℕ → Option (Option V)) : Prop where
  capPow : ∃ p, s.fdCap = 2 ^ p
  probed : Probed id s.cells
  stores : Represents s.cells m
  size : s.fdSize = s.cells.countP Cell.isLive
  tombs : s.fdTombs = s.cells.countP Cell.isTomb
  room : s.cells.countP Cell.isTomb + s.cells.countP Cell.isLive < s.cells.length

variable {s : FdStore V} {m : ℕ → Option (Option V)} {fd d : ℕ} {c : Option V}

/-! ## Positions -/

lemma StoreInv.capPos (h : StoreInv s m) : 0 < s.fdCap :=
  lt_of_le_of_lt (Nat.zero_le _) h.room

lemma StoreInv.hasEmpty (h : StoreInv s m) : .empty ∈ s.cells :=
  empty_mem_of_counts h.room

lemma FdStore.and_fmMask (h : ∃ p, s.fdCap = 2 ^ p) (i : ℕ) : i &&& s.fmMask = i % s.fdCap := by
  obtain ⟨p, hp⟩ := h
  rw [FdStore.fmMask, hp, Nat.and_two_pow_sub_one_eq_mod]

/-- The step of a probe loop, `d` cells after the home cell. -/
lemma FdStore.next_cell (h : ∃ p, s.fdCap = 2 ^ p) (fd d : ℕ) :
    ((fd + d) % s.fdCap + 1) &&& s.fmMask = (fd + (d + 1)) % s.fdCap := by
  rw [FdStore.and_fmMask h, Nat.mod_add_mod, Nat.add_assoc]

lemma cell_of_not_stopsAt {t : List (Cell ℕ (Option V))} {i : ℕ} (hi : i < t.length)
    (h : ¬ StopsAt t fd i) :
    t[i]? = some .tomb ∨ ∃ k v, k ≠ fd ∧ t[i]? = some (.live k v) := by
  rcases hcell : t[i] with _ | _ | ⟨k, v⟩
  · exact absurd (Or.inl (by rw [List.getElem?_eq_getElem hi, hcell])) h
  · exact Or.inl (by rw [List.getElem?_eq_getElem hi, hcell])
  · have hget : t[i]? = some (.live k v) := by rw [List.getElem?_eq_getElem hi, hcell]
    refine Or.inr ⟨k, v, ?_, hget⟩
    rintro rfl
    exact h (Or.inr ⟨v, hget⟩)

/-- A search for `fd` passes over the cells from distance `e` up to distance `d`. -/
def PassesFrom (s : FdStore V) (fd e d : ℕ) : Prop :=
  ∀ a, e ≤ a → a < d → ¬ StopsAt s.cells fd ((fd + a) % s.fdCap)

lemma PassesFrom.cell {e : ℕ} (h : PassesFrom s fd e d) (he : e < d) (hcap : 0 < s.fdCap) :
    s.cells[(fd + e) % s.fdCap]? = some .tomb ∨
      ∃ k v, k ≠ fd ∧ s.cells[(fd + e) % s.fdCap]? = some (.live k v) :=
  cell_of_not_stopsAt (Nat.mod_lt _ hcap) (h e le_rfl he)

lemma PassesFrom.next {e : ℕ} (h : PassesFrom s fd e d) : PassesFrom s fd (e + 1) d :=
  fun a ha had => h a (by omega) had

/-! ## The loops -/

/-- `conn_store_get` reaches the cell where the search ends. -/
lemma connStoreGetLoop_pass (hpow : ∃ p, s.fdCap = 2 ^ p) (hd : d < s.fdCap) :
    ∀ (j e rounds : ℕ), e + j = d → PassesFrom s fd e d →
      connStoreGetLoop s fd (fd % s.fdCap) (rounds + j) ((fd + e) % s.fdCap) =
        connStoreGetLoop s fd (fd % s.fdCap) rounds ((fd + d) % s.fdCap) := by
  intro j
  induction j with
  | zero =>
    intro e rounds hdist _
    rw [Nat.add_zero] at hdist ⊢
    rw [hdist]
  | succ j ih =>
    intro e rounds hdist hpass
    have hnext : (fd + (e + 1)) % s.fdCap ≠ fd % s.fdCap := by
      intro hwrap
      have hzero := offset_injective (by omega) (by omega) (hwrap.trans (by rw [Nat.add_zero]) :
        (fd + (e + 1)) % s.fdCap = (fd + 0) % s.fdCap)
      omega
    rw [← ih (e + 1) rounds (by omega) hpass.next, ← Nat.add_assoc, connStoreGetLoop,
      FdStore.next_cell hpow]
    rcases hpass.cell (by omega) (by omega) with hcell | ⟨k, v, hk, hcell⟩
    · simp only [hcell, if_neg hnext]
    · simp only [hcell, if_neg hk, if_neg hnext]

/-- `conn_store_del` reaches the cell where the search ends. -/
lemma connStoreDelLoop_pass (hpow : ∃ p, s.fdCap = 2 ^ p) (hd : d < s.fdCap) :
    ∀ (j e rounds : ℕ), e + j = d → PassesFrom s fd e d →
      connStoreDelLoop s fd (rounds + j) ((fd + e) % s.fdCap) =
        connStoreDelLoop s fd rounds ((fd + d) % s.fdCap) := by
  intro j
  induction j with
  | zero =>
    intro e rounds hdist _
    rw [Nat.add_zero] at hdist ⊢
    rw [hdist]
  | succ j ih =>
    intro e rounds hdist hpass
    rw [← ih (e + 1) rounds (by omega) hpass.next, ← Nat.add_assoc, connStoreDelLoop,
      FdStore.next_cell hpow]
    rcases hpass.cell (by omega) (by omega) with hcell | ⟨k, v, hk, hcell⟩
    · simp only [hcell]
    · simp only [hcell, if_neg hk]

/-- A tombstone that `conn_store_put` has met on its way. -/
def TombOnPath (s : FdStore V) (fd d : ℕ) (tombIdx : Option ℕ) : Prop :=
  ∀ i ∈ tombIdx, s.cells[i]? = some .tomb ∧ ∃ a < d, i = (fd + a) % s.fdCap

/-- `conn_store_put` reaches the cell where the search ends, with a tombstone it passed over if there
was one. -/
lemma connStorePutLoop_pass (hpow : ∃ p, s.fdCap = 2 ^ p) (hd : d < s.fdCap) :
    ∀ (j e rounds : ℕ) (tombIdx : Option ℕ), e + j = d → PassesFrom s fd e d →
      TombOnPath s fd d tombIdx → ∃ tombIdx', TombOnPath s fd d tombIdx' ∧
        connStorePutLoop s fd c (rounds + j) ((fd + e) % s.fdCap) tombIdx =
          connStorePutLoop s fd c rounds ((fd + d) % s.fdCap) tombIdx' := by
  intro j
  induction j with
  | zero =>
    intro e rounds tombIdx hdist _ htomb
    rw [Nat.add_zero] at hdist
    exact ⟨tombIdx, htomb, by rw [hdist, Nat.add_zero]⟩
  | succ j ih =>
    intro e rounds tombIdx hdist hpass htomb
    rw [← Nat.add_assoc, connStorePutLoop, FdStore.next_cell hpow]
    rcases hpass.cell (by omega) (by omega) with hcell | ⟨k, v, hk, hcell⟩
    · simp only [hcell]
      apply ih (e + 1) rounds _ (by omega) hpass.next
      intro i hi
      rcases Option.or_eq_some_iff.mp hi with hi | ⟨-, hi⟩
      · exact htomb i hi
      · cases hi
        exact ⟨hcell, e, by omega, rfl⟩
    · simp only [hcell, if_neg hk]
      exact ih (e + 1) rounds tombIdx (by omega) hpass.next htomb

/-! ## One changed cell -/

/-- Where a search for `fd` ends. -/
lemma StoreInv.exists_stop (h : StoreInv s m) (fd : ℕ) :
    ∃ d < s.fdCap, PassesFrom s fd 0 d ∧
      ((∃ v, s.cells[(fd + d) % s.fdCap]? = some (.live fd v)) ∨
        s.cells[(fd + d) % s.fdCap]? = some .empty ∧
          ∀ (i : ℕ) v, s.cells[i]? ≠ some (.live fd v)) := by
  obtain ⟨d, hd, hpass, hend⟩ := h.probed.exists_stop h.hasEmpty fd
  exact ⟨d, hd, fun a _ had => hpass a had, hend⟩

lemma PassesFrom.chain (h : PassesFrom s fd 0 d) {e : ℕ} (he : e ≤ d) :
    Chain id s.cells fd e := by
  intro a ha hempty
  exact h a (Nat.zero_le a) (by omega) (Or.inl hempty)

lemma countP_set_of_getElem? {p : Cell ℕ (Option V) → Bool} {t : List (Cell ℕ (Option V))} {i : ℕ}
    {old : Cell ℕ (Option V)} (new : Cell ℕ (Option V)) (h : t[i]? = some old) :
    (t.set i new).countP p + (if p old then 1 else 0) =
      t.countP p + (if p new then 1 else 0) := by
  obtain ⟨hi, hold⟩ := List.getElem?_eq_some_iff.mp h
  have hle : (if p old then 1 else 0) ≤ t.countP p := by
    split
    · rename_i hp
      exact List.countP_pos_iff.mpr ⟨old, hold ▸ List.getElem_mem hi, hp⟩
    · exact Nat.zero_le _
  rw [List.countP_set hi, hold]
  omega

/-- Updating the value of a key. -/
lemma StoreInv.update (h : StoreInv s m) {i : ℕ} {v : Option V}
    (hi : s.cells[i]? = some (.live fd v)) :
    StoreInv { s with cells := s.cells.set i (.live fd c) } (Function.update m fd (some c)) := by
  have hlt : i < s.cells.length := (List.getElem?_eq_some_iff.mp hi).1
  have hlive := countP_set_of_getElem? (p := Cell.isLive) (.live fd c) hi
  have htomb := countP_set_of_getElem? (p := Cell.isTomb) (.live fd c) hi
  simp only [Cell.isLive, Cell.isTomb, if_true, Bool.false_eq_true, if_false] at hlive htomb
  constructor
  · simpa [FdStore.fdCap] using h.capPow
  · apply h.probed.set hlt (by simp)
    · rintro k w hkw
      cases hkw
      exact h.probed.chain i fd v hi
    · rintro k w hkw j w' hj
      cases hkw
      exact h.probed.unique j i fd w' v hj hi
  · apply h.stores.set_live hlt
    intro j k w hj
    constructor
    · rintro rfl
      rw [hi] at hj
      simp only [Option.some.injEq, Cell.live.injEq] at hj
      exact hj.1.symm
    · rintro rfl
      exact h.probed.unique j i k w v hj hi
  · have := h.size
    dsimp only
    omega
  · have := h.tombs
    dsimp only
    omega
  · have := h.room
    dsimp only
    rw [List.length_set]
    omega

lemma StoreInv.bury (h : StoreInv s m) {i : ℕ} {v : Option V}
    (hi : s.cells[i]? = some (.live fd v)) :
    StoreInv { cells := s.cells.set i .tomb, fdSize := s.fdSize - 1, fdTombs := s.fdTombs + 1 }
      (Function.update m fd none) := by
  have hlt : i < s.cells.length := (List.getElem?_eq_some_iff.mp hi).1
  have hlive := countP_set_of_getElem? (p := Cell.isLive) .tomb hi
  have htomb := countP_set_of_getElem? (p := Cell.isTomb) .tomb hi
  simp only [Cell.isLive, Cell.isTomb, if_true, Bool.false_eq_true, if_false] at hlive htomb
  have hsize := h.size
  have htombs := h.tombs
  have hroom := h.room
  constructor
  · simpa [FdStore.fdCap] using h.capPow
  · exact h.probed.set hlt (by simp) (fun k w hkw => by cases hkw) (fun k w hkw => by cases hkw)
  · exact h.stores.set_tomb h.probed hi
  · dsimp only
    omega
  · dsimp only
    omega
  · dsimp only
    rw [List.length_set]
    omega

/-- Writing a new key into a cell on the way of its search, which held a tombstone or was empty. -/
lemma StoreInv.insert (h : StoreInv s m) {i a : ℕ} (wasTomb : Bool)
    (hfree : s.cells[i]? = some (if wasTomb then .tomb else .empty))
    (hroom : wasTomb = false → s.fdSize + s.fdTombs + 1 < s.fdCap)
    (habsent : ∀ (j : ℕ) v, s.cells[j]? ≠ some (.live fd v)) (ha : a < s.fdCap)
    (hi : i = (fd + a) % s.fdCap) (hchain : Chain id s.cells fd a) :
    StoreInv
      { cells := s.cells.set i (.live fd c)
        fdSize := s.fdSize + 1
        fdTombs := if wasTomb then s.fdTombs - 1 else s.fdTombs }
      (Function.update m fd (some c)) := by
  have hlt : i < s.cells.length := (List.getElem?_eq_some_iff.mp hfree).1
  have hlive := countP_set_of_getElem? (p := Cell.isLive) (.live fd c) hfree
  have htomb := countP_set_of_getElem? (p := Cell.isTomb) (.live fd c) hfree
  have hsize := h.size
  have htombs := h.tombs
  have hcells := h.room
  rw [FdStore.fdCap] at hroom
  constructor
  · simpa [FdStore.fdCap] using h.capPow
  · apply h.probed.set hlt (by simp)
    · rintro k w hkw
      cases hkw
      exact ⟨a, ha, hi, hchain⟩
    · rintro k w hkw j w' hj
      cases hkw
      exact absurd hj (habsent j w')
  · apply h.stores.set_live hlt
    intro j k w hj
    constructor
    · rintro rfl
      rw [hfree] at hj
      cases wasTomb <;> simp at hj
    · rintro rfl
      exact absurd hj (habsent j w)
  · cases wasTomb with
    | false => simp [Cell.isLive] at hlive; dsimp only; omega
    | true => simp [Cell.isLive] at hlive; dsimp only; omega
  · cases wasTomb with
    | false => simp [Cell.isTomb] at htomb ⊢; omega
    | true => simp [Cell.isTomb] at htomb ⊢; omega
  · dsimp only
    rw [List.length_set]
    cases wasTomb with
    | false =>
      have hmore := hroom rfl
      simp [Cell.isLive, Cell.isTomb] at hlive htomb
      omega
    | true =>
      simp [Cell.isLive, Cell.isTomb] at hlive htomb
      omega

/-! ## The operations -/

/-- `conn_store_get` returns the value of the map. -/
lemma StoreInv.get (h : StoreInv s m) (fd : ℕ) : connStoreGet s fd = some (m fd).join := by
  obtain ⟨d, hd, hpass, hend⟩ := h.exists_stop fd
  have hcap : s.fdCap ≠ 0 := by omega
  obtain ⟨r, hr⟩ : ∃ r, s.fdCap = r + 1 + d := ⟨s.fdCap - d - 1, by omega⟩
  have hloop := connStoreGetLoop_pass h.capPow hd d 0 (r + 1) (by omega) hpass
  rw [Nat.add_zero fd, ← hr] at hloop
  rw [connStoreGet, if_neg hcap, FdStore.and_fmMask h.capPow, hloop, connStoreGetLoop]
  rcases hend with ⟨v, hlive⟩ | ⟨hempty, habsent⟩
  · have hm : m fd = some v := (h.stores fd v).mpr ⟨_, hlive⟩
    simp [hlive, hm]
  · have hm : m fd = none := h.stores.eq_none habsent
    simp [hempty, hm]

/-- `conn_store_del` removes the descriptor. -/
lemma StoreInv.del (h : StoreInv s m) (fd : ℕ) :
    ∃ s', connStoreDel s fd = some s' ∧ StoreInv s' (Function.update m fd none) := by
  obtain ⟨d, hd, hpass, hend⟩ := h.exists_stop fd
  have hcap : s.fdCap ≠ 0 := by omega
  obtain ⟨r, hr⟩ : ∃ r, s.fdCap = r + 1 + d := ⟨s.fdCap - d - 1, by omega⟩
  have hloop := connStoreDelLoop_pass h.capPow hd d 0 (r + 1) (by omega) hpass
  rw [Nat.add_zero fd, ← hr] at hloop
  rw [connStoreDel, if_neg hcap, FdStore.and_fmMask h.capPow, hloop, connStoreDelLoop]
  rcases hend with ⟨v, hlive⟩ | ⟨hempty, habsent⟩
  · simp only [hlive, if_true]
    exact ⟨_, rfl, h.bury hlive⟩
  · have hm : Function.update m fd none = m := by
      rw [Function.update_eq_self_iff]
      exact (h.stores.eq_none habsent).symm
    simp only [hempty]
    exact ⟨s, rfl, hm.symm ▸ h⟩

/-- The loop of `conn_store_put` stores the connection if the table has room for one more. -/
lemma StoreInv.putLoop (h : StoreInv s m) (hroom : s.fdSize + s.fdTombs + 1 < s.fdCap) (fd : ℕ)
    (c : Option V) :
    ∃ s', connStorePutLoop s fd c s.fdCap (fd &&& s.fmMask) none = some s' ∧
      StoreInv s' (Function.update m fd (some c)) := by
  obtain ⟨d, hd, hpass, hend⟩ := h.exists_stop fd
  obtain ⟨r, hr⟩ : ∃ r, s.fdCap = r + 1 + d := ⟨s.fdCap - d - 1, by omega⟩
  obtain ⟨tombIdx, htomb, hloop⟩ := connStorePutLoop_pass (c := c) h.capPow hd d 0 (r + 1) none
    (by omega) hpass (fun i hi => by cases hi)
  rw [Nat.add_zero fd, ← hr] at hloop
  rw [FdStore.and_fmMask h.capPow, hloop, connStorePutLoop]
  rcases hend with ⟨v, hlive⟩ | ⟨hempty, habsent⟩
  · simp only [hlive, if_true]
    exact ⟨_, rfl, h.update hlive⟩
  · simp only [hempty]
    refine ⟨_, rfl, ?_⟩
    cases tombIdx with
    | none =>
      exact h.insert false hempty (fun _ => hroom) habsent hd rfl (hpass.chain le_rfl)
    | some i =>
      obtain ⟨hcell, a, ha, hi⟩ := htomb i rfl
      exact h.insert true hcell (fun hno => by cases hno) habsent (by omega) hi
        (hpass.chain (by omega))

/-! ## Growing -/

/-- In a table without tombstones the loop of `fm_resize` stops where a search for a new key ends. -/
lemma fmFreeSlot_pass (hpow : ∃ p, s.fdCap = 2 ^ p) (hd : d < s.fdCap)
    (hclean : .tomb ∉ s.cells) :
    ∀ (j e rounds : ℕ), e + j = d → PassesFrom s fd e d →
      fmFreeSlot s (rounds + j) ((fd + e) % s.fdCap) =
        fmFreeSlot s rounds ((fd + d) % s.fdCap) := by
  intro j
  induction j with
  | zero =>
    intro e rounds hdist _
    rw [Nat.add_zero] at hdist ⊢
    rw [hdist]
  | succ j ih =>
    intro e rounds hdist hpass
    rw [← ih (e + 1) rounds (by omega) hpass.next, ← Nat.add_assoc, fmFreeSlot,
      FdStore.next_cell hpow]
    rcases hpass.cell (by omega) (by omega) with hcell | ⟨k, v, -, hcell⟩
    · exact absurd (List.mem_of_getElem? hcell) hclean
    · simp only [hcell]

lemma StoreInv.move (h : StoreInv s m) (hclean : .tomb ∉ s.cells)
    (hroom : s.fdSize + s.fdTombs + 1 < s.fdCap) (hfd : m fd = none) (c : Option V) :
    ∃ j, fmFreeSlot s s.fdCap (fd &&& s.fmMask) = some j ∧
      StoreInv { s with cells := s.cells.set j (.live fd c), fdSize := s.fdSize + 1 }
        (Function.update m fd (some c)) := by
  obtain ⟨d, hd, hpass, hend⟩ := h.exists_stop fd
  obtain ⟨r, hr⟩ : ∃ r, s.fdCap = r + 1 + d := ⟨s.fdCap - d - 1, by omega⟩
  have hloop := fmFreeSlot_pass h.capPow hd hclean d 0 (r + 1) (by omega) hpass
  rw [Nat.add_zero fd, ← hr] at hloop
  rw [FdStore.and_fmMask h.capPow, hloop, fmFreeSlot]
  rcases hend with ⟨v, hlive⟩ | ⟨hempty, habsent⟩
  · have hsome : m fd = some v := (h.stores fd v).mpr ⟨_, hlive⟩
    rw [hfd] at hsome
    cases hsome
  · simp only [hempty]
    refine ⟨_, rfl, ?_⟩
    exact h.insert false hempty (fun _ => hroom) habsent hd rfl (hpass.chain le_rfl)

/-- No key is in two cells. -/
def DistinctKeys (t : List (Cell ℕ (Option V))) : Prop :=
  t.Pairwise fun a b => ∀ k v w, a = .live k v → b ≠ .live k w

lemma distinctKeys_of_probed {t : List (Cell ℕ (Option V))} (h : Probed id t) : DistinctKeys t := by
  rw [DistinctKeys, List.pairwise_iff_getElem]
  intro i j hi hj hij k v w hv hw
  have hi' : t[i]? = some (.live k v) := by rw [List.getElem?_eq_getElem hi, hv]
  have hj' : t[j]? = some (.live k w) := by rw [List.getElem?_eq_getElem hj, hw]
  have := h.unique i j k v w hi' hj'
  omega

/-- Moving the keys of `old` into a table without tombstones that holds none of them. -/
lemma StoreInv.rehash (old : List (Cell ℕ (Option V))) :
    ∀ {s : FdStore V} {m : ℕ → Option (Option V)}, StoreInv s m → .tomb ∉ s.cells →
      DistinctKeys old → (∀ k v, .live k v ∈ old → m k = none) →
      s.fdSize + s.fdTombs + old.countP Cell.isLive < s.fdCap →
      ∃ s' m', fmRehash s old = some s' ∧ StoreInv s' m' ∧
        (∀ k v, m' k = some v ↔ m k = some v ∨ .live k v ∈ old) ∧ s'.fdCap = s.fdCap ∧
        s'.fdTombs = s.fdTombs ∧ s'.fdSize = s.fdSize + old.countP Cell.isLive := by
  induction old with
  | nil =>
    intro s m h _ _ _ _
    exact ⟨s, m, rfl, h, by simp, rfl, rfl, rfl⟩
  | cons cell old ih =>
    intro s m h hclean hdist hnew hroom
    have hdist' : DistinctKeys old := List.Pairwise.of_cons hdist
    have hnew' : ∀ k v, .live k v ∈ old → m k = none :=
      fun k v hkv => hnew k v (List.mem_cons_of_mem _ hkv)
    cases cell with
    | empty =>
      have hcount : (Cell.empty :: old).countP Cell.isLive = old.countP Cell.isLive :=
        List.countP_cons_of_neg (by simp [Cell.isLive])
      rw [hcount] at hroom
      simpa [fmRehash, hcount] using ih h hclean hdist' hnew' hroom
    | tomb =>
      have hcount : (Cell.tomb :: old).countP Cell.isLive = old.countP Cell.isLive :=
        List.countP_cons_of_neg (by simp [Cell.isLive])
      rw [hcount] at hroom
      simpa [fmRehash, hcount] using ih h hclean hdist' hnew' hroom
    | live k v =>
      have hcount : (Cell.live k v :: old).countP Cell.isLive = old.countP Cell.isLive + 1 :=
        List.countP_cons_of_pos (by simp [Cell.isLive])
      rw [hcount] at hroom
      obtain ⟨j, hslot, hinv⟩ := h.move hclean (by omega) (hnew k v (by simp)) v
      have hclean' : (Cell.tomb : Cell ℕ (Option V)) ∉ s.cells.set j (.live k v) := by
        intro hmem
        rcases List.mem_or_eq_of_mem_set hmem with hmem | heq
        · exact hclean hmem
        · cases heq
      have hother : ∀ k' v', .live k' v' ∈ old → Function.update m k (some v) k' = none := by
        intro k' v' hmem
        have hne : k' ≠ k := by
          rintro rfl
          exact (List.pairwise_cons.mp hdist).1 _ hmem k' v v' rfl rfl
        rw [Function.update_of_ne hne]
        exact hnew' k' v' hmem
      have hroom' : s.fdSize + 1 + s.fdTombs + old.countP Cell.isLive <
          (s.cells.set j (.live k v)).length := by
        rw [List.length_set]
        rw [FdStore.fdCap] at hroom
        omega
      obtain ⟨s', m', hre, hinv', hm', hcap, htombs, hsize⟩ :=
        ih hinv hclean' hdist' hother hroom'
      have hkeys : ∀ k' v', m' k' = some v' ↔ m k' = some v' ∨ .live k' v' ∈ Cell.live k v :: old := by
        intro k' v'
        rw [hm' k' v', List.mem_cons]
        by_cases hk : k' = k
        · subst hk
          rw [Function.update_self, hnew k' v (by simp)]
          simp [eq_comm]
        · rw [Function.update_of_ne hk]
          simp [hk]
      refine ⟨s', m', ?_, hinv', hkeys, ?_, htombs, ?_⟩
      · rw [fmRehash, hslot]
        exact hre
      · rw [hcap, FdStore.fdCap, FdStore.fdCap, List.length_set]
      · rw [hsize, hcount]
        dsimp only
        omega

lemma storeInv_emptyStore (p : ℕ) : StoreInv (emptyStore (2 ^ p) : FdStore V) fun _ => none := by
  have hnone : ∀ q : Cell ℕ (Option V) → Bool, q .empty = false →
      (List.replicate (2 ^ p) Cell.empty).countP q = 0 := by
    intro q hq
    simp [List.countP_replicate, hq]
  constructor
  · exact ⟨p, List.length_replicate⟩
  · exact Probed.replicate_empty id (2 ^ p)
  · exact represents_replicate_empty (2 ^ p)
  · exact (hnone Cell.isLive rfl).symm
  · exact (hnone Cell.isTomb rfl).symm
  · rw [emptyStore, hnone Cell.isLive rfl, hnone Cell.isTomb rfl, List.length_replicate]
    positivity

/-- `fm_resize` keeps the map and clears the tombstones. -/
lemma StoreInv.resize (h : StoreInv s m) :
    ∃ s', fmResize s (s.fdCap * 2) = some s' ∧ StoreInv s' m ∧ s'.fdCap = s.fdCap * 2 ∧
      s'.fdTombs = 0 ∧ s'.fdSize = s.fdSize := by
  obtain ⟨p, hp⟩ := h.capPow
  have hcap : s.fdCap * 2 = 2 ^ (p + 1) := by rw [hp, pow_succ]
  have hroom := h.room
  have hempty : StoreInv (emptyStore (s.fdCap * 2) : FdStore V) fun _ => none :=
    hcap ▸ storeInv_emptyStore (p + 1)
  have hclean : (Cell.tomb : Cell ℕ (Option V)) ∉ (emptyStore (s.fdCap * 2)).cells := by
    simp [emptyStore]
  have hmore : 0 + 0 + s.cells.countP Cell.isLive <
      (emptyStore (s.fdCap * 2) : FdStore V).fdCap := by
    simp only [emptyStore, FdStore.fdCap, List.length_replicate]
    omega
  obtain ⟨s', m', hre, hinv, hm', hcap', htombs, hsize⟩ :=
    StoreInv.rehash s.cells hempty hclean (distinctKeys_of_probed h.probed) (fun _ _ _ => rfl) hmore
  have hmm : m' = m := by
    funext k
    apply Option.ext
    intro v
    rw [hm' k v, h.stores k v]
    simp [List.mem_iff_getElem?]
  have hlen : (emptyStore (s.fdCap * 2) : FdStore V).fdCap = s.fdCap * 2 := by
    simp [emptyStore, FdStore.fdCap]
  refine ⟨s', hre, hmm ▸ hinv, hcap'.trans hlen, htombs, ?_⟩
  rw [hsize, h.size]
  simp [emptyStore]

/-- `conn_store_put` stores the connection or fails and changes nothing; it fails only if it has to grow
the table and cannot. -/
lemma StoreInv.put (h : StoreInv s m) (fd : ℕ) (c : Option V) (alloc : Bool) :
    ∃ s' ok, connStorePut s fd c alloc = some (s', ok) ∧ (ok = false → s' = s) ∧
      (ok = true ↔ (s.mustGrow → alloc = true)) ∧
      StoreInv s' (if ok then Function.update m fd (some c) else m) := by
  have hcap : s.fdCap ≠ 0 := h.capPos.ne'
  unfold connStorePut
  rw [if_neg hcap]
  by_cases hgrow : s.mustGrow
  · rw [if_pos hgrow]
    cases alloc with
    | false => exact ⟨s, false, rfl, fun _ => rfl, by simp [hgrow], h⟩
    | true =>
      obtain ⟨s₁, hre, hinv, hcap₁, htombs, hsize⟩ := h.resize
      have hroom := h.room
      rw [← h.size, ← h.tombs] at hroom
      obtain ⟨s', hput, hinv'⟩ := hinv.putLoop
        (by rw [hcap₁, htombs, hsize]; rw [FdStore.fdCap]; omega) fd c
      refine ⟨s', true, ?_, (fun hno => by cases hno), by simp, hinv'⟩
      simp [hre, hput]
  · rw [if_neg hgrow]
    have hroom : s.fdSize + s.fdTombs + 1 < s.fdCap := by
      simp only [FdStore.mustGrow, not_or] at hgrow
      omega
    obtain ⟨s', hput, hinv'⟩ := h.putLoop hroom fd c
    refine ⟨s', true, ?_, (fun hno => by cases hno), by simp [hgrow], hinv'⟩
    simp [hput]

/-! ## Sequences of calls -/

/-- The value of the last successful put of `fd` that no removal followed, or `NULL`. -/
def lastStored (fd : ℕ) (calls : List (StoreCall V)) : Option V :=
  calls.foldl
    (fun stored call =>
      match call with
      | .put k c true => if k = fd then c else stored
      | .del k => if k = fd then none else stored
      | _ => stored)
    none

/-- What one call does to the map. -/
lemma StoreInv.call (h : StoreInv s m) {before : List (StoreCall V)}
    (hm : ∀ fd, (m fd).join = lastStored fd before) (op : StoreOp V) :
    ∃ s' c m', s.call op = some (s', c) ∧ StoreInv s' m' ∧
      (∀ fd, (m' fd).join = lastStored fd (before ++ [c])) ∧
      ∀ fd ret, c = .get fd ret → ret = lastStored fd before := by
  cases op with
  | put fd c alloc =>
    obtain ⟨s', ok, hput, -, -, hinv⟩ := h.put fd c alloc
    refine ⟨s', .put fd c ok, _, by simp [FdStore.call, hput], hinv, ?_, by simp⟩
    intro k
    rw [lastStored, List.foldl_append, ← lastStored, ← hm k]
    cases ok with
    | false => simp
    | true =>
      by_cases hk : fd = k
      · simp [hk]
      · simp [hk, Ne.symm hk]
  | get fd =>
    have hget := h.get fd
    refine ⟨s, .get fd (m fd).join, m, by simp [FdStore.call, hget], h, ?_, ?_⟩
    · intro k
      rw [lastStored, List.foldl_append, ← lastStored, ← hm k]
      simp
    · rintro k ret hc
      cases hc
      exact hm fd
  | del fd =>
    obtain ⟨s', hdel, hinv⟩ := h.del fd
    refine ⟨s', .del fd, _, by simp [FdStore.call, hdel], hinv, ?_, by simp⟩
    intro k
    rw [lastStored, List.foldl_append, ← lastStored, ← hm k]
    by_cases hk : fd = k
    · simp [hk]
    · simp [hk, Ne.symm hk]

lemma StoreInv.calls (ops : List (StoreOp V)) :
    ∀ {s : FdStore V} {m : ℕ → Option (Option V)} {before : List (StoreCall V)}, StoreInv s m →
      (∀ fd, (m fd).join = lastStored fd before) →
      ∃ s' cs m', s.calls ops = some (s', cs) ∧ StoreInv s' m' ∧
        (∀ fd, (m' fd).join = lastStored fd (before ++ cs)) ∧
        ∀ mid fd ret rest, cs = mid ++ .get fd ret :: rest →
          ret = lastStored fd (before ++ mid) := by
  induction ops with
  | nil =>
    intro s m before h hm
    exact ⟨s, [], m, rfl, h, by simpa using hm, by simp⟩
  | cons op ops ih =>
    intro s m before h hm
    obtain ⟨s₁, c, m₁, hcall, h₁, hm₁, hget⟩ := h.call hm op
    obtain ⟨s', cs, m', hcalls, h', hm', hgets⟩ := ih h₁ hm₁
    refine ⟨s', c :: cs, m', by simp [FdStore.calls, hcall, hcalls], h', by simpa using hm', ?_⟩
    intro mid fd ret rest hsplit
    cases mid with
    | nil =>
      simp only [List.nil_append, List.cons.injEq] at hsplit
      simpa using hget fd ret hsplit.1
    | cons c' mid =>
      simp only [List.cons_append, List.cons.injEq] at hsplit
      have := hgets mid fd ret rest hsplit.2
      simpa [hsplit.1] using this

lemma growCap_eq_pow (rounds p capHint : ℕ) : ∃ q, growCap rounds (2 ^ p) capHint = 2 ^ q := by
  induction rounds generalizing p with
  | zero => exact ⟨p, rfl⟩
  | succ rounds ih =>
    rw [growCap]
    split
    · rw [← pow_succ]
      exact ih (p + 1)
    · exact ⟨p, rfl⟩

lemma storeInv_connStoreInit (capHint : ℕ) :
    StoreInv (connStoreInit capHint : FdStore V) fun _ => none := by
  obtain ⟨q, hq⟩ := growCap_eq_pow 55 8 capHint
  rw [connStoreInit, show (256 : ℕ) = 2 ^ 8 by norm_num, hq]
  exact storeInv_emptyStore q

lemma connStoreInit_calls (capHint : ℕ) (ops : List (StoreOp V)) :
    ∃ s calls m, (connStoreInit capHint).calls ops = some (s, calls) ∧ StoreInv s m ∧
      (∀ fd, (m fd).join = lastStored fd calls) ∧
      ∀ mid fd ret rest, calls = mid ++ .get fd ret :: rest → ret = lastStored fd mid := by
  have hnone : ∀ fd, ((fun _ => none : ℕ → Option (Option V)) fd).join = lastStored fd [] :=
    fun _ => rfl
  exact StoreInv.calls ops (storeInv_connStoreInit capHint) hnone

/-- After any sequence of calls, with any outcomes of the allocations, every call has returned and
returns again, every `get` has returned the value of the last successful put of its descriptor that no
removal followed, a failed `put` changes no mapping, the counters are right and a cell is empty. -/
theorem connStore_refines_map (capHint : ℕ) (ops : List (StoreOp V)) :
    ∃ s calls, (connStoreInit capHint).calls ops = some (s, calls) ∧
      (∀ mid fd ret rest, calls = mid ++ .get fd ret :: rest → ret = lastStored fd mid) ∧
      (∀ fd, connStoreGet s fd = some (lastStored fd calls)) ∧
      (∀ op, (s.call op).isSome) ∧
      (∀ fd c alloc s', connStorePut s fd c alloc = some (s', false) →
        ∀ fd', connStoreGet s' fd' = connStoreGet s fd') ∧
      s.fdSize = s.cells.countP Cell.isLive ∧ s.fdTombs = s.cells.countP Cell.isTomb ∧
      .empty ∈ s.cells := by
  obtain ⟨s, calls, m, hcalls, h, hm, hgets⟩ := connStoreInit_calls capHint ops
  refine ⟨s, calls, hcalls, hgets, ?_, ?_, ?_, h.size, h.tombs, h.hasEmpty⟩
  · intro fd
    rw [h.get fd, hm fd]
  · intro op
    obtain ⟨s', c, m', hcall, -⟩ := h.call hm op
    rw [hcall]
    rfl
  · intro fd c alloc s' hput fd'
    obtain ⟨s₁, ok, hput₁, hsame, -⟩ := h.put fd c alloc
    rw [hput] at hput₁
    cases hput₁
    rw [hsame rfl]

end Lamseryn
