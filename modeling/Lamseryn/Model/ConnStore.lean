import Lamseryn.Framework.OpenAddressing

/-!
# The descriptor store (`src/conn_store.c`)

The per-thread map from descriptors to connections: an open-addressing table whose capacity is a power
of two.  `fd_keys` and `fd_vals` are one list of cells, with `FM_EMPTY` and `FM_TOMB` as the cells
`empty` and `tomb`; a stored connection is a pointer, which may be `NULL`.  Descriptors are not negative.

The probe loops of `conn_store_put`, `conn_store_del` and `fm_resize` have no test that stops them after
a round through the table.  Here they run for as many rounds as the table has cells, and their result is
`none` when they have not returned by then: every cell has been seen, so the loop never returns.
-/

namespace Lamseryn

open OpenAddressing

variable {V : Type*}

/-- The thread-local state; `fd_cap` is the number of cells. -/
structure FdStore (V : Type*) where
  cells : List (Cell ℕ (Option V)) := []
  fdSize : ℕ := 0
  fdTombs : ℕ := 0

/-- `fd_cap`. -/
def FdStore.fdCap (s : FdStore V) : ℕ :=
  s.cells.length

/-- `fm_mask`. -/
def FdStore.fmMask (s : FdStore V) : ℕ :=
  s.fdCap - 1

/-- The doubling loop of `conn_store_init`; from 256 it stays below `2 ^ 64` for 55 rounds. -/
def growCap : ℕ → ℕ → ℕ → ℕ
  | 0, cap, _ => cap
  | rounds + 1, cap, capHint => if cap < capHint then growCap rounds (cap * 2) capHint else cap

/-- A table without entries. -/
def emptyStore (cap : ℕ) : FdStore V :=
  { cells := List.replicate cap .empty }

/-- `conn_store_init` when its allocations succeed. -/
def connStoreInit (capHint : ℕ) : FdStore V :=
  emptyStore (growCap 55 256 capHint)

/-! ## Resizing -/

/-- The inner loop of `fm_resize`: the next cell without a key. -/
def fmFreeSlot (s : FdStore V) : ℕ → ℕ → Option ℕ
  | 0, _ => none
  | rounds + 1, j =>
    match s.cells[j]? with
    | some (.live _ _) => fmFreeSlot s rounds ((j + 1) &&& s.fmMask)
    | _ => some j

/-- The outer loop of `fm_resize`: move the keys of the old cells into the new table. -/
def fmRehash : FdStore V → List (Cell ℕ (Option V)) → Option (FdStore V)
  | s, [] => some s
  | s, .live k v :: old =>
    match fmFreeSlot s s.fdCap (k &&& s.fmMask) with
    | none => none
    | some j => fmRehash { s with cells := s.cells.set j (.live k v), fdSize := s.fdSize + 1 } old
  | s, _ :: old => fmRehash s old

/-- `fm_resize` when its allocations succeed. -/
def fmResize (s : FdStore V) (newCap : ℕ) : Option (FdStore V) :=
  fmRehash (emptyStore newCap) s.cells

/-! ## Operations -/

/-- The loop of `conn_store_get`. -/
def connStoreGetLoop (s : FdStore V) (fd start : ℕ) : ℕ → ℕ → Option (Option V)
  | 0, _ => none
  | rounds + 1, i =>
    let next := (i + 1) &&& s.fmMask
    match s.cells[i]? with
    | some .tomb => if next = start then some none else connStoreGetLoop s fd start rounds next
    | some (.live k v) =>
      if k = fd then some v
      else if next = start then some none
      else connStoreGetLoop s fd start rounds next
    | _ => some none

/-- `conn_store_get`. -/
def connStoreGet (s : FdStore V) (fd : ℕ) : Option (Option V) :=
  if s.fdCap = 0 then some none
  else connStoreGetLoop s fd (fd &&& s.fmMask) s.fdCap (fd &&& s.fmMask)

/-- The loop of `conn_store_put`, with `tomb_idx`. -/
def connStorePutLoop (s : FdStore V) (fd : ℕ) (c : Option V) :
    ℕ → ℕ → Option ℕ → Option (FdStore V)
  | 0, _, _ => none
  | rounds + 1, i, tombIdx =>
    let next := (i + 1) &&& s.fmMask
    match s.cells[i]? with
    | some .tomb => connStorePutLoop s fd c rounds next (tombIdx.or (some i))
    | some (.live k _) =>
      if k = fd then some { s with cells := s.cells.set i (.live fd c) }
      else connStorePutLoop s fd c rounds next tombIdx
    | _ =>
      some
        { cells := s.cells.set (tombIdx.getD i) (.live fd c)
          fdSize := s.fdSize + 1
          fdTombs := if tombIdx.isSome then s.fdTombs - 1 else s.fdTombs }

/-- The test of `conn_store_put` for a table that has to grow. -/
def FdStore.mustGrow (s : FdStore V) : Prop :=
  s.fdCap * 7 < (s.fdSize + 1) * 10 ∨ s.fdCap < s.fdTombs * 2 ∨ s.fdCap ≤ s.fdSize + s.fdTombs + 1

instance (s : FdStore V) : Decidable s.mustGrow :=
  inferInstanceAs (Decidable (_ ∨ _))

/-- `conn_store_put`, with the outcome of the allocations of `fm_resize`; the flag is a return of zero. -/
def connStorePut (s : FdStore V) (fd : ℕ) (c : Option V) (alloc : Bool) :
    Option (FdStore V × Bool) :=
  if s.fdCap = 0 then some (s, false)
  else if s.mustGrow then
    if alloc then do
      let s ← fmResize s (s.fdCap * 2)
      let s ← connStorePutLoop s fd c s.fdCap (fd &&& s.fmMask) none
      return (s, true)
    else some (s, false)
  else do
    let s ← connStorePutLoop s fd c s.fdCap (fd &&& s.fmMask) none
    return (s, true)

/-- The loop of `conn_store_del`. -/
def connStoreDelLoop (s : FdStore V) (fd : ℕ) : ℕ → ℕ → Option (FdStore V)
  | 0, _ => none
  | rounds + 1, i =>
    match s.cells[i]? with
    | some .tomb => connStoreDelLoop s fd rounds ((i + 1) &&& s.fmMask)
    | some (.live k _) =>
      if k = fd then
        some
          { cells := s.cells.set i .tomb
            fdSize := s.fdSize - 1
            fdTombs := s.fdTombs + 1 }
      else connStoreDelLoop s fd rounds ((i + 1) &&& s.fmMask)
    | _ => some s

/-- `conn_store_del`. -/
def connStoreDel (s : FdStore V) (fd : ℕ) : Option (FdStore V) :=
  if s.fdCap = 0 then some s else connStoreDelLoop s fd s.fdCap (fd &&& s.fmMask)

/-! ## Sequences of calls -/

/-- A call of the store; the flag of `put` is the outcome of the allocations it may make. -/
inductive StoreOp (V : Type*) where
  | put (fd : ℕ) (c : Option V) (alloc : Bool)
  | get (fd : ℕ)
  | del (fd : ℕ)

/-- A call with what it returned. -/
inductive StoreCall (V : Type*) where
  | put (fd : ℕ) (c : Option V) (ok : Bool)
  | get (fd : ℕ) (ret : Option V)
  | del (fd : ℕ)

/-- One call. -/
def FdStore.call (s : FdStore V) : StoreOp V → Option (FdStore V × StoreCall V)
  | .put fd c alloc => do
    let (s, ok) ← connStorePut s fd c alloc
    return (s, .put fd c ok)
  | .get fd => do
    let ret ← connStoreGet s fd
    return (s, .get fd ret)
  | .del fd => do
    let s ← connStoreDel s fd
    return (s, .del fd)

/-- A sequence of calls, with the record of what they returned. -/
def FdStore.calls : FdStore V → List (StoreOp V) → Option (FdStore V × List (StoreCall V))
  | s, [] => some (s, [])
  | s, op :: ops => do
    let (s, c) ← s.call op
    let (s, cs) ← s.calls ops
    return (s, c :: cs)

end Lamseryn
