import Mathlib

/-!
# Assembling fields from pieces

A producer reports a list of fields, each a name and a value, as a sequence of pieces: any number
of consecutive name pieces, then any number of consecutive value pieces.  A reader that is told
nothing about the end of a field can only notice it when the next name begins.  This module is
that reader over an arbitrary alphabet: its state (`Pending`), its step, and what it has
completed after a sequence of pieces.

The reader ignores pieces of length zero.  A field whose value is empty is therefore never seen
to have a value, and its name runs into the next one; `completed_map_eq_iff` says that this is the
only way in which the reader can misreport a list of fields.
-/

namespace FieldAssembly

variable {α : Type*}

/-- A field: a name with its value. -/
structure Field (α : Type*) where
  name : List α
  value : List α
  deriving DecidableEq

/-- A piece of a name or of a value. -/
inductive Piece (α : Type*) where
  | name (piece : List α)
  | value (piece : List α)

/-- What the reader holds between two pieces: nothing, an unfinished name, or a name with the
value read so far. -/
inductive Pending (α : Type*) where
  | idle
  | name (n : List α)
  | value (n v : List α)

/-- A non-empty name piece continues an unfinished name or closes the field that is open. -/
def Pending.addName : Pending α → List α → Pending α × List (Field α)
  | .idle, x => (.name x, [])
  | .name n, x => (.name (n ++ x), [])
  | .value n v, x => (.name x, [⟨n, v⟩])

/-- A non-empty value piece opens the value or continues it. -/
def Pending.addValue : Pending α → List α → Pending α
  | .idle, x => .value [] x
  | .name n, x => .value n x
  | .value n v, x => .value n (v ++ x)

/-- One piece: the new state and the fields it completes. -/
def Pending.step (p : Pending α) : Piece α → Pending α × List (Field α)
  | .name [] => (p, [])
  | .value [] => (p, [])
  | .name (a :: x) => p.addName (a :: x)
  | .value (a :: x) => (p.addValue (a :: x), [])

/-- A sequence of pieces: the final state and the fields completed on the way. -/
def Pending.feed : Pending α → List (Piece α) → Pending α × List (Field α)
  | p, [] => (p, [])
  | p, x :: xs =>
    let r := (p.step x).1.feed xs
    (r.1, (p.step x).2 ++ r.2)

/-- The field that is open at the end, if it has a value. -/
def Pending.flush : Pending α → List (Field α)
  | .value n v => [⟨n, v⟩]
  | _ => []

@[simp] lemma Pending.feed_nil (p : Pending α) : p.feed [] = (p, []) := rfl

lemma Pending.feed_cons (p : Pending α) (x : Piece α) (xs : List (Piece α)) :
    p.feed (x :: xs) = (((p.step x).1.feed xs).1, (p.step x).2 ++ ((p.step x).1.feed xs).2) := rfl

lemma Pending.feed_append (p : Pending α) (xs ys : List (Piece α)) :
    p.feed (xs ++ ys) =
      (((p.feed xs).1.feed ys).1, (p.feed xs).2 ++ ((p.feed xs).1.feed ys).2) := by
  induction xs generalizing p with
  | nil => simp
  | cons x xs ih => simp only [List.cons_append, feed_cons, ih, List.append_assoc]

/-! ## Deliveries -/

/-- How one field is delivered: the pieces of its name, then the pieces of its value. -/
structure Delivery (α : Type*) where
  namePieces : List (List α)
  valuePieces : List (List α)

/-- The field a delivery reports. -/
def Delivery.field (d : Delivery α) : Field α :=
  ⟨d.namePieces.flatten, d.valuePieces.flatten⟩

/-- The pieces of a delivery in order. -/
def Delivery.pieces (d : Delivery α) : List (Piece α) :=
  d.namePieces.map .name ++ d.valuePieces.map .value

lemma Pending.feed_names (p : Pending α) (xs : List (List α)) :
    p.feed (xs.map .name) = if xs.flatten = [] then (p, []) else p.addName xs.flatten := by
  induction xs generalizing p with
  | nil => simp
  | cons x xs ih =>
    cases x with
    | nil => simpa [feed_cons, step] using ih p
    | cons a x =>
      simp only [List.map_cons, feed_cons, step, ih, List.flatten_cons, List.cons_append,
        reduceCtorEq, if_false]
      by_cases hxs : xs.flatten = []
      · simp [hxs]
      · cases p <;> simp [hxs, addName]

lemma Pending.feed_values (p : Pending α) (xs : List (List α)) :
    p.feed (xs.map .value) =
      (if xs.flatten = [] then p else p.addValue xs.flatten, []) := by
  induction xs generalizing p with
  | nil => simp
  | cons x xs ih =>
    cases x with
    | nil => simpa [feed_cons, step] using ih p
    | cons a x =>
      simp only [List.map_cons, feed_cons, step, ih, List.flatten_cons, List.cons_append,
        reduceCtorEq, if_false, List.append_nil]
      by_cases hxs : xs.flatten = []
      · simp [hxs]
      · cases p <;> simp [hxs, addValue]

/-- A delivered field, whatever its splitting: the name closes what was open, and the value is
noticed exactly when it is not empty. -/
lemma Pending.feed_delivery (p : Pending α) (d : Delivery α) (hname : d.field.name ≠ []) :
    p.feed d.pieces =
      (if d.field.value = [] then (p.addName d.field.name).1
        else (p.addName d.field.name).1.addValue d.field.value,
       (p.addName d.field.name).2) := by
  have hn : d.namePieces.flatten ≠ [] := hname
  rw [Delivery.pieces, feed_append, feed_names, feed_values, if_neg hn]
  simp only [List.append_nil]
  rfl

/-- All fields the reader reports for a list of deliveries: those it completed and the one still
open at the end. -/
def Pending.completed (p : Pending α) (ds : List (Delivery α)) : List (Field α) :=
  (p.feed (ds.flatMap Delivery.pieces)).2 ++ (p.feed (ds.flatMap Delivery.pieces)).1.flush

lemma Pending.completed_nil (p : Pending α) : p.completed ([] : List (Delivery α)) = p.flush := rfl

lemma Pending.completed_cons (p : Pending α) (d : Delivery α) (ds : List (Delivery α)) :
    p.completed (d :: ds) = (p.feed d.pieces).2 ++ (p.feed d.pieces).1.completed ds := by
  simp only [completed, List.flatMap_cons, feed_append, List.append_assoc]

/-- Every field with a non-empty value is reported once, so the number of reported fields is the
number of such fields. -/
lemma Pending.completed_length (p : Pending α) (ds : List (Delivery α))
    (hname : ∀ d ∈ ds, d.field.name ≠ []) :
    (p.completed ds).length =
      p.flush.length + ((ds.map Delivery.field).filter fun f => !f.value.isEmpty).length := by
  induction ds generalizing p with
  | nil => simp [completed_nil]
  | cons d ds ih =>
    have hd := hname d (by simp)
    have hds : ∀ d ∈ ds, d.field.name ≠ [] := fun x hx => hname x (by simp [hx])
    rw [completed_cons, List.length_append, ih _ hds, feed_delivery p d hd, List.map_cons]
    by_cases hv : d.field.value = []
    · cases p <;> simp [hv, addName, flush]
    · cases p <;> simp [hv, addName, addValue, flush] <;> omega

/-- Fields with non-empty values are reported exactly, after whatever was open before. -/
lemma Pending.completed_of_values_ne_nil (p : Pending α) (ds : List (Delivery α))
    (hp : ∀ n, p ≠ .name n) (hname : ∀ d ∈ ds, d.field.name ≠ [])
    (hvalue : ∀ d ∈ ds, d.field.value ≠ []) :
    p.completed ds = p.flush ++ ds.map Delivery.field := by
  induction ds generalizing p with
  | nil => simp [completed_nil]
  | cons d ds ih =>
    have hd := hname d (by simp)
    have hv := hvalue d (by simp)
    have hopen : (p.feed d.pieces).1 = .value d.field.name d.field.value := by
      rw [feed_delivery p d hd]
      cases p with
      | idle => simp [hv, addName, addValue]
      | name n => exact absurd rfl (hp n)
      | value n v => simp [hv, addName, addValue]
    have hdone : (p.feed d.pieces).2 = p.flush := by
      rw [feed_delivery p d hd]
      cases p with
      | idle => rfl
      | name n => exact absurd rfl (hp n)
      | value n v => rfl
    rw [completed_cons, hopen, hdone,
      ih _ (by simp) (fun x hx => hname x (by simp [hx])) (fun x hx => hvalue x (by simp [hx]))]
    simp [flush, Delivery.field]

/-- From an idle reader the report agrees with the list of fields, up to any reading `g` of a
field, exactly when no value is empty: the number of reported fields gives a merge away. -/
theorem Pending.completed_map_eq_iff {β : Type*} (g : Field α → β) (ds : List (Delivery α))
    (hname : ∀ d ∈ ds, d.field.name ≠ []) :
    ((idle : Pending α).completed ds).map g = (ds.map Delivery.field).map g ↔
      ∀ d ∈ ds, d.field.value ≠ [] := by
  constructor
  · intro heq d hd
    have hlen := completed_length (idle : Pending α) ds hname
    have hsame := congrArg List.length heq
    rw [List.length_map, List.length_map] at hsame
    have hfilter : ((ds.map Delivery.field).filter fun f => !f.value.isEmpty).length
        = (ds.map Delivery.field).length := by
      rw [hsame] at hlen
      simpa [flush] using hlen.symm
    have hkept := List.length_filter_eq_length_iff.mp hfilter d.field (List.mem_map_of_mem hd)
    simpa using hkept
  · intro hvalue
    rw [completed_of_values_ne_nil _ ds (by simp) hname hvalue]
    rfl

/-! ## Names -/

/-- A reader state whose open name, if any, is not empty. -/
def Pending.Named : Pending α → Prop
  | .idle => True
  | .name n => n ≠ []
  | .value n _ => n ≠ []

/-- Deliveries with non-empty names keep the open name non-empty and complete only named fields. -/
lemma Pending.feed_named (p : Pending α) (ds : List (Delivery α)) (hp : p.Named)
    (hname : ∀ d ∈ ds, d.field.name ≠ []) :
    (p.feed (ds.flatMap Delivery.pieces)).1.Named ∧
      ∀ f ∈ (p.feed (ds.flatMap Delivery.pieces)).2, f.name ≠ [] := by
  induction ds generalizing p with
  | nil => exact ⟨hp, by simp⟩
  | cons d ds ih =>
    have hd := hname d (by simp)
    -- one delivery: the new open name contains the delivered one
    have hstep : (p.feed d.pieces).1.Named ∧ ∀ f ∈ (p.feed d.pieces).2, f.name ≠ [] := by
      rw [feed_delivery p d hd]
      cases p with
      | idle => split_ifs <;> simp [addName, addValue, Named, hd]
      | name n => split_ifs <;> simp [addName, addValue, Named, hd]
      | value n v =>
        have hn : n ≠ [] := hp
        split_ifs <;> simp [addName, addValue, Named, hd, hn]
    obtain ⟨hnamed, hdone⟩ := ih _ hstep.1 fun x hx => hname x (by simp [hx])
    rw [List.flatMap_cons, feed_append]
    refine ⟨hnamed, fun f hf => ?_⟩
    rcases List.mem_append.mp hf with hf | hf
    · exact hstep.2 f hf
    · exact hdone f hf

end FieldAssembly
