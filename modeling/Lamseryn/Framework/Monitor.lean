import Mathlib

/-!
# Monitors of a trace

A monitor reads a trace from left to right.  It keeps a state, and in each state it says which entry
may come next.  A trace is accepted when every entry was allowed where it stands; what is accepted can
be checked entry by entry while the trace grows, and holds of every beginning of it.
-/

namespace TraceMonitor

/-- A state machine that watches a trace. -/
structure Monitor (S E : Type*) where
  start : S
  next : S → E → S
  allows : S → E → Prop

namespace Monitor

variable {S E : Type*} (m : Monitor S E)

/-- The state after a trace. -/
def state (h : List E) : S :=
  h.foldl m.next m.start

/-- Every entry is allowed, from a given state on. -/
def AcceptsFrom : S → List E → Prop
  | _, [] => True
  | s, e :: h => m.allows s e ∧ AcceptsFrom (m.next s e) h

/-- Every entry of the trace is allowed where it stands. -/
def Accepts (h : List E) : Prop :=
  m.AcceptsFrom m.start h

lemma state_append (h ops : List E) : m.state (h ++ ops) = ops.foldl m.next (m.state h) :=
  List.foldl_append

lemma acceptsFrom_append (s : S) (h ops : List E) :
    m.AcceptsFrom s (h ++ ops) ↔ m.AcceptsFrom s h ∧ m.AcceptsFrom (h.foldl m.next s) ops := by
  induction h generalizing s with
  | nil => simp [AcceptsFrom]
  | cons e h ih => simp [AcceptsFrom, ih, and_assoc]

lemma accepts_append (h ops : List E) :
    m.Accepts (h ++ ops) ↔ m.Accepts h ∧ m.AcceptsFrom (m.state h) ops :=
  m.acceptsFrom_append m.start h ops

variable {m} {h p : List E}

lemma Accepts.of_isPrefix (hacc : m.Accepts h) (hp : p <+: h) : m.Accepts p := by
  obtain ⟨q, rfl⟩ := hp
  exact ((m.accepts_append p q).mp hacc).1

lemma Accepts.allows_of_isPrefix (hacc : m.Accepts h) {e : E} (hp : p ++ [e] <+: h) :
    m.allows (m.state p) e :=
  ((m.accepts_append p [e]).mp (hacc.of_isPrefix hp)).2.1

lemma Accepts.invariant (Inv : List E → S → Prop) (h0 : Inv [] m.start)
    (hnext : ∀ h s e, Inv h s → m.allows s e → Inv (h ++ [e]) (m.next s e)) (hacc : m.Accepts h) :
    Inv h (m.state h) := by
  induction h using List.reverseRecOn with
  | nil => exact h0
  | append_singleton h e ih =>
    obtain ⟨hh, hallowed, -⟩ := (m.accepts_append h [e]).mp hacc
    rw [state_append]
    exact hnext h _ e (ih hh) hallowed

/-- A size that grows with the entries that open something and shrinks with those that close it
counts what is open. -/
lemma Accepts.countP_balance (size : S → ℕ) (opens closes : E → Bool)
    (hnext : ∀ s e, m.allows s e →
      size (m.next s e) + (closes e).toNat = size s + (opens e).toNat)
    (hacc : m.Accepts h) :
    size m.start + h.countP opens = size (m.state h) + h.countP closes := by
  refine hacc.invariant (fun h s => size m.start + h.countP opens = size s + h.countP closes) rfl ?_
  intro h s e heq hallowed
  have hstep := hnext s e hallowed
  have hone : ∀ f : E → Bool, [e].countP f = (f e).toNat := by
    intro f
    rw [List.countP_singleton]
    cases f e <;> rfl
  rw [List.countP_append, List.countP_append, hone, hone]
  omega

lemma Accepts.countP_sub (size : S → ℕ) (opens closes : E → Bool)
    (hnext : ∀ s e, m.allows s e →
      size (m.next s e) + (closes e).toNat = size s + (opens e).toNat)
    (hacc : m.Accepts h) : size m.start + h.countP opens - h.countP closes = size (m.state h) := by
  rw [hacc.countP_balance size opens closes hnext]
  exact Nat.add_sub_cancel _ _

end Monitor

end TraceMonitor
