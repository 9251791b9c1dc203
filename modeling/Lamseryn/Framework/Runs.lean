import Mathlib

/-!
# Runs of a guarded machine

A machine is a step function on states; a guard says which events may occur in which state.
`Run step ok s es s'` holds when the events `es`, each allowed by the guard where it occurs, lead
from `s` to `s'`.  An invariant may speak about the events so far as well as about the state.
-/

namespace GuardedRun

variable {S E : Type*}

/-- The runs of a machine through allowed events. -/
inductive Run (step : S → E → S) (ok : S → E → Prop) : S → List E → S → Prop
  | nil (s : S) : Run step ok s [] s
  | snoc {s s' : S} {es : List E} (e : E) (hrun : Run step ok s es s') (hok : ok s' e) :
      Run step ok s (es ++ [e]) (step s' e)

variable {step : S → E → S} {ok : S → E → Prop}

lemma Run.invariant (Inv : List E → S → Prop) {s s' : S} {es : List E} (h0 : Inv [] s)
    (hstep : ∀ es s e, Inv es s → ok s e → Inv (es ++ [e]) (step s e))
    (hrun : Run step ok s es s') : Inv es s' := by
  induction hrun with
  | nil => exact h0
  | snoc e _ hok ih => exact hstep _ _ e ih hok

/-- If a property holds after an allowed step exactly if it held before and the step is good, then it
holds after a run exactly if every step of the run is good. -/
lemma Run.holds_iff {Good : S → E → Prop} (P Inv : S → Prop) {s s' : S} {es : List E} (hP : P s)
    (hInv : Inv s) (hkeep : ∀ s e, Inv s → ok s e → Inv (step s e))
    (hstep : ∀ s e, Inv s → ok s e → (P (step s e) ↔ P s ∧ Good s e))
    (hrun : Run step ok s es s') :
    P s' ↔ Run step (fun s e => ok s e ∧ Good s e) s es s' := by
  constructor
  · induction hrun with
    | nil => exact fun _ => .nil s
    | @snoc s' es e hrun hok ih =>
      intro hlast
      have hinv : Inv s' := hrun.invariant (fun _ s => Inv s) hInv fun _ _ _ h hok => hkeep _ _ h hok
      obtain ⟨hbefore, hgood⟩ := (hstep s' e hinv hok).mp hlast
      exact .snoc e (ih hbefore) ⟨hok, hgood⟩
  · intro hgood
    have hboth : Inv s' ∧ P s' :=
      hgood.invariant (fun _ s => Inv s ∧ P s) ⟨hInv, hP⟩ fun _ s e h hok =>
        ⟨hkeep s e h.1 hok.1, (hstep s e h.1 hok.1).mpr ⟨h.2, hok.2⟩⟩
    exact hboth.2

lemma Run.eq_foldl {s s' : S} {es : List E} (hrun : Run step ok s es s') : s' = es.foldl step s := by
  induction hrun with
  | nil => rfl
  | snoc e _ _ ih => rw [List.foldl_append, ← ih, List.foldl_cons, List.foldl_nil]

/-- Let a property hold at the start and, where it holds, hold after an allowed step exactly if the step
is good.  Then it holds in every state that a run passes through exactly if every step is good. -/
lemma Run.always_iff {Good : S → E → Prop} (P Inv : S → Prop) {s s' : S} {es : List E} (hP : P s)
    (hInv : Inv s) (hkeep : ∀ s e, Inv s → ok s e → Inv (step s e))
    (hstep : ∀ s e, Inv s → P s → ok s e → (P (step s e) ↔ Good s e))
    (hrun : Run step ok s es s') :
    (∀ es₁, es₁ <+: es → P (es₁.foldl step s)) ↔ Run step (fun s e => ok s e ∧ Good s e) s es s' := by
  have hinv : ∀ {es s'}, Run step ok s es s' → Inv s' := fun hrun =>
    hrun.invariant (fun _ s => Inv s) hInv fun _ _ _ h hok => hkeep _ _ h hok
  induction hrun with
  | nil =>
    refine ⟨fun _ => .nil s, fun _ es₁ hpre => ?_⟩
    rw [List.prefix_nil.mp hpre]
    exact hP
  | @snoc s' es e hrun hok ih =>
    have hlast : P s' → (P (step s' e) ↔ Good s' e) := fun hp => hstep s' e (hinv hrun) hp hok
    have hs' : s' = es.foldl step s := hrun.eq_foldl
    constructor
    · intro halways
      have hbefore := ih.mp fun es₁ hpre => halways es₁ (hpre.trans (List.prefix_append _ _))
      have hp : P s' := hs' ▸ halways es (List.prefix_append _ _)
      have hp' : P (step s' e) := by
        have := halways (es ++ [e]) (List.prefix_refl _)
        rwa [List.foldl_append, ← hs'] at this
      exact .snoc e hbefore ⟨hok, (hlast hp).mp hp'⟩
    · intro hgood es₁ hpre
      obtain ⟨hbefore, hg⟩ : Run step (fun s e => ok s e ∧ Good s e) s es s' ∧ Good s' e := by
        generalize hes : es ++ [e] = all, hend : step s' e = last at hgood
        cases hgood with
        | nil => simp at hes
        | @snoc s'' es' e' hrun' hok' =>
          obtain ⟨rfl, he⟩ := List.append_inj' hes rfl
          cases he
          have hsame : s'' = s' := hrun'.eq_foldl.trans hs'.symm
          exact ⟨hsame ▸ hrun', hsame ▸ hok'.2⟩
      have halways := ih.mpr hbefore
      rcases List.prefix_concat_iff.mp hpre with rfl | hpre
      · have hp : P s' := hs' ▸ halways es (List.prefix_refl _)
        rw [List.foldl_append, ← hs']
        exact (hlast hp).mpr hg
      · exact halways es₁ hpre

/-- The guard allows every event of the list, one after the other. -/
def Allowed (step : S → E → S) (ok : S → E → Prop) : S → List E → Prop
  | _, [] => True
  | s, e :: es => ok s e ∧ Allowed step ok (step s e) es

instance Allowed.decidable [∀ s, DecidablePred (ok s)] :
    ∀ s es, Decidable (Allowed step ok s es)
  | _, [] => inferInstanceAs (Decidable True)
  | s, e :: es =>
    haveI : Decidable (Allowed step ok (step s e) es) := Allowed.decidable (step s e) es
    inferInstanceAs (Decidable (ok s e ∧ Allowed step ok (step s e) es))

lemma Run.cons {s s' : S} {es : List E} {e : E} (hok : ok s e)
    (hrun : Run step ok (step s e) es s') : Run step ok s (e :: es) s' := by
  induction hrun with
  | nil => exact .snoc e (.nil s) hok
  | snoc e' _ hok' ih => exact .snoc e' ih hok'

lemma Run.of_allowed {s : S} {es : List E} (h : Allowed step ok s es) :
    Run step ok s es (es.foldl step s) := by
  induction es generalizing s with
  | nil => exact .nil s
  | cons e es ih => exact .cons h.1 (ih h.2)

/-- Events that the guard allows from a state, with a property of the state they lead to. -/
structure Script (step : S → E → S) (ok : S → E → Prop) (s : S) (P : S → Prop) where
  events : List E
  allowed : Allowed step ok s events
  ends : P (events.foldl step s)

lemma Script.exists_run {s : S} {P : S → Prop} (x : Script step ok s P) :
    ∃ s', Run step ok s x.events s' ∧ P s' :=
  ⟨_, Run.of_allowed x.allowed, x.ends⟩

end GuardedRun
