import Lamseryn.Framework.Runs
import Lamseryn.Model.TimingWheel

/-!
# The buckets of the timing wheel are lists

Whatever the worker does, every bucket of the wheel is a doubly linked list; a connection is in the list of
the bucket that its `tw_slot` names exactly if its deadline is active; only connections with a descriptor,
which are in use, are linked; and a tick visits every connection of its bucket once.

The links and flags of the wheel are the `Buckets` of `Framework/IntrusiveList.lean` (`Wheel.shape`), and the
functions of the wheel are the operations on these.  A connection with a descriptor is in the store and holds
a reference (`ConnOk`), so that no connection is recycled while it is linked.
-/

namespace Lamseryn

open IntrusiveList GuardedRun

/-- The buckets with the links of the connections. -/
def Wheel.shape (w : Wheel) : Buckets ℕ ℕ where
  head := w.buckets
  links := ⟨fun c => (w.heap c).twPrev, fun c => (w.heap c).twNext⟩
  active c := (w.heap c).deadlineActive
  slot c := (w.heap c).twSlot

/-- A connection without its links. -/
def WheelConn.core (x : WheelConn) : WheelConn :=
  { x with twPrev := none, twNext := none }

lemma WheelConn.field_of_core {α : Type} (g : WheelConn → α) (hg : ∀ x : WheelConn, g x.core = g x)
    {x y : WheelConn} (h : x.core = y.core) : g x = g y := by
  rw [← hg x, h, hg y]

/-- The descriptor and the references of a connection. -/
structure Ownership where
  fd : Option ℕ
  inUse : Bool
  refcnt : ℕ
  opRefs : ℕ

@[inherit_doc Ownership]
def WheelConn.ownership (x : WheelConn) : Ownership :=
  ⟨x.fd, x.inUse, x.refcnt, x.opRefs⟩

/-- What no operation on connections changes. -/
def Wheel.frame (w : Wheel) : Wheel :=
  { w with
    buckets := fun _ => none
    heap := fun _ => {}
    store := fun _ => none
    sqes := [] }

lemma Wheel.field_of_frame {α : Type} (g : Wheel → α) (hg : ∀ w : Wheel, g w.frame = g w)
    {w w' : Wheel} (h : w'.frame = w.frame) : g w' = g w := by
  rw [← hg w', h, hg w]

/-! ## What an operation on a connection leaves alone -/

/-- An operation on `c` changes no other connection, except for its links. -/
structure OnlyAt (c : ℕ) (w w' : Wheel) : Prop where
  core : ∀ a, a ≠ c → (w'.heap a).core = (w.heap a).core
  frame : w'.frame = w.frame

lemma OnlyAt.refl (c : ℕ) (w : Wheel) : OnlyAt c w w := ⟨fun _ _ => rfl, rfl⟩

lemma OnlyAt.trans {c : ℕ} {w₁ w₂ w₃ : Wheel} (h : OnlyAt c w₁ w₂) (h' : OnlyAt c w₂ w₃) :
    OnlyAt c w₁ w₃ :=
  ⟨fun a ha => (h'.core a ha).trans (h.core a ha), h'.frame.trans h.frame⟩

lemma onlyAt_modify (w : Wheel) (c : ℕ) (f : WheelConn → WheelConn) : OnlyAt c w (w.modify c f) := by
  refine ⟨fun a ha => ?_, rfl⟩
  simp [Wheel.modify, ha]

lemma onlyAt_links (w : Wheel) (c p : ℕ) {f : WheelConn → WheelConn} (hf : ∀ x, (f x).core = x.core) :
    OnlyAt c w (w.modify p f) := by
  refine ⟨fun a _ => ?_, rfl⟩
  by_cases hap : a = p
  · subst hap
    simp [Wheel.modify, hf]
  · simp [Wheel.modify, hap]

lemma onlyAt_setNext (w : Wheel) (c slot : ℕ) (prev next : Option ℕ) :
    OnlyAt c w (w.setNext slot prev next) := by
  cases prev with
  | none => exact ⟨fun _ _ => rfl, rfl⟩
  | some p =>
    have hcore : ∀ x : WheelConn, { x with twNext := next }.core = x.core := fun _ => rfl
    exact onlyAt_links w c p hcore

lemma onlyAt_setPrev (w : Wheel) (c : ℕ) (next prev : Option ℕ) : OnlyAt c w (w.setPrev next prev) := by
  cases next with
  | none => exact .refl c w
  | some n =>
    have hcore : ∀ x : WheelConn, { x with twPrev := prev }.core = x.core := fun _ => rfl
    exact onlyAt_links w c n hcore

lemma onlyAt_twRemoveInternal (w : Wheel) (c : ℕ) : OnlyAt c w (twRemoveInternal w c) := by
  unfold twRemoveInternal
  split
  · exact .refl c w
  · exact (onlyAt_setNext w c _ _ _).trans ((onlyAt_setPrev _ c _ _).trans (onlyAt_modify _ c _))

lemma onlyAt_twInsertInternal (w : Wheel) (c nowMs deadlineMs : ℕ) :
    OnlyAt c w (twInsertInternal w c nowMs deadlineMs) := by
  unfold twInsertInternal
  split
  · exact .refl c w
  · exact (onlyAt_modify w c _).trans ((onlyAt_setPrev _ c _ _).trans
      ((onlyAt_setNext _ c _ _ _).trans (onlyAt_modify _ c _)))

lemma onlyAt_twReschedule (cfg : TimeoutCfg) (w : Wheel) (c nowMs : ℕ) :
    OnlyAt c w (twReschedule cfg w c nowMs) := by
  simp only [twReschedule]
  split
  · exact (onlyAt_modify w c _).trans ((onlyAt_twRemoveInternal _ c).trans
      (onlyAt_twInsertInternal _ c _ _))
  · exact (onlyAt_modify w c _).trans (onlyAt_twRemoveInternal _ c)

lemma onlyAt_twCancel (w : Wheel) (c : ℕ) : OnlyAt c w (twCancel w c) :=
  (onlyAt_twRemoveInternal w c).trans (onlyAt_modify _ c _)

/-! ## The connection that an operation is about -/

lemma heap_modify_self (w : Wheel) (c : ℕ) (f : WheelConn → WheelConn) :
    (w.modify c f).heap c = f (w.heap c) := by
  simp [Wheel.modify]

lemma core_setNext (w : Wheel) (slot : ℕ) (prev next : Option ℕ) (c : ℕ) :
    ((w.setNext slot prev next).heap c).core = (w.heap c).core :=
  (onlyAt_setNext w (c + 1) slot prev next).core c (Nat.ne_of_lt c.lt_succ_self)

lemma core_setPrev (w : Wheel) (next prev : Option ℕ) (c : ℕ) :
    ((w.setPrev next prev).heap c).core = (w.heap c).core :=
  (onlyAt_setPrev w (c + 1) next prev).core c (Nat.ne_of_lt c.lt_succ_self)

lemma core_twRemoveInternal (w : Wheel) (c : ℕ) :
    ((twRemoveInternal w c).heap c).core = { w.heap c with deadlineActive := false }.core := by
  unfold twRemoveInternal
  split
  next hactive =>
    have hfalse : (w.heap c).deadlineActive = false := by simpa using hactive
    simp [WheelConn.core, hfalse]
  next =>
    rw [heap_modify_self]
    have hcore := core_setPrev (w.setNext (w.heap c).twSlot (w.heap c).twPrev (w.heap c).twNext)
      (w.heap c).twNext (w.heap c).twPrev c
    rw [core_setNext] at hcore
    simp only [WheelConn.core, WheelConn.mk.injEq] at hcore ⊢
    simp [hcore]

lemma core_twInsertInternal {w : Wheel} {c : ℕ} (hfd : (w.heap c).fd ≠ none) (nowMs deadlineMs : ℕ) :
    ((twInsertInternal w c nowMs deadlineMs).heap c).core =
      { w.heap c with
        deadlineMs := deadlineMs
        twSlot := twSlotFor w nowMs deadlineMs
        deadlineActive := true }.core := by
  simp only [twInsertInternal, if_neg hfd]
  rw [heap_modify_self]
  generalize hw : w.modify c _ = w'
  have hcore := core_setNext (w'.setPrev (w.buckets (twSlotFor w nowMs deadlineMs)) (some c))
    (twSlotFor w nowMs deadlineMs) none (some c) c
  rw [core_setPrev, ← hw, heap_modify_self] at hcore
  simp only [WheelConn.core, WheelConn.mk.injEq] at hcore ⊢
  rw [hw] at hcore
  simp [hcore]

lemma core_twCancel (w : Wheel) (c : ℕ) :
    ((twCancel w c).heap c).core =
      { w.heap c with deadlineActive := false, deadlineKind := .none, deadlineMs := 0 }.core := by
  have hcore := core_twRemoveInternal w c
  rw [twCancel, heap_modify_self]
  simp only [WheelConn.core, WheelConn.mk.injEq] at hcore ⊢
  simp [hcore]

/-! ## Buckets -/

lemma shape_modify {w : Wheel} {c : ℕ} {f : WheelConn → WheelConn}
    (hprev : (f (w.heap c)).twPrev = (w.heap c).twPrev)
    (hnext : (f (w.heap c)).twNext = (w.heap c).twNext)
    (hactive : (f (w.heap c)).deadlineActive = (w.heap c).deadlineActive)
    (hslot : (f (w.heap c)).twSlot = (w.heap c).twSlot) : (w.modify c f).shape = w.shape := by
  have hfield : ∀ {α : Type} (g : WheelConn → α), g (f (w.heap c)) = g (w.heap c) →
      (fun a => g ((w.modify c f).heap a)) = fun a => g (w.heap a) := by
    intro α g hg
    funext a
    by_cases ha : a = c
    · subst ha
      rw [heap_modify_self, hg]
    · simp [Wheel.modify, ha]
  unfold Wheel.shape
  rw [hfield _ hprev, hfield _ hnext, hfield _ hactive, hfield _ hslot]
  rfl

/-- The links of a connection after a link was set; its flag and its slot are those of before. -/
lemma setNext_links (w : Wheel) (slot : ℕ) (prev next : Option ℕ) (a : ℕ) :
    ((w.setNext slot prev next).heap a).twPrev = (w.heap a).twPrev ∧
      ((w.setNext slot prev next).heap a).twNext =
        if some a = prev then next else (w.heap a).twNext := by
  cases prev with
  | none => simp [Wheel.setNext]
  | some p =>
    by_cases hap : a = p
    · simp [Wheel.setNext, Wheel.modify, hap]
    · simp [Wheel.setNext, Wheel.modify, hap]

@[inherit_doc setNext_links]
lemma setPrev_links (w : Wheel) (next prev : Option ℕ) (a : ℕ) :
    ((w.setPrev next prev).heap a).twNext = (w.heap a).twNext ∧
      ((w.setPrev next prev).heap a).twPrev =
        if some a = next then prev else (w.heap a).twPrev := by
  cases next with
  | none => simp [Wheel.setPrev]
  | some n =>
    by_cases han : a = n
    · simp [Wheel.setPrev, Wheel.modify, han]
    · simp [Wheel.setPrev, Wheel.modify, han]

lemma setNext_buckets (w : Wheel) (slot : ℕ) (prev next : Option ℕ) :
    (w.setNext slot prev next).buckets =
      Function.update w.buckets slot (if prev = none then next else w.buckets slot) := by
  cases prev with
  | none => rfl
  | some p => simp [Wheel.setNext, Wheel.modify]

lemma setPrev_buckets (w : Wheel) (next prev : Option ℕ) :
    (w.setPrev next prev).buckets = w.buckets := by
  cases next with
  | none => rfl
  | some n => rfl

lemma active_slot_of_core {x y : WheelConn} (h : x.core = y.core) :
    x.deadlineActive = y.deadlineActive ∧ x.twSlot = y.twSlot :=
  ⟨WheelConn.field_of_core WheelConn.deadlineActive (fun _ => rfl) h,
    WheelConn.field_of_core WheelConn.twSlot (fun _ => rfl) h⟩

/-- `tw_remove_internal` takes the connection out of its list. -/
lemma shape_twRemoveInternal {w : Wheel} {c : ℕ} (hactive : (w.heap c).deadlineActive = true) :
    (twRemoveInternal w c).shape = w.shape.remove c := by
  have hne : ∀ a, a ≠ c → ((twRemoveInternal w c).heap a).core = (w.heap a).core :=
    (onlyAt_twRemoveInternal w c).core
  have hself := active_slot_of_core (core_twRemoveInternal w c)
  have hlinks : ∀ a, a ≠ c →
      ((twRemoveInternal w c).heap a).twPrev =
          (if some a = (w.heap c).twNext then (w.heap c).twPrev else (w.heap a).twPrev) ∧
        ((twRemoveInternal w c).heap a).twNext =
          if some a = (w.heap c).twPrev then (w.heap c).twNext else (w.heap a).twNext := by
    intro a ha
    simp [twRemoveInternal, hactive, Wheel.modify, ha, setPrev_links, setNext_links]
  apply Buckets.ext
  · show (twRemoveInternal w c).buckets = _
    simp only [twRemoveInternal, hactive, Bool.not_true, Bool.false_eq_true, if_false, Wheel.modify,
      setPrev_buckets, setNext_buckets, Wheel.shape, Buckets.remove, unlinkHead]
    congr
  · apply Links.ext
    · funext a
      by_cases ha : a = c
      · simp [Wheel.shape, Buckets.remove, unlink, ha, twRemoveInternal, hactive, heap_modify_self]
      · simp only [Wheel.shape, Buckets.remove, unlink, ha, (hlinks a ha).1, if_false]
        congr
    · funext a
      by_cases ha : a = c
      · simp [Wheel.shape, Buckets.remove, unlink, ha, twRemoveInternal, hactive, heap_modify_self]
      · simp only [Wheel.shape, Buckets.remove, unlink, ha, (hlinks a ha).2, if_false]
        congr
  · funext a
    by_cases ha : a = c
    · subst ha
      simpa [Wheel.shape, Buckets.remove] using hself.1
    · simpa [Wheel.shape, Buckets.remove, ha] using (active_slot_of_core (hne a ha)).1
  · funext a
    by_cases ha : a = c
    · subst ha
      simpa [Wheel.shape, Buckets.remove] using hself.2
    · simpa [Wheel.shape, Buckets.remove] using (active_slot_of_core (hne a ha)).2

/-- `tw_insert_internal` puts the connection at the front of a list. -/
lemma shape_twInsertInternal {w : Wheel} {c : ℕ} (hfd : (w.heap c).fd ≠ none) (nowMs deadlineMs : ℕ) :
    (twInsertInternal w c nowMs deadlineMs).shape =
      w.shape.insert (twSlotFor w nowMs deadlineMs) c := by
  have hne : ∀ a, a ≠ c → ((twInsertInternal w c nowMs deadlineMs).heap a).core = (w.heap a).core :=
    (onlyAt_twInsertInternal w c nowMs deadlineMs).core
  have hself := active_slot_of_core (core_twInsertInternal hfd nowMs deadlineMs)
  have hlinks : ∀ a,
      ((twInsertInternal w c nowMs deadlineMs).heap a).twPrev =
          (if some a = w.buckets (twSlotFor w nowMs deadlineMs) then some c
            else if a = c then none else (w.heap a).twPrev) ∧
        ((twInsertInternal w c nowMs deadlineMs).heap a).twNext =
          if a = c then w.buckets (twSlotFor w nowMs deadlineMs) else (w.heap a).twNext := by
    intro a
    by_cases ha : a = c
    · subst ha
      simp [twInsertInternal, hfd, heap_modify_self, setPrev_links, setNext_links]
    · simp [twInsertInternal, hfd, Wheel.modify, ha, setPrev_links, setNext_links]
  apply Buckets.ext
  · show (twInsertInternal w c nowMs deadlineMs).buckets = _
    simp [twInsertInternal, hfd, Wheel.modify, setPrev_buckets, setNext_buckets, Wheel.shape,
      Buckets.insert]
  · apply Links.ext
    · funext a
      simp only [Wheel.shape, Buckets.insert, pushFront, (hlinks a).1]
      congr
    · funext a
      simp [Wheel.shape, Buckets.insert, pushFront, (hlinks a).2]
  · funext a
    by_cases ha : a = c
    · subst ha
      simpa [Wheel.shape, Buckets.insert] using hself.1
    · simpa [Wheel.shape, Buckets.insert, ha] using (active_slot_of_core (hne a ha)).1
  · funext a
    by_cases ha : a = c
    · subst ha
      simpa [Wheel.shape, Buckets.insert] using hself.2
    · simpa [Wheel.shape, Buckets.insert, ha] using (active_slot_of_core (hne a ha)).2

lemma twSlotFor_lt {w : Wheel} (hslots : 0 < w.slots) (nowMs deadlineMs : ℕ) :
    twSlotFor w nowMs deadlineMs < w.slots := by
  have hle : twSlotFor w nowMs deadlineMs ≤ w.slots - 1 := Nat.and_le_right
  omega

/-! ## The descriptor store -/

@[simp] lemma store_modify (w : Wheel) (c : ℕ) (f : WheelConn → WheelConn) :
    (w.modify c f).store = w.store := rfl

@[simp] lemma store_setNext (w : Wheel) (slot : ℕ) (prev next : Option ℕ) :
    (w.setNext slot prev next).store = w.store := by
  cases prev with
  | none => rfl
  | some p => rfl

@[simp] lemma store_setPrev (w : Wheel) (next prev : Option ℕ) :
    (w.setPrev next prev).store = w.store := by
  cases next with
  | none => rfl
  | some n => rfl

@[simp] lemma store_twRemoveInternal (w : Wheel) (c : ℕ) : (twRemoveInternal w c).store = w.store := by
  unfold twRemoveInternal
  split <;> simp

@[simp] lemma store_twInsertInternal (w : Wheel) (c nowMs deadlineMs : ℕ) :
    (twInsertInternal w c nowMs deadlineMs).store = w.store := by
  unfold twInsertInternal
  split <;> simp

@[simp] lemma store_twCancel (w : Wheel) (c : ℕ) : (twCancel w c).store = w.store := by
  simp [twCancel]

@[simp] lemma store_connPut (w : Wheel) (c : ℕ) : (connPut w c).store = w.store := by
  simp only [connPut, connRecycle]
  split <;> simp

@[simp] lemma store_getSqe (w : Wheel) : w.getSqe.2.store = w.store := by
  unfold Wheel.getSqe
  split <;> rfl

@[simp] lemma store_cancelWritePollIfArmed (w : Wheel) (c : ℕ) :
    (w.cancelWritePollIfArmed c).store = w.store := by
  unfold Wheel.cancelWritePollIfArmed
  have hsqe := store_getSqe w
  split
  · split
    next heq =>
      rw [heq] at hsqe
      exact hsqe
    next heq =>
      rw [heq] at hsqe
      exact hsqe
  · rfl

/-! ## The invariant -/

/-- A linked connection has a descriptor; a connection with a descriptor is in the store, which holds a
reference; the other references are those of operations. -/
structure ConnOk (w : Wheel) (a : ℕ) : Prop where
  linked : (w.heap a).deadlineActive = true → (w.heap a).fd ≠ none ∧ (w.heap a).twSlot < w.slots
  stored : ∀ fd, w.store fd = some a ↔ (w.heap a).fd = some fd
  held : (w.heap a).inUse = true →
    (w.heap a).refcnt = (w.heap a).opRefs + (if (w.heap a).fd = none then 0 else 1) ∧
      0 < (w.heap a).refcnt ∧ a < w.allocated
  idle : (w.heap a).inUse = false → (w.heap a).fd = none ∧ (w.heap a).opRefs = 0

/-- The lists of the wheel are `B`, and `r` are the connections that a tick has not visited yet. -/
structure WheelInv (w : Wheel) (B : ℕ → List ℕ) (r : List ℕ) : Prop where
  wf : w.shape.Wf B r
  ok : ∀ a, ConnOk w a
  slots_pos : 0 < w.slots

variable {w w' : Wheel} {B : ℕ → List ℕ} {r : List ℕ} {c : ℕ}

lemma slots_of_frame (h : w'.frame = w.frame) : w'.slots = w.slots :=
  Wheel.field_of_frame Wheel.slots (fun _ => rfl) h

lemma allocated_of_frame (h : w'.frame = w.frame) : w'.allocated = w.allocated :=
  Wheel.field_of_frame Wheel.allocated (fun _ => rfl) h

lemma ConnOk.of_ownership {a : ℕ} (h : ConnOk w a)
    (howner : (w'.heap a).ownership = (w.heap a).ownership)
    (hlinked : (w'.heap a).deadlineActive = true →
      (w'.heap a).fd ≠ none ∧ (w'.heap a).twSlot < w'.slots)
    (hstore : ∀ fd, w'.store fd = some a ↔ w.store fd = some a) (hframe : w'.frame = w.frame) :
    ConnOk w' a := by
  simp only [WheelConn.ownership, Ownership.mk.injEq] at howner
  obtain ⟨hfd, hinUse, hrefcnt, hopRefs⟩ := howner
  constructor
  · exact hlinked
  · intro fd
    rw [hstore, hfd]
    exact h.stored fd
  · rw [hfd, hinUse, hrefcnt, hopRefs, allocated_of_frame hframe]
    exact h.held
  · rw [hfd, hinUse, hopRefs]
    exact h.idle

lemma ConnOk.of_core {a : ℕ} (h : ConnOk w a) (hcore : (w'.heap a).core = (w.heap a).core)
    (hstore : ∀ fd, w'.store fd = some a ↔ w.store fd = some a) (hframe : w'.frame = w.frame) :
    ConnOk w' a := by
  have hslot := active_slot_of_core hcore
  refine h.of_ownership (WheelConn.field_of_core WheelConn.ownership (fun _ => rfl) hcore) ?_ hstore hframe
  rw [WheelConn.field_of_core WheelConn.fd (fun _ => rfl) hcore, hslot.1, hslot.2, slots_of_frame hframe]
  exact h.linked

lemma WheelInv.onlyAt (h : WheelInv w B r) {B' : ℕ → List ℕ} {r' : List ℕ} (hop : OnlyAt c w w')
    (hstore : w'.store = w.store) (hwf : w'.shape.Wf B' r') (hc : ConnOk w' c) : WheelInv w' B' r' where
  wf := hwf
  ok a := by
    by_cases ha : a = c
    · exact ha ▸ hc
    · exact (h.ok a).of_core (hop.core a ha) (fun fd => by rw [hstore]) hop.frame
  slots_pos := by
    rw [slots_of_frame hop.frame]
    exact h.slots_pos

/-! ## Steps that change links -/

lemma active_twRemoveInternal (w : Wheel) (c : ℕ) :
    ((twRemoveInternal w c).heap c).deadlineActive = false :=
  (active_slot_of_core (core_twRemoveInternal w c)).1

lemma ownership_twRemoveInternal (w : Wheel) (c : ℕ) :
    ((twRemoveInternal w c).heap c).ownership = (w.heap c).ownership :=
  (WheelConn.field_of_core WheelConn.ownership (fun _ => rfl) (core_twRemoveInternal w c)).trans rfl

lemma WheelInv.remove (h : WheelInv w B r) (hr : (w.heap c).deadlineActive = true → r = []) :
    ∃ B', WheelInv (twRemoveInternal w c) B' r := by
  by_cases hactive : (w.heap c).deadlineActive = true
  · obtain rfl := hr hactive
    have hop := onlyAt_twRemoveInternal w c
    have hwf := h.wf.remove (c := c) hactive
    rw [← shape_twRemoveInternal hactive] at hwf
    refine ⟨_, h.onlyAt hop (store_twRemoveInternal w c) hwf ?_⟩
    refine (h.ok c).of_ownership (ownership_twRemoveInternal w c) ?_ (fun fd => ?_) hop.frame
    · simp [active_twRemoveInternal]
    · rw [store_twRemoveInternal]
  · have hsame : twRemoveInternal w c = w := by simp [twRemoveInternal, hactive]
    rw [hsame]
    exact ⟨B, h⟩

lemma WheelInv.insert (h : WheelInv w B r) (hactive : (w.heap c).deadlineActive = false)
    (nowMs deadlineMs : ℕ) : ∃ B', WheelInv (twInsertInternal w c nowMs deadlineMs) B' r := by
  by_cases hfd : (w.heap c).fd = none
  · have hsame : twInsertInternal w c nowMs deadlineMs = w := by simp [twInsertInternal, hfd]
    rw [hsame]
    exact ⟨B, h⟩
  · have hcore := core_twInsertInternal hfd nowMs deadlineMs
    have hop := onlyAt_twInsertInternal w c nowMs deadlineMs
    have hwf := h.wf.insert (c := c) (k := twSlotFor w nowMs deadlineMs) hactive
    rw [← shape_twInsertInternal hfd] at hwf
    refine ⟨_, h.onlyAt hop (store_twInsertInternal w c nowMs deadlineMs) hwf ?_⟩
    refine (h.ok c).of_ownership ?_ (fun _ => ⟨?_, ?_⟩) (fun fd => ?_) hop.frame
    · exact (WheelConn.field_of_core WheelConn.ownership (fun _ => rfl) hcore).trans rfl
    · rw [WheelConn.field_of_core WheelConn.fd (fun _ => rfl) hcore]
      exact hfd
    · rw [(active_slot_of_core hcore).2, slots_of_frame hop.frame]
      exact twSlotFor_lt h.slots_pos nowMs deadlineMs
    · rw [store_twInsertInternal]

lemma WheelInv.modify (h : WheelInv w B r) {f : WheelConn → WheelConn}
    (howner : ∀ x, (f x).ownership = x.ownership)
    (hlinks : ∀ x, (f x).twPrev = x.twPrev ∧ (f x).twNext = x.twNext ∧
      (f x).deadlineActive = x.deadlineActive ∧ (f x).twSlot = x.twSlot) :
    WheelInv (w.modify c f) B r := by
  obtain ⟨hprev, hnext, hactive, hslot⟩ := hlinks (w.heap c)
  have hwf : (w.modify c f).shape.Wf B r := by
    rw [shape_modify hprev hnext hactive hslot]
    exact h.wf
  refine h.onlyAt (onlyAt_modify w c f) rfl hwf ?_
  have hown : ((w.modify c f).heap c).ownership = (w.heap c).ownership := by
    rw [heap_modify_self, howner]
  refine (h.ok c).of_ownership hown ?_ (fun fd => by rw [store_modify]) rfl
  have hfd : (f (w.heap c)).fd = (w.heap c).fd := by
    have := howner (w.heap c)
    simp only [WheelConn.ownership, Ownership.mk.injEq] at this
    exact this.1
  rw [heap_modify_self, hactive, hslot, hfd]
  exact (h.ok c).linked

lemma WheelInv.reschedule (h : WheelInv w B []) (cfg : TimeoutCfg) (nowMs : ℕ) :
    ∃ B', WheelInv (twReschedule cfg w c nowMs) B' [] := by
  simp only [twReschedule]
  have hkind := h.modify (c := c) (f := fun x =>
    { x with
      deadlineKind := ((w.heap c).deadline cfg).1, rescheduledMs := nowMs, rearmedMs := none })
    (fun _ => rfl) (fun _ => ⟨rfl, rfl, rfl, rfl⟩)
  obtain ⟨B', hremoved⟩ := hkind.remove (c := c) fun _ => rfl
  split
  · exact hremoved.insert (active_twRemoveInternal _ c) nowMs _
  · exact ⟨B', hremoved⟩

lemma WheelInv.cancel (h : WheelInv w B r) (hr : (w.heap c).deadlineActive = true → r = []) :
    ∃ B', WheelInv (twCancel w c) B' r := by
  obtain ⟨B', hremoved⟩ := h.remove hr
  exact ⟨B', hremoved.modify (fun _ => rfl) fun _ => ⟨rfl, rfl, rfl, rfl⟩⟩

/-! ## The end of a connection -/

/-- What the due time of a connection depends on. -/
def WheelConn.timing (x : WheelConn) : ℕ × ℕ × ℕ × Option ℕ :=
  (x.twSlot, x.deadlineMs, x.rescheduledMs, x.rearmedMs)

/-- An operation that arms no deadline. -/
structure ArmsNone (w w' : Wheel) : Prop where
  frame : w'.frame = w.frame
  armed : ∀ a, (w'.heap a).deadlineActive = true →
    (w.heap a).deadlineActive = true ∧ (w'.heap a).timing = (w.heap a).timing

lemma ArmsNone.refl (w : Wheel) : ArmsNone w w := ⟨rfl, fun _ ha => ⟨ha, rfl⟩⟩

lemma ArmsNone.trans {w₁ w₂ w₃ : Wheel} (h : ArmsNone w₁ w₂) (h' : ArmsNone w₂ w₃) : ArmsNone w₁ w₃ where
  frame := h'.frame.trans h.frame
  armed a ha :=
    have h₂ := h'.armed a ha
    have h₁ := h.armed a h₂.1
    ⟨h₁.1, h₂.2.trans h₁.2⟩

lemma ArmsNone.inactive {a : ℕ} (h : ArmsNone w w') (ha : (w.heap a).deadlineActive = false) :
    (w'.heap a).deadlineActive = false := by
  by_contra hactive
  have := (h.armed a (by simpa using hactive)).1
  simp [ha] at this

lemma OnlyAt.armsNone (h : OnlyAt c w w')
    (hc : (w'.heap c).deadlineActive = true →
      (w.heap c).deadlineActive = true ∧ (w'.heap c).timing = (w.heap c).timing) : ArmsNone w w' where
  frame := h.frame
  armed a ha := by
    by_cases hac : a = c
    · subst hac
      exact hc ha
    · have hcore := h.core a hac
      rw [(active_slot_of_core hcore).1] at ha
      exact ⟨ha, WheelConn.field_of_core WheelConn.timing (fun _ => rfl) hcore⟩

/-- An operation on a connection that is not linked leaves the lists alone. -/
structure OffList (c : ℕ) (w w' : Wheel) : Prop where
  onlyAt : OnlyAt c w w'
  inactive : (w.heap c).deadlineActive = false → (w'.heap c).deadlineActive = false
  wf : (w.heap c).deadlineActive = false → ∀ B r, w.shape.Wf B r → w'.shape.Wf B r

lemma OffList.refl (c : ℕ) (w : Wheel) : OffList c w w :=
  ⟨.refl c w, id, fun _ _ _ => id⟩

lemma OffList.trans {w₁ w₂ w₃ : Wheel} (h : OffList c w₁ w₂) (h' : OffList c w₂ w₃) : OffList c w₁ w₃ where
  onlyAt := h.onlyAt.trans h'.onlyAt
  inactive h₀ := h'.inactive (h.inactive h₀)
  wf h₀ B r hwf := h'.wf (h.inactive h₀) B r (h.wf h₀ B r hwf)

lemma offList_modify (w : Wheel) (c : ℕ) {f : WheelConn → WheelConn}
    (hf : ∀ x : WheelConn, x.deadlineActive = false → (f x).deadlineActive = false) :
    OffList c w (w.modify c f) where
  onlyAt := onlyAt_modify w c f
  inactive h₀ := by
    rw [heap_modify_self]
    exact hf _ h₀
  wf h₀ B r hwf := by
    have hother : ∀ a, a ≠ c → (w.modify c f).heap a = w.heap a := fun a ha => by
      simp [Wheel.modify, ha]
    refine hwf.congr rfl (funext fun a => ?_) fun a ha => ?_
    · by_cases hac : a = c
      · subst hac
        show ((w.modify a f).heap a).deadlineActive = (w.heap a).deadlineActive
        rw [heap_modify_self, hf _ h₀, h₀]
      · simp [Wheel.shape, hother a hac]
    · have hac : a ≠ c := by
        rintro rfl
        exact Bool.false_ne_true (h₀.symm.trans ha)
      simp [Wheel.shape, hother a hac]

lemma offList_getSqe (w : Wheel) (c : ℕ) : OffList c w w.getSqe.2 := by
  unfold Wheel.getSqe
  split
  · exact .refl c w
  · exact ⟨⟨fun _ _ => rfl, rfl⟩, id, fun _ _ _ => id⟩

lemma offList_storeDel (w : Wheel) (c fd : ℕ) : OffList c w (w.storeDel fd) :=
  ⟨⟨fun _ _ => rfl, rfl⟩, id, fun _ _ _ => id⟩

lemma offList_cancelWritePollIfArmed (w : Wheel) (c : ℕ) : OffList c w (w.cancelWritePollIfArmed c) := by
  unfold Wheel.cancelWritePollIfArmed
  have hsqe := offList_getSqe w c
  split
  · split
    next heq =>
      rw [heq] at hsqe
      exact hsqe
    next heq =>
      rw [heq] at hsqe
      exact hsqe.trans (offList_modify _ c fun _ hx => hx)
  · exact .refl c w

lemma offList_connPut (w : Wheel) (c : ℕ) : OffList c w (connPut w c) := by
  simp only [connPut, connRecycle]
  split
  · refine (offList_modify w c ?_).trans (offList_modify _ c ?_)
    · exact fun _ hx => hx
    · exact fun _ _ => rfl
  · exact offList_modify w c fun _ hx => hx

/-- `conn_put` on the references of a connection. -/
def Ownership.put (o : Ownership) : Ownership :=
  if o.refcnt = 1 then ⟨none, false, 0, o.opRefs⟩ else { o with refcnt := o.refcnt - 1 }

lemma ownership_connPut (w : Wheel) (c : ℕ) :
    ((connPut w c).heap c).ownership = (w.heap c).ownership.put := by
  by_cases hlast : (w.heap c).refcnt = 1
  · simp [connPut, connRecycle, heap_modify_self, WheelConn.ownership, Ownership.put, hlast]
  · simp [connPut, heap_modify_self, WheelConn.ownership, Ownership.put, hlast]

lemma heap_getSqe (w : Wheel) (a : ℕ) : w.getSqe.2.heap a = w.heap a := by
  unfold Wheel.getSqe
  split <;> rfl

lemma ownership_cancelWritePollIfArmed (w : Wheel) (c : ℕ) :
    ((w.cancelWritePollIfArmed c).heap c).ownership = (w.heap c).ownership := by
  unfold Wheel.cancelWritePollIfArmed
  have hsqe := heap_getSqe w c
  split
  · split
    next heq =>
      rw [heq] at hsqe
      rw [hsqe]
    next heq =>
      rw [heq] at hsqe
      rw [heap_modify_self, ← hsqe]
      rfl
  · rfl

lemma ownership_beginClose (w : Wheel) (c : ℕ) :
    ((w.beginClose c).heap c).ownership =
      ⟨none, (w.heap c).inUse, (w.heap c).refcnt + 1, (w.heap c).opRefs⟩ := by
  have hcore := core_twCancel (w.modify c fun x => { x with abortiveClose := false }) c
  rw [heap_modify_self] at hcore
  have howner := WheelConn.field_of_core WheelConn.ownership (fun _ => rfl) hcore
  simp only [WheelConn.ownership, Ownership.mk.injEq] at howner
  rw [Wheel.beginClose, heap_modify_self]
  simp [WheelConn.ownership, howner]

lemma inactive_beginClose (w : Wheel) (c : ℕ) : ((w.beginClose c).heap c).deadlineActive = false := by
  have hcore := core_twCancel (w.modify c fun x => { x with abortiveClose := false }) c
  rw [Wheel.beginClose, heap_modify_self]
  exact (active_slot_of_core hcore).1

lemma store_beginClose (w : Wheel) (c : ℕ) : (w.beginClose c).store = w.store := by
  simp [Wheel.beginClose]

lemma put_put {inUse : Bool} {refcnt opRefs : ℕ} (hrefs : 0 < refcnt) :
    (Ownership.put ⟨none, inUse, refcnt + 1, opRefs⟩).put = Ownership.put ⟨none, inUse, refcnt, opRefs⟩ := by
  have hne : refcnt ≠ 0 := hrefs.ne'
  simp [Ownership.put, hne]

/-- What `schedule_or_sync_close` does to the connection that it finds: the reference of the store is
dropped, or it becomes that of the close operation. -/
lemma scheduleOrSyncClose_spec {fd : ℕ} (hc : w.store fd = some c) (hfd : (w.heap c).fd = some fd)
    (hrefs : 0 < (w.heap c).refcnt) :
    OffList c (w.beginClose c) (w.scheduleOrSyncClose (some fd)).2 ∧
      (w.scheduleOrSyncClose (some fd)).2.store = Function.update w.store fd none ∧
      ∃ ops, ((w.scheduleOrSyncClose (some fd)).2.heap c).ownership =
          (Ownership.put ⟨none, (w.heap c).inUse, (w.heap c).refcnt + ops, (w.heap c).opRefs + ops⟩) := by
  have hown := ownership_beginClose w c
  have hstore := store_beginClose w c
  simp only [Wheel.scheduleOrSyncClose, Option.bind_some, hc, hfd]
  split
  · refine ⟨?_, ?_, 0, ?_⟩
    · exact (offList_cancelWritePollIfArmed _ c).trans ((offList_storeDel _ c fd).trans
        ((offList_connPut _ c).trans (offList_connPut _ c)))
    · simp [Wheel.storeDel, hstore]
    · rw [ownership_connPut, ownership_connPut, Wheel.storeDel, ownership_cancelWritePollIfArmed, hown]
      exact put_put hrefs
  · have hsqe := offList_getSqe (w.beginClose c) c
    have hheap := heap_getSqe (w.beginClose c) c
    have hsqeStore := store_getSqe (w.beginClose c)
    split
    next w₁ heq =>
      simp only [heq] at hsqe hheap hsqeStore
      refine ⟨?_, ?_, 0, ?_⟩
      · exact hsqe.trans ((offList_storeDel _ c fd).trans ((offList_connPut _ c).trans (offList_connPut _ c)))
      · simp [Wheel.storeDel, hsqeStore, hstore]
      · rw [ownership_connPut, ownership_connPut, Wheel.storeDel, hheap, hown]
        exact put_put hrefs
    next w₁ heq =>
      simp only [heq] at hsqe hheap hsqeStore
      refine ⟨?_, ?_, 1, ?_⟩
      · refine hsqe.trans (.trans (offList_modify w₁ c ?_) ((offList_cancelWritePollIfArmed _ c).trans
          ((offList_storeDel _ c fd).trans (offList_connPut _ c))))
        exact fun _ hx => hx
      · simp [Wheel.storeDel, hsqeStore, hstore]
      · rw [ownership_connPut, Wheel.storeDel, ownership_cancelWritePollIfArmed, heap_modify_self, hheap]
        simp only [WheelConn.ownership, Ownership.mk.injEq] at hown
        simp [WheelConn.ownership, hown]

/-- What is left of a connection without a descriptor: the references of operations, or it is recycled. -/
lemma ConnOk.of_put {inUse : Bool} {refcnt opRefs : ℕ} (hinactive : (w.heap c).deadlineActive = false)
    (howner : (w.heap c).ownership = Ownership.put ⟨none, inUse, refcnt, opRefs⟩) (hin : inUse = true)
    (hrefs : refcnt = opRefs + 1) (hstore : ∀ fd, w.store fd ≠ some c) (hlt : c < w.allocated) :
    ConnOk w c := by
  subst hin hrefs
  by_cases hlast : opRefs = 0
  · subst hlast
    simp only [WheelConn.ownership, Ownership.put, if_true, Nat.zero_add, Ownership.mk.injEq] at howner
    constructor <;> simp [hinactive, howner, hstore]
  · simp only [WheelConn.ownership, Ownership.put, Nat.add_eq_right, hlast, if_false,
      Nat.add_one_sub_one, Ownership.mk.injEq] at howner
    constructor <;> simp [hinactive, howner, hstore, hlt, Nat.pos_of_ne_zero hlast]

lemma WheelInv.close (h : WheelInv w B r) (fd : Option ℕ)
    (hr : ∀ c, fd.bind w.store = some c → (w.heap c).deadlineActive = true → r = []) :
    ArmsNone w (w.scheduleOrSyncClose fd).2 ∧ ∃ B', WheelInv (w.scheduleOrSyncClose fd).2 B' r := by
  cases hfound : fd.bind w.store with
  | none =>
    simp only [Wheel.scheduleOrSyncClose, hfound]
    exact ⟨.refl w, B, h⟩
  | some c =>
    obtain ⟨fd, rfl, hc⟩ := Option.bind_eq_some_iff.mp hfound
    have hfd := ((h.ok c).stored fd).mp hc
    have hinUse : (w.heap c).inUse = true := by
      by_contra hnot
      have := ((h.ok c).idle (by simpa using hnot)).1
      simp [hfd] at this
    obtain ⟨hheld, hrefs, hlt⟩ := (h.ok c).held hinUse
    obtain ⟨hoff, hstore, ops, howner⟩ := scheduleOrSyncClose_spec hc hfd hrefs
    generalize (w.scheduleOrSyncClose (some fd)).2 = w' at *
    -- the lists are those that `tw_cancel` leaves
    have hbefore : WheelInv (w.modify c fun x => { x with abortiveClose := false }) B r :=
      h.modify (fun _ => rfl) fun _ => ⟨rfl, rfl, rfl, rfl⟩
    obtain ⟨B', hcancelled⟩ := hbefore.cancel (c := c) fun hactive => by
      rw [heap_modify_self] at hactive
      exact hr c hfound hactive
    have hbegin : (w.beginClose c).shape.Wf B' r := by
      rw [Wheel.beginClose, shape_modify rfl rfl rfl rfl]
      exact hcancelled.wf
    have honly : OnlyAt c w w' :=
      ((onlyAt_modify w c _).trans ((onlyAt_twCancel _ c).trans (onlyAt_modify _ c _))).trans
        hoff.onlyAt
    have hinactive := hoff.inactive (inactive_beginClose w c)
    refine ⟨honly.armsNone fun hactive => ?_, B', hoff.wf (inactive_beginClose w c) B' r hbegin,
      fun a => ?_, ?_⟩
    · exact absurd (hinactive.symm.trans hactive) Bool.false_ne_true
    · by_cases ha : a = c
      · subst ha
        have hopRefs : (w.heap a).refcnt = (w.heap a).opRefs + 1 := by simpa [hfd] using hheld
        refine .of_put hinactive howner hinUse (by omega) (fun fd' => ?_) ?_
        · rw [hstore]
          by_cases hfd' : fd' = fd
          · simp [hfd']
          · have hno : w.store fd' ≠ some a := fun hst =>
              hfd' (Option.some.inj ((((h.ok a).stored fd').mp hst).symm.trans hfd))
            simpa [hfd'] using hno
        · rw [allocated_of_frame honly.frame]
          exact hlt
      · refine (h.ok a).of_core (honly.core a ha) (fun fd' => ?_) honly.frame
        rw [hstore]
        by_cases hfd' : fd' = fd
        · subst hfd'
          simp [hc, Ne.symm ha]
        · simp [hfd']
    · rw [slots_of_frame honly.frame]
      exact h.slots_pos

/-! ## References of operations -/

lemma WheelInv.refs (h : WheelInv w B r) (hinUse : (w.heap c).inUse = true) {f : WheelConn → WheelConn}
    (hfd : (f (w.heap c)).fd = (w.heap c).fd) (hin : (f (w.heap c)).inUse = (w.heap c).inUse)
    (hrefs : (f (w.heap c)).refcnt =
      (f (w.heap c)).opRefs + if (w.heap c).fd = none then 0 else 1)
    (hpos : 0 < (f (w.heap c)).refcnt)
    (hlinks : ∀ x, (f x).twPrev = x.twPrev ∧ (f x).twNext = x.twNext ∧
      (f x).deadlineActive = x.deadlineActive ∧ (f x).twSlot = x.twSlot) :
    WheelInv (w.modify c f) B r := by
  obtain ⟨hprev, hnext, hactive, hslot⟩ := hlinks (w.heap c)
  have hwf : (w.modify c f).shape.Wf B r := by
    rw [shape_modify hprev hnext hactive hslot]
    exact h.wf
  refine h.onlyAt (onlyAt_modify w c f) rfl hwf ?_
  constructor <;> rw [heap_modify_self]
  · rw [hactive, hslot, hfd]
    exact (h.ok c).linked
  · rw [hfd]
    exact (h.ok c).stored
  · intro _
    rw [hfd]
    exact ⟨hrefs, hpos, ((h.ok c).held hinUse).2.2⟩
  · rw [hin, hinUse]
    simp

lemma WheelInv.post (h : WheelInv w B r) (hinUse : (w.heap c).inUse = true) {f : WheelConn → WheelConn}
    (howner : ∀ x, (f x).ownership =
      ⟨x.ownership.fd, x.ownership.inUse, x.ownership.refcnt + 1, x.ownership.opRefs + 1⟩)
    (hlinks : ∀ x, (f x).twPrev = x.twPrev ∧ (f x).twNext = x.twNext ∧
      (f x).deadlineActive = x.deadlineActive ∧ (f x).twSlot = x.twSlot) :
    WheelInv (w.modify c f) B r := by
  have hown := howner (w.heap c)
  simp only [WheelConn.ownership, Ownership.mk.injEq] at hown
  obtain ⟨hfd, hin, hrefcnt, hopRefs⟩ := hown
  have hheld := (h.ok c).held hinUse
  exact h.refs hinUse hfd hin (by omega) (by omega) hlinks

/-- An operation that completes drops its reference. -/
lemma WheelInv.complete (h : WheelInv w B r) (hops : 0 < (w.heap c).opRefs) :
    WheelInv (connPut (w.modify c fun x => { x with opRefs := x.opRefs - 1 }) c) B r := by
  have hinUse : (w.heap c).inUse = true := by
    by_contra hnot
    have := ((h.ok c).idle (by simpa using hnot)).2
    omega
  obtain ⟨hheld, hrefs, hlt⟩ := (h.ok c).held hinUse
  have hown := ownership_connPut (w.modify c fun x => { x with opRefs := x.opRefs - 1 }) c
  rw [heap_modify_self] at hown
  have honly := (onlyAt_modify w c fun x => { x with opRefs := x.opRefs - 1 }).trans
    (offList_connPut _ c).onlyAt
  by_cases hfd : (w.heap c).fd = none
  · have hinactive : (w.heap c).deadlineActive = false := by
      by_contra hactive
      exact ((h.ok c).linked (by simpa using hactive)).1 hfd
    have hoff : OffList c w (connPut (w.modify c fun x => { x with opRefs := x.opRefs - 1 }) c) := by
      refine .trans (offList_modify w c ?_) (offList_connPut _ c)
      exact fun _ hx => hx
    refine h.onlyAt honly (by simp) (hoff.wf hinactive B r h.wf) ?_
    simp only [WheelConn.ownership, hfd] at hown
    refine .of_put (hoff.inactive hinactive) hown hinUse ?_ (fun fd => ?_) ?_
    · simp only [hfd, if_true, Nat.add_zero] at hheld
      omega
    · rw [store_connPut, store_modify]
      intro hst
      simp [((h.ok c).stored fd).mp hst] at hfd
    · rw [allocated_of_frame honly.frame]
      exact hlt
  · have hnot : (w.heap c).refcnt ≠ 1 := by
      simp only [hfd, if_false] at hheld
      omega
    have hsame : connPut (w.modify c fun x => { x with opRefs := x.opRefs - 1 }) c =
        w.modify c fun x => { x with opRefs := x.opRefs - 1, refcnt := x.refcnt - 1 } := by
      simp [connPut, Wheel.modify, hnot]
    rw [hsame]
    simp only [hfd, if_false] at hheld
    refine h.refs hinUse rfl rfl ?_ ?_ fun _ => ⟨rfl, rfl, rfl, rfl⟩
    · simp only [hfd, if_false]
      omega
    · show 0 < (w.heap c).refcnt - 1
      omega

/-! ## Ticks -/

lemma WheelInv.congr (h : WheelInv w B r) (hheap : w'.heap = w.heap) (hbuckets : w'.buckets = w.buckets)
    (hstore : w'.store = w.store) (hslots : w'.slots = w.slots)
    (hallocated : w'.allocated = w.allocated) : WheelInv w' B r := by
  have hshape : w'.shape = w.shape := by simp [Wheel.shape, hheap, hbuckets]
  refine ⟨hshape ▸ h.wf, fun a => ?_, hslots ▸ h.slots_pos⟩
  obtain ⟨hlinked, hstored, hheld, hidle⟩ := h.ok a
  constructor
  · rw [hheap, hslots]
    exact hlinked
  · rw [hheap, hstore]
    exact hstored
  · rw [hheap, hallocated]
    exact hheld
  · rw [hheap]
    exact hidle

lemma WheelInv.inUse_of_fd (h : WheelInv w B r) (hfd : (w.heap c).fd ≠ none) :
    (w.heap c).inUse = true := by
  by_contra hnot
  exact hfd ((h.ok c).idle (by simpa using hnot)).1

lemma WheelInv.close_self (h : WheelInv w B r) (hinactive : (w.heap c).deadlineActive = false) :
    ArmsNone w (w.scheduleOrSyncClose (w.heap c).fd).2 ∧
      ∃ B', WheelInv (w.scheduleOrSyncClose (w.heap c).fd).2 B' r := by
  apply h.close
  intro c' hfound hactive
  obtain ⟨fd, hfd, hstore⟩ := Option.bind_eq_some_iff.mp hfound
  -- the store finds the connection itself
  have hself := ((h.ok c).stored fd).mpr hfd
  have hcc : c' = c := Option.some.inj (hstore.symm.trans hself)
  rw [hcc, hinactive] at hactive
  exact absurd hactive Bool.false_ne_true

lemma WheelInv.getSqe (h : WheelInv w B r) : WheelInv w.getSqe.2 B r := by
  unfold Wheel.getSqe
  split
  · exact h
  · exact h.congr rfl rfl rfl rfl rfl

lemma armsNone_getSqe (w : Wheel) : ArmsNone w w.getSqe.2 := by
  have hframe := (offList_getSqe w 0).onlyAt.frame
  refine ⟨hframe, fun a ha => ?_⟩
  rw [heap_getSqe] at ha ⊢
  exact ⟨ha, rfl⟩

lemma WheelInv.timeoutRequest (h : WheelInv w B r) (hinactive : (w.heap c).deadlineActive = false)
    (hfd : (w.heap c).fd ≠ none) :
    ArmsNone w (w.timeoutRequest c).2 ∧ ∃ B', WheelInv (w.timeoutRequest c).2 B' r := by
  have hsqe := h.getSqe
  have hheap := heap_getSqe w c
  have harms := armsNone_getSqe w
  unfold Wheel.timeoutRequest
  split
  next w₁ heq =>
    simp only [heq] at hsqe hheap harms
    obtain ⟨harms', hinv⟩ := hsqe.close_self (harms.inactive hinactive)
    exact ⟨harms.trans harms', hinv⟩
  next w₁ heq =>
    simp only [heq] at hsqe hheap harms
    have hinUse : (w₁.heap c).inUse = true := by
      rw [hheap]
      exact h.inUse_of_fd hfd
    have hstaged : WheelInv (w₁.stage408 c) B r := by
      unfold Wheel.stage408
      exact hsqe.post hinUse (fun _ => rfl) fun _ => ⟨rfl, rfl, rfl, rfl⟩
    have hkeep : ArmsNone w₁ (w₁.stage408 c) := by
      refine (onlyAt_modify w₁ c _).armsNone fun hactive => ?_
      rw [heap_modify_self] at hactive ⊢
      exact ⟨hactive, rfl⟩
    exact ⟨harms.trans hkeep, B, hstaged⟩

lemma WheelInv.expire (h : WheelInv w B r) (hinactive : (w.heap c).deadlineActive = false)
    (hfd : (w.heap c).fd ≠ none) :
    ArmsNone w (w.expire c).2 ∧ ∃ B', WheelInv (w.expire c).2 B' r := by
  have hclose := h.close_self hinactive
  have hrequest := h.timeoutRequest hinactive hfd
  unfold Wheel.expire
  cases (w.heap c).deadlineKind with
  | none => exact ⟨.refl w, B, h⟩
  | drain => exact hclose
  | kaIdle => exact hclose
  | initialIdle => exact hclose
  | writeTimeout =>
    have h' : WheelInv (w.modify c fun x => { x with abortiveClose := true }) B r :=
      h.modify (fun _ => rfl) fun _ => ⟨rfl, rfl, rfl, rfl⟩
    have harms : ArmsNone w (w.modify c fun x => { x with abortiveClose := true }) := by
      refine (onlyAt_modify w c _).armsNone fun hactive => ?_
      rw [heap_modify_self] at hactive ⊢
      exact ⟨hactive, rfl⟩
    have hclose' := h'.close_self (harms.inactive hinactive)
    rw [heap_modify_self] at hclose'
    exact ⟨harms.trans hclose'.1, hclose'.2⟩
  | headerTimeout => exact hrequest
  | bodyTimeout => exact hrequest

lemma onlyAt_rearm (cfg : TimeoutCfg) (w : Wheel) (c nowMs : ℕ) : OnlyAt c w (w.rearm cfg c nowMs) := by
  simp only [Wheel.rearm]
  split
  · exact (onlyAt_modify w c _).trans ((onlyAt_modify _ c _).trans (onlyAt_twInsertInternal _ c nowMs _))
  · exact onlyAt_modify w c _

lemma WheelInv.rearm (h : WheelInv w B r) (hinactive : (w.heap c).deadlineActive = false)
    (cfg : TimeoutCfg) (nowMs : ℕ) : ∃ B', WheelInv (w.rearm cfg c nowMs) B' r := by
  have hkind : WheelInv (w.modify c fun x =>
      { x with deadlineKind := ((w.heap c).deadline cfg).1 }) B r :=
    h.modify (fun _ => rfl) fun _ => ⟨rfl, rfl, rfl, rfl⟩
  simp only [Wheel.rearm]
  split
  · have hrearmed := hkind.modify (c := c) (f := fun x => { x with rearmedMs := some nowMs })
      (fun _ => rfl) fun _ => ⟨rfl, rfl, rfl, rfl⟩
    refine hrearmed.insert ?_ nowMs _
    rw [heap_modify_self, heap_modify_self]
    exact hinactive
  · exact ⟨B, hkind⟩

lemma shape_beginVisit (w : Wheel) (c : ℕ) : (w.beginVisit c).shape = w.shape.clear c := by
  have hfield : ∀ {α : Type} (g : WheelConn → α) (x : WheelConn),
      (fun a => g (Function.update w.heap c x a)) = Function.update (fun a => g (w.heap a)) c (g x) := by
    intro α g x
    funext a
    exact Function.apply_update (fun _ => g) w.heap c x a
  simp only [Wheel.beginVisit, Wheel.modify, Wheel.shape, Buckets.clear, hfield, Function.update_eq_self]

lemma WheelInv.beginVisit (h : WheelInv w B (c :: r)) : WheelInv (w.beginVisit c) B r := by
  have hself : (w.beginVisit c).heap c =
      { w.heap c with twPrev := none, twNext := none, deadlineActive := false } := by
    simp [Wheel.beginVisit, Wheel.modify]
  have hwf := h.wf.clear
  rw [← shape_beginVisit] at hwf
  refine ⟨hwf, fun a => ?_, h.slots_pos⟩
  by_cases ha : a = c
  · subst ha
    obtain ⟨hlinked, hstored, hheld, hidle⟩ := h.ok a
    constructor <;> rw [hself]
    · simp
    · exact hstored
    · exact hheld
    · exact hidle
  · have hother : (w.beginVisit c).heap a = w.heap a := by simp [Wheel.beginVisit, Wheel.modify, ha]
    obtain ⟨hlinked, hstored, hheld, hidle⟩ := h.ok a
    constructor <;> rw [hother]
    · exact hlinked
    · exact hstored
    · exact hheld
    · exact hidle

/-- A visit relinks the connection or leaves it unlinked; the next one to visit is the rest's first. -/
lemma WheelInv.visit (h : WheelInv w B (c :: r)) (cfg : TimeoutCfg) (nowMs : ℕ) :
    (w.visit cfg c nowMs).frame =
        Wheel.frame { w with
          visited := w.visited ++ [c]
          expired := if (w.heap c).deadlineMs ≤ nowMs then
            w.expired ++ [Expiry.mk c (w.heap c).deadlineMs nowMs] else w.expired } ∧
      ∃ B', WheelInv (w.visit cfg c nowMs) B' r := by
  have hfd : (w.heap c).fd ≠ none := ((h.ok c).linked (h.wf.rest_active c (by simp))).1
  have hself : (w.beginVisit c).heap c =
      { w.heap c with twPrev := none, twNext := none, deadlineActive := false } := by
    simp [Wheel.beginVisit, Wheel.modify]
  have hbegin := h.beginVisit
  simp only [Wheel.visit]
  split
  · have hrecorded : WheelInv ((w.beginVisit c).recordExpiry ⟨c, (w.heap c).deadlineMs, nowMs⟩) B r :=
      hbegin.congr rfl rfl rfl rfl rfl
    have hheap : ((w.beginVisit c).recordExpiry ⟨c, (w.heap c).deadlineMs, nowMs⟩).heap =
      (w.beginVisit c).heap := rfl
    have hinactive : (((w.beginVisit c).recordExpiry ⟨c, (w.heap c).deadlineMs, nowMs⟩).heap
        c).deadlineActive = false := by rw [hheap, hself]
    obtain ⟨harms, B', hexpired⟩ := hrecorded.expire hinactive (by rw [hheap, hself]; exact hfd)
    split
    · exact ⟨(onlyAt_rearm cfg _ c nowMs).frame.trans harms.frame,
        hexpired.rearm (harms.inactive hinactive) cfg nowMs⟩
    · exact ⟨harms.frame, B', hexpired⟩
  · exact ⟨(onlyAt_twInsertInternal _ c nowMs _).frame, hbegin.insert (by rw [hself]) nowMs _⟩

lemma WheelInv.walk_induct (cfg : TimeoutCfg) (nowMs : ℕ) (P : Wheel → List ℕ → Prop)
    (hstep : ∀ w B c r, WheelInv w B (c :: r) → P w (c :: r) → P (w.visit cfg c nowMs) r) {n : ℕ}
    (h : WheelInv w B r) (hP : P w r) (hn : r.length ≤ n) :
    ∃ B', WheelInv (w.walk cfg nowMs n r.head?) B' [] ∧ P (w.walk cfg nowMs n r.head?) [] := by
  induction r generalizing w B n with
  | nil =>
    rw [List.head?_nil, Wheel.walk]
    exact ⟨B, h, hP⟩
  | cons c r ih =>
    obtain ⟨n, rfl⟩ : ∃ m, n = m + 1 := ⟨n - 1, by simp only [List.length_cons] at hn; omega⟩
    obtain ⟨-, B', hvisited⟩ := h.visit cfg nowMs
    have hnext : (w.heap c).twNext = r.head? := h.wf.next_eq
    rw [List.head?_cons, Wheel.walk, hnext]
    exact ih hvisited (hstep w B c r h hP) (by simpa using hn)

lemma WheelInv.beginTick (h : WheelInv w B []) :
    WheelInv w.beginTick (Function.update B (w.nowTick &&& w.mask) []) (B (w.nowTick &&& w.mask)) := by
  refine ⟨h.wf.detach (w.nowTick &&& w.mask), fun a => ?_, h.slots_pos⟩
  obtain ⟨hlinked, hstored, hheld, hidle⟩ := h.ok a
  exact ⟨hlinked, hstored, hheld, hidle⟩

lemma WheelInv.length_le (h : WheelInv w B []) (s : ℕ) : (B s).length ≤ w.allocated := by
  have hsub : (B s).toFinset ⊆ Finset.range w.allocated := by
    intro a ha
    have hactive := ((h.wf.mem_iff s a).mp (List.mem_toFinset.mp ha)).1
    have hfd := ((h.ok a).linked hactive).1
    exact Finset.mem_range.mpr ((h.ok a).held (h.inUse_of_fd hfd)).2.2
  calc (B s).length = (B s).toFinset.card := (List.toFinset_card_of_nodup (h.wf.nodup s)).symm
    _ ≤ (Finset.range w.allocated).card := Finset.card_le_card hsub
    _ = w.allocated := Finset.card_range _

lemma WheelInv.tick_induct (cfg : TimeoutCfg) (nowMs : ℕ) (P : Wheel → List ℕ → Prop)
    (hstep : ∀ w B c r, WheelInv w B (c :: r) → P w (c :: r) → P (w.visit cfg c nowMs) r)
    (h : WheelInv w B []) (hP : P w.beginTick (B (w.nowTick &&& w.mask))) :
    ∃ B', WheelInv (twProcessTick cfg w nowMs) B' [] ∧ P (twProcessTick cfg w nowMs) [] := by
  have hhead : w.buckets (w.nowTick &&& w.mask) = (B (w.nowTick &&& w.mask)).head? :=
    (h.wf.isList (w.nowTick &&& w.mask)).1
  rw [twProcessTick, hhead]
  exact h.beginTick.walk_induct cfg nowMs P hstep hP (h.length_le _)

lemma WheelInv.tick (h : WheelInv w B []) (cfg : TimeoutCfg) (nowMs : ℕ) :
    (∃ B', WheelInv (twProcessTick cfg w nowMs) B' []) ∧
      (twProcessTick cfg w nowMs).visited = B (w.nowTick &&& w.mask) ∧
      (twProcessTick cfg w nowMs).stuck = w.stuck := by
  obtain ⟨B', hinv, hvisited, hstuck⟩ := h.tick_induct cfg nowMs
    (fun w' r => w'.visited ++ r = B (w.nowTick &&& w.mask) ∧ w'.stuck = w.stuck)
    (fun w' B' c r h' hP => by
      have hframe := (h'.visit cfg nowMs).1
      have hvis := Wheel.field_of_frame Wheel.visited (fun _ => rfl) hframe
      have hst := Wheel.field_of_frame Wheel.stuck (fun _ => rfl) hframe
      exact ⟨by rw [hvis, List.append_assoc]; exact hP.1, hst.trans hP.2⟩)
    ⟨rfl, rfl⟩
  exact ⟨⟨B', hinv⟩, by simpa using hvisited, hstuck⟩

lemma WheelInv.sweepLoop (h : WheelInv w B []) (cfg : TimeoutCfg) (nowMs n : ℕ) :
    (∃ B', WheelInv (w.sweepLoop cfg nowMs n) B' []) ∧ (w.sweepLoop cfg nowMs n).stuck = w.stuck := by
  induction n generalizing w B with
  | zero => exact ⟨⟨B, h⟩, rfl⟩
  | succ n ih =>
    simp only [Wheel.sweepLoop]
    split
    · obtain ⟨⟨B', hinv⟩, -, hstuck⟩ := h.tick cfg nowMs
      obtain ⟨hinv', hstuck'⟩ := ih (w := { twProcessTick cfg w nowMs with
        nextTickDeadlineMs := (twProcessTick cfg w nowMs).nextTickDeadlineMs +
          (twProcessTick cfg w nowMs).tickMs }) (hinv.congr rfl rfl rfl rfl rfl)
      exact ⟨hinv', hstuck'.trans hstuck⟩
    · exact ⟨⟨B, h⟩, rfl⟩

/-! ## Runs -/

lemma WheelInv.replace (h : WheelInv w B r) (hinactive : (w.heap c).deadlineActive = false) {x : WheelConn}
    (hx : x.deadlineActive = false) {store : ℕ → Option ℕ} {allocated : ℕ}
    (hstore : ∀ a, a ≠ c → ∀ fd, store fd = some a ↔ w.store fd = some a)
    (hallocated : w.allocated ≤ allocated) :
    ConnOk { w with heap := Function.update w.heap c x, store := store, allocated := allocated } c →
      WheelInv { w with heap := Function.update w.heap c x, store := store, allocated := allocated } B r := by
  intro hc
  refine ⟨(offList_modify w c (f := fun _ => x) fun _ _ => hx).wf hinactive B r h.wf, fun a => ?_,
    h.slots_pos⟩
  by_cases ha : a = c
  · exact ha ▸ hc
  · obtain ⟨hlinked, hstored, hheld, hidle⟩ := h.ok a
    constructor <;> simp only [Function.update_of_ne ha]
    · exact hlinked
    · exact fun fd => (hstore a ha fd).trans (hstored fd)
    · exact fun hinUse =>
        ⟨(hheld hinUse).1, (hheld hinUse).2.1, (hheld hinUse).2.2.trans_le hallocated⟩
    · exact hidle

lemma WheelInv.inactive_of_free (h : WheelInv w B r) (hfree : (w.heap c).inUse = false) :
    (w.heap c).deadlineActive = false := by
  by_contra hactive
  exact ((h.ok c).linked (by simpa using hactive)).1 ((h.ok c).idle hfree).1

lemma WheelInv.not_stored_of_free (h : WheelInv w B r) (hfree : (w.heap c).inUse = false) (fd : ℕ) :
    w.store fd ≠ some c := by
  intro hst
  have hnone := ((h.ok c).idle hfree).1
  simp [((h.ok c).stored fd).mp hst] at hnone

lemma WheelInv.storePut (h : WheelInv w B r) (hfree : (w.heap c).inUse = false) {fd : ℕ}
    (hfd : w.store fd = none) (nowMs : ℕ) :
    WheelInv ((w.connAlloc c fd nowMs).storePut fd c) B r := by
  refine h.replace (h.inactive_of_free hfree) rfl ?_ (le_max_left _ _) ?_
  · intro a ha fd'
    by_cases hfd' : fd' = fd
    · subst hfd'
      simp [hfd, Ne.symm ha]
    · simp [Wheel.connAlloc, hfd']
  · constructor
    · simp
    · intro fd'
      by_cases hfd' : fd' = fd
      · simp [hfd']
      · simpa [Wheel.connAlloc, hfd', Ne.symm hfd'] using h.not_stored_of_free hfree fd'
    · simp [Wheel.connAlloc]
    · simp

lemma WheelInv.notStored (h : WheelInv w B r) (hfree : (w.heap c).inUse = false) (fd nowMs : ℕ) :
    WheelInv (connRecycle (w.connAlloc c fd nowMs) c) B r := by
  rw [connRecycle, Wheel.modify, Wheel.connAlloc]
  simp only [Function.update_self, Function.update_idem]
  refine h.replace (h.inactive_of_free hfree) rfl (fun _ _ _ => Iff.rfl) (le_max_left _ _) ?_
  constructor
  · simp
  · simpa using h.not_stored_of_free hfree
  · simp
  · simp

lemma WheelInv.connInit (h : WheelInv w B []) (hfree : (w.heap c).inUse = false) {fd : ℕ}
    (hfd : w.store fd = none) (cfg : TimeoutCfg) (stored : Bool) (nowMs : ℕ) :
    ∃ B', WheelInv (w.connInit cfg c fd stored nowMs) B' [] := by
  unfold Wheel.connInit
  split
  · exact (h.storePut hfree hfd nowMs).reschedule cfg nowMs
  · exact ⟨B, h.notStored hfree fd nowMs⟩

lemma WheelInv.step (h : WheelInv w B []) (cfg : TimeoutCfg) {e : WheelEvent × List Bool}
    (hen : w.enabled e = true) :
    (∃ B', WheelInv (w.step cfg e) B' []) ∧ (w.step cfg e).stuck = w.stuck := by
  obtain ⟨e, sqes⟩ := e
  have h₀ : WheelInv { w with sqes := sqes, clock := e.time w.clock } B [] := h.congr rfl rfl rfl rfl rfl
  simp only [Wheel.step]
  generalize hw₀ : ({ w with sqes := sqes, clock := e.time w.clock } : Wheel) = w₀ at h₀ ⊢
  have hheap : w₀.heap = w.heap := by rw [← hw₀]
  have hst : w₀.store = w.store := by rw [← hw₀]
  have hstuck : w₀.stuck = w.stuck := by rw [← hw₀]
  have hof : ∀ {w' : Wheel}, w'.frame = w₀.frame → w'.stuck = w.stuck := fun hframe =>
    (Wheel.field_of_frame Wheel.stuck (fun _ => rfl) hframe).trans hstuck
  cases e with
  | accept c fd stored nowMs =>
    simp only [Wheel.enabled, Bool.and_eq_true, Bool.not_eq_true', beq_iff_eq] at hen
    rw [← hheap, ← hst] at hen
    refine ⟨h₀.connInit hen.1.1 hen.2 cfg stored nowMs, ?_⟩
    simp only [Wheel.handle, Wheel.connInit]
    split
    · exact (Wheel.field_of_frame Wheel.stuck (fun _ => rfl)
        (onlyAt_twReschedule cfg _ c nowMs).frame).trans hstuck
    · exact hstuck
  | update c view abortiveClose writePollArmed =>
    refine ⟨⟨B, ?_⟩, hstuck⟩
    simp only [Wheel.handle]
    exact h₀.modify (fun _ => rfl) fun _ => ⟨rfl, rfl, rfl, rfl⟩
  | post c =>
    refine ⟨⟨B, ?_⟩, hstuck⟩
    simp only [Wheel.handle]
    refine h₀.post ?_ (fun _ => rfl) fun _ => ⟨rfl, rfl, rfl, rfl⟩
    rw [hheap]
    exact hen
  | complete c =>
    simp only [Wheel.enabled, decide_eq_true_eq] at hen
    rw [← hheap] at hen
    exact ⟨⟨B, h₀.complete hen⟩,
      hof ((onlyAt_modify w₀ c _).trans (offList_connPut _ c).onlyAt).frame⟩
  | reschedule c nowMs =>
    exact ⟨h₀.reschedule cfg nowMs, hof (onlyAt_twReschedule cfg w₀ c nowMs).frame⟩
  | cancel c => exact ⟨h₀.cancel fun _ => rfl, hof (onlyAt_twCancel w₀ c).frame⟩
  | close fd =>
    obtain ⟨harms, hinv⟩ := h₀.close (some fd) fun _ _ _ => rfl
    exact ⟨hinv, hof harms.frame⟩
  | tick nowMs =>
    obtain ⟨hinv, -, hst'⟩ := h₀.tick cfg nowMs
    exact ⟨hinv, hst'.trans hstuck⟩
  | sweep nowMs =>
    obtain ⟨hinv, hst'⟩ := h₀.sweepLoop cfg nowMs (nowMs + 1 - w₀.nextTickDeadlineMs)
    exact ⟨hinv, hst'.trans hstuck⟩

lemma wheelInv_twInit {slots : ℕ} (hslots : 0 < slots) (tickMs nowMs : ℕ) :
    WheelInv (twInit slots tickMs nowMs) (fun _ => []) [] where
  wf := by
    constructor <;> simp [twInit, Wheel.shape, IsList, Chain]
  ok a := by
    constructor <;> simp [twInit]
  slots_pos := hslots

/-- The buckets of the wheel are the lists `B`: they are doubly linked, a connection is once in the list of
its slot exactly if its deadline is active, and it then has a descriptor and is not recycled. -/
structure Wheel.HasLists (w : Wheel) (B : ℕ → List ℕ) : Prop where
  isList : ∀ s, IsList w.shape.links (w.buckets s) (B s)
  nodup : ∀ s, (B s).Nodup
  mem_iff : ∀ s c, c ∈ B s ↔ (w.heap c).deadlineActive = true ∧ (w.heap c).twSlot = s
  owned : ∀ s c, c ∈ B s → s < w.slots ∧ (w.heap c).fd ≠ none ∧ (w.heap c).inUse = true

lemma WheelInv.hasLists (h : WheelInv w B []) : w.HasLists B where
  isList := h.wf.isList
  nodup := h.wf.nodup
  mem_iff s c := by simpa [Wheel.shape] using h.wf.mem_iff s c
  owned s c hc := by
    obtain ⟨hactive, hslot, -⟩ := (h.wf.mem_iff s c).mp hc
    obtain ⟨hfd, hlt⟩ := (h.ok c).linked hactive
    exact ⟨hslot ▸ hlt, hfd, h.inUse_of_fd hfd⟩

/-- In every run of the worker the buckets of the timing wheel are lists, and a tick visits the connections
of its bucket once each, after which each is in no list or in one. -/
theorem wheel_lists_of_run (cfg : TimeoutCfg) {slots : ℕ} (hslots : 0 < slots) (tickMs startMs : ℕ)
    {es : List (WheelEvent × List Bool)} {w : Wheel}
    (hrun : Run (Wheel.step cfg) (fun w e => w.enabled e = true) (twInit slots tickMs startMs) es w) :
    ∃ B, w.HasLists B ∧ w.stuck = false ∧ ∀ nowMs sqes,
      (w.step cfg (.tick nowMs, sqes)).stuck = false ∧
      (w.step cfg (.tick nowMs, sqes)).visited = B (w.nowTick &&& w.mask) ∧
      ∃ B', (w.step cfg (.tick nowMs, sqes)).HasLists B' ∧
        ∀ c ∈ B (w.nowTick &&& w.mask), (∀ s, c ∉ B' s) ∨ ∃! s, c ∈ B' s := by
  obtain ⟨⟨B, hinv⟩, hstuck⟩ := hrun.invariant
    (fun _ w => (∃ B, WheelInv w B []) ∧ w.stuck = false) ⟨⟨_, wheelInv_twInit hslots tickMs startMs⟩, rfl⟩
    fun _ w e hw hen => by
      obtain ⟨hnext, hst⟩ := hw.1.choose_spec.step cfg hen
      exact ⟨hnext, hst.trans hw.2⟩
  refine ⟨B, hinv.hasLists, hstuck, fun nowMs sqes => ?_⟩
  have hinv₀ : WheelInv { w with sqes := sqes, clock := nowMs } B [] := hinv.congr rfl rfl rfl rfl rfl
  obtain ⟨⟨B', hinv'⟩, hvisited, hstuck'⟩ := hinv₀.tick cfg nowMs
  refine ⟨hstuck'.trans hstuck, hvisited, B', hinv'.hasLists, fun c _ => ?_⟩
  by_cases hlinked : ∃ s, c ∈ B' s
  · obtain ⟨s, hs⟩ := hlinked
    refine .inr ⟨s, hs, fun s' hs' => ?_⟩
    exact ((hinv'.hasLists.mem_iff s' c).mp hs').2.symm.trans ((hinv'.hasLists.mem_iff s c).mp hs).2
  · exact .inl fun s hs => hlinked ⟨s, hs⟩

/-- Two connections are accepted; the header deadline of the first expires and a 408 is staged, and a tick
passes the second by. -/
def wheelScript : Script (Wheel.step {}) (fun w e => w.enabled e = true) (twInit 4 100 1000)
    (fun w => w.buckets 2 = some 1 ∧ (w.heap 0).opRefs = 1 ∧ (w.heap 0).deadlineActive = false) where
  events :=
    [(.accept 0 7 true 1000, []), (.accept 1 8 true 1000, []),
      (.update 0 { headerStartMs := 1000, parserBytes := 3 } false false, []),
      (.reschedule 0 1000, []), (.tick 31000, []), (.tick 1200, [])]
  allowed := by decide
  ends := by decide

theorem wheel_lists_of_two_accepts : ∃ w B,
    Run (Wheel.step {}) (fun w e => w.enabled e = true) (twInit 4 100 1000) wheelScript.events w ∧
      (w.buckets 2 = some 1 ∧ (w.heap 0).opRefs = 1 ∧ (w.heap 0).deadlineActive = false) ∧
      w.HasLists B := by
  obtain ⟨w, hrun, hend⟩ := wheelScript.exists_run
  obtain ⟨B, hlists, -⟩ := wheel_lists_of_run {} (by decide) 100 1000 hrun
  exact ⟨w, B, hrun, hend, hlists⟩

end Lamseryn
