import Lamseryn.Properties.WheelLists

/-!
# The accuracy of the timing wheel

No deadline expires early, and after a sweep no deadline is overdue by a whole tick: a connection that is
still armed has a deadline, or was scheduled, less than a tick ago or in the future.

The invariant (`Due`) says for an armed connection how many ticks it still has to wait for, and that the
last of these is at most one tick after the deadline or after the time of scheduling.  It relates the slot of the
connection to the counter `tw_now_tick`, which lags behind the clock, and to the time
`next_tick_deadline_ms` at which the counter moves on.
-/

namespace Lamseryn

open IntrusiveList GuardedRun

/-- The time at which the deadline of a connection was last computed: by `tw_reschedule`, or by the tick in
which the previous one expired. -/
def WheelConn.scheduledMs (x : WheelConn) : ℕ :=
  x.rearmedMs.getD x.rescheduledMs

/-- A connection in bucket `slot` is visited by the tick that is `k` ticks after the next one, which comes
at most a tick after its deadline, or after it was scheduled. -/
def Due (slots tickMs nowTick nextTickMs : ℕ) (x : WheelConn) : Prop :=
  ∃ k, x.twSlot = (nowTick + k) % slots ∧
    nextTickMs + k * tickMs ≤ max x.deadlineMs x.scheduledMs + tickMs

lemma and_mask {w : Wheel} {b : ℕ} (hslots : w.slots = 2 ^ b) (x : ℕ) : x &&& w.mask = x % w.slots := by
  rw [Wheel.mask, hslots]
  exact Nat.and_two_pow_sub_one_eq_mod x b

lemma due_twSlotFor {w : Wheel} {b : ℕ} (hslots : w.slots = 2 ^ b) (htick : 0 < w.tickMs)
    {nowMs nextTickMs : ℕ} (hnext : nextTickMs ≤ nowMs + w.tickMs) {x : WheelConn}
    (hslot : x.twSlot = twSlotFor w nowMs x.deadlineMs)
    (hsched : x.deadlineMs ≤ nowMs → x.scheduledMs = nowMs) :
    Due w.slots w.tickMs w.nowTick nextTickMs x := by
  rw [twSlotFor, and_mask hslots] at hslot
  by_cases hlate : nowMs < x.deadlineMs
  · refine ⟨(x.deadlineMs - nowMs) / w.tickMs, ?_, ?_⟩
    · simpa [hlate, htick.ne'] using hslot
    · have hdiv : (x.deadlineMs - nowMs) / w.tickMs * w.tickMs ≤ x.deadlineMs - nowMs :=
        Nat.div_mul_le_self _ _
      have hmax := le_max_left x.deadlineMs x.scheduledMs
      omega
  · refine ⟨0, ?_, ?_⟩
    · simpa [hlate] using hslot
    · have hmax := le_max_right x.deadlineMs x.scheduledMs
      rw [hsched (by omega)] at hmax
      rw [hsched (by omega)]
      omega

lemma Due.tick {slots tickMs nowTick nextTickMs : ℕ} {x : WheelConn}
    (h : Due slots tickMs nowTick nextTickMs x) (hslot : x.twSlot ≠ nowTick % slots) :
    Due slots tickMs (nowTick + 1) (nextTickMs + tickMs) x := by
  obtain ⟨k, hk, hle⟩ := h
  cases k with
  | zero => exact absurd hk hslot
  | succ k =>
    refine ⟨k, ?_, ?_⟩
    · rw [hk, Nat.add_right_comm nowTick 1 k, Nat.add_assoc nowTick k 1]
    · rw [Nat.succ_mul] at hle
      omega

lemma Due.of_timing {slots tickMs nowTick nextTickMs : ℕ} {x y : WheelConn}
    (h : Due slots tickMs nowTick nextTickMs x) (htiming : y.timing = x.timing) :
    Due slots tickMs nowTick nextTickMs y := by
  simp only [WheelConn.timing, Prod.mk.injEq] at htiming
  obtain ⟨hslot, hdeadline, hresched, hrearmed⟩ := htiming
  simpa [Due, WheelConn.scheduledMs, hslot, hdeadline, hresched, hrearmed] using h

/-- Every armed connection is due in time, except those that a tick has yet to visit. -/
def DueAll (nextTickMs : ℕ) (r : List ℕ) (w : Wheel) : Prop :=
  ∀ a, (w.heap a).deadlineActive = true → a ∉ r →
    Due w.slots w.tickMs w.nowTick nextTickMs (w.heap a)

/-- The number and the length of ticks, the counter and the two times. -/
def Wheel.consts (w : Wheel) : ℕ × ℕ × ℕ × ℕ × ℕ :=
  (w.slots, w.tickMs, w.nowTick, w.nextTickDeadlineMs, w.clock)

section Steps

variable {w w' : Wheel} {B : ℕ → List ℕ} {r : List ℕ} {c nextTickMs : ℕ}

lemma consts_of_frame (h : w'.frame = w.frame) : w'.consts = w.consts :=
  Wheel.field_of_frame Wheel.consts (fun _ => rfl) h

lemma ticks_of_frame (h : w'.frame = w.frame) :
    w'.slots = w.slots ∧ w'.tickMs = w.tickMs ∧ w'.nowTick = w.nowTick := by
  have hconsts := consts_of_frame h
  simp only [Wheel.consts, Prod.mk.injEq] at hconsts
  exact ⟨hconsts.1, hconsts.2.1, hconsts.2.2.1⟩

lemma DueAll.armsNone (h : DueAll nextTickMs r w) (harms : ArmsNone w w') : DueAll nextTickMs r w' := by
  intro a ha har
  obtain ⟨hslots, htick, hnow⟩ := ticks_of_frame harms.frame
  obtain ⟨hactive, htiming⟩ := harms.armed a ha
  rw [hslots, htick, hnow]
  exact (h a hactive har).of_timing htiming

/-- `tw_insert_internal` with a deadline that has been computed now or lies in the future. -/
lemma DueAll.insert (h : DueAll nextTickMs r w) {b : ℕ} (hslots : w.slots = 2 ^ b) (htick : 0 < w.tickMs)
    {nowMs : ℕ} (hnext : nextTickMs ≤ nowMs + w.tickMs) {deadlineMs : ℕ}
    (hsched : deadlineMs ≤ nowMs → (w.heap c).scheduledMs = nowMs) :
    DueAll nextTickMs r (twInsertInternal w c nowMs deadlineMs) := by
  by_cases hfd : (w.heap c).fd = none
  · have hsame : twInsertInternal w c nowMs deadlineMs = w := by simp [twInsertInternal, hfd]
    rw [hsame]
    exact h
  · have hop := onlyAt_twInsertInternal w c nowMs deadlineMs
    have hcore := core_twInsertInternal hfd nowMs deadlineMs
    obtain ⟨hslots', htick', hnow'⟩ := ticks_of_frame hop.frame
    intro a ha har
    rw [hslots', htick', hnow']
    by_cases hac : a = c
    · subst hac
      have htiming := WheelConn.field_of_core WheelConn.timing (fun _ => rfl) hcore
      refine Due.of_timing ?_ htiming
      exact due_twSlotFor hslots htick hnext rfl hsched
    · have hac' := hop.core a hac
      rw [(active_slot_of_core hac').1] at ha
      exact (h a ha har).of_timing (WheelConn.field_of_core WheelConn.timing (fun _ => rfl) hac')

lemma armsNone_modify (w : Wheel) (c : ℕ) {f : WheelConn → WheelConn}
    (hactive : ∀ x, (f x).deadlineActive = true → x.deadlineActive = true)
    (htiming : ∀ x, (f x).deadlineActive = true → (f x).timing = x.timing) :
    ArmsNone w (w.modify c f) := by
  refine (onlyAt_modify w c f).armsNone fun ha => ?_
  rw [heap_modify_self] at ha ⊢
  exact ⟨hactive _ ha, htiming _ ha⟩

lemma armsNone_remove_modify (w : Wheel) (c : ℕ) (f : WheelConn → WheelConn) :
    ArmsNone w (twRemoveInternal (w.modify c f) c) := by
  refine ((onlyAt_modify w c f).trans (onlyAt_twRemoveInternal _ c)).armsNone fun ha => ?_
  rw [active_twRemoveInternal] at ha
  exact absurd ha Bool.false_ne_true

lemma DueAll.reschedule (h : DueAll nextTickMs r w) {b : ℕ} (hslots : w.slots = 2 ^ b)
    (htick : 0 < w.tickMs) {nowMs : ℕ} (hnext : nextTickMs ≤ nowMs + w.tickMs) (cfg : TimeoutCfg) :
    DueAll nextTickMs r (twReschedule cfg w c nowMs) := by
  simp only [twReschedule]
  have harms := armsNone_remove_modify w c fun x =>
    { x with deadlineKind := ((w.heap c).deadline cfg).1, rescheduledMs := nowMs, rearmedMs := none }
  obtain ⟨hslots', htick', -⟩ := ticks_of_frame harms.frame
  split
  · refine (h.armsNone harms).insert (hslots'.trans hslots) (htick' ▸ htick) (htick' ▸ hnext) fun _ => ?_
    rw [WheelConn.field_of_core WheelConn.scheduledMs (fun _ => rfl) (core_twRemoveInternal _ c),
      heap_modify_self]
    rfl
  · exact h.armsNone harms

/-- A visit of a tick that is not ahead of the clock. -/
lemma DueAll.visit (h : DueAll nextTickMs (c :: r) w) (hinv : WheelInv w B (c :: r)) {b : ℕ}
    (hslots : w.slots = 2 ^ b) (htick : 0 < w.tickMs) {nowMs : ℕ}
    (hnext : nextTickMs ≤ nowMs + w.tickMs) (cfg : TimeoutCfg) :
    DueAll nextTickMs r (w.visit cfg c nowMs) := by
  have hself : (w.beginVisit c).heap c =
      { w.heap c with twPrev := none, twNext := none, deadlineActive := false } := by
    simp [Wheel.beginVisit, Wheel.modify]
  have hbegin : DueAll nextTickMs r (w.beginVisit c) := by
    intro a ha har
    by_cases hac : a = c
    · rw [hac, hself] at ha
      exact absurd ha Bool.false_ne_true
    · have hother : (w.beginVisit c).heap a = w.heap a := by simp [Wheel.beginVisit, Wheel.modify, hac]
      rw [hother] at ha ⊢
      exact h a ha (by simp [hac, har])
  simp only [Wheel.visit]
  split
  · -- expired: a connection that is alive gets a deadline that is computed now
    have hfd : (w.heap c).fd ≠ none := ((hinv.ok c).linked (hinv.wf.rest_active c (by simp))).1
    have hrecorded : WheelInv ((w.beginVisit c).recordExpiry ⟨c, (w.heap c).deadlineMs, nowMs⟩) B r :=
      hinv.beginVisit.congr rfl rfl rfl rfl rfl
    generalize hw₁ : (w.beginVisit c).recordExpiry ⟨c, (w.heap c).deadlineMs, nowMs⟩ = w₁ at hrecorded
    have hheap : w₁.heap = (w.beginVisit c).heap := by rw [← hw₁]; rfl
    have hdue : DueAll nextTickMs r w₁ := by rw [← hw₁]; exact hbegin
    have hslots₁ : w₁.slots = w.slots := by rw [← hw₁]; rfl
    have htick₁ : w₁.tickMs = w.tickMs := by rw [← hw₁]; rfl
    have harms := (hrecorded.expire (c := c) (by rw [hheap, hself]) (by rw [hheap, hself]; exact hfd)).1
    obtain ⟨hslots₂, htick₂, -⟩ := ticks_of_frame harms.frame
    have hinactive := harms.inactive (a := c) (by rw [hheap, hself])
    split
    · simp only [Wheel.rearm]
      generalize (w₁.expire c).2 = w₂ at harms hslots₂ htick₂ hinactive ⊢
      have hkind : ArmsNone w₂ (w₂.modify c fun x =>
          { x with deadlineKind := ((w₂.heap c).deadline cfg).1 }) :=
        armsNone_modify w₂ c (fun _ hx => hx) fun _ _ => rfl
      split
      · have hrearmed : ArmsNone w₂ ((w₂.modify c fun x =>
            { x with deadlineKind := ((w₂.heap c).deadline cfg).1 }).modify c fun x =>
              { x with rearmedMs := some nowMs }) := by
          refine ((onlyAt_modify w₂ c _).trans (onlyAt_modify _ c _)).armsNone fun ha => ?_
          rw [heap_modify_self, heap_modify_self] at ha
          exact absurd (hinactive.symm.trans ha) Bool.false_ne_true
        obtain ⟨hslots₃, htick₃, -⟩ := ticks_of_frame hrearmed.frame
        have htick' := htick₃.trans (htick₂.trans htick₁)
        refine ((hdue.armsNone harms).armsNone hrearmed).insert
          (hslots₃.trans (hslots₂.trans (hslots₁.trans hslots))) (htick' ▸ htick) (htick' ▸ hnext) fun _ => ?_
        rw [heap_modify_self]
        rfl
      · exact (hdue.armsNone harms).armsNone hkind
    · exact hdue.armsNone harms
  next hlate =>
    -- not expired: the deadline lies in the future
    exact hbegin.insert hslots htick hnext fun hle => absurd hle hlate

lemma DueAll.beginTick (h : DueAll w.nextTickDeadlineMs [] w) (hinv : WheelInv w B []) {b : ℕ}
    (hslots : w.slots = 2 ^ b) :
    DueAll (w.nextTickDeadlineMs + w.tickMs) (B (w.nowTick &&& w.mask)) w.beginTick := by
  intro a ha har
  refine (h a ha List.not_mem_nil).tick fun hslot => har ?_
  rw [and_mask hslots, ← hslot]
  exact (hinv.wf.mem_iff _ a).mpr ⟨ha, rfl, List.not_mem_nil⟩

end Steps

/-! ## Ticks and sweeps -/

/-- No recorded expiry was early. -/
def NoneEarly (w : Wheel) : Prop :=
  ∀ e ∈ w.expired, e.deadlineMs ≤ e.nowMs

/-- What holds between events, up to the relation between the next tick and the clock. -/
structure Accurate (w : Wheel) : Prop where
  lists : ∃ B, WheelInv w B []
  slots_pow : ∃ b, w.slots = 2 ^ b
  tick_pos : 0 < w.tickMs
  due : DueAll w.nextTickDeadlineMs [] w
  noneEarly : NoneEarly w

section Runs

variable {w w' : Wheel} {cfg : TimeoutCfg} {nowMs : ℕ}

lemma NoneEarly.visit {B : ℕ → List ℕ} {r : List ℕ} {c : ℕ} (h : NoneEarly w) (hinv : WheelInv w B (c :: r))
    (cfg : TimeoutCfg) (nowMs : ℕ) : NoneEarly (w.visit cfg c nowMs) := by
  have hexpired := Wheel.field_of_frame Wheel.expired (fun _ => rfl) (hinv.visit cfg nowMs).1
  intro e he
  rw [hexpired] at he
  dsimp only at he
  split at he
  next hle =>
    rcases List.mem_append.mp he with he | he
    · exact h e he
    · rw [List.mem_singleton.mp he]
      exact hle
  next => exact h e he

lemma Accurate.tick (h : Accurate w) (hnow : w.nextTickDeadlineMs ≤ nowMs) (cfg : TimeoutCfg) :
    Accurate { twProcessTick cfg w nowMs with
      nextTickDeadlineMs :=
        (twProcessTick cfg w nowMs).nextTickDeadlineMs + (twProcessTick cfg w nowMs).tickMs } ∧
      (twProcessTick cfg w nowMs).nextTickDeadlineMs = w.nextTickDeadlineMs ∧
      (twProcessTick cfg w nowMs).tickMs = w.tickMs ∧ (twProcessTick cfg w nowMs).clock = w.clock := by
  obtain ⟨B, hinv⟩ := h.lists
  obtain ⟨b, hslots⟩ := h.slots_pow
  obtain ⟨B', hinv', ⟨hconsts, hdue, hearly⟩⟩ := hinv.tick_induct cfg nowMs
    (fun w' r => w'.consts = w.beginTick.consts ∧ DueAll (w.nextTickDeadlineMs + w.tickMs) r w' ∧
      NoneEarly w')
    (fun w' B' c r hinv' hP => by
      obtain ⟨hconsts, hdue, hearly⟩ := hP
      have hframe := consts_of_frame (hinv'.visit cfg nowMs).1
      simp only [Wheel.consts, Wheel.beginTick, Prod.mk.injEq] at hconsts hframe ⊢
      obtain ⟨hslots', htick', hrest⟩ := hconsts
      refine ⟨by simp [hframe, hslots', htick', hrest], ?_, hearly.visit hinv' cfg nowMs⟩
      refine hdue.visit hinv' (hslots'.trans hslots) (htick' ▸ h.tick_pos) ?_ cfg
      rw [htick']
      omega)
    ⟨rfl, h.due.beginTick hinv hslots, h.noneEarly⟩
  simp only [Wheel.consts, Wheel.beginTick, Prod.mk.injEq] at hconsts
  obtain ⟨hslots', htick', hnowTick, hnext, hclock⟩ := hconsts
  refine ⟨⟨⟨B', hinv'.congr rfl rfl rfl rfl rfl⟩, ⟨b, hslots'.trans hslots⟩, ?_, ?_, hearly⟩, hnext, htick',
    hclock⟩
  · exact htick' ▸ h.tick_pos
  · rw [hnext, htick']
    exact hdue

/-- A sweep at `nowMs` ends with the next tick after `nowMs`, by at most a tick. -/
lemma Accurate.sweepLoop (h : Accurate w) (cfg : TimeoutCfg) {n : ℕ}
    (hn : nowMs + 1 - w.nextTickDeadlineMs ≤ n) (hnext : w.nextTickDeadlineMs ≤ nowMs + w.tickMs) :
    Accurate (w.sweepLoop cfg nowMs n) ∧
      nowMs < (w.sweepLoop cfg nowMs n).nextTickDeadlineMs ∧
      (w.sweepLoop cfg nowMs n).nextTickDeadlineMs ≤ nowMs + (w.sweepLoop cfg nowMs n).tickMs ∧
      (w.sweepLoop cfg nowMs n).tickMs = w.tickMs ∧ (w.sweepLoop cfg nowMs n).clock = w.clock := by
  induction n generalizing w with
  | zero =>
    refine ⟨h, ?_, hnext, rfl, rfl⟩
    show nowMs < w.nextTickDeadlineMs
    omega
  | succ n ih =>
    simp only [Wheel.sweepLoop]
    split
    next hnow =>
      obtain ⟨hnext', hnextEq, htick, hclock⟩ := h.tick hnow cfg
      have hpos := h.tick_pos
      obtain ⟨hacc, hlt, hle, htick', hclock'⟩ := ih hnext' (by
        show nowMs + 1 - ((twProcessTick cfg w nowMs).nextTickDeadlineMs +
          (twProcessTick cfg w nowMs).tickMs) ≤ n
        omega) (by
        show (twProcessTick cfg w nowMs).nextTickDeadlineMs + (twProcessTick cfg w nowMs).tickMs ≤
          nowMs + (twProcessTick cfg w nowMs).tickMs
        omega)
      exact ⟨hacc, hlt, hle, htick'.trans htick, hclock'.trans hclock⟩
    next hnow => exact ⟨h, by omega, hnext, rfl, rfl⟩

lemma Accurate.armsNone (h : Accurate w) (harms : ArmsNone w w') (hinv : ∃ B, WheelInv w' B []) :
    Accurate w' ∧ w'.consts = w.consts := by
  have hconsts := consts_of_frame harms.frame
  refine ⟨?_, hconsts⟩
  simp only [Wheel.consts, Prod.mk.injEq] at hconsts
  obtain ⟨hslots, htick, -, hnext, -⟩ := hconsts
  obtain ⟨b, hb⟩ := h.slots_pow
  refine ⟨hinv, ⟨b, hslots.trans hb⟩, htick ▸ h.tick_pos, ?_, ?_⟩
  · rw [hnext]
    exact h.due.armsNone harms
  · intro e he
    rw [Wheel.field_of_frame Wheel.expired (fun _ => rfl) harms.frame] at he
    exact h.noneEarly e he

/-- `tw_reschedule` at the time of the clock. -/
lemma Accurate.reschedule (h : Accurate w) {c : ℕ} (hnext : w.nextTickDeadlineMs ≤ nowMs + w.tickMs)
    (cfg : TimeoutCfg) :
    Accurate (twReschedule cfg w c nowMs) ∧ (twReschedule cfg w c nowMs).consts = w.consts := by
  have hframe := (onlyAt_twReschedule cfg w c nowMs).frame
  have hconsts := consts_of_frame hframe
  refine ⟨?_, hconsts⟩
  simp only [Wheel.consts, Prod.mk.injEq] at hconsts
  obtain ⟨hslots, htick, -, hnextEq, -⟩ := hconsts
  obtain ⟨B, hinv⟩ := h.lists
  obtain ⟨b, hb⟩ := h.slots_pow
  refine ⟨hinv.reschedule cfg nowMs, ⟨b, hslots.trans hb⟩, htick ▸ h.tick_pos, ?_, ?_⟩
  · rw [hnextEq]
    exact h.due.reschedule hb h.tick_pos hnext cfg
  · intro e he
    rw [Wheel.field_of_frame Wheel.expired (fun _ => rfl) hframe] at he
    exact h.noneEarly e he

lemma armsNone_connPut (w : Wheel) (c : ℕ) : ArmsNone w (connPut w c) := by
  have hput : ArmsNone w (w.modify c fun x => { x with refcnt := x.refcnt - 1 }) :=
    armsNone_modify w c (fun _ hx => hx) fun _ _ => rfl
  simp only [connPut, connRecycle]
  split
  · refine hput.trans (armsNone_modify _ c ?_ ?_)
    · exact fun _ hx => absurd hx Bool.false_ne_true
    · exact fun _ hx => absurd hx Bool.false_ne_true
  · exact hput

lemma Accurate.replace (h : Accurate w) {c : ℕ} {x : WheelConn} (hx : x.deadlineActive = false)
    {store : ℕ → Option ℕ} {allocated : ℕ}
    (hinv : ∃ B, WheelInv { w with
      heap := Function.update w.heap c x, store := store, allocated := allocated } B []) :
    Accurate { w with heap := Function.update w.heap c x, store := store, allocated := allocated } := by
  refine ⟨hinv, h.slots_pow, h.tick_pos, fun a ha har => ?_, h.noneEarly⟩
  by_cases hac : a = c
  · subst hac
    simp [hx] at ha
  · simp only [Function.update_of_ne hac] at ha ⊢
    exact h.due a ha har

lemma Accurate.connInit (h : Accurate w) {c fd : ℕ} (hfree : (w.heap c).inUse = false)
    (hfd : w.store fd = none) (hnext : w.nextTickDeadlineMs ≤ nowMs + w.tickMs) (cfg : TimeoutCfg)
    (stored : Bool) :
    Accurate (w.connInit cfg c fd stored nowMs) ∧ (w.connInit cfg c fd stored nowMs).consts = w.consts := by
  obtain ⟨B, hinv⟩ := h.lists
  unfold Wheel.connInit
  split
  · have hput : Accurate ((w.connAlloc c fd nowMs).storePut fd c) :=
      h.replace rfl ⟨B, hinv.storePut hfree hfd nowMs⟩
    exact hput.reschedule hnext cfg
  · have hinv' := hinv.notStored hfree fd nowMs
    rw [connRecycle, Wheel.modify, Wheel.connAlloc] at hinv' ⊢
    simp only [Function.update_self, Function.update_idem] at hinv' ⊢
    exact ⟨h.replace rfl ⟨B, hinv'⟩, rfl⟩

/-- One event of a worker whose clock does not go back. -/
lemma Accurate.step (h : Accurate w) (hnext : w.nextTickDeadlineMs ≤ w.clock + w.tickMs)
    (cfg : TimeoutCfg) {e : WheelEvent × List Bool} (hok : w.timed e = true) :
    Accurate (w.step cfg e) ∧
      (w.step cfg e).nextTickDeadlineMs ≤ (w.step cfg e).clock + (w.step cfg e).tickMs ∧
      (w.step cfg e).tickMs = w.tickMs := by
  obtain ⟨e, sqes⟩ := e
  simp only [Wheel.timed, Bool.and_eq_true, decide_eq_true_eq] at hok
  obtain ⟨⟨hen, htime⟩, hnotTick⟩ := hok
  obtain ⟨B, hinv⟩ := h.lists
  have hinv' := (hinv.step cfg hen).1
  have h₀ : Accurate { w with sqes := sqes, clock := e.time w.clock } :=
    ⟨⟨B, hinv.congr rfl rfl rfl rfl rfl⟩, h.slots_pow, h.tick_pos, h.due, h.noneEarly⟩
  simp only [Wheel.step] at hinv' ⊢
  generalize hw₀ : ({ w with sqes := sqes, clock := e.time w.clock } : Wheel) = w₀ at h₀ hinv' ⊢
  have hheap : w₀.heap = w.heap := by rw [← hw₀]
  have hst : w₀.store = w.store := by rw [← hw₀]
  have htick : w₀.tickMs = w.tickMs := by rw [← hw₀]
  have hclock : w₀.clock = e.time w.clock := by rw [← hw₀]
  have hnext₀ : w₀.nextTickDeadlineMs ≤ e.time w.clock + w₀.tickMs := by
    rw [← hw₀]
    dsimp only
    omega
  -- what is left to show when the counter and the times are as before
  have hsame : ∀ w', Accurate w' ∧ w'.consts = w₀.consts → Accurate w' ∧
      w'.nextTickDeadlineMs ≤ w'.clock + w'.tickMs ∧ w'.tickMs = w.tickMs := by
    rintro w' ⟨hacc, hconsts⟩
    simp only [Wheel.consts, Prod.mk.injEq] at hconsts
    obtain ⟨-, htick', -, hnext', hclock'⟩ := hconsts
    refine ⟨hacc, ?_, htick'.trans htick⟩
    rw [hnext', hclock', htick', hclock]
    exact hnext₀
  cases e with
  | accept c fd stored nowMs =>
    simp only [Wheel.enabled, Bool.and_eq_true, Bool.not_eq_true', beq_iff_eq] at hen
    rw [← hheap, ← hst] at hen
    exact hsame _ (h₀.connInit hen.1.1 hen.2 hnext₀ cfg stored)
  | update c view abortiveClose writePollArmed =>
    simp only [Wheel.handle] at hinv' ⊢
    refine hsame _ (h₀.armsNone (armsNone_modify w₀ c ?_ ?_) hinv')
    · exact fun _ hx => hx
    · exact fun _ _ => rfl
  | post c =>
    simp only [Wheel.handle] at hinv' ⊢
    refine hsame _ (h₀.armsNone (armsNone_modify w₀ c ?_ ?_) hinv')
    · exact fun _ hx => hx
    · exact fun _ _ => rfl
  | complete c =>
    refine hsame _ (h₀.armsNone (.trans (armsNone_modify w₀ c ?_ ?_) (armsNone_connPut _ c)) hinv')
    · exact fun _ hx => hx
    · exact fun _ _ => rfl
  | reschedule c nowMs => exact hsame _ (h₀.reschedule hnext₀ cfg)
  | cancel c =>
    refine hsame _ (h₀.armsNone ((onlyAt_twCancel w₀ c).armsNone fun ha => ?_) hinv')
    rw [(active_slot_of_core (core_twCancel w₀ c)).1] at ha
    exact absurd ha Bool.false_ne_true
  | close fd =>
    obtain ⟨B₀, hinv₀⟩ := h₀.lists
    exact hsame _ (h₀.armsNone (hinv₀.close (some fd) fun _ _ _ => rfl).1 hinv')
  | tick nowMs => simp [WheelEvent.isTick] at hnotTick
  | sweep nowMs =>
    obtain ⟨hacc, -, hle, htick', hclock'⟩ := h₀.sweepLoop cfg le_rfl hnext₀
    refine ⟨hacc, ?_, htick'.trans htick⟩
    rw [show (w₀.handle cfg (.sweep nowMs)).clock = nowMs from hclock'.trans hclock]
    exact hle

lemma accurate_twInit {slots tickMs : ℕ} (hslots : ∃ b, slots = 2 ^ b) (htick : 0 < tickMs) (startMs : ℕ) :
    Accurate (twInit slots tickMs startMs) := by
  have hpos : 0 < slots := by
    obtain ⟨b, rfl⟩ := hslots
    exact Nat.two_pow_pos b
  refine ⟨⟨_, wheelInv_twInit hpos tickMs startMs⟩, hslots, htick, fun a ha => ?_, fun e he => ?_⟩
  · simp [twInit] at ha
  · simp [twInit] at he

lemma accurate_of_run (cfg : TimeoutCfg) {slots tickMs : ℕ} (hslots : ∃ b, slots = 2 ^ b)
    (htick : 0 < tickMs) (startMs : ℕ) {es : List (WheelEvent × List Bool)} {w : Wheel}
    (hrun : Run (Wheel.step cfg) (fun w e => w.timed e = true) (twInit slots tickMs startMs) es w) :
    Accurate w ∧ w.nextTickDeadlineMs ≤ w.clock + w.tickMs ∧ w.tickMs = tickMs :=
  hrun.invariant (fun _ w => Accurate w ∧ w.nextTickDeadlineMs ≤ w.clock + w.tickMs ∧ w.tickMs = tickMs)
    ⟨accurate_twInit hslots htick startMs, le_rfl, rfl⟩
    fun _ w e hw hok => by
      obtain ⟨hacc, hle, htick'⟩ := hw.1.step hw.2.1 cfg hok
      exact ⟨hacc, hle, htick'.trans hw.2.2⟩

/-- In every run of a worker whose clock does not go back, no deadline expires early, and after a sweep at
`nowMs` every armed connection has a deadline, or a time of its last scheduling, less than a tick before
`nowMs`.  The scheduling is a `tw_reschedule`, unless the deadline has expired since then and the tick
computed the next one. -/
theorem wheel_deadlines_of_run (cfg : TimeoutCfg) {slots tickMs : ℕ} (hslots : ∃ b, slots = 2 ^ b)
    (htick : 0 < tickMs) (startMs : ℕ) {es : List (WheelEvent × List Bool)} {w : Wheel}
    (hrun : Run (Wheel.step cfg) (fun w e => w.timed e = true) (twInit slots tickMs startMs) es w) :
    (∀ e ∈ w.expired, e.deadlineMs ≤ e.nowMs) ∧
      ∀ nowMs sqes, w.clock ≤ nowMs → ∀ c x, (w.step cfg (.sweep nowMs, sqes)).heap c = x →
        x.deadlineActive = true →
          (x.rearmedMs = none → nowMs < max x.deadlineMs x.rescheduledMs + tickMs) ∧
          ∀ t, x.rearmedMs = some t → nowMs < max x.deadlineMs t + tickMs := by
  obtain ⟨hacc, hnext, htickMs⟩ := accurate_of_run cfg hslots htick startMs hrun
  refine ⟨hacc.noneEarly, fun nowMs sqes hclock c x hx hactive => ?_⟩
  obtain ⟨B, hinv⟩ := hacc.lists
  have h₀ : Accurate { w with sqes := sqes, clock := nowMs } :=
    ⟨⟨B, hinv.congr rfl rfl rfl rfl rfl⟩, hacc.slots_pow, hacc.tick_pos, hacc.due, hacc.noneEarly⟩
  have hle : w.nextTickDeadlineMs ≤ nowMs + w.tickMs := by omega
  obtain ⟨hacc', hlt, -, htick', -⟩ := h₀.sweepLoop cfg le_rfl hle
  -- the next tick comes after `nowMs`, and the connection is due by then
  have hdue : nowMs < max x.deadlineMs x.scheduledMs + tickMs := by
    subst hx
    obtain ⟨k, -, hk⟩ := hacc'.due c hactive List.not_mem_nil
    have htick'' := htick'.trans htickMs
    rw [htick''] at hk
    exact hlt.trans_le ((Nat.le_add_right _ _).trans hk)
  refine ⟨fun hnone => ?_, fun t ht => ?_⟩
  · simpa [WheelConn.scheduledMs, hnone] using hdue
  · simpa [WheelConn.scheduledMs, ht] using hdue

end Runs

/-- A connection is accepted and a late sweep passes: its first deadline has not been reached. -/
def lateSweepScript : Script (Wheel.step {}) (fun w e => w.timed e = true) (twInit 4 100 1000)
    (fun w => ((w.step {} (.sweep 1950, [])).heap 0).deadlineActive = true ∧ w.clock ≤ 1950) where
  events := [(.accept 0 7 true 1000, []), (.sweep 1750, [])]
  allowed := by decide
  ends := by decide

theorem wheel_deadlines_late_sweep : ∃ w,
    Run (Wheel.step {}) (fun w e => w.timed e = true) (twInit 4 100 1000) lateSweepScript.events w ∧
      ((w.step {} (.sweep 1950, [])).heap 0).deadlineActive = true ∧
      (((w.step {} (.sweep 1950, [])).heap 0).rearmedMs = none →
        1950 < max ((w.step {} (.sweep 1950, [])).heap 0).deadlineMs
          ((w.step {} (.sweep 1950, [])).heap 0).rescheduledMs + 100) := by
  obtain ⟨w, hrun, hactive, hclock⟩ := lateSweepScript.exists_run
  obtain ⟨-, hsweep⟩ := wheel_deadlines_of_run {} ⟨2, rfl⟩ (by decide) 1000 hrun
  exact ⟨w, hrun, hactive, (hsweep 1950 [] hclock 0 _ rfl hactive).1⟩

end Lamseryn
