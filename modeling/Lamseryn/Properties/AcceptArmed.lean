import Lamseryn.Model.Accept

/-!
# Accept operations of the listeners

Two properties of the accept controller: no listener is left without an accept operation while no
backoff timeout is pending (`NotDeaf`), and no listener has two of them (`SingleAccept`).  Both fail.  An
accept operation that has ended is posted again only if an SQE is at hand, and nothing repeats the
attempt; and the end of the backoff posts an accept for every listener, also for those whose operation
was not cancelled or whose cancellation is still to be reported.

What a completion does is said once, by `acceptHandleCqe_spec` and `acceptRearmFrom_inflight`, in terms of
the state before and the outcomes of `get_sqe_batching`.  The two theorems then say exactly which steps
break the properties.
-/

namespace Lamseryn

open GuardedRun

variable {b : Bool} {s : AcceptCtl}

/-! ## What a completion does -/

/-- The `k`-th call of `get_sqe_batching` of a step succeeds. -/
def sqeGranted (sqes : List Bool) (k : ℕ) : Bool :=
  sqes.getD k true

/-- A completion arms the backoff timer. -/
def AcceptCtl.arms (s : AcceptCtl) (res : AcceptRes) : Bool :=
  res.fdPressure && !s.backoffArmed && sqeGranted s.sqes 0

/-- There is an SQE for an accept operation: it takes the first one, but after `EMFILE` or `ENFILE` the
backoff timer does unless it is armed already, and the accept needs a second one after a failure. -/
def AcceptCtl.sqeForAccept (s : AcceptCtl) (res : AcceptRes) (sqes : List Bool) : Bool :=
  if res.fdPressure && !s.backoffArmed then !sqeGranted sqes 0 && sqeGranted sqes 1
  else sqeGranted sqes 0

/-- A completion posts an accept operation. -/
def AcceptCtl.posts (s : AcceptCtl) (res : AcceptRes) (more : Bool) : Bool :=
  s.canRearm && (!(s.multishot && !res.unsupported) || !more) && s.sqeForAccept res s.sqes

lemma sqeGranted_tail (sqes : List Bool) (k : ℕ) :
    sqeGranted (sqes.tail) k = sqeGranted sqes (k + 1) := by
  simp [sqeGranted]

lemma getSqe_eq (s : AcceptCtl) :
    s.getSqe = (sqeGranted s.sqes 0, { s with sqes := s.sqes.tail }) := by
  obtain ⟨_, _, _, _, _, _, _, sqes⟩ := s
  cases sqes with
  | nil => rfl
  | cons ok rest => rfl

lemma acceptPostOne_eq (b : Bool) (s : AcceptCtl) (i : ℕ) :
    acceptPostOne b s i =
      if sqeGranted s.sqes 0 then
        (true, { s.addOp i ⟨b && s.multishot⟩ with sqes := s.sqes.tail })
      else (false, { s with sqes := s.sqes.tail }) := by
  rw [acceptPostOne, getSqe_eq]
  cases sqeGranted s.sqes 0 <;> simp [AcceptCtl.addOp]

lemma acceptStageCancels_eq (n : ℕ) (s : AcceptCtl) :
    ∃ posted sqes, acceptStageCancels n s = (posted, { s with sqes := sqes }) := by
  induction n generalizing s with
  | zero => exact ⟨0, s.sqes, rfl⟩
  | succ n ih =>
    rw [acceptStageCancels, getSqe_eq]
    cases sqeGranted s.sqes 0 with
    | false => exact ⟨0, s.sqes.tail, rfl⟩
    | true =>
      obtain ⟨posted, sqes, h⟩ := ih { s with sqes := s.sqes.tail }
      refine ⟨posted + 1, sqes, ?_⟩
      dsimp only
      rw [h]

lemma acceptMaybeStageCancelAll_eq (s : AcceptCtl) :
    ∃ c sqes, acceptMaybeStageCancelAll s = { s with cancelInflight := c, sqes := sqes } := by
  unfold acceptMaybeStageCancelAll
  split
  · exact ⟨s.cancelInflight, s.sqes, rfl⟩
  · obtain ⟨posted, sqes, h⟩ := acceptStageCancels_eq s.numListeners s
    rw [h]
    dsimp only
    split
    · exact ⟨true, sqes, rfl⟩
    · exact ⟨s.cancelInflight, sqes, rfl⟩

/-- What `accept_handle_cqe` does to the controller. -/
structure HandleSpec (s s' : AcceptCtl) (i : ℕ) (res : AcceptRes) (more : Bool) : Prop where
  inflight : ∃ op, s'.inflight =
    if s.posts res more then s.inflight.modify i (· ++ [op]) else s.inflight
  draining : s'.draining = s.draining
  backoffArmed : s'.backoffArmed = (s.backoffArmed || s.arms res)
  timers : s'.timers = s.timers + (s.arms res).toNat
  paused : s'.paused = (s.paused || s.arms res)
  cancelInflight : s.arms res = false → s'.cancelInflight = s.cancelInflight

lemma rearm_eq (b : Bool) (s : AcceptCtl) (i : ℕ) (more : Bool) :
    (if s.rearms more then (acceptPostOne b s i).2 else s) =
      { s with
        inflight :=
          if s.rearms more && sqeGranted s.sqes 0 then
            s.inflight.modify i (· ++ [⟨b && s.multishot⟩])
          else s.inflight
        sqes := if s.rearms more then s.sqes.tail else s.sqes } := by
  rw [acceptPostOne_eq]
  cases s.rearms more with
  | false => simp
  | true => cases sqeGranted s.sqes 0 <;> simp [AcceptCtl.addOp]

/-- `accept_arm_backoff_timer` needs the timer to be idle and an SQE. -/
lemma acceptArmBackoffTimer_eq (s : AcceptCtl) :
    acceptArmBackoffTimer s =
      if s.backoffArmed then (false, s)
      else if sqeGranted s.sqes 0 then
        (true, { s with backoffArmed := true, timers := s.timers + 1, sqes := s.sqes.tail })
      else (false, { s with sqes := s.sqes.tail }) := by
  rw [acceptArmBackoffTimer, getSqe_eq]
  cases s.backoffArmed with
  | true => rfl
  | false => cases sqeGranted s.sqes 0 <;> rfl

lemma handleSpec_of_rearm {s t : AcceptCtl} {i : ℕ} {res : AcceptRes} {more ok : Bool}
    {sqes : List Bool} (op : AcceptOp) (harms : s.arms res = false)
    (hposts : s.posts res more = ok) (ht : t = { s with
      inflight := if ok then s.inflight.modify i (· ++ [op]) else s.inflight
      multishot := s.multishot && !res.unsupported
      sqes := sqes }) : HandleSpec s t i res more := by
  subst ht hposts
  exact ⟨⟨op, rfl⟩, rfl, by simp [harms], by simp [harms], by simp [harms], fun _ => rfl⟩

/-- `accept_handle_cqe` does what `arms` and `posts` say. -/
lemma acceptHandleCqe_spec (b : Bool) (s : AcceptCtl) (i : ℕ) (res : AcceptRes) (more : Bool) :
    HandleSpec s (acceptHandleCqe b s i res more) i res more := by
  unfold acceptHandleCqe
  split
  · rename_i hres
    subst hres
    have hunsupported : AcceptRes.unsupported .accepted = false := rfl
    have hfd : AcceptRes.fdPressure .accepted = false := rfl
    have hposts : s.posts .accepted more = (s.rearms more && sqeGranted s.sqes 0) := by
      simp [AcceptCtl.posts, AcceptCtl.sqeForAccept, AcceptCtl.rearms, hunsupported, hfd]
    rw [rearm_eq]
    apply handleSpec_of_rearm ⟨b && s.multishot⟩ (by simp [AcceptCtl.arms, hfd]) hposts
    rw [hunsupported, Bool.not_false, Bool.and_true]
  · have hdown : (if s.multishot && res.unsupported then { s with multishot := false } else s) =
        { s with multishot := s.multishot && !res.unsupported } := by
      obtain ⟨_, _, multishot, _, _, _, _, _⟩ := s
      cases multishot <;> cases res.unsupported <;> rfl
    rw [hdown]
    set t : AcceptCtl := { s with multishot := s.multishot && !res.unsupported } with ht
    dsimp only
    cases hfd : res.fdPressure with
    | false =>
      have hposts : s.posts res more =
          (t.rearms more && sqeGranted t.sqes 0) := by
        simp [AcceptCtl.posts, AcceptCtl.sqeForAccept, AcceptCtl.rearms, AcceptCtl.canRearm, hfd, ht]
      have harms : s.arms res = false := by simp [AcceptCtl.arms, hfd]
      rw [if_neg Bool.false_ne_true]
      split
      · rename_i hpaused
        have hno : s.posts res more = false := by
          simp [AcceptCtl.posts, AcceptCtl.canRearm, show s.paused = true from hpaused.2]
        exact handleSpec_of_rearm ⟨false⟩ harms hno rfl
      · rw [rearm_eq]
        exact handleSpec_of_rearm _ harms hposts rfl
    | true =>
      rw [if_pos rfl, acceptArmBackoffTimer_eq]
      by_cases hbackoff : t.backoffArmed = true
      · have hs : s.backoffArmed = true := hbackoff
        have harms : s.arms res = false := by simp [AcceptCtl.arms, hs]
        have hposts : s.posts res more = (t.rearms more && sqeGranted t.sqes 0) := by
          simp [AcceptCtl.posts, AcceptCtl.sqeForAccept, AcceptCtl.rearms, AcceptCtl.canRearm, hs, ht]
        rw [if_pos hbackoff]
        dsimp only
        rw [rearm_eq]
        exact handleSpec_of_rearm _ harms hposts rfl
      · have hs : s.backoffArmed = false := by simpa using hbackoff
        rw [if_neg hbackoff]
        by_cases hsqe : sqeGranted t.sqes 0 = true
        · have hfirst : sqeGranted s.sqes 0 = true := hsqe
          have harms : s.arms res = true := by simp [AcceptCtl.arms, hfd, hs, hfirst]
          have hposts : s.posts res more = false := by simp [AcceptCtl.posts, AcceptCtl.sqeForAccept, hfd, hs, hfirst]
          rw [if_pos hsqe]
          dsimp only
          obtain ⟨c, sqes, hcancel⟩ := acceptMaybeStageCancelAll_eq
            { t with backoffArmed := true, timers := t.timers + 1, sqes := t.sqes.tail, paused := true }
          rw [hcancel]
          exact ⟨⟨⟨false⟩, by rw [hposts]; rfl⟩, rfl, by simp [harms], by simp [harms, ht],
            by simp [harms], by simp [harms]⟩
        · have hfirst : sqeGranted s.sqes 0 = false := by simpa using hsqe
          have harms : s.arms res = false := by simp [AcceptCtl.arms, hfirst]
          have hposts : s.posts res more =
              (AcceptCtl.rearms { t with sqes := t.sqes.tail } more &&
                sqeGranted (t.sqes.tail) 0) := by
            simp [AcceptCtl.posts, AcceptCtl.sqeForAccept, AcceptCtl.rearms, AcceptCtl.canRearm, hfd, hs,
              hfirst, ht, sqeGranted_tail]
          rw [if_neg hsqe]
          dsimp only
          rw [rearm_eq]
          exact handleSpec_of_rearm _ harms hposts rfl

/-- The re-arm loop reaches listener `k` if every call of `get_sqe_batching` up to it succeeds. -/
def rearmReaches (sqes : List Bool) (k : ℕ) : Bool :=
  (List.range (k + 1)).all (sqeGranted sqes)

lemma rearmReaches_zero (sqes : List Bool) : rearmReaches sqes 0 = sqeGranted sqes 0 := by
  simp [rearmReaches]

lemma rearmReaches_succ (sqes : List Bool) (k : ℕ) :
    rearmReaches sqes (k + 1) = (sqeGranted sqes 0 && rearmReaches (sqes.tail) k) := by
  rw [rearmReaches, List.range_succ_eq_map, List.all_cons, List.all_map]
  have hshift : sqeGranted sqes ∘ Nat.succ = sqeGranted sqes.tail :=
    funext fun j => (sqeGranted_tail sqes j).symm
  rw [hshift, rearmReaches]

/-- The re-arm loop of `accept_handle_backoff` adds an operation to the listeners that it reaches and
leaves the flags alone. -/
lemma acceptRearmFrom_spec (b : Bool) (n : ℕ) :
    ∀ (i : ℕ) (s : AcceptCtl), ∃ inflight sqes,
      acceptRearmFrom b n i s = { s with inflight := inflight, sqes := sqes } ∧
      inflight.length = s.inflight.length ∧
      ∀ k, inflight[k]? =
        if i ≤ k ∧ k < i + n ∧ rearmReaches s.sqes (k - i) then
          s.inflight[k]?.map (· ++ [⟨b && s.multishot⟩])
        else s.inflight[k]? := by
  induction n with
  | zero =>
    intro i s
    refine ⟨s.inflight, s.sqes, rfl, rfl, fun k => ?_⟩
    rw [if_neg (by omega)]
  | succ n ih =>
    intro i s
    rw [acceptRearmFrom, acceptPostOne_eq]
    by_cases hsqe : sqeGranted s.sqes 0 = true
    · rw [if_pos hsqe]
      dsimp only
      obtain ⟨inflight, sqes, hre, hlen, hget⟩ :=
        ih (i + 1) { s.addOp i ⟨b && s.multishot⟩ with sqes := s.sqes.tail }
      refine ⟨inflight, sqes, by rw [hre]; rfl, by simpa [AcceptCtl.addOp] using hlen, fun k => ?_⟩
      rw [hget k]
      simp only [AcceptCtl.addOp, List.getElem?_modify]
      rcases lt_trichotomy k i with hlt | rfl | hgt
      · rw [if_neg (by omega), if_neg (by omega)]
        simp [Nat.ne_of_gt hlt]
      · rw [if_neg (by omega), if_pos ⟨le_rfl, by omega, by simpa [rearmReaches_zero] using hsqe⟩]
        simp
      · have hstep : rearmReaches s.sqes (k - i) = rearmReaches (s.sqes.tail) (k - (i + 1)) := by
          rw [show k - i = k - (i + 1) + 1 by omega, rearmReaches_succ, hsqe, Bool.true_and]
        rw [hstep]
        have hne : i ≠ k := by omega
        simp only [hne, if_false]
        congr 1
        · simp only [eq_iff_iff]
          constructor
          · rintro ⟨-, h2, h3⟩
            exact ⟨by omega, by omega, h3⟩
          · rintro ⟨-, h2, h3⟩
            exact ⟨by omega, by omega, h3⟩
        · simp
        · simp
    · rw [if_neg hsqe]
      refine ⟨s.inflight, s.sqes.tail, rfl, rfl, fun k => ?_⟩
      have hno : ∀ j, rearmReaches s.sqes j = false := by
        intro j
        cases j with
        | zero => simpa [rearmReaches_zero] using hsqe
        | succ j => simp [rearmReaches_succ, hsqe]
      simp [hno]

/-! ## Deaf listeners -/

/-- Unless the worker drains, every listener has an accept operation staged or in flight, or the backoff
timer is armed and its timeout is in flight. -/
def NotDeaf (s : AcceptCtl) : Prop :=
  s.draining = false → (s.backoffArmed = true ∧ 0 < s.timers) ∨ ∀ ops ∈ s.inflight, ops ≠ []

/-- Accepts are paused or cancelled only while the backoff timer is armed, and its timeout is then in
flight. -/
def BackoffCovers (s : AcceptCtl) : Prop :=
  s.draining = false →
    (s.canRearm = false → s.backoffArmed = true) ∧ (s.backoffArmed = true → 0 < s.timers)

/-- The step posts the accept operations that it has to post: when the last operation of a listener
ends outside a backoff, `get_sqe_batching` succeeds for the next one, or for the backoff timer after
`EMFILE` or `ENFILE`; and at the end of a backoff it succeeds up to every listener that has no operation
left. -/
def rearmGetsSqe (s : AcceptCtl) (e : AcceptEvent × List Bool) : Prop :=
  s.draining = false →
    match e.1 with
    | .accept i _ res more =>
      more = true ∨ s.backoffArmed = true ∨ (∃ ops, s.inflight[i]? = some ops ∧ 2 ≤ ops.length) ∨
        sqeGranted e.2 0 = true ∨ res.fdPressure = true ∧ sqeGranted e.2 1 = true
    | .backoff => ∀ i, s.inflight[i]? = some [] → rearmReaches e.2 i = true
    | _ => True

lemma op?_eq_some {i k : ℕ} {op : AcceptOp} (h : s.op? i k = some op) :
    ∃ ops, s.inflight[i]? = some ops ∧ k < ops.length := by
  simp only [AcceptCtl.op?, Option.bind_eq_some_iff] at h
  obtain ⟨ops, hops, hk⟩ := h
  exact ⟨ops, hops, (List.getElem?_eq_some_iff.mp hk).1⟩

lemma exists_op_of_enabled {i j : ℕ} {res : AcceptRes} {more : Bool} {sqes : List Bool}
    (h : s.enabled (.accept i j res more, sqes) = true) :
    ∃ ops, s.inflight[i]? = some ops ∧ j < ops.length := by
  simp only [AcceptCtl.enabled, Option.any_eq_true] at h
  obtain ⟨op, hop, -⟩ := h
  exact op?_eq_some hop

lemma forall_mem_modify {α : Type*} {l : List α} {i : ℕ} {f : α → α} {p : α → Prop} :
    (∀ x ∈ l.modify i f, p x) ↔ ∀ k x, l[k]? = some x → p (if i = k then f x else x) := by
  constructor
  · intro h k x hk
    apply h
    rw [List.mem_iff_getElem?]
    exact ⟨k, by rw [List.getElem?_modify, hk]; rfl⟩
  · intro h y hy
    obtain ⟨k, hk⟩ := List.mem_iff_getElem?.mp hy
    rw [List.getElem?_modify] at hk
    obtain ⟨x, hx, rfl⟩ := Option.map_eq_some_iff.mp hk
    exact h k x hx

/-- The operations that remain when a completion arrives. -/
def remaining (s : AcceptCtl) (i j : ℕ) (more : Bool) : List (List AcceptOp) :=
  if more then s.inflight else s.inflight.modify i (·.eraseIdx j)

lemma step_accept_spec (b : Bool) (s : AcceptCtl) (i j : ℕ) (res : AcceptRes) (more : Bool)
    (sqes : List Bool) :
    HandleSpec { s with sqes := sqes, inflight := remaining s i j more }
      (s.step b (.accept i j res more, sqes)) i res more := by
  have hmid : (if more then { s with sqes := sqes } else AcceptCtl.endOp { s with sqes := sqes } i j) =
      { s with sqes := sqes, inflight := remaining s i j more } := by
    cases more <;> rfl
  have hspec := acceptHandleCqe_spec b { s with sqes := sqes, inflight := remaining s i j more } i res more
  rw [← hmid] at hspec ⊢
  exact hspec

lemma step_backoff_spec (b : Bool) (hdrain : s.draining = false) (sqes : List Bool) :
    ∃ inflight sqes', s.step b (.backoff, sqes) =
      { s with
        inflight := inflight
        timers := s.timers - 1
        paused := false
        cancelInflight := false
        backoffArmed := false
        sqes := sqes' } ∧
      ∀ k, inflight[k]? =
        if rearmReaches sqes k then s.inflight[k]?.map (· ++ [⟨b && s.multishot⟩])
        else s.inflight[k]? := by
  obtain ⟨inflight, sqes', hre, -, hget⟩ := acceptRearmFrom_spec b s.inflight.length 0
    (acceptResumeFromBackoff { s with sqes := sqes, timers := s.timers - 1 })
  refine ⟨inflight, sqes', ?_, fun k => ?_⟩
  · show acceptHandleBackoff b { s with sqes := sqes, timers := s.timers - 1 } = _
    rw [acceptHandleBackoff, if_neg (by simp [hdrain])]
    exact hre
  · rw [hget k]
    by_cases hk : k < s.inflight.length
    · simp [acceptResumeFromBackoff, hk]
    · simp [acceptResumeFromBackoff, List.getElem?_eq_none (not_lt.mp hk)]

lemma step_backoff_draining (b : Bool) (hdrain : s.draining = true) (sqes : List Bool) :
    s.step b (.backoff, sqes) =
      { s with sqes := sqes, timers := s.timers - 1, backoffArmed := false } := by
  simp [AcceptCtl.step, acceptHandleBackoff, hdrain]

lemma step_enterDrain_spec (b : Bool) (s : AcceptCtl) (sqes : List Bool) :
    ∃ c sqes', s.step b (.enterDrain, sqes) =
      { s with
        draining := true
        paused := true
        backoffArmed := false
        cancelInflight := c
        sqes := sqes' } := by
  obtain ⟨c, sqes', h⟩ := acceptMaybeStageCancelAll_eq
    { s with sqes := sqes, draining := true, paused := true, backoffArmed := false }
  exact ⟨c, sqes', h⟩

lemma BackoffCovers.step (h : BackoffCovers s) (e : AcceptEvent × List Bool) :
    BackoffCovers (s.step b e) := by
  obtain ⟨e, sqes⟩ := e
  intro hdrain
  cases e with
  | accept i j res more =>
    have hspec := step_accept_spec b s i j res more sqes
    obtain ⟨hcan, htimers⟩ := h (hspec.draining.symm.trans hdrain)
    rw [hspec.backoffArmed, hspec.timers]
    set mid : AcceptCtl := { s with sqes := sqes, inflight := remaining s i j more }
    cases harms : mid.arms res with
    | true => simp
    | false =>
      have hsame : (s.step b (.accept i j res more, sqes)).canRearm = s.canRearm := by
        rw [AcceptCtl.canRearm, hspec.paused, hspec.cancelInflight harms, harms, Bool.or_false]
        rfl
      rw [hsame]
      simpa using ⟨hcan, htimers⟩
  | cancelDone => exact h hdrain
  | backoff =>
    cases hs : s.draining with
    | false =>
      obtain ⟨inflight, sqes', hstep, -⟩ := step_backoff_spec b hs sqes
      rw [hstep]
      simp [AcceptCtl.canRearm]
    | true =>
      rw [step_backoff_draining b hs, hs] at hdrain
      cases hdrain
  | noticeDrain => cases hdrain
  | enterDrain =>
    obtain ⟨c, sqes', hstep⟩ := step_enterDrain_spec b s sqes
    rw [hstep] at hdrain
    cases hdrain

/-- Outside a backoff a listener whose operation ended gets another one exactly if an SQE is at hand. -/
lemma notDeaf_accept_iff {i j : ℕ} {res : AcceptRes} {more : Bool} {sqes : List Bool} {op : AcceptOp}
    {ops : List AcceptOp} (hops : s.inflight[i]? = some ops) (hj : j < ops.length)
    (hall : ∀ ops ∈ s.inflight, ops ≠ [])
    (harms : AcceptCtl.arms { s with sqes := sqes, inflight := remaining s i j more } res = false)
    (hback : s.backoffArmed = false)
    (hcan : s.canRearm = true) :
    (∀ ops ∈ if AcceptCtl.posts { s with sqes := sqes, inflight := remaining s i j more } res more then
        (remaining s i j more).modify i (· ++ [op]) else remaining s i j more, ops ≠ []) ↔
      more = true ∨ (∃ ops, s.inflight[i]? = some ops ∧ 2 ≤ ops.length) ∨
        sqeGranted sqes 0 = true ∨ res.fdPressure = true ∧ sqeGranted sqes 1 = true := by
  have happend : ∀ {l : List (List AcceptOp)} {k : ℕ}, (∀ k' x, l[k']? = some x → k ≠ k' → x ≠ []) →
      ∀ ops ∈ l.modify k (· ++ [op]), ops ≠ [] := by
    intro l k hl
    rw [forall_mem_modify]
    intro k' x hx
    split
    · simp
    · exact hl k' x hx ‹_›
  cases more with
  | true =>
    refine iff_of_true ?_ (Or.inl rfl)
    split
    · exact happend fun k x hx _ => hall x (List.mem_of_getElem? hx)
    · exact hall
  | false =>
    have hothers : ∀ k' x, (remaining s i j false)[k']? = some x → i ≠ k' → x ≠ [] := by
      intro k x hx hne
      rw [remaining, if_neg Bool.false_ne_true, List.getElem?_modify_ne _ _ hne] at hx
      exact hall x (List.mem_of_getElem? hx)
    have hposts : AcceptCtl.posts { s with sqes := sqes, inflight := remaining s i j false } res false =
        true ↔ sqeGranted sqes 0 = true ∨ res.fdPressure = true ∧ sqeGranted sqes 1 = true := by
      simp only [AcceptCtl.arms, hback, Bool.not_false, Bool.and_true] at harms
      simp only [AcceptCtl.canRearm] at hcan
      simp only [AcceptCtl.posts, AcceptCtl.sqeForAccept, AcceptCtl.canRearm, hcan, hback,
        Bool.not_false, Bool.or_true, Bool.and_true, Bool.true_and]
      revert harms
      cases res.fdPressure <;> cases sqeGranted sqes 0 <;> simp
    by_cases hp : AcceptCtl.posts { s with sqes := sqes, inflight := remaining s i j false } res false =
        true
    · rw [if_pos hp]
      exact iff_of_true (happend hothers) (Or.inr (Or.inr (hposts.mp hp)))
    · rw [if_neg hp, ← hposts]
      simp only [Bool.false_eq_true, false_or, hp, or_false]
      have hlast : (∃ ops, s.inflight[i]? = some ops ∧ 2 ≤ ops.length) ↔ ops.eraseIdx j ≠ [] := by
        rw [← List.length_pos_iff, List.length_eraseIdx_of_lt hj, hops]
        simp only [Option.some.injEq, exists_eq_left']
        omega
      rw [hlast]
      constructor
      · intro hrest
        apply hrest
        apply List.mem_of_getElem? (i := i)
        rw [remaining, if_neg Bool.false_ne_true, List.getElem?_modify_eq, hops]
        rfl
      · intro hne x hx
        obtain ⟨k, hk⟩ := List.mem_iff_getElem?.mp hx
        by_cases hik : i = k
        · subst hik
          rw [remaining, if_neg Bool.false_ne_true, List.getElem?_modify_eq, hops] at hk
          cases hk
          exact hne
        · exact hothers k x hk hik

/-- Which steps leave no listener deaf. -/
lemma notDeaf_step_iff (hinv : BackoffCovers s) (h : NotDeaf s) (e : AcceptEvent × List Bool)
    (hok : s.enabled e = true) : NotDeaf (s.step b e) ↔ rearmGetsSqe s e := by
  obtain ⟨e, sqes⟩ := e
  cases e with
  | accept i j res more =>
    have hspec := step_accept_spec b s i j res more sqes
    have hdraining : (s.step b (.accept i j res more, sqes)).draining = s.draining := hspec.draining
    rw [NotDeaf, hdraining, rearmGetsSqe]
    refine imp_congr_right fun hs => ?_
    obtain ⟨hcan, htimers⟩ := hinv hs
    dsimp only
    rw [hspec.backoffArmed, hspec.timers]
    set mid : AcceptCtl := { s with sqes := sqes, inflight := remaining s i j more } with hmid
    cases hback : s.backoffArmed with
    | true =>
      have htimer : 0 < mid.timers := htimers hback
      exact iff_of_true (Or.inl ⟨by simp, by omega⟩) (Or.inr (Or.inl rfl))
    | false =>
      have hrearm : s.canRearm = true := by
        by_contra hno
        have := hcan (by simpa using hno)
        rw [hback] at this
        cases this
      have hall : ∀ ops ∈ s.inflight, ops ≠ [] := by
        rcases h hs with hno | hall
        · rw [hback] at hno
          cases hno.1
        · exact hall
      cases harms : mid.arms res with
      | true =>
        have hsqe : sqeGranted sqes 0 = true := by
          simp only [AcceptCtl.arms, Bool.and_eq_true] at harms
          exact harms.2
        exact iff_of_true (Or.inl (by simp)) (Or.inr (Or.inr (Or.inr (Or.inl hsqe))))
      | false =>
        obtain ⟨ops, hops, hj⟩ := exists_op_of_enabled hok
        obtain ⟨op, hinf⟩ := hspec.inflight
        simp only [Bool.or_self, Bool.false_eq_true, false_and, false_or]
        rw [hinf]
        exact notDeaf_accept_iff hops hj hall harms hback hrearm
  | cancelDone =>
    have hgood : rearmGetsSqe s (.cancelDone, sqes) := fun _ => trivial
    exact iff_of_true h hgood
  | backoff =>
    cases hs : s.draining with
    | false =>
      obtain ⟨inflight, sqes', hstep, hget⟩ := step_backoff_spec b hs sqes
      rw [hstep, NotDeaf, rearmGetsSqe]
      dsimp only
      refine imp_congr_right fun _ => ?_
      simp only [Bool.false_eq_true, false_and, false_or]
      constructor
      · intro hall i hi
        by_contra hno
        have hempty : inflight[i]? = some [] := by rw [hget i, if_neg hno, hi]
        exact hall [] (List.mem_of_getElem? hempty) rfl
      · intro hreach ops hops
        obtain ⟨k, hk⟩ := List.mem_iff_getElem?.mp hops
        rw [hget k] at hk
        split at hk
        · obtain ⟨before, -, rfl⟩ := Option.map_eq_some_iff.mp hk
          simp
        · rename_i hno
          rintro rfl
          exact hno (hreach k hk)
    | true =>
      rw [step_backoff_draining b hs]
      have hgood : rearmGetsSqe s (.backoff, sqes) := fun hno => by rw [hs] at hno; cases hno
      exact iff_of_true (fun hno => by rw [hs] at hno; cases hno) hgood
  | noticeDrain =>
    have hgood : rearmGetsSqe s (.noticeDrain, sqes) := fun _ => trivial
    exact iff_of_true (fun hno => by cases hno) hgood
  | enterDrain =>
    obtain ⟨c, sqes', hstep⟩ := step_enterDrain_spec b s sqes
    have hgood : rearmGetsSqe s (.enterDrain, sqes) := fun _ => trivial
    rw [hstep]
    exact iff_of_true (fun hno => by cases hno) hgood

/-! ## Startup -/

lemma acceptPrePost_eq (k i : ℕ) (s : AcceptCtl) :
    ∃ inflight sqes, acceptPrePost k i s = { s with inflight := inflight, sqes := sqes } := by
  induction k generalizing s with
  | zero => exact ⟨s.inflight, s.sqes, rfl⟩
  | succ k ih =>
    rw [acceptPrePost, getSqe_eq]
    cases sqeGranted s.sqes 0 with
    | false => exact ⟨s.inflight, s.sqes.tail, rfl⟩
    | true =>
      obtain ⟨inflight, sqes, h⟩ := ih (AcceptCtl.addOp { s with sqes := s.sqes.tail } i ⟨false⟩)
      exact ⟨inflight, sqes, h⟩

lemma acceptArmListener_eq (b : Bool) (preAccepts : ℕ) (s : AcceptCtl) (i : ℕ) :
    ∃ inflight m sqes, acceptArmListener b preAccepts s i =
      { s with inflight := inflight, multishot := m, sqes := sqes } := by
  unfold acceptArmListener
  cases b with
  | false =>
    obtain ⟨inflight, sqes, h⟩ := acceptPrePost_eq preAccepts i s
    exact ⟨inflight, s.multishot, sqes, h⟩
  | true =>
    rw [if_pos rfl, getSqe_eq]
    cases sqeGranted s.sqes 0 with
    | false => exact ⟨s.inflight, s.multishot, s.sqes.tail, rfl⟩
    | true => exact ⟨_, true, s.sqes.tail, rfl⟩

lemma acceptArmStartup_eq (b : Bool) (preAccepts n : ℕ) (sqes : List Bool) :
    ∃ inflight m sqes', acceptArmStartup b preAccepts n sqes =
      { inflight := inflight, multishot := m, sqes := sqes' } := by
  suffices ∀ (is : List ℕ) (s : AcceptCtl), ∃ inflight m sqes',
      is.foldl (acceptArmListener b preAccepts) s =
        { s with inflight := inflight, multishot := m, sqes := sqes' } by
    exact this (List.range n) { inflight := List.replicate n [], sqes := sqes }
  intro is
  induction is with
  | nil => exact fun s => ⟨s.inflight, s.multishot, s.sqes, rfl⟩
  | cons i is ih =>
    intro s
    obtain ⟨inflight, m, sqes', hfirst⟩ := acceptArmListener_eq b preAccepts s i
    obtain ⟨inflight', m', sqes'', hrest⟩ :=
      ih { s with inflight := inflight, multishot := m, sqes := sqes' }
    exact ⟨inflight', m', sqes'', by rw [List.foldl_cons, hfirst, hrest]⟩

instance (s : AcceptCtl) : Decidable (NotDeaf s) :=
  inferInstanceAs (Decidable (_ → _ ∨ _))

/-- After a startup in which every listener was armed, no listener is ever left without an accept
operation and without a pending backoff exactly if every step of the run gets the SQEs for the operations
it has to post. -/
theorem notDeaf_always_iff {b : Bool} {preAccepts n : ℕ} {sqes : List Bool}
    {es : List (AcceptEvent × List Bool)} {s' : AcceptCtl}
    (harmed : ∀ ops ∈ (acceptArmStartup b preAccepts n sqes).inflight, ops ≠ [])
    (hrun : Run (AcceptCtl.step b) (fun s e => s.enabled e = true)
      (acceptArmStartup b preAccepts n sqes) es s') :
    (∀ es₁, es₁ <+: es →
      NotDeaf (es₁.foldl (AcceptCtl.step b) (acceptArmStartup b preAccepts n sqes))) ↔
      Run (AcceptCtl.step b) (fun s e => s.enabled e = true ∧ rearmGetsSqe s e)
        (acceptArmStartup b preAccepts n sqes) es s' := by
  have hstart : BackoffCovers (acceptArmStartup b preAccepts n sqes) := by
    obtain ⟨inflight, m, sqes', h⟩ := acceptArmStartup_eq b preAccepts n sqes
    rw [h]
    intro _
    simp [AcceptCtl.canRearm]
  exact hrun.always_iff NotDeaf BackoffCovers (fun _ => Or.inr harmed) hstart
    (fun _ e hinv _ => hinv.step e) fun _ e hinv h hok => notDeaf_step_iff hinv h e hok

/-- A listener accepts two connections through one multishot operation. -/
def twoAcceptsScript : Script (AcceptCtl.step true) (fun s e => s.enabled e = true)
    (acceptArmStartup true 1 1 []) (fun s => NotDeaf s) where
  events := [(.accept 0 0 .accepted true, []), (.accept 0 0 .accepted false, [])]
  allowed := by decide
  ends := by decide

theorem notDeaf_always_two_accepts : ∃ s',
    Run (AcceptCtl.step true) (fun s e => s.enabled e = true) (acceptArmStartup true 1 1 [])
      twoAcceptsScript.events s' ∧
    ∀ es₁, es₁ <+: twoAcceptsScript.events →
      NotDeaf (es₁.foldl (AcceptCtl.step true) (acceptArmStartup true 1 1 [])) := by
  obtain ⟨s', hrun, -⟩ := twoAcceptsScript.exists_run
  have hgood : Allowed (AcceptCtl.step true) (fun s e => s.enabled e = true ∧ rearmGetsSqe s e)
      (acceptArmStartup true 1 1 []) twoAcceptsScript.events :=
    ⟨⟨rfl, fun _ => Or.inl rfl⟩, ⟨rfl, fun _ => Or.inr (Or.inr (Or.inr (Or.inl rfl)))⟩, trivial⟩
  have hend := hrun.eq_foldl
  refine ⟨s', hrun, (notDeaf_always_iff (by decide) hrun).mpr ?_⟩
  rw [hend]
  exact Run.of_allowed hgood

/-- The multishot operation of the only listener ends, and there is no SQE for the next one. -/
def starvedScript : Script (AcceptCtl.step true) (fun s e => s.enabled e = true)
    (acceptArmStartup true 1 1 []) (fun s => ¬ NotDeaf s) where
  events := [(.accept 0 0 .accepted false, [false])]
  allowed := by decide
  ends := by decide

theorem notDeaf_fails_without_sqe : (∀ ops ∈ (acceptArmStartup true 1 1 []).inflight, ops ≠ []) ∧
    ∃ s', Run (AcceptCtl.step true) (fun s e => s.enabled e = true) (acceptArmStartup true 1 1 [])
      [(.accept 0 0 .accepted false, [false])] s' ∧ ¬ NotDeaf s' :=
  ⟨by decide, starvedScript.exists_run⟩

/-! ## Two accepts for one listener -/

/-- No listener has two accept operations staged or in flight. -/
def SingleAccept (s : AcceptCtl) : Prop :=
  ∀ ops ∈ s.inflight, ops.length ≤ 1

instance (s : AcceptCtl) : Decidable (SingleAccept s) :=
  inferInstanceAs (Decidable (∀ ops ∈ s.inflight, ops.length ≤ 1))

/-- The step posts no accept operation beside another one: a completion that leaves its operation in
flight finds the worker in multishot mode or not allowed or not able to re-arm, and the backoff ends when
no listener that it re-arms has an operation in flight. -/
def rearmsAlone (s : AcceptCtl) (e : AcceptEvent × List Bool) : Prop :=
  match e.1 with
  | .accept _ _ res more =>
    more = true → s.canRearm = true → s.sqeForAccept res e.2 = true →
      s.multishot = true ∧ res.unsupported = false
  | .backoff =>
    s.draining = false → ∀ i ops, s.inflight[i]? = some ops → rearmReaches e.2 i = true → ops = []
  | _ => True

/-- Which steps give no listener a second operation. -/
lemma singleAccept_step_iff (h : SingleAccept s) (e : AcceptEvent × List Bool)
    (hok : s.enabled e = true) : SingleAccept (s.step b e) ↔ rearmsAlone s e := by
  obtain ⟨e, sqes⟩ := e
  cases e with
  | accept i j res more =>
    obtain ⟨op, hinf⟩ := (step_accept_spec b s i j res more sqes).inflight
    obtain ⟨ops, hops, hj⟩ := exists_op_of_enabled hok
    have hone : ops.length = 1 := le_antisymm (h ops (List.mem_of_getElem? hops)) (by omega)
    rw [SingleAccept, hinf, rearmsAlone]
    dsimp only
    cases more with
    | false =>
      have hrest : ∀ k x, (remaining s i j false)[k]? = some x → if i = k then x = [] else x.length ≤ 1 := by
        intro k x hk
        rw [remaining, if_neg Bool.false_ne_true] at hk
        split
        · rename_i hik
          subst hik
          rw [List.getElem?_modify_eq, hops] at hk
          cases hk
          apply List.eq_nil_of_length_eq_zero
          rw [List.length_eraseIdx_of_lt hj, hone]
        · rename_i hik
          rw [List.getElem?_modify_ne _ _ hik] at hk
          exact h x (List.mem_of_getElem? hk)
      refine iff_of_true ?_ (fun hno => by cases hno)
      split
      · rw [forall_mem_modify]
        intro k x hk
        have := hrest k x hk
        split at this
        · rename_i hik
          rw [if_pos hik, this]
          simp
        · rename_i hik
          rw [if_neg hik]
          exact this
      · intro x hx
        obtain ⟨k, hk⟩ := List.mem_iff_getElem?.mp hx
        have := hrest k x hk
        split at this
        · simp [this]
        · exact this
    | true =>
      rw [show remaining s i j true = s.inflight from rfl]
      have hposts : AcceptCtl.posts { s with sqes := sqes, inflight := s.inflight } res true = true ↔
          s.canRearm = true ∧ s.sqeForAccept res sqes = true ∧
            ¬ (s.multishot = true ∧ res.unsupported = false) := by
        simp only [AcceptCtl.posts, AcceptCtl.canRearm, AcceptCtl.sqeForAccept, Bool.and_eq_true]
        cases s.multishot <;> cases res.unsupported <;> simp
      split
      · rename_i hp
        obtain ⟨hcan, hsqe, hmulti⟩ := hposts.mp hp
        refine iff_of_false ?_ fun hgood => hmulti (hgood rfl hcan hsqe)
        rw [forall_mem_modify]
        intro hall
        have := hall i ops hops
        rw [if_pos rfl, List.length_append, hone] at this
        simp at this
      · rename_i hp
        refine iff_of_true h fun _ hcan hsqe => ?_
        by_contra hmulti
        exact hp (hposts.mpr ⟨hcan, hsqe, hmulti⟩)
  | cancelDone => exact iff_of_true h trivial
  | backoff =>
    cases hs : s.draining with
    | false =>
      obtain ⟨inflight, sqes', hstep, hget⟩ := step_backoff_spec b hs sqes
      rw [hstep, SingleAccept, rearmsAlone]
      dsimp only
      constructor
      · intro hall _ i ops hops hreach
        have hnew : inflight[i]? = some (ops ++ [⟨b && s.multishot⟩]) := by
          rw [hget i, if_pos hreach, hops]
          rfl
        have := hall _ (List.mem_of_getElem? hnew)
        rw [List.length_append] at this
        apply List.eq_nil_of_length_eq_zero
        simpa using this
      · intro hgood ops hops
        obtain ⟨k, hk⟩ := List.mem_iff_getElem?.mp hops
        rw [hget k] at hk
        split at hk
        · rename_i hreach
          obtain ⟨before, hbefore, rfl⟩ := Option.map_eq_some_iff.mp hk
          rw [hgood hs k before hbefore hreach]
          simp
        · exact h ops (List.mem_of_getElem? hk)
    | true =>
      rw [step_backoff_draining b hs]
      have hgood : rearmsAlone s (.backoff, sqes) := fun hno => by rw [hs] at hno; cases hno
      exact iff_of_true h hgood
  | noticeDrain => exact iff_of_true h trivial
  | enterDrain =>
    obtain ⟨c, sqes', hstep⟩ := step_enterDrain_spec b s sqes
    rw [hstep]
    exact iff_of_true h trivial

/-- The startup of the multishot build posts one operation for each listener. -/
lemma singleAccept_startup (preAccepts n : ℕ) (sqes : List Bool) :
    SingleAccept (acceptArmStartup true preAccepts n sqes) := by
  -- after `m` rounds the listeners from `m` on have no operation yet
  have hrounds : ∀ m, ∀ k ops,
      ((List.range m).foldl (acceptArmListener true preAccepts)
        { inflight := List.replicate n [], sqes := sqes }).inflight[k]? = some ops →
      ops.length ≤ 1 ∧ (m ≤ k → ops = []) := by
    intro m
    induction m with
    | zero =>
      intro k ops hk
      simp only [List.range_zero, List.foldl_nil, List.getElem?_replicate] at hk
      split at hk
      · cases hk
        simp
      · cases hk
    | succ m ih =>
      intro k ops hk
      rw [List.range_succ, List.foldl_append, List.foldl_cons, List.foldl_nil] at hk
      revert hk ih
      generalize (List.range m).foldl (acceptArmListener true preAccepts)
        { inflight := List.replicate n [], sqes := sqes } = s
      intro ih hk
      rw [acceptArmListener, if_pos rfl, getSqe_eq] at hk
      cases hsqe : sqeGranted s.sqes 0 with
      | false =>
        rw [hsqe] at hk
        obtain ⟨hlen, hrest⟩ := ih k ops hk
        exact ⟨hlen, fun hmk => hrest (by omega)⟩
      | true =>
        rw [hsqe] at hk
        simp only [AcceptCtl.addOp, List.getElem?_modify] at hk
        obtain ⟨before, hbefore, rfl⟩ := Option.map_eq_some_iff.mp hk
        obtain ⟨hlen, hrest⟩ := ih k before hbefore
        by_cases hmk : m = k
        · rw [if_pos hmk, hrest (by omega)]
          exact ⟨by simp, fun hlt => by omega⟩
        · rw [if_neg hmk]
          exact ⟨hlen, fun hlt => hrest (by omega)⟩
  intro ops hops
  obtain ⟨k, hk⟩ := List.mem_iff_getElem?.mp hops
  exact (hrounds n k ops hk).1

/-- From the startup of the multishot build on, no listener ever has two accept operations exactly if no
step of the run posts one beside another. -/
theorem singleAccept_always_iff {preAccepts n : ℕ} {sqes : List Bool}
    {es : List (AcceptEvent × List Bool)} {s' : AcceptCtl}
    (hrun : Run (AcceptCtl.step true) (fun s e => s.enabled e = true)
      (acceptArmStartup true preAccepts n sqes) es s') :
    (∀ es₁, es₁ <+: es →
      SingleAccept (es₁.foldl (AcceptCtl.step true) (acceptArmStartup true preAccepts n sqes))) ↔
      Run (AcceptCtl.step true) (fun s e => s.enabled e = true ∧ rearmsAlone s e)
        (acceptArmStartup true preAccepts n sqes) es s' :=
  hrun.always_iff SingleAccept (fun _ => True) (singleAccept_startup preAccepts n sqes) trivial
    (fun _ _ _ _ => trivial) fun _ e _ h hok => singleAccept_step_iff h e hok

/-- Two listeners; the second runs out of descriptors, the accept of the first is cancelled, and the
backoff ends. -/
def cancelledScript : Script (AcceptCtl.step true) (fun s e => s.enabled e = true)
    (acceptArmStartup true 1 2 []) (fun s => SingleAccept s) where
  events :=
    [(.accept 1 0 .emfile false, []), (.accept 0 0 .ecanceled false, []), (.cancelDone, []),
      (.backoff, [])]
  allowed := by decide
  ends := by decide

theorem singleAccept_always_cancelled : ∃ s',
    Run (AcceptCtl.step true) (fun s e => s.enabled e = true) (acceptArmStartup true 1 2 [])
      cancelledScript.events s' ∧
    ∀ es₁, es₁ <+: cancelledScript.events →
      SingleAccept (es₁.foldl (AcceptCtl.step true) (acceptArmStartup true 1 2 [])) := by
  obtain ⟨s', hrun, -⟩ := cancelledScript.exists_run
  have hbackoff : rearmsAlone
      ((cancelledScript.events.take 3).foldl (AcceptCtl.step true) (acceptArmStartup true 1 2 []))
      (.backoff, []) := by
    intro _ i ops hops _
    match i, hops with
    | 0, hops => cases hops; rfl
    | 1, hops => cases hops; rfl
  have hgood : Allowed (AcceptCtl.step true) (fun s e => s.enabled e = true ∧ rearmsAlone s e)
      (acceptArmStartup true 1 2 []) cancelledScript.events :=
    ⟨⟨rfl, fun hno => by cases hno⟩, ⟨rfl, fun hno => by cases hno⟩, ⟨rfl, trivial⟩,
      ⟨rfl, hbackoff⟩, trivial⟩
  have hend := hrun.eq_foldl
  refine ⟨s', hrun, (singleAccept_always_iff hrun).mpr ?_⟩
  rw [hend]
  exact Run.of_allowed hgood

/-- Two listeners; after `EMFILE` on the second there is an SQE for the timer but none to cancel the accept
of the first, and the backoff ends. -/
def uncancelledScript : Script (AcceptCtl.step true) (fun s e => s.enabled e = true)
    (acceptArmStartup true 1 2 []) (fun s => ¬ SingleAccept s) where
  events := [(.accept 1 0 .emfile false, [true, false]), (.backoff, [])]
  allowed := by decide
  ends := by decide

theorem singleAccept_fails_after_backoff : ∃ s',
    Run (AcceptCtl.step true) (fun s e => s.enabled e = true) (acceptArmStartup true 1 2 [])
      [(.accept 1 0 .emfile false, [true, false]), (.backoff, [])] s' ∧ ¬ SingleAccept s' :=
  uncancelledScript.exists_run

end Lamseryn
