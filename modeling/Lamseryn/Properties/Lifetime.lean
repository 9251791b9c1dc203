import Lamseryn.Model.ConnTable
import Lamseryn.Properties.References
import Lamseryn.Properties.Scripted

/-!
# The lifetime of connections

Over all connections of a worker: each reference is one of the store or of an operation in flight, a
connection is recycled when the last of them is gone and is not touched any more, its descriptor is given
away once, and the store finds every connection by its descriptor.

A connection that `conn_store_put` cannot take is the exception.  It is recycled at once, the store does not
find it when it is to be closed, and so its descriptor stays open.
-/

namespace Lamseryn

open ByteText GuardedRun TraceMonitor

variable {L : Llhttp}

/-- **The life of a connection**, read off its history. -/
structure LifeExact (h : List Io) : Prop where
  /-- The references are those of the store and of the operations in flight. -/
  balance : refcnt h = (inStore h).toNat + readsInFlight h + sendsInFlight h + pollsInFlight h +
    closesInFlight h
  /-- The descriptor was given away exactly when the connection left the store, and once. -/
  closes : h.count .closeFd + h.count .postClose = (!inStore h).toNat
  /-- Nothing happens to a connection whose references are gone. -/
  untouched : ∀ p, p <+: h → refcnt p = 0 → p = h

/-! ## One connection -/

section Accepted

variable {h : List Io}

lemma holding_refs (hacc : lifeMonitor.Accepts h) : refcnt h = (holding h).refs := by
  refine hacc.countP_sub Holding.refs (· == .ref) (· == .put) ?_
  rintro t op ⟨halive, -⟩
  cases op with
  | put => exact Nat.sub_add_cancel halive
  | _ => rfl

lemma holding_stored (hacc : lifeMonitor.Accepts h) : inStore h = (holding h).stored := by
  refine hacc.invariant (fun h t => inStore h = t.stored) rfl ?_
  intro h t op heq _
  unfold inStore at *
  cases op with
  | storeDel => simp [lifeMonitor, Holding.next]
  | _ => simpa [lifeMonitor, Holding.next] using heq

lemma holding_closes (hacc : lifeMonitor.Accepts h) :
    h.count .closeFd + h.count .postClose = (holding h).closes := by
  refine hacc.invariant (fun h t => h.count .closeFd + h.count .postClose = t.closes) rfl ?_
  intro h t op heq _
  rw [List.count_append, List.count_append]
  cases op with
  | closeFd => simp [lifeMonitor, Holding.next, ← heq]; omega
  | postClose => simp [lifeMonitor, Holding.next, ← heq]; omega
  | _ => simpa [lifeMonitor, Holding.next] using heq

lemma untouched_of_accepts (hacc : lifeMonitor.Accepts h) {p : List Io} (hp : p <+: h)
    (hzero : refcnt p = 0) : p = h := by
  obtain ⟨q, rfl⟩ := hp
  cases q with
  | nil => exact (List.append_nil p).symm
  | cons op q =>
    have hbefore : p ++ [op] <+: p ++ op :: q := ⟨q, by simp⟩
    have halive : 0 < (holding p).refs := (hacc.allows_of_isPrefix hbefore).1
    have hacc' := hacc.of_isPrefix (List.prefix_append p (op :: q))
    rw [← holding_refs hacc', hzero] at halive
    exact absurd halive (lt_irrefl 0)

end Accepted

lemma Held.lifeExact {v : IoView} (h : Held 0 v) : LifeExact v.history where
  balance := by
    rw [holding_refs h.accepts, holding_stored h.accepts, holding_reads h.accepts,
      holding_sends h.accepts, holding_polls h.accepts, holding_closing h.accepts]
    exact h.balance
  closes := by
    rw [holding_closes h.accepts, holding_stored h.accepts, h.stored]
    exact h.closes
  untouched _ hp hzero := untouched_of_accepts h.accepts hp hzero

/-! ## All connections -/

/-- What holds of a worker: the account of each connection is balanced, one is in use as long as it is
referenced, and no two connections in the store have the same descriptor. -/
structure TableInv (t : ConnTable L) : Prop where
  live : ∀ slot ∈ t.live, Held 0 slot.session.loop.view ∧ 0 < refcnt slot.history
  recycled : ∀ slot ∈ t.recycled, Held 0 slot.session.loop.view ∧ refcnt slot.history = 0
  distinct : t.live.Pairwise fun a b =>
    inStore a.history = true → inStore b.history = true → a.fd ≠ b.fd

variable {t : ConnTable L} {slot : Slot L}

lemma TableInv.keep (h : TableInv t) (hheld : Held 0 slot.session.loop.view)
    (hfresh : ∀ a ∈ t.live, inStore a.history = true → inStore slot.history = true → a.fd ≠ slot.fd) :
    TableInv (t.keep slot) := by
  unfold ConnTable.keep
  split_ifs with hzero
  · refine ⟨h.live, fun a hmem => ?_, h.distinct⟩
    rcases List.mem_append.mp hmem with hmem | hmem
    · exact h.recycled a hmem
    · rw [List.mem_singleton.mp hmem]
      exact ⟨hheld, hzero⟩
  · refine ⟨fun a hmem => ?_, h.recycled, ?_⟩
    · rcases List.mem_append.mp hmem with hmem | hmem
      · exact h.live a hmem
      · rw [List.mem_singleton.mp hmem]
        exact ⟨hheld, Nat.pos_of_ne_zero hzero⟩
    · refine List.pairwise_append.mpr ⟨h.distinct, List.pairwise_singleton _ _, fun a ha b hb => ?_⟩
      rw [List.mem_singleton.mp hb]
      exact hfresh a ha

lemma TableInv.erase (h : TableInv t) (i : ℕ) : TableInv { t with live := t.live.eraseIdx i } :=
  ⟨fun a hmem => h.live a (List.mem_of_mem_eraseIdx hmem), h.recycled,
    h.distinct.sublist (List.eraseIdx_sublist _ _)⟩

lemma TableInv.distinct_erase (h : TableInv t) {i : ℕ} (hi : t.live[i]? = some slot) {a : Slot L}
    (ha : a ∈ t.live.eraseIdx i) (hastored : inStore a.history = true)
    (hstored : inStore slot.history = true) : a.fd ≠ slot.fd := by
  obtain ⟨hlt, hget⟩ := List.getElem?_eq_some_iff.mp hi
  have hsplit : t.live = t.live.take i ++ slot :: t.live.drop (i + 1) := by
    rw [← hget, ← List.drop_eq_getElem_cons hlt, List.take_append_drop]
  have hdistinct := h.distinct
  rw [hsplit, List.pairwise_append, List.pairwise_cons] at hdistinct
  obtain ⟨-, ⟨hafter, -⟩, hbefore⟩ := hdistinct
  rw [List.eraseIdx_eq_take_drop_succ] at ha
  rcases List.mem_append.mp ha with ha | ha
  · exact hbefore a ha slot List.mem_cons_self hastored hstored
  · exact fun heq => hafter a ha hstored hastored heq.symm

lemma inStore_of_step {w : Worker L} {s : Session L} {e : SessionEvent × Env} (hen : s.enabled e = true)
    (h : inStore (s.step w e).history = true) : inStore s.history = true := by
  have hgrows : s.history <+: (s.step w e).history := (s.step_grows hen).history
  unfold inStore at *
  simp only [Bool.not_eq_true', List.contains_eq_mem, decide_eq_false_iff_not] at *
  exact fun hmem => h (hgrows.subset hmem)

/-- The store takes the accepted connection. -/
def TableEvent.stores : TableEvent → Bool
  | .accept _ stored _ _ _ _ => stored
  | .conn _ _ => true

lemma TableInv.step (w : Worker L) (h : TableInv t) {e : TableEvent × Env} (hen : t.enabled e = true)
    (hstores : e.1.stores = true) : TableInv (t.step w e) := by
  obtain ⟨ev, env⟩ := e
  unfold ConnTable.enabled at hen
  cases ev with
  | accept fd stored vhost tls arena hs =>
    have htrue : stored = true := hstores
    subst htrue
    refine h.keep (held_accept w vhost tls arena hs env) fun a ha hstored _ => ?_
    -- the kernel hands out a descriptor that is not open
    have hfree := List.all_eq_true.mp hen a ha
    unfold Slot.holdsFd at hfree
    simpa [hstored] using hfree
  | conn i ev =>
    unfold ConnTable.step
    dsimp only at hen ⊢
    cases hi : t.live[i]? with
    | none => exact h
    | some slot =>
      rw [hi, Option.any_some] at hen
      have hheld := (h.live slot (List.mem_of_getElem? hi)).1
      refine (h.erase i).keep (hheld.step_session hen) fun a ha hastored hstored => ?_
      exact h.distinct_erase hi ha hastored (inStore_of_step hen hstored)

/-- **The lifetime of the connections of a worker.** -/
structure LifetimeExact (t : ConnTable L) : Prop where
  /-- A connection in use has its exact references, and at least one. -/
  live : ∀ slot ∈ t.live, LifeExact slot.history ∧ 0 < refcnt slot.history
  /-- A connection is recycled out of the store, with nothing in flight and its descriptor given away
  once. -/
  recycled : ∀ slot ∈ t.recycled, LifeExact slot.history ∧ refcnt slot.history = 0 ∧
    inStore slot.history = false ∧
    readsInFlight slot.history + sendsInFlight slot.history + pollsInFlight slot.history +
      closesInFlight slot.history = 0 ∧
    slot.history.count .closeFd + slot.history.count .postClose = 1
  /-- The store finds each of its connections by the descriptor. -/
  store : ∀ slot ∈ t.live, inStore slot.history = true → t.connGet slot.fd = some slot

lemma TableInv.connGet_eq (h : TableInv t) (hmem : slot ∈ t.live)
    (hstored : inStore slot.history = true) : t.connGet slot.fd = some slot := by
  obtain ⟨before, after, hsplit⟩ := List.append_of_mem hmem
  have hdistinct := h.distinct
  rw [hsplit, List.pairwise_append] at hdistinct
  refine List.find?_eq_some_iff_append.mpr ⟨by simp [hstored], before, after, hsplit, fun a ha => ?_⟩
  have hne := hdistinct.2.2 a ha slot List.mem_cons_self
  by_cases hastored : inStore a.history = true
  · simp [hastored, hne hastored hstored]
  · simp [hastored]

lemma TableInv.lifetimeExact (h : TableInv t) : LifetimeExact t where
  live slot hmem := (h.live slot hmem).imp_left Held.lifeExact
  recycled slot hmem := by
    obtain ⟨hheld, hzero⟩ := h.recycled slot hmem
    have hexact : LifeExact slot.history := hheld.lifeExact
    have hbalance := hexact.balance
    rw [hzero] at hbalance
    have hout : inStore slot.history = false := by
      refine Bool.eq_false_iff.mpr fun hstored => ?_
      rw [hstored, Bool.toNat_true] at hbalance
      omega
    refine ⟨hexact, hzero, hout, by omega, ?_⟩
    rw [hexact.closes, hout]
    rfl
  store slot hmem hstored := h.connGet_eq hmem hstored

/-- **Connections live as long as they are referenced.**  In every worker whose store takes each accepted
connection, whatever happens to its connections in whatever order, the lifetimes are exact. -/
theorem lifetimeExact_of_stores (w : Worker L) {es : List (TableEvent × Env)} {t : ConnTable L}
    (hrun : Run (ConnTable.step w) (fun t e => t.enabled e = true ∧ e.1.stores = true) {} es t) :
    LifetimeExact t := by
  have hinv : TableInv t := by
    refine hrun.invariant (fun _ t => TableInv t) ⟨?_, ?_, List.Pairwise.nil⟩ ?_
    · simp
    · simp
    · intro _ t e h hok
      exact h.step w hok.1 hok.2
  exact hinv.lifetimeExact

/-- Two connections: the first is answered and closed, and its descriptor is accepted again. -/
def reusedDescriptor : List (TableEvent × Env) :=
  [(.accept 7 true (some {}) false [] .done, {}),
   (.accept 8 true (some {}) false [] .done, {}),
   (.conn 0 (.io (.recv (.data (scriptBytes bareRequest)))), {}),
   (.conn 1 (.io (.write (.sent 1))), {}),
   (.conn 1 (.io (.recv .closed)), {}),
   (.conn 1 .closed, {}),
   (.accept 7 true (some {}) false [] .done, {})]

/-- Behind these events one connection is recycled and two are in use. -/
def reusedDescriptorScript :
    Script (ConnTable.step (sampleWorker (scripted bareRequest)))
      (fun t e => t.enabled e = true ∧ e.1.stores = true)
      {}
      fun t => (t.live.map Slot.fd = [8, 7] ∧ t.recycled.map Slot.fd = [7]) where
  events := reusedDescriptor
  allowed := by decide +kernel
  ends := by decide +kernel

/-- The first connection is recycled, the others live. -/
theorem lifetimeExact_reused_descriptor :
    ∃ t, Run (ConnTable.step (sampleWorker (scripted bareRequest)))
        (fun t e => t.enabled e = true ∧ e.1.stores = true) {} reusedDescriptor t ∧
      (t.live.map Slot.fd = [8, 7] ∧ t.recycled.map Slot.fd = [7]) ∧ LifetimeExact t := by
  obtain ⟨t, hrun, hfds⟩ := reusedDescriptorScript.exists_run
  exact ⟨t, hrun, hfds, lifetimeExact_of_stores _ hrun⟩

/-- A connection that the store cannot take is recycled. -/
def unstoredScript :
    Script (ConnTable.step (sampleWorker (scripted bareRequest)))
      (fun t e => t.enabled e = true)
      {}
      fun t => ∃ slot ∈ t.recycled, slot.fd = 7 ∧
      slot.history.count .closeFd + slot.history.count .postClose = 0 where
  events := [(.accept 7 false (some {}) false [] .done, {})]
  allowed := by decide +kernel
  ends := by decide +kernel

/-- A connection that the store cannot take is recycled, and its descriptor is never closed. -/
theorem lifetimeExact_fails_unstored :
    ∃ t, Run (ConnTable.step (sampleWorker (scripted bareRequest))) (fun t e => t.enabled e = true) {}
        [(.accept 7 false (some {}) false [] .done, {})] t ∧
      (∃ slot ∈ t.recycled, slot.fd = 7 ∧
        slot.history.count .closeFd + slot.history.count .postClose = 0) ∧ ¬ LifetimeExact t := by
  obtain ⟨t, hrun, slot, hmem, hfd, hopen⟩ := unstoredScript.exists_run
  refine ⟨t, hrun, ⟨slot, hmem, hfd, hopen⟩, fun hexact => ?_⟩
  have hclosed := (hexact.recycled slot hmem).2.2.2.2
  omega

end Lamseryn
