import Lamseryn.Framework.Runs
import Lamseryn.Model.ActiveSet
import Lamseryn.Properties.ConnStore

/-!
# The active set lists the stored connections

`ActiveInv w m` describes a worker whose store holds the map `m` from descriptors to connections: each of
them is linked to its descriptor and recorded in `active_fds`, and none is on the freelist.  What happens
to a connection outside the store does not matter (`ActiveInv.setConn_of_unstored`), so `conn_init` and
`schedule_or_sync_close` come down to the moment at which the descriptor enters (`ActiveInv.enter`) or
leaves (`ActiveInv.detach`) the map.
-/

namespace Lamseryn

open SwapRemove GuardedRun

variable {w : ActiveWorker} {m : ℕ → Option ℕ} {fd c total : ℕ}

/-- Where the connection of a descriptor is recorded to be. -/
def ActiveWorker.position (w : ActiveWorker) (m : ℕ → Option ℕ) (fd : ℕ) : Option ℕ :=
  (m fd).bind fun c => (w.heap[c]?).bind ConnLink.activeIdx

/-- A connection that is stored under `fd`. -/
structure Linked (w : ActiveWorker) (fd c : ℕ) : Prop where
  owned : c ∉ w.freeList
  link : ∃ link, w.heap[c]? = some link ∧ link.fd = some fd ∧ link.inActiveSet = true ∧
    link.activeIdx.isSome = true

structure ActiveInv (w : ActiveWorker) (m : ℕ → Option ℕ) : Prop where
  stored : StoreInv w.store fun fd => (m fd).map some
  linked : ∀ fd c, m fd = some c → Linked w fd c
  indexed : Indexed w.activeFds (w.position m)
  freeNodup : w.freeList.Nodup
  freeLt : ∀ c ∈ w.freeList, c < w.heap.length

/-! ## Reading the invariant -/

lemma ActiveInv.get (h : ActiveInv w m) (fd : ℕ) : connStoreGet w.store fd = some (m fd) := by
  rw [h.stored.get fd]
  cases m fd <;> rfl

lemma ActiveInv.fd_unique (h : ActiveInv w m) {fd fd' : ℕ} (hfd : m fd = some c) (hfd' : m fd' = some c) :
    fd = fd' := by
  obtain ⟨link, hlink, hof, -⟩ := (h.linked fd c hfd).link
  obtain ⟨link', hlink', hof', -⟩ := (h.linked fd' c hfd').link
  obtain rfl : link = link' := Option.some.inj (hlink.symm.trans hlink')
  exact Option.some.inj (hof.symm.trans hof')

lemma ActiveInv.lt_length (h : ActiveInv w m) (hfd : m fd = some c) : c < w.heap.length := by
  obtain ⟨link, hlink, -⟩ := (h.linked fd c hfd).link
  exact (List.getElem?_eq_some_iff.mp hlink).1

lemma ActiveInv.position_isSome (h : ActiveInv w m) (fd : ℕ) :
    (w.position m fd).isSome = (m fd).isSome := by
  cases hfd : m fd with
  | none => rw [ActiveWorker.position, hfd, Option.bind_none]
  | some c =>
    obtain ⟨link, hlink, -, -, hidx⟩ := (h.linked fd c hfd).link
    rw [ActiveWorker.position, hfd, Option.bind_some, hlink, Option.bind_some, hidx]
    rfl

lemma ActiveInv.mem_iff (h : ActiveInv w m) : fd ∈ w.activeFds ↔ (m fd).isSome = true := by
  rw [h.indexed.mem_iff, h.position_isSome]

/-! ## Writing to a connection -/

lemma setConn_getElem?_ne {c c' : ℕ} (hne : c ≠ c') (f : ConnLink → ConnLink) :
    (w.setConn c f).heap[c']? = w.heap[c']? :=
  List.getElem?_modify_ne f w.heap hne

lemma setConn_getElem? (c : ℕ) (f : ConnLink → ConnLink) :
    (w.setConn c f).heap[c]? = (w.heap[c]?).map f :=
  List.getElem?_modify_eq f c w.heap

lemma position_congr {w w' : ActiveWorker} {m : ℕ → Option ℕ}
    (h : ∀ fd c, m fd = some c → w'.heap[c]? = w.heap[c]?) : w'.position m = w.position m := by
  funext fd
  cases hfd : m fd with
  | none => rw [ActiveWorker.position, ActiveWorker.position, hfd, Option.bind_none, Option.bind_none]
  | some c =>
    rw [ActiveWorker.position, ActiveWorker.position, hfd, Option.bind_some, Option.bind_some, h fd c hfd]

lemma Linked.congr {w w' : ActiveWorker} (h : Linked w fd c) (hheap : w'.heap[c]? = w.heap[c]?)
    (hfree : c ∉ w'.freeList) : Linked w' fd c :=
  ⟨hfree, by rw [hheap]; exact h.link⟩

lemma ActiveInv.of_heap {w' : ActiveWorker} (h : ActiveInv w m) (hstore : w'.store = w.store)
    (hfds : w'.activeFds = w.activeFds) (hheap : ∀ fd c, m fd = some c → w'.heap[c]? = w.heap[c]?)
    (howned : ∀ fd c, m fd = some c → c ∉ w'.freeList) (hnodup : w'.freeList.Nodup)
    (hlt : ∀ c ∈ w'.freeList, c < w'.heap.length) : ActiveInv w' m where
  stored := hstore ▸ h.stored
  linked fd c hfd := (h.linked fd c hfd).congr (hheap fd c hfd) (howned fd c hfd)
  indexed := by
    rw [hfds, position_congr hheap]
    exact h.indexed
  freeNodup := hnodup
  freeLt := hlt

lemma ActiveInv.setConn_of_unstored (h : ActiveInv w m) (hc : ∀ fd, m fd ≠ some c)
    (f : ConnLink → ConnLink) : ActiveInv (w.setConn c f) m := by
  refine h.of_heap rfl rfl (fun fd c' hfd => ?_) (fun fd c' hfd => (h.linked fd c' hfd).owned)
    h.freeNodup (fun c' hmem => ?_)
  · refine setConn_getElem?_ne ?_ f
    rintro rfl
    exact hc fd hfd
  · rw [ActiveWorker.setConn, List.length_modify]
    exact h.freeLt c' hmem

lemma ActiveInv.connRecycle (h : ActiveInv w m) (hc : ∀ fd, m fd ≠ some c) (hfree : c ∉ w.freeList)
    (hlt : c < w.heap.length) : ActiveInv (w.connRecycle c) m := by
  unfold ActiveWorker.connRecycle
  dsimp only
  have hcleared := h.setConn_of_unstored hc fun link =>
    { link with inActiveSet := false, activeIdx := none, fd := none }
  split
  · exact hcleared
  · refine hcleared.of_heap rfl rfl (fun _ _ _ => rfl) (fun fd c' hfd => ?_)
      (List.nodup_cons.mpr ⟨hfree, h.freeNodup⟩) ?_
    · refine List.not_mem_cons_of_ne_of_not_mem ?_ (h.linked fd c' hfd).owned
      rintro rfl
      exact hc fd hfd
    · intro c' hmem
      rcases List.mem_cons.mp hmem with rfl | hmem
      · rw [ActiveWorker.setConn, List.length_modify]
        exact hlt
      · exact hcleared.freeLt c' hmem

/-- The connection that `conn_alloc` returns is on no list. -/
lemma ActiveInv.connAlloc (h : ActiveInv w m) {calloc : Bool} {w' : ActiveWorker}
    (halloc : w.connAlloc calloc = (some c, w')) :
    ActiveInv w' m ∧ (∀ fd, m fd ≠ some c) ∧ c ∉ w'.freeList ∧ w'.heap[c]? = some {} := by
  unfold ActiveWorker.connAlloc at halloc
  split at halloc
  · rename_i c' rest hlist
    obtain ⟨hc, hw⟩ := Prod.mk.inj halloc
    obtain rfl := Option.some.inj hc
    subst hw
    have hnodup := List.nodup_cons.mp (hlist ▸ h.freeNodup)
    have hlt : ∀ c ∈ rest, c < w.heap.length := fun c hmem =>
      h.freeLt c (hlist ▸ List.mem_cons_of_mem _ hmem)
    have hfree : ∀ fd, m fd ≠ some c' := fun fd hfd =>
      (h.linked fd c' hfd).owned (hlist ▸ List.mem_cons_self)
    have hrest : ActiveInv { w with freeList := rest } m :=
      h.of_heap rfl rfl (fun _ _ _ => rfl)
        (fun fd c hfd hmem => (h.linked fd c hfd).owned (hlist ▸ List.mem_cons_of_mem _ hmem)) hnodup.2 hlt
    refine ⟨hrest.setConn_of_unstored hfree _, hfree, hnodup.1, ?_⟩
    rw [setConn_getElem?, List.getElem?_eq_getElem (h.freeLt c' (hlist ▸ List.mem_cons_self))]
    rfl
  · rename_i hlist
    split at halloc
    · obtain ⟨hc, hw⟩ := Prod.mk.inj halloc
      obtain rfl := Option.some.inj hc
      subst hw
      refine ⟨h.of_heap rfl rfl (fun fd c hfd => ?_) (fun fd c hfd => (h.linked fd c hfd).owned)
        h.freeNodup (fun c hmem => ?_), fun fd hfd => ?_, ?_, List.getElem?_concat_length⟩
      · exact List.getElem?_append_left (h.lt_length hfd)
      · rw [List.length_append]
        exact Nat.lt_add_right _ (h.freeLt c hmem)
      · exact absurd (h.lt_length hfd) (Nat.lt_irrefl _)
      · rw [hlist]
        exact List.not_mem_nil
    · cases halloc

lemma connAlloc_none {calloc : Bool} {w' : ActiveWorker} (halloc : w.connAlloc calloc = (none, w')) :
    w' = w := by
  unfold ActiveWorker.connAlloc at halloc
  split at halloc
  · cases halloc
  · split at halloc
    · cases halloc
    · exact (Prod.mk.inj halloc).2.symm

lemma connPut_eq {link : ConnLink} (hlink : w.heap[c]? = some link) :
    w.connPut c = if link.refcnt = 1
      then (w.setConn c fun link => { link with refcnt := link.refcnt - 1 }).connRecycle c
      else w.setConn c fun link => { link with refcnt := link.refcnt - 1 } := by
  unfold ActiveWorker.connPut
  dsimp only
  rw [setConn_getElem?, hlink]
  simp only [Option.map_some, Option.any_some, decide_eq_true_eq, sub_eq_zero]

lemma connRecycle_refcnt {link : ConnLink} (hlink : w.heap[c]? = some link) :
    ∃ link', (w.connRecycle c).heap[c]? = some link' ∧ link'.refcnt = link.refcnt := by
  refine ⟨{ link with inActiveSet := false, activeIdx := none, fd := none }, ?_, rfl⟩
  unfold ActiveWorker.connRecycle
  dsimp only
  have hread := (setConn_getElem? (w := w) c fun link =>
    { link with inActiveSet := false, activeIdx := none, fd := none }).trans (congrArg _ hlink)
  split
  · exact hread
  · exact hread

lemma ActiveInv.connPut (h : ActiveInv w m) (hc : ∀ fd, m fd ≠ some c) (hfree : c ∉ w.freeList)
    (hlt : c < w.heap.length) : ActiveInv (w.connPut c) m := by
  have hput := h.setConn_of_unstored hc fun link => { link with refcnt := link.refcnt - 1 }
  rw [connPut_eq (List.getElem?_eq_getElem hlt)]
  split
  · refine hput.connRecycle hc hfree ?_
    rw [ActiveWorker.setConn, List.length_modify]
    exact hlt
  · exact hput

lemma ActiveInv.connPut_connPut (h : ActiveInv w m) (hc : ∀ fd, m fd ≠ some c) (hfree : c ∉ w.freeList)
    (hlt : c < w.heap.length) : ActiveInv ((w.connPut c).connPut c) m := by
  have hput := h.connPut hc hfree hlt
  have hlink := List.getElem?_eq_getElem hlt
  have hdrop := (setConn_getElem? (w := w) c fun link =>
    { link with refcnt := link.refcnt - 1 }).trans (congrArg _ hlink)
  rw [connPut_eq hlink] at hput ⊢
  split at hput
  · rename_i hone
    rw [if_pos hone]
    obtain ⟨link', hlink', href⟩ := connRecycle_refcnt hdrop
    have hzero : link'.refcnt = 0 := by
      rw [href]
      show w.heap[c].refcnt - 1 = 0
      rw [hone, sub_self]
    rw [connPut_eq hlink', if_neg (by omega)]
    exact hput.setConn_of_unstored hc _
  · rename_i hone
    rw [if_neg hone]
    refine hput.connPut hc hfree ?_
    rw [ActiveWorker.setConn, List.length_modify]
    exact hlt

/-! ## A descriptor enters -/

/-- A connection is stored and recorded. -/
lemma ActiveInv.enter (h : ActiveInv w m) (hc : ∀ fd, m fd ≠ some c) (hfree : c ∉ w.freeList)
    {link : ConnLink} (hlink : w.heap[c]? = some link) (hof : link.fd = some fd)
    (hfd : m fd = none) {store : FdStore ℕ}
    (hstore : StoreInv store (Function.update (fun fd => (m fd).map some) fd (some (some c)))) (cap : ℕ) :
    ActiveInv ({ w with store := store, activeFds := w.activeFds ++ [fd], activeCap := cap }.setConn c
        fun link => { link with inActiveSet := true, activeIdx := some w.activeFds.length })
      (Function.update m fd (some c)) := by
  have hother : ∀ fd' c', m fd' = some c' → c ≠ c' := by
    rintro fd' c' hfd' rfl
    exact hc fd' hfd'
  constructor
  · have hmap : (fun fd' => (Function.update m fd (some c) fd').map some)
        = Function.update (fun fd => (m fd).map some) fd (some (some c)) := by
      funext fd'
      by_cases hfd' : fd' = fd
      · subst hfd'
        rw [Function.update_self, Function.update_self]
        rfl
      · rw [Function.update_of_ne hfd', Function.update_of_ne hfd']
    rw [hmap]
    exact hstore
  · intro fd' c' hfd'
    by_cases hne : fd' = fd
    · subst hne
      rw [Function.update_self, Option.some_inj] at hfd'
      subst hfd'
      refine ⟨hfree, { link with inActiveSet := true, activeIdx := some w.activeFds.length }, ?_, hof,
        rfl, rfl⟩
      rw [setConn_getElem?]
      exact congrArg (Option.map _) hlink
    · rw [Function.update_of_ne hne] at hfd'
      exact (h.linked fd' c' hfd').congr (setConn_getElem?_ne (hother fd' c' hfd') _)
        (h.linked fd' c' hfd').owned
  · have hnone : w.position m fd = none := by rw [ActiveWorker.position, hfd, Option.bind_none]
    refine (congrArg (Indexed _) ?_).mpr (h.indexed.push hnone)
    funext fd'
    by_cases hne : fd' = fd
    · subst hne
      rw [Function.update_self, ActiveWorker.position, Function.update_self, Option.bind_some,
        setConn_getElem?]
      exact congrArg (fun l => (Option.map _ l).bind ConnLink.activeIdx) hlink
    · rw [Function.update_of_ne hne, ActiveWorker.position, ActiveWorker.position,
        Function.update_of_ne hne]
      cases hfd' : m fd' with
      | none => rfl
      | some c' =>
        exact congrArg (fun l => Option.bind l ConnLink.activeIdx)
          (setConn_getElem?_ne (hother fd' c' hfd') _)
  · exact h.freeNodup
  · intro c' hmem
    exact (h.freeLt c' hmem).trans_eq (List.length_modify _ _ _).symm

lemma ActiveInv.workerActiveAdd (h : ActiveInv w m) (hc : ∀ fd, m fd ≠ some c) (hfree : c ∉ w.freeList)
    {link : ConnLink} (hlink : w.heap[c]? = some link) (hof : link.fd = some fd)
    (hout : link.inActiveSet = false) (hfd : m fd = none) {store : FdStore ℕ}
    (hstore : StoreInv store (Function.update (fun fd => (m fd).map some) fd (some (some c)))) :
    ∃ w', { w with store := store }.workerActiveAdd fd true = some w' ∧
      ActiveInv w' (Function.update m fd (some c)) := by
  have hget : connStoreGet store fd = some (some c) := by
    rw [hstore.get fd, Function.update_self]
    rfl
  unfold ActiveWorker.workerActiveAdd
  rw [hget, Option.bind_eq_bind, Option.bind_some]
  simp only [hlink, Option.any_some, hout, Bool.false_eq_true, if_false, Bool.true_eq_false, and_false]
  exact ⟨_, rfl, h.enter hc hfree hlink hof hfd hstore _⟩

/-- `conn_init` on a new descriptor stores a connection or changes nothing that matters. -/
lemma ActiveInv.connInit (h : ActiveInv w m) (hfd : m fd = none) {io : InitIo} (hrealloc : io.realloc = true)
    (total : ℕ) :
    (∃ w', w.connInit total fd io = some (false, w', total) ∧ ActiveInv w' m) ∨
      ∃ w' c, w.connInit total fd io = some (true, w', activeConnsInc total) ∧
        ActiveInv w' (Function.update m fd (some c)) := by
  unfold ActiveWorker.connInit
  rcases halloc : w.connAlloc io.calloc with ⟨c, w₁⟩
  cases c with
  | none =>
    refine .inl ⟨w₁, rfl, ?_⟩
    rw [connAlloc_none halloc]
    exact h
  | some c =>
    obtain ⟨h₁, hc, hfree, hzero⟩ := h.connAlloc halloc
    dsimp only
    have hset := h₁.setConn_of_unstored hc fun link =>
      { link with fd := some fd, refcnt := 1, activeIdx := none }
    have hlink : (w₁.setConn c fun link => { link with fd := some fd, refcnt := 1, activeIdx := none }).heap[c]?
        = some { fd := some fd, refcnt := 1, activeIdx := none } := by
      rw [setConn_getElem?, hzero]
      rfl
    obtain ⟨store, ok, hput, hsame, -, hstore⟩ := hset.stored.put fd (some c) io.resize
    rw [hput, Option.bind_eq_bind, Option.bind_some]
    cases ok with
    | false =>
      refine .inl ⟨_, rfl, ?_⟩
      rw [hsame rfl]
      exact hset.connRecycle hc hfree (List.getElem?_eq_some_iff.mp hlink).1
    | true =>
      obtain ⟨w', hadd, hinv⟩ := hset.workerActiveAdd hc hfree hlink rfl rfl hfd hstore
      refine .inr ⟨w', c, ?_, hinv⟩
      dsimp only
      rw [hrealloc, hadd]
      rfl

/-! ## A descriptor leaves -/

lemma of_update_none {fd' : ℕ} (h : Function.update m fd none fd' = some c) : fd' ≠ fd ∧ m fd' = some c := by
  by_cases hne : fd' = fd
  · rw [hne, Function.update_self] at h
    cases h
  · rw [Function.update_of_ne hne] at h
    exact ⟨hne, h⟩

/-- What `worker_active_remove` does to a worker. -/
structure Removed (w : ActiveWorker) (m : ℕ → Option ℕ) (fd i : ℕ) (w' : ActiveWorker) : Prop where
  store : w'.store = w.store
  freeList : w'.freeList = w.freeList
  length : w'.heap.length = w.heap.length
  fds : w'.activeFds = swapRemove w.activeFds i
  heap : ∀ fd' c', m fd' = some c' → fd' ≠ fd → w'.heap[c']? = (w.heap[c']?).map fun link =>
    if w.activeFds.getLast? = some fd' then { link with activeIdx := some i } else link

lemma ActiveInv.workerActiveRemove (h : ActiveInv w m) (hfd : m fd = some c) (f : ConnLink → ConnLink)
    (hset : ∀ link, (f link).inActiveSet = link.inActiveSet)
    (hidx : ∀ link, (f link).activeIdx = link.activeIdx) :
    ∃ i w', w.position m fd = some i ∧ (w.setConn c f).workerActiveRemove fd = some w' ∧
      Removed w m fd i w' := by
  obtain ⟨link, hlink, -, hin, hrecorded⟩ := (h.linked fd c hfd).link
  obtain ⟨i, hi⟩ := Option.isSome_iff_exists.mp hrecorded
  have hpos : w.position m fd = some i := by
    rw [ActiveWorker.position, hfd, Option.bind_some, hlink, Option.bind_some, hi]
  have hget : w.activeFds[i]? = some fd := (h.indexed fd i).mp hpos
  have hne : ∀ fd' c', m fd' = some c' → fd' ≠ fd → c ≠ c' := by
    rintro fd' c' hfd' hne rfl
    exact hne (h.fd_unique hfd' hfd)
  have hlen : i < w.activeFds.length := h.indexed.lt_length hpos
  have hend : w.activeFds.getLast? = some w.activeFds[w.activeFds.length - 1] := by
    rw [List.getLast?_eq_getElem?, List.getElem?_eq_getElem]
  generalize w.activeFds[w.activeFds.length - 1] = last at hend
  have hfound : (w.setConn c f).activeIdxOf (f link) fd = some i := by
    rw [ActiveWorker.activeIdxOf, hidx, hi, Option.filter_some_pos (by exact decide_eq_true hget),
      Option.some_or]
  have hstored : connStoreGet (w.setConn c f).store fd = some (some c) := (h.get fd).trans (congrArg some hfd)
  have hread : (w.setConn c f).heap[c]? = some (f link) := by
    rw [setConn_getElem?, hlink]
    rfl
  have hactive : (f link).inActiveSet ≠ false := by
    rw [hset, hin]
    exact nofun
  refine ⟨i, ?_⟩
  unfold ActiveWorker.workerActiveRemove
  rw [hstored, Option.bind_eq_bind, Option.bind_some]
  have hends : (w.setConn c f).activeFds.getLast? = some last := hend
  simp only [hread, if_neg hactive, hfound, hends]
  split
  · -- The descriptor is the last one, and nothing is moved.
    rename_i hi'
    have hself : last = fd := by
      have hsame : i = w.activeFds.length - 1 := by
        rw [← show i + 1 = w.activeFds.length from hi', Nat.add_sub_cancel]
      rw [List.getLast?_eq_getElem?, ← hsame, hget] at hend
      exact (Option.some.inj hend).symm
    refine ⟨_, hpos, rfl, rfl, rfl, ?_, rfl, fun fd' c' hfd' hne' => ?_⟩
    · exact (List.length_modify _ _ _).trans (List.length_modify _ _ _)
    · have hc := hne fd' c' hfd' hne'
      rw [setConn_getElem?_ne hc, hend, hself]
      refine (setConn_getElem?_ne hc f).trans ?_
      simp only [Option.some_inj, if_neg (Ne.symm hne')]
      exact Option.map_id'.symm
  · rename_i hi'
    have hmoved : connStoreGet (w.setConn c f).store last = some (m last) := h.get last
    obtain ⟨cs, hcs⟩ : ∃ cs, m last = some cs :=
      Option.isSome_iff_exists.mp (h.mem_iff.mp (List.mem_of_getLast? hend))
    rw [hmoved, hcs, Option.bind_some]
    refine ⟨_, hpos, rfl, rfl, rfl, ?_, rfl, fun fd' c' hfd' hne' => ?_⟩
    · exact ((List.length_modify _ _ _).trans (List.length_modify _ _ _)).trans (List.length_modify _ _ _)
    · have hc := hne fd' c' hfd' hne'
      rw [setConn_getElem?_ne hc, hend]
      simp only [Option.some_inj]
      by_cases hlast : last = fd'
      · obtain rfl : cs = c' := Option.some.inj (hcs.symm.trans (hlast ▸ hfd'))
        simp only [if_pos hlast]
        rw [setConn_getElem?]
        exact congrArg (Option.map _) (setConn_getElem?_ne hc f)
      · have hcs' : cs ≠ c' := by
          rintro rfl
          exact hlast (h.fd_unique hcs hfd')
        simp only [if_neg hlast]
        rw [setConn_getElem?_ne hcs']
        exact (setConn_getElem?_ne hc f).trans Option.map_id'.symm

lemma Removed.activeInv {i : ℕ} {w' : ActiveWorker} (hr : Removed w m fd i w') (h : ActiveInv w m)
    (hpos : w.position m fd = some i) {store : FdStore ℕ}
    (hstore : StoreInv store (Function.update (fun fd => (m fd).map some) fd none)) :
    ActiveInv { w' with store := store } (Function.update m fd none) := by
  constructor
  · have hmap : (fun fd' => (Function.update m fd none fd').map some)
        = Function.update (fun fd => (m fd).map some) fd none := by
      funext fd'
      by_cases hfd' : fd' = fd
      · subst hfd'
        rw [Function.update_self, Function.update_self]
        rfl
      · rw [Function.update_of_ne hfd', Function.update_of_ne hfd']
    rw [hmap]
    exact hstore
  · intro fd' c' hfd'
    obtain ⟨hne, hfd'⟩ := of_update_none hfd'
    obtain ⟨link, hlink, hof, hin, hidx⟩ := (h.linked fd' c' hfd').link
    have hread := hr.heap fd' c' hfd' hne
    rw [hlink, Option.map_some] at hread
    refine ⟨hr.freeList ▸ (h.linked fd' c' hfd').owned, _, hread, ?_⟩
    split
    · exact ⟨hof, hin, rfl⟩
    · exact ⟨hof, hin, hidx⟩
  · refine (congrArg₂ Indexed hr.fds ?_).mpr (h.indexed.swapRemove hpos)
    funext fd'
    by_cases hne : fd' = fd
    · rw [if_pos hne, ActiveWorker.position, hne, Function.update_self, Option.bind_none]
    · rw [if_neg hne, ActiveWorker.position, ActiveWorker.position, Function.update_of_ne hne]
      cases hfd' : m fd' with
      | none =>
        refine (if_neg fun hlast => ?_).symm
        have hsome := h.mem_iff.mp (List.mem_of_getLast? hlast)
        rw [hfd'] at hsome
        cases hsome
      | some c' =>
        rw [Option.bind_some, Option.bind_some]
        refine (congrArg (fun l => Option.bind l ConnLink.activeIdx) (hr.heap fd' c' hfd' hne)).trans ?_
        obtain ⟨link, hlink, -⟩ := (h.linked fd' c' hfd').link
        rw [hlink, Option.map_some, Option.bind_some, Option.bind_some]
        split <;> rfl
  · exact hr.freeList ▸ h.freeNodup
  · intro c' hmem
    exact (h.freeLt c' (hr.freeList ▸ hmem)).trans_eq hr.length.symm

lemma ActiveInv.detach (h : ActiveInv w m) (hfd : m fd = some c) (f : ConnLink → ConnLink)
    (hset : ∀ link, (f link).inActiveSet = link.inActiveSet)
    (hidx : ∀ link, (f link).activeIdx = link.activeIdx) (total : ℕ) :
    ∃ w', (w.setConn c f).detach total fd = some (w', activeConnsDec total) ∧
      ActiveInv w' (Function.update m fd none) ∧ c ∉ w'.freeList ∧ c < w'.heap.length := by
  obtain ⟨i, w₁, hpos, hremove, hr⟩ := h.workerActiveRemove hfd f hset hidx
  obtain ⟨store, hdel, hstore⟩ := h.stored.del fd
  refine ⟨{ w₁ with store := store }, ?_, ?_, ?_, ?_⟩
  · unfold ActiveWorker.detach
    rw [hremove, Option.bind_eq_bind, Option.bind_some, hr.store, hdel]
    rfl
  · exact hr.activeInv h hpos hstore
  · rw [hr.freeList]
    exact (h.linked fd c hfd).owned
  · rw [hr.length]
    exact h.lt_length hfd

/-- `schedule_or_sync_close` of a stored connection. -/
lemma ActiveInv.scheduleOrSyncClose (h : ActiveInv w m) (hfd : m fd = some c) (io : CloseIo) (total : ℕ) :
    ∃ w', w.scheduleOrSyncClose total fd io = some (w', activeConnsDec total) ∧
      ActiveInv w' (Function.update m fd none) := by
  obtain ⟨link, hlink, hof, -⟩ := (h.linked fd c hfd).link
  obtain ⟨w₁, hdetach, hinv, hfree, hlt⟩ := h.detach hfd
    (fun link => { link with refcnt := link.refcnt + 1, fd := none }) (fun _ => rfl) (fun _ => rfl) total
  have hgone : ∀ fd', Function.update m fd none fd' ≠ some c := fun fd' hfd' => by
    obtain ⟨hne, hfd'⟩ := of_update_none hfd'
    exact hne (h.fd_unique hfd' hfd)
  unfold ActiveWorker.scheduleOrSyncClose
  rw [h.get, hfd, Option.bind_eq_bind, Option.bind_some]
  simp only [hlink, Option.bind_some, hof]
  rw [hdetach]
  dsimp only [Option.bind_eq_bind, Option.bind_some]
  split
  · exact ⟨_, rfl, hinv.connPut_connPut hgone hfree hlt⟩
  · exact ⟨_, rfl, hinv.connPut hgone hfree hlt⟩

/-! ## The workers of a process -/

variable {n : ℕ}

/-- The descriptors in the store of a worker. -/
def ActiveWorker.storedFds (w : ActiveWorker) : Set ℕ :=
  { fd | ∃ c, connStoreGet w.store fd = some (some c) }

lemma ActiveInv.mem_storedFds (h : ActiveInv w m) : fd ∈ w.storedFds ↔ (m fd).isSome = true := by
  rw [Option.isSome_iff_exists]
  exact exists_congr fun c => by rw [h.get, Option.some_inj]

lemma ActiveInv.storedFds_eq (h : ActiveInv w m) : w.storedFds = w.activeFds.toFinset := by
  ext fd
  rw [h.mem_storedFds, ← h.mem_iff, Finset.mem_coe, List.mem_toFinset]

lemma ActiveInv.storedFds_ncard (h : ActiveInv w m) : w.storedFds.ncard = w.activeFds.length := by
  rw [h.storedFds_eq, Set.ncard_coe_finset, List.toFinset_card_of_nodup h.indexed.nodup]

lemma ActiveInv.length_eq {w' : ActiveWorker} (h : ActiveInv w m) (h' : ActiveInv w' m) :
    w'.activeFds.length = w.activeFds.length := by
  have hsame : w'.storedFds = w.storedFds := by
    ext fd
    rw [h.mem_storedFds, h'.mem_storedFds]
  rw [← h.storedFds_ncard, ← h'.storedFds_ncard, hsame]

lemma ActiveInv.length_insert {w' : ActiveWorker} (h : ActiveInv w m)
    (h' : ActiveInv w' (Function.update m fd (some c))) (hfd : m fd = none) :
    w'.activeFds.length = w.activeFds.length + 1 := by
  have hinsert : w'.activeFds.toFinset = insert fd w.activeFds.toFinset := by
    ext fd'
    rw [Finset.mem_insert, List.mem_toFinset, List.mem_toFinset, h.mem_iff, h'.mem_iff]
    by_cases hne : fd' = fd
    · rw [hne, Function.update_self]
      exact ⟨fun _ => .inl rfl, fun _ => rfl⟩
    · rw [Function.update_of_ne hne]
      exact (or_iff_right hne).symm
  have hnew : fd ∉ w.activeFds.toFinset := by
    rw [List.mem_toFinset, h.mem_iff, hfd]
    exact Bool.false_ne_true
  rw [← List.toFinset_card_of_nodup h.indexed.nodup, ← List.toFinset_card_of_nodup h'.indexed.nodup,
    hinsert, Finset.card_insert_of_notMem hnew]

/-- The workers hold `ms`, and the counter is the number of their connections. -/
structure ProcessInv (p : ActiveProcess n) (ms : Fin n → ℕ → Option ℕ) : Prop where
  worker : ∀ i, ActiveInv (p.workers i) (ms i)
  apart : ∀ i j fd, (ms i fd).isSome = true → (ms j fd).isSome = true → i = j
  small : ∀ i fd, (ms i fd).isSome = true → fd < 2 ^ 31
  total : p.activeConnsGlobal = ∑ i, (p.workers i).activeFds.length

lemma ProcessInv.total_le {p : ActiveProcess n} {ms : Fin n → ℕ → Option ℕ} (h : ProcessInv p ms) :
    p.activeConnsGlobal ≤ 2 ^ 31 := by
  have hcard : ∑ i, (p.workers i).activeFds.length
      = (Finset.univ.biUnion fun i => (p.workers i).activeFds.toFinset).card := by
    rw [Finset.card_biUnion]
    · exact Finset.sum_congr rfl fun i _ =>
        (List.toFinset_card_of_nodup (h.worker i).indexed.nodup).symm
    · intro i _ j _ hne
      refine Finset.disjoint_left.mpr fun fd hi hj => ?_
      rw [List.mem_toFinset, ActiveInv.mem_iff (h.worker _)] at hi hj
      exact hne (h.apart i j fd hi hj)
  have hsub : (Finset.univ.biUnion fun i => (p.workers i).activeFds.toFinset) ⊆ Finset.range (2 ^ 31) := by
    intro fd hfd
    obtain ⟨i, -, hi⟩ := Finset.mem_biUnion.mp hfd
    rw [List.mem_toFinset, (h.worker i).mem_iff] at hi
    exact Finset.mem_range.mpr (h.small i fd hi)
  rw [h.total, hcard]
  exact (Finset.card_le_card hsub).trans_eq (Finset.card_range _)

lemma after_workers_self (p : ActiveProcess n) (i : Fin n) (w : ActiveWorker) (total : ℕ) :
    (p.after i w total).workers i = w := by
  simp only [ActiveProcess.after, Function.update_self]

lemma after_workers_of_ne (p : ActiveProcess n) {i j : Fin n} (hj : j ≠ i) (w : ActiveWorker) (total : ℕ) :
    (p.after i w total).workers j = p.workers j := by
  simp only [ActiveProcess.after, Function.update_of_ne hj]

lemma sum_after (p : ActiveProcess n) (i : Fin n) (w : ActiveWorker) (total : ℕ) :
    (∑ j, ((p.after i w total).workers j).activeFds.length) + (p.workers i).activeFds.length
      = (∑ j, (p.workers j).activeFds.length) + w.activeFds.length := by
  have hrest : ∑ j ∈ Finset.univ.erase i, ((p.after i w total).workers j).activeFds.length
      = ∑ j ∈ Finset.univ.erase i, (p.workers j).activeFds.length := by
    refine Finset.sum_congr rfl fun j hj => ?_
    rw [after_workers_of_ne p (Finset.ne_of_mem_erase hj)]
  rw [← Finset.add_sum_erase _ _ (Finset.mem_univ i), hrest,
    ← Finset.add_sum_erase _ (fun j => (p.workers j).activeFds.length) (Finset.mem_univ i),
    after_workers_self]
  omega

/-- One worker has changed its map. -/
lemma ProcessInv.after {p : ActiveProcess n} {ms : Fin n → ℕ → Option ℕ} (h : ProcessInv p ms) {i : Fin n}
    (hw : ActiveInv w m) (total : ℕ)
    (hnew : ∀ fd, (m fd).isSome = true → (ms i fd).isSome = true ∨ fd < 2 ^ 31 ∧ ∀ j, ms j fd = none)
    (htotal : total + (p.workers i).activeFds.length = p.activeConnsGlobal + w.activeFds.length) :
    ProcessInv (p.after i w total) (Function.update ms i m) := by
  have hfrom : ∀ j fd, (Function.update ms i m j fd).isSome = true →
      (ms j fd).isSome = true ∨ j = i ∧ fd < 2 ^ 31 ∧ ∀ k, ms k fd = none := by
    intro j fd hfd
    by_cases hj : j = i
    · rw [hj, Function.update_self] at hfd
      rcases hnew fd hfd with hold | hfresh
      · exact .inl (hj ▸ hold)
      · exact .inr ⟨hj, hfresh⟩
    · rw [Function.update_of_ne hj] at hfd
      exact .inl hfd
  have hclash : ∀ {j fd}, (ms j fd).isSome = true → ¬ ∀ k, ms k fd = none := fun hsome hnone => by
    rw [hnone] at hsome
    cases hsome
  constructor
  · intro j
    by_cases hj : j = i
    · subst hj
      rw [after_workers_self, Function.update_self]
      exact hw
    · rw [after_workers_of_ne p hj, Function.update_of_ne hj]
      exact h.worker j
  · intro j k fd hj hk
    rcases hfrom j fd hj with hj | ⟨hji, -, hnone⟩
    · rcases hfrom k fd hk with hk | ⟨-, -, hnone⟩
      · exact h.apart j k fd hj hk
      · exact absurd hnone (hclash hj)
    · rcases hfrom k fd hk with hk | ⟨hki, -⟩
      · exact absurd hnone (hclash hk)
      · exact hji.trans hki.symm
  · intro j fd hj
    rcases hfrom j fd hj with hj | ⟨-, hlt, -⟩
    · exact h.small j fd hj
    · exact hlt
  · have hsum := sum_after p i w total
    rw [← h.total] at hsum
    exact Nat.add_right_cancel (htotal.trans hsum.symm)

/-- Every allowed call returns and keeps the invariant. -/
lemma ProcessInv.call {p : ActiveProcess n} {ms : Fin n → ℕ → Option ℕ} (h : ProcessInv p ms)
    {call : ActiveCall n} (hok : p.allowed call) : ∃ p' ms', p.call call = some p' ∧ ProcessInv p' ms' := by
  have hle := h.total_le
  cases call with
  | connInit i fd io =>
    obtain ⟨hlt, hfresh, hrealloc⟩ := hok
    have hnone : ∀ j, ms j fd = none := fun j =>
      Option.some.inj (((h.worker j).get fd).symm.trans (hfresh j))
    rcases (h.worker i).connInit (hnone i) hrealloc p.activeConnsGlobal with
      ⟨w, hinit, hw⟩ | ⟨w, c, hinit, hw⟩
    · refine ⟨_, _, by rw [ActiveProcess.call, hinit]; rfl, h.after hw _ (fun _ hold => .inl hold) ?_⟩
      rw [(h.worker i).length_eq hw]
    · refine ⟨_, _, by rw [ActiveProcess.call, hinit]; rfl, h.after hw _ (fun fd' hold => ?_) ?_⟩
      · by_cases hne : fd' = fd
        · exact .inr ⟨hne ▸ hlt, hne ▸ hnone⟩
        · rw [Function.update_of_ne hne] at hold
          exact .inl hold
      · rw [(h.worker i).length_insert hw (hnone i), activeConnsInc, Nat.mod_eq_of_lt (by omega)]
        omega
  | close i fd io =>
    cases hfd : ms i fd with
    | none =>
      have hclose : (p.workers i).scheduleOrSyncClose p.activeConnsGlobal fd io
          = some (p.workers i, p.activeConnsGlobal) := by
        rw [ActiveWorker.scheduleOrSyncClose, (h.worker i).get, hfd]
        rfl
      refine ⟨_, _, by rw [ActiveProcess.call, hclose]; rfl,
        h.after (h.worker i) _ (fun _ hold => .inl hold) rfl⟩
    | some c =>
      obtain ⟨w, hclose, hw⟩ := (h.worker i).scheduleOrSyncClose hfd io p.activeConnsGlobal
      refine ⟨_, _, by rw [ActiveProcess.call, hclose]; rfl, h.after hw _ (fun fd' hold => ?_) ?_⟩
      · obtain ⟨c', hc'⟩ := Option.isSome_iff_exists.mp hold
        exact .inl (by rw [(of_update_none hc').2]; rfl)
      · have hback : Function.update (Function.update (ms i) fd none) fd (some c) = ms i := by
          rw [Function.update_idem, ← hfd, Function.update_eq_self]
        have hlen := hw.length_insert (hback ▸ h.worker i) (Function.update_self fd none (ms i))
        have hpos : (p.workers i).activeFds.length ≤ p.activeConnsGlobal := by
          rw [h.total]
          exact Finset.single_le_sum (f := fun j => (p.workers j).activeFds.length)
            (fun _ _ => Nat.zero_le _) (Finset.mem_univ i)
        rw [activeConnsDec, if_neg (by omega)]
        omega

lemma processInv_init (capHint : Fin n → ℕ) : ProcessInv (ActiveProcess.init capHint) fun _ _ => none where
  worker i :=
    { stored := storeInv_connStoreInit (capHint i)
      linked := nofun
      indexed := indexed_nil
      freeNodup := List.nodup_nil
      freeLt := nofun }
  apart := nofun
  small := nofun
  total := (Finset.sum_const_zero).symm

/-- A stored connection is recorded in the active set. -/
def ActiveWorker.Recorded (w : ActiveWorker) (fd c : ℕ) : Prop :=
  ∃ link idx, w.heap[c]? = some link ∧ link.fd = some fd ∧ link.inActiveSet = true ∧
    link.activeIdx = some idx ∧ w.activeFds[idx]? = some fd

/-- After any calls of `conn_init` and `schedule_or_sync_close` in any workers, on descriptors that are
not in use, `active_fds` lists the stored descriptors of each worker once, every stored connection is
recorded there, the counter is the number of stored connections and is not zero when one of them is
closed, and every further call returns. -/
theorem activeSet_consistent (capHint : Fin n → ℕ) (calls : List (ActiveCall n)) (p : ActiveProcess n)
    (hrun : Run ActiveProcess.step ActiveProcess.allowed (ActiveProcess.init capHint) calls p) :
    (∀ i, (p.workers i).activeFds.Nodup ∧
      (∀ fd, fd ∈ (p.workers i).activeFds ↔ fd ∈ (p.workers i).storedFds) ∧
      ∀ fd c, connStoreGet (p.workers i).store fd = some (some c) → (p.workers i).Recorded fd c) ∧
    p.activeConnsGlobal = ∑ i, (p.workers i).storedFds.ncard ∧
    (∀ i, (p.workers i).storedFds.Nonempty → 0 < p.activeConnsGlobal) ∧
    ∀ call, p.allowed call → (p.call call).isSome = true := by
  obtain ⟨ms, h⟩ : ∃ ms, ProcessInv p ms := by
    refine hrun.invariant (fun _ p => ∃ ms, ProcessInv p ms) ⟨_, processInv_init capHint⟩ ?_
    rintro _ p call ⟨ms, h⟩ hok
    obtain ⟨p', ms', hcall, h'⟩ := h.call hok
    rw [ActiveProcess.step, hcall]
    exact ⟨ms', h'⟩
  have hcount : p.activeConnsGlobal = ∑ i, (p.workers i).storedFds.ncard := by
    rw [h.total]
    exact Finset.sum_congr rfl fun i _ => (h.worker i).storedFds_ncard.symm
  refine ⟨fun i => ⟨(h.worker i).indexed.nodup, fun fd => ?_, fun fd c hget => ?_⟩, hcount, ?_, ?_⟩
  · rw [(h.worker i).mem_iff, (h.worker i).mem_storedFds]
  · have hfd : ms i fd = some c := Option.some.inj (((h.worker i).get fd).symm.trans hget)
    obtain ⟨link, hlink, hof, hin, hrec⟩ := ((h.worker i).linked fd c hfd).link
    obtain ⟨idx, hidx⟩ := Option.isSome_iff_exists.mp hrec
    refine ⟨link, idx, hlink, hof, hin, hidx, ((h.worker i).indexed fd idx).mp ?_⟩
    rw [ActiveWorker.position, hfd, Option.bind_some, hlink, Option.bind_some, hidx]
  · rintro i hsome
    have hfinite : (p.workers i).storedFds.Finite := by
      rw [(h.worker i).storedFds_eq]
      exact Finset.finite_toSet _
    have hpos : 0 < (p.workers i).storedFds.ncard := (Set.ncard_pos hfinite).mpr hsome
    rw [hcount]
    exact hpos.trans_le (Finset.single_le_sum (f := fun i => (p.workers i).storedFds.ncard)
      (fun _ _ => Nat.zero_le _) (Finset.mem_univ i))
  · intro call hok
    obtain ⟨p', ms', hcall, -⟩ := h.call hok
    rw [hcall]
    rfl

/-- Two workers; the first of three connections is closed, so that the last one of its worker moves. -/
def swappingCalls : List (ActiveCall 2) :=
  [.connInit ⟨0, Nat.two_pos⟩ 5 {}, .connInit ⟨1, Nat.one_lt_two⟩ 6 {}, .connInit ⟨0, Nat.two_pos⟩ 7 {},
   .close ⟨0, Nat.two_pos⟩ 5 { abortive := true }]

theorem activeSet_consistent_swap :
    ((swappingCalls.foldl ActiveProcess.step (ActiveProcess.init fun _ => 0)).workers 0).activeFds = [7] ∧
      (swappingCalls.foldl ActiveProcess.step (ActiveProcess.init fun _ => 0)).activeConnsGlobal
        = ∑ i, ((swappingCalls.foldl ActiveProcess.step (ActiveProcess.init fun _ => 0)).workers
            i).storedFds.ncard := by
  refine ⟨by decide +kernel, ?_⟩
  have hallowed : Allowed ActiveProcess.step ActiveProcess.allowed (ActiveProcess.init fun _ : Fin 2 => 0)
      swappingCalls := by
    decide +kernel
  exact (activeSet_consistent _ swappingCalls _ (Run.of_allowed hallowed)).2.1

end Lamseryn
