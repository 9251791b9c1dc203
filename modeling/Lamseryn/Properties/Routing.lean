import Lamseryn.Properties.ConfigLoad

/-!
# Routes of a loaded configuration

Two results about every configuration that `config_load_ini` accepts.

* `resolveRouteRule_selected`: route resolution finds, among the rules the file declares for the
  virtual host, the one with the longest matching prefix and, among equal lengths, the one declared
  first.
* `effectiveCors_safe`: no effective CORS policy allows any origin together with credentials.

The rules a file declares are read off its entries without the parser (`declaredRules`): the route
sections in the order of their first appearance, each with the keys of all its parts in file order.
That the parser arrives at the same routes is `foldl_declareEntry`.
-/

namespace Lamseryn

open ByteText CText

/-! ## Matching -/

/-- A prefix covers a path up to a segment boundary: it is the root, the whole path, ends in a slash,
or is followed by one. -/
def OnSegmentBoundary (path pre : Bytes) : Prop :=
  pre = [47] ∨ path = pre ∨
    ∃ rest, path = pre ++ rest ∧ (pre.getLast? = some 47 ∨ rest.head? = some 47)

lemma policySharedPathPrefixMatches_iff {path pre : Bytes} (hpath : path.head? = some 47)
    (hpre : pre ≠ []) : policySharedPathPrefixMatches path pre = true ↔ OnSegmentBoundary path pre := by
  unfold policySharedPathPrefixMatches OnSegmentBoundary
  rw [if_neg hpre]
  by_cases hroot : pre = [47]
  · simp [hroot, hpath]
  rw [if_neg hroot]
  by_cases his : pre.isPrefixOf path = true
  · obtain ⟨rest, rfl⟩ := List.isPrefixOf_iff_prefix.mp his
    simp only [his, Bool.not_true, Bool.false_eq_true, if_false, List.drop_left, hroot, false_or]
    cases rest with
    | nil => simp
    | cons next rest =>
      simp only [Bool.or_eq_true, beq_iff_eq]
      constructor
      · rintro (hlast | hnext)
        · exact .inr ⟨next :: rest, rfl, .inl hlast⟩
        · exact .inr ⟨next :: rest, rfl, .inr (by simp [hnext])⟩
      · rintro (hwhole | ⟨rest', hsplit, hlast | hnext⟩)
        · simp at hwhole
        · exact .inl hlast
        · rw [← List.append_cancel_left hsplit] at hnext
          exact .inr (by simpa using hnext)
  · have hfalse : pre.isPrefixOf path = false := Bool.eq_false_iff.mpr his
    simp only [hfalse, Bool.not_false, if_true, hroot, false_or, Bool.false_eq_true, false_iff]
    rintro (hwhole | ⟨rest, rfl, -⟩)
    · exact his (List.isPrefixOf_iff_prefix.mpr (hwhole ▸ List.prefix_rfl))
    · exact his (List.isPrefixOf_iff_prefix.mpr (List.prefix_append pre rest))

/-- Which rule a list of declared rules selects for a path: the longest that matches and, among equal
lengths, the first; `none` if nothing matches. -/
def Selected (rules : List RoutePolicyRule) (path : Bytes) : Option RoutePolicyRule → Prop
  | none => ∀ rr ∈ rules, ¬ OnSegmentBoundary path rr.pathPrefix
  | some rr =>
    ∃ before after, rules = before ++ rr :: after ∧ OnSegmentBoundary path rr.pathPrefix ∧
      (∀ r ∈ before, OnSegmentBoundary path r.pathPrefix →
        r.pathPrefix.length < rr.pathPrefix.length) ∧
      ∀ r ∈ after, OnSegmentBoundary path r.pathPrefix → r.pathPrefix.length ≤ rr.pathPrefix.length

/-! ## The routes that a file declares -/

/-- Does an entry belong to the route section `name`? -/
def IniEntry.belongs (name : Bytes) (e : IniEntry) : Bool :=
  e.routeName.any fun n => strcaseEq name n

lemma IniEntry.belongs_of_routeName {e : IniEntry} {m : Bytes} (h : e.routeName = some m)
    (name : Bytes) : e.belongs name = strcaseEq name m := by
  rw [IniEntry.belongs, h]
  rfl

/-- Add the section of an entry to the sections seen so far. -/
def addSection (names : List Bytes) (e : IniEntry) : List Bytes :=
  match e.routeName with
  | none => names
  | some name => if names.any fun n => strcaseEq n name then names else names ++ [name]

/-- The route sections in the order of their first appearance. -/
def declaredNames (es : List IniEntry) : List Bytes :=
  es.foldl addSection []

/-- The routes that a file declares: each section with the keys of all its parts, in file order. -/
def declaredRoutes (es : List IniEntry) : List RouteCfg :=
  (declaredNames es).mapIdx fun i name =>
    (es.filter (IniEntry.belongs name)).foldl RouteCfg.apply (newRoute name i)

/-- The rules that a file declares for a virtual host, in the order of declaration. -/
def declaredRules (es : List IniEntry) (vhost : Bytes) : List RoutePolicyRule :=
  ((declaredRoutes es).filter fun re => strcaseEq vhost re.vhostName).map RouteCfg.rule

lemma RouteCfg.apply_frame (re : RouteCfg) (e : IniEntry) :
    (re.apply e).name = re.name ∧ (re.apply e).declOrdinal = re.declOrdinal := by
  unfold RouteCfg.apply
  split
  · exact ⟨rfl, rfl⟩
  · rename_i key hkey
    split
    · rename_i re1 hset
      cases key <;> simp only [RouteCfg.setKey] at hset <;> split at hset <;> cases hset <;>
        exact ⟨rfl, rfl⟩
    · exact ⟨rfl, rfl⟩

lemma foldl_apply_frame (re : RouteCfg) (es : List IniEntry) :
    (es.foldl RouteCfg.apply re).name = re.name ∧
      (es.foldl RouteCfg.apply re).declOrdinal = re.declOrdinal := by
  induction es generalizing re with
  | nil => exact ⟨rfl, rfl⟩
  | cons e es ih =>
    rw [List.foldl_cons, (ih _).1, (ih _).2]
    exact re.apply_frame e

lemma strcaseEq_trans {a b c : Bytes} (hab : strcaseEq a b = true) (hbc : strcaseEq b c = true) :
    strcaseEq a c = true :=
  strcaseEq_iff.mpr ((strcaseEq_iff.mp hab).trans (strcaseEq_iff.mp hbc))

lemma declaredNames_append (es : List IniEntry) (e : IniEntry) :
    declaredNames (es ++ [e]) = addSection (declaredNames es) e := by
  simp [declaredNames]

lemma declaredNames_distinct (es : List IniEntry) :
    (declaredNames es).Pairwise fun a b => strcaseEq a b = false := by
  induction es using List.reverseRecOn with
  | nil => exact List.Pairwise.nil
  | append_singleton es e ih =>
    rw [declaredNames_append]
    unfold addSection
    split
    · exact ih
    · split
      · exact ih
      · rename_i name _ hnew
        refine List.pairwise_append.mpr ⟨ih, List.pairwise_singleton _ _, ?_⟩
        intro a ha b hb
        rw [List.mem_singleton.mp hb]
        have hall := List.any_eq_false.mp (Bool.eq_false_iff.mpr hnew)
        exact Bool.eq_false_iff.mpr (hall a ha)

lemma exists_declaredName {es : List IniEntry} {e : IniEntry} {name : Bytes} (he : e ∈ es)
    (hname : e.routeName = some name) : ∃ n ∈ declaredNames es, strcaseEq n name = true := by
  induction es using List.reverseRecOn with
  | nil => cases he
  | append_singleton es e1 ih =>
    have hmono : ∀ n ∈ declaredNames es, n ∈ declaredNames (es ++ [e1]) := by
      intro n hn
      rw [declaredNames_append]
      unfold addSection
      split
      · exact hn
      · split
        · exact hn
        · exact List.mem_append_left _ hn
    rcases List.mem_append.mp he with he | he
    · obtain ⟨n, hn, heq⟩ := ih he
      exact ⟨n, hmono n hn, heq⟩
    · rw [List.mem_singleton] at he
      subst he
      rw [declaredNames_append, addSection, hname]
      dsimp only
      split
      · rename_i hany
        obtain ⟨n, hn, heq⟩ := List.any_eq_true.mp hany
        exact ⟨n, hn, heq⟩
      · exact ⟨name, by simp, strcaseEq_self name⟩

lemma declaredRoutes_getElem? (es : List IniEntry) (k : ℕ) :
    (declaredRoutes es)[k]? = ((declaredNames es)[k]?).map fun name =>
      (es.filter (IniEntry.belongs name)).foldl RouteCfg.apply (newRoute name k) := by
  rw [declaredRoutes, List.getElem?_mapIdx]

lemma declaredRoutes_length (es : List IniEntry) :
    (declaredRoutes es).length = (declaredNames es).length := by
  rw [declaredRoutes, List.length_mapIdx]

lemma declaredRoutes_names (es : List IniEntry) :
    (declaredRoutes es).map RouteCfg.name = declaredNames es := by
  apply List.ext_getElem?
  intro k
  rw [List.getElem?_map, declaredRoutes_getElem?]
  cases (declaredNames es)[k]? with
  | none => rfl
  | some name => simp [(foldl_apply_frame _ _).1, newRoute]

lemma foldl_belongs_append (es : List IniEntry) (e : IniEntry) (name : Bytes) (k : ℕ) :
    ((es ++ [e]).filter (IniEntry.belongs name)).foldl RouteCfg.apply (newRoute name k)
      = if e.belongs name then
          ((es.filter (IniEntry.belongs name)).foldl RouteCfg.apply (newRoute name k)).apply e
        else (es.filter (IniEntry.belongs name)).foldl RouteCfg.apply (newRoute name k) := by
  rw [List.filter_append]
  cases hb : e.belongs name <;> simp [hb]

lemma declaredRoutes_append_other (es : List IniEntry) {e : IniEntry} (he : e.routeName = none) :
    declaredRoutes (es ++ [e]) = declaredRoutes es := by
  have hbelongs : ∀ name, e.belongs name = false := by
    intro name
    rw [IniEntry.belongs, he]
    rfl
  apply List.ext_getElem?
  intro k
  rw [declaredRoutes_getElem?, declaredRoutes_getElem?, declaredNames_append, addSection, he]
  simp only [foldl_belongs_append, hbelongs, Bool.false_eq_true, if_false]

/-- A further entry of a section goes to the route of that section. -/
lemma declaredRoutes_append_known (es : List IniEntry) {e : IniEntry} {name : Bytes} {i : ℕ}
    (he : e.routeName = some name)
    (hi : ((declaredNames es).findIdx? fun n => strcaseEq n name) = some i) :
    declaredRoutes (es ++ [e]) = (declaredRoutes es).modify i fun re => re.apply e := by
  obtain ⟨hlt, heq, -⟩ := List.findIdx?_eq_some_iff_getElem.mp hi
  have hany : ((declaredNames es).any fun n => strcaseEq n name) = true :=
    List.any_eq_true.mpr ⟨_, List.getElem_mem hlt, heq⟩
  apply List.ext_getElem?
  intro k
  rw [List.getElem?_modify, declaredRoutes_getElem?, declaredRoutes_getElem?,
    declaredNames_append, addSection, he]
  dsimp only
  rw [if_pos hany]
  cases hk : (declaredNames es)[k]? with
  | none => rfl
  | some n =>
    obtain ⟨hklt, rfl⟩ := List.getElem?_eq_some_iff.mp hk
    simp only [foldl_belongs_append, IniEntry.belongs_of_routeName he, Option.map_some,
      Option.map_eq_map]
    by_cases hik : i = k
    · subst hik
      simp [heq]
    · -- another section has another name
      have hother : strcaseEq (declaredNames es)[k] name = false := by
        apply Bool.eq_false_iff.mpr
        intro hsame
        have hpair := List.pairwise_iff_getElem.mp (declaredNames_distinct es)
        have heq' : strcaseEq name (declaredNames es)[i] = true := by
          rw [strcaseEq_comm]
          exact heq
        rcases Nat.lt_or_gt_of_ne hik with hlt' | hgt
        · have hne := hpair i k hlt hklt hlt'
          rw [strcaseEq_comm, strcaseEq_trans hsame heq'] at hne
          cases hne
        · have hne := hpair k i hklt hlt hgt
          rw [strcaseEq_trans hsame heq'] at hne
          cases hne
      simp [hik, hother]

/-- The first entry of a section declares a route. -/
lemma declaredRoutes_append_new (es : List IniEntry) {e : IniEntry} {name : Bytes}
    (he : e.routeName = some name)
    (hi : ((declaredNames es).findIdx? fun n => strcaseEq n name) = none) :
    declaredRoutes (es ++ [e])
      = declaredRoutes es ++ [(newRoute name (declaredRoutes es).length).apply e] := by
  have hnew : ∀ n ∈ declaredNames es, strcaseEq n name = false :=
    fun n hn => List.findIdx?_eq_none_iff.mp hi n hn
  have hany : ¬ ((declaredNames es).any fun n => strcaseEq n name) = true := by
    rw [Bool.not_eq_true]
    exact List.any_eq_false.mpr fun n hn => by simp [hnew n hn]
  have hnone : es.filter (IniEntry.belongs name) = [] := by
    apply List.filter_eq_nil_iff.mpr
    intro e1 he1 hb
    cases hm : e1.routeName with
    | none => simp [IniEntry.belongs, hm] at hb
    | some m =>
      rw [IniEntry.belongs_of_routeName hm, strcaseEq_comm] at hb
      obtain ⟨n, hn, hnm⟩ := exists_declaredName he1 hm
      have hnn := strcaseEq_trans hnm hb
      rw [hnew n hn] at hnn
      cases hnn
  rw [declaredRoutes_length]
  unfold declaredRoutes
  rw [declaredNames_append, addSection, he]
  dsimp only
  rw [if_neg hany, List.mapIdx_append]
  congr 1
  · apply List.ext_getElem?
    intro k
    rw [List.getElem?_mapIdx, List.getElem?_mapIdx]
    cases hk : (declaredNames es)[k]? with
    | none => rfl
    | some n =>
      have hn := hnew n (List.mem_of_getElem? hk)
      simp [IniEntry.belongs_of_routeName he, hn]
  · simp [IniEntry.belongs_of_routeName he, hnone]

lemma foldl_declareEntry (es : List IniEntry) : es.foldl declareEntry [] = declaredRoutes es := by
  induction es using List.reverseRecOn with
  | nil => rfl
  | append_singleton es e ih =>
    rw [List.foldl_append, ih, List.foldl_cons, List.foldl_nil]
    have hfind : ∀ name, ((declaredRoutes es).findIdx? fun re => strcaseEq re.name name)
        = (declaredNames es).findIdx? fun n => strcaseEq n name := by
      intro name
      rw [← declaredRoutes_names, List.findIdx?_map]
      rfl
    unfold declareEntry
    split
    · rename_i he
      exact (declaredRoutes_append_other es he).symm
    · rename_i name he
      rw [hfind]
      split
      · rename_i i hi
        exact (declaredRoutes_append_known es he hi).symm
      · rename_i hi
        exact (declaredRoutes_append_new es he hi).symm

/-! ## The routes of a virtual host -/

lemma configFindVhostIndexByName_iff {vhosts : List VhostCfg} (hd : DistinctNames vhosts) {v : ℕ}
    {vh : VhostCfg} (hvh : vhosts[v]? = some vh) {name : Bytes} (hname : name ≠ []) :
    configFindVhostIndexByName vhosts name = some v ↔ strcaseEq vh.name name = true := by
  obtain ⟨hlt, rfl⟩ := List.getElem?_eq_some_iff.mp hvh
  rw [configFindVhostIndexByName, if_neg hname, List.findIdx?_eq_some_iff_getElem]
  constructor
  · rintro ⟨_, heq, _⟩
    exact heq
  · intro heq
    refine ⟨hlt, heq, fun j hj hsame => ?_⟩
    have hne := List.pairwise_iff_getElem.mp hd j v (hj.trans hlt) hlt hj
    rw [strcaseEq_comm] at heq
    rw [strcaseEq_trans hsame heq] at hne
    cases hne

lemma ownedRoutes_sorted (vhosts : List VhostCfg) (v i : ℕ) (routes : List RouteCfg) :
    (ownedRoutes vhosts v i routes).Pairwise (· < ·) := by
  have hsub : (ownedRoutes vhosts v i routes).Sublist ((routes.zipIdx i).map Prod.snd) :=
    List.filter_sublist.map Prod.snd
  rw [List.zipIdx_map_snd] at hsub
  exact List.Pairwise.sublist hsub List.pairwise_lt_range'

lemma filterMap_ownedRoutes {vhosts : List VhostCfg} {v : ℕ} {vh : VhostCfg}
    {routes : List RouteCfg} (hd : DistinctNames vhosts) (hvh : vhosts[v]? = some vh)
    (hnamed : ∀ re ∈ routes, re.vhostName ≠ []) :
    (ownedRoutes vhosts v 0 routes).filterMap (fun i => routes[i]?)
      = routes.filter fun re => strcaseEq vh.name re.vhostName := by
  have hfilter : ((routes.zipIdx 0).filter fun p =>
        decide (configFindVhostIndexByName vhosts p.1.vhostName = some v))
      = (routes.zipIdx 0).filter fun p => strcaseEq vh.name p.1.vhostName := by
    apply List.filter_congr
    intro p hp
    have hmem : p.1 ∈ routes := List.mem_of_getElem? (List.mem_zipIdx_iff_getElem?.mp hp)
    have hiff := configFindVhostIndexByName_iff hd hvh (hnamed p.1 hmem)
    by_cases h : strcaseEq vh.name p.1.vhostName = true
    · simp [h, hiff.mpr h]
    · simp [h, mt hiff.mp h]
  rw [ownedRoutes, hfilter, List.filterMap_map]
  have hget : ((routes.zipIdx 0).filter fun p => strcaseEq vh.name p.1.vhostName).filterMap
        ((fun i => routes[i]?) ∘ Prod.snd)
      = ((routes.zipIdx 0).filter fun p => strcaseEq vh.name p.1.vhostName).map Prod.fst := by
    rw [← List.filterMap_eq_map]
    apply List.filterMap_congr
    intro p hp
    exact List.mem_zipIdx_iff_getElem?.mp (List.mem_filter.mp hp).1
  have hfst : (routes.zipIdx 0).map Prod.fst = routes := List.zipIdx_map_fst 0 routes
  conv_rhs => rw [← hfst, List.filter_map]
  exact hget

/-! ## Precedence -/

/-- The rule at a position. -/
def ruleAt (routes : List RouteCfg) (i : ℕ) : RoutePolicyRule :=
  ((routes[i]?).map RouteCfg.rule).getD { pathPrefix := [] }

/-- The order of precedence: a longer prefix first, then the earlier declaration. -/
def precedence (routes : List RouteCfg) (i : ℕ) : ℕᵒᵈ ×ₗ ℕ :=
  toLex (OrderDual.toDual (ruleAt routes i).pathPrefix.length, i)

lemma filterMap_rule {routes : List RouteCfg} {idx : List ℕ} (h : ∀ i ∈ idx, i < routes.length) :
    idx.filterMap (fun i => (routes[i]?).map RouteCfg.rule) = idx.map (ruleAt routes) := by
  rw [← List.filterMap_eq_map]
  apply List.filterMap_congr
  intro i hi
  simp [ruleAt, List.getElem?_eq_getElem (h i hi)]

lemma routeSwap_iff {routes : List RouteCfg}
    (hord : ∀ (i : ℕ) (re : RouteCfg), routes[i]? = some re → re.declOrdinal = i) {a b : ℕ} (ha : a < routes.length)
    (hb : b < routes.length) :
    routeSwap routes a b = true ↔ precedence routes b < precedence routes a := by
  have hra := List.getElem?_eq_getElem ha
  have hrb := List.getElem?_eq_getElem hb
  have hoa := hord a _ hra
  have hob := hord b _ hrb
  rw [precedence, precedence, Prod.Lex.toLex_lt_toLex]
  simp only [routeSwap, ruleAt, hra, hrb, hoa, hob, Option.map_some, Option.getD_some,
    Bool.or_eq_true, Bool.and_eq_true, decide_eq_true_eq, beq_iff_eq, OrderDual.toDual_lt_toDual,
    OrderDual.toDual_inj]
  constructor
  · rintro (h | ⟨heq, h⟩)
    · exact .inl h
    · exact .inr ⟨heq.symm, h⟩
  · rintro (h | ⟨heq, h⟩)
    · exact .inl h
    · exact .inr ⟨heq.symm, h⟩

/-- The first match in the order of precedence is the rule that the declared list selects. -/
lemma selected_find? {routes : List RouteCfg} {owned : List ℕ} {path : Bytes}
    (hord : ∀ (i : ℕ) (re : RouteCfg), routes[i]? = some re → re.declOrdinal = i)
    (howned : ∀ i ∈ owned, i < routes.length) (hsorted : owned.Pairwise (· < ·))
    (hpath : path.head? = some 47) (hpre : ∀ i ∈ owned, (ruleAt routes i).pathPrefix ≠ []) :
    Selected (owned.map (ruleAt routes)) path
      (((sortVhostRouteIndex routes owned).map (ruleAt routes)).find? fun rr =>
        policySharedPathPrefixMatches path rr.pathPrefix) := by
  have hperm : ∀ i, i ∈ sortVhostRouteIndex routes owned ↔ i ∈ owned := fun i =>
    (Precedence.insertionSort_perm (routeSwap routes) owned).mem_iff
  have hrank : (sortVhostRouteIndex routes owned).Pairwise
      fun a b => precedence routes a ≤ precedence routes b := by
    apply Precedence.insertionSort_pairwise
    intro a ha b hb
    exact routeSwap_iff hord (howned a ha) (howned b hb)
  have hmatch : ∀ i ∈ owned,
      policySharedPathPrefixMatches path (ruleAt routes i).pathPrefix = true ↔
        OnSegmentBoundary path (ruleAt routes i).pathPrefix :=
    fun i hi => policySharedPathPrefixMatches_iff hpath (hpre i hi)
  rw [List.find?_map]
  cases hfind : (sortVhostRouteIndex routes owned).find?
      ((fun rr => policySharedPathPrefixMatches path rr.pathPrefix) ∘ ruleAt routes) with
  | none =>
    intro rr hrr hon
    obtain ⟨i, hi, rfl⟩ := List.mem_map.mp hrr
    exact List.find?_eq_none.mp hfind i ((hperm i).mpr hi) ((hmatch i hi).mpr hon)
  | some i =>
    have hi : i ∈ owned := (hperm i).mp (List.mem_of_find?_eq_some hfind)
    have hfound : policySharedPathPrefixMatches path (ruleAt routes i).pathPrefix = true := by
      simpa using List.find?_some hfind
    have hleast := Precedence.rank_le_of_find? (precedence routes) hrank hfind
    have hle : ∀ j ∈ owned, OnSegmentBoundary path (ruleAt routes j).pathPrefix →
        (ruleAt routes j).pathPrefix.length < (ruleAt routes i).pathPrefix.length ∨
          (ruleAt routes j).pathPrefix.length = (ruleAt routes i).pathPrefix.length ∧ i ≤ j := by
      intro j hj hon
      have hij := hleast j ((hperm j).mpr hj) ((hmatch j hj).mpr hon)
      rw [precedence, precedence, Prod.Lex.toLex_le_toLex] at hij
      rcases hij with hlt | ⟨heq, hle⟩
      · exact .inl (OrderDual.toDual_lt_toDual.mp hlt)
      · exact .inr ⟨(OrderDual.toDual_inj.mp heq).symm, hle⟩
    obtain ⟨before, after, rfl⟩ := List.append_of_mem hi
    obtain ⟨-, hafter, hbefore⟩ := List.pairwise_append.mp hsorted
    refine ⟨before.map (ruleAt routes), after.map (ruleAt routes), by simp, ?_, ?_, ?_⟩
    · exact (hmatch i hi).mp hfound
    · intro r hr hon
      obtain ⟨j, hj, rfl⟩ := List.mem_map.mp hr
      have hji := hbefore j hj i List.mem_cons_self
      rcases hle j (List.mem_append_left _ hj) hon with hlt | ⟨-, hij⟩
      · exact hlt
      · omega
    · intro r hr hon
      obtain ⟨j, hj, rfl⟩ := List.mem_map.mp hr
      rcases hle j (List.mem_append_right _ (List.mem_cons_of_mem i hj)) hon with hlt | ⟨heq, -⟩
      · exact hlt.le
      · exact heq.le

/-! ## Loaded configurations -/

lemma name_eq_of_parsed {vh vh1 : VhostCfg} (h : vh1.parsed = vh.parsed) : vh1.name = vh.name := by
  have hname : vh1.parsed.name = vh.parsed.name := by rw [h]
  exact hname

lemma Loaded.vhost {ctx : ConfigParseCtx} {cfg : Config} (h : Loaded ctx cfg) {vh : VhostCfg}
    (hvh : vh ∈ cfg.vhosts) :
    ∃ v vh0, ctx.vhosts[v]? = some vh0 ∧ vh.parsed = vh0.parsed ∧
      vh.routeRules = (triedRoutes ctx v).filterMap fun i => (ctx.routes[i]?).map RouteCfg.rule := by
  obtain ⟨v, hv⟩ := List.mem_iff_getElem?.mp hvh
  obtain ⟨vh0, hvh0, hparsed⟩ := getElem?_parsed h.parsed hv
  refine ⟨v, vh0, hvh0, hparsed, ?_⟩
  have hrules := congrArg (fun l => l[v]?) h.routeRules
  simp only [List.getElem?_map, hv, List.getElem?_mapIdx, hvh0, Option.map_some,
    Option.some_inj] at hrules
  exact hrules

lemma owner_of_tried {ctx : ConfigParseCtx} {v i : ℕ} {re : RouteCfg} (hi : i ∈ triedRoutes ctx v)
    (hre : ctx.routes[i]? = some re) :
    configFindVhostIndexByName ctx.vhosts re.vhostName = some v := by
  have hmem := (Precedence.insertionSort_perm _ _).mem_iff.mp hi
  obtain ⟨p, hp, hpi⟩ := List.mem_map.mp hmem
  obtain ⟨hzip, hv⟩ := List.mem_filter.mp hp
  have hget := List.mem_zipIdx_iff_getElem?.mp hzip
  rw [hpi, hre] at hget
  cases hget
  exact of_decide_eq_true hv

/-- **Longest prefix.**  In every loaded configuration, route resolution returns the rule that the
declarations of the file select. -/
theorem resolveRouteRule_selected {env : LoadEnv} {items : List IniItem} {cfg : Config}
    (h : configLoadIni env (some items) = .ok cfg) {vh : VhostCfg} (hvh : vh ∈ cfg.vhosts)
    {path : Bytes} (hpath : path.head? = some 47) :
    Selected (declaredRules (fileEntries items) vh.name) path
      (policySharedResolveRouteRule vh.routeRules path) := by
  obtain ⟨_, ctx0, ctx, hfile, -, hroutes0, hvhosts0, hrun, hloaded⟩ := configLoadIni_ok h
  cases hfile
  obtain ⟨v, vh0, hvh0, hparsed, hrules⟩ := hloaded.vhost hvh
  have hroutes : ctx.routes = declaredRoutes (fileEntries items) := by
    rw [hrun.routes_eq, hroutes0, foldl_declareEntry]
  have hdistinct : DistinctNames ctx.vhosts := by
    apply hrun.distinctNames
    rw [hvhosts0]
    exact List.Pairwise.nil
  have hord : ∀ (i : ℕ) (re : RouteCfg), ctx.routes[i]? = some re → re.declOrdinal = i := by
    intro i re hre
    rw [hroutes, declaredRoutes_getElem?] at hre
    obtain ⟨name, -, rfl⟩ := Option.map_eq_some_iff.mp hre
    exact (foldl_apply_frame _ _).2
  have howned : ∀ i ∈ ownedRoutes ctx.vhosts v 0 ctx.routes, i < ctx.routes.length :=
    fun i hi => ownedRoutes_lt hi
  have htried : ∀ i ∈ triedRoutes ctx v, i < ctx.routes.length := fun i hi =>
    howned i ((Precedence.insertionSort_perm _ _).mem_iff.mp hi)
  have hnamed : ∀ re ∈ ctx.routes, re.vhostName ≠ [] := by
    intro re hre hempty
    obtain ⟨w, hw⟩ := hloaded.resolvable re hre
    have howner := hw.owner
    rw [configFindVhostIndexByName, if_pos hempty] at howner
    cases howner
  have hpre : ∀ i ∈ ownedRoutes ctx.vhosts v 0 ctx.routes,
      (ruleAt ctx.routes i).pathPrefix ≠ [] := by
    intro i hi hempty
    have hget := List.getElem?_eq_getElem (howned i hi)
    obtain ⟨w, hw⟩ := hloaded.resolvable _ (List.getElem_mem (howned i hi))
    have habs := hw.absolute
    simp only [ruleAt, hget, Option.map_some, Option.getD_some] at hempty
    rw [hempty] at habs
    cases habs
  have hdeclared : declaredRules (fileEntries items) vh.name
      = (ownedRoutes ctx.vhosts v 0 ctx.routes).map (ruleAt ctx.routes) := by
    rw [declaredRules, ← hroutes, name_eq_of_parsed hparsed,
      ← filterMap_ownedRoutes hdistinct hvh0 hnamed, List.map_filterMap, ← filterMap_rule howned]
  have hne : path ≠ [] := by
    rintro rfl
    cases hpath
  rw [hdeclared, hrules, filterMap_rule htried, policySharedResolveRouteRule, if_neg hne]
  exact selected_find? hord howned (ownedRoutes_sorted _ _ _ _) hpath hpre

/-- A system in which every call of the loader succeeds. -/
def plainEnv : LoadEnv where
  isWildcardBind := fun _ => true
  resolveBindHostNumeric := fun host => .ok host
  openDocroot := fun _ => some 3
  authStoreLoad := fun _ => some []

/-- A key of a file, on the line `n + 1`. -/
def fileKey (n : ℕ) (sec name value : String) : IniItem :=
  .entry ⟨n + 1, ascii sec, ascii name, (ascii value).filter (· ≠ 10), n.succ_pos, by simp⟩

/-- Two nested routes, the shorter prefix declared first, and before their virtual host. -/
def nestedRoutes : List IniItem :=
  [fileKey 1 "route outer" "vhost" "site",
   fileKey 2 "route outer" "path_prefix" "/x",
   fileKey 5 "route inner" "vhost" "SITE",
   fileKey 6 "route inner" "path_prefix" "/x/y",
   fileKey 9 "vhost site" "cors" "on"]

/-- The virtual host of `nestedRoutes` after loading. -/
def nestedVhost : VhostCfg :=
  { newVhost {} (ascii "site") with
    features := { cors := true }
    cors := some { enabled := true, enabledSet := true }
    routeRules := [{ pathPrefix := ascii "/x/y" }, { pathPrefix := ascii "/x" }] }

lemma nestedRoutes_loaded :
    configLoadIni plainEnv (some nestedRoutes) = .ok
      { vhosts := [nestedVhost]
        routeRules := [{ pathPrefix := ascii "/x" }, { pathPrefix := ascii "/x/y" }] } := by
  decide

theorem resolveRouteRule_selected_nested :
    policySharedResolveRouteRule nestedVhost.routeRules (ascii "/x/y/z")
        = some { pathPrefix := ascii "/x/y" } ∧
      Selected (declaredRules (fileEntries nestedRoutes) nestedVhost.name) (ascii "/x/y/z")
        (policySharedResolveRouteRule nestedVhost.routeRules (ascii "/x/y/z")) :=
  ⟨by decide,
    resolveRouteRule_selected nestedRoutes_loaded List.mem_cons_self (by decide)⟩

/-- **CORS safety.**  In every loaded configuration, no effective policy is enabled for any origin
together with credentials: neither the policy of a virtual host nor its overlay by one of the rules
of that host. -/
theorem effectiveCors_safe {env : LoadEnv} {file : Option (List IniItem)} {cfg : Config}
    (h : configLoadIni env file = .ok cfg) {vh : VhostCfg} (hvh : vh ∈ cfg.vhosts)
    {rr : Option RoutePolicyRule} (hrr : ∀ r ∈ rr, r ∈ vh.routeRules) :
    ¬ ((policySharedResolveEffectiveCorsForRoute vh.toVhost rr).enabled = true ∧
      (policySharedResolveEffectiveCorsForRoute vh.toVhost rr).allowCredentials = true ∧
      (policySharedResolveEffectiveCorsForRoute vh.toVhost rr).allowOrigin = ascii "*") := by
  obtain ⟨items, ctx0, ctx, -, -, hroutes0, hvhosts0, hrun, hloaded⟩ := configLoadIni_ok h
  obtain ⟨v, vh0, hvh0, hparsed, hrules⟩ := hloaded.vhost hvh
  have hsafe : (policySharedResolveEffectiveCorsForRoute vh.toVhost rr).isUnsafe = false := by
    cases rr with
    | none =>
      rw [policySharedResolveEffectiveCorsForRoute, cors_eq_of_parsed hparsed]
      exact hloaded.safe vh0 (List.mem_of_getElem? hvh0)
    | some r =>
      have hr := hrr r rfl
      rw [hrules] at hr
      obtain ⟨i, hi, hri⟩ := List.mem_filterMap.mp hr
      obtain ⟨re, hre, rfl⟩ := Option.map_eq_some_iff.mp hri
      -- the owner found at load time is the virtual host of the request
      have howner := owner_of_tried hi hre
      obtain ⟨w, hw, -, vh1, hvh1, hok⟩ := hloaded.resolvable re (List.mem_of_getElem? hre)
      rw [howner] at hw
      cases hw
      rw [hvh0] at hvh1
      cases hvh1
      simpa only [policySharedResolveEffectiveCorsForRoute, cors_eq_of_parsed hparsed] using hok
  rintro ⟨henabled, hcred, horigin⟩
  simp [CorsPolicy.isUnsafe, henabled, hcred, horigin] at hsafe

theorem effectiveCors_safe_nested :
    ¬ ((policySharedResolveEffectiveCorsForRoute nestedVhost.toVhost
          (some { pathPrefix := ascii "/x" })).enabled = true ∧
      (policySharedResolveEffectiveCorsForRoute nestedVhost.toVhost
          (some { pathPrefix := ascii "/x" })).allowCredentials = true ∧
      (policySharedResolveEffectiveCorsForRoute nestedVhost.toVhost
          (some { pathPrefix := ascii "/x" })).allowOrigin = ascii "*") :=
  effectiveCors_safe nestedRoutes_loaded List.mem_cons_self (by simp [nestedVhost])

end Lamseryn
