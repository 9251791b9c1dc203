import Lamseryn.Model.ConfigIni

/-!
# What a successful load guarantees

The consequences of `configLoadIni env file = .ok cfg` that the properties of loaded configurations
start from.

A parse without an error is a `ParseRun`: every call of the handler returned 1.  One step of it is
described once, separately for the routes and for the virtual hosts (`onKv_routes`, `onKv_vhosts`).
From this follow the invariant rules `ParseRun.routes_rule` and `ParseRun.vhosts_rule`: a property
that a fresh record has and that every accepted key keeps holds of every record.  The stages after
parsing change a virtual host only in the fields listed in `Finished`.
-/

namespace Lamseryn

open ByteText CText

/-! ## Lists of records -/

lemma modify_of_getElem? {α : Type*} {l : List α} {i : ℕ} {a : α} (h : l[i]? = some a)
    (f : α → α) : l.modify i f = l.set i (f a) := by
  rw [List.modify_eq_set_getElem?, h]
  rfl

lemma modify_append_last {α : Type*} (l : List α) (a : α) (f : α → α) :
    (l ++ [a]).modify l.length f = l ++ [f a] := by
  have hget : (l ++ [a])[l.length]? = some a := by simp
  rw [modify_of_getElem? hget]
  simp

section Checks

variable {ε α β : Type}

lemma mapM_eq_ok {f : α → Except ε β} {l : List α} {l' : List β} (h : l.mapM f = .ok l') :
    List.Forall₂ (fun a b => f a = .ok b) l l' := by
  induction l generalizing l' with
  | nil =>
    rw [List.mapM_nil] at h
    cases h
    exact .nil
  | cons a l ih =>
    rw [List.mapM_cons] at h
    cases ha : f a with
    | error e =>
      rw [ha] at h
      cases h
    | ok b =>
      cases hl : l.mapM f with
      | error e =>
        rw [ha, hl] at h
        cases h
      | ok bs =>
        rw [ha, hl] at h
        cases h
        exact .cons ha (ih hl)

lemma forM_eq_ok {f : α → Except ε Unit} {l : List α} {u : Unit} (h : l.forM f = .ok u) :
    ∀ a ∈ l, f a = .ok () := by
  induction l with
  | nil => simp
  | cons a l ih =>
    rw [show (a :: l).forM f = (f a >>= fun _ => l.forM f) from rfl] at h
    cases ha : f a with
    | error e =>
      rw [ha] at h
      cases h
    | ok v =>
      rw [ha] at h
      intro b hb
      rcases List.mem_cons.mp hb with rfl | hb
      · exact ha
      · exact ih h b hb

end Checks

/-! ## Parsing without an error -/

/-- A sequence of handler calls that all returned 1. -/
inductive ParseRun : ConfigParseCtx → List IniEntry → ConfigParseCtx → Prop
  | nil (ctx : ConfigParseCtx) : ParseRun ctx [] ctx
  | cons {ctx ctx1 ctx2 : ConfigParseCtx} {e : IniEntry} {es : List IniEntry}
      (h : onKv ctx e.sec e.name e.value = (ctx1, true)) (rest : ParseRun ctx1 es ctx2) :
      ParseRun ctx (e :: es) ctx2

/-- The entries of a file. -/
def fileEntries (items : List IniItem) : List IniEntry :=
  items.filterMap fun
    | .entry e => some e
    | .malformed _ _ => none

lemma iniParse_of_rc {rc : ℕ} (hrc : rc ≠ 0) (ctx : ConfigParseCtx) (items : List IniItem) :
    (iniParse ctx rc items).2 = rc := by
  induction items generalizing ctx with
  | nil => simp only [iniParse]
  | cons item items ih =>
    cases item with
    | malformed line hline => simpa only [iniParse, if_neg hrc] using ih ctx
    | entry e =>
      rcases hstep : onKv ctx e.sec e.name e.value with ⟨ctx1, ok⟩
      cases ok <;> simpa only [iniParse, hstep, if_neg hrc] using ih ctx1

lemma ParseRun.of_iniParse {ctx ctx' : ConfigParseCtx} {items : List IniItem}
    (h : iniParse ctx 0 items = (ctx', 0)) : ParseRun ctx (fileEntries items) ctx' := by
  induction items generalizing ctx with
  | nil =>
    simp only [iniParse, Prod.mk.injEq, and_true] at h
    subst h
    exact .nil ctx
  | cons item items ih =>
    cases item with
    | malformed line hline =>
      have hrc := iniParse_of_rc (Nat.pos_iff_ne_zero.mp hline) ctx items
      simp only [iniParse, if_pos] at h
      rw [h] at hrc
      omega
    | entry e =>
      rcases hstep : onKv ctx e.sec e.name e.value with ⟨ctx1, ok⟩
      cases ok with
      | false =>
        have hrc := iniParse_of_rc (Nat.pos_iff_ne_zero.mp e.line_pos) ctx1 items
        simp only [iniParse, hstep, if_pos] at h
        rw [h] at hrc
        have := e.line_pos
        omega
      | true =>
        simp only [iniParse, hstep] at h
        exact .cons hstep (ih h)

/-! ## One call of the handler: routes -/

/-- The route that an entry belongs to. -/
def IniEntry.routeName (e : IniEntry) : Option Bytes :=
  match sectionName (ascii "route") e.sec with
  | some (.ok name) => some name
  | _ => none

/-- What an entry of its section does to a route. -/
def RouteCfg.apply (re : RouteCfg) (e : IniEntry) : RouteCfg :=
  match keyOf routeKeys e.name with
  | none => re
  | some key =>
    match re.setKey key e.value with
    | .accepted re => re
    | _ => re

/-- A route as its section starts it. -/
def newRoute (name : Bytes) (ordinal : ℕ) : RouteCfg :=
  { name := name, declOrdinal := ordinal }

/-- What an entry does to the list of routes. -/
def declareEntry (routes : List RouteCfg) (e : IniEntry) : List RouteCfg :=
  match e.routeName with
  | none => routes
  | some name =>
    match routes.findIdx? fun re => strcaseEq re.name name with
    | some i => routes.modify i fun re => re.apply e
    | none => routes ++ [(newRoute name routes.length).apply e]

lemma ConfigParseCtx.alloc_frame (ctx : ConfigParseCtx) :
    ∃ allocs, ctx.alloc.2 = { ctx with allocs := allocs } := by
  unfold ConfigParseCtx.alloc
  split
  · exact ⟨ctx.allocs, rfl⟩
  · exact ⟨_, rfl⟩

lemma ensureRouteCapacity_frame (ctx : ConfigParseCtx) (need : ℕ) :
    ∃ cap allocs, (ensureRouteCapacity ctx need).2
      = { ctx with routeCap := cap, allocs := allocs } := by
  unfold ensureRouteCapacity
  split
  · exact ⟨ctx.routeCap, ctx.allocs, rfl⟩
  · dsimp only
    generalize min (growRouteCap 6 (if 0 < ctx.routeCap then ctx.routeCap else 8) need)
      cfgMaxRoutes = newCap
    split
    · exact ⟨ctx.routeCap, ctx.allocs, rfl⟩
    · obtain ⟨allocs1, h1⟩ := ctx.alloc_frame
      obtain ⟨allocs2, h2⟩ := ctx.alloc.2.alloc_frame
      split
      · exact ⟨_, allocs2, by rw [h2, h1]⟩
      · exact ⟨ctx.routeCap, allocs2, by rw [h2, h1]⟩

/-- What `ensure_route` did when it found or entered a route. -/
lemma ensureRoute_some {ctx ctx1 : ConfigParseCtx} {sec : Bytes} {i : ℕ}
    (h : ensureRoute ctx sec = (some i, ctx1)) :
    ∃ name cap allocs, sectionName (ascii "route") sec = some (.ok name) ∧
      ((ctx.routes.findIdx? (fun re => strcaseEq re.name name) = some i ∧ ctx1 = ctx) ∨
        (ctx.routes.findIdx? (fun re => strcaseEq re.name name) = none ∧ i = ctx.routes.length ∧
          ctx1 =
            { ctx with
              routeCap := cap
              allocs := allocs
              routes := ctx.routes ++ [newRoute name ctx.routes.length] })) := by
  unfold ensureRoute at h
  split at h
  · cases h
  · cases h
  · rename_i name hname
    split at h
    · rename_i j hj
      cases h
      exact ⟨name, 0, [], hname, .inl ⟨hj, rfl⟩⟩
    · rename_i hnone
      split at h
      · cases h
      · obtain ⟨cap, allocs, hframe⟩ := ensureRouteCapacity_frame ctx (ctx.routes.length + 1)
        split at h
        · cases h
        · rename_i ctx2 hcap
          rw [hcap] at hframe
          subst hframe
          cases h
          exact ⟨name, cap, allocs, hname, .inr ⟨hnone, rfl, rfl⟩⟩

/-- `ensure_route` without a result and without a failure: the section is of another kind. -/
lemma ensureRoute_none {ctx ctx1 : ConfigParseCtx} {sec : Bytes}
    (h : ensureRoute ctx sec = (none, ctx1)) (hfatal : ctx1.iniFatal = false) :
    sectionName (ascii "route") sec = none ∧ ctx1 = ctx := by
  unfold ensureRoute at h
  split at h
  · rename_i hname
    cases h
    exact ⟨hname, rfl⟩
  · cases h
    cases hfatal
  · split at h
    · cases h
    · split at h
      · cases h
        cases hfatal
      · split at h
        · cases h
          cases hfatal
        · cases h

/-- A key of a route changes that route only. -/
lemma onRouteKv_ok {ctx ctx1 : ConfigParseCtx} {i : ℕ} {e : IniEntry}
    (h : onRouteKv ctx i e.name e.value = (ctx1, true)) :
    ctx1 = { ctx with routes := ctx.routes.modify i fun re => re.apply e } := by
  unfold onRouteKv at h
  split at h
  · rename_i re key hre hkey
    rw [modify_of_getElem? hre]
    cases hset : re.setKey key e.value with
    | accepted re1 =>
      rw [hset] at h
      cases h
      simp only [RouteCfg.apply, hkey, hset]
    | refused =>
      rw [hset] at h
      cases h
    | fatal reason =>
      rw [hset] at h
      cases h
  · rename_i hno
    cases h
    have hsame : ctx.routes.modify i (fun re => re.apply e) = ctx.routes := by
      cases hre : ctx.routes[i]? with
      | none => exact List.modify_eq_self (by simpa using hre)
      | some re =>
        have hkey : keyOf routeKeys e.name = none := by
          cases hkey : keyOf routeKeys e.name with
          | none => rfl
          | some key => exact absurd hkey (hno re key hre)
        have happly : re.apply e = re := by simp only [RouteCfg.apply, hkey]
        obtain ⟨hlt, rfl⟩ := List.getElem?_eq_some_iff.mp hre
        rw [modify_of_getElem? hre, happly, List.set_getElem_self]
    rw [hsame]

/-- A section of the kind `globals` names no route. -/
lemma sectionName_globals {sec : Bytes} (h : strcaseEq sec (ascii "globals") = true) :
    sectionName (ascii "route") sec = none := by
  have hlower : lower sec = lower (ascii "globals") := strcaseEq_iff.mp h
  have hneq : strncaseEq 5 sec (ascii "route") = false := by
    unfold strncaseEq
    rw [lower_take, hlower]
    decide
  unfold sectionName
  rw [hneq]
  rfl

/-! ## One call of the handler: virtual hosts -/

lemma sectionName_fits {kind sec name : Bytes} (h : sectionName kind sec = some (.ok name)) :
    name ≠ [] ∧ name.length < sectionNameMax := by
  unfold sectionName at h
  dsimp only at h
  generalize hp : (sec.drop 5).dropWhile (fun b => b == 32 || b == 58 || b == 46) = p at h
  have hname : (if p = [] then ascii "default" else p) ≠ [] := by
    split
    · decide
    · assumption
  generalize (if p = [] then ascii "default" else p) = given at h hname
  split at h
  · cases h
  · split at h
    · cases h
    · split at h
      · cases h
      · split at h
        · cases h
        · rename_i hlen
          cases h
          exact ⟨hname, Nat.lt_of_not_le hlen⟩

/-- `ensure_vhost` may enter a virtual host of a new name. -/
def EnterVhost (vhosts vhosts1 : List VhostCfg) : Prop :=
  vhosts1 = vhosts ∨
    ∃ g name, (name ≠ [] ∧ name.length < sectionNameMax) ∧ vhosts.length < cfgMaxVhosts ∧
      (∀ vh ∈ vhosts, strcaseEq vh.name name = false) ∧ vhosts1 = vhosts ++ [newVhost g name]

/-- A key may change one virtual host. -/
def KeyVhost (value : Bytes) (vhosts vhosts1 : List VhostCfg) : Prop :=
  vhosts1 = vhosts ∨
    ∃ i vh ok key vh1, vhosts[i]? = some vh ∧ vh.setKey ok key value = .accepted vh1 ∧
      vhosts1 = vhosts.set i vh1

lemma ensureVhost_some {ctx ctx1 : ConfigParseCtx} {sec : Bytes} {i : ℕ}
    (h : ensureVhost ctx sec = (some i, ctx1)) :
    ctx1 = { ctx with vhosts := ctx1.vhosts } ∧ EnterVhost ctx.vhosts ctx1.vhosts := by
  unfold ensureVhost at h
  split at h
  · cases h
  · cases h
  · rename_i name hname
    split at h
    · cases h
      exact ⟨rfl, .inl rfl⟩
    · rename_i hnone
      split at h
      · cases h
      · rename_i hroom
        cases h
        refine ⟨rfl, .inr ⟨ctx.g, name, sectionName_fits hname, Nat.lt_of_not_le hroom, ?_, rfl⟩⟩
        intro vh hvh
        exact Bool.eq_false_iff.mpr (List.findIdx?_eq_none_iff.mp hnone vh hvh ▸ Bool.false_ne_true)

lemma ensureVhost_none {ctx ctx1 : ConfigParseCtx} {sec : Bytes}
    (h : ensureVhost ctx sec = (none, ctx1)) (hfatal : ctx1.iniFatal = false) : ctx1 = ctx := by
  unfold ensureVhost at h
  split at h
  · cases h
    rfl
  · cases h
    cases hfatal
  · split at h
    · cases h
    · split at h
      · cases h
        cases hfatal
      · cases h

lemma onVhostKv_ok {ctx ctx1 : ConfigParseCtx} {i : ℕ} {name value : Bytes}
    (h : onVhostKv ctx i name value = (ctx1, true)) :
    ctx1 = { ctx with vhosts := ctx1.vhosts, allocs := ctx1.allocs } ∧
      KeyVhost value ctx.vhosts ctx1.vhosts := by
  unfold onVhostKv at h
  split at h
  · rename_i vh key hvh hkey
    obtain ⟨allocs, halloc⟩ : ∃ allocs,
        (if vh.needsAlloc key value then ctx.alloc else (true, ctx)).2
          = { ctx with allocs := allocs } := by
      split
      · exact ctx.alloc_frame
      · exact ⟨ctx.allocs, rfl⟩
    generalize (if vh.needsAlloc key value then ctx.alloc else (true, ctx)) = out at h halloc
    obtain ⟨ok, ctx2⟩ := out
    cases halloc
    dsimp only at h
    cases hset : vh.setKey ok key value with
    | accepted vh1 =>
      rw [hset] at h
      cases h
      exact ⟨rfl, .inr ⟨i, vh, ok, key, vh1, hvh, hset, rfl⟩⟩
    | refused =>
      rw [hset] at h
      cases h
    | fatal reason =>
      rw [hset] at h
      cases h
  · cases h
    exact ⟨rfl, .inl rfl⟩

/-! ## Global keys -/

/-- What an accepted global entry does to the globals. -/
def GlobalsCfg.apply (g : GlobalsCfg) (e : IniEntry) : GlobalsCfg :=
  match keyOf globalKeys e.name with
  | none => g
  | some key => g.set key e.value

/-- What an accepted entry does to the globals. -/
def declareGlobal (g : GlobalsCfg) (e : IniEntry) : GlobalsCfg :=
  if strcaseEq e.sec (ascii "globals") then g.apply e else g

lemma setKey_accepted {g g1 : GlobalsCfg} {e : IniEntry}
    (h : g.setKey e.name e.value = .accepted g1) : g.apply e = g1 := by
  unfold GlobalsCfg.setKey at h
  unfold GlobalsCfg.apply keyOf
  split at h
  · rename_i hnone
    cases h
    rw [hnone]
    rfl
  · rename_i text key hkey
    rw [hkey]
    split at h
    · cases h
      rfl
    · cases h
  · rename_i text key _ hkey
    cases h
    rw [hkey]
    rfl

/-! ## One call of the handler -/

/-- What a successful call of the handler does. -/
lemma onKv_ok {ctx ctx1 : ConfigParseCtx} {e : IniEntry}
    (h : onKv ctx e.sec e.name e.value = (ctx1, true)) :
    ctx1.routes = declareEntry ctx.routes e ∧ ctx1.g = declareGlobal ctx.g e ∧
      ∃ vhosts, EnterVhost ctx.vhosts vhosts ∧ KeyVhost e.value vhosts ctx1.vhosts := by
  unfold onKv at h
  split at h
  · cases h
  · rename_i hfatal
    split at h
    · rename_i hglobals
      have hroute : e.routeName = none := by
        simp only [IniEntry.routeName, sectionName_globals hglobals]
      cases hset : ctx.g.setKey e.name e.value with
      | accepted g =>
        rw [hset] at h
        cases h
        have happly : g = declareGlobal ctx.g e := by
          rw [declareGlobal, if_pos hglobals, setKey_accepted hset]
        exact ⟨by simp only [declareEntry, hroute], happly, _, .inl rfl, .inl rfl⟩
      | refused =>
        rw [hset] at h
        cases h
      | fatal reason =>
        rw [hset] at h
        cases h
    · rename_i hglobals
      have hkept : ctx.g = declareGlobal ctx.g e := by rw [declareGlobal, if_neg hglobals]
      split at h
      · rename_i i ctx2 hensure
        obtain ⟨name, cap, allocs, hname, hcase⟩ := ensureRoute_some hensure
        have hroute : e.routeName = some name := by simp only [IniEntry.routeName, hname]
        have hctx1 := onRouteKv_ok h
        subst hctx1
        rcases hcase with ⟨hidx, rfl⟩ | ⟨hidx, rfl, rfl⟩
        · exact ⟨by simp only [declareEntry, hroute, hidx], hkept, _, .inl rfl, .inl rfl⟩
        · refine ⟨?_, hkept, _, .inl rfl, .inl rfl⟩
          simp only [declareEntry, hroute, hidx, modify_append_last]
      · rename_i ctx2 hensure
        split at h
        · cases h
        · rename_i hfatal2
          obtain ⟨hname, rfl⟩ := ensureRoute_none hensure (by simpa using hfatal2)
          have hroute : e.routeName = none := by simp only [IniEntry.routeName, hname]
          split at h
          · rename_i i ctx3 hvhost
            obtain ⟨hsame, henter⟩ := ensureVhost_some hvhost
            obtain ⟨hsame1, hkey⟩ := onVhostKv_ok h
            refine ⟨?_, ?_, ctx3.vhosts, henter, hkey⟩
            · rw [hsame1, hsame]
              simp only [declareEntry, hroute]
            · rw [hsame1, hsame]
              exact hkept
          · rename_i ctx3 hvhost
            obtain ⟨rfl, hok⟩ := Prod.mk.inj h
            have hsame := ensureVhost_none hvhost (by simpa using hok)
            subst hsame
            exact ⟨by simp only [declareEntry, hroute], hkept, _, .inl rfl, .inl rfl⟩

/-! ## Invariant rules for parsing -/

lemma ParseRun.routes_eq {ctx ctx1 : ConfigParseCtx} {es : List IniEntry} (h : ParseRun ctx es ctx1) :
    ctx1.routes = es.foldl declareEntry ctx.routes := by
  induction h with
  | nil ctx => rfl
  | cons hstep _ ih => rw [ih, (onKv_ok hstep).1, List.foldl_cons]

lemma ParseRun.globals_eq {ctx ctx1 : ConfigParseCtx} {es : List IniEntry}
    (h : ParseRun ctx es ctx1) : ctx1.g = es.foldl declareGlobal ctx.g := by
  induction h with
  | nil ctx => rfl
  | cons hstep _ ih => rw [ih, (onKv_ok hstep).2.1, List.foldl_cons]

lemma declareEntry_rule {P : RouteCfg → Prop} {routes : List RouteCfg} {e : IniEntry}
    (hnew : ∀ name n, P (newRoute name n)) (hkey : ∀ re, P re → P (re.apply e))
    (h : ∀ re ∈ routes, P re) : ∀ re ∈ declareEntry routes e, P re := by
  unfold declareEntry
  split
  · exact h
  · split
    · rename_i i hi
      intro re hre
      obtain ⟨hlt, -⟩ := List.findIdx?_eq_some_iff_getElem.mp hi
      rw [modify_of_getElem? (List.getElem?_eq_getElem hlt)] at hre
      rcases List.mem_or_eq_of_mem_set hre with hre | rfl
      · exact h re hre
      · exact hkey _ (h _ (List.getElem_mem hlt))
    · intro re hre
      rcases List.mem_append.mp hre with hre | hre
      · exact h re hre
      · rw [List.mem_singleton.mp hre]
        exact hkey _ (hnew _ _)

lemma ParseRun.routes_rule {P : RouteCfg → Prop} {ctx ctx1 : ConfigParseCtx} {es : List IniEntry}
    (hrun : ParseRun ctx es ctx1) (hnew : ∀ name n, P (newRoute name n))
    (hkey : ∀ re e, P re → P (RouteCfg.apply re e)) (h : ∀ re ∈ ctx.routes, P re) :
    ∀ re ∈ ctx1.routes, P re := by
  induction hrun with
  | nil ctx => exact h
  | cons hstep _ ih =>
    apply ih
    rw [(onKv_ok hstep).1]
    exact declareEntry_rule hnew (fun re => hkey re _) h

/-- A property of fresh virtual hosts that every accepted key keeps holds of every virtual host. -/
lemma ParseRun.vhosts_rule {P : VhostCfg → Prop} {ctx ctx1 : ConfigParseCtx} {es : List IniEntry}
    (hrun : ParseRun ctx es ctx1) (hnew : ∀ g name, P (newVhost g name))
    (hkey : ∀ vh ok key value vh1, 10 ∉ value → VhostCfg.setKey vh ok key value = .accepted vh1 →
      P vh → P vh1)
    (h : ∀ vh ∈ ctx.vhosts, P vh) : ∀ vh ∈ ctx1.vhosts, P vh := by
  induction hrun with
  | nil ctx => exact h
  | @cons ctx ctx1 _ e _ hstep _ ih =>
    apply ih
    obtain ⟨-, -, vhosts, henter, hchange⟩ := onKv_ok hstep
    have hvhosts : ∀ vh ∈ vhosts, P vh := by
      rcases henter with rfl | ⟨g, name, -, -, -, rfl⟩
      · exact h
      · intro vh hvh
        rcases List.mem_append.mp hvh with hvh | hvh
        · exact h vh hvh
        · rw [List.mem_singleton.mp hvh]
          exact hnew g name
    rcases hchange with hsame | ⟨i, vh, ok, key, vh1, hget, hset, hsame⟩
    · rwa [hsame]
    · intro vh2 hvh2
      rw [hsame] at hvh2
      rcases List.mem_or_eq_of_mem_set hvh2 with hmem | rfl
      · exact hvhosts vh2 hmem
      · exact hkey vh ok key _ _ e.one_line hset (hvhosts vh (List.mem_of_getElem? hget))

/-- Two states of a virtual host with the same name and the same policies. -/
structure VhostCfg.SamePolicy (vh vh1 : VhostCfg) : Prop where
  name : vh1.name = vh.name
  cors : vh1.cors = vh.cors
  securityHeaders : vh1.securityHeaders = vh.securityHeaders
  customHeaders : vh1.customHeaders = vh.customHeaders
  featureCors : vh1.features.cors = vh.features.cors

lemma VhostCfg.SamePolicy.refl (vh : VhostCfg) : vh.SamePolicy vh :=
  ⟨rfl, rfl, rfl, rfl, rfl⟩

/-- The keys that set a policy, and the others. -/
lemma VhostCfg.setKey_cases {vh vh1 : VhostCfg} {ok : Bool} {key : VhostKey} {value : Bytes}
    (h : vh.setKey ok key value = .accepted vh1) :
    (∃ k, vh1 = vh.setSecurity k value) ∨ (∃ k, vh1 = vh.setCors k value) ∨
      (headerSetAccepts vh.toVhost value = true ∧
        vh1 = { vh with customHeaders := vh.customHeaders ++ [value ++ ascii "\r\n"] }) ∨
      vh.SamePolicy vh1 := by
  cases key with
  | security k =>
    simp only [VhostCfg.setKey] at h
    split at h
    · cases h
      exact .inl ⟨k, rfl⟩
    · cases h
  | cors k =>
    simp only [VhostCfg.setKey] at h
    split at h
    · cases h
      exact .inr (.inl ⟨k, rfl⟩)
    · cases h
  | headerSet =>
    simp only [VhostCfg.setKey] at h
    split at h
    · rename_i hok
      cases h
      exact .inr (.inr (.inl ⟨((Bool.and_eq_true _ _).mp hok).1, rfl⟩))
    · cases h
      exact .inr (.inr (.inr (.refl vh)))
  | feature k =>
    refine .inr (.inr (.inr ?_))
    simp only [VhostCfg.setKey] at h
    split at h
    · cases h
      exact .refl vh
    · cases h
      cases k <;> exact ⟨rfl, rfl, rfl, rfl, rfl⟩
  | compDynamicEffort =>
    refine .inr (.inr (.inr ?_))
    simp only [VhostCfg.setKey, VhostCfg.setCompEffort] at h
    cases h
    split
    · exact .refl vh
    · split
      · exact .refl vh
      · exact ⟨rfl, rfl, rfl, rfl, rfl⟩
  | _ =>
    refine .inr (.inr (.inr ?_))
    simp only [VhostCfg.setKey] at h
    first
    | cases h
      exact ⟨rfl, rfl, rfl, rfl, rfl⟩
    | split at h <;> cases h <;> exact ⟨rfl, rfl, rfl, rfl, rfl⟩

lemma VhostCfg.setKey_name {vh vh1 : VhostCfg} {ok : Bool} {key : VhostKey} {value : Bytes}
    (h : vh.setKey ok key value = .accepted vh1) : vh1.name = vh.name := by
  rcases VhostCfg.setKey_cases h with ⟨k, rfl⟩ | ⟨k, rfl⟩ | ⟨-, rfl⟩ | hsame
  · rfl
  · unfold VhostCfg.setCors
    dsimp only
    split <;> rfl
  · rfl
  · exact hsame.name

lemma KeyVhost.names {value : Bytes} {vhosts vhosts1 : List VhostCfg} (h : KeyVhost value vhosts vhosts1) :
    vhosts1.map VhostCfg.name = vhosts.map VhostCfg.name := by
  rcases h with rfl | ⟨i, vh, ok, key, vh1, hget, hset, rfl⟩
  · rfl
  · obtain ⟨hlt, rfl⟩ := List.getElem?_eq_some_iff.mp hget
    have hlt' : i < (vhosts.map VhostCfg.name).length := hlt.trans_eq (List.length_map _).symm
    have hname : vh1.name = (vhosts.map VhostCfg.name)[i] := by
      rw [List.getElem_map, VhostCfg.setKey_name hset]
    rw [List.map_set, hname, List.set_getElem_self]

/-- No two virtual hosts have the same name up to case. -/
def DistinctNames (vhosts : List VhostCfg) : Prop :=
  vhosts.Pairwise fun a b => strcaseEq a.name b.name = false

lemma ParseRun.distinctNames {ctx ctx1 : ConfigParseCtx} {es : List IniEntry}
    (hrun : ParseRun ctx es ctx1) (h : DistinctNames ctx.vhosts) : DistinctNames ctx1.vhosts := by
  induction hrun with
  | nil ctx => exact h
  | cons hstep _ ih =>
    apply ih
    obtain ⟨-, -, vhosts, henter, hchange⟩ := onKv_ok hstep
    have hvhosts : DistinctNames vhosts := by
      rcases henter with rfl | ⟨g, name, -, -, hfresh, rfl⟩
      · exact h
      · refine List.pairwise_append.mpr ⟨h, List.pairwise_singleton _ _, ?_⟩
        intro a ha b hb
        rw [List.mem_singleton.mp hb]
        exact hfresh a ha
    -- only names matter, and the names are those from before
    have hpair : (vhosts.map VhostCfg.name).Pairwise fun a b => strcaseEq a b = false :=
      List.pairwise_map.mpr hvhosts
    rw [← hchange.names] at hpair
    exact List.pairwise_map.mp hpair

lemma ParseRun.names_fit {ctx ctx1 : ConfigParseCtx} {es : List IniEntry} (hrun : ParseRun ctx es ctx1)
    (hcount : ctx.vhosts.length ≤ cfgMaxVhosts)
    (h : ∀ name ∈ ctx.vhosts.map VhostCfg.name, name ≠ [] ∧ name.length < sectionNameMax) :
    ctx1.vhosts.length ≤ cfgMaxVhosts ∧
      ∀ name ∈ ctx1.vhosts.map VhostCfg.name, name ≠ [] ∧ name.length < sectionNameMax := by
  induction hrun with
  | nil ctx => exact ⟨hcount, h⟩
  | cons hstep _ ih =>
    obtain ⟨-, -, vhosts, henter, hchange⟩ := onKv_ok hstep
    have hnames := hchange.names
    have hlen := congrArg List.length hnames
    rw [List.length_map, List.length_map] at hlen
    apply ih
    · rcases henter with rfl | ⟨g, name, -, hroom, -, rfl⟩
      · rwa [hlen]
      · rw [hlen, List.length_append]
        exact hroom
    · rw [hnames]
      rcases henter with rfl | ⟨g, name, hfits, -, -, rfl⟩
      · exact h
      · intro name' hmem
        rw [List.map_append, List.mem_append] at hmem
        rcases hmem with hmem | hmem
        · exact h name' hmem
        · rw [List.mem_singleton.mp hmem]
          exact hfits

/-! ## Resolving the routes -/

/-- The part of a virtual host that only the parser sets. -/
def VhostCfg.parsed (vh : VhostCfg) : VhostCfg :=
  { vh with
    bind := []
    docrootFd := -1
    features := { vh.features with auth := false, cors := false }
    authStore := none
    routeRules := [] }

/-- The routes of the virtual host at position `v`, among those from position `i` on. -/
def ownedRoutes (vhosts : List VhostCfg) (v i : ℕ) (routes : List RouteCfg) : List ℕ :=
  ((routes.zipIdx i).filter fun p =>
    decide (configFindVhostIndexByName vhosts p.1.vhostName = some v)).map Prod.snd

lemma ownedRoutes_cons (vhosts : List VhostCfg) (v i : ℕ) (re : RouteCfg) (rest : List RouteCfg) :
    ownedRoutes vhosts v i (re :: rest)
      = (if configFindVhostIndexByName vhosts re.vhostName = some v then [i] else [])
        ++ ownedRoutes vhosts v (i + 1) rest := by
  unfold ownedRoutes
  rw [List.zipIdx_cons, List.filter_cons]
  split <;> rename_i h
  · rw [if_pos (by simpa using h)]
    rfl
  · rw [if_neg (by simpa using h)]
    rfl

/-- What is asked of a route before it is entered. -/
structure Resolvable (vhosts : List VhostCfg) (re : RouteCfg) (v : ℕ) : Prop where
  owner : configFindVhostIndexByName vhosts re.vhostName = some v
  absolute : re.rule.pathPrefix.head? = some 47
  safe : ∃ vh, vhosts[v]? = some vh ∧
    (policySharedResolveEffectiveCorsForRoute vh.toVhost (some re.rule)).isUnsafe = false

lemma resolveRoute_ok {st st1 : RouteResolution} {i : ℕ} {src : RouteCfg}
    (h : resolveRoute st i src = .ok st1) :
    ∃ v, Resolvable st.vhosts src v ∧ st1 = st.enter v i src.rule := by
  unfold resolveRoute at h
  dsimp only at h
  split at h
  · cases h
  · split at h
    · cases h
    · split at h
      · cases h
      · rename_i hhead
        split at h
        · cases h
        · rename_i v hv
          split at h
          · rename_i vh idx hvh hidx
            split at h
            · cases h
            · split at h
              · cases h
              · rename_i hsafe
                cases h
                exact ⟨v, ⟨hv, not_not.mp hhead, vh, hvh, by simpa using hsafe⟩, rfl⟩
          · cases h

lemma configFindVhostIndexByName_congr {vhosts vhosts1 : List VhostCfg}
    (h : vhosts1.map VhostCfg.parsed = vhosts.map VhostCfg.parsed) (name : Bytes) :
    configFindVhostIndexByName vhosts1 name = configFindVhostIndexByName vhosts name := by
  have hmap : ∀ l : List VhostCfg, (l.findIdx? fun vh => strcaseEq vh.name name)
      = (l.map VhostCfg.parsed).findIdx? fun vh => strcaseEq vh.name name := by
    intro l
    rw [List.findIdx?_map]
    rfl
  unfold configFindVhostIndexByName
  rw [hmap vhosts1, hmap vhosts, h]

lemma getElem?_parsed {vhosts vhosts1 : List VhostCfg}
    (h : vhosts1.map VhostCfg.parsed = vhosts.map VhostCfg.parsed) {v : ℕ} {vh1 : VhostCfg}
    (hget : vhosts1[v]? = some vh1) : ∃ vh, vhosts[v]? = some vh ∧ vh1.parsed = vh.parsed := by
  have hparsed : (vhosts.map VhostCfg.parsed)[v]? = some vh1.parsed := by
    rw [← h, List.getElem?_map, hget]
    rfl
  rw [List.getElem?_map] at hparsed
  obtain ⟨vh, hvh, heq⟩ := Option.map_eq_some_iff.mp hparsed
  exact ⟨vh, hvh, heq.symm⟩

lemma cors_eq_of_parsed {vh vh1 : VhostCfg} (h : vh1.parsed = vh.parsed) : vh1.cors = vh.cors := by
  have hcors : vh1.parsed.cors = vh.parsed.cors := by rw [h]
  exact hcors

lemma ownedRoutes_congr {vhosts vhosts1 : List VhostCfg}
    (h : vhosts1.map VhostCfg.parsed = vhosts.map VhostCfg.parsed) (v i : ℕ)
    (routes : List RouteCfg) : ownedRoutes vhosts1 v i routes = ownedRoutes vhosts v i routes := by
  unfold ownedRoutes
  simp only [configFindVhostIndexByName_congr h]

lemma Resolvable.congr {vhosts vhosts1 : List VhostCfg}
    (h : vhosts1.map VhostCfg.parsed = vhosts.map VhostCfg.parsed) {re : RouteCfg} {v : ℕ}
    (hre : Resolvable vhosts1 re v) : Resolvable vhosts re v := by
  obtain ⟨howner, habs, vh1, hget, hsafe⟩ := hre
  obtain ⟨vh, hvh, hparsed⟩ := getElem?_parsed h hget
  refine ⟨(configFindVhostIndexByName_congr h _).symm.trans howner, habs, vh, hvh, ?_⟩
  simpa only [policySharedResolveEffectiveCorsForRoute, cors_eq_of_parsed hparsed] using hsafe

lemma RouteResolution.enter_parsed (st : RouteResolution) (v i : ℕ) (rr : RoutePolicyRule) :
    (st.enter v i rr).vhosts.map VhostCfg.parsed = st.vhosts.map VhostCfg.parsed := by
  apply List.ext_getElem?
  intro k
  simp only [RouteResolution.enter, List.getElem?_map, List.getElem?_modify]
  cases st.vhosts[k]? with
  | none => rfl
  | some vh =>
    by_cases hk : v = k
    · simp [hk, VhostCfg.parsed]
    · simp [hk]

/-- The bit that the first loop of `config_resolve_routes` does not touch. -/
def corsFeature (vh : VhostCfg) : Bool :=
  vh.features.cors

lemma RouteResolution.enter_corsFeature (st : RouteResolution) (v i : ℕ) (rr : RoutePolicyRule) :
    (st.enter v i rr).vhosts.map corsFeature = st.vhosts.map corsFeature := by
  apply List.ext_getElem?
  intro k
  simp only [RouteResolution.enter, List.getElem?_map, List.getElem?_modify]
  cases st.vhosts[k]? with
  | none => rfl
  | some vh =>
    by_cases hk : v = k
    · simp [hk, corsFeature]
    · simp [hk]

/-- Does the virtual host at position `v` own a route with a CORS policy? -/
def ownsCorsRoute (vhosts : List VhostCfg) (v : ℕ) (routes : List RouteCfg) : Bool :=
  routes.any fun re =>
    decide (configFindVhostIndexByName vhosts re.vhostName = some v) && routeHasCorsPolicy re.rule

lemma ownsCorsRoute_congr {vhosts vhosts1 : List VhostCfg}
    (h : vhosts1.map VhostCfg.parsed = vhosts.map VhostCfg.parsed) (v : ℕ)
    (routes : List RouteCfg) : ownsCorsRoute vhosts1 v routes = ownsCorsRoute vhosts v routes := by
  unfold ownsCorsRoute
  simp only [configFindVhostIndexByName_congr h]

/-- What the first loop of `config_resolve_routes` has done when it ends: every route is
resolvable, and the index of a virtual host holds the positions of its routes. -/
lemma resolveRoutesFrom_ok {st st1 : RouteResolution} {i : ℕ} {routes : List RouteCfg}
    (h : resolveRoutesFrom st i routes = .ok st1) :
    st1.vhosts.map VhostCfg.parsed = st.vhosts.map VhostCfg.parsed ∧
      st1.vhosts.map corsFeature = st.vhosts.map corsFeature ∧
      (∀ re ∈ routes, ∃ v, Resolvable st.vhosts re v) ∧
      st1.index = st.index.mapIdx fun v idx =>
        { routeIndices := idx.routeIndices ++ ownedRoutes st.vhosts v i routes
          hasCors := idx.hasCors || ownsCorsRoute st.vhosts v routes } := by
  induction routes generalizing st i with
  | nil =>
    simp only [resolveRoutesFrom] at h
    cases h
    refine ⟨rfl, rfl, by simp, List.ext_getElem? fun k => ?_⟩
    simp [ownedRoutes, ownsCorsRoute]
  | cons src rest ih =>
    simp only [resolveRoutesFrom] at h
    cases hstep : resolveRoute st i src with
    | error e =>
      rw [hstep] at h
      cases h
    | ok st2 =>
      rw [hstep] at h
      obtain ⟨v, hsrc, rfl⟩ := resolveRoute_ok hstep
      obtain ⟨hparsed, hcors, hrest, hindex⟩ := ih h
      have henter := st.enter_parsed v i src.rule
      refine ⟨hparsed.trans henter, hcors.trans (st.enter_corsFeature v i src.rule), ?_, ?_⟩
      · intro re hre
        rcases List.mem_cons.mp hre with rfl | hre
        · exact ⟨v, hsrc⟩
        · obtain ⟨w, hw⟩ := hrest re hre
          exact ⟨w, hw.congr henter⟩
      · rw [hindex]
        apply List.ext_getElem?
        intro k
        simp only [List.getElem?_mapIdx, ownedRoutes_congr henter, ownsCorsRoute_congr henter,
          ownedRoutes_cons, hsrc.owner, Option.some_inj]
        simp only [RouteResolution.enter, List.getElem?_modify]
        cases st.index[k]? with
        | none => rfl
        | some idx =>
          by_cases hk : v = k
          · simp [hk, ownsCorsRoute, hsrc.owner, Bool.or_assoc]
          · simp [hk, ownsCorsRoute, hsrc.owner]

/-- The route list that the last loop gives to each virtual host. -/
def candidateOf (routes : List RouteCfg) (p : VhostCfg × VhostRouteIndex) : CandidateVhost :=
  { vhost := { p.1 with features := { p.1.features with cors := p.1.features.cors || p.2.hasCors } }
    routeRefs := sortVhostRouteIndex routes p.2.routeIndices }

lemma assignRoutes_ok {routes : List RouteCfg} {allocs allocs1 : List Bool}
    {pairs : List (VhostCfg × VhostRouteIndex)} {outs : List CandidateVhost}
    (h : assignRoutes routes allocs pairs = .ok (outs, allocs1)) :
    outs = pairs.map (candidateOf routes) := by
  induction pairs generalizing allocs outs with
  | nil =>
    simp only [assignRoutes] at h
    cases h
    rfl
  | cons p rest ih =>
    obtain ⟨vh, idx⟩ := p
    simp only [assignRoutes] at h
    generalize (if idx.routeIndices = [] then (true, allocs)
      else (allocs.headD true, allocs.tail)) = a at h
    split at h
    · cases h
    · split at h
      · cases h
      · rename_i outs1 allocs2 hrest
        cases h
        rw [List.map_cons, ← ih hrest]
        rfl

/-- The routes of the virtual host at position `v`, in the order in which they are tried. -/
def triedRoutes (ctx : ConfigParseCtx) (v : ℕ) : List ℕ :=
  sortVhostRouteIndex ctx.routes (ownedRoutes ctx.vhosts v 0 ctx.routes)

/-- What `config_resolve_routes` has done when it succeeds. -/
lemma configResolveRoutes_ok {ctx : ConfigParseCtx} {outs : List CandidateVhost}
    (h : configResolveRoutes ctx = .ok outs) :
    outs.map (fun c => c.vhost.parsed) = ctx.vhosts.map VhostCfg.parsed ∧
      (∀ re ∈ ctx.routes, ∃ v, Resolvable ctx.vhosts re v) ∧
      outs.map CandidateVhost.routeRefs = (ctx.vhosts.mapIdx fun v _ => triedRoutes ctx v) ∧
      outs.map (fun c => corsFeature c.vhost)
        = ctx.vhosts.mapIdx fun v vh => corsFeature vh || ownsCorsRoute ctx.vhosts v ctx.routes := by
  unfold configResolveRoutes at h
  obtain ⟨allocs1, h1⟩ := ctx.alloc_frame
  dsimp only at h
  split at h
  · cases h
  · obtain ⟨allocs2, h2⟩ : ∃ allocs,
        (if ctx.alloc.2.routes = [] then (true, ctx.alloc.2) else ctx.alloc.2.alloc).2
          = { ctx with allocs := allocs } := by
      split
      · exact ⟨allocs1, h1⟩
      · obtain ⟨allocs2, h2⟩ := ctx.alloc.2.alloc_frame
        exact ⟨allocs2, by rw [h2, h1]⟩
    generalize (if ctx.alloc.2.routes = [] then (true, ctx.alloc.2) else ctx.alloc.2.alloc) = out
      at h h2
    rw [h2] at h
    split at h
    · cases h
    · split at h
      · cases h
      · rename_i st hst
        obtain ⟨hparsed, hcors, hres, hindex⟩ := resolveRoutesFrom_ok hst
        split at h
        · cases h
        · rename_i outs1 allocs3 hassign
          cases h
          have houts := assignRoutes_ok hassign
          dsimp only at hparsed hcors hres hindex houts
          have hlenV : st.vhosts.length = ctx.vhosts.length := by
            simpa using congrArg List.length hparsed
          have hlenI : st.index.length = ctx.vhosts.length := by
            simpa using congrArg List.length hindex
          have hfst : (st.vhosts.zip st.index).map Prod.fst = st.vhosts :=
            List.map_fst_zip (by omega)
          have hsnd : (st.vhosts.zip st.index).map Prod.snd = st.index :=
            List.map_snd_zip (by omega)
          refine ⟨?_, hres, ?_, ?_⟩
          · rw [houts, List.map_map, ← hparsed]
            conv_rhs => rw [← hfst, List.map_map]
            rfl
          · have hrefs : outs.map CandidateVhost.routeRefs
                = (st.index.map VhostRouteIndex.routeIndices).map
                    (sortVhostRouteIndex ctx.routes) := by
              rw [houts, List.map_map]
              conv_rhs => rw [← hsnd, List.map_map, List.map_map]
              rfl
            rw [hrefs, hindex]
            apply List.ext_getElem?
            intro k
            simp only [List.getElem?_map, List.getElem?_mapIdx]
            cases ctx.vhosts[k]? <;> simp [triedRoutes]
          · apply List.ext_getElem?
            intro k
            have hcorsk := congrArg (fun l => l[k]?) hcors
            have hindexk := congrArg (fun l => l[k]?) hindex
            simp only [List.getElem?_map, List.getElem?_mapIdx] at hcorsk hindexk
            rw [houts, List.getElem?_map, List.getElem?_map, List.getElem?_mapIdx]
            cases hv : ctx.vhosts[k]? with
            | none =>
              have hk : ctx.vhosts.length ≤ k := List.getElem?_eq_none_iff.mp hv
              rw [List.getElem?_eq_none (by simpa [hlenV, hlenI] using hk)]
              rfl
            | some vh =>
              rw [hv] at hcorsk hindexk
              obtain ⟨vh1, hvh1, hcf⟩ := Option.map_eq_some_iff.mp hcorsk
              have hzip : (st.vhosts.zip st.index)[k]? = some
                  (vh1, ⟨ownedRoutes ctx.vhosts k 0 ctx.routes,
                    ownsCorsRoute ctx.vhosts k ctx.routes⟩) := by
                rw [List.getElem?_zip_eq_some]
                exact ⟨hvh1, hindexk⟩
              rw [hzip, Option.map_some, Option.map_some, Option.map_some, ← hcf]
              rfl

/-! ## The whole load -/

lemma normalizeVhostBind_parsed {env : LoadEnv} {vh vh1 : VhostCfg}
    (h : normalizeVhostBind env vh = .ok vh1) : vh1.parsed = vh.parsed := by
  unfold normalizeVhostBind at h
  split at h
  · cases h
    rfl
  · split at h
    · cases h
    · cases h
      rfl

lemma normalizeVhostBind_corsFeature {env : LoadEnv} {vh vh1 : VhostCfg}
    (h : normalizeVhostBind env vh = .ok vh1) : corsFeature vh1 = corsFeature vh := by
  unfold normalizeVhostBind at h
  split at h
  · cases h
    rfl
  · split at h
    · cases h
    · cases h
      rfl

lemma openVhost_ok {env : LoadEnv} {cand cand1 : CandidateVhost}
    (h : openVhost env cand = .ok cand1) :
    cand1.vhost.parsed = cand.vhost.parsed ∧ cand1.routeRefs = cand.routeRefs ∧
      corsFeature cand1.vhost = corsFeature cand.vhost := by
  unfold openVhost at h
  dsimp only at h
  split at h
  · cases h
    exact ⟨rfl, rfl, rfl⟩
  · split at h
    · cases h
    · cases h
      exact ⟨rfl, rfl, rfl⟩

lemma map_eq_of_forall₂ {α β γ : Type*} {R : α → β → Prop} {f : α → γ} {g : β → γ} {l : List α}
    {l' : List β} (h : List.Forall₂ R l l') (hfg : ∀ a b, R a b → g b = f a) :
    l'.map g = l.map f := by
  induction h with
  | nil => rfl
  | cons hab _ ih => rw [List.map_cons, List.map_cons, hfg _ _ hab, ih]

lemma ownedRoutes_lt {vhosts : List VhostCfg} {v k : ℕ} {routes : List RouteCfg}
    (h : k ∈ ownedRoutes vhosts v 0 routes) : k < routes.length := by
  obtain ⟨p, hp, rfl⟩ := List.mem_map.mp h
  have hmem := (List.mem_filter.mp hp).1
  have := List.snd_lt_of_mem_zipIdx hmem
  omega

lemma ownedRoutes_length_le (vhosts : List VhostCfg) (v : ℕ) (routes : List RouteCfg) :
    (ownedRoutes vhosts v 0 routes).length ≤ routes.length := by
  rw [ownedRoutes, List.length_map]
  exact (List.length_filter_le _ _).trans (by rw [List.length_zipIdx])

/-- The reference of a route is a position in the rule array, so no list is cut and no pointer lost. -/
lemma derefRules_triedRoutes (ctx : ConfigParseCtx) (v : ℕ) :
    derefRules (ctx.routes.map RouteCfg.rule)
        ((triedRoutes ctx v).take (ctx.routes.map RouteCfg.rule).length)
      = (triedRoutes ctx v).filterMap fun i => (ctx.routes[i]?).map RouteCfg.rule := by
  have hperm := Precedence.insertionSort_perm (routeSwap ctx.routes)
    (ownedRoutes ctx.vhosts v 0 ctx.routes)
  have hlen : (triedRoutes ctx v).length ≤ ctx.routes.length :=
    hperm.length_eq.trans_le (ownedRoutes_length_le _ _ _)
  rw [List.take_of_length_le (by simpa using hlen), derefRules]
  simp only [List.getElem?_map]

/-- What a successful load has made of the parsed configuration. -/
structure Loaded (ctx : ConfigParseCtx) (cfg : Config) : Prop where
  globals : cfg.g = ctx.g
  /-- The stages after parsing keep what the parser set. -/
  parsed : cfg.vhosts.map VhostCfg.parsed = ctx.vhosts.map VhostCfg.parsed
  /-- No virtual host has the refused combination by itself. -/
  safe : ∀ vh ∈ ctx.vhosts, (vh.cors.getD {}).isUnsafe = false
  /-- Every route has an owner, and is safe over the policy of its owner. -/
  resolvable : ∀ re ∈ ctx.routes, ∃ v, Resolvable ctx.vhosts re v
  /-- The rule list of a virtual host is the list of its routes in the order of precedence. -/
  routeRules : cfg.vhosts.map (fun vh => vh.routeRules)
    = ctx.vhosts.mapIdx fun v _ =>
        (triedRoutes ctx v).filterMap fun i => (ctx.routes[i]?).map RouteCfg.rule
  /-- The CORS headers of a request are captured if any policy of the virtual host uses them. -/
  corsFeature : cfg.vhosts.map corsFeature
    = ctx.vhosts.mapIdx fun v vh => corsFeature vh || ownsCorsRoute ctx.vhosts v ctx.routes

lemma checkVhost_ok {g : GlobalsCfg} {vh : VhostCfg} (h : checkVhost g vh = .ok ()) :
    (vh.cors.getD {}).isUnsafe = false := by
  unfold checkVhost at h
  extract_lets tls cert key at h
  split at h
  · cases h
  · split at h
    · cases h
    · rename_i hsafe
      simpa using hsafe

lemma finishLoad_ok {env : LoadEnv} {ctx : ConfigParseCtx} {cfg : Config}
    (h : finishLoad env ctx = .ok cfg) : Loaded ctx cfg := by
  unfold finishLoad at h
  split at h
  · cases h
  · rename_i vhosts hnorm
    split at h
    · cases h
    · rename_i u hcheck
      split at h
      · cases h
      · rename_i cands hresolve
        split at h
        · cases h
        · rename_i cands1 hopen
          dsimp only at h
          split at h
          · cases h
          · cases h
            have hbinds : vhosts.map VhostCfg.parsed = ctx.vhosts.map VhostCfg.parsed :=
              map_eq_of_forall₂ (mapM_eq_ok hnorm) fun _ _ => normalizeVhostBind_parsed
            have hopens := mapM_eq_ok hopen
            have hopenV : cands1.map (fun c => c.vhost.parsed) = cands.map fun c => c.vhost.parsed :=
              map_eq_of_forall₂ hopens fun _ _ hab => (openVhost_ok hab).1
            have hopenR : cands1.map CandidateVhost.routeRefs
                = cands.map CandidateVhost.routeRefs :=
              map_eq_of_forall₂ hopens fun _ _ hab => (openVhost_ok hab).2.1
            obtain ⟨hparsed, hres, hrefs, hfeature⟩ := configResolveRoutes_ok hresolve
            dsimp only at hparsed hres hrefs hfeature
            have htried : ∀ v, triedRoutes { ctx with vhosts := vhosts } v = triedRoutes ctx v := by
              intro v
              unfold triedRoutes
              rw [ownedRoutes_congr hbinds]
            refine ⟨rfl, ?_, ?_, ?_, ?_, ?_⟩
            · rw [List.map_map, ← hbinds, ← hparsed, ← hopenV]
              rfl
            · intro vh hvh
              obtain ⟨k, hk⟩ := List.mem_iff_getElem?.mp hvh
              obtain ⟨vh1, hvh1, hp⟩ := getElem?_parsed hbinds.symm hk
              rw [cors_eq_of_parsed hp]
              exact checkVhost_ok (forM_eq_ok hcheck vh1 (List.mem_of_getElem? hvh1))
            · intro re hre
              obtain ⟨v, hv⟩ := hres re hre
              exact ⟨v, hv.congr hbinds⟩
            · have hrules : (cands1.map (rebindVhostRouteRulePtrsAfterCommit
                  (ctx.routes.map RouteCfg.rule))).map (fun vh => vh.routeRules)
                  = (cands1.map CandidateVhost.routeRefs).map fun refs =>
                      derefRules (ctx.routes.map RouteCfg.rule)
                        (refs.take (ctx.routes.map RouteCfg.rule).length) := by
                rw [List.map_map, List.map_map]
                rfl
              have hlen : vhosts.length = ctx.vhosts.length := by
                simpa using congrArg List.length hbinds
              rw [hrules, hopenR, hrefs]
              apply List.ext_getElem?
              intro k
              simp only [List.getElem?_map, List.getElem?_mapIdx, htried, Option.map_map]
              have hsome : ∀ (x : List RoutePolicyRule) (l : List VhostCfg),
                  (l[k]?).map (fun _ => x) = if k < l.length then some x else none := by
                intro x l
                by_cases hk : k < l.length
                · simp [hk]
                · simp [hk]
              rw [hsome, ← hlen, ← hsome _ vhosts, ← derefRules_triedRoutes]
              rfl
            · have hbindsC : vhosts.map corsFeature = ctx.vhosts.map corsFeature :=
                map_eq_of_forall₂ (mapM_eq_ok hnorm) fun _ _ => normalizeVhostBind_corsFeature
              have hopenC : cands1.map (fun c => corsFeature c.vhost)
                  = cands.map fun c => corsFeature c.vhost :=
                map_eq_of_forall₂ hopens fun _ _ hab => (openVhost_ok hab).2.2
              have hcommit : (cands1.map (rebindVhostRouteRulePtrsAfterCommit
                  (ctx.routes.map RouteCfg.rule))).map corsFeature
                  = cands1.map fun c => corsFeature c.vhost := by
                rw [List.map_map]
                rfl
              rw [hcommit, hopenC, hfeature]
              apply List.ext_getElem?
              intro k
              have hk := congrArg (fun l => l[k]?) hbindsC
              simp only [List.getElem?_map] at hk
              simp only [List.getElem?_mapIdx, ownsCorsRoute_congr hbinds]
              cases hv : vhosts[k]? <;> cases hc : ctx.vhosts[k]? <;> simp_all

/-- A successful load is a parse without an error, followed by the stages of `Loaded`. -/
theorem configLoadIni_ok {env : LoadEnv} {file : Option (List IniItem)} {cfg : Config}
    (h : configLoadIni env file = .ok cfg) :
    ∃ items ctx0 ctx, file = some items ∧ ctx0.g = {} ∧ ctx0.routes = [] ∧ ctx0.vhosts = [] ∧
      ParseRun ctx0 (fileEntries items) ctx ∧ Loaded ctx cfg := by
  unfold configLoadIni at h
  obtain ⟨allocs1, h1⟩ := ({ allocs := env.allocs } : ConfigParseCtx).alloc_frame
  dsimp only at h
  split at h
  · cases h
  · obtain ⟨allocs2, h2⟩ := ({ allocs := env.allocs } : ConfigParseCtx).alloc.2.alloc_frame
    split at h
    · cases h
    · split at h
      · cases h
      · rename_i items
        split at h
        · cases h
        · rename_i hrc
          rw [h2, h1] at h hrc
          generalize hparse : iniParse _ 0 items = out at h hrc
          obtain ⟨ctx, rc⟩ := out
          have hrc0 : rc = 0 := by
            by_contra hne
            exact hrc (.inr hne)
          subst hrc0
          refine ⟨items, _, ctx, rfl, ?_, ?_, ?_, ParseRun.of_iniParse hparse, ?_⟩
          · rfl
          · rfl
          · rfl
          · cases hfin : finishLoad env ctx with
            | error e =>
              rw [hfin] at h
              cases h
            | ok cfg1 =>
              rw [hfin] at h
              cases h
              exact finishLoad_ok hfin

/-- In a loaded configuration there is room for the virtual hosts, and their names fit and are distinct
up to case. -/
lemma loaded_names {env : LoadEnv} {file : Option (List IniItem)} {cfg : Config}
    (h : configLoadIni env file = .ok cfg) :
    cfg.vhosts.length ≤ cfgMaxVhosts ∧ DistinctNames cfg.vhosts ∧
      ∀ vh ∈ cfg.vhosts, vh.name ≠ [] ∧ vh.name.length < sectionNameMax := by
  obtain ⟨items, ctx0, ctx, -, -, -, hvhosts0, hrun, hloaded⟩ := configLoadIni_ok h
  have hnames : cfg.vhosts.map VhostCfg.name = ctx.vhosts.map VhostCfg.name := by
    have := congrArg (List.map VhostCfg.name) hloaded.parsed
    rwa [List.map_map, List.map_map] at this
  have hlen := congrArg List.length hnames
  rw [List.length_map, List.length_map] at hlen
  have hdistinct : DistinctNames ctx.vhosts := hrun.distinctNames (by rw [hvhosts0]; exact .nil)
  obtain ⟨hcount, hfits⟩ := hrun.names_fit (by rw [hvhosts0]; exact Nat.zero_le _)
    (by rw [hvhosts0]; exact nofun)
  refine ⟨hlen.trans_le hcount, ?_, fun vh hvh => ?_⟩
  · have hpair : (ctx.vhosts.map VhostCfg.name).Pairwise fun a b => strcaseEq a b = false :=
      List.pairwise_map.mpr hdistinct
    rw [← hnames] at hpair
    exact List.pairwise_map.mp hpair
  · exact hfits vh.name (hnames ▸ List.mem_map_of_mem hvh)

end Lamseryn
