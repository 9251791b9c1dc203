import Lamseryn.Model.TlsContexts
import Lamseryn.Properties.Routing

/-!
# Reloading the TLS contexts

`TlsInv cfg rt` says that the registry is, up to its order, the list of the virtual hosts with their
contexts (`expectedEntries`), and that these are the contexts that have not been freed.  A build appends
to the registry (`buildContexts_spec`), and freeing takes away what it was given (`freeContexts_spec`); so
a failed reload is left with the entries it found, and a successful one with the new ones.  The order of
the registry does not matter to a lookup, since the names are distinct (`tlsSniFindCtx_perm`).
-/

namespace Lamseryn

open ByteText CText SwapRemove

variable {malloc : List ℕ → ℕ} {g : GlobalsCfg} {vhosts : List VhostCfg} {s : TlsState} {ctx : ℕ}

/-! ## Entries -/

/-- The entry of a virtual host with a context. -/
def sniEntryOf (vh : VhostCfg) (ctx : ℕ) : SniEntry :=
  ⟨vh.name, vh.port, ctx⟩

/-- The entries of the virtual hosts that have a context. -/
def expectedEntries : List VhostCfg → List (Option ℕ) → List SniEntry
  | vh :: vhosts, some ctx :: handles => sniEntryOf vh ctx :: expectedEntries vhosts handles
  | _ :: vhosts, none :: handles => expectedEntries vhosts handles
  | _, _ => []

/-- Exactly the virtual hosts with TLS have a context. -/
def Carries (g : GlobalsCfg) : List VhostCfg → List (Option ℕ) → Prop :=
  List.Forall₂ fun vh handle => handle.isSome = tlsVhostEffectiveEnabled g vh

lemma expectedEntries_sslCtx : ∀ (vhosts : List VhostCfg) (handles : List (Option ℕ)),
    handles.length = vhosts.length →
      (expectedEntries vhosts handles).map SniEntry.sslCtx = handles.reduceOption
  | [], [], _ => rfl
  | vh :: vhosts, none :: handles, h => by
    rw [List.reduceOption_cons_of_none]
    exact expectedEntries_sslCtx vhosts handles (Nat.succ.inj h)
  | vh :: vhosts, some ctx :: handles, h => by
    rw [List.reduceOption_cons_of_some]
    exact congrArg (ctx :: ·) (expectedEntries_sslCtx vhosts handles (Nat.succ.inj h))

lemma expectedEntries_none : ∀ (vhosts others : List VhostCfg),
    expectedEntries vhosts (others.map fun _ => none) = []
  | [], _ => by unfold expectedEntries; rfl
  | _ :: _, [] => rfl
  | _ :: vhosts, _ :: others => expectedEntries_none vhosts others

lemma reduceOption_none (l : List VhostCfg) : (l.map fun _ => (none : Option ℕ)).reduceOption = [] := by
  induction l with
  | nil => rfl
  | cons _ _ ih => exact ih

lemma exists_of_mem_expectedEntries : ∀ {vhosts : List VhostCfg} {handles : List (Option ℕ)} {e : SniEntry},
    e ∈ expectedEntries vhosts handles → ∃ vh ∈ vhosts, e.serverName = vh.name
  | [], _, _, h => by cases h
  | _ :: _, [], _, h => by cases h
  | vh :: vhosts, none :: handles, e, h => by
    have hrest : e ∈ expectedEntries vhosts handles := h
    obtain ⟨vh', hmem, hname⟩ := exists_of_mem_expectedEntries hrest
    exact ⟨vh', List.mem_cons_of_mem _ hmem, hname⟩
  | vh :: vhosts, some ctx :: handles, e, h => by
    rcases List.mem_cons.mp h with rfl | h
    · exact ⟨vh, List.mem_cons_self, rfl⟩
    · obtain ⟨vh', hmem, hname⟩ := exists_of_mem_expectedEntries h
      exact ⟨vh', List.mem_cons_of_mem _ hmem, hname⟩

lemma mem_expectedEntries : ∀ {vhosts : List VhostCfg} {handles : List (Option ℕ)} {i : ℕ} {vh : VhostCfg},
    vhosts[i]? = some vh → handles[i]? = some (some ctx) →
      sniEntryOf vh ctx ∈ expectedEntries vhosts handles
  | [], _, _, _, hvh, _ => by cases hvh
  | _ :: _, [], _, _, _, hhandle => by cases hhandle
  | vh :: vhosts, handle :: handles, 0, _, hvh, hhandle => by
    cases hvh
    cases hhandle
    exact List.mem_cons_self
  | vh :: vhosts, none :: handles, i + 1, vh', hvh, hhandle => by
    show sniEntryOf vh' ctx ∈ expectedEntries vhosts handles
    exact mem_expectedEntries hvh hhandle
  | vh :: vhosts, some other :: handles, i + 1, _, hvh, hhandle =>
    List.mem_cons_of_mem _ (mem_expectedEntries hvh hhandle)

lemma expectedEntries_distinct : ∀ {vhosts : List VhostCfg} (handles : List (Option ℕ)),
    DistinctNames vhosts →
      (expectedEntries vhosts handles).Pairwise fun a b => strcaseEq a.serverName b.serverName = false
  | [], _, _ => by
    unfold expectedEntries
    exact .nil
  | _ :: _, [], _ => .nil
  | vh :: vhosts, none :: handles, h => expectedEntries_distinct handles (List.Pairwise.of_cons h)
  | vh :: vhosts, some ctx :: handles, h => by
    refine List.pairwise_cons.mpr ⟨fun e he => ?_, expectedEntries_distinct handles (List.Pairwise.of_cons h)⟩
    obtain ⟨vh', hmem, hname⟩ := exists_of_mem_expectedEntries he
    rw [hname]
    exact List.rel_of_pairwise_cons h hmem

/-! ## Lookups -/

lemma find?_perm_of_unique {α : Type*} {p : α → Bool} {l l' : List α} (h : l.Perm l')
    (hunique : ∀ a ∈ l, ∀ b ∈ l, p a = true → p b = true → a = b) : l.find? p = l'.find? p := by
  cases hfind : l.find? p with
  | none =>
    refine (List.find?_eq_none.mpr fun b hb => ?_).symm
    exact List.find?_eq_none.mp hfind b (h.mem_iff.mpr hb)
  | some a =>
    have ha := List.mem_of_find?_eq_some hfind
    have hpa := List.find?_some hfind
    have hsome : (l'.find? p).isSome = true := by
      rw [List.find?_isSome]
      exact ⟨a, h.mem_iff.mp ha, hpa⟩
    obtain ⟨b, hb⟩ := Option.isSome_iff_exists.mp hsome
    have hmem := h.mem_iff.mpr (List.mem_of_find?_eq_some hb)
    rw [hb, hunique a ha b hmem hpa (List.find?_some hb)]

lemma unique_of_distinct {es : List SniEntry}
    (h : es.Pairwise fun a b => strcaseEq a.serverName b.serverName = false) (serverName : Bytes) (port : ℕ) :
    ∀ a ∈ es, ∀ b ∈ es, a.answers serverName port = true → b.answers serverName port = true → a = b := by
  intro a ha b hb hansa hansb
  by_contra hne
  have : Std.Symm fun a b : SniEntry => strcaseEq a.serverName b.serverName = false :=
    ⟨fun a b hab => (strcaseEq_comm b.serverName a.serverName).trans hab⟩
  have hdiff := h.forall ha hb hne
  have hname : ∀ e : SniEntry, e.answers serverName port = true → lower e.serverName = lower serverName :=
    fun e he => strcaseEq_iff.mp ((Bool.and_eq_true _ _).mp he).1
  have hsame : strcaseEq a.serverName b.serverName = true :=
    strcaseEq_iff.mpr ((hname a hansa).trans (hname b hansb).symm)
  exact Bool.false_ne_true (hdiff.symm.trans hsame)

lemma tlsSniFindCtx_perm {s s' : TlsState} {es : List SniEntry}
    (hdistinct : es.Pairwise fun a b => strcaseEq a.serverName b.serverName = false)
    (h : s.entries.Perm es) (h' : s'.entries.Perm es) (serverName : Bytes) (port : ℕ) :
    tlsSniFindCtx s' serverName port = tlsSniFindCtx s serverName port := by
  unfold tlsSniFindCtx
  split
  · rfl
  · have hunique := unique_of_distinct hdistinct serverName port
    rw [← find?_perm_of_unique h.symm hunique, ← find?_perm_of_unique h'.symm hunique]

/-! ## Building -/

/-- The context of a virtual host can be built, the registry apart. -/
def contextBuilds (vh : VhostCfg) (io : BuildIo) : Bool :=
  vh.tlsCertFile ≠ [] && vh.tlsKeyFile ≠ [] && io.ctxNew && contextConfigured vh io

/-- The context of every virtual host with TLS can be built, the registry apart. -/
def allBuild (g : GlobalsCfg) : List VhostCfg → List BuildIo → Bool
  | [], _ => true
  | vh :: rest, ios =>
    if tlsVhostEffectiveEnabled g vh then
      contextBuilds (tlsBuildEffectiveVhost g vh) (ios.headD {}) && allBuild g rest ios.tail
    else allBuild g rest ios

/-- A registry that has room, and refers to contexts in use. -/
structure Roomy (s : TlsState) (n : ℕ) : Prop where
  room : s.entries.length + n ≤ tlsSniMaxCtx
  live : ∀ e ∈ s.entries, e.sslCtx ∈ s.live

/-- A build changes nothing, or makes a new context and registers it. -/
lemma tlsCtxBuildForVhost_spec (hmalloc : ∀ live, malloc live ∉ live) {n : ℕ} (h : Roomy s (n + 1))
    (vh : VhostCfg) (hname : vh.name ≠ [] ∧ vh.name.length < sectionNameMax) (io : BuildIo) :
    tlsCtxBuildForVhost malloc s vh io =
      if contextBuilds vh io then
        (some (malloc s.live),
          { entries := s.entries ++ [sniEntryOf vh (malloc s.live)], live := malloc s.live :: s.live })
      else (none, s) := by
  have hfresh : (s.entries.any fun e => e.sslCtx = malloc s.live) = false := by
    rw [List.any_eq_false]
    intro e he heq
    exact hmalloc s.live (of_decide_eq_true heq ▸ h.live e he)
  have hroom : ¬ tlsSniMaxCtx ≤ s.entries.length := by
    have := h.room
    omega
  have hregister : tlsSniRegisterCtx { s with live := malloc s.live :: s.live } vh (malloc s.live)
      = (true, { entries := s.entries ++ [sniEntryOf vh (malloc s.live)], live := malloc s.live :: s.live }) := by
    unfold tlsSniRegisterCtx
    dsimp only
    rw [if_neg hname.1, hfresh, if_neg Bool.false_ne_true, if_neg hroom, snprintfS_of_lt hname.2]
    rfl
  have hfreed : { s with live := (malloc s.live :: s.live).erase (malloc s.live) } = s := by
    rw [List.erase_cons_head]
  unfold tlsCtxBuildForVhost contextBuilds
  by_cases hfiles : vh.tlsCertFile = [] ∨ vh.tlsKeyFile = []
  · have hno : (decide (vh.tlsCertFile ≠ []) && decide (vh.tlsKeyFile ≠ [])) = false := by
      rcases hfiles with hcert | hkey
      · simp only [hcert, ne_eq, not_true_eq_false, decide_false, Bool.false_and]
      · simp only [hkey, ne_eq, not_true_eq_false, decide_false, Bool.and_false]
    rw [if_pos hfiles, hno]
    rfl
  · have hyes : (decide (vh.tlsCertFile ≠ []) && decide (vh.tlsKeyFile ≠ [])) = true := by
      rw [not_or] at hfiles
      simp only [hfiles, ne_eq, not_false_eq_true, decide_true, Bool.and_self]
    rw [if_neg hfiles, hyes, Bool.true_and]
    cases io.ctxNew with
    | false => rfl
    | true =>
      rw [if_neg (by exact nofun), Bool.true_and]
      dsimp only
      rw [hregister, hfreed]

/-- Building appends the new entries, and its success does not depend on the registry. -/
lemma buildContexts_spec (hmalloc : ∀ live, malloc live ∉ live) :
    ∀ (vhosts : List VhostCfg) (s : TlsState) (ios : List BuildIo), Roomy s vhosts.length →
      (∀ vh ∈ vhosts, vh.name ≠ [] ∧ vh.name.length < sectionNameMax) → s.live.Nodup →
      ∃ ctxs s', buildContexts malloc g s vhosts ios = (ctxs, allBuild g vhosts ios, s') ∧
        s'.entries = s.entries ++ expectedEntries vhosts ctxs ∧
        s'.live.Perm (ctxs.reduceOption ++ s.live) ∧ s'.live.Nodup ∧ ctxs.length = vhosts.length ∧
        (allBuild g vhosts ios = true → Carries g vhosts ctxs) := by
  intro vhosts
  induction vhosts with
  | nil =>
    intro s ios _ _ hnodup
    exact ⟨[], s, rfl, (List.append_nil _).symm, .refl _, hnodup, rfl, fun _ => .nil⟩
  | cons vh rest ih =>
    intro s ios hroomy hnames hnodup
    have hrest : ∀ vh ∈ rest, vh.name ≠ [] ∧ vh.name.length < sectionNameMax := fun vh hvh =>
      hnames vh (List.mem_cons_of_mem _ hvh)
    unfold buildContexts allBuild
    by_cases htls : tlsVhostEffectiveEnabled g vh = true
    · rw [if_pos htls, if_pos htls, tlsCtxBuildForVhost_spec hmalloc hroomy (tlsBuildEffectiveVhost g vh)
        (hnames vh List.mem_cons_self)]
      cases hbuild : contextBuilds (tlsBuildEffectiveVhost g vh) (ios.headD {}) with
      | false =>
        refine ⟨none :: rest.map fun _ => none, s, rfl, ?_, ?_, hnodup, ?_, nofun⟩
        · exact ((congrArg (s.entries ++ ·) (expectedEntries_none rest rest)).trans (List.append_nil _)).symm
        · rw [List.reduceOption_cons_of_none, reduceOption_none]
          exact .refl _
        · rw [List.length_cons, List.length_map, List.length_cons]
      | true =>
        have hroomy' : Roomy ⟨s.entries ++ [sniEntryOf vh (malloc s.live)], malloc s.live :: s.live⟩
            rest.length := by
          refine ⟨?_, fun e he => ?_⟩
          · have := hroomy.room
            rw [List.length_cons] at this
            rw [List.length_append, List.length_singleton]
            omega
          · rcases List.mem_append.mp he with he | he
            · exact List.mem_cons_of_mem _ (hroomy.live e he)
            · rw [List.mem_singleton.mp he]
              exact List.mem_cons_self
        obtain ⟨ctxs, s', hrun, hentries, hlive, hnodup', hlen, hcarries⟩ :=
          ih _ ios.tail hroomy' hrest (List.nodup_cons.mpr ⟨hmalloc s.live, hnodup⟩)
        refine ⟨some (malloc s.live) :: ctxs, s', ?_, ?_, ?_, hnodup', congrArg Nat.succ hlen, fun hall => ?_⟩
        · exact congrArg (fun out => (some (malloc s.live) :: out.1, out.2.1, out.2.2)) hrun
        · rw [hentries, List.append_assoc]
          rfl
        · rw [List.reduceOption_cons_of_some, List.cons_append]
          exact hlive.trans List.perm_middle
        · exact .cons htls.symm (hcarries hall)
    · rw [if_neg htls, if_neg htls]
      have hroomy' : Roomy s rest.length := ⟨(Nat.add_le_add_left (Nat.le_succ _) _).trans hroomy.room, hroomy.live⟩
      obtain ⟨ctxs, s', hbuild, hentries, hlive, hnodup', hlen, hcarries⟩ := ih s ios hroomy' hrest hnodup
      rw [hbuild]
      refine ⟨none :: ctxs, s', rfl, hentries, hlive, hnodup', congrArg Nat.succ hlen, fun hall => ?_⟩
      exact .cons (Bool.eq_false_iff.mpr htls).symm (hcarries hall)

/-! ## Freeing -/

lemma tlsCtxFree_spec {e : SniEntry} {es : List SniEntry} {live : List ℕ}
    (hentries : s.entries.Perm (e :: es)) (he : e.sslCtx = ctx) (hother : ∀ e' ∈ es, e'.sslCtx ≠ ctx)
    (hlive : s.live.Perm (ctx :: live)) :
    (tlsCtxFree s ctx).entries.Perm es ∧ (tlsCtxFree s ctx).live.Perm live := by
  have hmem : e ∈ s.entries := hentries.mem_iff.mpr List.mem_cons_self
  have hsome : (s.entries.findIdx? fun e => e.sslCtx = ctx).isSome = true := by
    rw [List.findIdx?_isSome, List.any_eq_true]
    exact ⟨e, hmem, decide_eq_true he⟩
  obtain ⟨i, hi⟩ := Option.isSome_iff_exists.mp hsome
  obtain ⟨hlt, hctx, -⟩ := List.findIdx?_eq_some_iff_getElem.mp hi
  have hfound : s.entries[i] = e := by
    rcases List.mem_cons.mp (hentries.mem_iff.mp (List.getElem_mem hlt)) with heq | hmem
    · exact heq
    · exact absurd (of_decide_eq_true hctx) (hother _ hmem)
  have hrest : (s.entries.eraseIdx i).Perm es := by
    refine List.Perm.cons_inv (a := e) ?_
    rw [← hfound]
    exact (List.getElem_cons_eraseIdx_perm hlt).trans (hfound ▸ hentries)
  unfold tlsCtxFree tlsSniUnregisterCtx
  rw [hi]
  refine ⟨(swapRemove_perm hlt).trans hrest, ?_⟩
  exact (hlive.erase ctx).trans (List.Perm.of_eq (List.erase_cons_head ctx live))

lemma freeContexts_spec : ∀ (vhosts : List VhostCfg) (ctxs : List (Option ℕ)) (s : TlsState)
    (es : List SniEntry) (live : List ℕ), ctxs.length = vhosts.length → s.live.Nodup →
      s.entries.Perm (expectedEntries vhosts ctxs ++ es) → s.live.Perm (ctxs.reduceOption ++ live) →
      (∀ e ∈ es, e.sslCtx ∈ live) →
      (freeContexts s ctxs).entries.Perm es ∧ (freeContexts s ctxs).live.Perm live
  | [], [], s, es, live, _, _, hentries, hlive, _ => ⟨hentries, hlive⟩
  | vh :: vhosts, none :: ctxs, s, es, live, hlen, hnodup, hentries, hlive, hes =>
    freeContexts_spec vhosts ctxs s es live (Nat.succ.inj hlen) hnodup hentries hlive hes
  | vh :: vhosts, some ctx :: ctxs, s, es, live, hlen, hnodup, hentries, hlive, hes => by
    rw [List.reduceOption_cons_of_some, List.cons_append] at hlive
    have hnew : ctx ∉ ctxs.reduceOption ++ live := (List.nodup_cons.mp (hlive.nodup_iff.mp hnodup)).1
    have hother : ∀ e ∈ expectedEntries vhosts ctxs ++ es, e.sslCtx ≠ ctx := by
      rintro e he rfl
      refine hnew (List.mem_append.mpr ?_)
      rcases List.mem_append.mp he with he | he
      · rw [← expectedEntries_sslCtx vhosts ctxs (Nat.succ.inj hlen)]
        exact .inl (List.mem_map_of_mem he)
      · exact .inr (hes e he)
    obtain ⟨hentries', hlive'⟩ := tlsCtxFree_spec hentries rfl hother hlive
    have hnodup' : (tlsCtxFree s ctx).live.Nodup :=
      hlive'.nodup_iff.mpr (List.nodup_cons.mp (hlive.nodup_iff.mp hnodup)).2
    exact freeContexts_spec vhosts ctxs _ es live (Nat.succ.inj hlen) hnodup' hentries' hlive' hes

lemma exchangeHandles_eq : ∀ {vhosts : List VhostCfg} {olds news : List (Option ℕ)},
    Carries g vhosts olds → Carries g vhosts news → exchangeHandles g vhosts olds news = (news, olds)
  | [], _, _, .nil, .nil => rfl
  | vh :: vhosts, old :: olds, new :: news, .cons hold holds, .cons hnew hnews => by
    unfold exchangeHandles
    rw [exchangeHandles_eq holds hnews]
    dsimp only
    split
    · rfl
    · rename_i htls
      rw [Bool.not_eq_true] at htls
      rw [htls, Option.isSome_eq_false_iff, Option.isNone_iff_eq_none] at hold hnew
      rw [hold, hnew]

/-! ## Runs -/

/-- The registry and the handles belong together. -/
structure TlsInv (cfg : Config) (rt : TlsRuntime) : Prop where
  entries : rt.state.entries.Perm (expectedEntries cfg.vhosts rt.handles)
  live : rt.state.live.Perm rt.handles.reduceOption
  nodup : rt.state.live.Nodup
  carries : Carries cfg.g cfg.vhosts rt.handles

variable {cfg : Config} {rt : TlsRuntime}

lemma Carries.length_eq {handles : List (Option ℕ)} (h : Carries g vhosts handles) :
    handles.length = vhosts.length :=
  (List.Forall₂.length_eq h).symm

lemma TlsInv.entry_live (h : TlsInv cfg rt) : ∀ e ∈ rt.state.entries, e.sslCtx ∈ rt.state.live := by
  intro e he
  rw [h.live.mem_iff, ← expectedEntries_sslCtx cfg.vhosts rt.handles h.carries.length_eq]
  exact List.mem_map_of_mem (h.entries.mem_iff.mp he)

lemma TlsInv.roomy (h : TlsInv cfg rt) (hcount : cfg.vhosts.length ≤ cfgMaxVhosts) :
    Roomy rt.state cfg.vhosts.length := by
  refine ⟨?_, h.entry_live⟩
  have hlen : (expectedEntries cfg.vhosts rt.handles).length ≤ cfg.vhosts.length := by
    rw [← List.length_map (f := SniEntry.sslCtx), expectedEntries_sslCtx _ _ h.carries.length_eq,
      ← h.carries.length_eq]
    exact List.reduceOption_length_le _
  have hmax : cfgMaxVhosts + cfgMaxVhosts = tlsSniMaxCtx := rfl
  rw [h.entries.length_eq]
  omega

/-- What a reload does: it fails only if an allocation or a build does, and then keeps the handles. -/
lemma TlsInv.reload (hmalloc : ∀ live, malloc live ∉ live) (hcount : cfg.vhosts.length ≤ cfgMaxVhosts)
    (hnames : ∀ vh ∈ cfg.vhosts, vh.name ≠ [] ∧ vh.name.length < sectionNameMax) (h : TlsInv cfg rt)
    (io : ReloadIo) :
    ∃ rt', tlsReloadVhostContexts malloc cfg rt io
        = (io.calloc && allBuild cfg.g cfg.vhosts io.builds, rt') ∧ TlsInv cfg rt' ∧
      ((io.calloc && allBuild cfg.g cfg.vhosts io.builds) = false → rt'.handles = rt.handles) := by
  unfold tlsReloadVhostContexts
  cases io.calloc with
  | false => exact ⟨rt, rfl, h, fun _ => rfl⟩
  | true =>
    obtain ⟨ctxs, s, hbuild, hentries, hlive, hnodup, hlen, hcarries⟩ :=
      buildContexts_spec (g := cfg.g) hmalloc cfg.vhosts rt.state io.builds (h.roomy hcount) hnames h.nodup
    rw [if_neg (by exact nofun), hbuild, Bool.true_and]
    cases hall : allBuild cfg.g cfg.vhosts io.builds with
    | false =>
      have hboth : s.entries.Perm (expectedEntries cfg.vhosts ctxs ++ rt.state.entries) := by
        rw [hentries]
        exact List.perm_append_comm
      obtain ⟨hfree, hfreeLive⟩ :=
        freeContexts_spec cfg.vhosts ctxs s _ rt.state.live hlen hnodup hboth hlive h.entry_live
      refine ⟨_, rfl, ⟨hfree.trans h.entries, hfreeLive.trans h.live, ?_, h.carries⟩, fun _ => rfl⟩
      exact hfreeLive.nodup_iff.mpr h.nodup
    | true =>
      have hnew := hcarries hall
      dsimp only
      rw [exchangeHandles_eq h.carries hnew]
      have hboth : s.entries.Perm (expectedEntries cfg.vhosts rt.handles ++ expectedEntries cfg.vhosts ctxs) := by
        rw [hentries]
        exact h.entries.append_right _
      have hbothLive : s.live.Perm (rt.handles.reduceOption ++ ctxs.reduceOption) :=
        hlive.trans ((h.live.append_left _).trans List.perm_append_comm)
      have hin : ∀ e ∈ expectedEntries cfg.vhosts ctxs, e.sslCtx ∈ ctxs.reduceOption := fun e he => by
        rw [← expectedEntries_sslCtx cfg.vhosts ctxs hlen]
        exact List.mem_map_of_mem he
      obtain ⟨hfree, hfreeLive⟩ := freeContexts_spec cfg.vhosts rt.handles s _ _ h.carries.length_eq hnodup
        hboth hbothLive hin
      refine ⟨_, rfl, ⟨hfree, hfreeLive, ?_, hnew⟩, nofun⟩
      exact hfreeLive.nodup_iff.mpr (List.nodup_append.mp (hbothLive.nodup_iff.mp hnodup)).2.1

lemma tlsInv_init (hmalloc : ∀ live, malloc live ∉ live) (hcount : cfg.vhosts.length ≤ cfgMaxVhosts)
    (hnames : ∀ vh ∈ cfg.vhosts, vh.name ≠ [] ∧ vh.name.length < sectionNameMax) {ios : List BuildIo}
    (hinit : tlsInitVhostContexts malloc cfg ios = (true, rt)) : TlsInv cfg rt := by
  have hroomy : Roomy {} cfg.vhosts.length := by
    refine ⟨?_, nofun⟩
    have hmax : cfgMaxVhosts + cfgMaxVhosts = tlsSniMaxCtx := rfl
    exact (Nat.zero_add _).trans_le (by omega)
  obtain ⟨ctxs, s, hbuild, hentries, hlive, hnodup, hlen, hcarries⟩ :=
    buildContexts_spec (g := cfg.g) hmalloc cfg.vhosts {} ios hroomy hnames List.nodup_nil
  unfold tlsInitVhostContexts at hinit
  rw [hbuild] at hinit
  cases hall : allBuild cfg.g cfg.vhosts ios with
  | false =>
    rw [hall] at hinit
    cases hinit
  | true =>
    rw [hall] at hinit
    obtain rfl := (Prod.mk.inj hinit).2
    refine ⟨.of_eq hentries, ?_, hnodup, hcarries hall⟩
    exact hlive.trans (.of_eq (List.append_nil _))

/-- The registry and the handles of a configuration belong together. -/
structure TlsConsistent (cfg : Config) (rt : TlsRuntime) : Prop where
  /-- The virtual hosts with TLS have a context. -/
  handles : Carries cfg.g cfg.vhosts rt.handles
  /-- The registry holds one entry for each of them. -/
  oneEach : rt.state.entries.Perm (expectedEntries cfg.vhosts rt.handles)
  /-- A lookup returns the context of the virtual host. -/
  finds : ∀ (i : ℕ) vh ctx, cfg.vhosts[i]? = some vh → rt.handles[i]? = some (some ctx) →
    ∀ serverName port, strcaseEq vh.name serverName = true → port = 0 ∨ vh.port = 0 ∨ vh.port = port →
      tlsSniFindCtx rt.state serverName port = some ctx
  /-- No entry refers to a freed context. -/
  live : ∀ e ∈ rt.state.entries, e.sslCtx ∈ rt.state.live

lemma TlsInv.consistent (h : TlsInv cfg rt) (hdistinct : DistinctNames cfg.vhosts)
    (hnames : ∀ vh ∈ cfg.vhosts, vh.name ≠ []) : TlsConsistent cfg rt := by
  refine ⟨h.carries, h.entries, ?_, h.entry_live⟩
  intro i vh ctx hvh hhandle serverName port hname hport
  have hentry := mem_expectedEntries hvh hhandle
  have hgiven : serverName ≠ [] := by
    rintro rfl
    have hempty : lower vh.name = lower [] := strcaseEq_iff.mp hname
    exact hnames vh (List.mem_of_getElem? hvh) (List.map_eq_nil_iff.mp hempty)
  have hanswers : (sniEntryOf vh ctx).answers serverName port = true := by
    refine (Bool.and_eq_true _ _).mpr ⟨hname, ?_⟩
    show (!(decide (port ≠ 0) && decide (vh.port ≠ 0) && decide (vh.port ≠ port))) = true
    rcases hport with rfl | hzero | hsame
    · rfl
    · simp only [hzero, ne_eq, not_true_eq_false, decide_false, Bool.and_false, Bool.false_and, Bool.not_false]
    · simp only [hsame, ne_eq, not_true_eq_false, decide_false, Bool.and_false, Bool.not_false]
  have hfind : (expectedEntries cfg.vhosts rt.handles).find? (fun e => e.answers serverName port)
      = some (sniEntryOf vh ctx) := by
    have hsome : ((expectedEntries cfg.vhosts rt.handles).find? fun e => e.answers serverName port).isSome
        = true := by
      rw [List.find?_isSome]
      exact ⟨_, hentry, hanswers⟩
    obtain ⟨e, he⟩ := Option.isSome_iff_exists.mp hsome
    have hfound := List.find?_some he
    rw [he, unique_of_distinct (expectedEntries_distinct rt.handles hdistinct) serverName port e
      (List.mem_of_find?_eq_some he) _ hentry hfound hanswers]
  unfold tlsSniFindCtx
  rw [if_neg hgiven, ← find?_perm_of_unique h.entries.symm
    (unique_of_distinct (expectedEntries_distinct rt.handles hdistinct) serverName port), hfind]
  rfl

/-- The runtime after an initialisation and a number of reloads. -/
def afterReloads (malloc : List ℕ → ℕ) (cfg : Config) (rt : TlsRuntime) (ios : List ReloadIo) : TlsRuntime :=
  ios.foldl (fun rt io => (tlsReloadVhostContexts malloc cfg rt io).2) rt

/-- In every accepted configuration, after an initialisation and any reloads, registry and handles belong
together.  A further reload fails only if an allocation or the build of a context fails, and then every
handle and every lookup is as before. -/
theorem tlsReload_consistent (hmalloc : ∀ live, malloc live ∉ live) {env : LoadEnv}
    {file : Option (List IniItem)} (hload : configLoadIni env file = .ok cfg) {builds : List BuildIo}
    (hinit : tlsInitVhostContexts malloc cfg builds = (true, rt)) (ios : List ReloadIo) (io : ReloadIo) :
    TlsConsistent cfg (afterReloads malloc cfg rt ios) ∧
    (tlsReloadVhostContexts malloc cfg (afterReloads malloc cfg rt ios) io).1
      = (io.calloc && allBuild cfg.g cfg.vhosts io.builds) ∧
    ((tlsReloadVhostContexts malloc cfg (afterReloads malloc cfg rt ios) io).1 = false →
      (tlsReloadVhostContexts malloc cfg (afterReloads malloc cfg rt ios) io).2.handles
        = (afterReloads malloc cfg rt ios).handles ∧
      ∀ serverName port,
        tlsSniFindCtx (tlsReloadVhostContexts malloc cfg (afterReloads malloc cfg rt ios) io).2.state
            serverName port
          = tlsSniFindCtx (afterReloads malloc cfg rt ios).state serverName port) := by
  obtain ⟨hcount, hdistinct, hnames⟩ := loaded_names hload
  have hinv : TlsInv cfg (afterReloads malloc cfg rt ios) := by
    unfold afterReloads
    refine List.foldlRecOn ios _ (tlsInv_init hmalloc hcount hnames hinit) fun rt h io _ => ?_
    obtain ⟨rt', hreload, h', -⟩ := h.reload hmalloc hcount hnames io
    rw [hreload]
    exact h'
  obtain ⟨rt', hreload, h', hhandles⟩ := hinv.reload hmalloc hcount hnames io
  refine ⟨hinv.consistent hdistinct fun vh hvh => (hnames vh hvh).1, ?_⟩
  rw [hreload]
  refine ⟨rfl, fun hfailed => ⟨hhandles hfailed, fun serverName port => ?_⟩⟩
  have hsame := hhandles hfailed
  exact tlsSniFindCtx_perm (expectedEntries_distinct _ hdistinct) hinv.entries (hsame ▸ h'.entries)
    serverName port

/-- Two virtual hosts with TLS, one with the files of the globals. -/
def tlsFile : List IniItem :=
  [fileKey 1 "globals" "tls" "on",
   fileKey 2 "globals" "tls_cert_file" "c",
   fileKey 3 "globals" "tls_key_file" "k",
   fileKey 5 "vhost a" "tls_min_version" "tls1.3",
   fileKey 7 "vhost b" "tls_cert_file" "d"]

def tlsConfig : Config where
  g := { tlsEnabled := some true, tlsCertFile := some (ascii "c"), tlsKeyFile := some (ascii "k") }
  vhosts :=
    [{ newVhost {} (ascii "a") with tlsPolicy := { minVersion := ascii "tls1.3" } },
     { newVhost {} (ascii "b") with tlsCertFile := ascii "d" }]

/-- A reload that succeeds and one whose second build fails. -/
theorem tlsReload_consistent_twice :
    TlsConsistent tlsConfig (afterReloads (fun live => live.sum + 1) tlsConfig
      (tlsInitVhostContexts (fun live => live.sum + 1) tlsConfig []).2
      [{}, { builds := [{}, { checkPrivateKey := false }] }]) := by
  have hmalloc : ∀ live : List ℕ, live.sum + 1 ∉ live := fun live hmem => by
    have := List.single_le_sum (fun _ _ => Nat.zero_le _) _ hmem
    omega
  have hload : configLoadIni plainEnv (some tlsFile) = .ok tlsConfig := by decide
  have hinit : tlsInitVhostContexts (fun live => live.sum + 1) tlsConfig []
      = (true, (tlsInitVhostContexts (fun live => live.sum + 1) tlsConfig []).2) := by
    decide
  exact (tlsReload_consistent hmalloc hload hinit _ {}).1

end Lamseryn
