import Lamseryn.Properties.StaticAnswers
import Lamseryn.Properties.TargetPath

/-!
# Redirections

A directory that is asked for without its slash is redirected to the target as it came, with its
leading slashes collapsed and a slash behind its path.  The directory was found by the decoded and
normalised path, the `Location` is made from the bytes of the request: `location_path` relates the two,
and `location_second` says which byte of the target ends up behind the first slash.
-/

namespace Lamseryn

open ByteText CText SegmentStack Splitting Cursor

/-! ## The value of `Location` -/

/-- The value of `Location` for a target. -/
def location (target : Bytes) : Bytes :=
  collapseSlashes (targetPath target) ++
    if 0 < (targetQuery target).length then ascii "/?" ++ targetQuery target else ascii "/"

lemma Decodes.dropSlashes {a d : Bytes} (h : Decodes a d) :
    ∃ n e, d = List.replicate n 47 ++ e ∧ Decodes (a.dropWhile (· == 47)) e := by
  induction a generalizing d with
  | nil =>
    cases h
    exact ⟨0, [], rfl, .nil⟩
  | cons b a ih =>
    by_cases hb : b = 47
    · subst hb
      obtain ⟨d, rfl, hd⟩ := h.of_cons (by decide)
      obtain ⟨n, e, rfl, he⟩ := ih hd
      refine ⟨n + 1, e, rfl, ?_⟩
      rwa [List.dropWhile_cons_of_pos (by decide)]
    · refine ⟨0, d, rfl, ?_⟩
      rwa [List.dropWhile_cons_of_neg (by simpa using hb)]

lemma visited_slashes (n : ℕ) (e : Bytes) :
    visited segmentKind (splitSlash (List.replicate n 47 ++ e)) =
      visited segmentKind (splitSlash e) := by
  induction n with
  | zero => rfl
  | succ n ih =>
    have hcons : splitSlash (List.replicate (n + 1) 47 ++ e) =
        [] :: splitSlash (List.replicate n 47 ++ e) :=
      splitOnP_cons_of_sep (by decide) _
    rw [hcons, visited, List.filter_cons_of_neg (by decide)]
    exact ih

lemma visited_trailing (e : Bytes) :
    visited segmentKind (splitSlash (47 :: (e ++ [47]))) = visited segmentKind (splitSlash e) := by
  have hsplit : splitSlash (47 :: (e ++ [47])) = [] :: (splitSlash e ++ [[]]) := by
    unfold splitSlash
    rw [splitOnP_cons_of_sep (by decide), splitOnP_append_last (by decide) e (by simp)]
  rw [hsplit, visited, List.filter_cons_of_neg (by decide), List.filter_append,
    List.filter_cons_of_neg (by decide), List.filter_nil, List.append_nil]
  rfl

section Location

variable {target dec norm : Bytes}

lemma collapseSlashes_eq (h : PathOf target dec norm false) :
    collapseSlashes (targetPath target) = 47 :: (targetPath target).dropWhile (· == 47) := by
  rw [collapseSlashes, if_pos h.absolute]

lemma dropWhile_slash_ne_nil (h : PathOf target dec norm false) :
    (targetPath target).dropWhile (· == 47) ≠ [] := by
  intro hnil
  obtain ⟨n, e, hdec, he⟩ := h.decodes.dropSlashes
  rw [hnil] at he
  cases he
  have hslash := h.slash_eq
  have hfirst := h.decodes.head_slash.mpr h.absolute
  rw [hdec, List.append_nil] at hslash hfirst
  cases n with
  | zero => cases hfirst
  | succ n =>
    rw [List.replicate_succ', List.getLast?_concat] at hslash
    exact absurd hslash (by decide)

lemma length_dropWhile_slash_lt (h : PathOf target dec norm false) :
    ((targetPath target).dropWhile (· == 47)).length < (targetPath target).length := by
  obtain ⟨p, hp⟩ := List.head?_eq_some_iff.mp h.absolute
  rw [hp, List.dropWhile_cons_of_pos (by decide), List.length_cons]
  exact Nat.lt_succ_of_le (List.dropWhile_sublist _).length_le

lemma location_parts (h : PathOf target dec norm false) :
    targetPath (location target) = 47 :: ((targetPath target).dropWhile (· == 47) ++ [47]) ∧
      targetQuery (location target) = targetQuery target := by
  have hnot : (63 : UInt8) ∉ 47 :: ((targetPath target).dropWhile (· == 47) ++ [47]) := by
    have hpath := question_notMem_targetPath target
    simp only [List.mem_cons, List.mem_append, List.not_mem_nil, or_false, not_or]
    exact ⟨by decide, fun hmem => hpath ((List.dropWhile_sublist _).subset hmem), by decide⟩
  have heq : location target = 47 :: ((targetPath target).dropWhile (· == 47) ++ [47]) ++
      if 0 < (targetQuery target).length then 63 :: targetQuery target else [] := by
    have hquestion : ascii "/?" = [47, 63] := by decide
    have hslash : ascii "/" = [47] := by decide
    rw [location, collapseSlashes_eq h, hquestion, hslash]
    split <;> simp
  obtain ⟨hp, hq⟩ := @targetPath_append _
    (if 0 < (targetQuery target).length then 63 :: targetQuery target else []) hnot (by
      intro b hb
      split at hb
      · simpa using hb.symm
      · cases hb)
  rw [heq]
  refine ⟨hp, hq.trans ?_⟩
  split
  · rfl
  · rename_i hzero
    rw [List.length_pos_iff, not_not] at hzero
    rw [hzero]
    rfl

lemma location_path (h : PathOf target dec norm false) (hlen : target.length < reqTargetMax) :
    ∃ dec', PathOf (location target) dec' norm true := by
  obtain ⟨n, e, hdec, he⟩ := h.decodes.dropSlashes
  obtain ⟨hpath, -⟩ := location_parts h
  have hsame : visited segmentKind (splitSlash (47 :: (e ++ [47]))) =
      visited segmentKind (splitSlash dec) := by
    rw [hdec, visited_slashes, visited_trailing]
  obtain ⟨hresolve, hexceeds⟩ := @resolve_of_visited _ segmentKind segCap _ _ hsame
  refine ⟨47 :: (e ++ [47]), ?_, ?_, ?_, ?_, ?_, ?_⟩
  · rw [hpath, List.head?_cons]
  · have hshort := length_dropWhile_slash_lt h
    have hle : (targetPath target).length ≤ target.length :=
      (List.takeWhile_sublist _).length_le
    have hmax : reqPathMax = reqTargetMax := rfl
    rw [hpath, List.length_cons, List.length_append, List.length_singleton]
    omega
  · rw [hpath]
    exact .plain (by decide) (he.append (.plain (by decide) .nil))
  · rw [hexceeds]
    exact h.within
  · rw [hresolve]
    exact h.norm_eq
  · rw [← List.cons_append, List.getLast?_concat]
    rfl

lemma location_length_le (h : PathOf target dec norm false) :
    (location target).length ≤ target.length + 1 := by
  have hshort := length_dropWhile_slash_lt h
  have hcut := congrArg List.length (targetPath_append_rest target)
  have hquery : 0 < (targetQuery target).length →
      (targetQuery target).length + 1 = (target.dropWhile (· ≠ 63)).length := by
    unfold targetQuery
    rw [List.length_tail]
    omega
  have hquestion : (ascii "/?").length = 2 := by decide
  have hslash : (ascii "/").length = 1 := by decide
  rw [List.length_append] at hcut
  rw [location, collapseSlashes_eq h, List.length_append, List.length_cons]
  split
  · rename_i hpos
    rw [List.length_append]
    have := hquery hpos
    omega
  · omega

/-- The byte behind the first slash of the value is the first byte of the target that is not a
slash. -/
lemma location_second (h : PathOf target dec norm false) :
    (location target).head? = some 47 ∧ ∃ b, (location target)[1]? = some b ∧ b ≠ 47 ∧
      (target.dropWhile (· == 47)).head? = some b := by
  obtain ⟨b, rest, hrest⟩ := List.exists_cons_of_ne_nil (dropWhile_slash_ne_nil h)
  have hb : b ≠ 47 := by
    have hnot := stops_dropWhile (· == (47 : UInt8)) (targetPath target) b (by rw [hrest]; rfl)
    simpa using hnot
  have hwhole : (target.dropWhile (· == 47)).head? = some b := by
    rw [← targetPath_append_rest target, List.dropWhile_append, if_neg (by simp [hrest]), hrest]
    rfl
  rw [location, collapseSlashes_eq h, hrest]
  exact ⟨rfl, b, rfl, hb, hwhole⟩

end Location

/-! ## Staged redirections -/

section Staged

variable {cx : ServeCtx} {w : ServeWorld} {st : Staged}

lemma locationLine_eq {h1 : Http1State} {target norm : Bytes} {slash : Bool}
    (h : h1.targetPart = targetPartOf target norm slash) :
    locationLine h1 = headerLine (ascii "Location") (location target) := by
  obtain ⟨queryOff, hsplit, htake, hquery⟩ := urlSplitPathQuery_parts target
  have htarget : h1.target = target := congrArg TargetPart.target h
  have hlen : h1.pathLen = (targetPath target).length := congrArg TargetPart.pathLen h
  have hoff : h1.queryOff = queryOff := by
    have := congrArg TargetPart.queryOff h
    rw [targetPartOf, hsplit] at this
    exact this
  have hqlen : h1.queryLen = (targetQuery target).length := congrArg TargetPart.queryLen h
  rw [locationLine, location, htarget, hlen, hoff, hqlen, htake, hquery]

lemma redirect_of_301 (hst : (staticServeTryPrepareDocrootResponse cx w).1 = .staged st)
    (hkind : st.resp.kind = .k301) :
    st.resp = redirectResponse cx ∧ cx.h1.pathEndsWithSlash = false ∧
      txBuildHeaders cx.date true st.resp.spec st.body = some st.buf := by
  obtain ⟨hform, hbuilt, -⟩ := static_formed cx w st hst
  generalize hresp : st.resp = resp at hform hkind hbuilt
  cases hform with
  | failClosed => cases hkind
  | redirect hslash =>
    refine ⟨rfl, hslash, hbuilt.resolve_right fun hbad => ?_⟩
    have := congrArg StaticResponse.kind hbad.1
    cases this
  | notModified f => cases hkind
  | unsatisfiable f => cases hkind
  | partialContent f rr hf => cases hkind
  | full f len hf =>
    unfold fullResponse at hkind
    dsimp only at hkind
    split at hkind <;> cases hkind
  | compressed f coding len hf =>
    unfold compressedResponse fullResponse at hkind
    dsimp only at hkind
    split at hkind <;> cases hkind

lemma extraHeaders_infix {date body buf : Bytes} {spec : HeaderSpec}
    (h : txBuildHeaders date true spec body = some buf) : spec.extraHeaders <:+: buf := by
  unfold txBuildHeaders at h
  split at h
  case h_1 => cases h
  case h_2 content _ =>
    dsimp only at h
    split_ifs at h
    cases h
    rw [HeaderSpec.block, List.append_assoc, List.append_assoc]
    exact ⟨_, _, List.append_assoc _ _ _⟩

/-- The response redirects to `loc`: its line is a part of the header block. -/
structure RedirectsTo (st : Staged) (loc : Bytes) : Prop where
  line : st.resp.extra.lead = headerLine (ascii "Location") loc
  sent : headerLine (ascii "Location") loc <:+: st.buf

lemma RedirectsTo.unique {loc loc' : Bytes} (h : RedirectsTo st loc) (h' : RedirectsTo st loc') :
    loc = loc' := by
  have heq := h.line.symm.trans h'.line
  exact List.append_cancel_left (List.append_cancel_right heq)

/-- What every staged 301 of an accepted request looks like: its `Location` is the one of the
target. -/
lemma staged_location {vh : Option Vhost} {s : Http1State} {method : LlhttpMethod} {keepAlive : Bool}
    (hfresh : s.FreshPath) (haccepted : (onHeadersComplete vh s method keepAlive).Cleared)
    (hcx : cx.h1.targetPart = (onHeadersComplete vh s method keepAlive).targetPart)
    (hst : (staticServeTryPrepareDocrootResponse cx w).1 = .staged st)
    (hkind : st.resp.kind = .k301) :
    RedirectsTo st (location s.target) ∧
      ∃ dec, PathOf s.target dec (onHeadersComplete vh s method keepAlive).pathNorm false := by
  obtain ⟨dec, norm, slash, hpath, hpart⟩ := accepted_path hfresh haccepted
  obtain ⟨hresp, hslash, hbuilt⟩ := redirect_of_301 hst hkind
  have hline := locationLine_eq (hcx.trans hpart)
  have hnorm : (onHeadersComplete vh s method keepAlive).pathNorm = norm :=
    congrArg TargetPart.pathNorm hpart
  have hfalse : slash = false := by
    have := congrArg TargetPart.pathEndsWithSlash (hcx.trans hpart)
    exact this.symm.trans hslash
  refine ⟨⟨?_, ?_⟩, dec, by rw [hnorm, ← hfalse]; exact hpath⟩
  · rw [hresp, ← hline]
    rfl
  · rw [hresp] at hbuilt
    have hextra := extraHeaders_infix hbuilt
    have hlead : (redirectResponse cx).spec.extraHeaders = locationLine cx.h1 := by
      simp [StaticResponse.spec, redirectResponse, ExtraHeaders.text]
    rwa [hlead, hline] at hextra

end Staged

/-- The request that follows a redirection: the same request with the `Location` as its target. -/
structure FollowsUp (vh : Option Vhost) (s : Http1State) (method : LlhttpMethod) (keepAlive : Bool)
    (loc : Bytes) : Prop where
  accepted : (onHeadersComplete vh (s.withTarget loc) method keepAlive).Cleared
  samePath : (onHeadersComplete vh (s.withTarget loc) method keepAlive).pathNorm =
    (onHeadersComplete vh s method keepAlive).pathNorm
  slash : (onHeadersComplete vh (s.withTarget loc) method keepAlive).pathEndsWithSlash = true
  /-- It is not redirected again. -/
  settles : ∀ (cx : ServeCtx) (w : ServeWorld) (st : Staged),
    cx.h1.targetPart = (onHeadersComplete vh (s.withTarget loc) method keepAlive).targetPart →
      (staticServeTryPrepareDocrootResponse cx w).1 = .staged st → st.resp.kind ≠ .k301

/-- **Redirect round trip.**  The `Location` of a staged 301 fits its buffer, begins with exactly one
slash and keeps the query; as a target it is accepted with the same normalised path and a slash, and not
redirected again. -/
theorem redirect_roundTrip (vh : Option Vhost) (s : Http1State) (method : LlhttpMethod)
    (keepAlive : Bool) (cx : ServeCtx) (w : ServeWorld) (st : Staged) (hfresh : s.FreshPath)
    (haccepted : (onHeadersComplete vh s method keepAlive).Cleared)
    (hlen : s.target.length < reqTargetMax)
    (hcx : cx.h1.targetPart = (onHeadersComplete vh s method keepAlive).targetPart)
    (hst : (staticServeTryPrepareDocrootResponse cx w).1 = .staged st)
    (hkind : st.resp.kind = .k301) :
    ∃ loc, RedirectsTo st loc ∧
      (headerLine (ascii "Location") loc).length < reqTargetMax + 16 ∧
      loc.head? = some 47 ∧ loc[1]? ≠ some 47 ∧
      targetQuery loc = targetQuery s.target ∧ FollowsUp vh s method keepAlive loc := by
  obtain ⟨hbuf, dec, hpath⟩ := staged_location hfresh haccepted hcx hst hkind
  obtain ⟨hhead, b, hsecond, hb, -⟩ := location_second hpath
  obtain ⟨dec', hpath'⟩ := location_path hpath hlen
  obtain ⟨haccepted', hpart'⟩ := accepted_withTarget hfresh haccepted hpath'
  have hslash' : (onHeadersComplete vh (s.withTarget (location s.target)) method
      keepAlive).pathEndsWithSlash = true := congrArg TargetPart.pathEndsWithSlash hpart'
  refine ⟨location s.target, hbuf, ?_, hhead, ?_, (location_parts hpath).2, haccepted',
    congrArg TargetPart.pathNorm hpart', hslash', ?_⟩
  · have hle := location_length_le hpath
    have hname : (ascii "Location").length = 8 := by decide
    rw [headerLine_length, hname]
    omega
  · rw [hsecond]
    exact fun h => hb (Option.some.inj h)
  · intro cx' w' st' hcx' hst' hkind'
    have hfalse := (redirect_of_301 hst' hkind').2.1
    have htrue : cx'.h1.pathEndsWithSlash = true :=
      (congrArg TargetPart.pathEndsWithSlash hcx').trans hslash'
    exact Bool.false_ne_true (hfalse.symm.trans htrue)

/-- What a client makes of `loc`, for which a backslash is a slash: a path on the same host. -/
structure SameHost (loc : Bytes) : Prop where
  absolute : loc.head? = some 47
  slash : loc[1]? ≠ some 47
  backslash : loc[1]? ≠ some 92

/-- **Redirections to other hosts.**  A redirection stays on the host exactly if the target has no
backslash behind its first slashes: the slashes are collapsed, a backslash is sent back as it came. -/
theorem redirect_sameHost_iff (vh : Option Vhost) (s : Http1State) (method : LlhttpMethod)
    (keepAlive : Bool) (cx : ServeCtx) (w : ServeWorld) (st : Staged) (hfresh : s.FreshPath)
    (haccepted : (onHeadersComplete vh s method keepAlive).Cleared)
    (hcx : cx.h1.targetPart = (onHeadersComplete vh s method keepAlive).targetPart)
    (hst : (staticServeTryPrepareDocrootResponse cx w).1 = .staged st)
    (hkind : st.resp.kind = .k301) :
    (∀ loc, RedirectsTo st loc → SameHost loc) ↔
      (s.target.dropWhile (· == 47)).head? ≠ some 92 := by
  obtain ⟨hto, dec, hpath⟩ := staged_location hfresh haccepted hcx hst hkind
  obtain ⟨hhead, b, hsecond, hb, hfirst⟩ := location_second hpath
  rw [hfirst]
  constructor
  · intro hall hcon
    exact (hall _ hto).backslash (hsecond.trans hcon)
  · intro hnot loc hloc
    rw [hloc.unique hto]
    refine ⟨hhead, ?_, ?_⟩
    · rw [hsecond]
      exact fun h => hb (Option.some.inj h)
    · rwa [hsecond]

/-! ## A site with a directory -/

/-- A document root with an empty directory `dir`. -/
def directorySite : ServeWorld where
  proc :=
    { tree :=
        { root := 0
          node := fun i => if i = 0 then .dir 0 [(ascii "dir", 1)] else .dir 0 [] }
      fds := [(3, 0)] }

/-- A request for `target` on that site. -/
def directoryRequest (target : Bytes) : ServeCtx where
  h1 := onHeadersComplete none { target } .get true
  vhost := none
  tls := false
  docrootFd := 3
  date := []
  date_lt := no_date_lt
  haveBrotli := false
  codec := ⟨fun _ _ => none, fun _ _ => none⟩

lemma directoryRequest_targetPart (target : Bytes) :
    (directoryRequest target).h1.targetPart
      = (onHeadersComplete none { target } .get true).targetPart := by
  rw [directoryRequest]

/-- The kind of a staged response. -/
def ServeResult.kind : ServeResult → Option RespKind
  | .passed => none
  | .staged st => some st.resp.kind

lemma ServeResult.staged_of_kind {r : ServeResult} {k : RespKind} (h : r.kind = some k) :
    ∃ st, r = .staged st ∧ st.resp.kind = k := by
  cases r with
  | passed => cases h
  | staged st => exact ⟨st, rfl, Option.some.inj h⟩

/-- The request `//./dir?a=1` is redirected to `/./dir/?a=1`. -/
theorem redirect_roundTrip_dir :
    ∃ st, (staticServeTryPrepareDocrootResponse (directoryRequest (ascii "//./dir?a=1"))
        directorySite).1 = .staged st ∧
      ∃ loc, RedirectsTo st loc ∧ targetQuery loc = ascii "a=1" ∧
        FollowsUp none { target := ascii "//./dir?a=1" } .get true loc := by
  obtain ⟨st, hst, hkind⟩ := @ServeResult.staged_of_kind
    (staticServeTryPrepareDocrootResponse (directoryRequest (ascii "//./dir?a=1")) directorySite).1
    .k301 (by decide +kernel)
  obtain ⟨loc, hto, -, -, -, hquery, hfollows⟩ := redirect_roundTrip none
    { target := ascii "//./dir?a=1" } .get true (directoryRequest (ascii "//./dir?a=1")) directorySite st
    ⟨rfl, rfl⟩ (by decide +kernel) (by decide +kernel) (directoryRequest_targetPart _) hst hkind
  refine ⟨st, hst, loc, hto, hquery.trans ?_, hfollows⟩
  decide +kernel

theorem redirect_sameHost_dir :
    ∃ st, (staticServeTryPrepareDocrootResponse (directoryRequest (ascii "/dir")) directorySite).1 =
      .staged st ∧ ∀ loc, RedirectsTo st loc → SameHost loc := by
  obtain ⟨st, hst, hkind⟩ := @ServeResult.staged_of_kind
    (staticServeTryPrepareDocrootResponse (directoryRequest (ascii "/dir")) directorySite).1
    .k301 (by decide +kernel)
  exact ⟨st, hst, (redirect_sameHost_iff none { target := ascii "/dir" } .get true
    (directoryRequest (ascii "/dir")) directorySite st ⟨rfl, rfl⟩ (by decide +kernel)
    (directoryRequest_targetPart _) hst hkind).mpr (by decide +kernel)⟩

/-- The target `/\evil.com/../dir` names the directory and is sent back with its backslash, which a
client reads as the host `evil.com`. -/
theorem redirect_leaves_host :
    (onHeadersComplete none { target := ascii "/\\evil.com/../dir" } .get true).Cleared ∧
    ∃ st loc, (staticServeTryPrepareDocrootResponse (directoryRequest (ascii "/\\evil.com/../dir"))
        directorySite).1 = .staged st ∧ st.resp.kind = .k301 ∧
      st.resp.extra.lead = headerLine (ascii "Location") loc ∧ ¬ SameHost loc := by
  obtain ⟨st, hst, hkind⟩ := @ServeResult.staged_of_kind
    (staticServeTryPrepareDocrootResponse (directoryRequest (ascii "/\\evil.com/../dir"))
      directorySite).1 .k301 (by decide +kernel)
  refine ⟨by decide +kernel, st, ascii "/\\evil.com/../dir/", hst, hkind, ?_, fun h => h.backslash (by decide +kernel)⟩
  rw [(redirect_of_301 hst hkind).1]
  decide +kernel

end Lamseryn
