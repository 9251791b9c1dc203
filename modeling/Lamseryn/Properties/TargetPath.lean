import Lamseryn.Framework.Cursor
import Lamseryn.Properties.HeaderEnd
import Lamseryn.Properties.HeaderList
import Lamseryn.Properties.PathNormal

/-!
# The path of a request target

What `on_headers_complete` makes of a target, without its buffers: the part in front of the first `?`
is decoded (`Decodes`, a relation on the bytes) and its segments are resolved.  The buffers have the
length of the path, so they are never too small, and `resolveTarget_eq_some_iff` says when a target
has a normalised path, and which.

The second half is about the callback itself: a request that is accepted has a target with a normalised
path (`accepted_path`), and the same request with another target of the same normalised path is accepted
too (`accepted_withTarget`).
-/

namespace Lamseryn

open ByteText SegmentStack Splitting Cursor

/-! ## Percent decoding -/

/-- The strict decoding of a text, in which an escape must not stand for `NUL`, `/` or `\`. -/
inductive Decodes : Bytes → Bytes → Prop
  | nil : Decodes [] []
  | escaped {h l : UInt8} {hi lo : ℕ} {a d : Bytes} (hh : hexval h = some hi) (hl : hexval l = some lo)
      (hnul : UInt8.ofNat (hi * 16 + lo) ≠ 0)
      (hslash : ¬ (UInt8.ofNat (hi * 16 + lo) = 47 ∨ UInt8.ofNat (hi * 16 + lo) = 92))
      (rest : Decodes a d) : Decodes (37 :: h :: l :: a) (UInt8.ofNat (hi * 16 + lo) :: d)
  | plain {c : UInt8} {a d : Bytes} (hc : c ≠ 37) (rest : Decodes a d) : Decodes (c :: a) (c :: d)

lemma Decodes.length_le {a d : Bytes} (h : Decodes a d) : d.length ≤ a.length := by
  induction h with
  | nil => exact le_rfl
  | escaped hh hl hnul hslash rest ih =>
    simp only [List.length_cons]
    omega
  | plain hc rest ih =>
    simp only [List.length_cons]
    omega

lemma Decodes.append {a b d e : Bytes} (h : Decodes a d) (h' : Decodes b e) :
    Decodes (a ++ b) (d ++ e) := by
  induction h with
  | nil => exact h'
  | escaped hh hl hnul hslash rest ih => exact .escaped hh hl hnul hslash ih
  | plain hc rest ih => exact .plain hc ih

/-- A byte other than `%` stands for itself. -/
lemma Decodes.of_cons {c : UInt8} {a d : Bytes} (hc : c ≠ 37) (h : Decodes (c :: a) d) :
    ∃ e, d = c :: e ∧ Decodes a e := by
  cases h with
  | escaped => exact (hc rfl).elim
  | plain hc rest => exact ⟨_, rfl, rest⟩

lemma Decodes.head_slash {a d : Bytes} (h : Decodes a d) : d.head? = some 47 ↔ a.head? = some 47 := by
  cases h with
  | nil => exact Iff.rfl
  | escaped hh hl hnul hslash rest =>
    exact iff_of_false (fun hd => hslash (.inl (Option.some.inj hd))) (by simp)
  | plain hc rest => exact Iff.rfl

lemma urlPercentDecodeLoop_of_decodes {cap : ℕ} {a d : Bytes} (h : Decodes a d) :
    ∀ {out : Bytes}, out.length + d.length ≤ cap → urlPercentDecodeLoop cap true out a = .ok (out ++ d) := by
  induction h with
  | nil =>
    intro out _
    rw [urlPercentDecodeLoop, List.append_nil]
  | @escaped h l hi lo a d hh hl hnul hslash rest ih =>
    intro out hcap
    rw [List.length_cons] at hcap
    rw [urlPercentDecodeLoop, if_pos rfl]
    simp only [hh, hl]
    rw [if_neg hnul, if_neg (fun hboth => hslash hboth.2), if_neg (by omega), ih, List.append_assoc,
      List.singleton_append]
    rw [List.length_append, List.length_singleton]
    omega
  | @plain c a d hc rest ih =>
    intro out hcap
    rw [List.length_cons] at hcap
    rw [urlPercentDecodeLoop.eq_def]
    dsimp only
    rw [if_neg hc, if_neg (by omega), ih, List.append_assoc, List.singleton_append]
    rw [List.length_append, List.length_singleton]
    omega

lemma decodes_of_urlPercentDecodeLoop {cap : ℕ} {a : Bytes} : ∀ {out dec : Bytes},
    urlPercentDecodeLoop cap true out a = .ok dec → ∃ d, dec = out ++ d ∧ Decodes a d := by
  intro out
  fun_induction urlPercentDecodeLoop cap true out a with
  | case1 out =>
    intro dec h
    cases h
    exact ⟨[], (List.append_nil out).symm, .nil⟩
  | case2 => nofun
  | case3 => nofun
  | case4 => nofun
  | case5 out h l rest hi lo hl hh d hnul hslash hcap =>
    rename_i ih
    intro dec hok
    obtain ⟨e, rfl, he⟩ := ih hok
    exact ⟨_, List.append_assoc out _ e, .escaped hh hl hnul (fun hd => hslash ⟨rfl, hd⟩) he⟩
  | case6 => nofun
  | case7 => nofun
  | case8 => nofun
  | case9 out c rest hc hcap ih =>
    intro dec hok
    obtain ⟨e, rfl, he⟩ := ih hok
    exact ⟨_, List.append_assoc out [c] e, .plain hc he⟩

lemma urlPercentDecodeStrict_eq_ok_iff {a dec : Bytes} :
    urlPercentDecodeStrict a (max a.length 1) true = .ok dec ↔ Decodes a dec := by
  have hcap : max a.length 1 ≠ 0 := by omega
  rw [urlPercentDecodeStrict, if_neg hcap]
  constructor
  · intro h
    obtain ⟨d, rfl, hd⟩ := decodes_of_urlPercentDecodeLoop h
    exact hd
  · intro h
    have hle := h.length_le
    rw [urlPercentDecodeLoop_of_decodes h (by simp only [List.length_nil]; omega), List.nil_append]

/-! ## The parts of a target -/

/-- The path of a target, up to the first `?`. -/
def targetPath (target : Bytes) : Bytes :=
  target.takeWhile (· ≠ 63)

/-- The query of a target, behind the first `?`. -/
def targetQuery (target : Bytes) : Bytes :=
  (target.dropWhile (· ≠ 63)).tail

lemma targetPath_append {path rest : Bytes} (hpath : (63 : UInt8) ∉ path)
    (hrest : ∀ b ∈ rest.head?, b = 63) :
    targetPath (path ++ rest) = path ∧ targetQuery (path ++ rest) = rest.tail := by
  have hall : ∀ b ∈ path, decide (b ≠ 63) = true := by
    intro b hb
    rw [decide_eq_true_iff]
    rintro rfl
    exact hpath hb
  have hstop : Stops (fun b : UInt8 => decide (b ≠ 63)) rest := fun b hb => by
    simpa using hrest b hb
  unfold targetPath targetQuery
  rw [hstop.takeWhile_append, hstop.dropWhile_append, List.takeWhile_eq_self_iff.mpr hall,
    List.dropWhile_eq_nil_iff.mpr hall, List.nil_append]
  exact ⟨rfl, rfl⟩

lemma question_notMem_targetPath (target : Bytes) : (63 : UInt8) ∉ targetPath target := by
  intro h
  simpa using List.mem_takeWhile_imp h

lemma targetPath_append_rest (target : Bytes) :
    targetPath target ++ target.dropWhile (· ≠ 63) = target :=
  List.takeWhile_append_dropWhile

/-- The numbers that `url_split_path_query` returns cut the target into these parts. -/
lemma urlSplitPathQuery_parts (target : Bytes) :
    ∃ queryOff, urlSplitPathQuery target =
        ((targetPath target).length, queryOff, (targetQuery target).length) ∧
      target.take (targetPath target).length = targetPath target ∧
      (target.drop queryOff).take (targetQuery target).length = targetQuery target := by
  have hcut := targetPath_append_rest target
  have htake : target.take (targetPath target).length = targetPath target :=
    (congrArg (List.take _) hcut).symm.trans List.take_left
  have hdrop : target.drop (targetPath target).length = target.dropWhile (· ≠ 63) :=
    (congrArg (List.drop _) hcut).symm.trans List.drop_left
  have hlen : (targetPath target).length + (target.dropWhile (· ≠ 63)).length = target.length := by
    rw [← List.length_append, hcut]
  unfold urlSplitPathQuery targetQuery
  unfold targetPath at hlen hdrop htake ⊢
  cases hrest : target.dropWhile (· ≠ 63) with
  | nil =>
    rw [hrest, List.length_nil] at hlen
    rw [if_pos (by omega)]
    exact ⟨_, rfl, htake, by simp⟩
  | cons b query =>
    rw [hrest, List.length_cons] at hlen
    rw [if_neg (by omega)]
    refine ⟨_, by rw [List.tail_cons]; congr 2; omega, htake, ?_⟩
    rw [← List.drop_drop, hdrop, hrest, List.drop_one, List.tail_cons, List.take_length]

lemma targetPath_head (target : Bytes) :
    (targetPath target).head? = some 47 ↔
      ¬ ((targetPath target).length = 0 ∨ target.head? ≠ some 47) := by
  unfold targetPath
  cases target with
  | nil => simp
  | cons b target =>
    by_cases hb : b = 63
    · simp [hb]
    · simp [hb]

/-! ## Normalised paths -/

/-- The path of a target, decoded: what normalises to `norm`, with or without a slash at its end. -/
structure PathOf (target dec norm : Bytes) (slash : Bool) : Prop where
  absolute : (targetPath target).head? = some 47
  short : (targetPath target).length ≤ reqPathMax
  decodes : Decodes (targetPath target) dec
  within : ¬ Exceeds segmentKind segCap [] (splitSlash dec)
  norm_eq : norm = joinStack (resolve segmentKind (splitSlash dec))
  slash_eq : slash = (dec.getLast? == some 47)

/-- When a target has a normalised path, and which. -/
lemma resolveTarget_eq_some_iff {target norm : Bytes} {tooLong slash : Bool} :
    resolveTarget target tooLong = some (norm, slash) ↔
      tooLong = false ∧ ∃ dec, PathOf target dec norm slash := by
  obtain ⟨queryOff, hsplit, htake, -⟩ := urlSplitPathQuery_parts target
  have hhead := targetPath_head target
  have hnil : target = [] → ¬ (targetPath target).head? = some 47 := by
    rintro rfl
    simp [targetPath]
  unfold resolveTarget
  rw [hsplit]
  dsimp only
  rw [htake]
  constructor
  · intro h
    split_ifs at h with hempty hbad hlong
    rw [not_or] at hempty
    have habs := hhead.mpr hbad
    refine ⟨by simpa using hempty.2, ?_⟩
    cases hdec : urlPercentDecodeStrict (targetPath target) (max (targetPath target).length 1) true with
    | error e =>
      rw [hdec] at h
      cases h
    | ok dec =>
      rw [hdec] at h
      dsimp only at h
      have hdecodes := urlPercentDecodeStrict_eq_ok_iff.mp hdec
      have hle := hdecodes.length_le
      obtain ⟨hover, hfine⟩ := @normalize_cases dec (max (targetPath target).length 1)
        (hdecodes.head_slash.mpr habs) (by omega)
      by_cases hexceeds : Exceeds segmentKind segCap [] (splitSlash dec)
      · rw [hover hexceeds] at h
        cases h
      · rw [hfine hexceeds] at h
        obtain ⟨hnorm, hslash⟩ := Prod.mk.inj (Option.some.inj h)
        exact ⟨dec, habs, not_lt.mp hlong, hdecodes, hexceeds, hnorm.symm, hslash.symm⟩
  · rintro ⟨rfl, dec, hpath⟩
    have hle := hpath.decodes.length_le
    rw [if_neg, if_neg (hhead.mp hpath.absolute), if_neg (not_lt.mpr hpath.short),
      urlPercentDecodeStrict_eq_ok_iff.mpr hpath.decodes]
    · dsimp only
      rw [(normalize_cases (hpath.decodes.head_slash.mpr hpath.absolute) (by omega)).2 hpath.within,
        hpath.norm_eq, hpath.slash_eq]
      rfl
    · rw [not_or]
      exact ⟨fun h => hnil h hpath.absolute, Bool.false_ne_true⟩

/-! ## Fresh path buffers -/

/-- The path buffers of the request are not allocated yet. -/
structure Http1State.FreshPath (s : Http1State) : Prop where
  dec : s.pathDecCap = none
  norm : s.pathNormCap = none

/-- Two allocations for the path would succeed. -/
def Http1State.pathAllocs (s : Http1State) : Bool :=
  (s.arena.take 2).all id

lemma h1AllocPathBuffers_fresh {s : Http1State} (h : s.FreshPath) (cap : ℕ) :
    (s.pathAllocs = true ∧ h1AllocPathBuffers s cap =
      (true, { s with arena := s.arena.drop 2, pathDecCap := some cap, pathNormCap := some cap })) ∨
    (s.pathAllocs = false ∧ (h1AllocPathBuffers s cap).1 = false) := by
  unfold h1AllocPathBuffers h1AllocPathDec h1AllocPathNorm Http1State.arenaAlloc Http1State.pathAllocs
  rw [h.dec]
  rcases harena : s.arena with _ | ⟨_ | _, _ | ⟨_ | _, rest⟩⟩ <;> simp [harena, h.norm]

/-- The state after a target with the normalised path `norm`. -/
def Http1State.withPath (s : Http1State) (dec norm : Bytes) (slash : Bool) : Http1State :=
  { s with
    pathLen := (targetPath s.target).length
    queryOff := (urlSplitPathQuery s.target).2.1
    queryLen := (targetQuery s.target).length
    arena := s.arena.drop 2
    pathDecCap := some (max (targetPath s.target).length 1)
    pathNormCap := some (max (targetPath s.target).length 1)
    pathDec := dec
    pathNorm := norm
    pathEndsWithSlash := slash }

lemma h1CompleteTarget_of_path {s : Http1State} (h : s.FreshPath) (halloc : s.pathAllocs = true)
    (hlong : s.targetTooLong = false) {dec norm : Bytes} {slash : Bool}
    (hpath : PathOf s.target dec norm slash) :
    h1CompleteTarget s = (s.withPath dec norm slash, true) := by
  obtain ⟨queryOff, hsplit, htake, -⟩ := urlSplitPathQuery_parts s.target
  have hle := hpath.decodes.length_le
  have hne : s.target ≠ [] := by
    intro hnil
    have habs := hpath.absolute
    rw [hnil] at habs
    cases habs
  have hfresh : ({ s with
      pathLen := (targetPath s.target).length
      queryOff := queryOff
      queryLen := (targetQuery s.target).length } : Http1State).FreshPath := ⟨h.dec, h.norm⟩
  have hbuffers := h1AllocPathBuffers_fresh hfresh (max (targetPath s.target).length 1)
  rw [or_iff_left fun hbad => Bool.false_ne_true (hbad.1.symm.trans halloc)] at hbuffers
  unfold h1CompleteTarget
  rw [if_neg (by simp [hne, hlong]), hsplit]
  dsimp only
  rw [if_neg ((targetPath_head s.target).mp hpath.absolute), if_neg (not_lt.mpr hpath.short),
    hbuffers.2]
  dsimp only [h1NormalizePath, Option.getD_some]
  rw [htake, urlPercentDecodeStrict_eq_ok_iff.mpr hpath.decodes]
  dsimp only
  rw [(normalize_cases (hpath.decodes.head_slash.mpr hpath.absolute) (by omega)).2 hpath.within]
  simp only [Http1State.withPath, hsplit, ← hpath.norm_eq, ← hpath.slash_eq]

/-- A target that passes has a normalised path, and its buffers were allocated. -/
lemma h1CompleteTarget_fresh {s : Http1State} (h : s.FreshPath) (hok : (h1CompleteTarget s).2 = true) :
    s.pathAllocs = true ∧ s.targetTooLong = false ∧ ∃ dec norm slash, PathOf s.target dec norm slash := by
  have hresolve : s.pathAllocs = true ∧ ∃ out, resolveTarget s.target s.targetTooLong = some out := by
    obtain ⟨queryOff, hsplit, htake, -⟩ := urlSplitPathQuery_parts s.target
    have hfresh : ({ s with
        pathLen := (targetPath s.target).length
        queryOff := queryOff
        queryLen := (targetQuery s.target).length } : Http1State).FreshPath := ⟨h.dec, h.norm⟩
    unfold h1CompleteTarget at hok
    unfold resolveTarget
    rw [hsplit] at hok ⊢
    dsimp only at hok ⊢
    split_ifs at hok ⊢
    rcases h1AllocPathBuffers_fresh hfresh (max (targetPath s.target).length 1) with
      ⟨halloc, heq⟩ | ⟨-, hfail⟩
    · refine ⟨halloc, ?_⟩
      rw [heq] at hok
      dsimp only [h1NormalizePath, Option.getD_some] at hok
      cases hdec : urlPercentDecodeStrict (s.target.take (targetPath s.target).length)
          (max (targetPath s.target).length 1) true with
      | error e =>
        rw [hdec] at hok
        cases hok
      | ok dec =>
        rw [hdec] at hok
        dsimp only at hok ⊢
        cases hnorm : urlPathNormalizeAbsolute dec (max (targetPath s.target).length 1) with
        | error e =>
          rw [hnorm] at hok
          cases hok
        | ok out => exact ⟨out, rfl⟩
    · generalize h1AllocPathBuffers _ _ = out at hfail hok
      obtain ⟨b, u⟩ := out
      cases hfail
      cases hok
  obtain ⟨halloc, ⟨norm, slash⟩, hout⟩ := hresolve
  obtain ⟨hlong, dec, hpath⟩ := resolveTarget_eq_some_iff.mp hout
  exact ⟨halloc, hlong, dec, norm, slash, hpath⟩

/-! ## Accepted requests -/

/-- `on_headers_complete` has raised no objection to the request. -/
structure Http1State.Cleared (s : Http1State) : Prop where
  parseError : s.parseError = false
  internalError : s.internalError = false
  methodNotAllowed : s.methodNotAllowed = false
  unsupportedTe : s.unsupportedTe = false
  bodyTooBig : s.bodyTooBig = false
  headerTooBig : s.headerTooBig = false

instance (s : Http1State) : Decidable s.Cleared :=
  decidable_of_iff
    (s.parseError = false ∧ s.internalError = false ∧ s.methodNotAllowed = false ∧
      s.unsupportedTe = false ∧ s.bodyTooBig = false ∧ s.headerTooBig = false)
    ⟨fun ⟨h1, h2, h3, h4, h5, h6⟩ => ⟨h1, h2, h3, h4, h5, h6⟩,
      fun h => ⟨h.1, h.2, h.3, h.4, h.5, h.6⟩⟩

/-- The state in which `on_headers_complete` looks at the framing. -/
def Http1State.completing (s : Http1State) (method : LlhttpMethod) (keepAlive : Bool) : Http1State :=
  (if (s.enterComplete method keepAlive).acc.hdrState = .value then
    h1FinalizeInterestedHeader (s.enterComplete method keepAlive)
  else s.enterComplete method keepAlive).clearBody

lemma onHeadersComplete_eq (vh : Option Vhost) (s : Http1State) (method : LlhttpMethod)
    (keepAlive : Bool) :
    onHeadersComplete vh s method keepAlive = h1CompleteFraming vh (s.completing method keepAlive) :=
  rfl

/-- The framing and the method are such that the target is looked at. -/
structure Http1State.AsksTarget (s : Http1State) : Prop where
  length : ¬ (s.framing.clInvalid ∨ 1 < s.framing.clCount)
  expect : ¬ s.framing.expectUnsupported
  single : ¬ (0 < s.framing.teCount ∧ 0 < s.framing.clCount)
  coding : ¬ (0 < s.framing.teCount ∧ ¬ (s.framing.teChunked ∧ !s.framing.teOther))
  method : ¬ (s.method ≠ .get ∧ s.method ≠ .head)
  internalError : ¬ s.internalError

lemma h1CompleteFraming_of_asks {s : Http1State} (h : s.AsksTarget) (vh : Option Vhost) :
    h1CompleteFraming vh s =
      match h1CompleteTarget s.clearPath with
      | (s, false) => s
      | (s, true) => h1CompleteBody vh s := by
  unfold h1CompleteFraming h1CompleteRequest
  dsimp only
  rw [if_neg h.length, if_neg h.expect, if_neg h.single, if_neg h.coding]
  exact (if_neg h.method).trans (if_neg h.internalError)

lemma asksTarget_of_accepted {vh : Option Vhost} {s : Http1State}
    (h : (h1CompleteFraming vh s).Cleared) : s.AsksTarget := by
  unfold h1CompleteFraming at h
  dsimp only at h
  by_cases hlength : s.framing.clInvalid ∨ 1 < s.framing.clCount
  · rw [if_pos hlength] at h
    exact absurd h.parseError.symm Bool.false_ne_true
  rw [if_neg hlength] at h
  by_cases hexpect : s.framing.expectUnsupported
  · rw [if_pos hexpect] at h
    exact absurd h.parseError.symm Bool.false_ne_true
  rw [if_neg hexpect] at h
  by_cases hsingle : 0 < s.framing.teCount ∧ 0 < s.framing.clCount
  · rw [if_pos hsingle] at h
    exact absurd h.parseError.symm Bool.false_ne_true
  rw [if_neg hsingle] at h
  by_cases hcoding : 0 < s.framing.teCount ∧ ¬ (s.framing.teChunked ∧ !s.framing.teOther)
  · rw [if_pos hcoding] at h
    exact absurd h.unsupportedTe.symm Bool.false_ne_true
  rw [if_neg hcoding, h1CompleteRequest] at h
  by_cases hmethod : s.method ≠ .get ∧ s.method ≠ .head
  · rw [if_pos (show s.clearPath.method ≠ .get ∧ s.clearPath.method ≠ .head from hmethod)] at h
    exact absurd h.methodNotAllowed.symm Bool.false_ne_true
  rw [if_neg (show ¬ (s.clearPath.method ≠ .get ∧ s.clearPath.method ≠ .head) from hmethod)] at h
  by_cases herror : s.internalError = true
  · rw [if_pos (show s.clearPath.internalError = true from herror)] at h
    exact absurd (h.internalError.symm.trans herror) Bool.false_ne_true
  exact ⟨hlength, hexpect, hsingle, hcoding, hmethod, herror⟩

lemma h1CompleteTarget_of_accepted {vh : Option Vhost} {s : Http1State}
    (h : (h1CompleteFraming vh s).Cleared) : (h1CompleteTarget s.clearPath).2 = true := by
  rw [h1CompleteFraming_of_asks (asksTarget_of_accepted h)] at h
  obtain ⟨pl, qo, ql, dec, decCap, norm, normCap, slash, r, p, e, k, d, b, heq, -, hbad⟩ :=
    h1CompleteTarget_cases s.clearPath
  rw [heq] at h ⊢
  cases b with
  | true => rfl
  | false =>
    rcases (hbad rfl).1 with hp | he
    · exact absurd (h.parseError.symm.trans hp) Bool.false_ne_true
    · exact absurd (h.internalError.symm.trans he) Bool.false_ne_true

/-! ## Another target -/

/-- The same request with another target. -/
def Http1State.withTarget (s : Http1State) (target : Bytes) : Http1State :=
  { s with target }

section WithTarget

variable (s : Http1State) (t : Bytes)

lemma arenaAlloc_withTarget :
    (s.withTarget t).arenaAlloc = (s.arenaAlloc.1, s.arenaAlloc.2.withTarget t) := by
  have harena : (s.withTarget t).arena = s.arena := rfl
  unfold Http1State.arenaAlloc
  rw [harena]
  cases s.arena with
  | nil => rfl
  | cons ok rest => rfl

lemma http1HeaderFieldSeen_withTarget :
    http1HeaderFieldSeen (s.withTarget t) = (http1HeaderFieldSeen s).withTarget t := by
  unfold http1HeaderFieldSeen nextFieldsCount Http1State.withTarget
  dsimp only
  split_ifs <;> rfl

lemma h1HdrsEnsureCap_withTarget (need : ℕ) :
    h1HdrsEnsureCap (s.withTarget t) need =
      ((h1HdrsEnsureCap s need).1, (h1HdrsEnsureCap s need).2.withTarget t) := by
  unfold h1HdrsEnsureCap
  rw [arenaAlloc_withTarget]
  by_cases h : need ≤ s.hdrs.reqHdrCap
  · rw [if_pos h, if_pos (show need ≤ (s.withTarget t).hdrs.reqHdrCap from h)]
  · rw [if_neg h, if_neg (show ¬ need ≤ (s.withTarget t).hdrs.reqHdrCap from h)]
    rcases s.arenaAlloc with ⟨_ | _, u⟩ <;> rfl

/-- The part of `h1StoreHeader` behind the mark. -/
def storeMarked (s : Http1State) (id : HttpHeaderId) : Http1State :=
  if s.hdrs.reqHdrs.length < reqHdrsMax then
    match h1HdrsEnsureCap s (s.hdrs.reqHdrs.length + 1) with
    | (false, s) => { s with internalError := true, wantKeepalive := false }
    | (true, s) =>
      if s.arenaAlloc.1 && s.arenaAlloc.2.arenaAlloc.1 then
        let s := s.arenaAlloc.2.arenaAlloc.2
        { s with
          hdrs := { s.hdrs with
            reqHdrs := s.hdrs.reqHdrs ++
              [{ id := id
                 name := s.acc.hdrName.take (reqHdrNameMax - 1)
                 value := s.acc.hdrValRaw.take (reqHdrValueMax - 1)
                 valueTruncated := s.acc.hdrValRawTruncated }] } }
      else { s.arenaAlloc.2.arenaAlloc.2 with internalError := true, wantKeepalive := false }
  else s

/-- The header is marked as seen. -/
def markSeen (s : Http1State) (id : HttpHeaderId) : Http1State :=
  { s with hdrs := { s.hdrs with reqHdrSeenMask := s.hdrs.reqHdrSeenMask ||| httpHeaderBit id } }

lemma h1StoreHeader_eq (id : HttpHeaderId) : h1StoreHeader s id = storeMarked (markSeen s id) id :=
  rfl

lemma storeMarked_withTarget (id : HttpHeaderId) :
    storeMarked (s.withTarget t) id = (storeMarked s id).withTarget t := by
  unfold storeMarked
  by_cases hroom : s.hdrs.reqHdrs.length < reqHdrsMax
  · rw [if_pos hroom, if_pos (show (s.withTarget t).hdrs.reqHdrs.length < reqHdrsMax from hroom),
      show (s.withTarget t).hdrs.reqHdrs.length = s.hdrs.reqHdrs.length from rfl,
      h1HdrsEnsureCap_withTarget]
    rcases h1HdrsEnsureCap s (s.hdrs.reqHdrs.length + 1) with ⟨_ | _, v⟩
    · rfl
    · simp only [arenaAlloc_withTarget]
      split <;> rfl
  · rw [if_neg hroom, if_neg (show ¬ (s.withTarget t).hdrs.reqHdrs.length < reqHdrsMax from hroom)]

lemma h1FinalizeInterestedHeader_withTarget :
    h1FinalizeInterestedHeader (s.withTarget t) = (h1FinalizeInterestedHeader s).withTarget t := by
  have hcapture : ∀ u : Http1State, h1CaptureHeader (u.withTarget t) =
      (h1CaptureHeader u).withTarget t := by
    intro u
    unfold h1CaptureHeader
    have hwanted : h1WantedHeader (u.withTarget t).hdrs (u.withTarget t).acc.hdrName =
        h1WantedHeader u.hdrs u.acc.hdrName := rfl
    rw [hwanted]
    cases h1WantedHeader u.hdrs u.acc.hdrName with
    | none => rfl
    | some id =>
      dsimp only
      rw [h1StoreHeader_eq, h1StoreHeader_eq]
      exact storeMarked_withTarget (markSeen u id) t id
  have hframe : ∀ u : Http1State, h1FrameHeader (u.withTarget t) = (h1FrameHeader u).withTarget t := by
    intro u
    unfold h1FrameHeader
    by_cases herror : u.internalError = true
    · rw [if_pos herror, if_pos (show (u.withTarget t).internalError = true from herror)]
    · rw [if_neg herror, if_neg (show ¬ (u.withTarget t).internalError = true from herror)]
      rfl
  have hprocess : ∀ u : Http1State, h1ProcessHeader (u.withTarget t) =
      (h1ProcessHeader u).withTarget t := by
    intro u
    unfold h1ProcessHeader
    rw [http1HeaderFieldSeen_withTarget, hcapture, hframe]
    by_cases herror : u.internalError = true
    · rw [if_pos herror, if_pos (show (u.withTarget t).internalError = true from herror)]
    · rw [if_neg herror, if_neg (show ¬ (u.withTarget t).internalError = true from herror)]
      by_cases hbig : (http1HeaderFieldSeen u).headerTooBig = true
      · rw [if_pos hbig,
          if_pos (show ((http1HeaderFieldSeen u).withTarget t).headerTooBig = true from hbig)]
      · rw [if_neg hbig,
          if_neg (show ¬ ((http1HeaderFieldSeen u).withTarget t).headerTooBig = true from hbig)]
  exact hprocess
    { s with
      finalized := s.finalized ++ [⟨s.acc.hdrName, s.acc.hdrValRaw, s.acc.hdrValRawTruncated⟩] }

lemma completing_withTarget (method : LlhttpMethod) (keepAlive : Bool) :
    (s.withTarget t).completing method keepAlive = (s.completing method keepAlive).withTarget t := by
  unfold Http1State.completing
  have henter : (s.withTarget t).enterComplete method keepAlive =
      (s.enterComplete method keepAlive).withTarget t := rfl
  rw [henter, h1FinalizeInterestedHeader_withTarget]
  by_cases hvalue : (s.enterComplete method keepAlive).acc.hdrState = .value
  · rw [if_pos hvalue, if_pos (show ((s.enterComplete method keepAlive).withTarget t).acc.hdrState
      = .value from hvalue)]
    rfl
  · rw [if_neg hvalue, if_neg (show ¬ ((s.enterComplete method keepAlive).withTarget t).acc.hdrState
      = .value from hvalue)]
    rfl

end WithTarget

section Completing

variable {vh : Option Vhost} {s : Http1State} {method : LlhttpMethod} {keepAlive : Bool}

lemma completing_target (s : Http1State) (method : LlhttpMethod) (keepAlive : Bool) :
    (s.completing method keepAlive).target = s.target ∧
      (s.completing method keepAlive).pathDecCap = s.pathDecCap ∧
      (s.completing method keepAlive).pathNormCap = s.pathNormCap := by
  unfold Http1State.completing
  split
  · unfold h1FinalizeInterestedHeader
    generalize hu : ({ s.enterComplete method keepAlive with
      finalized := (s.enterComplete method keepAlive).finalized ++
        [⟨(s.enterComplete method keepAlive).acc.hdrName,
          (s.enterComplete method keepAlive).acc.hdrValRaw,
          (s.enterComplete method keepAlive).acc.hdrValRawTruncated⟩] } : Http1State) = u
    obtain ⟨n, b, t, h, r, e, k, f, heq, -⟩ := h1ProcessHeader_cases u
    rw [heq, ← hu]
    exact ⟨rfl, rfl, rfl⟩
  · exact ⟨rfl, rfl, rfl⟩

/-- The part of a request state that its target determines. -/
structure TargetPart where
  target : Bytes
  pathLen : ℕ
  queryOff : ℕ
  queryLen : ℕ
  pathNorm : Bytes
  pathEndsWithSlash : Bool

def Http1State.targetPart (s : Http1State) : TargetPart :=
  ⟨s.target, s.pathLen, s.queryOff, s.queryLen, s.pathNorm, s.pathEndsWithSlash⟩

/-- The part of a target with the normalised path `norm`. -/
def targetPartOf (target norm : Bytes) (slash : Bool) : TargetPart :=
  ⟨target, (targetPath target).length, (urlSplitPathQuery target).2.1, (targetQuery target).length, norm,
    slash⟩

lemma h1CompleteBody_targetPart (vh : Option Vhost) (s : Http1State) :
    (h1CompleteBody vh s).targetPart = s.targetPart := by
  unfold h1CompleteBody
  dsimp only
  split_ifs <;> rfl

/-- Whether the body limit objects depends on the framing, the limit and the normalised path. -/
lemma h1CompleteBody_accepted {vh : Option Vhost} {u v : Http1State} (hnorm : u.pathNorm = v.pathNorm)
    (hframing : u.framing = v.framing) (hmax : u.maxBodyBytes = v.maxBodyBytes)
    (hparse : u.parseError = v.parseError) (herror : u.internalError = v.internalError)
    (hmethod : u.methodNotAllowed = v.methodNotAllowed) (hte : u.unsupportedTe = v.unsupportedTe)
    (hbody : u.bodyTooBig = v.bodyTooBig) (hbig : u.headerTooBig = v.headerTooBig)
    (h : (h1CompleteBody vh u).Cleared) : (h1CompleteBody vh v).Cleared := by
  have hcurrent : h1CurrentMaxBodyBytes u = h1CurrentMaxBodyBytes v := by
    rw [h1CurrentMaxBodyBytes, hmax, ← h1CurrentMaxBodyBytes]
  have hlimit : h1ResolveMaxBodyBytes vh u = h1ResolveMaxBodyBytes vh v := by
    rw [h1ResolveMaxBodyBytes_eq, h1ResolveMaxBodyBytes_eq, hcurrent, hnorm]
  unfold h1CompleteBody at h ⊢
  dsimp only at h ⊢
  rw [hlimit, hframing] at h
  split_ifs at h ⊢
  · exact absurd h.bodyTooBig.symm Bool.false_ne_true
  · exact ⟨hparse ▸ h.parseError, herror ▸ h.internalError, hmethod ▸ h.methodNotAllowed,
      hte ▸ h.unsupportedTe, hbody ▸ h.bodyTooBig, hbig ▸ h.headerTooBig⟩
  · exact ⟨hparse ▸ h.parseError, herror ▸ h.internalError, hmethod ▸ h.methodNotAllowed,
      hte ▸ h.unsupportedTe, hbody ▸ h.bodyTooBig, hbig ▸ h.headerTooBig⟩
  · exact ⟨hparse ▸ h.parseError, herror ▸ h.internalError, hmethod ▸ h.methodNotAllowed,
      hte ▸ h.unsupportedTe, hbody ▸ h.bodyTooBig, hbig ▸ h.headerTooBig⟩

lemma completing_fresh (hfresh : s.FreshPath) (t : Bytes) :
    ((s.completing method keepAlive).withTarget t).clearPath.FreshPath := by
  obtain ⟨-, hdec, hnorm⟩ := completing_target s method keepAlive
  exact ⟨hdec.trans hfresh.dec, hnorm.trans hfresh.norm⟩

lemma accepted_eq (hfresh : s.FreshPath) (h : (onHeadersComplete vh s method keepAlive).Cleared) :
    (s.completing method keepAlive).pathAllocs = true ∧
      (s.completing method keepAlive).targetTooLong = false ∧
      ∃ dec norm slash, PathOf s.target dec norm slash ∧
        onHeadersComplete vh s method keepAlive =
          h1CompleteBody vh ((s.completing method keepAlive).clearPath.withPath dec norm slash) := by
  have hsame : (s.completing method keepAlive).withTarget s.target = s.completing method keepAlive := by
    rw [← completing_withTarget]
    rfl
  have hclear := @completing_fresh s method keepAlive hfresh s.target
  rw [hsame] at hclear
  rw [onHeadersComplete_eq] at h ⊢
  obtain ⟨halloc, hlong, dec, norm, slash, hpath⟩ :=
    h1CompleteTarget_fresh hclear (h1CompleteTarget_of_accepted h)
  have htarget := h1CompleteTarget_of_path hclear halloc hlong hpath
  refine ⟨halloc, hlong, dec, norm, slash, ?_, ?_⟩
  · rw [← (completing_target s method keepAlive).1]
    exact hpath
  · rw [h1CompleteFraming_of_asks (asksTarget_of_accepted h), htarget]

lemma accepted_path (hfresh : s.FreshPath) (h : (onHeadersComplete vh s method keepAlive).Cleared) :
    ∃ dec norm slash, PathOf s.target dec norm slash ∧
      (onHeadersComplete vh s method keepAlive).targetPart = targetPartOf s.target norm slash := by
  obtain ⟨-, -, dec, norm, slash, hpath, heq⟩ := accepted_eq hfresh h
  refine ⟨dec, norm, slash, hpath, ?_⟩
  rw [heq, h1CompleteBody_targetPart, ← (completing_target s method keepAlive).1]
  rfl

/-- The same request with another target of the same normalised path is accepted too. -/
lemma accepted_withTarget (hfresh : s.FreshPath)
    (h : (onHeadersComplete vh s method keepAlive).Cleared) {t dec : Bytes} {slash : Bool}
    (hpath : PathOf t dec (onHeadersComplete vh s method keepAlive).pathNorm slash) :
    (onHeadersComplete vh (s.withTarget t) method keepAlive).Cleared ∧
      (onHeadersComplete vh (s.withTarget t) method keepAlive).targetPart =
        targetPartOf t (onHeadersComplete vh s method keepAlive).pathNorm slash := by
  obtain ⟨halloc, hlong, dec0, norm, slash0, hpath0, heq⟩ := accepted_eq hfresh h
  have hnorm : (onHeadersComplete vh s method keepAlive).pathNorm = norm := by
    have hpart := congrArg TargetPart.pathNorm
      (h1CompleteBody_targetPart vh ((s.completing method keepAlive).clearPath.withPath dec0 norm slash0))
    rw [heq]
    exact hpart
  rw [hnorm] at hpath ⊢
  have hasks := asksTarget_of_accepted (onHeadersComplete_eq vh s method keepAlive ▸ h)
  have hasks' : ((s.completing method keepAlive).withTarget t).AsksTarget :=
    ⟨hasks.length, hasks.expect, hasks.single, hasks.coding, hasks.method, hasks.internalError⟩
  have htarget : h1CompleteTarget ((s.completing method keepAlive).withTarget t).clearPath =
      (((s.completing method keepAlive).withTarget t).clearPath.withPath dec norm slash, true) :=
    h1CompleteTarget_of_path (completing_fresh hfresh t) halloc hlong hpath
  rw [onHeadersComplete_eq vh (s.withTarget t), completing_withTarget, h1CompleteFraming_of_asks hasks',
    htarget]
  rw [heq] at h
  refine ⟨h1CompleteBody_accepted
    (u := (s.completing method keepAlive).clearPath.withPath dec0 norm slash0)
    rfl rfl rfl rfl rfl rfl rfl rfl rfl h, ?_⟩
  exact h1CompleteBody_targetPart vh _

end Completing

end Lamseryn
