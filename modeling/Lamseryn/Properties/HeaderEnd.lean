import Lamseryn.Model.Parser

/-!
# The end of the header section

What `on_headers_complete` does after the last field is finalised.  The target half is described
once by what it can change (`h1CompleteTarget_cases`); with every allocation succeeding and fresh
path buffers its outcome is the pure function `resolveTarget` of the target
(`h1CompleteTarget_eq`).  The header fields themselves are left alone
(`h1CompleteFraming_headerPart`).
-/

namespace Lamseryn

open ByteText

/-! ## The arena -/

lemma arenaAlloc_cases (s : Http1State) :
    ∃ b r, s.arenaAlloc = (b, { s with arena := r }) := by
  rcases h : s.arena with _ | ⟨b, r⟩
  · have hs : s.arenaAlloc = (true, s) := by simp [Http1State.arenaAlloc, h]
    exact ⟨true, s.arena, hs⟩
  · exact ⟨b, r, by simp [Http1State.arenaAlloc, h]⟩

lemma h1AllocPathDec_cases (s : Http1State) (cap : ℕ) :
    ∃ b r c, h1AllocPathDec s cap = (b, { s with arena := r, pathDecCap := c }) := by
  rcases hdec : s.pathDecCap with _ | c
  · obtain ⟨b, r, halloc⟩ := arenaAlloc_cases s
    cases b with
    | false => exact ⟨false, r, s.pathDecCap, by simp [h1AllocPathDec, hdec, halloc]⟩
    | true => exact ⟨true, r, some cap, by simp [h1AllocPathDec, hdec, halloc]⟩
  · have hs : h1AllocPathDec s cap = (true, s) := by simp [h1AllocPathDec, hdec]
    exact ⟨true, s.arena, s.pathDecCap, hs⟩

lemma h1AllocPathNorm_cases (s : Http1State) (cap : ℕ) :
    ∃ b r c, h1AllocPathNorm s cap = (b, { s with arena := r, pathNormCap := c }) := by
  rcases hnorm : s.pathNormCap with _ | c
  · obtain ⟨b, r, halloc⟩ := arenaAlloc_cases s
    cases b with
    | false => exact ⟨false, r, s.pathNormCap, by simp [h1AllocPathNorm, hnorm, halloc]⟩
    | true => exact ⟨true, r, some cap, by simp [h1AllocPathNorm, hnorm, halloc]⟩
  · have hs : h1AllocPathNorm s cap = (true, s) := by simp [h1AllocPathNorm, hnorm]
    exact ⟨true, s.arena, s.pathNormCap, hs⟩

lemma h1AllocPathBuffers_cases (s : Http1State) (cap : ℕ) :
    ∃ b r dec norm, h1AllocPathBuffers s cap =
      (b, { s with arena := r, pathDecCap := dec, pathNormCap := norm }) := by
  obtain ⟨b, r, dec, hdec⟩ := h1AllocPathDec_cases s cap
  unfold h1AllocPathBuffers
  rw [hdec]
  cases b with
  | false => exact ⟨false, r, dec, s.pathNormCap, rfl⟩
  | true =>
    obtain ⟨b', r', norm, hnorm⟩ :=
      h1AllocPathNorm_cases { s with arena := r, pathDecCap := dec } cap
    exact ⟨b', r', dec, norm, hnorm⟩

/-! ## The target -/

lemma h1NormalizePath_cases (s : Http1State) (pathLen : ℕ) :
    ∃ dec norm slash p k d b, h1NormalizePath s pathLen =
      ({ s with
          pathDec := dec
          pathNorm := norm
          pathEndsWithSlash := slash
          parseError := p
          wantKeepalive := k
          messageDone := d }, b) ∧
      (b = true → p = s.parseError ∧ k = s.wantKeepalive ∧ d = s.messageDone) ∧
      (b = false → p = true ∧ d = true) := by
  unfold h1NormalizePath
  split
  · exact ⟨s.pathDec, s.pathNorm, s.pathEndsWithSlash, true, false, true, false, rfl, by simp⟩
  · rename_i dec _
    split
    · exact ⟨dec, s.pathNorm, s.pathEndsWithSlash, true, false, true, false, rfl, by simp⟩
    · rename_i norm slash _
      exact ⟨dec, norm, slash, s.parseError, s.wantKeepalive, s.messageDone, true, rfl, by simp⟩

/-- What the target half of `on_headers_complete` can change, and how it fails: with a parse error
or an internal error, and then the message counts as done. -/
lemma h1CompleteTarget_cases (s : Http1State) :
    ∃ pl qo ql dec decCap norm normCap slash r p e k d b, h1CompleteTarget s =
      ({ s with
          pathLen := pl
          queryOff := qo
          queryLen := ql
          pathDec := dec
          pathDecCap := decCap
          pathNorm := norm
          pathNormCap := normCap
          pathEndsWithSlash := slash
          arena := r
          parseError := p
          internalError := e
          wantKeepalive := k
          messageDone := d }, b) ∧
      (b = true → p = s.parseError ∧ e = s.internalError ∧ k = s.wantKeepalive ∧
        d = s.messageDone) ∧
      (b = false → (p = true ∨ e = true) ∧ d = true) := by
  unfold h1CompleteTarget
  obtain ⟨pl, qo, ql⟩ := urlSplitPathQuery s.target
  dsimp only
  split_ifs with hempty hstart hlong
  · exact ⟨s.pathLen, s.queryOff, s.queryLen, s.pathDec, s.pathDecCap, s.pathNorm, s.pathNormCap,
      s.pathEndsWithSlash, s.arena, true, s.internalError, false, true, false, rfl, by simp⟩
  · exact ⟨s.pathLen, s.queryOff, s.queryLen, s.pathDec, s.pathDecCap, s.pathNorm, s.pathNormCap,
      s.pathEndsWithSlash, s.arena, true, s.internalError, false, true, false, rfl, by simp⟩
  · exact ⟨pl, qo, ql, s.pathDec, s.pathDecCap, s.pathNorm, s.pathNormCap,
      s.pathEndsWithSlash, s.arena, true, s.internalError, false, true, false, rfl, by simp⟩
  · obtain ⟨b, r, dec, norm, halloc⟩ := h1AllocPathBuffers_cases
      { s with pathLen := pl, queryOff := qo, queryLen := ql } (max pl 1)
    rw [halloc]
    cases b with
    | false =>
      exact ⟨pl, qo, ql, s.pathDec, dec, s.pathNorm, norm, s.pathEndsWithSlash, r, s.parseError,
        true, false, true, false, rfl, by simp⟩
    | true =>
      obtain ⟨dec', norm', slash, p, k, d, b, hnorm, hok, hbad⟩ := h1NormalizePath_cases
        { s with
          pathLen := pl
          queryOff := qo
          queryLen := ql
          arena := r
          pathDecCap := dec
          pathNormCap := norm } pl
      dsimp only
      rw [hnorm]
      refine ⟨pl, qo, ql, dec', dec, norm', norm, slash, r, p, s.internalError, k, d, b, rfl, ?_, ?_⟩
      · intro hb
        obtain ⟨hp, hk, hd⟩ := hok hb
        exact ⟨hp, rfl, hk, hd⟩
      · intro hb
        exact ⟨Or.inl (hbad hb).1, (hbad hb).2⟩

/-- A request for which nothing has been allocated yet for the path and every allocation
succeeds. -/
structure Http1State.CleanBuffers (s : Http1State) : Prop where
  arena : s.arena = []
  pathDecCap : s.pathDecCap = none
  pathNormCap : s.pathNormCap = none
  internalError : s.internalError = false

/-- The normalised path of a target and whether it ended in a slash, or `none` if the target is
rejected. -/
def resolveTarget (target : Bytes) (tooLong : Bool) : Option (Bytes × Bool) :=
  if target = [] ∨ tooLong then none
  else
    let pathLen := (urlSplitPathQuery target).1
    if pathLen = 0 ∨ target.head? ≠ some 47 then none
    else if reqPathMax < pathLen then none
    else
      match urlPercentDecodeStrict (target.take pathLen) (max pathLen 1) true with
      | .error _ => none
      | .ok dec => (urlPathNormalizeAbsolute dec (max pathLen 1)).toOption

lemma h1AllocPathBuffers_of_clean {s : Http1State} (hs : s.CleanBuffers) (cap : ℕ) :
    h1AllocPathBuffers s cap = (true, { s with pathDecCap := some cap, pathNormCap := some cap }) := by
  simp [h1AllocPathBuffers, h1AllocPathDec, h1AllocPathNorm, hs.pathDecCap, hs.pathNormCap,
    Http1State.arenaAlloc, hs.arena]

/-- With clean buffers the target half of `on_headers_complete` computes `resolveTarget`. -/
lemma h1CompleteTarget_of_clean {s : Http1State} (hs : s.CleanBuffers) :
    match resolveTarget s.target s.targetTooLong with
    | none => ∃ s', h1CompleteTarget s = (s', false) ∧ s'.parseError = true
    | some (norm, slash) => ∃ s', h1CompleteTarget s = (s', true) ∧ s'.pathNorm = norm ∧
        s'.pathEndsWithSlash = slash := by
  unfold resolveTarget h1CompleteTarget
  rcases hsplit : urlSplitPathQuery s.target with ⟨pl, qo, ql⟩
  dsimp only
  split_ifs with hempty hstart hlong
  · exact ⟨_, rfl, rfl⟩
  · exact ⟨_, rfl, rfl⟩
  · exact ⟨_, rfl, rfl⟩
  · have hclean : ({ s with pathLen := pl, queryOff := qo, queryLen := ql } :
        Http1State).CleanBuffers := ⟨hs.arena, hs.pathDecCap, hs.pathNormCap, hs.internalError⟩
    rw [h1AllocPathBuffers_of_clean hclean]
    simp only [h1NormalizePath, Option.getD_some]
    rcases urlPercentDecodeStrict (s.target.take pl) (max pl 1) true with e | dec
    · exact ⟨_, rfl, rfl⟩
    · rcases hnorm : urlPathNormalizeAbsolute dec (max pl 1) with e | ⟨norm, slash⟩
      · simp only [hnorm, Except.toOption]
        exact ⟨_, rfl, rfl⟩
      · simp only [hnorm, Except.toOption]
        exact ⟨_, rfl, rfl, rfl⟩

/-! ## Header fields are left alone -/

/-- The part of the request state that the header fields determine. -/
structure HeaderPart where
  acc : HdrAccum
  hdrs : ReqHdrs
  framing : Framing
  finalized : List FinalizedField
  hdrFieldsCount : ℕ
  hdrFieldsMax : ℕ
  headerTooBig : Bool

/-- The header part of a request state. -/
def Http1State.headerPart (s : Http1State) : HeaderPart :=
  ⟨s.acc, s.hdrs, s.framing, s.finalized, s.hdrFieldsCount, s.hdrFieldsMax, s.headerTooBig⟩

lemma h1CompleteTarget_headerPart (s : Http1State) :
    (h1CompleteTarget s).1.headerPart = s.headerPart := by
  obtain ⟨pl, qo, ql, dec, decCap, norm, normCap, slash, r, p, e, k, d, b, heq, -⟩ :=
    h1CompleteTarget_cases s
  rw [heq]
  rfl

lemma h1CompleteBody_headerPart (vh : Option Vhost) (s : Http1State) :
    (h1CompleteBody vh s).headerPart = s.headerPart := by
  unfold h1CompleteBody
  dsimp only
  split_ifs <;> rfl

lemma h1CompleteRequest_headerPart (vh : Option Vhost) (s : Http1State) :
    (h1CompleteRequest vh s).headerPart = s.headerPart := by
  unfold h1CompleteRequest
  dsimp only
  split_ifs
  · rfl
  · rfl
  · have htarget := h1CompleteTarget_headerPart s.clearPath
    rcases ht : h1CompleteTarget s.clearPath with ⟨s2, _ | _⟩
    · rw [ht] at htarget
      exact htarget
    · rw [ht] at htarget
      exact (h1CompleteBody_headerPart vh s2).trans htarget

/-- After the last field is finalised, `on_headers_complete` changes nothing that header fields
determine. -/
lemma h1CompleteFraming_headerPart (vh : Option Vhost) (s : Http1State) :
    (h1CompleteFraming vh s).headerPart = s.headerPart := by
  unfold h1CompleteFraming
  dsimp only
  split_ifs
  · rfl
  · rfl
  · rfl
  · rfl
  · exact h1CompleteRequest_headerPart vh s

/-! ## The decision -/

/-- The body limit for a normalised path: the matching route's own limit, or the connection's. -/
def bodyLimit (vh : Option Vhost) (current : ℕ) (norm : Bytes) : ℕ :=
  match vh with
  | none => current
  | some vh =>
    match policySharedResolveRouteRule vh.routeRules norm with
    | none => current
    | some rr => rr.maxBodyBytes.getD current

lemma h1ResolveMaxBodyBytes_eq (vh : Option Vhost) (s : Http1State) :
    h1ResolveMaxBodyBytes vh s = bodyLimit vh (h1CurrentMaxBodyBytes s) s.pathNorm := by
  cases vh <;> rfl

lemma h1CurrentMaxBodyBytes_pos (s : Http1State) : 0 < h1CurrentMaxBodyBytes s := by
  unfold h1CurrentMaxBodyBytes
  split_ifs with h
  · exact h
  · decide

/-- How `on_headers_complete` frames the body of a request it does not reject for its target. -/
inductive BodyDecision (vh : Option Vhost) (t : Http1State) (norm : Bytes) (r : Http1State) : Prop
  /-- A `Content-Length` above the limit. -/
  | tooBig (hcl : t.framing.clCount = 1)
      (hbig : bodyLimit vh (h1CurrentMaxBodyBytes t) norm < t.framing.clValue)
      (hflag : r.bodyTooBig = true)
  /-- A `Content-Length` body. -/
  | sized (hcl : t.framing.clCount = 1)
      (hfit : t.framing.clValue ≤ bodyLimit vh (h1CurrentMaxBodyBytes t) norm)
      (hflag : r.bodyTooBig = t.bodyTooBig) (hrem : r.bodyRemaining = t.framing.clValue)
  /-- No body. -/
  | empty (hcl : t.framing.clCount ≠ 1) (hte : t.framing.teCount = 0)
      (hflag : r.bodyTooBig = t.bodyTooBig) (hdone : r.messageDone = true)
  /-- A chunked body. -/
  | chunked (hcl : t.framing.clCount ≠ 1) (hte : t.framing.teCount ≠ 0)
      (hflag : r.bodyTooBig = t.bodyTooBig) (hdone : r.messageDone = t.messageDone)

/-- The outcome of `on_headers_complete` for a request that passed the framing checks. -/
inductive RequestDecision (vh : Option Vhost) (t r : Http1State) : Prop
  /-- The method is not served. -/
  | methodNotAllowed (hm : t.method ≠ .get ∧ t.method ≠ .head)
      (hparse : r.parseError = t.parseError) (hte : r.unsupportedTe = t.unsupportedTe)
      (hbig : r.bodyTooBig = t.bodyTooBig) (hrem : r.bodyRemaining = 0)
  /-- The target is rejected. -/
  | badTarget (hm : t.method = .get ∨ t.method = .head)
      (htarget : resolveTarget t.target t.targetTooLong = none) (hparse : r.parseError = true)
  /-- The target resolves to a path. -/
  | served (hm : t.method = .get ∨ t.method = .head) (norm : Bytes) (slash : Bool)
      (htarget : resolveTarget t.target t.targetTooLong = some (norm, slash))
      (hparse : r.parseError = t.parseError) (hte : r.unsupportedTe = t.unsupportedTe)
      (herr : r.internalError = false) (hbody : BodyDecision vh t norm r)

lemma h1CompleteBody_decision (vh : Option Vhost) (t : Http1State) :
    BodyDecision vh t t.pathNorm (h1CompleteBody vh t) := by
  unfold h1CompleteBody
  dsimp only
  rw [h1ResolveMaxBodyBytes_eq]
  split_ifs with hcl hbig hte
  · exact .tooBig hcl hbig rfl
  · exact .sized hcl (not_lt.mp hbig) rfl rfl
  · exact .empty hcl hte rfl rfl
  · exact .chunked hcl hte rfl rfl

lemma h1CompleteBody_flags (vh : Option Vhost) (t : Http1State) :
    (h1CompleteBody vh t).parseError = t.parseError ∧
      (h1CompleteBody vh t).unsupportedTe = t.unsupportedTe ∧
      (h1CompleteBody vh t).internalError = t.internalError := by
  unfold h1CompleteBody
  dsimp only
  split_ifs <;> exact ⟨rfl, rfl, rfl⟩

lemma h1CompleteRequest_decision (vh : Option Vhost) {t : Http1State} (ht : t.CleanBuffers) :
    RequestDecision vh t (h1CompleteRequest vh t) := by
  have hclean : t.clearPath.CleanBuffers :=
    ⟨ht.arena, ht.pathDecCap, ht.pathNormCap, ht.internalError⟩
  have htarget := h1CompleteTarget_of_clean hclean
  obtain ⟨pl, qo, ql, dec, decCap, norm', normCap, slash', a, p, e, k, d, b, heq, hok, -⟩ :=
    h1CompleteTarget_cases t.clearPath
  unfold h1CompleteRequest
  dsimp only
  split_ifs with hm herr
  · exact .methodNotAllowed hm rfl rfl rfl rfl
  · exact absurd herr (by simp [Http1State.clearPath, ht.internalError])
  · have hgh : t.method = .get ∨ t.method = .head := by
      by_contra h
      exact hm (not_or.mp h)
    have hresolve : resolveTarget t.clearPath.target t.clearPath.targetTooLong =
        resolveTarget t.target t.targetTooLong := rfl
    rw [hresolve] at htarget
    rcases hr : resolveTarget t.target t.targetTooLong with _ | ⟨norm, slash⟩
    · rw [hr] at htarget
      obtain ⟨s', hs', hparse⟩ := htarget
      rw [hs']
      exact .badTarget hgh hr hparse
    · rw [hr] at htarget
      obtain ⟨s', hs', hnorm, -⟩ := htarget
      rw [heq, Prod.mk.injEq] at hs'
      obtain ⟨rfl, rfl⟩ := hs'
      obtain ⟨rfl, rfl, rfl, rfl⟩ := hok rfl
      rw [heq]
      dsimp only
      have hflags := h1CompleteBody_flags vh
        { t.clearPath with
          pathLen := pl, queryOff := qo, queryLen := ql, pathDec := dec, pathDecCap := decCap
          pathNorm := norm', pathNormCap := normCap, pathEndsWithSlash := slash', arena := a }
      refine .served hgh norm slash hr hflags.1 hflags.2.1 (hflags.2.2.trans ht.internalError) ?_
      have hnorm' : norm' = norm := hnorm
      subst hnorm'
      rcases h1CompleteBody_decision vh
        { t.clearPath with
          pathLen := pl, queryOff := qo, queryLen := ql, pathDec := dec, pathDecCap := decCap
          pathNorm := norm', pathNormCap := normCap, pathEndsWithSlash := slash', arena := a }
        with ⟨hcl, hbig, hflag⟩ | ⟨hcl, hfit, hflag, hrem⟩ | ⟨hcl, hte, hflag, hdone⟩ |
          ⟨hcl, hte, hflag, hdone⟩
      · exact .tooBig hcl hbig hflag
      · exact .sized hcl hfit hflag hrem
      · exact .empty hcl hte hflag hdone
      · exact .chunked hcl hte hflag hdone

/-- The outcome of `on_headers_complete` once every field is finalised. -/
inductive FramingDecision (vh : Option Vhost) (t r : Http1State) : Prop
  /-- The length, the expectation or the combination of length and coding is rejected. -/
  | rejected
      (hbad : (t.framing.clInvalid = true ∨ 1 < t.framing.clCount) ∨
        t.framing.expectUnsupported = true ∨ (0 < t.framing.teCount ∧ 0 < t.framing.clCount))
      (hparse : r.parseError = true)
  /-- The transfer coding is not exactly `chunked`. -/
  | unsupported (hcl : ¬ (t.framing.clInvalid = true ∨ 1 < t.framing.clCount))
      (hboth : ¬ (0 < t.framing.teCount ∧ 0 < t.framing.clCount))
      (hte : 0 < t.framing.teCount)
      (hcoding : ¬ (t.framing.teChunked = true ∧ t.framing.teOther = false))
      (hflag : r.unsupportedTe = true)
  /-- The framing is accepted. -/
  | passed (hcl : ¬ (t.framing.clInvalid = true ∨ 1 < t.framing.clCount))
      (hexpect : t.framing.expectUnsupported = false)
      (hboth : ¬ (0 < t.framing.teCount ∧ 0 < t.framing.clCount))
      (hcoding : 0 < t.framing.teCount → t.framing.teChunked = true ∧ t.framing.teOther = false)
      (hrequest : RequestDecision vh t r)

lemma h1CompleteFraming_decision (vh : Option Vhost) {t : Http1State} (ht : t.CleanBuffers) :
    FramingDecision vh t (h1CompleteFraming vh t) := by
  unfold h1CompleteFraming
  dsimp only
  split_ifs with hcl hexpect hboth hcoding
  · exact .rejected (Or.inl hcl) rfl
  · exact .rejected (Or.inr (Or.inl hexpect)) rfl
  · exact .rejected (Or.inr (Or.inr hboth)) rfl
  · refine .unsupported hcl hboth hcoding.1 ?_ rfl
    simpa using hcoding.2
  · refine .passed hcl (by simpa using hexpect) hboth ?_ (h1CompleteRequest_decision vh ht)
    intro hte
    by_contra h
    exact hcoding ⟨hte, by simpa using h⟩

end Lamseryn
