import Lamseryn.Properties.Framing

/-!
# Trailers

Trailer fields of a chunked message reach the server through the same two callbacks as header
fields, and `on_headers_complete` leaves the accumulator open on the last header field.  So the
fields that the trailer callbacks finalise are the last header field once more and every trailer
field but the last (`runCallbacks_pieces` from the reader state the header section left).

`trailerIsolation_iff` says when this is invisible at dispatch time: exactly when none of these
fields, up to the field limit, changes a captured header, the framing state or an `Expect` flag.
-/

namespace Lamseryn

open ByteText FieldAssembly

/-! ## What request handling sees of the header section -/

/-- The framing state and the `Expect` flags that request handling reads. -/
structure FramingView where
  clCount : UInt8
  clValue : ℕ
  clInvalid : Bool
  teCount : UInt8
  teChunked : Bool
  teOther : Bool
  expect100Continue : Bool
  expectUnsupported : Bool
  deriving DecidableEq

/-- The captured headers and the framing state that request handling reads. -/
structure DispatchView where
  reqHdrs : List ReqHdrEntry
  reqHdrSeenMask : BitVec 64
  framing : FramingView
  deriving DecidableEq

/-- The view of a framing state. -/
def Framing.view (fr : Framing) : FramingView :=
  ⟨fr.clCount, fr.clValue, fr.clInvalid, fr.teCount, fr.teChunked, fr.teOther,
    fr.expect100Continue, fr.expectUnsupported⟩

/-- The view of a request state. -/
def Http1State.dispatchView (s : Http1State) : DispatchView :=
  ⟨s.hdrs.reqHdrs, s.hdrs.reqHdrSeenMask, s.framing.view⟩

/-! ## One field -/

/-- The next named field trips the limit. -/
def fieldLimitHit (s : Http1State) : Prop :=
  s.hdrFieldsMax ≠ 0 ∧ s.hdrFieldsMax < nextFieldsCount s

lemma cutName_ne_nil {n : Bytes} (h : n ≠ []) : cutName n ≠ [] := by
  obtain ⟨a, n, rfl⟩ := List.exists_cons_of_ne_nil h
  simp [cutName, lower, reqHdrNameMax]

lemma h1ProcessHeader_of_limit (s : Http1State) (hname : s.acc.hdrName ≠ [])
    (hbig : s.headerTooBig = false) (herr : s.internalError = false) (hhit : fieldLimitHit s) :
    h1ProcessHeader s =
      { s with
        hdrFieldsCount := nextFieldsCount s
        headerTooBig := true
        headerFieldsTooMany := true
        wantKeepalive := false } := by
  have hseen : http1HeaderFieldSeen s =
      { s with
        hdrFieldsCount := nextFieldsCount s
        headerTooBig := true
        headerFieldsTooMany := true
        wantKeepalive := false } := by
    unfold http1HeaderFieldSeen
    rw [if_neg (by simp [hbig]), if_neg hname]
    exact if_pos hhit
  rw [h1ProcessHeader, hseen]
  simp [herr]

/-- The state in which a field below the limit is looked at. -/
def Http1State.counted (s : Http1State) : Http1State :=
  { s with hdrFieldsCount := nextFieldsCount s }

lemma h1ProcessHeader_of_room (s : Http1State) (hname : s.acc.hdrName ≠ [])
    (hbig : s.headerTooBig = false) (herr : s.internalError = false) (hroom : ¬ fieldLimitHit s) :
    h1ProcessHeader s = h1FrameHeader (h1CaptureHeader s.counted) := by
  have hseen : http1HeaderFieldSeen s = s.counted := by
    unfold http1HeaderFieldSeen
    rw [if_neg (by simp [hbig]), if_neg hname]
    exact if_neg hroom
  have hbig' : s.counted.headerTooBig = false := hbig
  simp [h1ProcessHeader, hseen, herr, hbig']

/-- The state in which `h1_finalize_interested_header` looks at the field `f`. -/
def Http1State.openOn (s : Http1State) (f : HeaderField) : Http1State :=
  { s with
    acc := accumOf (.value f.name f.value)
    finalized := s.finalized ++ [cutField f] }

lemma finalizeField_eq (s : Http1State) (f : HeaderField) :
    finalizeField s f = h1ProcessHeader (s.openOn f) := rfl

lemma finalizeField_of_limit (s : Http1State) (f : HeaderField) (hname : f.name ≠ [])
    (hbig : s.headerTooBig = false) (herr : s.internalError = false) (hhit : fieldLimitHit s) :
    (finalizeField s f).hdrs = s.hdrs ∧ (finalizeField s f).headerTooBig = true := by
  rw [finalizeField_eq, h1ProcessHeader_of_limit (s.openOn f) (cutName_ne_nil hname) hbig herr hhit]
  exact ⟨rfl, rfl⟩

lemma finalizeField_of_unwanted (s : Http1State) (f : HeaderField) (hname : f.name ≠ [])
    (hbig : s.headerTooBig = false) (herr : s.internalError = false) (hroom : ¬ fieldLimitHit s)
    (hwant : h1WantedHeader s.hdrs (cutName f.name) = none) :
    (finalizeField s f).hdrs = s.hdrs := by
  rw [finalizeField_eq, h1ProcessHeader_of_room (s.openOn f) (cutName_ne_nil hname) hbig herr hroom]
  have hwant' : h1WantedHeader (s.openOn f).counted.hdrs (s.openOn f).counted.acc.hdrName = none :=
    hwant
  have hcapture : h1CaptureHeader (s.openOn f).counted = (s.openOn f).counted := by
    rw [h1CaptureHeader, hwant']
  obtain ⟨fr, hframe⟩ := h1FrameHeader_cases (s.openOn f).counted
  rw [hcapture, hframe]
  rfl

lemma finalizeField_of_wanted (s : Http1State) (f : HeaderField) (hname : f.name ≠ [])
    (hbig : s.headerTooBig = false) (herr : s.internalError = false) (hroom : ¬ fieldLimitHit s)
    {id : HttpHeaderId} (hwant : h1WantedHeader s.hdrs (cutName f.name) = some id) :
    (finalizeField s f).hdrs.reqHdrSeenMask = s.hdrs.reqHdrSeenMask ||| httpHeaderBit id := by
  rw [finalizeField_eq, h1ProcessHeader_of_room (s.openOn f) (cutName_ne_nil hname) hbig herr hroom]
  have hwant' :
      h1WantedHeader (s.openOn f).counted.hdrs (s.openOn f).counted.acc.hdrName = some id := hwant
  have hcapture : h1CaptureHeader (s.openOn f).counted = h1StoreHeader (s.openOn f).counted id := by
    rw [h1CaptureHeader, hwant']
  obtain ⟨fr, hframe⟩ := h1FrameHeader_cases (h1StoreHeader (s.openOn f).counted id)
  obtain ⟨l, cap, r, e, k, hstore, -⟩ := h1StoreHeader_cases (s.openOn f).counted id
  rw [hcapture, hframe, hstore]
  rfl

/-! ## A list of fields -/

lemma finalizeField_headerTooBig_iff (s : Http1State) (f : HeaderField) (hname : f.name ≠ [])
    (hbig : s.headerTooBig = false) (herr : s.internalError = false) :
    (finalizeField s f).headerTooBig = true ↔ fieldLimitHit s := by
  constructor
  · intro h
    by_contra hroom
    rw [finalizeField_eq, h1ProcessHeader_of_room (s.openOn f) (cutName_ne_nil hname) hbig herr
      hroom] at h
    obtain ⟨fr, hframe⟩ := h1FrameHeader_cases (h1CaptureHeader (s.openOn f).counted)
    obtain ⟨hd, r, e, k, hcap⟩ := h1CaptureHeader_cases (s.openOn f).counted
    rw [hframe, hcap] at h
    exact absurd (hbig.symm.trans h) (by decide)
  · exact fun hhit => (finalizeField_of_limit s f hname hbig herr hhit).2

lemma finalizeField_hdrFieldsCount (s : Http1State) (f : HeaderField) (hname : f.name ≠ [])
    (hbig : s.headerTooBig = false) (herr : s.internalError = false) :
    (finalizeField s f).hdrFieldsCount = nextFieldsCount s := by
  rw [finalizeField_eq]
  by_cases hhit : fieldLimitHit s
  · rw [h1ProcessHeader_of_limit (s.openOn f) (cutName_ne_nil hname) hbig herr hhit]
    rfl
  · rw [h1ProcessHeader_of_room (s.openOn f) (cutName_ne_nil hname) hbig herr hhit]
    obtain ⟨fr, hframe⟩ := h1FrameHeader_cases (h1CaptureHeader (s.openOn f).counted)
    obtain ⟨hd, r, e, k, hcap⟩ := h1CaptureHeader_cases (s.openOn f).counted
    rw [hframe, hcap]
    rfl

/-- `n` more fields pass the field limit.  The counter saturates, so the largest limit is never
passed. -/
def Http1State.overFieldLimit (s : Http1State) (n : ℕ) : Prop :=
  s.hdrFieldsMax ≠ 0 ∧ s.hdrFieldsMax < uint16Max ∧ s.hdrFieldsMax < s.hdrFieldsCount + n

/-- A counter that has not passed the limit. -/
structure Http1State.CountOk (s : Http1State) : Prop where
  small : s.hdrFieldsCount ≤ uint16Max
  limit : s.hdrFieldsMax = 0 ∨ s.hdrFieldsCount ≤ s.hdrFieldsMax

lemma nextFieldsCount_le {s : Http1State} (h : s.hdrFieldsCount ≤ uint16Max) :
    nextFieldsCount s ≤ uint16Max := by
  unfold nextFieldsCount
  split_ifs <;> omega

lemma overFieldLimit_of_hit {s : Http1State} (hc : s.CountOk) (hhit : fieldLimitHit s) (n : ℕ) :
    s.overFieldLimit (n + 1) := by
  have hsmall := nextFieldsCount_le hc.small
  obtain ⟨hmax, hlt⟩ := hhit
  refine ⟨hmax, by omega, ?_⟩
  unfold nextFieldsCount at hlt
  split_ifs at hlt <;> omega

lemma overFieldLimit_succ {s s' : Http1State} (hmax : s'.hdrFieldsMax = s.hdrFieldsMax)
    (hcount : s'.hdrFieldsCount = nextFieldsCount s) (n : ℕ) :
    s'.overFieldLimit n ↔ s.overFieldLimit (n + 1) := by
  unfold Http1State.overFieldLimit
  rw [hmax, hcount]
  unfold nextFieldsCount
  split_ifs <;> omega

/-- With memory available, a list of named fields trips the limit exactly when it is longer than
what the limit leaves. -/
lemma foldl_finalizeField_headerTooBig_iff (s : Http1State) (fs : List HeaderField)
    (hname : ∀ f ∈ fs, f.name ≠ []) (hbig : s.headerTooBig = false)
    (herr : s.internalError = false) (harena : s.arena = []) (hc : s.CountOk) :
    (fs.foldl finalizeField s).headerTooBig = true ↔ s.overFieldLimit fs.length := by
  induction fs generalizing s with
  | nil =>
    refine iff_of_false (by simp [hbig]) ?_
    rintro ⟨hmax, -, hlt⟩
    rcases hc.limit with h | h
    · exact hmax h
    · simp only [List.length_nil, Nat.add_zero] at hlt
      omega
  | cons f fs ih =>
    have hf := hname f (by simp)
    rw [List.foldl_cons, List.length_cons]
    by_cases hhit : fieldLimitHit s
    · exact iff_of_true (foldl_finalizeField_headerTooBig _ fs
        (finalizeField_of_limit s f hf hbig herr hhit).2) (overFieldLimit_of_hit hc hhit _)
    · have hbig' : (finalizeField s f).headerTooBig = false := by
        simpa [hhit] using finalizeField_headerTooBig_iff s f hf hbig herr
      obtain ⟨-, harena', herr'⟩ := finalizeField_framing s f harena herr hbig'
      have hcount := finalizeField_hdrFieldsCount s f hf hbig herr
      have hmax := finalizeField_hdrFieldsMax s f
      have hc' : (finalizeField s f).CountOk := by
        refine ⟨hcount ▸ nextFieldsCount_le hc.small, ?_⟩
        rw [hmax, hcount]
        unfold fieldLimitHit at hhit
        omega
      rw [ih _ (fun g hg => hname g (by simp [hg])) hbig' herr' harena' hc']
      exact overFieldLimit_succ hmax hcount _

lemma finalizeField_seenMask (s : Http1State) (f : HeaderField) (hname : f.name ≠ [])
    (hbig : s.headerTooBig = false) (herr : s.internalError = false) :
    ∃ m, (finalizeField s f).hdrs.reqHdrSeenMask = s.hdrs.reqHdrSeenMask ||| m := by
  by_cases hhit : fieldLimitHit s
  · exact ⟨0, by rw [(finalizeField_of_limit s f hname hbig herr hhit).1]; simp⟩
  · rcases hwant : h1WantedHeader s.hdrs (cutName f.name) with _ | id
    · exact ⟨0, by rw [finalizeField_of_unwanted s f hname hbig herr hhit hwant]; simp⟩
    · exact ⟨_, finalizeField_of_wanted s f hname hbig herr hhit hwant⟩

lemma headerTooBig_of_foldl {s : Http1State} {f : HeaderField} {fs : List HeaderField}
    (hbig : ((f :: fs).foldl finalizeField s).headerTooBig = false) :
    s.headerTooBig = false ∧ (finalizeField s f).headerTooBig = false := by
  have hstep : (finalizeField s f).headerTooBig = false := by
    by_contra h
    rw [List.foldl_cons, foldl_finalizeField_headerTooBig _ fs (by simpa using h)] at hbig
    exact Bool.noConfusion hbig
  refine ⟨?_, hstep⟩
  by_contra h
  rw [finalizeField_headerTooBig s f (by simpa using h)] at hstep
  exact Bool.noConfusion hstep

section Fold

variable {s : Http1State} {fs : List HeaderField}

lemma foldl_finalizeField_seenMask (hname : ∀ f ∈ fs, f.name ≠ []) (harena : s.arena = [])
    (herr : s.internalError = false) (hbig : (fs.foldl finalizeField s).headerTooBig = false) :
    ∃ m, (fs.foldl finalizeField s).hdrs.reqHdrSeenMask = s.hdrs.reqHdrSeenMask ||| m := by
  induction fs generalizing s with
  | nil => exact ⟨0, by simp⟩
  | cons f fs ih =>
    obtain ⟨hbig0, hbig1⟩ := headerTooBig_of_foldl hbig
    obtain ⟨-, harena', herr'⟩ := finalizeField_framing s f harena herr hbig1
    obtain ⟨m, hm⟩ := finalizeField_seenMask s f (hname f (by simp)) hbig0 herr
    obtain ⟨m', hm'⟩ := ih (fun g hg => hname g (by simp [hg])) harena' herr' hbig
    exact ⟨m ||| m', by rw [List.foldl_cons, hm', hm, BitVec.or_assoc]⟩

lemma or_ne_of_and_eq_zero {a b m : BitVec 64} (hnew : a &&& b = 0) (hb : b ≠ 0) :
    a ||| b ||| m ≠ a := by
  intro h
  apply hb
  have habs : (a ||| b ||| m) &&& b = b := by
    ext i
    simp only [BitVec.getElem_and, BitVec.getElem_or]
    cases b[i] <;> simp
  rw [← habs, h, hnew]

lemma httpHeaderBit_ne_zero (id : HttpHeaderId) : httpHeaderBit id ≠ 0 := by
  cases id <;> decide

lemma seenMask_of_wanted {hdrs : ReqHdrs} {name : Bytes} {id : HttpHeaderId}
    (h : h1WantedHeader hdrs name = some id) : hdrs.reqHdrSeenMask &&& httpHeaderBit id = 0 := by
  unfold h1WantedHeader at h
  split_ifs at h
  split at h
  · simp at h
  · split_ifs at h with hmask
    rw [Option.some.injEq] at h
    exact h ▸ hmask.2

/-- With memory available and below the limit, named fields leave the captured headers alone
exactly when none of them is wanted. -/
lemma foldl_finalizeField_hdrs (hname : ∀ f ∈ fs, f.name ≠ []) (harena : s.arena = [])
    (herr : s.internalError = false) (hbig : (fs.foldl finalizeField s).headerTooBig = false) :
    if ∀ f ∈ fs, h1WantedHeader s.hdrs (cutName f.name) = none then
      (fs.foldl finalizeField s).hdrs = s.hdrs
    else (fs.foldl finalizeField s).hdrs.reqHdrSeenMask ≠ s.hdrs.reqHdrSeenMask := by
  induction fs generalizing s with
  | nil => simp
  | cons f fs ih =>
    have hf := hname f (by simp)
    have hfs : ∀ g ∈ fs, g.name ≠ [] := fun g hg => hname g (by simp [hg])
    obtain ⟨hbig0, hbig1⟩ := headerTooBig_of_foldl hbig
    obtain ⟨-, harena', herr'⟩ := finalizeField_framing s f harena herr hbig1
    have hroom : ¬ fieldLimitHit s := by
      rw [← finalizeField_headerTooBig_iff s f hf hbig0 herr, hbig1]
      decide
    rw [List.foldl_cons] at hbig ⊢
    rcases hwant : h1WantedHeader s.hdrs (cutName f.name) with _ | id
    · have hsame := finalizeField_of_unwanted s f hf hbig0 herr hroom hwant
      have hrest := ih hfs harena' herr' hbig
      rw [hsame] at hrest
      simpa [hwant] using hrest
    · -- the field marks its header as seen, and nothing takes the mark away
      rw [if_neg (by simp [hwant])]
      obtain ⟨m, hm⟩ := foldl_finalizeField_seenMask hfs harena' herr' hbig
      rw [hm, finalizeField_of_wanted s f hf hbig0 herr hroom hwant]
      exact or_ne_of_and_eq_zero (seenMask_of_wanted hwant) (httpHeaderBit_ne_zero id)

end Fold

/-! ## The framing state -/

lemma framing_of_accepted {vh : Option Vhost} {t : Http1State}
    (hacc : (h1CompleteFraming vh t).Accepted) :
    ¬ (t.framing.clInvalid = true ∨ 1 < t.framing.clCount) ∧
      t.framing.expectUnsupported = false ∧
      ¬ (0 < t.framing.teCount ∧ 0 < t.framing.clCount) ∧
      (0 < t.framing.teCount → t.framing.teChunked = true ∧ t.framing.teOther = false) := by
  obtain ⟨hparse, hte, -⟩ := hacc
  unfold h1CompleteFraming at hparse hte
  dsimp only at hparse hte
  split_ifs at hparse hte with hcl hexpect hboth hcoding
  · simp [Http1State.rejectFraming] at hparse
  · simp [Http1State.rejectFraming] at hparse
  · simp [Http1State.rejectFraming] at hparse
  · refine ⟨hcl, by simpa using hexpect, hboth, fun hpos => ?_⟩
    by_contra h
    exact hcoding ⟨hpos, by simpa using h⟩

/-- Fields that add nothing to the framing state of a chunked request: no `Content-Length`, no
number of `Transfer-Encoding` fields that the counter shows and none with another coding, and no
`Expect` that was not there before. -/
structure FramingInert (fr : Framing) (fs : List HeaderField) : Prop where
  noLength : ∀ f ∈ fs, isContentLength f = false
  codings : fs.countP isTransferEncoding % 256 = 0
  chunked : ∀ f ∈ fs, isTransferEncoding f = true → ∀ t ∈ valueTokens f, t = ascii "chunked"
  expected : ∀ f ∈ fs, isExpect f = true →
    h1ExpectValueSupported (cutValue f.value) = true ∧ fr.expect100Continue = true

lemma add_ofNat_eq_self_iff (c : UInt8) (n : ℕ) : c + UInt8.ofNat n = c ↔ n % 256 = 0 := by
  rw [UInt8.add_eq_left, ← UInt8.toNat_inj]
  simp

/-- A `Content-Length` among further fields always shows, in the count or in the invalid flag. -/
lemma foldl_addField_cl_iff (fr : Framing) (fs : List HeaderField) (hzero : fr.clCount = 0)
    (hvalid : fr.clInvalid = false) :
    ((fs.foldl Framing.addField fr).clCount = fr.clCount ∧
        (fs.foldl Framing.addField fr).clInvalid = fr.clInvalid) ↔
      ∀ f ∈ fs, isContentLength f = false := by
  rw [foldl_addField_clCount, add_ofNat_eq_self_iff]
  constructor
  · rintro ⟨hcount, hinv⟩
    rcases Nat.lt_or_ge (fs.countP isContentLength) 2 with hlt | htwo
    · have h0 : fs.countP isContentLength = 0 := by omega
      simpa using List.countP_eq_zero.mp h0
    · rw [foldl_addField_clInvalid fr fs (Or.inr (Or.inr (Or.inl ⟨hzero, htwo⟩))), hvalid] at hinv
      exact absurd hinv (by decide)
  · intro hnone
    have h0 : fs.countP isContentLength = 0 := by simpa using hnone
    exact ⟨by rw [h0], (foldl_addField_cl_of_none fr fs hnone).1⟩

/-- The framing state of an accepted chunked request stays as it is exactly under inert fields. -/
lemma foldl_addField_view_iff (fr : Framing) (fs : List HeaderField) (hzero : fr.clCount = 0)
    (hvalid : fr.clInvalid = false) (hchunked : fr.teChunked = true) (hother : fr.teOther = false)
    (hexpect : fr.expectUnsupported = false) :
    (fs.foldl Framing.addField fr).view = fr.view ↔ FramingInert fr fs := by
  obtain ⟨hte, htec, hteo⟩ := foldl_addField_te fr fs
  obtain ⟨hsup, huns⟩ := foldl_addField_expect fr fs
  have hcl := foldl_addField_cl_iff fr fs hzero hvalid
  simp only [Framing.view, FramingView.mk.injEq]
  constructor
  · rintro ⟨h1, -, h2, h3, -, h4, h5, h6⟩
    rw [hte, add_ofNat_eq_self_iff] at h3
    rw [hteo, hother, Bool.false_or, List.any_eq_false] at h4
    rw [huns, hexpect, Bool.false_or, List.any_eq_false] at h6
    refine ⟨hcl.mp ⟨h1, h2⟩, h3, fun f hf hfte t ht => ?_, fun f hf hfex => ?_⟩
    · by_contra hne
      refine h4 f hf ?_
      rw [hfte, Bool.true_and, List.any_eq_true]
      exact ⟨t, ht, by simpa using hne⟩
    · have hs : h1ExpectValueSupported (cutValue f.value) = true := by
        simpa [hfex] using h6 f hf
      refine ⟨hs, ?_⟩
      rw [← h5, hsup]
      simp only [Bool.or_eq_true, List.any_eq_true, Bool.and_eq_true]
      exact Or.inr ⟨f, hf, hfex, hs⟩
  · intro h
    obtain ⟨h1, h2⟩ := hcl.mpr h.noLength
    refine ⟨h1, (foldl_addField_cl_of_none fr fs h.noLength).2, h2, ?_, ?_, ?_, ?_, ?_⟩
    · rw [hte, add_ofNat_eq_self_iff]
      exact h.codings
    · rw [htec, hchunked, Bool.true_or]
    · rw [hteo, hother, Bool.false_or, List.any_eq_false]
      intro f hf
      rw [Bool.and_eq_true, List.any_eq_true, not_and]
      rintro hfte ⟨t, ht, hne⟩
      exact absurd (h.chunked f hf hfte t ht) (by simpa using hne)
    · rw [hsup, Bool.or_eq_left_iff_imp, List.any_eq_true]
      rintro ⟨f, hf, hfex⟩
      exact (h.expected f hf (Bool.and_eq_true _ _ ▸ hfex).1).2
    · rw [huns, hexpect, Bool.false_or, List.any_eq_false]
      intro f hf hfex
      rw [Bool.and_eq_true] at hfex
      simp [(h.expected f hf hfex.1).1] at hfex

/-! ## From the end of the headers to the end of the message -/

/-- `on_headers_complete` leaves the accumulator open on the last header field. -/
lemma headersState_acc (s : Http1State) (ds : List HeaderDelivery) (method : LlhttpMethod)
    (keepAlive : Bool) :
    (headersState s ds method keepAlive).acc =
      accumOf (Pending.idle.feed (ds.flatMap Delivery.pieces)).1 := by
  unfold headersState
  dsimp only
  cases hp : (Pending.idle.feed (ds.flatMap Delivery.pieces)).1 with
  | idle => rfl
  | name n => rfl
  | value n v => simp only [Pending.flush, List.foldl_cons, List.foldl_nil, finalizeField_acc]

lemma foldl_finalizeField_count_le (s : Http1State) (fs : List HeaderField)
    (hsmall : s.hdrFieldsCount ≤ uint16Max) :
    (fs.foldl finalizeField s).hdrFieldsCount ≤ uint16Max := by
  induction fs generalizing s with
  | nil => exact hsmall
  | cons f fs ih =>
    refine ih _ ?_
    rw [finalizeField_eq]
    obtain ⟨n, b, t, h, r, e, k, fr, heq, hn, -⟩ := h1ProcessHeader_cases (s.openOn f)
    rw [heq]
    rcases hn with hn | hn
    · exact hn.trans_le hsmall
    · exact hn.trans_le (nextFieldsCount_le hsmall)

lemma runCallbacks_body (vh : Option Vhost) (s : Http1State) (bs : List Bytes)
    (h : (runCallbacks vh s (bs.map .body)).2 = false) :
    ∃ n, runCallbacks vh s (bs.map .body) = ({ s with bodyBytes := n }, false) := by
  induction bs generalizing s with
  | nil => exact ⟨s.bodyBytes, rfl⟩
  | cons b bs ih =>
    have hstep : (onBody s b).2 = true ∨ ∃ n, onBody s b = ({ s with bodyBytes := n }, false) := by
      unfold onBody
      dsimp only
      split_ifs
      · exact Or.inr ⟨s.bodyBytes, rfl⟩
      · exact Or.inl rfl
      · exact Or.inl rfl
      · exact Or.inr ⟨_, rfl⟩
    rw [List.map_cons, runCallbacks, Callback.run] at h ⊢
    rcases hstep with hstop | ⟨n, hn⟩
    · rcases hb : onBody s b with ⟨s', stop⟩
      rw [hb] at h hstop
      simp only at hstop
      subst hstop
      exact absurd h (by simp)
    · rw [hn] at h ⊢
      obtain ⟨m, hm⟩ := ih _ h
      exact ⟨m, hm⟩

/-- The fields that the trailer callbacks finalise: the reader goes on from the state that the
header section left. -/
def trailerFields (hs ts : List HeaderDelivery) : List HeaderField :=
  ((Pending.idle.feed (hs.flatMap Delivery.pieces)).1.feed (ts.flatMap Delivery.pieces)).2

/-- The callbacks of a chunked message after `on_headers_complete`: its body, its trailers and
`on_message_complete`. -/
def bodyAndTrailers (bs : List Bytes) (ts : List HeaderDelivery) : List Callback :=
  bs.map .body ++ (headerCallbacks ts ++ [.messageComplete])

/-- Trailers are invisible: if the request is still accepted when its message is complete, request
handling sees of it what `on_headers_complete` left. -/
def TrailersIsolated (vh : Option Vhost) (s : Http1State) (bs : List Bytes)
    (ts : List HeaderDelivery) : Prop :=
  let r := (runCallbacks vh s (bodyAndTrailers bs ts)).1
  r.Accepted → r.dispatchView = s.dispatchView

/-- Fields that leave the view of a request alone: none is wanted as a captured header and none adds
to the framing state. -/
structure TrailersInert (hdrs : ReqHdrs) (fr : Framing) (fs : List HeaderField) : Prop where
  unwanted : ∀ f ∈ fs, h1WantedHeader hdrs (cutName f.name) = none
  framing : FramingInert fr fs

/-- What an accepted header section leaves for the trailers: the accumulator of the reader, a field
counter that has not passed its limit, and a framing state without a length. -/
structure AfterHeaders (hs : List HeaderDelivery) (s : Http1State) : Prop where
  acc : s.acc = accumOf (Pending.idle.feed (hs.flatMap Delivery.pieces)).1
  count : s.CountOk
  clInvalid : s.framing.clInvalid = false
  expect : s.framing.expectUnsupported = false
  chunked : 0 < s.framing.teCount →
    s.framing.clCount = 0 ∧ s.framing.teChunked = true ∧ s.framing.teOther = false

lemma afterHeaders {vh : Option Vhost} {s0 s : Http1State} {hs : List HeaderDelivery}
    {method : LlhttpMethod} {keepAlive : Bool} (hs0 : s0.AtHeaders)
    (hname : ∀ d ∈ hs, d.field.name ≠ []) (hlimit : withinFieldLimit s0 hs)
    (hrun : runCallbacks vh s0 (headerCallbacks hs ++ [.headersComplete method keepAlive])
      = (s, false))
    (hacc : s.Accepted) : AfterHeaders hs s := by
  rw [runCallbacks_headers vh hs0 hname hlimit method keepAlive, Prod.mk.injEq] at hrun
  obtain ⟨rfl, -⟩ := hrun
  have hpart := h1CompleteFraming_headerPart vh (headersState s0 hs method keepAlive).clearBody
  have hframing := congrArg HeaderPart.framing hpart
  have hcount := congrArg HeaderPart.hdrFieldsCount hpart
  have hmax := congrArg HeaderPart.hdrFieldsMax hpart
  obtain ⟨hcl, hexpect, hboth, hcoding⟩ := framing_of_accepted hacc
  simp only [Http1State.headerPart] at hframing hcount hmax
  rw [← hframing] at hcl hexpect hboth hcoding
  obtain ⟨hinvalid, -⟩ := not_or.mp hcl
  refine ⟨(congrArg HeaderPart.acc hpart).trans (headersState_acc s0 hs method keepAlive),
    ⟨?_, ?_⟩, by simpa using hinvalid, hexpect, fun hpos => ⟨?_, hcoding hpos⟩⟩
  · rw [hcount]
    refine foldl_finalizeField_count_le _ _ (foldl_finalizeField_count_le s0 _ ?_)
    rw [hs0.hdrFieldsCount]
    exact Nat.zero_le _
  · rw [hcount, hmax]
    refine Or.imp (fun h => ?_) (fun h => ?_) hlimit
    · exact (headersState_hdrFieldsMax s0 hs method keepAlive).trans h
    · refine (headersState_hdrFieldsCount_le hs0 hname method keepAlive).trans (h.trans_eq ?_)
      exact (headersState_hdrFieldsMax s0 hs method keepAlive).symm
  · by_contra hne
    exact hboth ⟨hpos, UInt8.pos_iff_ne_zero.mpr hne⟩

/-- The trailer callbacks alone, from a state that a header section and its body have left. -/
lemma trailers_iff (vh : Option Vhost) {s : Http1State} {hs ts : List HeaderDelivery}
    (hafter : AfterHeaders hs s) (hname : ∀ d ∈ hs, d.field.name ≠ [])
    (htname : ∀ d ∈ ts, d.field.name ≠ []) (hacc : s.Accepted) (hchunked : 0 < s.framing.teCount)
    (harena : s.arena = []) :
    ((runCallbacks vh s (headerCallbacks ts ++ [.messageComplete])).1.Accepted →
        (runCallbacks vh s (headerCallbacks ts ++ [.messageComplete])).1.dispatchView
          = s.dispatchView) ↔
      s.overFieldLimit (trailerFields hs ts).length ∨
        TrailersInert s.hdrs s.framing (trailerFields hs ts) := by
  obtain ⟨hparse, hte, hbody, hbig, herr⟩ := hacc
  have hnamed : ∀ f ∈ trailerFields hs ts, f.name ≠ [] :=
    (Pending.feed_named _ ts (Pending.feed_named .idle hs trivial hname).1 htname).2
  have hover := foldl_finalizeField_headerTooBig_iff s _ hnamed hbig herr harena hafter.count
  rw [headerCallbacks]
  by_cases hlimit : s.overFieldLimit (trailerFields hs ts).length
  · -- the request is rejected, so nothing is asked of its view
    refine iff_of_true (fun h => ?_) (Or.inl hlimit)
    obtain ⟨s', hs', hbig'⟩ := runCallbacks_pieces_headerTooBig vh s _ _ hafter.acc
      (hover.mpr hlimit)
    rw [runCallbacks_append hs'] at h
    exact absurd (hbig'.symm.trans h.2.2.2.1) (by decide)
  · have hbig' : ((trailerFields hs ts).foldl finalizeField s).headerTooBig = false := by
      simpa [hlimit] using hover
    have hpieces : ∃ a, runCallbacks vh s ((ts.flatMap Delivery.pieces).map pieceCallback) =
        ({ (trailerFields hs ts).foldl finalizeField s with acc := a }, false) :=
      ⟨_, runCallbacks_pieces vh s _ _ hafter.acc hbig'⟩
    obtain ⟨a, hpieces⟩ := hpieces
    rw [runCallbacks_append hpieces, or_iff_right hlimit]
    obtain ⟨hfr, -, herr'⟩ := foldl_finalizeField_framing s _ harena herr hbig'
    have hpart := foldl_finalizeField_requestPart s (trailerFields hs ts)
    have hhdrs := foldl_finalizeField_hdrs hnamed harena herr hbig'
    obtain ⟨hzero, hch, hoth⟩ := hafter.chunked hchunked
    have hview := foldl_addField_view_iff s.framing (trailerFields hs ts) hzero hafter.clInvalid hch
      hoth hafter.expect
    rw [← hfr] at hview
    simp only [runCallbacks, Callback.run, onMessageComplete]
    generalize (trailerFields hs ts).foldl finalizeField s = r at *
    constructor
    · intro h
      have hsame := h ⟨(congrArg RequestPart.parseError hpart).trans hparse,
        (congrArg RequestPart.unsupportedTe hpart).trans hte,
        (congrArg RequestPart.bodyTooBig hpart).trans hbody, hbig', herr'⟩
      refine ⟨?_, hview.mp (congrArg DispatchView.framing hsame)⟩
      by_contra hwant
      rw [if_neg hwant] at hhdrs
      exact hhdrs (congrArg DispatchView.reqHdrSeenMask hsame)
    · rintro hinert -
      rw [if_pos hinert.unwanted] at hhdrs
      simp only [Http1State.dispatchView, hhdrs, hview.mpr hinert.framing]

/-- **Trailer isolation.**  For every accepted chunked request and every trailer section, request
handling sees what `on_headers_complete` left exactly when the fields that the trailer callbacks
finalise are inert, or so many that the request is rejected for them.  Those fields are not only
trailers: the last header field is finalised a second time. -/
theorem trailersIsolated_iff (vh : Option Vhost) (s0 s : Http1State) (hs ts : List HeaderDelivery)
    (bs : List Bytes) (method : LlhttpMethod) (keepAlive : Bool) (hs0 : s0.AtHeaders)
    (hname : ∀ d ∈ hs, d.field.name ≠ []) (htname : ∀ d ∈ ts, d.field.name ≠ [])
    (hlimit : withinFieldLimit s0 hs)
    (hrun : runCallbacks vh s0 (headerCallbacks hs ++ [.headersComplete method keepAlive])
      = (s, false))
    (hacc : s.Accepted) (hchunked : 0 < s.framing.teCount) (harena : s.arena = [])
    (hbody : (runCallbacks vh s (bs.map .body)).2 = false) :
    TrailersIsolated vh s bs ts ↔
      s.overFieldLimit (trailerFields hs ts).length ∨
        TrailersInert s.hdrs s.framing (trailerFields hs ts) := by
  obtain ⟨n, hn⟩ := runCallbacks_body vh s bs hbody
  have hafter := afterHeaders hs0 hname hlimit hrun hacc
  unfold TrailersIsolated bodyAndTrailers
  rw [runCallbacks_append hn]
  -- counting body bytes changes nothing that the trailers depend on
  exact trailers_iff vh (s := { s with bodyBytes := n })
    ⟨hafter.acc, ⟨hafter.count.small, hafter.count.limit⟩, hafter.clInvalid, hafter.expect,
      hafter.chunked⟩ hname htname hacc hchunked harena

/-- A chunked request for `/` from a vhost that captures `Host` and `Connection`. -/
def chunkedStart : Http1State :=
  { rootTarget with hdrs := { reqHdrStoreMask := 3 } }

/-- A trailer after a section that ends in an inert field changes nothing. -/
theorem trailersIsolated_after_accept :
    TrailersIsolated none
      (runCallbacks none chunkedStart
        (headerCallbacks [wholeField "Transfer-Encoding" "chunked", wholeField "Accept" "a"]
          ++ [.headersComplete .get true])).1
      [ascii "abc"] [wholeField "X" "y"] :=
  (trailersIsolated_iff none chunkedStart _
    [wholeField "Transfer-Encoding" "chunked", wholeField "Accept" "a"] [wholeField "X" "y"]
    [ascii "abc"] .get true ⟨rfl, rfl, rfl, rfl, rfl⟩ (by decide) (by decide) (Or.inl rfl)
    (Prod.ext rfl (by decide +kernel)) (by unfold Http1State.Accepted; decide +kernel)
    (by decide +kernel) (by decide +kernel) (by decide +kernel)).mpr
    (Or.inr ⟨by decide +kernel, by decide +kernel, by decide +kernel, by decide +kernel,
      by decide +kernel⟩)

/-- When `Transfer-Encoding` is the last header field, any trailer makes it count twice. -/
theorem trailersIsolated_fails_after_coding :
    ¬ TrailersIsolated none
      (runCallbacks none chunkedStart
        (headerCallbacks [wholeField "Host" "x", wholeField "Transfer-Encoding" "chunked"]
          ++ [.headersComplete .get true])).1
      [ascii "abc"] [wholeField "X" "y"] := by
  unfold TrailersIsolated Http1State.Accepted
  decide +kernel

end Lamseryn
