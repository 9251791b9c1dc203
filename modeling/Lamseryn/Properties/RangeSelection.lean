import Lamseryn.Properties.HealthyServing

/-!
# The choice of a range

A `GET` with a `Range` header, where ranges are served, a regular file is requested and nothing fails
(`Unfailing`).  The answer is decided by the header value, `If-Range` and the size of the file
(`SelectsRange`): 206 with the bytes of the range, 416, or the whole file.  Only policy headers that
do not fit are answered with 500 instead (`staticServe_selects_range`).
-/

namespace Lamseryn

open ByteText CText FileTree

variable {cx : ServeCtx} {w : ServeWorld}

/-! ## `If-Range` -/

/-- What `If-Range` asks for, unless it is absent or empty: the strong tag `etag`, or, where it is not a
tag at all, exactly the second of the last modification. -/
def IfRangeHolds (hdrs : List ReqHdrEntry) (st : FileStat) (etag : Bytes) : Prop :=
  ∀ ir, httpHeaderFindValue hdrs .ifRange = some ir → ir ≠ [] →
    ir = etag ∨ ir.head? ≠ some 34 ∧ ¬ ascii "W/" <+: ir ∧
      staticServeParseHttpDate ir = some st.mtimeSec

lemma staticServeIfRangeMatches_iff {hdrs : List ReqHdrEntry} {st : FileStat} {etag : Bytes}
    (hetag : etag ≠ [] → 2 ≤ etag.length ∧ etag.head? = some 34) :
    staticServeIfRangeMatches hdrs st etag = true ↔ IfRangeHolds hdrs st etag := by
  unfold staticServeIfRangeMatches IfRangeHolds
  cases hfind : httpHeaderFindValue hdrs .ifRange with
  | none => simp
  | some ir =>
    by_cases hempty : ir = []
    · subst hempty
      simp [Option.filter]
    · have hfilter : (some ir).filter (· ≠ []) = some ir := by simp [Option.filter, hempty]
      rw [hfilter]
      dsimp only
      rw [headerDate_eq]
      simp only [Option.some.injEq, forall_eq', ne_eq, hempty, not_false_eq_true, forall_const]
      by_cases hquoted : 2 ≤ ir.length ∧ ir.head? = some 34
      · rw [if_pos hquoted]
        simp only [hquoted.2, not_true_eq_false, false_and, or_false, Bool.and_eq_true,
          decide_eq_true_eq, beq_iff_eq]
        exact ⟨fun h => h.2, fun h => ⟨h ▸ hempty, h⟩⟩
      · have hne : ir ≠ etag := fun heq => hquoted (heq ▸ hetag (heq ▸ hempty))
        rw [if_neg hquoted]
        simp only [hne, false_or]
        constructor
        · intro h
          split at h
          · cases h
          · rename_i hweak
            obtain ⟨t, ht, heq⟩ := (Option.any_eq_true _ _).mp h
            have hlen := staticServeParseHttpDate_length ht
            refine ⟨fun hhead => hquoted ⟨by omega, hhead⟩, by simpa using hweak, ?_⟩
            rw [ht, eq_of_beq heq]
        · rintro ⟨-, hweak, hparse⟩
          rw [if_neg (by simpa using hweak), hparse]
          simp

/-! ## The requested file -/

/-- Nothing fails that the docroot does not decide. -/
structure Unfailing (w : ServeWorld) : Prop extends Healthy w where
  faults : w.proc.faults = []
  fstats : ∀ b ∈ w.fstats, b = true

lemma openBeneath_calm {d i : ℕ} {relpath : Bytes} {data : FileData} (hfaults : w.proc.faults = [])
    (hfd : 0 ≤ cx.docrootFd) (hroot : w.proc.fds.lookup cx.docrootFd = some d)
    (hfile : fileAt w.proc.tree d relpath = some (i, data)) :
    ∃ fd, (w.openBeneath cx relpath).1 = .ok fd := by
  show ∃ fd, (staticServeOpenatBeneathNofollow cx.docrootFd relpath w.proc).1 = .ok fd
  unfold fileAt docrootFind at hfile
  unfold staticServeOpenatBeneathNofollow
  by_cases hempty : relpath = []
  · simp [hempty] at hfile
  by_cases hslash : relpath.head? = some 47
  · simp [hempty, hslash] at hfile
  rw [if_neg (by rintro (hneg | hnil); exacts [absurd hfd (not_le.mpr hneg), hempty hnil]),
    if_neg hslash]
  rw [if_neg hempty, if_neg hslash] at hfile
  have hcalm := (openBeneathWalk_calm cx.docrootFd (relpath.splitOnP (· == 47)) cx.docrootFd w.proc d
    hfaults hroot).2
  cases hopen : (openBeneathWalk cx.docrootFd cx.docrootFd (relpath.splitOnP (· == 47)) w.proc).1 with
  | ok fd => exact ⟨fd, rfl⟩
  | error e =>
    rw [hcalm e hopen] at hfile
    cases hfile

lemma fileStat_servable (i : ℕ) (data : FileData) : (fileStat i data).servable = true := by
  have hlt := data.size_lt
  have hle : data.bytes.length ≤ sizeMax := by
    unfold sizeMax
    omega
  simp [FileStat.servable, fileStat, hle]

/-- The requested file is opened, if it is a regular one. -/
lemma openRequested_calm {d i : ℕ} {relpath : Bytes} {data : FileData} (hw : Unfailing w)
    (hfd : 0 ≤ cx.docrootFd) (hroot : w.proc.fds.lookup cx.docrootFd = some d)
    (hpath : requestedPath cx = some relpath)
    (hfile : fileAt w.proc.tree d relpath = some (i, data)) :
    ∃ fd w1, openRequested cx w = (.ok (relpath, fd, fileStat i data), w1) := by
  obtain ⟨fd, hopen⟩ := openBeneath_calm hw.faults hfd hroot hfile
  have hnode := (@openOn_of_openBeneath cx w (w.openBeneath cx relpath).2 relpath fd d i data hroot
    hfile (Prod.ext hopen rfl)).nodeAt
  have hfstats : (w.openBeneath cx relpath).2.fstats = w.fstats := rfl
  have hrecord : w.openOrRecord cx relpath = (some fd, (w.openBeneath cx relpath).2) := by
    unfold ServeWorld.openOrRecord
    generalize w.openBeneath cx relpath = out at hopen ⊢
    obtain ⟨r, w1⟩ := out
    cases hopen
    rfl
  generalize (w.openBeneath cx relpath).2 = w1 at hnode hfstats hrecord
  have hstat : (w1.fstat fd).1 = some (fileStat i data) := by
    show (if nextOk w1.fstats then (w1.proc.nodeAt fd).map statOf else none) = _
    rw [hfstats, nextOk_of_all hw.fstats, if_pos rfl, hnode]
    rfl
  refine ⟨fd, (w1.fstat fd).2, ?_⟩
  unfold openRequested
  rw [if_neg (not_lt.mpr hfd), hpath]
  dsimp only
  rw [hrecord]
  dsimp only
  generalize w1.fstat fd = out at hstat ⊢
  obtain ⟨r, w2⟩ := out
  cases hstat
  dsimp only
  rw [if_pos (fileStat_servable i data)]

lemma acceptedCodings_of_range {value : Bytes} (hfeature : cx.features.range = true)
    (hvalue : httpHeaderFindValue cx.h1.hdrs.reqHdrs .range = some value) (ctype : Bytes) :
    acceptedCodings cx ctype = {} := by
  unfold acceptedCodings
  rw [if_neg]
  rintro ⟨-, -, -, hno⟩
  exact hno ⟨hfeature, by rw [hvalue]; rfl⟩

lemma probed_of_range {value : Bytes} (hfeature : cx.features.range = true)
    (hvalue : httpHeaderFindValue cx.h1.hdrs.reqHdrs .range = some value) (relpath : Bytes) (fd : ℤ)
    (st : FileStat) (w : ServeWorld) : probed cx relpath fd st w = (⟨fd, st, none⟩, w) := by
  unfold probed
  rw [acceptedCodings_of_range hfeature hvalue]
  rfl

lemma appliedRange_eq {value : Bytes} (hget : cx.h1.method = .get)
    (hfeature : cx.features.range = true)
    (hvalue : httpHeaderFindValue cx.h1.hdrs.reqHdrs .range = some value) (f : Prepared) :
    appliedRange cx f = (httpRangeParse value).filter fun _ =>
      staticServeIfRangeMatches cx.h1.hdrs.reqHdrs f.sel.st f.etag := by
  unfold appliedRange
  rw [if_pos ⟨hfeature, hget⟩, hvalue]
  dsimp only
  split
  · rename_i hempty
    subst hempty
    rfl
  · rfl

/-! ## The answer -/

/-- The entity tag of a response with the file. -/
def currentEtag (cx : ServeCtx) (st : FileStat) : Bytes :=
  if cx.features.conditional then staticServeFormatEtag 64 st else []

lemma currentEtag_quoted {st : FileStat} (h : currentEtag cx st ≠ []) :
    2 ≤ (currentEtag cx st).length ∧ (currentEtag cx st).head? = some 34 := by
  unfold currentEtag at h ⊢
  split
  · rename_i hcond
    rw [if_pos hcond] at h
    exact staticServeFormatEtag_quoted h
  · rename_i hcond
    rw [if_neg hcond] at h
    exact (h rfl).elim

/-- The policy headers do not fit into a response with the file itself. -/
def PolicyOverflows (cx : ServeCtx) (relpath : Bytes) (st : FileStat) : Prop :=
  (assembledFor cx relpath ⟨0, st, none⟩).overflow = true

/-- The answer to a `Range` header with the value `value`: a response for a file of the content `bytes`,
and what is sent behind its headers. -/
structure SelectsRange (cx : ServeCtx) (value : Bytes) (st : FileStat) (bytes : Bytes)
    (resp : StaticResponse) (sent : Bytes) : Prop where
  range_iff : resp.statusLine = ascii "206 Partial Content" ↔
    ∃ br rr, httpRangeParse value = some br ∧
      IfRangeHolds cx.h1.hdrs.reqHdrs st (currentEtag cx st) ∧
      httpRangeResolve br bytes.length = some rr
  unsatisfiable_iff : resp.statusLine = ascii "416 Range Not Satisfiable" ↔
    ∃ br, httpRangeParse value = some br ∧
      IfRangeHolds cx.h1.hdrs.reqHdrs st (currentEtag cx st) ∧
      httpRangeResolve br bytes.length = none
  unsatisfiable : resp.statusLine = ascii "416 Range Not Satisfiable" →
    resp.extra.lead = headerLine (ascii "Content-Range") (ascii "bytes */" ++ numeral bytes.length)
  whole : resp.statusLine ≠ ascii "206 Partial Content" →
    resp.statusLine ≠ ascii "416 Range Not Satisfiable" →
      resp.statusLine = ascii "200 OK" ∧ resp.extra.coding = none ∧
        resp.contentLen = bytes.length ∧ sent = bytes
  content : resp.statusLine = ascii "206 Partial Content" →
    ∃ start stop, start ≤ stop ∧ stop < bytes.length ∧ resp.extra.coding = none ∧
      resp.extra.lead = headerLine (ascii "Content-Range")
        (ascii "bytes " ++ numeral start ++ ascii "-" ++ numeral stop ++ ascii "/"
          ++ numeral bytes.length) ∧
      resp.contentLen = stop - start + 1 ∧ sent = (bytes.drop start).take (stop - start + 1)

lemma status_ne : ascii "200 OK" ≠ ascii "206 Partial Content" ∧
    ascii "200 OK" ≠ ascii "416 Range Not Satisfiable" ∧
    ascii "206 Partial Content" ≠ ascii "416 Range Not Satisfiable" := by
  decide

section Prepared

variable {w0 : ServeWorld} {f : Prepared} {d i : ℕ} {identity : ℕ × FileData} {data : FileData}
  {value : Bytes}

lemma selectsRange_whole (hget : cx.h1.method = .get)
    (h : PreparedOn cx w0 w f d identity i data) (hcoding : f.sel.coding = none)
    (hdyn : dynEligible cx f = false)
    (hnone : ¬ ∃ br, httpRangeParse value = some br ∧
      IfRangeHolds cx.h1.hdrs.reqHdrs f.sel.st (currentEtag cx f.sel.st)) :
    SelectsRange cx value f.sel.st data.bytes (wholeResponse cx f data.bytes).1
      (wholeResponse cx f data.bytes).2 := by
  obtain ⟨h206, h416, -⟩ := status_ne
  have hwhole : wholeResponse cx f data.bytes = (fullResponse cx f f.sel.st.size, data.bytes) := by
    unfold wholeResponse dynCompress
    rw [if_neg (by rw [hget]; nofun), hdyn, if_neg (by simp)]
  rw [hwhole]
  refine ⟨iff_of_false h206 ?_, iff_of_false h416 ?_, fun h => (h416 h).elim, fun _ _ => ?_,
    fun h => (h206 h).elim⟩
  · rintro ⟨br, rr, hparse, hif, -⟩
    exact hnone ⟨br, hparse, hif⟩
  · rintro ⟨br, hparse, hif, -⟩
    exact hnone ⟨br, hparse, hif⟩
  · exact ⟨rfl, h.coding.trans hcoding, h.size_eq, rfl⟩

/-- A range that applies is the answer. -/
lemma selectsRange_range (h : PreparedOn cx w0 w f d identity i data) (hcoding : f.sel.coding = none)
    {br : ByteRange} (hparse : httpRangeParse value = some br)
    (hif : IfRangeHolds cx.h1.hdrs.reqHdrs f.sel.st (currentEtag cx f.sel.st)) :
    SelectsRange cx value f.sel.st data.bytes (rangeResponse cx f br data.bytes).1
      (rangeResponse cx f br data.bytes).2 := by
  obtain ⟨h206, h416, hdiff⟩ := status_ne
  have hsize := h.size_eq
  have hlt := h.size_lt
  unfold rangeResponse
  rw [hsize]
  cases hresolve : httpRangeResolve br data.bytes.length with
  | some rr =>
    obtain ⟨horder, hstop, hlen⟩ := httpRangeResolve_some (httpRangeParse_valid hparse) hresolve
    have hlead := (@contentRange_eq rr.start rr.stop f.sel.st.size (by omega) (by omega)
      (by omega)).1
    rw [hsize] at hlead
    refine ⟨iff_of_true rfl ⟨br, rr, hparse, hif, hresolve⟩, iff_of_false hdiff ?_,
      fun h => (hdiff h).elim, fun h _ => (h rfl).elim, fun _ => ?_⟩
    · rintro ⟨br', hparse', -, hnone⟩
      rw [hparse] at hparse'
      cases hparse'
      rw [hresolve] at hnone
      cases hnone
    · refine ⟨rr.start, rr.stop, horder, hstop, h.coding.trans hcoding, ?_, hlen, ?_⟩
      · show httpRangeFormatContentRange 128 rr.start rr.stop f.sel.st.size = _
        rw [hsize]
        exact hlead
      · rw [← hlen]
  | none =>
    have hlead := (@contentRangeUnsatisfied_eq f.sel.st.size (by omega)).1
    rw [hsize] at hlead
    refine ⟨iff_of_false hdiff.symm ?_, iff_of_true rfl ⟨br, hparse, hif, hresolve⟩, fun _ => ?_,
      fun _ h => (h rfl).elim, fun h => (hdiff h.symm).elim⟩
    · rintro ⟨br', rr, hparse', -, hsome⟩
      rw [hparse] at hparse'
      cases hparse'
      rw [hresolve] at hsome
      cases hsome
    · show httpRangeFormatContentRangeUnsatisfied 128 f.sel.st.size = _
      rw [hsize]
      exact hlead

end Prepared

/-- What is delivered for a request with a `Range` header that is not answered with 304. -/
lemma responseFor_range {value : Bytes} {d i : ℕ} {relpath : Bytes} {data : FileData} (hw : Unfailing w)
    (hget : cx.h1.method = .get) (hfeature : cx.features.range = true)
    (hvalue : httpHeaderFindValue cx.h1.hdrs.reqHdrs .range = some value)
    (hfd : 0 ≤ cx.docrootFd) (hroot : w.proc.fds.lookup cx.docrootFd = some d)
    (hpath : requestedPath cx = some relpath)
    (hfile : fileAt w.proc.tree d relpath = some (i, data)) :
    ∃ resp sent, responseFor cx w = some (resp, sent) ∧
      (resp.statusLine = ascii "304 Not Modified" ∨
        (PolicyOverflows cx relpath (fileStat i data) → resp = failClosedResponse) ∧
        (¬ PolicyOverflows cx relpath (fileStat i data) →
          SelectsRange cx value (fileStat i data) data.bytes resp sent)) := by
  obtain ⟨fd, w1, hopen⟩ := openRequested_calm hw hfd hroot hpath hfile
  have hprobed := probed_of_range hfeature hvalue relpath fd (fileStat i data) w1
  have hoverEq : (assembledFor cx relpath ⟨fd, fileStat i data, none⟩).overflow
      = (assembledFor cx relpath ⟨0, fileStat i data, none⟩).overflow := rfl
  have hprepared := @preparedOn_of_opened cx relpath fd (fileStat i data) w w1 hopen
  rw [hprobed, hoverEq] at hprepared
  unfold responseFor PolicyOverflows
  rw [hopen]
  dsimp only
  rw [hprobed]
  dsimp only
  rw [hoverEq]
  cases hover : (assembledFor cx relpath ⟨0, fileStat i data, none⟩).overflow with
  | true => exact ⟨_, _, if_pos rfl, .inr ⟨fun _ => rfl, fun hno => (hno rfl).elim⟩⟩
  | false =>
    obtain ⟨d', identity, i', data', h⟩ := hprepared hover
    have hsel : (preparedFor cx relpath ⟨fd, fileStat i data, none⟩).sel.st = fileStat i data := rfl
    have hcoding : (preparedFor cx relpath ⟨fd, fileStat i data, none⟩).sel.coding = none :=
      @assembledFor_siblingCoding cx relpath ⟨fd, fileStat i data, none⟩
    have hetag : (preparedFor cx relpath ⟨fd, fileStat i data, none⟩).etag
        = currentEtag cx (fileStat i data) := rfl
    have hdyn : dynEligible cx (preparedFor cx relpath ⟨fd, fileStat i data, none⟩) = false := by
      have hacc : (preparedFor cx relpath ⟨fd, fileStat i data, none⟩).accepted = {} :=
        acceptedCodings_of_range hfeature hvalue _
      unfold dynEligible
      split
      · rfl
      · simp [hacc]
    -- the prepared file is the requested one
    have hdata : data' = data := by
      have hidentity := h.identity
      rw [h.data_eq hcoding] at hidentity
      cases h.root.symm.trans hroot
      cases hidentity.symm.trans hfile
      rfl
    subst hdata
    rw [if_neg (by simp), h.chosen.openOn.contentAt]
    generalize preparedFor cx relpath ⟨fd, fileStat i data', none⟩ = f at h hsel hcoding hetag hdyn ⊢
    cases hnot : notModified cx f with
    | true => exact ⟨_, _, if_pos rfl, .inl rfl⟩
    | false =>
      have hif := @staticServeIfRangeMatches_iff cx.h1.hdrs.reqHdrs f.sel.st
        (currentEtag cx f.sel.st) currentEtag_quoted
      rw [if_neg (by simp), appliedRange_eq hget hfeature hvalue, hetag, ← hsel]
      cases hparse : httpRangeParse value with
      | none =>
        refine ⟨_, _, rfl, .inr ⟨nofun, fun _ => selectsRange_whole hget h hcoding hdyn ?_⟩⟩
        rintro ⟨br, hbr, -⟩
        rw [hparse] at hbr
        cases hbr
      | some br =>
        cases hmatch : staticServeIfRangeMatches cx.h1.hdrs.reqHdrs f.sel.st
            (currentEtag cx f.sel.st) with
        | true =>
          exact ⟨_, _, rfl, .inr ⟨nofun, fun _ => selectsRange_range h hcoding hparse (hif.mp hmatch)⟩⟩
        | false =>
          refine ⟨_, _, rfl, .inr ⟨nofun, fun _ => selectsRange_whole hget h hcoding hdyn ?_⟩⟩
          rintro ⟨br', -, hholds⟩
          rw [hif.mpr hholds] at hmatch
          cases hmatch

/-- A request for the bytes from 1 to 3 of the small file. -/
def rangeRequest : ServeCtx where
  h1 :=
    { method := .get
      pathNorm := ascii "/a.txt"
      hdrs := { reqHdrs := [⟨.range, ascii "range", ascii "bytes=1-3", false⟩] } }
  vhost := some { docrootFd := 3, features := { static := true, range := true } }
  tls := false
  docrootFd := 3
  date := []
  date_lt := no_date_lt
  haveBrotli := false
  codec := ⟨fun _ _ => none, fun _ _ => none⟩

lemma hello_size_lt : (ascii "hello").length < 2 ^ 63 := by
  decide

/-- The content of the small file. -/
def smallFile : FileData where
  bytes := ascii "hello"
  size_lt := hello_size_lt

/-- The same request where the configured headers do not fit. -/
def crowdedRequest : ServeCtx :=
  { rangeRequest with
    vhost :=
      some
        { docrootFd := 3
          features := { static := true, range := true }
          securityHeaders :=
            some
              { enabled := true
                headers := [1, 2, 3, 4, 5, 6, 7, 8].map fun n =>
                  ⟨[120, 48 + n], List.replicate 255 97⟩ } } }

/-- The same request with an empty `If-Range`. -/
def emptyIfRangeRequest : ServeCtx :=
  { rangeRequest with
    h1 :=
      { method := .get
        pathNorm := ascii "/a.txt"
        hdrs :=
          { reqHdrs :=
              [⟨.range, ascii "range", ascii "bytes=1-3", false⟩,
                ⟨.ifRange, ascii "if-range", [], false⟩] } } }

end Lamseryn
