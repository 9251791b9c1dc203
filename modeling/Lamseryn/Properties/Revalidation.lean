import Lamseryn.Properties.EntityTags
import Lamseryn.Properties.HttpDates
import Lamseryn.Properties.RangeSelection
import Lamseryn.Properties.Representation

/-!
# Revalidation

A client that was sent a validator with a 200 and sends it back later is answered with 304, as long as
the document root stays as it is.  The file that a request is answered from is a function of the tree,
of the path and of the codings that are accepted (`representation`), whatever the descriptors are; so
both requests are answered from the same file, and its tag and its date match themselves.

A request with a `Range` header accepts no coding.  It has therefore another representation than the
same request without one, where there is a precompressed sibling.
-/

namespace Lamseryn

open ByteText CText FileTree CivilTime

variable {cx : ServeCtx} {w : ServeWorld}

/-! ## The representation -/

/-- The precompressed sibling of a file. -/
def siblingAt (t : Tree ℕ FileData) (d : ℕ) (relpath : Bytes) (c : ContentCoding) :
    Option (ℕ × FileData) :=
  if pathMax ≤ (relpath ++ compressEncExt c).length then none
  else fileAt t d (relpath ++ compressEncExt c)

/-- The first accepted sibling, or the file itself. -/
def representation (t : Tree ℕ FileData) (d : ℕ) (relpath : Bytes) (accepted : CodingMask)
    (identity : FileStat) : List ContentCoding → Option ContentCoding × FileStat
  | [] => (none, identity)
  | c :: rest =>
    match if accepted.has c then siblingAt t d relpath c else none with
    | some (i, data) => (some c, fileStat i data)
    | none => representation t d relpath accepted identity rest

/-- No call fails that the tree does not decide. -/
structure Undisturbed (w : ServeWorld) : Prop where
  faults : w.proc.faults = []
  fstats : ∀ b ∈ w.fstats, b = true

lemma Unfailing.undisturbed (h : Unfailing w) : Undisturbed w :=
  ⟨h.faults, h.fstats⟩

lemma Undisturbed.openBeneath {d : ℕ} (h : Undisturbed w) (hroot : w.proc.fds.lookup cx.docrootFd = some d)
    (path : Bytes) : Undisturbed (w.openBeneath cx path).2 := by
  refine ⟨?_, h.fstats⟩
  show (staticServeOpenatBeneathNofollow cx.docrootFd path w.proc).2.faults = []
  unfold staticServeOpenatBeneathNofollow
  split
  · exact h.faults
  split
  · exact h.faults
  · exact (openBeneathWalk_calm cx.docrootFd _ cx.docrootFd w.proc d h.faults hroot).1

lemma Undisturbed.fstat (h : Undisturbed w) (fd : ℤ) : Undisturbed (w.fstat fd).2 :=
  ⟨h.faults, fun b hb => h.fstats b (List.mem_of_mem_tail hb)⟩

lemma Undisturbed.fstat_eq (h : Undisturbed w) (fd : ℤ) : (w.fstat fd).1 = (w.proc.nodeAt fd).map statOf := by
  show (if nextOk w.fstats then (w.proc.nodeAt fd).map statOf else none) = _
  rw [nextOk_of_all h.fstats, if_pos rfl]

lemma Undisturbed.close (h : Undisturbed w) (fd : ℤ) : Undisturbed (w.close fd) :=
  ⟨h.faults, h.fstats⟩

lemma Undisturbed.probeSibling {d : ℕ} (h : Undisturbed w) (hroot : w.proc.fds.lookup cx.docrootFd = some d)
    (relpath : Bytes) (sel : SelectedFile) (c : ContentCoding) :
    Undisturbed (probeSibling cx relpath sel c w).2 := by
  unfold Lamseryn.probeSibling
  split
  · exact h
  have hopen := @Undisturbed.openBeneath cx w d h hroot (relpath ++ compressEncExt c)
  generalize w.openBeneath cx (relpath ++ compressEncExt c) = out at hopen ⊢
  obtain ⟨r, w1⟩ := out
  cases r with
  | error e => exact hopen
  | ok fd =>
    have hstat := hopen.fstat fd
    dsimp only
    generalize w1.fstat fd = out at hstat ⊢
    obtain ⟨st, w2⟩ := out
    cases st with
    | none => exact hstat.close fd
    | some st =>
      dsimp only
      split
      · exact hstat.close sel.fd
      · exact hstat.close fd

/-- One round of the search selects the sibling exactly if the tree has it. -/
lemma probeSibling_calm {d : ℕ} (h : Undisturbed w) (hfd : 0 ≤ cx.docrootFd)
    (hroot : w.proc.fds.lookup cx.docrootFd = some d) (relpath : Bytes) (sel : SelectedFile)
    (c : ContentCoding) :
    ((probeSibling cx relpath sel c w).1.coding, (probeSibling cx relpath sel c w).1.st) =
      match siblingAt w.proc.tree d relpath c with
      | some (i, data) => (some c, fileStat i data)
      | none => (sel.coding, sel.st) := by
  unfold Lamseryn.probeSibling siblingAt
  by_cases hlong : pathMax ≤ (relpath ++ compressEncExt c).length
  · rw [if_pos hlong, if_pos hlong]
  rw [if_neg hlong, if_neg hlong]
  have hcalm := @Undisturbed.openBeneath cx w d h hroot (relpath ++ compressEncExt c)
  cases hopen : w.openBeneath cx (relpath ++ compressEncExt c) with
  | mk r w1 =>
    rw [hopen] at hcalm
    cases hfile : fileAt w.proc.tree d (relpath ++ compressEncExt c) with
    | some file =>
      obtain ⟨i, data⟩ := file
      obtain ⟨fd, hok⟩ := openBeneath_calm h.faults hfd hroot hfile
      rw [hopen] at hok
      subst hok
      have hnode := (openOn_of_openBeneath hroot hfile hopen).nodeAt
      have hstat := hcalm.fstat_eq fd
      rw [hnode] at hstat
      dsimp only
      generalize w1.fstat fd = out at hstat ⊢
      obtain ⟨st, w2⟩ := out
      subst hstat
      have hservable : (statOf (i, .file data)).servable = true := fileStat_servable i data
      dsimp only [Option.map_some]
      rw [if_pos hservable]
      rfl
    | none =>
      cases r with
      | error e => rfl
      | ok fd =>
        dsimp only
        cases hstat : w1.fstat fd with
        | mk st w2 =>
          cases st with
          | none => rfl
          | some st =>
            dsimp only
            split
            · rename_i hserve
              obtain ⟨i, data, hon, -⟩ := openOn_of_opened hroot hopen hstat hserve
              have hproc : w2.proc = w1.proc := congrArg (fun out => out.2.proc) hstat.symm
              have hfound := hon.fileAt
              rw [hproc, tree_openBeneath hopen, hfile] at hfound
              cases hfound
            · rfl

/-- The search finds the representation that the tree has. -/
lemma probeSiblings_calm {d : ℕ} {relpath : Bytes} (accepted : CodingMask) (hfd : 0 ≤ cx.docrootFd)
    (codings : List ContentCoding) : ∀ (sel : SelectedFile) (w : ServeWorld) (i : ℕ) (data : FileData),
      Undisturbed w → Chosen cx relpath d w sel i data →
        ((probeSiblings cx relpath accepted codings sel w).1.coding,
          (probeSiblings cx relpath accepted codings sel w).1.st) =
        if sel.coding.isSome then (sel.coding, sel.st)
        else representation w.proc.tree d relpath accepted sel.st codings := by
  induction codings with
  | nil =>
    intro sel w i data _ _
    unfold probeSiblings representation
    split
    · rfl
    · rename_i hnone
      rw [Option.not_isSome_iff_eq_none.mp hnone]
  | cons c rest ih =>
    intro sel w i data hcalm hchosen
    unfold probeSiblings representation
    by_cases hsome : sel.coding.isSome
    · -- a coding has been found before
      rw [if_neg (by simp [Option.isSome_iff_ne_none.mp hsome]), ih sel w i data hcalm hchosen]
      rw [if_pos hsome, if_pos hsome]
    have hnone := Option.not_isSome_iff_eq_none.mp hsome
    rw [if_neg hsome]
    by_cases haccepted : accepted.has c = true
    · obtain ⟨i', data', hchosen'⟩ := probeSibling_chosen hchosen c
      have hround := probeSibling_calm hcalm hfd hchosen.root relpath sel c
      have htree := (@onlyLooks_probeSibling cx relpath sel c w).tree
      have hih := ih _ _ i' data' (hcalm.probeSibling hchosen.root relpath sel c) hchosen'
      rw [if_pos ⟨by rw [hnone]; rfl, haccepted⟩, if_pos haccepted]
      dsimp only
      rw [hih, htree]
      cases hsibling : siblingAt w.proc.tree d relpath c with
      | some file =>
        rw [hsibling] at hround
        obtain ⟨hcoding, hst⟩ := Prod.mk.inj hround
        rw [hcoding, hst]
        rfl
      | none =>
        rw [hsibling] at hround
        obtain ⟨hcoding, hst⟩ := Prod.mk.inj hround
        rw [hcoding, hst, hnone]
        rfl
    · rw [if_neg (fun hboth => haccepted hboth.2), if_neg haccepted, ih sel w i data hcalm hchosen,
        if_neg hsome]

/-- The file that a request is answered from: its path, its coding and its `stat`. -/
structure ServedForm where
  relpath : Bytes
  coding : Option ContentCoding
  st : FileStat
  deriving DecidableEq

/-- The representation that the tree has for a request. -/
def servedForm (cx : ServeCtx) (w : ServeWorld) : Option ServedForm :=
  match w.proc.fds.lookup cx.docrootFd, requestedPath cx with
  | some d, some relpath =>
    (fileAt w.proc.tree d relpath).map fun file =>
      let form := representation w.proc.tree d relpath
        (acceptedCodings cx (staticServeMimeTypeForPath relpath)) (fileStat file.1 file.2)
        [.brotli, .gzip]
      ⟨relpath, form.1, form.2⟩
  | _, _ => none

lemma Undisturbed.openRequested {relpath : Bytes} {fd : ℤ} {st : FileStat} {w1 : ServeWorld} (h : Undisturbed w)
    (hopen : openRequested cx w = (.ok (relpath, fd, st), w1)) : Undisturbed w1 := by
  obtain ⟨d, -, -, hroot, -⟩ := chosen_of_opened hopen
  obtain ⟨-, -, -, w0, hrecord, hstat⟩ := openRequested_ok hopen
  have hcalm := (@Undisturbed.openBeneath cx w d h hroot relpath).fstat fd
  rw [openOrRecord_some hrecord] at hcalm
  rwa [hstat] at hcalm

lemma servedForm_of_opened {relpath : Bytes} {fd : ℤ} {st : FileStat} {w1 : ServeWorld} (h : Undisturbed w)
    (hopen : openRequested cx w = (.ok (relpath, fd, st), w1)) :
    servedForm cx w = some ⟨relpath, (probed cx relpath fd st w1).1.coding,
      (probed cx relpath fd st w1).1.st⟩ := by
  obtain ⟨hfd, hpath, -, -⟩ := openRequested_ok hopen
  obtain ⟨d, i, data, hroot, hfile, hchosen⟩ := chosen_of_opened hopen
  have hprobed := probeSiblings_calm (acceptedCodings cx (staticServeMimeTypeForPath relpath)) hfd
    [.brotli, .gzip] _ w1 i data (h.openRequested hopen) hchosen
  rw [if_neg (by simp), (onlyLooks_openRequested hopen).tree, hchosen.st] at hprobed
  obtain ⟨hcoding, hst⟩ := Prod.ext_iff.mp hprobed
  unfold servedForm
  rw [hroot, hpath]
  dsimp only
  rw [hfile, Option.map_some]
  dsimp only
  rw [← hcoding, ← hst]
  rfl

lemma openRequested_of_servedForm {form : ServedForm} (hw : Unfailing w) (hfd : 0 ≤ cx.docrootFd)
    (h : servedForm cx w = some form) :
    ∃ relpath fd st w1, openRequested cx w = (.ok (relpath, fd, st), w1) := by
  unfold servedForm at h
  split at h
  case h_1 d relpath hroot hpath =>
    obtain ⟨⟨i, data⟩, hfile, -⟩ := Option.map_eq_some_iff.mp h
    obtain ⟨fd, w1, hopen⟩ := openRequested_calm hw hfd hroot hpath hfile
    exact ⟨relpath, fd, _, w1, hopen⟩
  case h_2 => cases h

/-! ## Validators -/

/-- The response carries the server's validators, an entity tag and a date, each on its line. -/
structure StaticResponse.Carries (resp : StaticResponse) (etag date : Bytes) : Prop where
  validators : resp.extra.validators =
    headerLine (ascii "ETag") etag ++ headerLine (ascii "Last-Modified") date
  etag_line : (10 : UInt8) ∉ etag
  date_line : (10 : UInt8) ∉ date

/-- The date of a response with the file. -/
def currentDate (cx : ServeCtx) (st : FileStat) : Bytes :=
  if cx.features.conditional then staticServeFormatLastModified 64 st else []

lemma headerLine_append (name value rest : Bytes) :
    headerLine name value ++ rest = (name ++ ascii ": " ++ value ++ [13]) ++ 10 :: rest := by
  simp only [headerLine, List.append_assoc]
  rfl

lemma count_headerLine {name : Bytes} (hname : (10 : UInt8) ∉ name) (value : Bytes) :
    (headerLine name value).count 10 = value.count 10 + 1 := by
  have hcolon : (ascii ": ").count (10 : UInt8) = 0 := by decide
  have hend : (ascii "\r\n").count (10 : UInt8) = 1 := by decide
  simp only [headerLine, List.count_append, List.count_eq_zero_of_not_mem hname, hcolon, hend]
  omega

lemma StaticResponse.Carries.unique {resp : StaticResponse} {etag date etag' date' : Bytes}
    (h : resp.Carries etag date)
    (h' : resp.extra.validators =
      headerLine (ascii "ETag") etag' ++ headerLine (ascii "Last-Modified") date') :
    etag' = etag ∧ date' = date := by
  have hetag : (10 : UInt8) ∉ ascii "ETag" := by decide
  have hdate : (10 : UInt8) ∉ ascii "Last-Modified" := by decide
  have heq := h'.symm.trans h.validators
  have hcount := congrArg (List.count 10) heq
  rw [List.count_append, List.count_append, count_headerLine hetag, count_headerLine hdate,
    count_headerLine hetag, count_headerLine hdate, List.count_eq_zero_of_not_mem h.etag_line,
    List.count_eq_zero_of_not_mem h.date_line] at hcount
  have hetag' : (10 : UInt8) ∉ etag' := List.count_eq_zero.mp (by omega)
  have hline : ∀ v : Bytes, (10 : UInt8) ∉ v → (10 : UInt8) ∉ ascii "ETag" ++ ascii ": " ++ v ++ [13] := by
    intro v hv
    simp only [List.mem_append, not_or]
    exact ⟨⟨⟨hetag, by decide⟩, hv⟩, by decide⟩
  rw [headerLine_append, headerLine_append] at heq
  obtain ⟨hfirst, hsecond⟩ :=
    append_cons_injective (hline etag' hetag') (hline etag h.etag_line) heq
  exact ⟨List.append_cancel_left (List.append_cancel_right hfirst),
    List.append_cancel_left (List.append_cancel_right hsecond)⟩

lemma wholeResponse_validators (f : Prepared) (bytes : Bytes) :
    (wholeResponse cx f bytes).1.extra.validators = f.extra.validators := by
  unfold wholeResponse
  split
  · rfl
  split
  · unfold compressedResponse
    split <;> rfl
  · rfl

lemma full_validators {s : Staged} (hw : Unfailing w)
    (h : (staticServeTryPrepareDocrootResponse cx w).1 = .staged s) (hfull : s.isFull) :
    ∃ form, servedForm cx w = some form ∧ 0 ≤ cx.docrootFd ∧
      s.resp.extra.validators = staticServeBuildValidatorHeaders validatorHdrsMax
        (currentEtag cx form.st) (currentDate cx form.st) := by
  cases hprepare : prepareFull cx w with
  | mk r w1 =>
    rw [staticServeTryPrepareDocrootResponse, hprepare] at h
    cases r with
    | error r =>
      cases h
      exact ((prepareFull_error hprepare).not_isFull hfull).elim
    | ok f =>
      obtain ⟨d, identity, i, data, hon⟩ := prepareFull_chosen hprepare
      obtain ⟨relpath, fd, st, w2, hopen, -, rfl, rfl, -, -⟩ := prepareFull_ok hprepare
      have hdelivers := serveFull_delivers hon (hw.toHealthy.of_looks hon.looks)
      obtain ⟨s', hs', hresp, -, -⟩ := hdelivers
      cases h.symm.trans hs'
      refine ⟨_, servedForm_of_opened hw.undisturbed hopen, (openRequested_ok hopen).1, ?_⟩
      exact (congrArg (fun resp => resp.extra.validators) hresp).trans (wholeResponse_validators _ _)

/-! ## The later request -/

/-- A later request of the same path, with the same `Accept-Encoding`, while the document root stays as
it is.  Both requests have a `Range` header or neither has. -/
structure Revisits (cx : ServeCtx) (w : ServeWorld) (cx' : ServeCtx) (w' : ServeWorld) : Prop where
  served : cx'.served = true
  vhost : cx'.vhost = cx.vhost
  docrootFd : cx'.docrootFd = cx.docrootFd
  pathNorm : cx'.h1.pathNorm = cx.h1.pathNorm
  pathEndsWithSlash : cx'.h1.pathEndsWithSlash = cx.h1.pathEndsWithSlash
  acceptEncoding : httpHeaderFindValue cx'.h1.hdrs.reqHdrs .acceptEncoding =
    httpHeaderFindValue cx.h1.hdrs.reqHdrs .acceptEncoding
  range : (httpHeaderFindValue cx'.h1.hdrs.reqHdrs .range).isSome =
    (httpHeaderFindValue cx.h1.hdrs.reqHdrs .range).isSome
  tree : w'.proc.tree = w.proc.tree
  root : w'.proc.fds.lookup cx.docrootFd = w.proc.fds.lookup cx.docrootFd

/-- The request sends a validator back: the tag in `If-None-Match`, weak or not, alone or in a list, or
the date in `If-Modified-Since` without an `If-None-Match`. -/
inductive SendsBack (hdrs : List ReqHdrEntry) (etag date : Bytes) : Prop
  | tag (v : NoneMatch) (hfield : httpHeaderFindValue hdrs .ifNoneMatch = some v.text) (t : EntityTag)
      (hlisted : t ∈ v.listed) (htag : t.quoted = etag)
  | date (hnone : httpHeaderFindValue hdrs .ifNoneMatch = none)
      (hfield : httpHeaderFindValue hdrs .ifModifiedSince = some date)

/-- The policy headers of a request fit into the response with its representation. -/
def PolicyFits (cx : ServeCtx) (form : ServedForm) : Prop :=
  (assembledFor cx form.relpath ⟨0, form.st, form.coding⟩).overflow = false

section Later

variable {cx' : ServeCtx} {w' : ServeWorld}

lemma Revisits.features (h : Revisits cx w cx' w') : cx'.features = cx.features := by
  unfold ServeCtx.features
  rw [h.vhost]

lemma Revisits.servedForm (h : Revisits cx w cx' w') (hserved : cx.served = true) :
    servedForm cx' w' = servedForm cx w := by
  have hpath : requestedPath cx' = requestedPath cx := by
    unfold requestedPath
    rw [h.vhost, h.pathNorm, h.pathEndsWithSlash]
  have haccepted : ∀ ctype, acceptedCodings cx' ctype = acceptedCodings cx ctype := by
    intro ctype
    unfold acceptedCodings
    rw [h.features, h.acceptEncoding, h.range, h.served, hserved]
  unfold Lamseryn.servedForm
  simp only [hpath, haccepted, h.docrootFd, h.root, h.tree]

lemma checkNotModified_of_sendsBack {hdrs : List ReqHdrEntry} {st : FileStat}
    (htime : FourDigitYear st.mtimeSec)
    (h : SendsBack hdrs (staticServeFormatEtag 64 st) (staticServeFormatLastModified 64 st)) :
    staticServeCheckNotModified hdrs st (staticServeFormatEtag 64 st) = true := by
  cases h with
  | tag v hfield t hlisted htag =>
    have hissued := staticServeFormatEtag_issued (staticServeFormatEtag_ne_nil st)
    exact (notModified_iff st hfield hissued).mpr (.inl (.inr ⟨t, hlisted, htag⟩))
  | date hnone hfield =>
    have hparse := staticServeParseHttpDate_timeFormatHttpDate htime
    have hne : staticServeFormatLastModified 64 st ≠ [] := by
      intro hnil
      have hlen := staticServeParseHttpDate_length hparse
      rw [show timeFormatHttpDate 64 st.mtimeSec = [] from hnil] at hlen
      cases hlen
    unfold staticServeCheckNotModified
    rw [hnone, hfield, Option.filter_none, Option.filter_some, if_pos (by simpa using hne)]
    dsimp only
    rw [headerDate_eq, staticServeFormatLastModified, hparse, Option.any_some]
    exact decide_eq_true le_rfl

lemma carries_eq {resp : StaticResponse} {etag date : Bytes} {st : FileStat}
    (h : resp.Carries etag date)
    (hvalidators : resp.extra.validators = staticServeBuildValidatorHeaders validatorHdrsMax
      (currentEtag cx st) (currentDate cx st)) :
    cx.features.conditional = true ∧ staticServeFormatEtag 64 st = etag ∧
      staticServeFormatLastModified 64 st = date := by
  have hcond : cx.features.conditional = true := by
    by_contra hno
    rw [currentEtag, currentDate, if_neg hno, if_neg hno, staticServeBuildValidatorHeaders,
      if_pos ⟨rfl, rfl⟩, h.validators] at hvalidators
    exact headerLine_ne_nil _ _ (List.append_eq_nil_iff.mp hvalidators).1
  refine ⟨hcond, h.unique ?_⟩
  have hetag := staticServeFormatEtag_length_lt st
  have hdate := staticServeFormatLastModified_length_lt st
  have hename : (ascii "ETag").length = 4 := by decide
  have hlname : (ascii "Last-Modified").length = 13 := by decide
  rw [hvalidators, currentEtag, currentDate, if_pos hcond, if_pos hcond,
    staticServeBuildValidatorHeaders, if_neg (fun hnil => staticServeFormatEtag_ne_nil st hnil.1),
    fitted, if_pos]
  rw [List.length_append, headerLine_length, headerLine_length, hename, hlname, validatorHdrsMax]
  omega

/-- **Revalidation.**  A validator that was sent with a 200 and is sent back later is answered with 304
and the same validators; a date is read back as the time that it was written for. -/
theorem staticServe_revalidates (cx : ServeCtx) (w : ServeWorld) (cx' : ServeCtx) (w' : ServeWorld)
    (s : Staged) (etag date : Bytes) (hw : Unfailing w) (hw' : Unfailing w')
    (hserved : cx.served = true)
    (hstaged : (staticServeTryPrepareDocrootResponse cx w).1 = .staged s) (hfull : s.isFull)
    (hcarries : s.resp.Carries etag date)
    (htime : ∀ form ∈ servedForm cx w, FourDigitYear form.st.mtimeSec)
    (hlater : Revisits cx w cx' w') (hfits : ∀ form ∈ servedForm cx' w', PolicyFits cx' form)
    (hback : SendsBack cx'.h1.hdrs.reqHdrs etag date) :
    (∃ s', (staticServeTryPrepareDocrootResponse cx' w').1 = .staged s' ∧
      s'.resp.statusLine = ascii "304 Not Modified" ∧ s'.buf = s'.resp.block cx' ∧
      s'.resp.Carries etag date) ∧
    ∀ t, FourDigitYear t → staticServeParseHttpDate (timeFormatHttpDate 64 t) = some t := by
  refine ⟨?_, fun t => staticServeParseHttpDate_timeFormatHttpDate⟩
  obtain ⟨form, hform, hfd, hvalidators⟩ := full_validators hw hstaged hfull
  obtain ⟨hcond, rfl, rfl⟩ := carries_eq hcarries hvalidators
  have hform' := (hlater.servedForm hserved).trans hform
  obtain ⟨relpath, fd, st, w1, hopen⟩ :=
    openRequested_of_servedForm hw' (hlater.docrootFd ▸ hfd) hform'
  have hsel := Option.some.inj (hform'.symm.trans (servedForm_of_opened hw'.undisturbed hopen))
  have hover := hfits form hform'
  have htime' := htime form hform
  subst hsel
  -- the selected file is the one of the first response
  generalize hprobed : probed cx' relpath fd st w1 = out at *
  obtain ⟨sel, w2⟩ := out
  dsimp only at *
  have hcond' : cx'.features.conditional = true := hlater.features ▸ hcond
  have hnot : notModified cx' (preparedFor cx' relpath sel) = true := by
    have hetag : (preparedFor cx' relpath sel).etag = staticServeFormatEtag 64 sel.st :=
      if_pos hcond'
    have hcheck := checkNotModified_of_sendsBack htime' hback
    unfold notModified
    rw [hcond', hlater.served, hetag]
    simp only [Bool.and_self, Bool.true_and, Bool.and_eq_true, decide_eq_true_eq]
    exact ⟨staticServeFormatEtag_ne_nil _, hcheck⟩
  have hresponse : responseFor cx' w' = some (notModifiedResponse cx' (preparedFor cx' relpath sel), []) := by
    unfold responseFor
    rw [hopen]
    dsimp only
    rw [hprobed]
    dsimp only
    rw [if_neg (by rw [show (assembledFor cx' relpath sel).overflow = false from hover]; exact
      Bool.false_ne_true), if_pos hnot]
  have hdelivers := @staticServe_delivers w' cx' hw'.toHealthy
  rw [hresponse] at hdelivers
  obtain ⟨s', hs', hresp, hbuf, hsent⟩ := hdelivers
  have hbody : s'.body = [] := (List.append_eq_nil_iff.mp hsent).1
  have hsame : s'.resp.extra.validators = s.resp.extra.validators := by
    rw [hresp, hvalidators, currentEtag, currentDate, ← hlater.features]
    rfl
  refine ⟨s', hs', by rw [hresp]; rfl, ?_, hsame.trans hcarries.validators, hcarries.etag_line,
    hcarries.date_line⟩
  rw [hbuf, hbody, List.append_nil, hresp]

end Later

/-- The response of a result. -/
def ServeResult.response? : ServeResult → Option StaticResponse
  | .passed => none
  | .staged s => some s.resp

lemma ServeResult.staged_of_response {r : ServeResult} {α : Type} {f : StaticResponse → α} {a : α}
    (h : r.response?.map f = some a) : ∃ s, r = .staged s ∧ f s.resp = a := by
  cases r with
  | passed => cases h
  | staged s => exact ⟨s, rfl, Option.some.inj h⟩

/-- A request for the page that has a precompressed sibling. -/
def pageRequest (method : LlhttpMethod) (fields : List ReqHdrEntry) : ServeCtx where
  h1 :=
    { method
      pathNorm := ascii "/a.html"
      hdrs :=
        { reqHdrs := ⟨.acceptEncoding, ascii "accept-encoding", ascii "gzip", false⟩ :: fields } }
  vhost :=
    some
      { docrootFd := 3
        features := { static := true, compression := true, conditional := true, range := true } }
  tls := false
  docrootFd := 3
  date := []
  date_lt := no_date_lt
  haveBrotli := false
  codec := ⟨fun _ _ => none, fun _ _ => none⟩

/-- The tag of the sibling. -/
def siblingTag : EntityTag :=
  ⟨true, ascii "2-3-0", by decide +kernel⟩

/-- The value `"9-9-9", W/"2-3-0"`. -/
def siblingValue : NoneMatch :=
  .tags [⟨[], some ⟨false, ascii "9-9-9", by decide +kernel⟩, [], no_ows, no_ows⟩,
      ⟨[32], some siblingTag, [], by decide +kernel, no_ows⟩]
    ⟨_, List.mem_cons_self, by simp⟩

lemma siblingSite_validators :
    ∃ s, (staticServeTryPrepareDocrootResponse (pageRequest .get []) { proc := siblingSite }).1 =
        .staged s ∧ s.isFull ∧
      s.resp.Carries (ascii "\"2-3-0\"") (ascii "Thu, 01 Jan 1970 00:00:00 GMT") := by
  obtain ⟨s, hs, hresp⟩ := @ServeResult.staged_of_response
    (staticServeTryPrepareDocrootResponse (pageRequest .get []) { proc := siblingSite }).1 _
    (fun resp => (resp.kind, resp.extra.validators))
    (.okClose, headerLine (ascii "ETag") (ascii "\"2-3-0\"") ++
      headerLine (ascii "Last-Modified") (ascii "Thu, 01 Jan 1970 00:00:00 GMT")) (by decide +kernel)
  obtain ⟨hkind, hvalidators⟩ := Prod.mk.inj hresp
  exact ⟨s, hs, .inr hkind, hvalidators, by decide +kernel, by decide +kernel⟩

theorem staticServe_revalidates_page :
    ∃ s, (staticServeTryPrepareDocrootResponse
        (pageRequest .head [⟨.ifNoneMatch, ascii "if-none-match", siblingValue.text, false⟩])
        { proc := siblingSite }).1 = .staged s ∧
      s.resp.statusLine = ascii "304 Not Modified" := by
  obtain ⟨s, hs, hfull, hcarries⟩ := siblingSite_validators
  have hunfailing : Unfailing { proc := siblingSite } := ⟨⟨nofun, nofun, nofun, nofun⟩, rfl, nofun⟩
  have hform : servedForm (pageRequest .get []) { proc := siblingSite } =
      some ⟨ascii "a.html", some .gzip, ⟨.regular, 2, 3, 0, 0⟩⟩ := by
    decide +kernel
  have htime : ∀ form ∈ servedForm (pageRequest .get []) { proc := siblingSite },
      FourDigitYear form.st.mtimeSec := by
    rw [hform]
    rintro form ⟨⟩
    unfold FourDigitYear
    decide
  have hlater : Revisits (pageRequest .get []) { proc := siblingSite }
      (pageRequest .head [⟨.ifNoneMatch, ascii "if-none-match", siblingValue.text, false⟩])
      { proc := siblingSite } :=
    ⟨rfl, rfl, rfl, rfl, rfl, by decide, by decide, rfl, rfl⟩
  obtain ⟨⟨s', hs', hstatus, -, -⟩, -⟩ := staticServe_revalidates (pageRequest .get [])
    { proc := siblingSite }
    (pageRequest .head [⟨.ifNoneMatch, ascii "if-none-match", siblingValue.text, false⟩])
    { proc := siblingSite } s _ _ hunfailing hunfailing rfl hs hfull hcarries htime hlater
    (by
      rw [hlater.servedForm rfl, hform]
      rintro form ⟨⟩
      unfold PolicyFits
      decide)
    (.tag siblingValue rfl siblingTag (List.mem_cons_of_mem _ List.mem_cons_self) (by decide))
  exact ⟨s', hs', hstatus⟩

/-- The same request with a `Range` is answered from the page itself. -/
theorem staticServe_range_ignores_tag :
    (∃ s, (staticServeTryPrepareDocrootResponse (pageRequest .get []) { proc := siblingSite }).1 =
        .staged s ∧ s.isFull ∧
      s.resp.Carries (ascii "\"2-3-0\"") (ascii "Thu, 01 Jan 1970 00:00:00 GMT")) ∧
    SendsBack (pageRequest .get
        [⟨.ifNoneMatch, ascii "if-none-match", siblingValue.text, false⟩,
          ⟨.range, ascii "range", ascii "bytes=0-1", false⟩]).h1.hdrs.reqHdrs
      (ascii "\"2-3-0\"") (ascii "Thu, 01 Jan 1970 00:00:00 GMT") ∧
    (staticServeTryPrepareDocrootResponse
        (pageRequest .get [⟨.ifNoneMatch, ascii "if-none-match", siblingValue.text, false⟩,
          ⟨.range, ascii "range", ascii "bytes=0-1", false⟩])
        { proc := siblingSite }).1.described.map Described.statusLine =
      some (ascii "206 Partial Content") := by
  refine ⟨siblingSite_validators, .tag siblingValue ?_ siblingTag ?_ ?_, by decide +kernel⟩
  · rfl
  · exact List.mem_cons_of_mem _ List.mem_cons_self
  · decide

end Lamseryn
