import Lamseryn.Properties.StaticResponses

/-!
# Static responses while nothing fails

As long as allocations, seeks and reads succeed (`Healthy`; a read may be short or interrupted), what
the static server stages has a closed form: the header block with the bytes of the file, or of the
range, behind it.  The way the bytes take, buffer or `sendfile`, does not show (`serveRange_logical`,
`serveFull_logical`).  So a TLS connection gets what a plain one gets (`staticServe_tls_transparent`),
and `HEAD` gets the headers of `GET`, unless `GET` is compressed on the fly
(`staticServe_head_mirrors_iff`).
-/

namespace Lamseryn

open ByteText CText FileTree

variable {cx : ServeCtx} {w : ServeWorld}

/-- A `read` that makes progress or is to be repeated. -/
def ReadResult.healthy : ReadResult → Prop
  | .got n => 0 < n
  | .interrupted => True
  | .failed => False

/-- The allocations, seeks and reads to come succeed. -/
structure Healthy (w : ServeWorld) : Prop where
  mallocs : ∀ b ∈ w.mallocs, b = true
  seeks : ∀ b ∈ w.seeks, b = true
  reads : ∀ r ∈ w.reads, r.healthy
  builds : ∀ b ∈ w.builds, b = true

lemma nextOk_of_all {outcomes : List Bool} (h : ∀ b ∈ outcomes, b = true) :
    nextOk outcomes = true := by
  cases outcomes with
  | nil => rfl
  | cons b rest => exact h b List.mem_cons_self

lemma Healthy.of_looks {w' : ServeWorld} (h : Healthy w) (hlooks : OnlyLooks w w') : Healthy w' := by
  obtain ⟨hm, hs, hr, hb⟩ := h
  refine ⟨?_, ?_, ?_, ?_⟩
  · rwa [hlooks.mallocs]
  · rwa [hlooks.seeks]
  · rwa [hlooks.reads]
  · rwa [hlooks.builds]

/-! ## Reading -/

lemma readLoop_full {want : ℕ} {rs : List ReadResult} (hrs : ∀ r ∈ rs, r.healthy) :
    ∀ {src got : Bytes}, got.length ≤ want → want ≤ got.length + src.length →
      (readLoop want rs src got).1 = got ++ src.take (want - got.length) := by
  induction rs with
  | nil => exact fun _ _ => rfl
  | cons r rs ih =>
    intro src got hle henough
    have hrest : ∀ r ∈ rs, r.healthy := fun r hr => hrs r (List.mem_cons_of_mem _ hr)
    unfold readLoop
    split
    · have hdone : want - got.length = 0 := by omega
      simp [hdone]
    · have hr := hrs r List.mem_cons_self
      cases r with
      | interrupted => exact ih hrest hle henough
      | failed => exact hr.elim
      | got n =>
        have hpos : 0 < n := hr
        have hlen : (src.take (min n (want - got.length))).length = min n (want - got.length) := by
          rw [List.length_take]
          omega
        dsimp only
        rw [if_neg (fun hnil => by rw [hnil, List.length_nil] at hlen; omega), hlen,
          ih hrest (by rw [List.length_append, hlen]; omega)
            (by rw [List.length_append, hlen, List.length_drop]; omega),
          List.append_assoc, List.length_append, hlen, ← List.take_add]
        congr 2
        omega

lemma readAll_full {fd : ℤ} {off want : ℕ} (h : Healthy w)
    (henough : off + want ≤ (w.contentAt fd).length) :
    (w.readAll fd off want).1 = ((w.contentAt fd).drop off).take want := by
  have hloop := @readLoop_full want w.reads h.reads ((w.contentAt fd).drop off) []
    (by simp) (by rw [List.length_drop, List.length_nil]; omega)
  rw [List.nil_append, List.length_nil, Nat.sub_zero] at hloop
  exact hloop

/-! ## What is delivered -/

/-- A response and the bytes sent behind its header block, or none. -/
def Delivers (cx : ServeCtx) (out : ServeResult × ServeWorld) : Option (StaticResponse × Bytes) → Prop
  | none => out.1 = .passed
  | some (resp, bytes) =>
    ∃ s, out.1 = .staged s ∧ s.resp = resp ∧ s.buf = resp.block cx ++ s.body ∧ s.sent out.2 = bytes

lemma answer_delivers {resp : StaticResponse} (hresp : resp.Small) (hw : Healthy w) :
    Delivers cx (w.answer cx resp) (some (resp, [])) := by
  rw [answer_eq hresp, nextOk_of_all hw.builds]
  exact ⟨_, rfl, rfl, (List.append_nil _).symm, rfl⟩

lemma sendfile_delivers {resp : StaticResponse} (hresp : resp.Small) (hw : Healthy w) (fd : ℤ)
    (off : ℕ) :
    Delivers cx (w.sendfile cx resp fd off)
      (some (resp, ((w.contentAt fd).drop off).take resp.contentLen)) := by
  have hok := nextOk_of_all hw.builds
  have hstaged := @sendfile_eq cx w resp hresp fd off
  rw [hok, if_pos rfl] at hstaged
  exact ⟨_, hstaged, rfl, (List.append_nil _).symm, sendfile_sent hresp hok fd off⟩

/-! ## Ranges -/

/-- The `Content-Range` line of a range fits its buffer. -/
lemma contentRange_eq {start stop total : ℕ} (hstart : start < 10 ^ 20) (hstop : stop < 10 ^ 20)
    (htotal : total < 10 ^ 20) :
    httpRangeFormatContentRange 128 start stop total =
        headerLine (ascii "Content-Range")
          (ascii "bytes " ++ numeral start ++ ascii "-" ++ numeral stop ++ ascii "/"
            ++ numeral total) ∧
      (httpRangeFormatContentRange 128 start stop total).length < 128 := by
  have hlen : (headerLine (ascii "Content-Range")
      (ascii "bytes " ++ numeral start ++ ascii "-" ++ numeral stop ++ ascii "/"
        ++ numeral total)).length < 128 := by
    have h1 := numeral_length_le (by norm_num) hstart
    have h2 := numeral_length_le (by norm_num) hstop
    have h3 := numeral_length_le (by norm_num) htotal
    have hname : (ascii "Content-Range").length = 13 := by decide
    have hunit : (ascii "bytes ").length = 6 := by decide
    have hdash : (ascii "-").length = 1 := by decide
    have hslash : (ascii "/").length = 1 := by decide
    simp only [headerLine_length, List.length_append, hname, hunit, hdash, hslash]
    omega
  unfold httpRangeFormatContentRange fitted
  rw [if_pos hlen]
  exact ⟨rfl, hlen⟩

lemma contentRangeUnsatisfied_eq {total : ℕ} (htotal : total < 10 ^ 20) :
    httpRangeFormatContentRangeUnsatisfied 128 total =
        headerLine (ascii "Content-Range") (ascii "bytes */" ++ numeral total) ∧
      (httpRangeFormatContentRangeUnsatisfied 128 total).length < 128 := by
  have hlen : (headerLine (ascii "Content-Range")
      (ascii "bytes */" ++ numeral total)).length < 128 := by
    have h3 := numeral_length_le (by norm_num) htotal
    have hname : (ascii "Content-Range").length = 13 := by decide
    have hunit : (ascii "bytes */").length = 8 := by decide
    simp only [headerLine_length, List.length_append, hname, hunit]
    omega
  unfold httpRangeFormatContentRangeUnsatisfied fitted
  rw [if_pos hlen]
  exact ⟨rfl, hlen⟩

lemma text_length_with_lead (x : ExtraHeaders) (lead : Bytes) :
    ({ x with lead } : ExtraHeaders).text.length ≤ lead.length + x.text.length := by
  simp only [ExtraHeaders.text, List.length_append]
  omega

lemma text_with_lead_ne_nil (x : ExtraHeaders) {lead : Bytes} (h : lead ≠ []) :
    ({ x with lead } : ExtraHeaders).text ≠ [] := by
  simp [ExtraHeaders.text, h]

lemma headerLine_ne_nil (name value : Bytes) : headerLine name value ≠ [] := by
  intro h
  have hlen := headerLine_length name value
  rw [h, List.length_nil] at hlen
  omega

section Prepared

variable {w0 : ServeWorld} {f : Prepared} {d i : ℕ} {identity : ℕ × FileData} {data : FileData}

lemma PreparedOn.lead_fits (h : PreparedOn cx w0 w f d identity i data) {lead : Bytes}
    (hne : lead ≠ []) (hlen : lead.length < 128) :
    ({ f.extra with lead } : ExtraHeaders).text ≠ [] ∧
      ({ f.extra with lead } : ExtraHeaders).text.length < validatorHdrsMax + 128 := by
  have htext := text_length_with_lead f.extra lead
  have hfits := h.fits
  exact ⟨text_with_lead_ne_nil _ hne, htext.trans_lt (by omega)⟩

lemma unsatisfiableResponse_small (h : PreparedOn cx w0 w f d identity i data) :
    (unsatisfiableResponse cx f).Small ∧
      (unsatisfiableResponse cx f).extraFits (validatorHdrsMax + 128) = true := by
  have hsize := h.size_lt
  obtain ⟨hlead, hlen⟩ := @contentRangeUnsatisfied_eq f.sel.st.size (by omega)
  obtain ⟨hne, hfits⟩ := h.lead_fits (hlead ▸ headerLine_ne_nil _ _) hlen
  refine ⟨⟨nofun, ?_, ?_, ?_⟩, decide_eq_true ⟨hne, hfits⟩⟩
  · show 0 < 10 ^ 20
    norm_num
  · show (ascii "416 Range Not Satisfiable").length ≤ 64
    decide
  · exact hfits.trans (by unfold validatorHdrsMax; norm_num)

lemma partialResponse_small (h : PreparedOn cx w0 w f d identity i data) {rr : ResolvedRange}
    (horder : rr.start ≤ rr.stop) (hstop : rr.stop < f.sel.st.size)
    (hlen : rr.length = rr.stop - rr.start + 1) :
    (partialResponse cx f rr).Small ∧
      (partialResponse cx f rr).extraFits (validatorHdrsMax + 256) = true := by
  have hsize := h.size_lt
  obtain ⟨hlead, hleadLen⟩ := @contentRange_eq rr.start rr.stop f.sel.st.size (by omega) (by omega)
    (by omega)
  obtain ⟨hne, hfits⟩ := h.lead_fits (hlead ▸ headerLine_ne_nil _ _) hleadLen
  refine ⟨⟨?_, ?_, ?_, ?_⟩, decide_eq_true ⟨hne, hfits.trans (by omega)⟩⟩
  · intro ctype hctype
    cases hctype
    exact h.ctype_length_le
  · show rr.length < 10 ^ 20
    omega
  · show (ascii "206 Partial Content").length ≤ 64
    decide
  · exact hfits.trans (by unfold validatorHdrsMax; norm_num)

/-- A range is sent from a buffer. -/
lemma partialBuffered_eq (h : PreparedOn cx w0 w f d identity i data) (hw : Healthy w)
    {rr : ResolvedRange} (horder : rr.start ≤ rr.stop) (hstop : rr.stop < f.sel.st.size)
    (hlen : rr.length = rr.stop - rr.start + 1) :
    (partialBuffered cx f rr w).1 =
      .error (.staged
        { resp := partialResponse cx f rr
          buf := (partialResponse cx f rr).block cx ++ (data.bytes.drop rr.start).take rr.length
          body := (data.bytes.drop rr.start).take rr.length }) := by
  have hcontent : w.contentAt f.sel.fd = data.bytes := h.chosen.openOn.contentAt
  have hsize := h.size_eq
  have hlt := h.size_lt
  obtain ⟨hsmall, -⟩ := partialResponse_small h horder hstop hlen
  have hbytes : ((data.bytes.drop rr.start).take rr.length).length = rr.length := by
    rw [List.length_take, List.length_drop]
    omega
  let w2 : ServeWorld := { w with mallocs := w.mallocs.tail, seeks := w.seeks.tail }
  have hw2 : Healthy w2 :=
    ⟨fun b hb => hw.mallocs b (List.mem_of_mem_tail hb),
      fun b hb => hw.seeks b (List.mem_of_mem_tail hb), hw.reads, hw.builds⟩
  have hcontent2 : w2.contentAt f.sel.fd = data.bytes := hcontent
  have hread : (w2.readAll f.sel.fd rr.start rr.length).1
      = (data.bytes.drop rr.start).take rr.length := by
    rw [readAll_full hw2 (by rw [hcontent2]; omega), hcontent2]
  have hbuilds : ((w2.readAll f.sel.fd rr.start rr.length).2.close f.sel.fd).builds = w.builds := rfl
  unfold partialBuffered ServeWorld.malloc ServeWorld.lseek
  rw [nextOk_of_all hw.mallocs]
  dsimp only
  rw [nextOk_of_all hw.seeks]
  show (if (w2.readAll f.sel.fd rr.start rr.length).1.length = rr.length then _ else _ :
    Except ServeResult (Option ℤ) × ServeWorld).1 = _
  rw [hread, if_pos hbytes, build_eq hsmall (by omega), hbuilds, nextOk_of_all hw.builds]
  rfl

lemma servePartial_delivers (h : PreparedOn cx w0 w f d identity i data) (hw : Healthy w)
    {rr : ResolvedRange} (horder : rr.start ≤ rr.stop) (hstop : rr.stop < f.sel.st.size)
    (hlen : rr.length = rr.stop - rr.start + 1) :
    Delivers cx (servePartial cx f rr w)
      (some (partialResponse cx f rr, (data.bytes.drop rr.start).take rr.length)) := by
  have hcontent : w.contentAt f.sel.fd = data.bytes := h.chosen.openOn.contentAt
  obtain ⟨hsmall, hfits⟩ := partialResponse_small h horder hstop hlen
  have hbuffered := partialBuffered_eq h hw horder hstop hlen
  unfold servePartial
  rw [if_neg (by simp [hfits])]
  split
  · generalize partialBuffered cx f rr w = out at hbuffered ⊢
    obtain ⟨r, w1⟩ := out
    cases hbuffered
    exact ⟨_, rfl, rfl, rfl, List.append_nil _⟩
  · rw [← hcontent]
    exact sendfile_delivers hsmall hw _ _

/-- The response to a range of the prepared file. -/
def rangeResponse (cx : ServeCtx) (f : Prepared) (br : ByteRange) (bytes : Bytes) :
    StaticResponse × Bytes :=
  match httpRangeResolve br f.sel.st.size with
  | some rr => (partialResponse cx f rr, (bytes.drop rr.start).take rr.length)
  | none => (unsatisfiableResponse cx f, [])

lemma serveRange_delivers (h : PreparedOn cx w0 w f d identity i data) (hw : Healthy w)
    {br : ByteRange} (hbr : br.Valid) :
    Delivers cx (serveRange cx f br w) (some (rangeResponse cx f br data.bytes)) := by
  unfold serveRange rangeResponse
  cases hresolve : httpRangeResolve br f.sel.st.size with
  | some rr =>
    obtain ⟨horder, hstop, hlen⟩ := httpRangeResolve_some hbr hresolve
    exact servePartial_delivers h hw horder hstop hlen
  | none =>
    obtain ⟨hsmall, hfits⟩ := unsatisfiableResponse_small h
    dsimp only
    rw [if_pos hfits]
    exact answer_delivers hsmall (hw.of_looks (onlyLooks_close w _))

/-! ## The whole file -/

lemma bufferFailure_eq_none (h : PreparedOn cx w0 w f d identity i data) (hw : Healthy w) :
    bufferFailure cx f w = none := by
  have hcontent : w.contentAt f.sel.fd = data.bytes := h.chosen.openOn.contentAt
  let w2 : ServeWorld := { w with mallocs := w.mallocs.tail }
  have hw2 : Healthy w2 :=
    ⟨fun b hb => hw.mallocs b (List.mem_of_mem_tail hb), hw.seeks, hw.reads, hw.builds⟩
  have hcontent2 : w2.contentAt f.sel.fd = data.bytes := hcontent
  have hread : (w2.readAll f.sel.fd 0 f.sel.st.size).1 = data.bytes := by
    rw [readAll_full hw2 (by rw [hcontent2, h.size_eq]; omega), hcontent2, List.drop_zero, h.size_eq,
      List.take_length]
  have hbuilds : (w2.readAll f.sel.fd 0 f.sel.st.size).2.builds = w.builds := rfl
  unfold bufferFailure
  rw [malloc_eq, nextOk_of_all hw.mallocs]
  show (if (w2.readAll f.sel.fd 0 f.sel.st.size).1.length ≠ f.sel.st.size then _
    else if nextOk (w2.readAll f.sel.fd 0 f.sel.st.size).2.builds then none else _ :
      Option (ℕ × ServeWorld)) = none
  rw [hread, if_neg (not_not.mpr h.size_eq.symm), hbuilds, nextOk_of_all hw.builds, if_pos rfl]

/-- The response with the whole file. -/
def wholeResponse (cx : ServeCtx) (f : Prepared) (bytes : Bytes) : StaticResponse × Bytes :=
  if cx.h1.method = .head then (fullResponse cx f f.sel.st.size, [])
  else
    match dynCompress cx f bytes with
    | some (coding, out) => (compressedResponse cx f coding out.length, out)
    | none => (fullResponse cx f f.sel.st.size, bytes)

lemma serveMode_head_iff : serveMode cx f = .head ↔ cx.h1.method = .head := by
  unfold serveMode requestBuildStaticServePlan
  by_cases hhead : cx.h1.method = .head
  · simp [hhead]
  · simp only [hhead, if_false, iff_false]
    split
    · split <;> simp
    · split <;> simp

/-- What is sent by `sendfile` is not compressed. -/
lemma dynEligible_of_sendfile (hmode : serveMode cx f = .sendfile) : dynEligible cx f = false := by
  unfold serveMode at hmode
  split at hmode
  · split at hmode
    · cases hmode
    · rename_i hnot
      simpa using fun h => hnot (.inr h)
  · rename_i hnot
    exact (hnot hmode).elim

lemma serveFull_delivers (h : PreparedOn cx w0 w f d identity i data) (hw : Healthy w) :
    Delivers cx (serveFull cx f w) (some (wholeResponse cx f data.bytes)) := by
  have hcontent : w.contentAt f.sel.fd = data.bytes := h.chosen.openOn.contentAt
  have hsmall := fullResponse_small h h.size_lt
  unfold serveFull wholeResponse
  cases hmode : serveMode cx f with
  | head =>
    rw [if_pos (serveMode_head_iff.mp hmode)]
    exact answer_delivers hsmall (hw.of_looks (onlyLooks_close w _))
  | buffered =>
    have hget : cx.h1.method ≠ .head := fun hhead => by
      rw [serveMode_head_iff.mpr hhead] at hmode
      cases hmode
    have hstaged := (serveBuffered_eq h).2 (bufferFailure_eq_none h hw)
    rw [if_neg hget]
    unfold bufferStaged at hstaged
    cases hdyn : dynCompress cx f data.bytes with
    | none =>
      rw [hdyn] at hstaged
      exact ⟨_, hstaged, rfl, rfl, List.append_nil _⟩
    | some r =>
      rw [hdyn] at hstaged
      exact ⟨_, hstaged, rfl, rfl, List.append_nil _⟩
  | sendfile =>
    have hget : cx.h1.method ≠ .head := fun hhead => by
      rw [serveMode_head_iff.mpr hhead] at hmode
      cases hmode
    have hdyn : dynCompress cx f data.bytes = none := by
      rw [dynCompress, dynEligible_of_sendfile hmode, if_neg (by simp)]
    have hsend := @sendfile_delivers cx w _ hsmall hw f.sel.fd 0
    have hbytes : ((w.contentAt f.sel.fd).drop 0).take (fullResponse cx f f.sel.st.size).contentLen
        = data.bytes := by
      show ((w.contentAt f.sel.fd).drop 0).take f.sel.st.size = data.bytes
      rw [hcontent, List.drop_zero, h.size_eq, List.take_length]
    rw [hbytes] at hsend
    rw [if_neg hget, hdyn]
    exact hsend

end Prepared

/-! ## The whole function -/

lemma notModifiedResponse_small {f : Prepared} (hfits : f.extra.text.length < validatorHdrsMax) :
    (notModifiedResponse cx f).Small := by
  refine ⟨nofun, ?_, ?_, ?_⟩
  · show 0 < 10 ^ 20
    norm_num
  · show (ascii "304 Not Modified").length ≤ 64
    decide
  · exact hfits.trans (by unfold validatorHdrsMax; norm_num)

lemma redirectResponse_small (hfits : (locationLine cx.h1).length < reqTargetMax + 16) :
    (redirectResponse cx).Small := by
  refine ⟨nofun, ?_, ?_, ?_⟩
  · show 0 < 10 ^ 20
    norm_num
  · show (ascii "301 Moved Permanently").length ≤ 64
    decide
  · have htext : (redirectResponse cx).extra.text = locationLine cx.h1 := by
      simp [redirectResponse, ExtraHeaders.text]
    rw [htext]
    exact hfits.trans (by unfold reqTargetMax; norm_num)

lemma failClosedResponse_small : failClosedResponse.Small := by
  refine ⟨nofun, ?_, ?_, ?_⟩
  · show 0 < 10 ^ 20
    norm_num
  · show (ascii "500 Internal Server Error").length ≤ 64
    decide
  · show (ExtraHeaders.text {}).length < 4096
    decide

lemma failClosed_delivers (hw : Healthy w) (fd : ℤ) :
    Delivers cx (failClosed cx fd w) (some (failClosedResponse, [])) := by
  have hok : nextOk (w.close fd).builds = true := nextOk_of_all hw.builds
  unfold failClosed
  rw [build_eq failClosedResponse_small (by simp), hok]
  exact ⟨_, rfl, rfl, rfl, rfl⟩

/-- What an early end of the function delivers. -/
def ServeResult.answered : ServeResult → Option (StaticResponse × Bytes)
  | .passed => none
  | .staged s => some (s.resp, [])

/-- The response of the static server while nothing fails.  It does not depend on the transport. -/
def responseFor (cx : ServeCtx) (w : ServeWorld) : Option (StaticResponse × Bytes) :=
  match openRequested cx w with
  | (.error r, _) => r.answered
  | (.ok (relpath, fd, st), w) =>
    match probed cx relpath fd st w with
    | (sel, w) =>
      if (assembledFor cx relpath sel).overflow then some (failClosedResponse, [])
      else
        let f := preparedFor cx relpath sel
        if notModified cx f then some (notModifiedResponse cx f, [])
        else
          match appliedRange cx f with
          | some br => some (rangeResponse cx f br (w.contentAt f.sel.fd))
          | none => some (wholeResponse cx f (w.contentAt f.sel.fd))

lemma serveOther_delivers (hw : Healthy w) (fd : ℤ) (st : FileStat) :
    Delivers cx (serveOther cx fd st w) (serveOther cx fd st w).1.answered := by
  unfold serveOther
  dsimp only
  split
  · rename_i hdir
    obtain ⟨s, hs, hresp, hbuf, hsent⟩ := answer_delivers (redirectResponse_small hdir.2.2)
      (hw.of_looks (onlyLooks_close w fd))
    rw [hs]
    exact ⟨s, hs, rfl, by rw [hresp]; exact hbuf, hsent⟩
  · rfl

lemma openRequested_error {r : ServeResult} {w' : ServeWorld} (hw : Healthy w)
    (h : openRequested cx w = (.error r, w')) : Delivers cx (r, w') r.answered := by
  unfold openRequested at h
  split at h
  · cases h
    rfl
  split at h
  · cases h
    rfl
  rename_i relpath _
  split at h
  · cases h
    rfl
  rename_i fd w1 hopen
  split at h
  · cases h
    rfl
  rename_i st w2 hstat
  split at h
  · cases h
  have hw2 : Healthy w2 := by
    have hfirst := onlyLooks_openBeneath w cx relpath
    rw [openOrRecord_some hopen] at hfirst
    have hsecond := onlyLooks_fstat w1 fd
    rw [hstat] at hsecond
    exact hw.of_looks (hfirst.trans hsecond)
  have hother := @serveOther_delivers cx w2 hw2 fd st
  generalize serveOther cx fd st w2 = out at h hother
  obtain ⟨r1, w3⟩ := out
  cases h
  exact hother

lemma appliedRange_valid {f : Prepared} {br : ByteRange} (h : appliedRange cx f = some br) :
    br.Valid := by
  unfold appliedRange at h
  split at h
  · split at h
    · cases h
    · split at h
      · cases h
      · exact httpRangeParse_valid (Option.filter_eq_some_iff.mp h).1
  · cases h

theorem staticServe_delivers (cx : ServeCtx) (hw : Healthy w) :
    Delivers cx (staticServeTryPrepareDocrootResponse cx w) (responseFor cx w) := by
  unfold staticServeTryPrepareDocrootResponse prepareFull responseFor
  cases hopen : openRequested cx w with
  | mk r w1 =>
    cases r with
    | error r => exact openRequested_error hw hopen
    | ok opened =>
      obtain ⟨relpath, fd, st⟩ := opened
      have hlooks : OnlyLooks w (probed cx relpath fd st w1).2 :=
        (onlyLooks_openRequested hopen).trans (onlyLooks_probeSiblings _ _ _ _ _)
      have hw1 := hw.of_looks hlooks
      have hprepared := @preparedOn_of_opened cx relpath fd st w w1 hopen
      dsimp only
      rw [selectRepresentation_eq]
      generalize probed cx relpath fd st w1 = out at hw1 hprepared ⊢
      obtain ⟨sel, w2⟩ := out
      dsimp only at hw1 hprepared ⊢
      cases hover : (assembledFor cx relpath sel).overflow with
      | true =>
        rw [if_pos rfl, if_pos rfl]
        exact failClosed_delivers hw1 sel.fd
      | false =>
        obtain ⟨d, identity, i, data, h⟩ := hprepared hover
        rw [if_neg (by simp), if_neg (by simp), h.chosen.openOn.contentAt]
        dsimp only
        cases hnot : notModified cx (preparedFor cx relpath sel) with
        | true =>
          rw [if_pos rfl, if_pos rfl]
          exact answer_delivers (notModifiedResponse_small h.fits)
            (hw1.of_looks (onlyLooks_close w2 _))
        | false =>
          rw [if_neg (by simp), if_neg (by simp)]
          cases hrange : appliedRange cx (preparedFor cx relpath sel) with
          | some br => exact serveRange_delivers h hw1 (appliedRange_valid hrange)
          | none => exact serveFull_delivers h hw1

/-! ## TLS -/

/-- The header block and the body of what is staged, wherever the bytes are. -/
def logicalResponse (out : ServeResult × ServeWorld) : Option Bytes :=
  match out.1 with
  | .passed => none
  | .staged s => some (s.buf ++ (s.file.map out.2.fileBytes).getD [])

lemma Delivers.logical {out : ServeResult × ServeWorld} {r : Option (StaticResponse × Bytes)}
    (h : Delivers cx out r) : logicalResponse out = r.map fun p => p.1.block cx ++ p.2 := by
  unfold logicalResponse
  cases r with
  | none =>
    have hpassed : out.1 = .passed := h
    rw [hpassed]
    rfl
  | some p =>
    obtain ⟨resp, bytes⟩ := p
    obtain ⟨s, hs, -, hbuf, hsent⟩ := h
    rw [hs]
    dsimp only
    rw [hbuf, List.append_assoc, ← hsent]
    rfl

lemma compressFirst_tls (accepted : CodingMask) (level : ℕ) (bytes : Bytes) (tls : Bool)
    (codings : List ContentCoding) :
    compressFirst { cx with tls } accepted level bytes codings =
      compressFirst cx accepted level bytes codings := by
  induction codings with
  | nil => rfl
  | cons coding rest ih =>
    have hwith : compressWith { cx with tls } level bytes coding = compressWith cx level bytes coding := by
      cases coding <;> rfl
    simp only [compressFirst, ih, hwith]

lemma wholeResponse_tls (f : Prepared) (bytes : Bytes) (tls : Bool) :
    wholeResponse { cx with tls } f bytes = wholeResponse cx f bytes := by
  have hdyn : dynCompress { cx with tls } f bytes = dynCompress cx f bytes := by
    unfold dynCompress
    rw [compressFirst_tls]
    rfl
  unfold wholeResponse
  rw [hdyn]
  rfl

lemma responseFor_tls (w : ServeWorld) (tls : Bool) :
    responseFor { cx with tls } w = responseFor cx w := by
  unfold responseFor
  simp only [wholeResponse_tls]
  rfl

/-- A TLS connection is sent the same response as a plain one. -/
theorem staticServe_tls_transparent (cx : ServeCtx) (w : ServeWorld) (hw : Healthy w) :
    logicalResponse (staticServeTryPrepareDocrootResponse { cx with tls := true } w) =
      logicalResponse (staticServeTryPrepareDocrootResponse { cx with tls := false } w) := by
  rw [(staticServe_delivers _ hw).logical, (staticServe_delivers _ hw).logical,
    responseFor_tls w true, responseFor_tls w false]
  rfl

/-- A small file, read in two pieces after an interruption. -/
theorem staticServe_tls_transparent_small :
    Healthy { proc := smallSite, reads := [.interrupted, .got 1] } ∧
      logicalResponse (staticServeTryPrepareDocrootResponse { smallRequest with tls := true }
          { proc := smallSite, reads := [.interrupted, .got 1] }) =
        logicalResponse (staticServeTryPrepareDocrootResponse { smallRequest with tls := false }
          { proc := smallSite, reads := [.interrupted, .got 1] }) := by
  have hw : Healthy { proc := smallSite, reads := [.interrupted, .got 1] } :=
    ⟨nofun, nofun, by simp [ReadResult.healthy], nofun⟩
  exact ⟨hw, staticServe_tls_transparent smallRequest _ hw⟩

/-! ## `HEAD` -/

/-- The same request with another method. -/
def ServeCtx.asking (cx : ServeCtx) (method : LlhttpMethod) : ServeCtx :=
  { cx with h1 := { cx.h1 with method } }

/-- Status line, type, length, coding and validators of a response. -/
structure Described where
  statusLine : Bytes
  contentType : Option Bytes
  contentLength : Option ℕ
  coding : Option ContentCoding
  validators : Bytes
  deriving DecidableEq

def StaticResponse.described (resp : StaticResponse) : Described :=
  { statusLine := resp.statusLine
    contentType := resp.contentType
    contentLength := if resp.emitContentLength then some resp.contentLen else none
    coding := resp.extra.coding
    validators := resp.extra.validators }

def ServeResult.described : ServeResult → Option Described
  | .passed => none
  | .staged s => some s.resp.described

lemma Delivers.described {out : ServeResult × ServeWorld} {r : Option (StaticResponse × Bytes)}
    (h : Delivers cx out r) : out.1.described = r.map fun p => p.1.described := by
  cases r with
  | none =>
    have hpassed : out.1 = .passed := h
    rw [hpassed]
    rfl
  | some p =>
    obtain ⟨resp, bytes⟩ := p
    obtain ⟨s, hs, hresp, -, -⟩ := h
    rw [hs, ServeResult.described, hresp]
    rfl

/-- A `GET` of the file would be compressed on the fly. -/
def CompressesOnTheFly (cx : ServeCtx) (w : ServeWorld) : Prop :=
  ∃ f w', prepareFull (cx.asking .get) w = (.ok f, w') ∧
    (dynCompress (cx.asking .get) f (w'.contentAt f.sel.fd)).isSome

lemma appliedRange_none {f : Prepared}
    (h : httpHeaderFindValue cx.h1.hdrs.reqHdrs .range = none) : appliedRange cx f = none := by
  unfold appliedRange
  rw [h]
  split <;> rfl

lemma compressedResponse_coding {f : Prepared} (hprobed : f.probed = none) (c : ContentCoding)
    (len : ℕ) : (compressedResponse cx f c len).extra.coding = some c := by
  unfold compressedResponse
  rw [hprobed]
  rfl

/-- The two responses with the whole file are alike iff that to `GET` is not compressed. -/
lemma wholeResponse_described_iff {w0 : ServeWorld} {f : Prepared} {d i : ℕ} {identity : ℕ × FileData}
    {data : FileData} (h : PreparedOn (cx.asking .get) w0 w f d identity i data) :
    (wholeResponse (cx.asking .head) f data.bytes).1.described =
        (wholeResponse (cx.asking .get) f data.bytes).1.described ↔
      ¬ (dynCompress (cx.asking .get) f data.bytes).isSome := by
  have hhead : wholeResponse (cx.asking .head) f data.bytes =
      (fullResponse (cx.asking .get) f f.sel.st.size, []) := rfl
  have hget : (cx.asking .get).h1.method ≠ .head := nofun
  rw [hhead]
  unfold wholeResponse
  rw [if_neg hget]
  cases hdyn : dynCompress (cx.asking .get) f data.bytes with
  | none => simp
  | some r =>
    obtain ⟨c, out⟩ := r
    have hnone := coding_of_dynEligible (dynCompress_some hdyn).1
    have hprobed : f.probed = none := h.probed.trans hnone
    simp only [Option.isSome_some, not_true_eq_false, iff_false]
    intro heq
    have hcoding : f.extra.coding = (compressedResponse (cx.asking .get) f c out.length).extra.coding :=
      congrArg Described.coding heq
    rw [compressedResponse_coding hprobed, h.coding, hnone] at hcoding
    cases hcoding

lemma prepareFull_head (hrange : httpHeaderFindValue cx.h1.hdrs.reqHdrs .range = none) :
    prepareFull (cx.asking .head) w = prepareFull (cx.asking .get) w := by
  have hnone : ∀ method f, appliedRange (cx.asking method) f = none :=
    fun method _ => appliedRange_none (show httpHeaderFindValue
      (cx.asking method).h1.hdrs.reqHdrs .range = none from hrange)
  unfold prepareFull
  simp only [hnone]
  rfl

/-- `HEAD` is answered with the headers of `GET`, exactly if `GET` is not compressed on the fly. -/
theorem staticServe_head_mirrors_iff (cx : ServeCtx) (w : ServeWorld) (hw : Healthy w)
    (hrange : httpHeaderFindValue cx.h1.hdrs.reqHdrs .range = none) :
    (staticServeTryPrepareDocrootResponse (cx.asking .head) w).1.described =
        (staticServeTryPrepareDocrootResponse (cx.asking .get) w).1.described ↔
      ¬ CompressesOnTheFly cx w := by
  have hsame := @prepareFull_head cx w hrange
  unfold CompressesOnTheFly staticServeTryPrepareDocrootResponse
  rw [hsame]
  cases hget : prepareFull (cx.asking .get) w with
  | mk r w1 =>
    cases r with
    | error r => simp
    | ok f =>
      obtain ⟨d, identity, i, data, h⟩ := prepareFull_chosen hget
      obtain ⟨d', identity', i', data', h'⟩ := prepareFull_chosen (hsame.trans hget)
      have hcontent : w1.contentAt f.sel.fd = data.bytes := h.chosen.openOn.contentAt
      have hbytes : data'.bytes = data.bytes := h'.chosen.openOn.contentAt.symm.trans hcontent
      have hw1 := hw.of_looks h.looks
      dsimp only
      rw [(serveFull_delivers h' hw1).described, (serveFull_delivers h hw1).described, hbytes,
        Option.map_some, Option.map_some, Option.some_inj, wholeResponse_described_iff h]
      simp [hcontent]

/-- Without the feature nothing is compressed. -/
theorem staticServe_head_mirrors_small :
    (staticServeTryPrepareDocrootResponse (smallRequest.asking .head) { proc := smallSite }).1.described =
      (staticServeTryPrepareDocrootResponse (smallRequest.asking .get)
        { proc := smallSite }).1.described := by
  refine (staticServe_head_mirrors_iff smallRequest { proc := smallSite } ⟨nofun, nofun, nofun, nofun⟩
    rfl).mpr ?_
  rintro ⟨f, w', -, hdyn⟩
  obtain ⟨⟨c, out⟩, hsome⟩ := Option.isSome_iff_exists.mp hdyn
  have heligible := (dynCompress_some hsome).1
  simp [dynEligible, ServeCtx.asking, smallRequest] at heligible

/-- A document root with a text that gzip makes shorter, open as descriptor 3. -/
def textSite : Process ℕ FileData where
  tree :=
    { root := 0
      node := fun i =>
        if i = 0 then .dir 0 [(ascii "a.txt", 1)]
        else if i = 1 then .file { bytes := List.replicate 40 97, size_lt := by decide }
        else .special }
  fds := [(3, 0)]

/-- What zlib makes of the text at level 1. -/
def gzippedText : Bytes :=
  [31, 139, 8, 0, 0, 0, 0, 0, 4, 3, 75, 76, 36, 14, 0, 0, 37, 138, 91, 201, 40, 0, 0, 0]

/-- A request for the text that accepts gzip, where texts are compressed on the fly. -/
def textRequest : ServeCtx where
  h1 :=
    { method := .get
      pathNorm := ascii "/a.txt"
      hdrs :=
        { reqHdrs := [⟨.acceptEncoding, ascii "accept-encoding", ascii "gzip", false⟩] } }
  vhost :=
    some
      { docrootFd := 3
        features := { static := true, compression := true }
        compDynamic := some true
        compDynamicMinBytes := some 1 }
  tls := false
  docrootFd := 3
  date := []
  date_lt := no_date_lt
  haveBrotli := false
  codec := ⟨fun _ _ => some gzippedText, fun _ _ => none⟩

/-- `HEAD` announces the text itself, `GET` sends it compressed. -/
theorem staticServe_head_differs :
    (staticServeTryPrepareDocrootResponse (textRequest.asking .head) { proc := textSite }).1.described ≠
      (staticServeTryPrepareDocrootResponse (textRequest.asking .get)
        { proc := textSite }).1.described := by
  decide +kernel

end Lamseryn
