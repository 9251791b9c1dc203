import Lamseryn.Properties.StaticDescriptors

/-!
# The responses of the static server

What a stage of `static_serve_try_prepare_docroot_response` stages: the response it was given
(`answer_staged`, `sendfile_staged`), with the bytes that it read (`readLoop_eq`).  A header block
fails only for want of memory (`build_eq`): its lines and the sizes of files stay within the limits
that `tx_build_headers` checks.
-/

namespace Lamseryn

open ByteText CText FileTree

variable {cx : ServeCtx} {w : ServeWorld}

/-! ## Reading -/

lemma readLoop_eq (want : ℕ) (rs : List ReadResult) : ∀ (src got : Bytes),
    ∃ n, (readLoop want rs src got).1 = got ++ src.take n := by
  induction rs with
  | nil => exact fun src got => ⟨want - got.length, rfl⟩
  | cons r rs ih =>
    intro src got
    unfold readLoop
    split
    · exact ⟨0, by simp⟩
    · cases r with
      | interrupted => exact ih src got
      | failed => exact ⟨0, by simp⟩
      | got n =>
        dsimp only
        split
        · exact ⟨0, by simp⟩
        · obtain ⟨m, hm⟩ := ih (src.drop (src.take (min n (want - got.length))).length)
            (got ++ src.take (min n (want - got.length)))
          refine ⟨(src.take (min n (want - got.length))).length + m, ?_⟩
          rw [hm, List.append_assoc, List.take_add]
          congr 2
          rw [List.length_take]
          exact (List.take_eq_take_min).trans (by rw [Nat.min_comm])

lemma readAll_eq {fd : ℤ} {want : ℕ} (hsize : (w.contentAt fd).length = want)
    (hgot : (w.readAll fd 0 want).1.length = want) : (w.readAll fd 0 want).1 = w.contentAt fd := by
  obtain ⟨n, hn⟩ := readLoop_eq want w.reads ((w.contentAt fd).drop 0) []
  have hread : (w.readAll fd 0 want).1 = (w.contentAt fd).take n := by
    rw [List.drop_zero, List.nil_append] at hn
    exact hn
  rw [hread] at hgot ⊢
  rw [List.length_take] at hgot
  exact List.take_of_length_le (by omega)

/-! ## Header blocks -/

lemma mimeType_length_le (path : Bytes) : (staticServeMimeTypeForPath path).length ≤ 38 := by
  have htable : ∀ e ∈ mimeTable, e.2.length ≤ 38 := by decide
  have hdefault : (ascii "application/octet-stream").length ≤ 38 := by decide
  unfold staticServeMimeTypeForPath
  dsimp only
  split
  · exact hdefault
  · cases hlook : mimeTable.lookup (path.rtakeWhile (· ≠ 46)) with
    | none => exact hdefault
    | some ctype =>
      obtain ⟨before, after, hsplit, -⟩ := List.lookup_eq_some_iff.mp hlook
      apply htable (path.rtakeWhile (· ≠ 46), ctype)
      rw [hsplit]
      simp

/-- A response within the limits of `tx_build_headers`. -/
structure StaticResponse.Small (resp : StaticResponse) : Prop where
  contentType : ∀ ctype ∈ resp.contentType, ctype.length ≤ 38
  contentLen : resp.contentLen < 10 ^ 20
  statusLine : resp.statusLine.length ≤ 64
  extra : resp.extra.text.length < 4096

lemma contentLengthLine_length_le {n : ℕ} (h : n < 10 ^ 20) : (contentLengthLine n).length ≤ 38 := by
  have hname : (ascii "Content-Length").length = 14 := by decide
  have hnum := numeral_length_le (by norm_num) h
  rw [contentLengthLine, headerLine_length, hname]
  omega

lemma contentLines_small {resp : StaticResponse} (h : resp.Small) :
    ∃ content, resp.spec.contentLines = some content ∧ content.length < 128 := by
  have hlen := contentLengthLine_length_le h.contentLen
  have hlines : ∀ lines : Bytes, lines.length ≤ 94 →
      ∃ content, (if 128 ≤ lines.length then none else some lines) = some content ∧
        content.length < 128 := by
    intro lines hle
    exact ⟨lines, if_neg (by omega), by omega⟩
  unfold HeaderSpec.contentLines
  apply hlines
  cases hctype : resp.contentType with
  | none =>
    simp only [StaticResponse.spec, hctype]
    split
    · omega
    · simp
  | some ctype =>
    have hname : (ascii "Content-Type").length = 12 := by decide
    have hle := h.contentType ctype (by simp [hctype])
    simp only [StaticResponse.spec, hctype, List.length_append, headerLine_length, hname]
    omega

/-- The header block of a response. -/
def StaticResponse.block (cx : ServeCtx) (resp : StaticResponse) : Bytes :=
  resp.spec.block cx.date (resp.spec.contentLines.getD [])

lemma block_length_lt {resp : StaticResponse} (h : resp.Small) :
    (resp.block cx).length < 8192 := by
  obtain ⟨content, hcontent, hlen⟩ := contentLines_small h
  have hdate := cx.date_lt
  have hstatus := h.statusLine
  have hextra := h.extra
  have hhttp : (ascii "HTTP/1.1 ").length = 9 := by decide
  have hend : (ascii "\r\n").length = 2 := by decide
  have hconn : (ascii "Connection").length = 10 := by decide
  have hka : (ascii (if resp.keepalive then "keep-alive" else "close")).length ≤ 10 := by
    split <;> decide
  rw [StaticResponse.block, hcontent, Option.getD_some, HeaderSpec.block]
  simp only [List.length_append, headerLine_length, hhttp, hend, hconn]
  show 9 + resp.statusLine.length + 2 + cx.date.length + content.length
    + (10 + (ascii (if resp.keepalive then "keep-alive" else "close")).length + 4)
    + resp.extra.text.length + 2 < 8192
  omega

lemma build_eq {resp : StaticResponse} {body : Bytes} (h : resp.Small) (hbody : body.length < 2 ^ 63) :
    w.build cx resp body =
      (if nextOk w.builds then some { resp, buf := resp.block cx ++ body, body } else none,
        { w with builds := w.builds.tail }) := by
  obtain ⟨content, hcontent, -⟩ := contentLines_small h
  have hblock := @block_length_lt cx resp h
  have heq : resp.block cx = resp.spec.block cx.date content := by
    rw [StaticResponse.block, hcontent, Option.getD_some]
  have hroom : ¬ sizeMax - (resp.spec.block cx.date content).length - 1 < body.length := by
    rw [← heq]
    unfold sizeMax
    omega
  unfold ServeWorld.build txBuildHeaders
  rw [hcontent]
  dsimp only
  rw [if_neg hroom, heq]
  cases nextOk w.builds <;> rfl

/-! ## Small responses -/

section Prepared

variable {w0 : ServeWorld} {f : Prepared} {d i : ℕ} {identity : ℕ × FileData} {data : FileData}

lemma PreparedOn.ctype_length_le (h : PreparedOn cx w0 w f d identity i data) :
    f.ctype.length ≤ 38 := by
  rw [congrArg Prepared.ctype h.prepared]
  exact mimeType_length_le f.relpath

lemma PreparedOn.size_eq (h : PreparedOn cx w0 w f d identity i data) :
    f.sel.st.size = data.bytes.length := by
  rw [h.chosen.st]
  rfl

lemma PreparedOn.size_lt (h : PreparedOn cx w0 w f d identity i data) :
    f.sel.st.size < 2 ^ 63 := by
  rw [h.size_eq]
  exact data.size_lt

lemma PreparedOn.coding (h : PreparedOn cx w0 w f d identity i data) :
    f.extra.coding = f.sel.coding := by
  have hextra := congrArg Prepared.extra h.prepared
  have hsel := @assembledFor_siblingCoding cx f.relpath { f.sel with coding := f.probed }
  have hdyn : f.extra.dynamicCoding = none := by
    rw [hextra]
    rfl
  rw [ExtraHeaders.coding, hdyn, Option.none_or, hextra]
  exact hsel.trans h.probed

lemma fullResponse_small (h : PreparedOn cx w0 w f d identity i data) {len : ℕ} (hlen : len < 2 ^ 63) :
    (fullResponse cx f len).Small := by
  refine ⟨?_, ?_, ?_, ?_⟩
  · intro ctype hctype
    cases hctype
    exact h.ctype_length_le
  · show len < 10 ^ 20
    omega
  · show (ascii "200 OK").length ≤ 64
    decide
  · have hfits := h.fits
    unfold validatorHdrsMax at hfits
    show f.extra.text.length < 4096
    omega

lemma contentEncodingLine_length_le (c : ContentCoding) : (contentEncodingLine c).length ≤ 24 := by
  cases c <;> decide

lemma compressedResponse_text_length_le (c : ContentCoding) (len : ℕ) :
    (compressedResponse cx f c len).extra.text.length ≤ f.extra.text.length + 24 := by
  have hline := contentEncodingLine_length_le c
  show (if f.probed.isNone then { f.extra with dynamicCoding := some c } else f.extra).text.length ≤ _
  split
  · simp only [ExtraHeaders.text, List.length_append, Option.map_some, Option.getD_some]
    omega
  · omega

lemma compressedResponse_small (h : PreparedOn cx w0 w f d identity i data) (c : ContentCoding)
    {len : ℕ} (hlen : len < 2 ^ 63) : (compressedResponse cx f c len).Small := by
  obtain ⟨hctype, hclen, hstatus, -⟩ := fullResponse_small h hlen
  refine ⟨hctype, hclen, hstatus, ?_⟩
  have hfits := h.fits
  have htext := @compressedResponse_text_length_le cx f c len
  unfold validatorHdrsMax at hfits
  omega

end Prepared

/-! ## Staged responses -/

/-- The bytes of an attached file. -/
def ServeWorld.fileBytes (w : ServeWorld) (a : AttachedFile) : Bytes :=
  ((w.contentAt a.fd).drop a.off).take a.len

/-- The bytes that are sent behind the header block: from the buffer, then from the file. -/
def Staged.sent (w : ServeWorld) (s : Staged) : Bytes :=
  s.body ++ (s.file.map w.fileBytes).getD []

lemma answer_eq {resp : StaticResponse} (h : resp.Small) :
    w.answer cx resp =
      (if nextOk w.builds then .staged { resp, buf := resp.block cx } else .passed,
        { w with builds := w.builds.tail }) := by
  unfold ServeWorld.answer
  rw [build_eq h (by simp)]
  cases nextOk w.builds with
  | false => rfl
  | true => simp

/-- What a file is staged as. -/
def fileStaged (cx : ServeCtx) (resp : StaticResponse) (fd : ℤ) (off : ℕ) : Staged :=
  { resp
    buf := resp.block cx
    file := if 0 < resp.contentLen then some ⟨fd, off, resp.contentLen⟩ else none }

lemma sendfile_eq {resp : StaticResponse} (h : resp.Small) (fd : ℤ) (off : ℕ) :
    (w.sendfile cx resp fd off).1 =
      if nextOk w.builds then .staged (fileStaged cx resp fd off) else .passed := by
  unfold ServeWorld.sendfile
  rw [build_eq h (by simp)]
  cases nextOk w.builds with
  | false => rfl
  | true =>
    simp only [if_true, fileStaged, List.append_nil]
    split <;> rfl

lemma sendfile_sent {resp : StaticResponse} (h : resp.Small) (hok : nextOk w.builds = true) (fd : ℤ)
    (off : ℕ) :
    (fileStaged cx resp fd off).sent (w.sendfile cx resp fd off).2 =
      ((w.contentAt fd).drop off).take resp.contentLen := by
  unfold ServeWorld.sendfile
  rw [build_eq h (by simp), hok]
  simp only [if_true]
  unfold Staged.sent fileStaged
  by_cases hlen : 0 < resp.contentLen
  · simp only [hlen, if_true]
    rfl
  · have hzero : resp.contentLen = 0 := by omega
    simp [hzero]

/-! ## Answers before the whole file -/

lemma build_resp {resp : StaticResponse} {body : Bytes} {s : Staged}
    (h : (w.build cx resp body).1 = some s) : s.resp = resp := by
  obtain ⟨buf, -, rfl⟩ := Option.map_eq_some_iff.mp h
  rfl

lemma answer_resp {resp : StaticResponse} {s : Staged} (h : (w.answer cx resp).1 = .staged s) :
    s.resp = resp := by
  have hresp := @build_resp cx w resp []
  unfold ServeWorld.answer at h
  generalize w.build cx resp [] = out at hresp h
  obtain ⟨r, w1⟩ := out
  cases r with
  | none => cases h
  | some s' =>
    cases h
    exact hresp rfl

lemma sendfile_resp {resp : StaticResponse} {fd : ℤ} {off : ℕ} {s : Staged}
    (h : (w.sendfile cx resp fd off).1 = .staged s) : s.resp = resp := by
  have hresp := @build_resp cx w resp []
  unfold ServeWorld.sendfile at h
  generalize w.build cx resp [] = out at hresp h
  obtain ⟨r, w1⟩ := out
  cases r with
  | none => cases h
  | some s' =>
    have hs := hresp rfl
    dsimp only at h
    split at h
    · cases h
      exact hs
    · cases h
      exact hs

lemma servePartial_resp {f : Prepared} {rr : ResolvedRange} {s : Staged}
    (h : (servePartial cx f rr w).1 = .staged s) : s.resp = partialResponse cx f rr := by
  unfold servePartial at h
  split at h
  · cases h
  split at h
  · cases hbuf : partialBuffered cx f rr w with
    | mk r w1 =>
      rw [hbuf] at h
      cases r with
      | error r =>
        unfold partialBuffered at hbuf
        split at hbuf
        · cases hbuf
        · split at hbuf
          · cases hbuf
          · dsimp only at hbuf
            split at hbuf
            · split at hbuf
              · rename_i s' w2 hbuild
                cases hbuf
                cases h
                exact build_resp (congrArg Prod.fst hbuild)
              · cases hbuf
            · cases hbuf
      | ok fd =>
        dsimp only at h
        split at h
        · cases fd <;> cases h
        · cases fd with
          | some fd => exact sendfile_resp h
          | none =>
            dsimp only at h
            split at h
            · cases h
            · exact sendfile_resp h
  · exact sendfile_resp h

/-- What is staged before the whole file: a redirection, the failure of the policy headers, or one of
the three answers that carry the prepared headers. -/
inductive EarlyAnswer (cx : ServeCtx) (s : Staged) : Prop
  | redirect (h : s.resp = redirectResponse cx)
  | failClosed (h : s.resp = failClosedResponse)
  | notModified (f : Prepared) (hp : f.extra.policy = policyLines cx)
      (h : s.resp = notModifiedResponse cx f)
  | unsatisfiable (f : Prepared) (hp : f.extra.policy = policyLines cx)
      (h : s.resp = unsatisfiableResponse cx f)
  | partialContent (f : Prepared) (rr : ResolvedRange) (hp : f.extra.policy = policyLines cx)
      (h : s.resp = partialResponse cx f rr)

lemma failClosed_resp {fd : ℤ} {s : Staged} (h : (failClosed cx fd w).1 = .staged s) :
    s.resp = failClosedResponse := by
  have hresp := @build_resp cx (w.close fd) failClosedResponse []
  unfold failClosed at h
  generalize (w.close fd).build cx failClosedResponse [] = out at hresp h
  obtain ⟨r, w1⟩ := out
  cases r with
  | none =>
    cases h
    rfl
  | some s' =>
    cases h
    exact hresp rfl

lemma prepareFull_error {s : Staged} {w' : ServeWorld}
    (h : prepareFull cx w = (.error (.staged s), w')) : EarlyAnswer cx s := by
  unfold prepareFull at h
  split at h
  · rename_i r w1 hopen
    cases h
    unfold openRequested at hopen
    split at hopen
    · cases hopen
    split at hopen
    · cases hopen
    split at hopen
    · cases hopen
    rename_i fd w2 _
    split at hopen
    · cases hopen
    rename_i st w3 _
    split at hopen
    · cases hopen
    · have hother : (serveOther cx fd st w3).1 = .staged s :=
        Except.error.inj (congrArg Prod.fst hopen)
      unfold serveOther at hother
      dsimp only at hother
      split at hother
      · exact .redirect (answer_resp hother)
      · cases hother
  · rename_i relpath fd st w1 hopen
    rw [selectRepresentation_eq] at h
    cases hover : (assembledFor cx relpath (probed cx relpath fd st w1).1).overflow with
    | true =>
      rw [if_pos hover] at h
      exact .failClosed (failClosed_resp (Except.error.inj (congrArg Prod.fst h)))
    | false =>
      have hpolicy := assembledFor_policy hover
      rw [if_neg (by simp [hover])] at h
      dsimp only at h
      split at h
      · exact .notModified _ hpolicy (answer_resp (Except.error.inj (congrArg Prod.fst h)))
      · split at h
        · rename_i br _
          have hrange : (serveRange cx _ br _).1 = .staged s :=
            Except.error.inj (congrArg Prod.fst h)
          unfold serveRange at hrange
          split at hrange
          · exact .partialContent _ _ hpolicy (servePartial_resp hrange)
          · dsimp only at hrange
            split at hrange
            · exact .unsatisfiable _ hpolicy (answer_resp hrange)
            · cases hrange
        · cases h

/-! ## The buffer of the whole file -/

/-- The attempt to send the whole file from a buffer fails: with the length that is going to be
announced then, and the state it is left in. -/
def bufferFailure (cx : ServeCtx) (f : Prepared) (w : ServeWorld) : Option (ℕ × ServeWorld) :=
  match w.malloc with
  | (false, w) => some (f.sel.st.size, w)
  | (true, w) =>
    match w.readAll f.sel.fd 0 f.sel.st.size with
    | (got, w) =>
      if got.length ≠ f.sel.st.size then some (f.sel.st.size, w.close f.sel.fd)
      else if nextOk w.builds then none
      else
        some (((dynCompress cx f got).map fun r => r.2.length).getD f.sel.st.size,
          { w.close f.sel.fd with builds := w.builds.tail })

/-- What the buffer of the whole file is staged as. -/
def bufferStaged (cx : ServeCtx) (f : Prepared) (bytes : Bytes) : Staged :=
  match dynCompress cx f bytes with
  | some (coding, out) =>
    { resp := compressedResponse cx f coding out.length
      buf := (compressedResponse cx f coding out.length).block cx ++ out
      body := out }
  | none =>
    { resp := fullResponse cx f f.sel.st.size
      buf := (fullResponse cx f f.sel.st.size).block cx ++ bytes
      body := bytes }

lemma compressWith_ok {level : ℕ} {bytes out : Bytes} {c : ContentCoding}
    (h : compressWith cx level bytes c = .ok out) : out.length < bytes.length := by
  cases c with
  | brotli => exact expansionGuard_ok h
  | gzip =>
    simp only [compressWith, compressGzip] at h
    split at h
    · cases h
    · exact expansionGuard_ok h

lemma compressFirst_some {accepted : CodingMask} {level : ℕ} {bytes out : Bytes} {c : ContentCoding}
    {codings : List ContentCoding}
    (h : compressFirst cx accepted level bytes codings = some (c, out)) :
    compressWith cx level bytes c = .ok out := by
  induction codings with
  | nil => cases h
  | cons coding rest ih =>
    unfold compressFirst at h
    split at h
    · split at h
      · rename_i out' hout
        cases h
        exact hout
      · exact ih h
    · exact ih h

section Prepared

variable {w0 : ServeWorld} {f : Prepared} {d i : ℕ} {identity : ℕ × FileData} {data : FileData}

lemma dynCompress_some {bytes out : Bytes} {c : ContentCoding}
    (h : dynCompress cx f bytes = some (c, out)) :
    dynEligible cx f = true ∧ ∃ level, compressWith cx level bytes c = .ok out := by
  unfold dynCompress at h
  split at h
  · rename_i heligible
    exact ⟨heligible, _, compressFirst_some h⟩
  · cases h

lemma coding_of_dynEligible (h : dynEligible cx f = true) : f.sel.coding = none := by
  unfold dynEligible at h
  split at h
  · cases h
  · simp only [Bool.and_eq_true] at h
    simpa using h.1.1.1.1.1.1.1

/-- The bytes that were read are staged, unless memory for the header block is short. -/
lemma serveBytes_eq (h : PreparedOn cx w0 w f d identity i data) {bytes : Bytes}
    (hbytes : bytes.length < 2 ^ 63) (w1 : ServeWorld) :
    serveBytes cx f bytes w1 =
      if nextOk w1.builds then
        (.staged (bufferStaged cx f bytes), { w1 with builds := w1.builds.tail })
      else if cx.tls then (.passed, { w1 with builds := w1.builds.tail })
      else
        reopenAndSend cx f
          (((dynCompress cx f bytes).map fun r => r.2.length).getD f.sel.st.size)
          { w1 with builds := w1.builds.tail } := by
  unfold serveBytes bufferStaged buildOrReopen
  cases hdyn : dynCompress cx f bytes with
  | none =>
    dsimp only
    rw [build_eq (fullResponse_small h h.size_lt) hbytes]
    cases nextOk w1.builds <;> rfl
  | some r =>
    obtain ⟨c, out⟩ := r
    obtain ⟨-, level, hlevel⟩ := dynCompress_some hdyn
    have hout : out.length < 2 ^ 63 := by
      have hshort := compressWith_ok hlevel
      omega
    have hroom : ¬ (f.probed.isNone = true ∧
        validatorHdrsMax + 64 ≤ (compressedResponse cx f c out.length).extra.text.length) := by
      have htext := @compressedResponse_text_length_le cx f c out.length
      have hfits := h.fits
      omega
    dsimp only
    rw [if_neg hroom, build_eq (compressedResponse_small h c hout) hout]
    cases nextOk w1.builds <;> rfl

/-- The file is sent from the buffer, or what happens otherwise. -/
lemma serveBuffered_eq (h : PreparedOn cx w0 w f d identity i data) :
    (∀ len w1, bufferFailure cx f w = some (len, w1) →
      (cx.tls = true → (serveBuffered cx f w).1 = .passed) ∧
        (cx.tls = false → serveBuffered cx f w = reopenAndSend cx f len w1)) ∧
      (bufferFailure cx f w = none →
        (serveBuffered cx f w).1 = .staged (bufferStaged cx f data.bytes)) := by
  have hcontent : w.contentAt f.sel.fd = data.bytes := h.chosen.openOn.contentAt
  unfold bufferFailure serveBuffered
  rw [malloc_eq]
  cases nextOk w.mallocs with
  | false =>
    refine ⟨?_, by simp⟩
    rintro len w1 heq
    cases heq
    refine ⟨fun htls => ?_, fun htls => ?_⟩
    · simp only [htls, if_true]
      rfl
    · simp only [htls, Bool.false_eq_true, if_false]
  | true =>
    dsimp only
    have hread := @readAll_eq { w with mallocs := w.mallocs.tail } f.sel.fd f.sel.st.size
    have hsize : (({ w with mallocs := w.mallocs.tail } : ServeWorld).contentAt f.sel.fd).length
        = f.sel.st.size := by
      show (w.contentAt f.sel.fd).length = _
      rw [hcontent, h.size_eq]
    generalize ({ w with mallocs := w.mallocs.tail } : ServeWorld).readAll f.sel.fd 0 f.sel.st.size
      = out at hread ⊢
    obtain ⟨got, w2⟩ := out
    dsimp only at hread ⊢
    unfold serveRead
    by_cases hgot : got.length = f.sel.st.size
    · have hbytes : got = data.bytes := (hread hsize hgot).trans hcontent
      have hlen : got.length < 2 ^ 63 := by
        rw [hgot]
        exact h.size_lt
      rw [if_pos hgot, if_neg (not_not.mpr hgot), serveBytes_eq h hlen]
      have hsame : (w2.close f.sel.fd).builds = w2.builds := rfl
      rw [hsame]
      cases nextOk w2.builds with
      | true =>
        refine ⟨by simp, fun _ => ?_⟩
        rw [hbytes]
        rfl
      | false =>
        refine ⟨?_, by simp⟩
        rintro len w1 heq
        cases heq
        refine ⟨fun htls => ?_, fun htls => ?_⟩
        · simp [htls]
        · simp [htls]
    · rw [if_neg hgot, if_pos hgot]
      refine ⟨?_, by simp⟩
      rintro len w1 heq
      cases heq
      refine ⟨fun htls => ?_, fun htls => ?_⟩
      · simp [htls]
      · simp [htls]

end Prepared

end Lamseryn
