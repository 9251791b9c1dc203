import Lamseryn.Properties.StaticResponses

/-!
# One representation in one response

A 200 of the static server has a `Content-Encoding`, a `Content-Length` and bytes that it sends.  They
are coherent if they belong to one form of the requested file: the file itself, or the whole of an
encoded form of it (`IsForm`, `Coherent`).

Whatever fails, this holds up to one fallback (`staticServe_coherent_iff`).  If the buffer of an encoded
form fails on a plain connection, the file itself is reopened and sent under what was announced for
the encoded form (`MixesForms`).
-/

namespace Lamseryn

open ByteText FileTree

variable {cx : ServeCtx} {w : ServeWorld}

/-! ## Forms -/

/-- The forms of a file under a coding: without one the file itself, with one its precompressed
sibling or what a compressor makes of it. -/
def IsForm (cx : ServeCtx) (t : Tree ℕ FileData) (d : ℕ) (relpath : Bytes) :
    Option ContentCoding → Bytes → Prop
  | none, bytes => ∃ i data, fileAt t d relpath = some (i, data) ∧ bytes = data.bytes
  | some c, bytes =>
    (∃ i data, fileAt t d (relpath ++ compressEncExt c) = some (i, data) ∧ bytes = data.bytes) ∨
      ∃ i data level, fileAt t d relpath = some (i, data) ∧
        compressWith cx level data.bytes c = .ok bytes

/-- A 200. -/
def Staged.isFull (s : Staged) : Prop :=
  s.resp.kind = .okKa ∨ s.resp.kind = .okClose

/-- A 200 has the coding, the length and the bytes of one form of the requested file; for `HEAD` it
has no bytes. -/
def Coherent (cx : ServeCtx) (w : ServeWorld) (out : ServeResult × ServeWorld) : Prop :=
  ∀ s, out.1 = .staged s → s.isFull →
    ∃ d relpath bytes, w.proc.fds.lookup cx.docrootFd = some d ∧ requestedPath cx = some relpath ∧
      IsForm cx w.proc.tree d relpath s.resp.extra.coding bytes ∧
      s.resp.contentLen = bytes.length ∧
      s.sent out.2 = if cx.h1.method = .head then [] else bytes

/-- The fallback sends the file under the announcement of another form: the buffer fails on a plain
connection, the file is reopened and its header block is built, and either the length is that of a
text compressed on the fly, or the coding is that of a sibling and the bytes are not such a form by
chance. -/
def MixesForms (cx : ServeCtx) (w : ServeWorld) : Prop :=
  cx.tls = false ∧ ∃ f w1 len w2 fd w3, prepareFull cx w = (.ok f, w1) ∧
    serveMode cx f = .buffered ∧ bufferFailure cx f w1 = some (len, w2) ∧
    w2.openOrRecord cx f.relpath = (some fd, w3) ∧ nextOk w3.builds = true ∧
    (len ≠ f.sel.st.size ∨
      ∃ c d i data, f.sel.coding = some c ∧ w.proc.fds.lookup cx.docrootFd = some d ∧
        fileAt w.proc.tree d f.relpath = some (i, data) ∧
        ¬ IsForm cx w.proc.tree d f.relpath (some c) (data.bytes.take len))

lemma EarlyAnswer.not_isFull {s : Staged} (h : EarlyAnswer cx s) : ¬ s.isFull := by
  cases h with
  | redirect h => simp [Staged.isFull, h, redirectResponse]
  | failClosed h => simp [Staged.isFull, h, failClosedResponse]
  | notModified f _ h => simp [Staged.isFull, h, notModifiedResponse]
  | unsatisfiable f _ h => simp [Staged.isFull, h, unsatisfiableResponse]
  | partialContent f rr _ h => simp [Staged.isFull, h, partialResponse]

lemma fullResponse_isFull (f : Prepared) (len : ℕ) :
    (fullResponse cx f len).kind = .okKa ∨ (fullResponse cx f len).kind = .okClose := by
  unfold fullResponse
  cases cx.h1.wantKeepalive <;> simp

/-! ## The prepared file -/

section Prepared

variable {w0 : ServeWorld} {f : Prepared} {d i : ℕ} {identity : ℕ × FileData} {data : FileData}

lemma PreparedOn.isForm (h : PreparedOn cx w0 w f d identity i data) :
    IsForm cx w0.proc.tree d f.relpath f.sel.coding data.bytes := by
  have hfile := h.chosen.openOn.fileAt
  rw [h.looks.tree] at hfile
  cases hcoding : f.sel.coding with
  | none =>
    rw [hcoding, codingExt, Option.map_none, Option.getD_none, List.append_nil] at hfile
    exact ⟨i, data, hfile, rfl⟩
  | some c =>
    rw [hcoding] at hfile
    exact .inl ⟨i, data, hfile, rfl⟩

lemma bufferFailure_frame (h : PreparedOn cx w0 w f d identity i data) {len : ℕ} {w1 : ServeWorld}
    (hfail : bufferFailure cx f w = some (len, w1)) :
    w1.proc.tree = w.proc.tree ∧ w1.proc.fds.lookup cx.docrootFd = some d := by
  have hclosed : ∀ w2 : ServeWorld, w2.proc = w.proc →
      (w2.close f.sel.fd).proc.tree = w.proc.tree ∧
        (w2.close f.sel.fd).proc.fds.lookup cx.docrootFd = some d := by
    intro w2 hproc
    refine ⟨show w2.proc.tree = w.proc.tree by rw [hproc], ?_⟩
    rw [lookup_close_of_ne h.chosen.ne.symm, hproc]
    exact h.chosen.root
  unfold bufferFailure at hfail
  rw [malloc_eq] at hfail
  cases hm : nextOk w.mallocs with
  | false =>
    rw [hm] at hfail
    cases hfail
    exact ⟨rfl, h.chosen.root⟩
  | true =>
    rw [hm] at hfail
    dsimp only at hfail
    split at hfail
    · cases hfail
      exact hclosed _ rfl
    · split at hfail
      · cases hfail
      · cases hfail
        exact hclosed _ rfl

/-- If the length is not that of the selected file, the text was compressed on the fly. -/
lemma bufferFailure_length {len : ℕ} {w1 : ServeWorld} (hfail : bufferFailure cx f w = some (len, w1)) :
    len = f.sel.st.size ∨ f.sel.coding = none ∧ len < f.sel.st.size := by
  unfold bufferFailure at hfail
  rw [malloc_eq] at hfail
  cases hm : nextOk w.mallocs with
  | false =>
    rw [hm] at hfail
    cases hfail
    exact .inl rfl
  | true =>
    rw [hm] at hfail
    dsimp only at hfail
    split at hfail
    · cases hfail
      exact .inl rfl
    · rename_i hgot
      split at hfail
      · cases hfail
      · generalize (({ w with mallocs := w.mallocs.tail } : ServeWorld).readAll f.sel.fd 0
          f.sel.st.size).1 = got at hfail hgot
        cases hdyn : dynCompress cx f got with
        | none =>
          rw [hdyn] at hfail
          cases hfail
          exact .inl rfl
        | some r =>
          obtain ⟨c, out⟩ := r
          obtain ⟨heligible, level, hlevel⟩ := dynCompress_some hdyn
          have hshort := compressWith_ok hlevel
          rw [hdyn] at hfail
          cases hfail
          right
          refine ⟨coding_of_dynEligible heligible, ?_⟩
          show out.length < f.sel.st.size
          omega

/-- What the fallback stages and sends. -/
lemma reopenAndSend_staged (h : PreparedOn cx w0 w f d identity i data) {len : ℕ} {w1 : ServeWorld}
    (hfail : bufferFailure cx f w = some (len, w1)) {s : Staged} :
    (reopenAndSend cx f len w1).1 = .staged s ↔
      ∃ fd w2, w1.openOrRecord cx f.relpath = (some fd, w2) ∧ nextOk w2.builds = true ∧
        s = fileStaged cx (fullResponse cx f len) fd 0 ∧
        s.sent (reopenAndSend cx f len w1).2 = identity.2.bytes.take len := by
  obtain ⟨htree, hroot⟩ := bufferFailure_frame h hfail
  have hlen : len < 2 ^ 63 := by
    have hsize := h.size_lt
    rcases bufferFailure_length hfail with heq | ⟨-, hlt⟩ <;> omega
  have hfile : fileAt w1.proc.tree d f.relpath = some (identity.1, identity.2) := by
    rw [htree, h.looks.tree]
    exact h.identity
  unfold reopenAndSend
  cases hopen : w1.openOrRecord cx f.relpath with
  | mk r w2 =>
    cases r with
    | none => simp
    | some fd =>
      have hopenOn := openOn_of_openBeneath hroot hfile (openOrRecord_some hopen)
      dsimp only
      rw [sendfile_eq (fullResponse_small h hlen)]
      cases hok : nextOk w2.builds with
      | false =>
        simp only [Bool.false_eq_true, if_false]
        constructor
        · intro hstaged
          cases hstaged
        · rintro ⟨fd', w3, heq, hok', -⟩
          cases heq
          rw [hok] at hok'
          cases hok'
      | true =>
        have hsent := @sendfile_sent cx w2 _ (fullResponse_small h hlen) hok fd 0
        rw [hopenOn.contentAt, List.drop_zero] at hsent
        simp only [if_true]
        constructor
        · intro hstaged
          cases hstaged
          exact ⟨fd, w2, rfl, hok, rfl, hsent⟩
        · rintro ⟨fd', w3, heq, -, rfl, -⟩
          cases heq
          rfl

/-! ## The three ways to send the whole file -/

lemma serveMode_eq_head : serveMode cx f = .head ↔ cx.h1.method = .head := by
  unfold serveMode requestBuildStaticServePlan
  by_cases hhead : cx.h1.method = .head
  · simp [hhead]
  · simp only [hhead, if_false, iff_false]
    split
    · split <;> simp
    · rename_i mode hmode
      intro heq
      split at heq <;> cases heq

lemma PreparedOn.coherent_form (h : PreparedOn cx w0 w f d identity i data) {s : Staged}
    {sent : Bytes} (hresp : s.resp = fullResponse cx f f.sel.st.size)
    (hsent : sent = if cx.h1.method = .head then [] else data.bytes) :
    ∃ d relpath bytes, w0.proc.fds.lookup cx.docrootFd = some d ∧ requestedPath cx = some relpath ∧
      IsForm cx w0.proc.tree d relpath s.resp.extra.coding bytes ∧
      s.resp.contentLen = bytes.length ∧
      sent = if cx.h1.method = .head then [] else bytes := by
  refine ⟨d, f.relpath, data.bytes, h.root, h.path, ?_, ?_, hsent⟩
  · rw [hresp]
    show IsForm cx w0.proc.tree d f.relpath f.extra.coding data.bytes
    rw [h.coding]
    exact h.isForm
  · rw [hresp]
    exact h.size_eq

lemma PreparedOn.coherent_buffer (h : PreparedOn cx w0 w f d identity i data)
    (hmethod : cx.h1.method ≠ .head) (w1 : ServeWorld) :
    ∃ d relpath bytes, w0.proc.fds.lookup cx.docrootFd = some d ∧ requestedPath cx = some relpath ∧
      IsForm cx w0.proc.tree d relpath (bufferStaged cx f data.bytes).resp.extra.coding bytes ∧
      (bufferStaged cx f data.bytes).resp.contentLen = bytes.length ∧
      (bufferStaged cx f data.bytes).sent w1 = if cx.h1.method = .head then [] else bytes := by
  unfold bufferStaged
  cases hdyn : dynCompress cx f data.bytes with
  | none =>
    apply h.coherent_form rfl
    rw [if_neg hmethod]
    simp [Staged.sent]
  | some r =>
    obtain ⟨c, out⟩ := r
    obtain ⟨heligible, level, hlevel⟩ := dynCompress_some hdyn
    have hcoding := coding_of_dynEligible heligible
    have hidentity := h.identity
    rw [h.data_eq hcoding] at hidentity
    have hprobed : f.probed = none := h.probed.trans hcoding
    refine ⟨d, f.relpath, out, h.root, h.path, ?_, rfl, ?_⟩
    · show IsForm cx w0.proc.tree d f.relpath (compressedResponse cx f c out.length).extra.coding out
      have hdynamic : (compressedResponse cx f c out.length).extra.coding = some c := by
        simp [compressedResponse, hprobed, ExtraHeaders.coding]
      rw [hdynamic]
      exact .inr ⟨i, data, level, hidentity, hlevel⟩
    · rw [if_neg hmethod]
      simp [Staged.sent]

lemma PreparedOn.length_of_isForm (h : PreparedOn cx w0 w f d identity i data) {c : ContentCoding}
    (hcoding : f.sel.coding = some c)
    (hform : IsForm cx w0.proc.tree d f.relpath (some c) (identity.2.bytes.take f.sel.st.size)) :
    f.sel.st.size = (identity.2.bytes.take f.sel.st.size).length := by
  rcases hform with ⟨i', data', hfile, heq⟩ | ⟨i', data', level, hfile, hlevel⟩
  · have hsel := h.chosen.openOn.fileAt
    rw [h.looks.tree, hcoding] at hsel
    rw [show codingExt (some c) = compressEncExt c from rfl, hfile] at hsel
    cases hsel
    rw [heq]
    exact h.size_eq
  · rw [h.identity] at hfile
    cases hfile
    have hshort := compressWith_ok hlevel
    rw [List.length_take] at hshort ⊢
    dsimp only at hshort ⊢
    omega

/-- The fallback is coherent if it announces the file, or a form that its bytes happen to be. -/
lemma PreparedOn.coherent_fallback (h : PreparedOn cx w0 w f d identity i data)
    (hmethod : cx.h1.method ≠ .head) {fd : ℤ} {sent : Bytes}
    (hsent : sent = identity.2.bytes.take f.sel.st.size)
    (hform : ∀ c, f.sel.coding = some c →
      IsForm cx w0.proc.tree d f.relpath (some c) (identity.2.bytes.take f.sel.st.size)) :
    ∃ d relpath bytes, w0.proc.fds.lookup cx.docrootFd = some d ∧ requestedPath cx = some relpath ∧
      IsForm cx w0.proc.tree d relpath
        (fileStaged cx (fullResponse cx f f.sel.st.size) fd 0).resp.extra.coding bytes ∧
      (fileStaged cx (fullResponse cx f f.sel.st.size) fd 0).resp.contentLen = bytes.length ∧
      sent = if cx.h1.method = .head then [] else bytes := by
  cases hcoding : f.sel.coding with
  | none =>
    apply h.coherent_form rfl
    rw [if_neg hmethod, hsent, h.data_eq hcoding]
    exact List.take_of_length_le h.size_eq.ge
  | some c =>
    refine ⟨d, f.relpath, identity.2.bytes.take f.sel.st.size, h.root, h.path, ?_,
      h.length_of_isForm hcoding (hform c hcoding), ?_⟩
    · show IsForm cx w0.proc.tree d f.relpath f.extra.coding _
      rw [h.coding, hcoding]
      exact hform c hcoding
    · rw [if_neg hmethod]
      exact hsent

lemma ne_head_of_buffered (hmode : serveMode cx f = .buffered) : cx.h1.method ≠ .head := by
  intro hhead
  rw [serveMode_eq_head.mpr hhead] at hmode
  cases hmode

lemma PreparedOn.failure_length_lt (h : PreparedOn cx w0 w f d identity i data) {len : ℕ}
    {w1 : ServeWorld} (hfail : bufferFailure cx f w = some (len, w1)) : len < 2 ^ 63 := by
  have hsize := h.size_lt
  rcases bufferFailure_length hfail with heq | ⟨-, hlt⟩ <;> omega

end Prepared

/-! ## The whole file -/

/-- Where forms are mixed, the response is not coherent. -/
lemma not_coherent_of_mixesForms (h : MixesForms cx w) :
    ¬ Coherent cx w (staticServeTryPrepareDocrootResponse cx w) := by
  obtain ⟨htls, f, w1, len, w2, fd, w3, hprep, hmode, hfail, hopen, hok, hmixed⟩ := h
  obtain ⟨d, identity, i, data, h⟩ := prepareFull_chosen hprep
  have hmethod := ne_head_of_buffered hmode
  -- the fallback is what the request ends with
  have hrun : staticServeTryPrepareDocrootResponse cx w = reopenAndSend cx f len w2 := by
    rw [staticServeTryPrepareDocrootResponse, hprep]
    dsimp only
    rw [serveFull, hmode]
    exact ((serveBuffered_eq h).1 len w2 hfail).2 htls
  have hstaged : (reopenAndSend cx f len w2).1
      = .staged (fileStaged cx (fullResponse cx f len) fd 0) := by
    rw [reopenAndSend, hopen]
    dsimp only
    rw [sendfile_eq (fullResponse_small h (h.failure_length_lt hfail)), hok, if_pos rfl]
  obtain ⟨-, -, -, -, -, hsent⟩ := (reopenAndSend_staged h hfail).mp hstaged
  rw [hrun]
  intro hcoherent
  obtain ⟨d', relpath, bytes, hd', hpath, hform, hlength, hbytes⟩ :=
    hcoherent _ hstaged (fullResponse_isFull f len)
  rw [h.root] at hd'
  rw [h.path] at hpath
  cases hd'
  cases hpath
  rw [hsent, if_neg hmethod] at hbytes
  have hcoding : (fileStaged cx (fullResponse cx f len) fd 0).resp.extra.coding = f.sel.coding :=
    h.coding
  rw [hcoding, ← hbytes] at hform
  rcases hmixed with hlen | ⟨c, d', i', data', hc, hd', hfile, hnot⟩
  · -- a text compressed on the fly is shorter than the file
    obtain ⟨hnone, hlt⟩ := (bufferFailure_length hfail).resolve_left hlen
    rw [hnone] at hform
    obtain ⟨i', data', hfile, heq⟩ := hform
    have hidentity := h.identity
    rw [h.data_eq hnone] at hidentity
    rw [hidentity] at hfile
    cases hfile
    have htake := congrArg List.length heq
    rw [h.data_eq hnone, List.length_take] at htake
    rw [h.size_eq] at hlt
    dsimp only at htake
    omega
  · rw [h.root] at hd'
    cases hd'
    rw [h.identity] at hfile
    cases hfile
    rw [hc] at hform
    exact hnot hform

/-- Where forms are not mixed, the response is coherent. -/
lemma coherent_of_not_mixesForms (hnot : ¬ MixesForms cx w) :
    Coherent cx w (staticServeTryPrepareDocrootResponse cx w) := by
  intro s hstaged hfull
  unfold staticServeTryPrepareDocrootResponse at hstaged ⊢
  cases hprep : prepareFull cx w with
  | mk r w1 =>
    rw [hprep] at hstaged
    cases r with
    | error r =>
      dsimp only at hstaged
      rw [hstaged] at hprep
      exact absurd hfull (prepareFull_error hprep).not_isFull
    | ok f =>
      obtain ⟨d, identity, i, data, h⟩ := prepareFull_chosen hprep
      dsimp only at hstaged ⊢
      unfold serveFull at hstaged ⊢
      cases hmode : serveMode cx f with
      | head =>
        simp only [hmode] at hstaged ⊢
        rw [answer_eq (fullResponse_small h h.size_lt)] at hstaged
        dsimp only at hstaged
        split at hstaged
        · cases hstaged
          apply h.coherent_form rfl
          rw [if_pos (serveMode_eq_head.mp hmode)]
          simp [Staged.sent]
        · cases hstaged
      | sendfile =>
        have hmethod : cx.h1.method ≠ .head := by
          intro hhead
          rw [serveMode_eq_head.mpr hhead] at hmode
          cases hmode
        simp only [hmode] at hstaged ⊢
        rw [sendfile_eq (fullResponse_small h h.size_lt)] at hstaged
        split at hstaged
        · rename_i hok
          cases hstaged
          apply h.coherent_form rfl
          rw [if_neg hmethod, sendfile_sent (fullResponse_small h h.size_lt) hok,
            h.chosen.openOn.contentAt, List.drop_zero]
          exact List.take_of_length_le h.size_eq.ge
        · cases hstaged
      | buffered =>
        have hmethod := ne_head_of_buffered hmode
        simp only [hmode] at hstaged ⊢
        cases hfail : bufferFailure cx f w1 with
        | none =>
          rw [(serveBuffered_eq h).2 hfail] at hstaged
          cases hstaged
          exact h.coherent_buffer hmethod _
        | some r =>
          obtain ⟨len, w2⟩ := r
          obtain ⟨htls, hplain⟩ := (serveBuffered_eq h).1 len w2 hfail
          cases htlsVal : cx.tls with
          | true =>
            rw [htls htlsVal] at hstaged
            cases hstaged
          | false =>
            rw [hplain htlsVal] at hstaged ⊢
            obtain ⟨fd, w3, hopen, hok, rfl, hsent⟩ := (reopenAndSend_staged h hfail).mp hstaged
            have hlen : len = f.sel.st.size := by
              by_contra hlen
              exact hnot ⟨htlsVal, f, w1, len, w2, fd, w3, hprep, hmode, hfail, hopen, hok, .inl hlen⟩
            have hform : ∀ c, f.sel.coding = some c →
                IsForm cx w.proc.tree d f.relpath (some c) (identity.2.bytes.take len) := by
              intro c hc
              by_contra hno
              exact hnot ⟨htlsVal, f, w1, len, w2, fd, w3, hprep, hmode, hfail, hopen, hok,
                .inr ⟨c, d, identity.1, identity.2, hc, h.root, h.identity, hno⟩⟩
            subst hlen
            exact h.coherent_fallback hmethod hsent hform

/-- **A 200 is one representation**, whatever fails, exactly if the fallback does not send the file
under the announcement of another form. -/
theorem staticServe_coherent_iff (cx : ServeCtx) (w : ServeWorld) :
    Coherent cx w (staticServeTryPrepareDocrootResponse cx w) ↔ ¬ MixesForms cx w :=
  ⟨fun hcoherent hmixes => not_coherent_of_mixesForms hmixes hcoherent, coherent_of_not_mixesForms⟩

/-- A document root with a page and its precompressed sibling, open as descriptor 3. -/
def siblingSite : Process ℕ FileData where
  tree :=
    { root := 0
      node := fun i =>
        if i = 0 then .dir 0 [(ascii "a.html", 1), (ascii "a.html.gz", 2)]
        else if i = 1 then .file { bytes := ascii "<p>hello</p>", size_lt := by decide }
        else if i = 2 then .file { bytes := ascii "zzz", size_lt := by decide }
        else .special }
  fds := [(3, 0)]

/-- A plain request for the page that accepts gzip. -/
def siblingRequest : ServeCtx where
  h1 :=
    { method := .get
      pathNorm := ascii "/a.html"
      hdrs :=
        { reqHdrs := [⟨.acceptEncoding, ascii "accept-encoding", ascii "gzip", false⟩] } }
  vhost := some { docrootFd := 3, features := { static := true, compression := true } }
  tls := false
  docrootFd := 3
  date := []
  date_lt := no_date_lt
  haveBrotli := false
  codec := ⟨fun _ _ => none, fun _ _ => none⟩

/-- Without memory for the buffer, the page is sent under the coding and the length of its sibling. -/
theorem staticServe_mixes_forms :
    ¬ Coherent siblingRequest { proc := siblingSite, mallocs := [false] }
      (staticServeTryPrepareDocrootResponse siblingRequest
        { proc := siblingSite, mallocs := [false] }) := by
  have hstaged : (staticServeTryPrepareDocrootResponse siblingRequest
      { proc := siblingSite, mallocs := [false] }).1 = .staged (fileStaged siblingRequest
        { kind := .okClose
          statusLine := ascii "200 OK"
          contentType := some (ascii "text/html; charset=utf-8")
          contentLen := 3
          keepalive := false
          extra := { siblingCoding := some .gzip } } 0 0) := by
    decide +kernel
  have hsent : (fileStaged siblingRequest
      { kind := .okClose
        statusLine := ascii "200 OK"
        contentType := some (ascii "text/html; charset=utf-8")
        contentLen := 3
        keepalive := false
        extra := { siblingCoding := some .gzip } } 0 0).sent
        (staticServeTryPrepareDocrootResponse siblingRequest
          { proc := siblingSite, mallocs := [false] }).2 = ascii "<p>" := by
    decide +kernel
  intro hcoherent
  obtain ⟨d, relpath, bytes, hd, hpath, hform, -, hbytes⟩ := hcoherent _ hstaged (.inr rfl)
  rw [hsent] at hbytes
  cases hd
  have hrel : requestedPath siblingRequest = some (ascii "a.html") := by decide +kernel
  rw [hrel] at hpath
  cases hpath
  have hsibling : fileAt siblingSite.tree 0 (ascii "a.html" ++ compressEncExt .gzip)
      = some (2, { bytes := ascii "zzz", size_lt := by decide }) := by
    decide +kernel
  rcases hform with ⟨i, data, hfile, heq⟩ | ⟨i, data, level, hfile, hlevel⟩
  · rw [hsibling] at hfile
    cases hfile
    rw [heq] at hbytes
    exact absurd hbytes (by decide +kernel)
  · simp only [compressWith, compressGzip, siblingRequest, expansionGuard] at hlevel
    split at hlevel <;> cases hlevel

end Lamseryn
