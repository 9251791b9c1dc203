import Lamseryn.Properties.StaticResponses

/-!
# What the static server stages

Every response that `static_serve_try_prepare_docroot_response` stages has one of seven forms, its buffer
is what `tx_build_headers` made of it, or the fixed text of a 500, and what follows the header block has
the length that the client expects (`Staged.Formed`, `static_formed`).
-/

namespace Lamseryn

open ByteText CText FileTree

variable {cx : ServeCtx} {w : ServeWorld}

/-- The prepared content type comes from the table. -/
def Prepared.Typed (f : Prepared) : Prop :=
  ∃ path, f.ctype = staticServeMimeTypeForPath path

/-- The responses of the static server. -/
inductive StaticForm (cx : ServeCtx) : StaticResponse → Prop
  | failClosed : StaticForm cx failClosedResponse
  | redirect (hslash : cx.h1.pathEndsWithSlash = false) : StaticForm cx (redirectResponse cx)
  | notModified (f : Prepared) : StaticForm cx (notModifiedResponse cx f)
  | unsatisfiable (f : Prepared) : StaticForm cx (unsatisfiableResponse cx f)
  | partialContent (f : Prepared) (rr : ResolvedRange) (hf : f.Typed) :
      StaticForm cx (partialResponse cx f rr)
  | full (f : Prepared) (len : ℕ) (hf : f.Typed) : StaticForm cx (fullResponse cx f len)
  | compressed (f : Prepared) (coding : ContentCoding) (len : ℕ) (hf : f.Typed) :
      StaticForm cx (compressedResponse cx f coding len)

/-- The number of bytes that a client reads behind the header block: none in answer to `HEAD` and behind
a 304, otherwise the announced length. -/
def expectedLen (cx : ServeCtx) (resp : StaticResponse) : ℕ :=
  if cx.h1.method = .head ∨ resp.kind = .k304 then 0 else resp.contentLen

/-- The number of bytes that follow the header block. -/
def Staged.sentLen (s : Staged) : ℕ :=
  s.body.length + (s.file.map AttachedFile.len).getD 0

/-- A staged response as it should be. -/
structure Staged.Formed (cx : ServeCtx) (s : Staged) : Prop where
  form : StaticForm cx s.resp
  built : txBuildHeaders cx.date true s.resp.spec s.body = some s.buf ∨
    (s.resp = failClosedResponse ∧ s.buf = resp500 ∧ s.body = [])
  length : s.sentLen = expectedLen cx s.resp

/-- A result that is formed if it stages a response. -/
def ServeResult.Formed (cx : ServeCtx) (r : ServeResult) : Prop :=
  ∀ s, r = .staged s → s.Formed cx

lemma passed_formed : ServeResult.passed.Formed cx := by
  intro s h
  cases h

lemma doneWith_formed (fd : Option ℤ) : (doneWith fd w).1.Formed cx := by
  cases fd with
  | some fd => exact passed_formed
  | none => exact passed_formed

/-! ## Building -/

lemma txBuildHeaders_true {date body buf : Bytes} {ok : Bool} {spec : HeaderSpec}
    (h : txBuildHeaders date ok spec body = some buf) :
    txBuildHeaders date true spec body = some buf := by
  cases ok with
  | true => exact h
  | false =>
    unfold txBuildHeaders at h
    split at h
    · cases h
    · dsimp only at h
      split_ifs at h with hbig hmalloc
      exact absurd rfl hmalloc

lemma build_formed {resp : StaticResponse} {body : Bytes} (hform : StaticForm cx resp)
    (hlen : body.length = expectedLen cx resp) {s : Staged}
    (h : (w.build cx resp body).1 = some s) : s.Formed cx := by
  obtain ⟨buf, hbuf, rfl⟩ := Option.map_eq_some_iff.mp h
  exact ⟨hform, Or.inl (txBuildHeaders_true hbuf), hlen⟩

lemma answer_formed {resp : StaticResponse} (hform : StaticForm cx resp)
    (hlen : expectedLen cx resp = 0) : (w.answer cx resp).1.Formed cx := by
  intro s h
  have hbuild := @build_formed cx w resp [] hform hlen.symm
  unfold ServeWorld.answer at h
  generalize w.build cx resp [] = out at hbuild h
  obtain ⟨r, w1⟩ := out
  cases r with
  | none => cases h
  | some s' =>
    cases h
    exact hbuild rfl

lemma sendfile_formed {resp : StaticResponse} (hform : StaticForm cx resp)
    (hlen : expectedLen cx resp = resp.contentLen) (fd : ℤ) (off : ℕ) :
    (w.sendfile cx resp fd off).1.Formed cx := by
  intro s h
  have hbuild : ∀ s', (w.build cx resp []).1 = some s' → s'.resp = resp ∧ s'.body = [] ∧
      s'.file = none ∧ txBuildHeaders cx.date true resp.spec [] = some s'.buf := by
    intro s' hs'
    obtain ⟨buf, hbuf, rfl⟩ := Option.map_eq_some_iff.mp hs'
    exact ⟨rfl, rfl, rfl, txBuildHeaders_true hbuf⟩
  unfold ServeWorld.sendfile at h
  generalize w.build cx resp [] = out at hbuild h
  obtain ⟨r, w1⟩ := out
  cases r with
  | none => cases h
  | some s' =>
    obtain ⟨hresp, hbody, hfile, hbuf⟩ := hbuild s' rfl
    dsimp only at h
    split at h
    · cases h
      refine ⟨hresp ▸ hform, Or.inl ?_, ?_⟩
      · show txBuildHeaders cx.date true s'.resp.spec s'.body = some s'.buf
        rw [hresp, hbody]
        exact hbuf
      · show s'.body.length + resp.contentLen = expectedLen cx s'.resp
        rw [hbody, hresp, hlen, List.length_nil, Nat.zero_add]
    · rename_i hzero
      cases h
      refine ⟨hresp ▸ hform, Or.inl ?_, ?_⟩
      · rw [hresp, hbody]
        exact hbuf
      · unfold Staged.sentLen
        rw [hbody, hfile, hresp, hlen]
        show 0 = resp.contentLen
        omega

lemma failClosed_formed (fd : ℤ) : (failClosed cx fd w).1.Formed cx := by
  intro s h
  have hzero : expectedLen cx failClosedResponse = 0 := by
    unfold expectedLen
    split_ifs <;> rfl
  have hbuild := @build_formed cx (w.close fd) failClosedResponse [] .failClosed hzero.symm
  unfold failClosed at h
  generalize (w.close fd).build cx failClosedResponse [] = out at hbuild h
  obtain ⟨r, w1⟩ := out
  cases r with
  | none =>
    cases h
    exact ⟨.failClosed, Or.inr ⟨rfl, rfl, rfl⟩, hzero.symm⟩
  | some s' =>
    cases h
    exact hbuild rfl

/-! ## Ranges -/

section Prepared

variable {f : Prepared} (hf : f.Typed)

include hf

lemma servePartial_formed {rr : ResolvedRange} (hget : cx.h1.method = .get) :
    (servePartial cx f rr w).1.Formed cx := by
  have hform : StaticForm cx (partialResponse cx f rr) := .partialContent f rr hf
  have hlen : expectedLen cx (partialResponse cx f rr) = rr.length := by
    unfold expectedLen
    rw [if_neg (by simp [hget, partialResponse])]
    rfl
  have hbuffered : ∀ r w', partialBuffered cx f rr w = (.error r, w') → r.Formed cx := by
    intro r w' hr
    unfold partialBuffered at hr
    split at hr
    · cases hr
    split at hr
    · cases hr
    dsimp only at hr
    split at hr
    · rename_i hgot
      split at hr
      · rename_i s w2 hbuild
        cases hr
        intro s' hs'
        cases hs'
        exact build_formed hform (hgot.trans hlen.symm) (congrArg Prod.fst hbuild)
      · cases hr
    · cases hr
  unfold servePartial
  split
  · exact doneWith_formed _
  split
  · split
    · rename_i hr
      exact hbuffered _ _ hr
    · split
      · exact doneWith_formed _
      · split
        · exact sendfile_formed hform hlen _ _
        · split
          · exact passed_formed
          · exact sendfile_formed hform hlen _ _
  · exact sendfile_formed hform hlen _ _

lemma serveRange_formed {br : ByteRange} (hget : cx.h1.method = .get) :
    (serveRange cx f br w).1.Formed cx := by
  have hzero : expectedLen cx (unsatisfiableResponse cx f) = 0 := by
    unfold expectedLen
    split_ifs <;> rfl
  unfold serveRange
  split
  · exact servePartial_formed hf hget
  · dsimp only
    split
    · exact answer_formed (.unsatisfiable f) hzero
    · exact passed_formed

/-! ## The whole file -/

omit hf in
lemma expectedLen_full (f : Prepared) (hmethod : cx.h1.method ≠ .head) (len : ℕ) :
    expectedLen cx (fullResponse cx f len) = len := by
  unfold expectedLen fullResponse
  rw [if_neg]
  · intro h
    rcases h with h | h
    · exact hmethod h
    · dsimp only at h
      split_ifs at h

lemma reopenAndSend_formed (hmethod : cx.h1.method ≠ .head) (len : ℕ) :
    (reopenAndSend cx f len w).1.Formed cx := by
  unfold reopenAndSend
  split
  · exact passed_formed
  · exact sendfile_formed (.full f len hf) (expectedLen_full f hmethod len) _ _

lemma buildOrReopen_formed (hmethod : cx.h1.method ≠ .head) {resp : StaticResponse} {body : Bytes}
    (hform : StaticForm cx resp) (hlen : body.length = expectedLen cx resp) :
    (buildOrReopen cx f resp body w).1.Formed cx := by
  have hbuild := @build_formed cx w resp body hform hlen
  unfold buildOrReopen
  generalize w.build cx resp body = out at hbuild ⊢
  obtain ⟨r, w1⟩ := out
  cases r with
  | some s =>
    intro s' hs'
    cases hs'
    exact hbuild rfl
  | none =>
    dsimp only
    split
    · exact passed_formed
    · exact reopenAndSend_formed hf hmethod _

lemma serveBytes_formed (hmethod : cx.h1.method ≠ .head) {bytes : Bytes}
    (hbytes : bytes.length = f.sel.st.size) : (serveBytes cx f bytes w).1.Formed cx := by
  unfold serveBytes
  split
  · rename_i coding out _
    split
    · exact passed_formed
    · exact buildOrReopen_formed hf hmethod (.compressed f coding out.length hf)
        (expectedLen_full f hmethod out.length).symm
  · exact buildOrReopen_formed hf hmethod (.full f f.sel.st.size hf)
      (hbytes.trans (expectedLen_full f hmethod f.sel.st.size).symm)

lemma serveBuffered_formed (hmethod : cx.h1.method ≠ .head) : (serveBuffered cx f w).1.Formed cx := by
  unfold serveBuffered
  split
  · split
    · exact doneWith_formed _
    · exact reopenAndSend_formed hf hmethod _
  · unfold serveRead
    dsimp only
    split
    · rename_i hgot
      exact serveBytes_formed hf hmethod hgot
    · split
      · exact passed_formed
      · exact reopenAndSend_formed hf hmethod _

lemma serveFull_formed : (serveFull cx f w).1.Formed cx := by
  -- a mode other than that of `HEAD` is only chosen for another method
  have hmode : serveMode cx f ≠ .head → cx.h1.method ≠ .head := by
    intro hmode hhead
    refine hmode ?_
    unfold serveMode requestBuildStaticServePlan
    rw [if_pos hhead]
  have hhead : serveMode cx f = .head → cx.h1.method = .head := by
    intro hmode
    unfold serveMode requestBuildStaticServePlan at hmode
    by_contra hmethod
    rw [if_neg hmethod] at hmode
    split_ifs at hmode
  unfold serveFull
  split
  · rename_i h
    refine answer_formed (.full f _ hf) ?_
    unfold expectedLen
    rw [if_pos (Or.inl (hhead h))]
  · rename_i h
    exact serveBuffered_formed hf (hmode (by simp [h]))
  · rename_i h
    exact sendfile_formed (.full f _ hf) (expectedLen_full f (hmode (by simp [h])) _) _ _

end Prepared

/-! ## The request -/

lemma serveOther_formed (fd : ℤ) (st : FileStat) : (serveOther cx fd st w).1.Formed cx := by
  have hzero : expectedLen cx (redirectResponse cx) = 0 := by
    unfold expectedLen
    split_ifs <;> rfl
  unfold serveOther
  dsimp only
  split
  · rename_i hdir
    exact answer_formed (.redirect (by simpa using hdir.2.1)) hzero
  · exact passed_formed

lemma openRequested_formed {r : ServeResult} {w' : ServeWorld}
    (h : openRequested cx w = (.error r, w')) : r.Formed cx := by
  unfold openRequested at h
  split at h
  · cases h
    exact passed_formed
  split at h
  · cases h
    exact passed_formed
  split at h
  · cases h
    exact passed_formed
  split at h
  · cases h
    exact passed_formed
  split at h
  · cases h
  · rename_i fd _ _ _ st w2 _ _
    have hother := @serveOther_formed cx w2 fd st
    generalize serveOther cx fd st w2 = out at hother h
    obtain ⟨r', w3⟩ := out
    cases h
    exact hother

/-- The result of a stage: what it stages is formed, or the content type comes from the table. -/
def StageFormed (cx : ServeCtx) : Except ServeResult Prepared → Prop
  | .error r => r.Formed cx
  | .ok f => f.Typed

lemma selectRepresentation_formed {relpath : Bytes} {fd : ℤ} {st : FileStat}
    {o : Except ServeResult Prepared} {w' : ServeWorld}
    (h : selectRepresentation cx relpath fd st w = (o, w')) : StageFormed cx o := by
  rw [selectRepresentation_eq] at h
  split at h
  · have hfail := @failClosed_formed cx (probed cx relpath fd st w).2 (probed cx relpath fd st w).1.fd
    cases h
    exact hfail
  · cases h
    exact ⟨relpath, rfl⟩

/-- A range is applied to `GET` only. -/
lemma appliedRange_get {f : Prepared} {br : ByteRange} (h : appliedRange cx f = some br) :
    cx.h1.method = .get := by
  unfold appliedRange at h
  split_ifs at h with hget
  exact hget.2

lemma prepareFull_formed {o : Except ServeResult Prepared} {w' : ServeWorld}
    (h : prepareFull cx w = (o, w')) : StageFormed cx o := by
  unfold prepareFull at h
  split at h
  · rename_i hopen
    cases h
    exact openRequested_formed hopen
  · rename_i relpath fd st w1 hopen
    have hselect := @selectRepresentation_formed cx w1 relpath fd st
    generalize selectRepresentation cx relpath fd st w1 = out at hselect h
    obtain ⟨o', w2⟩ := out
    have hsel := hselect rfl
    cases o' with
    | error r =>
      cases h
      exact hsel
    | ok f =>
      dsimp only at h
      split at h
      · have hzero : expectedLen cx (notModifiedResponse cx f) = 0 := by
          exact if_pos (Or.inr rfl)
        cases h
        exact answer_formed (.notModified f) hzero
      · split at h
        · rename_i br hbr
          cases h
          exact serveRange_formed hsel (appliedRange_get hbr)
        · cases h
          exact hsel

/-- **Every response of the static server is formed.** -/
theorem static_formed (cx : ServeCtx) (w : ServeWorld) :
    (staticServeTryPrepareDocrootResponse cx w).1.Formed cx := by
  have hprepare := @prepareFull_formed cx w
  unfold staticServeTryPrepareDocrootResponse
  generalize prepareFull cx w = out at hprepare ⊢
  obtain ⟨o, w1⟩ := out
  cases o with
  | error r => exact hprepare rfl
  | ok f => exact serveFull_formed (hprepare rfl)

end Lamseryn
