import Lamseryn.Properties.StaticStages

/-!
# The descriptors of a static response

Which descriptors `static_serve_try_prepare_docroot_response` leaves open.  Every stage is described
by what it owes (`Settles`, `Hands`): a stage that ends the request owes only the file it attached to
the connection, and a stage that goes on hands over the descriptor of the selected file.

The exception is the buffer of the whole file.  If it cannot be allocated, a plain connection reopens
the file into the variable that still holds the open descriptor (`serveBuffered_leaks`).
-/

namespace Lamseryn

open ByteText FileTree

variable {p0 : Process ℕ FileData} {owed : List ℤ} {cx : ServeCtx} {w : ServeWorld}

/-! ## Calls that leave the descriptors -/

@[simp] lemma fstat_proc (w : ServeWorld) (fd : ℤ) : (w.fstat fd).2.proc = w.proc := rfl

@[simp] lemma malloc_proc (w : ServeWorld) : w.malloc.2.proc = w.proc := rfl

@[simp] lemma lseek_proc (w : ServeWorld) : w.lseek.2.proc = w.proc := rfl

@[simp] lemma readAll_proc (w : ServeWorld) (fd : ℤ) (off want : ℕ) :
    (w.readAll fd off want).2.proc = w.proc := rfl

@[simp] lemma build_proc (w : ServeWorld) (cx : ServeCtx) (resp : StaticResponse) (body : Bytes) :
    (w.build cx resp body).2.proc = w.proc := rfl

@[simp] lemma close_proc (w : ServeWorld) (fd : ℤ) : (w.close fd).proc = w.proc.close fd := rfl

/-! ## Opening and closing -/

lemma openBeneath_owes (cx : ServeCtx) (h : Owes p0 w.proc owed) (relpath : Bytes) :
    Owes p0 (w.openBeneath cx relpath).2.proc
      (openedFd (w.openBeneath cx relpath).1 ++ owed) :=
  staticServeOpenatBeneathNofollow_owes h cx.docrootFd relpath

lemma openOrRecord_owes (cx : ServeCtx) (h : Owes p0 w.proc owed) (relpath : Bytes) :
    Owes p0 (w.openOrRecord cx relpath).2.proc
      ((w.openOrRecord cx relpath).1.toList ++ owed) := by
  have hopen := openBeneath_owes cx h relpath
  unfold ServeWorld.openOrRecord
  generalize w.openBeneath cx relpath = out at hopen ⊢
  obtain ⟨r, w⟩ := out
  cases r with
  | ok fd => exact hopen
  | error e => exact hopen

lemma owes_close {fd : ℤ} (h : Owes p0 w.proc (fd :: owed)) : Owes p0 (w.close fd).proc owed := by
  have hclosed := h.close List.mem_cons_self
  rwa [List.erase_cons_head] at hclosed

/-! ## Stages that end the request -/

/-- The descriptor that a response has attached to the connection. -/
def ServeResult.attached : ServeResult → List ℤ
  | .passed => []
  | .staged s => (s.file.map AttachedFile.fd).toList

/-- The request has ended, and what is owed besides its attached file is `owed`. -/
def Settles (p0 : Process ℕ FileData) (owed : List ℤ) (out : ServeResult × ServeWorld) : Prop :=
  Owes p0 out.2.proc (out.1.attached ++ owed)

lemma build_file {resp : StaticResponse} {body : Bytes} {s : Staged}
    (h : (w.build cx resp body).1 = some s) : s.file = none := by
  obtain ⟨buf, -, rfl⟩ := Option.map_eq_some_iff.mp h
  rfl

lemma answer_settles (h : Owes p0 w.proc owed) (resp : StaticResponse) :
    Settles p0 owed (w.answer cx resp) := by
  unfold ServeWorld.answer
  have hfile := @build_file cx w resp []
  have hproc := build_proc w cx resp []
  generalize w.build cx resp [] = out at hfile hproc ⊢
  obtain ⟨r, w'⟩ := out
  rw [← hproc] at h
  cases r with
  | none => exact h
  | some s =>
    have hnone := hfile rfl
    simpa [Settles, ServeResult.attached, hnone] using h

lemma sendfile_settles {fd : ℤ} (h : Owes p0 w.proc (fd :: owed)) (resp : StaticResponse)
    (off : ℕ) : Settles p0 owed (w.sendfile cx resp fd off) := by
  unfold ServeWorld.sendfile
  have hfile := @build_file cx w resp []
  have hproc := build_proc w cx resp []
  generalize w.build cx resp [] = out at hfile hproc ⊢
  obtain ⟨r, w'⟩ := out
  rw [← hproc] at h
  cases r with
  | none => exact owes_close h
  | some s =>
    have hnone := hfile rfl
    dsimp only
    split
    · exact h
    · simpa [Settles, ServeResult.attached, hnone] using owes_close h

lemma doneWith_settles {fd : Option ℤ} (h : Owes p0 w.proc (fd.toList ++ owed)) :
    Settles p0 owed (doneWith fd w) := by
  cases fd with
  | none => exact h
  | some fd => exact owes_close h

lemma failClosed_settles {fd : ℤ} (h : Owes p0 w.proc (fd :: owed)) :
    Settles p0 owed (failClosed cx fd w) := by
  unfold failClosed
  have hfile := @build_file cx (w.close fd) failClosedResponse []
  have hproc := build_proc (w.close fd) cx failClosedResponse []
  have hclosed := owes_close h
  generalize (w.close fd).build cx failClosedResponse [] = out at hfile hproc ⊢
  obtain ⟨r, w'⟩ := out
  rw [← hproc] at hclosed
  cases r with
  | none => exact hclosed
  | some s =>
    have hnone := hfile rfl
    simpa [Settles, ServeResult.attached, hnone] using hclosed

lemma serveOther_settles {fd : ℤ} (h : Owes p0 w.proc (fd :: owed)) (st : FileStat) :
    Settles p0 owed (serveOther cx fd st w) := by
  unfold serveOther
  dsimp only
  split
  · exact answer_settles (owes_close h) _
  · exact owes_close h

lemma reopenAndSend_settles {f : Prepared} (h : Owes p0 w.proc owed) (len : ℕ) :
    Settles p0 owed (reopenAndSend cx f len w) := by
  unfold reopenAndSend
  have hopen := openOrRecord_owes cx h f.relpath
  generalize w.openOrRecord cx f.relpath = out at hopen ⊢
  obtain ⟨r, w'⟩ := out
  cases r with
  | none => exact hopen
  | some fd => exact sendfile_settles hopen _ 0

/-! ## Ranges -/

/-- A stage that ends the request, or hands on the descriptors `keep`. -/
def Hands {α : Type} (p0 : Process ℕ FileData) (owed : List ℤ) (keep : α → List ℤ)
    (out : Except ServeResult α × ServeWorld) : Prop :=
  match out with
  | (.error r, w) => Settles p0 owed (r, w)
  | (.ok a, w) => Owes p0 w.proc (keep a ++ owed)

lemma partialBuffered_hands {f : Prepared} {rr : ResolvedRange}
    (h : Owes p0 w.proc (f.sel.fd :: owed)) :
    Hands p0 owed Option.toList (partialBuffered cx f rr w) := by
  unfold partialBuffered
  split
  · rename_i w1 hm
    rw [← malloc_proc, hm] at h
    exact h
  · rename_i w1 hm
    rw [← malloc_proc, hm] at h
    split
    · rename_i w2 hs
      rw [← lseek_proc, hs] at h
      exact h
    · rename_i w2 hs
      rw [← lseek_proc, hs] at h
      have hclosed : Owes p0 ((w2.readAll f.sel.fd rr.start rr.length).2.close f.sel.fd).proc owed :=
        owes_close h
      generalize w2.readAll f.sel.fd rr.start rr.length = out at hclosed ⊢
      obtain ⟨got, w3⟩ := out
      dsimp only at hclosed ⊢
      split
      · have hfile := @build_file cx (w3.close f.sel.fd) (partialResponse cx f rr) got
        have hproc := build_proc (w3.close f.sel.fd) cx (partialResponse cx f rr) got
        generalize (w3.close f.sel.fd).build cx (partialResponse cx f rr) got = out at hfile hproc ⊢
        obtain ⟨r, w4⟩ := out
        rw [← hproc] at hclosed
        cases r with
        | none => exact hclosed
        | some s =>
          have hnone := hfile rfl
          simpa [Hands, Settles, ServeResult.attached, hnone] using hclosed
      · exact hclosed

lemma servePartial_settles {f : Prepared} {rr : ResolvedRange}
    (h : Owes p0 w.proc (f.sel.fd :: owed)) : Settles p0 owed (servePartial cx f rr w) := by
  unfold servePartial
  split
  · exact doneWith_settles h
  split
  · have hbuf := @partialBuffered_hands p0 owed cx w f rr h
    generalize partialBuffered cx f rr w = out at hbuf ⊢
    obtain ⟨r, w1⟩ := out
    cases r with
    | error r => exact hbuf
    | ok fd =>
      dsimp only
      split
      · exact doneWith_settles hbuf
      · cases fd with
        | some fd => exact sendfile_settles hbuf _ _
        | none =>
          have hopen := openOrRecord_owes cx hbuf f.relpath
          dsimp only
          generalize w1.openOrRecord cx f.relpath = out at hopen ⊢
          obtain ⟨r, w2⟩ := out
          cases r with
          | none => exact hopen
          | some fd => exact sendfile_settles hopen _ _
  · exact sendfile_settles h _ _

lemma serveRange_settles {f : Prepared} (h : Owes p0 w.proc (f.sel.fd :: owed)) (br : ByteRange) :
    Settles p0 owed (serveRange cx f br w) := by
  unfold serveRange
  split
  · exact servePartial_settles h
  · dsimp only
    split
    · exact answer_settles (owes_close h) _
    · exact owes_close h

/-! ## The whole file -/

lemma buildOrReopen_settles {f : Prepared} (h : Owes p0 w.proc owed) (resp : StaticResponse)
    (body : Bytes) : Settles p0 owed (buildOrReopen cx f resp body w) := by
  unfold buildOrReopen
  have hfile := @build_file cx w resp body
  have hproc := build_proc w cx resp body
  generalize w.build cx resp body = out at hfile hproc ⊢
  obtain ⟨r, w1⟩ := out
  rw [← hproc] at h
  cases r with
  | none =>
    dsimp only
    split
    · exact h
    · exact reopenAndSend_settles h _
  | some s =>
    have hnone := hfile rfl
    simpa [Settles, ServeResult.attached, hnone] using h

lemma serveRead_settles {f : Prepared} (h : Owes p0 w.proc owed) (got : Bytes) :
    Settles p0 owed (serveRead cx f got w) := by
  unfold serveRead serveBytes
  split
  · split
    · split
      · exact h
      · exact buildOrReopen_settles h _ _
    · exact buildOrReopen_settles h _ _
  · split
    · exact h
    · exact reopenAndSend_settles h _

lemma malloc_eq (w : ServeWorld) :
    w.malloc = (nextOk w.mallocs, { w with mallocs := w.mallocs.tail }) := rfl

lemma serveBuffered_settles {f : Prepared} (h : Owes p0 w.proc (f.sel.fd :: owed))
    (hbuf : nextOk w.mallocs = true ∨ cx.tls = true) :
    Settles p0 owed (serveBuffered cx f w) := by
  unfold serveBuffered
  rw [malloc_eq]
  cases hm : nextOk w.mallocs with
  | false =>
    have htls : cx.tls = true := by simpa [hm] using hbuf
    simp only [htls, if_true]
    exact doneWith_settles h
  | true =>
    have hread : Owes p0
        (({ w with mallocs := w.mallocs.tail } : ServeWorld).readAll f.sel.fd 0
          f.sel.st.size).2.proc (f.sel.fd :: owed) := h
    exact serveRead_settles (owes_close hread) _

lemma serveBuffered_leaks {f : Prepared} (h : Owes p0 w.proc (f.sel.fd :: owed))
    (hm : nextOk w.mallocs = false) (htls : cx.tls = false) :
    Settles p0 (f.sel.fd :: owed) (serveBuffered cx f w) := by
  unfold serveBuffered
  rw [malloc_eq, hm]
  simp only [htls, Bool.false_eq_true, if_false]
  have hsame : Owes p0 ({ w with mallocs := w.mallocs.tail } : ServeWorld).proc (f.sel.fd :: owed) := h
  exact reopenAndSend_settles hsame _

/-! ## Selecting the representation -/

lemma probeSibling_owes {sel : SelectedFile} (h : Owes p0 w.proc (sel.fd :: owed)) (relpath : Bytes)
    (coding : ContentCoding) :
    Owes p0 (probeSibling cx relpath sel coding w).2.proc
      ((probeSibling cx relpath sel coding w).1.fd :: owed) := by
  unfold probeSibling
  split
  · exact h
  · have hopen := openBeneath_owes cx h (relpath ++ compressEncExt coding)
    generalize w.openBeneath cx (relpath ++ compressEncExt coding) = out at hopen ⊢
    obtain ⟨r, w1⟩ := out
    cases r with
    | error e => exact hopen
    | ok compFd =>
      dsimp only
      have hstat : Owes p0 (w1.fstat compFd).2.proc (compFd :: sel.fd :: owed) := hopen
      generalize w1.fstat compFd = out at hstat ⊢
      obtain ⟨st, w2⟩ := out
      cases st with
      | none => exact owes_close hstat
      | some st =>
        dsimp only at hstat ⊢
        split
        · have hclosed := hstat.close (List.mem_cons_of_mem compFd List.mem_cons_self)
          rwa [erase_second] at hclosed
        · exact owes_close hstat

lemma probeSiblings_owes (cx : ServeCtx) (relpath : Bytes) (accepted : CodingMask) (codings : List ContentCoding) :
    ∀ (sel : SelectedFile) (w : ServeWorld), Owes p0 w.proc (sel.fd :: owed) →
      Owes p0 (probeSiblings cx relpath accepted codings sel w).2.proc
        ((probeSiblings cx relpath accepted codings sel w).1.fd :: owed) := by
  induction codings with
  | nil => exact fun _ _ h => h
  | cons coding rest ih =>
    intro sel w h
    unfold probeSiblings
    split
    · exact ih _ _ (probeSibling_owes h relpath coding)
    · exact ih _ _ h

/-- The descriptor of the selected file. -/
def Prepared.fds (f : Prepared) : List ℤ :=
  [f.sel.fd]

lemma selectRepresentation_hands {relpath : Bytes} {fd : ℤ} {st : FileStat}
    (h : Owes p0 w.proc (fd :: owed)) :
    Hands p0 owed Prepared.fds (selectRepresentation cx relpath fd st w) := by
  have hprobe : Owes p0 (probed cx relpath fd st w).2.proc ((probed cx relpath fd st w).1.fd :: owed) :=
    probeSiblings_owes cx relpath _ [.brotli, .gzip] ⟨fd, st, none⟩ w h
  rw [selectRepresentation_eq]
  split
  · exact failClosed_settles hprobe
  · exact hprobe

/-- The descriptor of the opened file. -/
def openedFile (file : Bytes × ℤ × FileStat) : List ℤ :=
  [file.2.1]

lemma openRequested_hands (cx : ServeCtx) (w : ServeWorld) :
    Hands w.proc [] openedFile (openRequested cx w) := by
  have hstart := Owes.refl w.proc
  unfold openRequested
  split
  · exact hstart
  split
  · exact hstart
  · rename_i relpath hpath
    have hopen := openOrRecord_owes cx hstart relpath
    generalize w.openOrRecord cx relpath = out at hopen ⊢
    obtain ⟨r, w1⟩ := out
    cases r with
    | none => exact hopen
    | some fd =>
      have hstat : Owes w.proc (w1.fstat fd).2.proc [fd] := hopen
      dsimp only
      generalize w1.fstat fd = out at hstat ⊢
      obtain ⟨st, w2⟩ := out
      cases st with
      | none => exact owes_close hstat
      | some st =>
        dsimp only
        split
        · exact hstat
        · exact serveOther_settles hstat st

lemma prepareFull_hands (cx : ServeCtx) (w : ServeWorld) :
    Hands w.proc [] Prepared.fds (prepareFull cx w) := by
  have hopen := openRequested_hands cx w
  unfold prepareFull
  generalize openRequested cx w = out at hopen ⊢
  obtain ⟨r, w1⟩ := out
  cases r with
  | error r => exact hopen
  | ok file =>
    obtain ⟨relpath, fd, st⟩ := file
    have hsel : Hands w.proc [] Prepared.fds (selectRepresentation cx relpath fd st w1) :=
      selectRepresentation_hands hopen
    dsimp only
    generalize selectRepresentation cx relpath fd st w1 = out at hsel ⊢
    obtain ⟨r, w2⟩ := out
    cases r with
    | error r => exact hsel
    | ok f =>
      dsimp only
      split
      · exact answer_settles (owes_close hsel) _
      · split
        · exact serveRange_settles hsel _
        · exact hsel

/-! ## The request -/

/-- The open descriptor of the file is lost: a plain connection, the whole file to be sent from a
buffer, and no memory for the buffer. -/
def LosesDescriptor (cx : ServeCtx) (w : ServeWorld) : Prop :=
  cx.tls = false ∧ nextOk w.mallocs = false ∧
    ∃ f, (prepareFull cx w).1 = .ok f ∧ serveMode cx f = .buffered

lemma serveFull_settles {f : Prepared} (h : Owes p0 w.proc (f.sel.fd :: owed))
    (hbuf : serveMode cx f = .buffered → nextOk w.mallocs = true ∨ cx.tls = true) :
    Settles p0 owed (serveFull cx f w) := by
  unfold serveFull
  cases hmode : serveMode cx f with
  | head => exact answer_settles (owes_close h) _
  | buffered => exact serveBuffered_settles h (hbuf hmode)
  | sendfile => exact sendfile_settles h _ 0

lemma owes_of_losesDescriptor (h : LosesDescriptor cx w) :
    ∃ fd, Owes w.proc (staticServeTryPrepareDocrootResponse cx w).2.proc
      ((staticServeTryPrepareDocrootResponse cx w).1.attached ++ [fd]) := by
  obtain ⟨htls, hm, f, hf, hmode⟩ := h
  have hhands := prepareFull_hands cx w
  unfold staticServeTryPrepareDocrootResponse
  cases hout : prepareFull cx w with
  | mk r w' =>
    rw [hout] at hhands hf
    cases hf
    obtain ⟨d, identity, i, data, hprepared⟩ := prepareFull_chosen hout
    rw [← hprepared.looks.mallocs] at hm
    refine ⟨f.sel.fd, ?_⟩
    show Settles w.proc [f.sel.fd] (serveFull cx f w')
    rw [serveFull, hmode]
    exact serveBuffered_leaks hhands hm htls

/-- **Every descriptor of a static response is accounted for**, closed exactly once or attached to the
connection, exactly if the descriptor of the file is not lost for want of a buffer. -/
theorem staticServe_descriptors_iff (cx : ServeCtx) (w : ServeWorld) :
    Owes w.proc (staticServeTryPrepareDocrootResponse cx w).2.proc
        (staticServeTryPrepareDocrootResponse cx w).1.attached ↔
      ¬ LosesDescriptor cx w := by
  constructor
  · intro howes hloses
    obtain ⟨fd, hlost⟩ := owes_of_losesDescriptor hloses
    have hlen := congrArg List.length (howes.unique hlost)
    simp at hlen
  · intro hkept
    have hhands := prepareFull_hands cx w
    have hsettled : Settles w.proc [] (staticServeTryPrepareDocrootResponse cx w) := by
      unfold staticServeTryPrepareDocrootResponse
      cases hout : prepareFull cx w with
      | mk r w' =>
        rw [hout] at hhands
        cases r with
        | error r => exact hhands
        | ok f =>
          obtain ⟨d, identity, i, data, hprepared⟩ := prepareFull_chosen hout
          apply serveFull_settles hhands
          intro hmode
          rw [hprepared.looks.mallocs]
          by_contra hnone
          obtain ⟨hm, htls⟩ := not_or.mp hnone
          exact hkept ⟨by simpa using htls, by simpa using hm, f, by rw [hout], hmode⟩
    rw [Settles, List.append_nil] at hsettled
    exact hsettled

/-- A document root with a small file, open as descriptor 3. -/
def smallSite : Process ℕ FileData where
  tree :=
    { root := 0
      node := fun i =>
        if i = 0 then .dir 0 [(ascii "a.txt", 1)]
        else if i = 1 then .file { bytes := ascii "hello", size_lt := by decide }
        else .special }
  fds := [(3, 0)]

/-- A plain request for the small file. -/
def smallRequest : ServeCtx where
  h1 := { method := .get, pathNorm := ascii "/a.txt" }
  vhost := some { docrootFd := 3, features := { static := true } }
  tls := false
  docrootFd := 3
  date := []
  date_lt := no_date_lt
  haveBrotli := false
  codec := ⟨fun _ _ => none, fun _ _ => none⟩

/-- With memory for the buffer, everything the request opens is closed. -/
theorem staticServe_descriptors_small :
    Owes smallSite
      (staticServeTryPrepareDocrootResponse smallRequest { proc := smallSite }).2.proc
      (staticServeTryPrepareDocrootResponse smallRequest { proc := smallSite }).1.attached :=
  (staticServe_descriptors_iff smallRequest { proc := smallSite }).mpr fun h => by
    simp [LosesDescriptor, nextOk] at h

/-- Without it, the first descriptor stays open beside the attached one. -/
theorem staticServe_loses_descriptor :
    ¬ Owes smallSite
      (staticServeTryPrepareDocrootResponse smallRequest
        { proc := smallSite, mallocs := [false] }).2.proc
      (staticServeTryPrepareDocrootResponse smallRequest
        { proc := smallSite, mallocs := [false] }).1.attached := by
  have hloses : LosesDescriptor smallRequest { proc := smallSite, mallocs := [false] } := by
    refine ⟨rfl, rfl, ⟨ascii "a.txt", ascii "text/plain; charset=utf-8", {},
      ⟨0, ⟨.regular, 1, 5, 0, 0⟩, none⟩, none, {}, []⟩, ?_, ?_⟩
    · decide
    · decide
  intro howes
  obtain ⟨fd, hlost⟩ := owes_of_losesDescriptor hloses
  have hlen := congrArg List.length (howes.unique hlost)
  simp at hlen

end Lamseryn
