import Lamseryn.Properties.DocrootOpen

/-!
# The stages of a static response

What it means that a stage of `static_serve_try_prepare_docroot_response` goes on (`openRequested_ok`,
`selectRepresentation_ok`, `prepareFull_ok`), and what the stages up to the whole file leave alone:
they only look at files, so the tree and the outcomes of every later allocation, seek, read and header
block are as they were (`OnlyLooks`).
-/

namespace Lamseryn

open ByteText FileTree

variable {cx : ServeCtx}

/-! ## Stages that go on -/

lemma openRequested_ok {relpath : Bytes} {fd : ℤ} {st : FileStat} {w w' : ServeWorld}
    (h : openRequested cx w = (.ok (relpath, fd, st), w')) :
    0 ≤ cx.docrootFd ∧ requestedPath cx = some relpath ∧ st.servable = true ∧
      ∃ w1, w.openOrRecord cx relpath = (some fd, w1) ∧ w1.fstat fd = (some st, w') := by
  unfold openRequested at h
  split at h
  · cases h
  · rename_i hroot
    split at h
    · cases h
    · rename_i path hpath
      split at h
      · cases h
      · rename_i fd1 w1 hopen
        split at h
        · cases h
        · rename_i st1 w2 hstat
          split at h
          · rename_i hserve
            cases h
            exact ⟨Int.not_lt.mp hroot, hpath, hserve, w1, hopen, hstat⟩
          · cases h

/-- The headers that are assembled for a selected file. -/
def assembledFor (cx : ServeCtx) (relpath : Bytes) (sel : SelectedFile) : Assembled :=
  staticServeAssembleExtraHeaders validatorHdrsMax sel.st cx.features sel.coding
    (staticServeMimeTypeForPath relpath) (policyLines cx)

/-- The prepared response of a selected file whose headers fit. -/
def preparedFor (cx : ServeCtx) (relpath : Bytes) (sel : SelectedFile) : Prepared :=
  ⟨relpath, staticServeMimeTypeForPath relpath,
    acceptedCodings cx (staticServeMimeTypeForPath relpath),
    { sel with coding := (assembledFor cx relpath sel).extra.siblingCoding }, sel.coding,
    (assembledFor cx relpath sel).extra, (assembledFor cx relpath sel).etag⟩

/-- The search for a sibling of the requested file. -/
def probed (cx : ServeCtx) (relpath : Bytes) (fd : ℤ) (st : FileStat) (w : ServeWorld) :
    SelectedFile × ServeWorld :=
  probeSiblings cx relpath (acceptedCodings cx (staticServeMimeTypeForPath relpath))
    [.brotli, .gzip] ⟨fd, st, none⟩ w

/-! ## The line of the coding always fits -/

lemma staticServeFormatEtag_length_lt (st : FileStat) : (staticServeFormatEtag 64 st).length < 64 := by
  unfold staticServeFormatEtag
  dsimp only
  split
  · assumption
  · decide

lemma staticServeFormatLastModified_length_lt (st : FileStat) :
    (staticServeFormatLastModified 64 st).length < 64 := by
  unfold staticServeFormatLastModified timeFormatHttpDate
  dsimp only
  split
  · decide
  · split
    · assumption
    · decide

lemma validators_length_le {cap : ℕ} {etag lastMod : Bytes} (he : etag.length < 64)
    (hl : lastMod.length < 64) :
    (staticServeBuildValidatorHeaders cap etag lastMod).length ≤ 151 := by
  unfold staticServeBuildValidatorHeaders fitted
  have hename : (ascii "ETag").length = 4 := by decide
  have hlname : (ascii "Last-Modified").length = 13 := by decide
  split
  · simp
  · split
    · rw [List.length_append, headerLine_length, headerLine_length, hename, hlname]
      omega
    · simp

lemma codingLines_length_le (c : ContentCoding) :
    (contentEncodingLine c ++ varyLine).length ≤ 47 := by
  cases c <;> decide

/-- The coding that was found is the coding that is announced. -/
lemma assemble_siblingCoding (st : FileStat) (features : Features)
    (servingEnc : Option ContentCoding) (ctype : Bytes) (lines : List Bytes) :
    (staticServeAssembleExtraHeaders validatorHdrsMax st features servingEnc ctype
      lines).extra.siblingCoding = servingEnc := by
  unfold staticServeAssembleExtraHeaders
  dsimp only
  cases servingEnc with
  | none => rfl
  | some c =>
    have hetag : (if features.conditional then staticServeFormatEtag 64 st else []).length < 64 := by
      split
      · exact staticServeFormatEtag_length_lt st
      · decide
    have hlast :
        (if features.conditional then staticServeFormatLastModified 64 st else []).length < 64 := by
      split
      · exact staticServeFormatLastModified_length_lt st
      · decide
    have hvalid := @validators_length_le validatorHdrsMax _ _ hetag hlast
    have hcoding := codingLines_length_le c
    have hranges : acceptRangesLine.length = 22 := by decide
    generalize staticServeBuildValidatorHeaders validatorHdrsMax _ _ = validators at hvalid ⊢
    generalize (features.range &&
      decide (validators.length + acceptRangesLine.length < validatorHdrsMax)) = ranges
    have hhead : (ExtraHeaders.text { validators := validators, acceptRanges := ranges }).length
        ≤ validators.length + 22 := by
      cases ranges <;> simp [ExtraHeaders.text, hranges]
    have hfits : (contentEncodingLine c ++ varyLine).length < 64 ∧
        (ExtraHeaders.text { validators := validators, acceptRanges := ranges }).length
          + (contentEncodingLine c ++ varyLine).length < validatorHdrsMax := by
      unfold validatorHdrsMax
      omega
    simp only [Option.filter, hfits, and_self, decide_true, if_true]

lemma assembledFor_siblingCoding (relpath : Bytes) (sel : SelectedFile) :
    (assembledFor cx relpath sel).extra.siblingCoding = sel.coding :=
  assemble_siblingCoding _ _ _ _ _

/-- Choosing the representation: either the policy headers do not fit, or the file that the search
found is prepared. -/
lemma selectRepresentation_eq (relpath : Bytes) (fd : ℤ) (st : FileStat) (w : ServeWorld) :
    selectRepresentation cx relpath fd st w =
      if (assembledFor cx relpath (probed cx relpath fd st w).1).overflow then
        (.error (failClosed cx (probed cx relpath fd st w).1.fd (probed cx relpath fd st w).2).1,
          (failClosed cx (probed cx relpath fd st w).1.fd (probed cx relpath fd st w).2).2)
      else (.ok (preparedFor cx relpath (probed cx relpath fd st w).1),
        (probed cx relpath fd st w).2) := by
  have hcoding := @assembledFor_siblingCoding cx relpath (probed cx relpath fd st w).1
  unfold selectRepresentation
  dsimp only
  show (if (assembledFor cx relpath (probed cx relpath fd st w).1).overflow then _ else _) = _
  split
  · rfl
  · split
    · rename_i hlost
      obtain ⟨hsome, hnone⟩ := hlost
      have hnone' : (assembledFor cx relpath (probed cx relpath fd st w).1).extra.siblingCoding.isNone
        = true := hnone
      rw [hcoding] at hnone'
      have hsome' : (probed cx relpath fd st w).1.coding.isSome = true := hsome
      rw [Option.isNone_iff_eq_none.mp hnone'] at hsome'
      cases hsome'
    · rfl

lemma prepareFull_ok {f : Prepared} {w w' : ServeWorld} (h : prepareFull cx w = (.ok f, w')) :
    ∃ relpath fd st w1, openRequested cx w = (.ok (relpath, fd, st), w1) ∧
      (assembledFor cx relpath (probed cx relpath fd st w1).1).overflow = false ∧
      f = preparedFor cx relpath (probed cx relpath fd st w1).1 ∧
      w' = (probed cx relpath fd st w1).2 ∧
      notModified cx f = false ∧ appliedRange cx f = none := by
  unfold prepareFull at h
  split at h
  · cases h
  · rename_i relpath fd st w1 hopen
    rw [selectRepresentation_eq] at h
    cases hover : (assembledFor cx relpath (probed cx relpath fd st w1).1).overflow with
    | true =>
      rw [if_pos hover] at h
      cases h
    | false =>
      rw [if_neg (by simp [hover])] at h
      dsimp only at h
      split at h
      · cases h
      · rename_i hnot
        split at h
        · cases h
        · rename_i hrange
          cases h
          exact ⟨relpath, fd, st, w1, hopen, hover, rfl, rfl, by simpa using hnot, hrange⟩

/-! ## Only looking -/

/-- From `w` to `w'` files were opened, closed and looked at, and nothing else was done. -/
structure OnlyLooks (w w' : ServeWorld) : Prop where
  tree : w'.proc.tree = w.proc.tree
  mallocs : w'.mallocs = w.mallocs
  seeks : w'.seeks = w.seeks
  reads : w'.reads = w.reads
  builds : w'.builds = w.builds

lemma OnlyLooks.refl (w : ServeWorld) : OnlyLooks w w :=
  ⟨rfl, rfl, rfl, rfl, rfl⟩

lemma OnlyLooks.trans {a b c : ServeWorld} (h : OnlyLooks a b) (h' : OnlyLooks b c) :
    OnlyLooks a c :=
  ⟨h'.tree.trans h.tree, h'.mallocs.trans h.mallocs, h'.seeks.trans h.seeks,
    h'.reads.trans h.reads, h'.builds.trans h.builds⟩

lemma onlyLooks_close (w : ServeWorld) (fd : ℤ) : OnlyLooks w (w.close fd) :=
  ⟨rfl, rfl, rfl, rfl, rfl⟩

lemma onlyLooks_fstat (w : ServeWorld) (fd : ℤ) : OnlyLooks w (w.fstat fd).2 :=
  ⟨rfl, rfl, rfl, rfl, rfl⟩

lemma onlyLooks_openBeneath (w : ServeWorld) (cx : ServeCtx) (relpath : Bytes) :
    OnlyLooks w (w.openBeneath cx relpath).2 := by
  refine ⟨?_, rfl, rfl, rfl, rfl⟩
  show (staticServeOpenatBeneathNofollow cx.docrootFd relpath w.proc).2.tree = w.proc.tree
  unfold staticServeOpenatBeneathNofollow
  split
  · rfl
  split
  · rfl
  · exact openBeneathWalk_tree _ _ _ _

lemma openOrRecord_some {w w' : ServeWorld} {relpath : Bytes} {fd : ℤ}
    (h : w.openOrRecord cx relpath = (some fd, w')) : w.openBeneath cx relpath = (.ok fd, w') := by
  unfold ServeWorld.openOrRecord at h
  split at h
  · rename_i fd1 w1 hopen
    cases h
    exact hopen
  · cases h

/-! ## The file behind a descriptor -/

/-- The regular file that a path beneath the directory `d` names, with its inode. -/
def fileAt (t : Tree ℕ FileData) (d : ℕ) (relpath : Bytes) : Option (ℕ × FileData) :=
  match docrootFind t d relpath with
  | .error _ => none
  | .ok i =>
    match t.node i with
    | .file data => some (i, data)
    | _ => none

/-- The `struct stat` of a regular file. -/
def fileStat (i : ℕ) (data : FileData) : FileStat :=
  ⟨.regular, i, data.bytes.length, data.mtimeSec, data.mtimeNsec⟩

lemma node_of_fileAt {t : Tree ℕ FileData} {d i : ℕ} {relpath : Bytes} {data : FileData}
    (h : fileAt t d relpath = some (i, data)) : t.node i = .file data := by
  unfold fileAt at h
  split at h
  · cases h
  · split at h
    · rename_i hnode
      cases h
      exact hnode
    · cases h

/-- A descriptor is open on the regular file that a path names. -/
structure OpenOn (w : ServeWorld) (d : ℕ) (relpath : Bytes) (fd : ℤ) (i : ℕ) (data : FileData) :
    Prop where
  fileAt : fileAt w.proc.tree d relpath = some (i, data)
  lookup : w.proc.fds.lookup fd = some i

lemma OpenOn.nodeAt {w : ServeWorld} {d : ℕ} {relpath : Bytes} {fd : ℤ} {i : ℕ} {data : FileData}
    (h : OpenOn w d relpath fd i data) : w.proc.nodeAt fd = some (i, .file data) := by
  rw [Process.nodeAt, h.lookup, Option.map_some, node_of_fileAt h.fileAt]

lemma OpenOn.contentAt {w : ServeWorld} {d : ℕ} {relpath : Bytes} {fd : ℤ} {i : ℕ} {data : FileData}
    (h : OpenOn w d relpath fd i data) : w.contentAt fd = data.bytes := by
  unfold ServeWorld.contentAt
  rw [h.nodeAt]

lemma statOf_servable {i : ℕ} {node : Node ℕ FileData} (h : (statOf (i, node)).servable = true) :
    ∃ data, node = .file data ∧ statOf (i, node) = fileStat i data := by
  cases node with
  | file data => exact ⟨data, rfl, rfl⟩
  | dir parent entries => simp [FileStat.servable, statOf] at h
  | symlink target => simp [FileStat.servable, statOf] at h
  | special => simp [FileStat.servable, statOf] at h

/-- What was opened and is servable is open on its file. -/
lemma openOn_of_opened {w w1 w2 : ServeWorld} {relpath : Bytes} {fd : ℤ} {st : FileStat} {d : ℕ}
    (hroot : w.proc.fds.lookup cx.docrootFd = some d)
    (hopen : w.openBeneath cx relpath = (.ok fd, w1)) (hstat : w1.fstat fd = (some st, w2))
    (hserve : st.servable = true) :
    ∃ i data, OpenOn w2 d relpath fd i data ∧ st = fileStat i data := by
  have hok : (staticServeOpenatBeneathNofollow cx.docrootFd relpath w.proc).1 = .ok fd :=
    congrArg Prod.fst hopen
  have hproc : (staticServeOpenatBeneathNofollow cx.docrootFd relpath w.proc).2 = w1.proc :=
    congrArg (fun out => out.2.proc) hopen
  obtain ⟨d', i, hd', hfind, hfd⟩ := docroot_found hok
  rw [hroot] at hd'
  cases hd'
  rw [hproc] at hfd
  have htree : w1.proc.tree = w.proc.tree := by
    have hlooks := (onlyLooks_openBeneath w cx relpath).tree
    rwa [hopen] at hlooks
  have hnode : w1.proc.nodeAt fd = some (i, w.proc.tree.node i) := by
    rw [Process.nodeAt, hfd, htree]
    rfl
  have hw2 : w2.proc = w1.proc := congrArg (fun out => out.2.proc) hstat.symm
  have hst : st = statOf (i, w.proc.tree.node i) := by
    have hval : (if nextOk w1.fstats then (w1.proc.nodeAt fd).map statOf else none) = some st :=
      congrArg Prod.fst hstat
    split at hval
    · rw [hnode] at hval
      exact (Option.some.inj hval).symm
    · cases hval
  rw [hst] at hserve
  obtain ⟨data, hfile, heq⟩ := statOf_servable hserve
  refine ⟨i, data, ⟨?_, ?_⟩, hst.trans heq⟩
  · rw [hw2, htree, fileAt, hfind]
    dsimp only
    rw [hfile]
  · rw [hw2, hfd]

lemma lookup_openBeneath {w w1 : ServeWorld} {relpath : Bytes} {r : Except Errno ℤ} {fd : ℤ} {i : ℕ}
    (h : w.proc.fds.lookup fd = some i) (hopen : w.openBeneath cx relpath = (r, w1)) :
    w1.proc.fds.lookup fd = some i ∧ r ≠ .ok fd := by
  have hframe := @docroot_frame cx.docrootFd fd i relpath w.proc h
  have hr : (staticServeOpenatBeneathNofollow cx.docrootFd relpath w.proc).1 = r :=
    congrArg Prod.fst hopen
  have hproc : (staticServeOpenatBeneathNofollow cx.docrootFd relpath w.proc).2 = w1.proc :=
    congrArg (fun out => out.2.proc) hopen
  rwa [hr, hproc] at hframe

lemma tree_openBeneath {w w1 : ServeWorld} {relpath : Bytes} {r : Except Errno ℤ}
    (hopen : w.openBeneath cx relpath = (r, w1)) : w1.proc.tree = w.proc.tree := by
  have hlooks := (onlyLooks_openBeneath w cx relpath).tree
  rwa [hopen] at hlooks

lemma openOn_of_openBeneath {w w1 : ServeWorld} {relpath : Bytes} {fd : ℤ} {d i : ℕ} {data : FileData}
    (hroot : w.proc.fds.lookup cx.docrootFd = some d)
    (hfile : fileAt w.proc.tree d relpath = some (i, data))
    (hopen : w.openBeneath cx relpath = (.ok fd, w1)) : OpenOn w1 d relpath fd i data := by
  have hok : (staticServeOpenatBeneathNofollow cx.docrootFd relpath w.proc).1 = .ok fd :=
    congrArg Prod.fst hopen
  have hproc : (staticServeOpenatBeneathNofollow cx.docrootFd relpath w.proc).2 = w1.proc :=
    congrArg (fun out => out.2.proc) hopen
  obtain ⟨d', j, hd', hfind, hfd⟩ := docroot_found hok
  rw [hroot] at hd'
  cases hd'
  have hj : j = i := by
    unfold fileAt at hfile
    rw [hfind] at hfile
    dsimp only at hfile
    split at hfile
    · cases hfile
      rfl
    · cases hfile
  rw [hproc, hj] at hfd
  refine ⟨?_, hfd⟩
  rw [tree_openBeneath hopen]
  exact hfile

lemma lookup_close_of_ne {w : ServeWorld} {fd fd' : ℤ} (h : fd' ≠ fd) :
    (w.close fd).proc.fds.lookup fd' = w.proc.fds.lookup fd' :=
  Process.lookup_close_of_ne h

/-! ## The selected file -/

/-- The extension of a coding, empty for the file itself. -/
def codingExt (coding : Option ContentCoding) : Bytes :=
  (coding.map compressEncExt).getD []

/-- The selected descriptor is open on the file that its coding says, and the root stays open. -/
structure Chosen (cx : ServeCtx) (relpath : Bytes) (d : ℕ) (w : ServeWorld) (sel : SelectedFile)
    (i : ℕ) (data : FileData) : Prop where
  root : w.proc.fds.lookup cx.docrootFd = some d
  ne : sel.fd ≠ cx.docrootFd
  openOn : OpenOn w d (relpath ++ codingExt sel.coding) sel.fd i data
  st : sel.st = fileStat i data
  servable : sel.st.servable = true

lemma Chosen.opened {relpath path : Bytes} {d i : ℕ} {w w1 : ServeWorld} {sel : SelectedFile}
    {data : FileData} {r : Except Errno ℤ} (h : Chosen cx relpath d w sel i data)
    (hopen : w.openBeneath cx path = (r, w1)) :
    Chosen cx relpath d w1 sel i data ∧ r ≠ .ok sel.fd ∧ r ≠ .ok cx.docrootFd := by
  obtain ⟨hroot, hrootne⟩ := lookup_openBeneath h.root hopen
  obtain ⟨hsel, hselne⟩ := lookup_openBeneath h.openOn.lookup hopen
  have hfile := h.openOn.fileAt
  rw [← tree_openBeneath hopen] at hfile
  exact ⟨⟨hroot, h.ne, ⟨hfile, hsel⟩, h.st, h.servable⟩, hselne, hrootne⟩

lemma Chosen.closed {relpath : Bytes} {d i : ℕ} {w : ServeWorld} {sel : SelectedFile} {data : FileData}
    {fd : ℤ} (h : Chosen cx relpath d w sel i data) (hfd : fd ≠ sel.fd) (hroot : fd ≠ cx.docrootFd) :
    Chosen cx relpath d (w.close fd) sel i data := by
  refine ⟨?_, h.ne, ⟨h.openOn.fileAt, ?_⟩, h.st, h.servable⟩
  · rw [lookup_close_of_ne hroot.symm]
    exact h.root
  · rw [lookup_close_of_ne hfd.symm]
    exact h.openOn.lookup

/-- One round of the search keeps the selected file or selects the sibling. -/
lemma probeSibling_chosen {relpath : Bytes} {d i : ℕ} {w : ServeWorld} {sel : SelectedFile}
    {data : FileData} (h : Chosen cx relpath d w sel i data) (coding : ContentCoding) :
    ∃ i' data', Chosen cx relpath d (probeSibling cx relpath sel coding w).2
      (probeSibling cx relpath sel coding w).1 i' data' := by
  unfold probeSibling
  split
  · exact ⟨i, data, h⟩
  · cases hopen : w.openBeneath cx (relpath ++ compressEncExt coding) with
    | mk r w1 =>
      obtain ⟨hchosen, hselne, hrootne⟩ := h.opened hopen
      cases r with
      | error e => exact ⟨i, data, hchosen⟩
      | ok compFd =>
        have hfd : compFd ≠ sel.fd := fun heq => hselne (by rw [heq])
        have hroot : compFd ≠ cx.docrootFd := fun heq => hrootne (by rw [heq])
        dsimp only
        cases hstat : w1.fstat compFd with
        | mk st w2 =>
          have hproc : w2.proc = w1.proc := congrArg (fun out => out.2.proc) hstat.symm
          have hchosen2 : Chosen cx relpath d w2 sel i data := by
            obtain ⟨h1, h2, ⟨h3, h4⟩, h5, h6⟩ := hchosen
            rw [← hproc] at h1 h3 h4
            exact ⟨h1, h2, ⟨h3, h4⟩, h5, h6⟩
          cases st with
          | none => exact ⟨i, data, hchosen2.closed hfd hroot⟩
          | some st =>
            dsimp only
            split
            · rename_i hserve
              obtain ⟨i', data', hopenOn, hst⟩ := openOn_of_opened h.root hopen hstat hserve
              refine ⟨i', data', ?_, hroot, ⟨hopenOn.fileAt, ?_⟩, hst, hserve⟩
              · rw [lookup_close_of_ne h.ne.symm]
                exact hchosen2.root
              · rw [lookup_close_of_ne hfd]
                exact hopenOn.lookup
            · exact ⟨i, data, hchosen2.closed hfd hroot⟩

lemma probeSiblings_chosen {relpath : Bytes} {d : ℕ} (accepted : CodingMask)
    (codings : List ContentCoding) : ∀ (sel : SelectedFile) (w : ServeWorld) (i : ℕ) (data : FileData),
      Chosen cx relpath d w sel i data →
        ∃ i' data', Chosen cx relpath d (probeSiblings cx relpath accepted codings sel w).2
          (probeSiblings cx relpath accepted codings sel w).1 i' data' := by
  induction codings with
  | nil => exact fun sel w i data h => ⟨i, data, h⟩
  | cons coding rest ih =>
    intro sel w i data h
    unfold probeSiblings
    split
    · obtain ⟨i', data', h'⟩ := probeSibling_chosen h coding
      exact ih _ _ i' data' h'
    · exact ih _ _ i data h

lemma onlyLooks_probeSibling (relpath : Bytes) (sel : SelectedFile) (coding : ContentCoding)
    (w : ServeWorld) : OnlyLooks w (probeSibling cx relpath sel coding w).2 := by
  unfold probeSibling
  split
  · exact OnlyLooks.refl w
  · have hopen := onlyLooks_openBeneath w cx (relpath ++ compressEncExt coding)
    generalize w.openBeneath cx (relpath ++ compressEncExt coding) = out at hopen ⊢
    obtain ⟨r, w1⟩ := out
    cases r with
    | error e => exact hopen
    | ok compFd =>
      have hstat := hopen.trans (onlyLooks_fstat w1 compFd)
      dsimp only
      generalize w1.fstat compFd = out at hstat ⊢
      obtain ⟨st, w2⟩ := out
      cases st with
      | none => exact hstat.trans (onlyLooks_close w2 compFd)
      | some st =>
        dsimp only at hstat ⊢
        split
        · exact hstat.trans (onlyLooks_close w2 sel.fd)
        · exact hstat.trans (onlyLooks_close w2 compFd)

lemma onlyLooks_probeSiblings (relpath : Bytes) (accepted : CodingMask)
    (codings : List ContentCoding) : ∀ (sel : SelectedFile) (w : ServeWorld),
      OnlyLooks w (probeSiblings cx relpath accepted codings sel w).2 := by
  induction codings with
  | nil => exact fun _ w => OnlyLooks.refl w
  | cons coding rest ih =>
    intro sel w
    unfold probeSiblings
    split
    · exact (onlyLooks_probeSibling relpath sel coding w).trans (ih _ _)
    · exact ih sel w

/-! ## What is prepared -/

lemma appendPolicyLines_eq {bufsz : ℕ} {lines : List Bytes} : ∀ {used : ℕ},
    (appendPolicyLines bufsz used lines).2 = false → (appendPolicyLines bufsz used lines).1 = lines := by
  induction lines with
  | nil => exact fun _ => rfl
  | cons line rest ih =>
    intro used h
    unfold appendPolicyLines at h ⊢
    split
    · rename_i hfits
      rw [if_pos hfits] at h
      exact congrArg (line :: ·) (ih h)
    · rename_i hlong
      rw [if_neg hlong] at h
      cases h

lemma appendPolicyLines_length_lt {bufsz : ℕ} (lines : List Bytes) : ∀ {used : ℕ}, used < bufsz →
    used + (appendPolicyLines bufsz used lines).1.flatten.length < bufsz := by
  induction lines with
  | nil => exact fun h => by simpa [appendPolicyLines] using h
  | cons line rest ih =>
    intro used h
    unfold appendPolicyLines
    split
    · rename_i hfits
      have htail := ih hfits
      simp only [List.flatten_cons, List.length_append]
      omega
    · exact ih h

lemma ExtraHeaders.text_eq (x : ExtraHeaders) :
    x.text = { x with policy := [] }.text ++ x.policy.flatten := by
  simp [ExtraHeaders.text]

/-- The assembled headers fit their buffer. -/
lemma assembledFor_text_length_lt (relpath : Bytes) (sel : SelectedFile) :
    (assembledFor cx relpath sel).extra.text.length < validatorHdrsMax := by
  unfold assembledFor staticServeAssembleExtraHeaders
  dsimp only
  generalize hv : staticServeBuildValidatorHeaders validatorHdrsMax _ _ = validators
  generalize (cx.features.range && _) = ranges
  generalize Option.filter _ _ = coding
  generalize (coding.isNone && _ && _ && _) = vary
  have hvalid : validators.length ≤ 151 := by
    rw [← hv]
    apply validators_length_le
    · split
      · exact staticServeFormatEtag_length_lt sel.st
      · decide
    · split
      · exact staticServeFormatLastModified_length_lt sel.st
      · decide
  have hranges : acceptRangesLine.length = 22 := by decide
  have hvary : varyLine.length = 23 := by decide
  have hhead : (ExtraHeaders.text
      { validators := validators
        acceptRanges := ranges
        siblingCoding := coding
        vary := vary }).length < validatorHdrsMax := by
    have hcoding : ((coding.map fun c => contentEncodingLine c ++ varyLine).getD []).length ≤ 47 := by
      cases coding with
      | none => simp
      | some c => exact codingLines_length_le c
    simp only [ExtraHeaders.text, List.length_append, List.length_nil, List.flatten_nil,
      Option.map_none, Option.getD_none]
    have h1 : (if ranges then acceptRangesLine else []).length ≤ 22 := by
      split
      · exact hranges.le
      · simp
    have h2 : (if vary then varyLine else []).length ≤ 23 := by
      split
      · exact hvary.le
      · simp
    unfold validatorHdrsMax
    omega
  have hall := appendPolicyLines_length_lt (policyLines cx) hhead
  rw [ExtraHeaders.text_eq, List.length_append]
  exact hall

lemma assembledFor_policy {relpath : Bytes} {sel : SelectedFile}
    (h : (assembledFor cx relpath sel).overflow = false) :
    (assembledFor cx relpath sel).extra.policy = policyLines cx :=
  appendPolicyLines_eq h

/-- The response is prepared for the requested file or a sibling of it. -/
structure PreparedOn (cx : ServeCtx) (w w' : ServeWorld) (f : Prepared) (d : ℕ)
    (identity : ℕ × FileData) (i : ℕ) (data : FileData) : Prop where
  looks : OnlyLooks w w'
  root : w.proc.fds.lookup cx.docrootFd = some d
  path : requestedPath cx = some f.relpath
  identity : fileAt w.proc.tree d f.relpath = some identity
  chosen : Chosen cx f.relpath d w' f.sel i data
  prepared : f = preparedFor cx f.relpath { f.sel with coding := f.probed }
  probed : f.probed = f.sel.coding
  policy : f.extra.policy = policyLines cx
  fits : f.extra.text.length < validatorHdrsMax

lemma PreparedOn.data_eq {w w' : ServeWorld} {f : Prepared} {d i : ℕ} {identity : ℕ × FileData}
    {data : FileData} (h : PreparedOn cx w w' f d identity i data) (hcoding : f.sel.coding = none) :
    identity = (i, data) := by
  have hfile := h.chosen.openOn.fileAt
  rw [h.looks.tree, hcoding, codingExt, Option.map_none, Option.getD_none, List.append_nil,
    h.identity] at hfile
  exact Option.some.inj hfile

lemma onlyLooks_openRequested {relpath : Bytes} {fd : ℤ} {st : FileStat} {w w1 : ServeWorld}
    (hopen : openRequested cx w = (.ok (relpath, fd, st), w1)) : OnlyLooks w w1 := by
  obtain ⟨-, -, -, w0, hrecord, hstat⟩ := openRequested_ok hopen
  have hfirst := onlyLooks_openBeneath w cx relpath
  have hsecond := onlyLooks_fstat w0 fd
  rw [openOrRecord_some hrecord] at hfirst
  rw [hstat] at hsecond
  exact hfirst.trans hsecond

lemma chosen_of_opened {relpath : Bytes} {fd : ℤ} {st : FileStat} {w w1 : ServeWorld}
    (hopen : openRequested cx w = (.ok (relpath, fd, st), w1)) :
    ∃ d i data, w.proc.fds.lookup cx.docrootFd = some d ∧
      fileAt w.proc.tree d relpath = some (i, data) ∧
      Chosen cx relpath d w1 ⟨fd, st, none⟩ i data := by
  obtain ⟨-, -, hserve, w0, hrecord, hstat⟩ := openRequested_ok hopen
  have hbeneath := openOrRecord_some hrecord
  have hok : (staticServeOpenatBeneathNofollow cx.docrootFd relpath w.proc).1 = .ok fd :=
    congrArg Prod.fst hbeneath
  obtain ⟨d, -, hroot, -, -⟩ := docroot_found hok
  obtain ⟨i, data, hopenOn, hst⟩ := openOn_of_opened hroot hbeneath hstat hserve
  obtain ⟨hroot0, hne⟩ := lookup_openBeneath hroot hbeneath
  have hw1 : w1.proc = w0.proc := congrArg (fun out => out.2.proc) hstat.symm
  refine ⟨d, i, data, hroot, ?_, ?_, fun heq => hne (by rw [← heq]), ⟨?_, hopenOn.lookup⟩, hst, hserve⟩
  · have hfile := hopenOn.fileAt
    rwa [(onlyLooks_openRequested hopen).tree] at hfile
  · rw [hw1]
    exact hroot0
  · rw [codingExt, Option.map_none, Option.getD_none, List.append_nil]
    exact hopenOn.fileAt

lemma preparedOn_of_opened {relpath : Bytes} {fd : ℤ} {st : FileStat} {w w1 : ServeWorld}
    (hopen : openRequested cx w = (.ok (relpath, fd, st), w1))
    (hover : (assembledFor cx relpath (probed cx relpath fd st w1).1).overflow = false) :
    ∃ d identity i data, PreparedOn cx w (probed cx relpath fd st w1).2
      (preparedFor cx relpath (probed cx relpath fd st w1).1) d identity i data := by
  obtain ⟨-, hpath, -, -⟩ := openRequested_ok hopen
  obtain ⟨d, i0, data0, hroot, hfile, hchosen⟩ := chosen_of_opened hopen
  obtain ⟨i, data, hsel⟩ := probeSiblings_chosen
    (acceptedCodings cx (staticServeMimeTypeForPath relpath)) [.brotli, .gzip] _ w1 i0 data0 hchosen
  have hcoding := @assembledFor_siblingCoding cx relpath (probed cx relpath fd st w1).1
  refine ⟨d, (i0, data0), i, data, ?_, hroot, hpath, hfile, ?_, ?_, ?_, assembledFor_policy hover,
    assembledFor_text_length_lt _ _⟩
  · exact (onlyLooks_openRequested hopen).trans (onlyLooks_probeSiblings _ _ _ _ _)
  · show Chosen cx relpath d (probed cx relpath fd st w1).2
      { (probed cx relpath fd st w1).1 with
        coding := (assembledFor cx relpath (probed cx relpath fd st w1).1).extra.siblingCoding } i data
    rw [hcoding]
    exact hsel
  · rfl
  · exact hcoding.symm

lemma prepareFull_chosen {f : Prepared} {w w' : ServeWorld} (h : prepareFull cx w = (.ok f, w')) :
    ∃ d identity i data, PreparedOn cx w w' f d identity i data := by
  obtain ⟨relpath, fd, st, w1, hopen, hover, rfl, rfl, -, -⟩ := prepareFull_ok h
  exact preparedOn_of_opened hopen hover

end Lamseryn
