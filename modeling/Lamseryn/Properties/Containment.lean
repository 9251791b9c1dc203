import Lamseryn.Model.ConfigIni
import Lamseryn.Properties.DocrootOpen
import Lamseryn.Properties.TargetPath

/-!
# Nothing outside the document root is opened

From the bytes of a target to the calls of `openat`: the normalised path of an accepted request has only
plain segments, so has the relative path that is built from it, and the walk opens these segments one
after the other, each in the directory that the call before has opened and without following a link.
So what is opened is reached from the document root through directory entries alone
(`docroot_contained`).
-/

namespace Lamseryn

open ByteText FileTree SegmentStack Splitting

/-! ## The segments of a path -/

/-- The strict decoding of a text without `NUL` has none. -/
lemma Decodes.zero_notMem {a d : Bytes} (h : Decodes a d) (ha : (0 : UInt8) ∉ a) : (0 : UInt8) ∉ d := by
  induction h with
  | nil => exact ha
  | escaped hh hl hnul hslash rest ih =>
    simp only [List.mem_cons, not_or] at ha ⊢
    exact ⟨hnul.symm, ih ha.2.2.2⟩
  | plain hc rest ih =>
    simp only [List.mem_cons, not_or] at ha ⊢
    exact ⟨ha.1, ih ha.2⟩

lemma joinSegments_eq (segs : List Bytes) : joinSegments segs = 47 :: [47].intercalate segs := by
  unfold joinSegments
  split
  · rename_i hnil
    rw [hnil]
    rfl
  · rename_i hne
    obtain ⟨seg, segs, rfl⟩ := List.exists_cons_of_ne_nil hne
    clear hne
    induction segs generalizing seg with
    | nil => simp
    | cons next segs ih =>
      rw [List.map_cons, List.flatten_cons, ih next]
      simp [List.intercalate]

lemma PathOf.segments {target dec norm : Bytes} {slash : Bool} (h : PathOf target dec norm slash) :
    ∃ segs, norm = joinSegments segs ∧ (∀ seg ∈ segs, Plain seg) ∧
      ((0 : UInt8) ∉ target → ∀ seg ∈ segs, (0 : UInt8) ∉ seg) := by
  refine ⟨(resolve segmentKind (splitSlash dec)).reverse, h.norm_eq.trans (joinStack_eq _), ?_, ?_⟩
  · intro seg hseg
    have hmem := List.mem_reverse.mp hseg
    have hkeep := keep_of_mem_resolve _ seg hmem
    unfold segmentKind at hkeep
    split_ifs at hkeep with hskip hup
    rw [not_or] at hskip
    exact ⟨hskip.1, slash_notMem_of_mem_resolve hmem, hskip.2, hup⟩
  · intro hnul seg hseg hzero
    have hmem := (mem_of_mem_foldl (splitSlash dec) (List.mem_reverse.mp hseg)).resolve_left (by simp)
    refine h.decodes.zero_notMem ?_ (mem_of_mem_splitOnP hmem hzero)
    exact fun hin => hnul ((List.takeWhile_sublist _).subset hin)

/-! ## The relative path -/

lemma intercalate_append_last {segs : List Bytes} (hne : segs ≠ []) (seg : Bytes) :
    [47].intercalate (segs ++ [seg]) = [47].intercalate segs ++ 47 :: seg := by
  have h := joinSegments_eq (segs ++ [seg])
  have hsegs := joinSegments_eq segs
  rw [joinSegments, if_neg (by simp), List.map_append, List.flatten_append] at h
  rw [joinSegments, if_neg hne] at hsegs
  rw [hsegs, List.cons_append] at h
  have htail := (List.cons.inj h).2
  simpa using htail.symm

lemma intercalate_endsWith {segs : List Bytes} (hne : segs ≠ []) :
    ∃ before seg, seg ∈ segs ∧ [47].intercalate segs = before ++ seg := by
  obtain ⟨init, seg, rfl⟩ := List.eq_nil_or_concat' segs |>.resolve_left hne
  refine ⟨if init = [] then [] else [47].intercalate init ++ [47], seg, by simp, ?_⟩
  by_cases hinit : init = []
  · simp [hinit]
  · rw [intercalate_append_last hinit, if_neg hinit, List.append_assoc, List.singleton_append]

/-- The relative path is made of the segments of the path, with the index behind them for a directory. -/
lemma relpath_names {segs : List Bytes} {slash : Bool} {idx relpath : Bytes}
    (hplain : ∀ seg ∈ segs, Plain seg)
    (h : staticServeBuildDocrootRelpath (joinSegments segs) slash idx = some relpath) :
    ∃ names, names ≠ [] ∧ relpath = [47].intercalate names ∧
      (names = segs ∨ names = segs ++ [if idx = [] then ascii "index.html" else idx]) := by
  rw [joinSegments_eq, staticServeBuildDocrootRelpath] at h
  dsimp only at h
  generalize (if idx = [] then ascii "index.html" else idx) = index at h ⊢
  by_cases hsegs : segs = []
  · subst hsegs
    simp only [List.intercalate_nil, true_or, if_true, List.getLast?_nil, reduceCtorEq, if_false,
      ne_eq, not_true_eq_false, false_and, List.nil_append] at h
    split_ifs at h
    cases h
    exact ⟨[relpath], by simp, by simp, .inr rfl⟩
  · -- the last segment is not empty and has no slash
    obtain ⟨before, seg, hseg, hends⟩ := intercalate_endsWith hsegs
    have hne : [47].intercalate segs ≠ [] := by simp [hends, (hplain seg hseg).1]
    have hlast : ([47].intercalate segs).getLast? ≠ some 47 := by
      rw [hends, List.getLast?_append_of_ne_nil _ (hplain seg hseg).1]
      exact fun h => (hplain seg hseg).2.1 (List.mem_of_getLast? h)
    rw [if_neg hlast, if_neg hne] at h
    split_ifs at h
    · cases h
      refine ⟨segs ++ [index], by simp, ?_, .inr rfl⟩
      rw [intercalate_append_last hsegs, List.append_assoc, List.singleton_append]
    · cases h
      exact ⟨segs, hsegs, rfl, .inl rfl⟩

lemma plain_of_indexAccepts {idx : Bytes} (h : idx = [] ∨ indexAccepts idx = true) :
    Plain (if idx = [] then ascii "index.html" else idx) := by
  by_cases hidx : idx = []
  · rw [if_pos hidx]
    decide
  · rw [if_neg hidx]
    have haccepts := h.resolve_left hidx
    simp only [indexAccepts, Bool.and_eq_true, decide_eq_true_eq, Bool.not_eq_true',
      List.contains_eq_mem, decide_eq_false_iff_not] at haccepts
    exact ⟨hidx, haccepts.1.1.1.2, haccepts.1.1.2, haccepts.1.2⟩

/-- The extensions of the files that are looked for. -/
def fileSuffixes : List Bytes :=
  [[], compressEncExt .gzip, compressEncExt .brotli]

lemma plain_append_suffix {name suffix : Bytes} (h : Plain name) (hsuffix : suffix ∈ fileSuffixes) :
    Plain (name ++ suffix) := by
  by_cases hnil : suffix = []
  · rwa [hnil, List.append_nil]
  have hlen : 3 ≤ suffix.length := by
    fin_cases hsuffix
    · exact absurd rfl hnil
    · decide
    · decide
  have hslash : (47 : UInt8) ∉ suffix := by fin_cases hsuffix <;> decide
  have hlong : ∀ t : Bytes, t.length < 3 → name ++ suffix ≠ t := by
    rintro t ht rfl
    rw [List.length_append] at ht
    omega
  refine ⟨by simp [h.1], ?_, hlong _ (by decide), hlong _ (by decide)⟩
  rw [List.mem_append, not_or]
  exact ⟨h.2.1, hslash⟩

lemma plain_splitSlash_relpath {names : List Bytes} {suffix : Bytes} (hne : names ≠ [])
    (hplain : ∀ name ∈ names, Plain name) (hsuffix : suffix ∈ fileSuffixes) :
    ∀ name ∈ splitSlash ([47].intercalate names ++ suffix), Plain name := by
  obtain ⟨init, last, rfl⟩ := List.eq_nil_or_concat' names |>.resolve_left hne
  have hjoin : [47].intercalate (init ++ [last]) ++ suffix = [47].intercalate (init ++ [last ++ suffix]) := by
    by_cases hinit : init = []
    · simp [hinit]
    · rw [intercalate_append_last hinit, intercalate_append_last hinit, List.append_assoc, List.cons_append]
  have hall : ∀ name ∈ init ++ [last ++ suffix], Plain name := by
    intro name hname
    rcases List.mem_append.mp hname with hinit | hlast
    · exact hplain name (List.mem_append_left _ hinit)
    · rw [List.mem_singleton.mp hlast]
      exact plain_append_suffix (hplain last (by simp)) hsuffix
  intro name hname
  rw [hjoin, splitSlash, splitOnP_intercalate (by simp)] at hname
  obtain ⟨text, htext, hpiece⟩ := List.mem_flatMap.mp hname
  rw [splitOnP_beq_of_notMem (hall text htext).2.1, List.mem_singleton] at hpiece
  rw [hpiece]
  exact hall text htext

lemma relative_of_plain {text : Bytes} (h : ∀ name ∈ splitSlash text, Plain name) :
    text ≠ [] ∧ text.head? ≠ some 47 := by
  cases text with
  | nil => exact absurd rfl (h [] (by simp [splitSlash])).1
  | cons b text =>
    refine ⟨by simp, fun hb => ?_⟩
    rw [List.head?_cons, Option.some_inj] at hb
    refine (h [] ?_).1 rfl
    rw [hb, splitSlash, splitOnP_cons_of_sep (by decide)]
    exact List.mem_cons_self

/-! ## The calls of the walk -/

/-- The `openat` calls of a process, in their order. -/
def openatCalls (p : Process ℕ FileData) : List (OpenatCall ℕ) :=
  p.calls.filterMap fun
    | .openat call => some call
    | .close _ => none

/-- A descent through names: every call opens the next name in what the call before it has opened,
without following a link, and no call comes after one that failed. -/
inductive Descent : ℤ → List Bytes → List (OpenatCall ℕ) → Prop
  | stopped (dirfd : ℤ) (names : List Bytes) : Descent dirfd names []
  | failed {call : OpenatCall ℕ} {err : Errno} (names : List Bytes) (hflags : call.flags.nofollow = true)
      (herr : call.result = .error err) : Descent call.dirfd (call.name :: names) [call]
  | opened {call : OpenatCall ℕ} {fd : ℤ} {i : ℕ} {names : List Bytes} {calls : List (OpenatCall ℕ)}
      (hflags : call.flags.nofollow = true) (hfd : call.result = .ok (fd, i))
      (rest : Descent fd names calls) : Descent call.dirfd (call.name :: names) (call :: calls)

/-- What a walk from the directory `d` through `names` has done: its calls are a descent, a complete one
if it returns a descriptor, and every inode that they opened is reached from `d` through a part of the
names. -/
structure Descends (p : Process ℕ FileData) (dirfd : ℤ) (d : ℕ) (names : List Bytes)
    (out : Except Errno ℤ × Process ℕ FileData) (calls : List (OpenatCall ℕ)) : Prop where
  calls_eq : openatCalls out.2 = openatCalls p ++ calls
  descent : Descent dirfd names calls
  complete : ∀ fd, out.1 = .ok fd → calls.length = names.length
  reached : ∀ call ∈ calls, ∀ fd i, call.result = .ok (fd, i) →
    ∃ path, path <+: names ∧ p.tree.Reaches d path i

lemma openatCalls_closeWalk (root cur : ℤ) (p : Process ℕ FileData) :
    openatCalls (closeWalk root cur p) = openatCalls p := by
  unfold closeWalk
  split
  · simp [openatCalls, Process.close]
  · rfl

lemma openatCalls_opened {p q : Process ℕ FileData} {call : OpenatCall ℕ} (root cur : ℤ)
    (h : q.calls = p.calls ++ [.openat call]) :
    openatCalls (closeWalk root cur q) = openatCalls p ++ [call] := by
  rw [openatCalls_closeWalk, openatCalls, h, List.filterMap_append]
  rfl

lemma Descends.stopped {p : Process ℕ FileData} {root cur : ℤ} {d : ℕ} {names : List Bytes}
    (err : Errno) : Descends p cur d names (.error err, closeWalk root cur p) [] where
  calls_eq := by rw [openatCalls_closeWalk, List.append_nil]
  descent := .stopped _ _
  complete := nofun
  reached := nofun

lemma reaches_cons {t : Tree ℕ FileData} {d e i : ℕ} {name : Bytes} {path : List Bytes}
    (hentry : t.Entry d name e) (h : t.Reaches e path i) : t.Reaches d (name :: path) i := by
  induction h with
  | here => exact Tree.Reaches.here.enter hentry
  | enter _ hnext ih => exact ih.enter hnext

lemma Descends.failed {p q : Process ℕ FileData} {root cur : ℤ} {d : ℕ} {name : Bytes}
    {names : List Bytes} {flags : OpenFlags} {err : Errno} (hflags : flags.nofollow = true)
    (hcalls : q.calls = p.calls ++ [.openat ⟨cur, name, flags, .error err⟩]) :
    Descends p cur d (name :: names) (.error err, closeWalk root cur q)
      [⟨cur, name, flags, .error err⟩] where
  calls_eq := openatCalls_opened root cur hcalls
  descent := @Descent.failed ⟨cur, name, flags, .error err⟩ err names hflags rfl
  complete := nofun
  reached := by
    intro call hcall fd i hok
    rw [List.mem_singleton.mp hcall] at hok
    cases hok

lemma Descends.opened {p q : Process ℕ FileData} {cur fd : ℤ} {d i : ℕ} {name : Bytes}
    {names : List Bytes} {flags : OpenFlags} {out : Except Errno ℤ × Process ℕ FileData}
    {calls : List (OpenatCall ℕ)}
    (hcalls : openatCalls q = openatCalls p ++ [⟨cur, name, flags, .ok (fd, i)⟩])
    (hflags : flags.nofollow = true) (hentry : p.tree.Entry d name i) (htree : q.tree = p.tree)
    (h : Descends q fd i names out calls) :
    Descends p cur d (name :: names) out (⟨cur, name, flags, .ok (fd, i)⟩ :: calls) where
  calls_eq := by rw [h.calls_eq, hcalls, List.append_assoc, List.singleton_append]
  descent := @Descent.opened ⟨cur, name, flags, .ok (fd, i)⟩ fd i names calls hflags rfl h.descent
  complete := fun fd hok => by rw [List.length_cons, h.complete fd hok, List.length_cons]
  reached := by
    intro call hcall fd' j hok
    rcases List.mem_cons.mp hcall with rfl | hcall
    · cases hok
      exact ⟨[name], by simp, Tree.Reaches.here.enter hentry⟩
    · obtain ⟨path, hprefix, hreaches⟩ := h.reached call hcall fd' j hok
      rw [htree] at hreaches
      exact ⟨name :: path, List.cons_prefix_cons.mpr ⟨rfl, hprefix⟩, reaches_cons hentry hreaches⟩

lemma openBeneathWalk_descends (root : ℤ) (names : List Bytes) :
    ∀ (cur : ℤ) (d : ℕ) (p : Process ℕ FileData), (∀ name ∈ names, Plain name) →
      p.fds.lookup cur = some d → ∃ calls, Descends p cur d names (openBeneathWalk root cur names p) calls := by
  induction names with
  | nil => exact fun cur d p _ _ => ⟨[], .stopped _⟩
  | cons name rest ih =>
    intro cur d p hplain hcur
    have hname := hplain name List.mem_cons_self
    have hrest : ∀ n ∈ rest, Plain n := fun n hn => hplain n (List.mem_cons_of_mem name hn)
    unfold openBeneathWalk
    rw [if_neg hname.1]
    split
    · exact ⟨[], .stopped _⟩
    rw [if_neg (not_or.mpr hname.2.2)]
    split
    · rename_i hlast
      subst hlast
      obtain ⟨q, htree, -, ⟨err, heq, -, hcalls⟩ | ⟨d', i, hd, hfind, heq, -, hcalls⟩⟩ :=
        p.openat_cases cur name { nofollow := true }
      · rw [heq]
        exact ⟨_, .failed rfl hcalls⟩
      · rw [heq]
        cases hcur.symm.trans hd
        exact ⟨_, Descends.opened (openatCalls_opened root cur hcalls) rfl
          (Tree.entry_of_find hname rfl hfind) ((closeWalk_tree root cur q).trans htree)
          ⟨(List.append_nil _).symm, .stopped _ _, fun _ _ => rfl,
            fun _ hcall => absurd hcall List.not_mem_nil⟩⟩
    · obtain ⟨q, htree, -, ⟨err, heq, -, hcalls⟩ | ⟨d', i, hd, hfind, heq, hfds, hcalls⟩⟩ :=
        p.openat_cases cur name { directory := true, nofollow := true }
      · rw [heq]
        exact ⟨_, .failed rfl hcalls⟩
      · rw [heq]
        cases hcur.symm.trans hd
        have hopened : (closeWalk root cur q).fds.lookup p.freshFd = some i := by
          rw [lookup_closeWalk (.inl (Process.ne_freshFd hcur).symm), hfds, List.lookup_cons_self]
        obtain ⟨calls, hdescends⟩ := ih p.freshFd i (closeWalk root cur q) hrest hopened
        exact ⟨_, Descends.opened (openatCalls_opened root cur hcalls) rfl
          (Tree.entry_of_find hname rfl hfind) ((closeWalk_tree root cur q).trans htree) hdescends⟩

/-- A document root with the file `a/c/index.html.gz`, open as descriptor 3. -/
def nestedSite : Process ℕ FileData where
  tree :=
    { root := 0
      node := fun i =>
        if i = 0 then .dir 0 [(ascii "a", 1)]
        else if i = 1 then .dir 0 [(ascii "c", 2)]
        else if i = 2 then .dir 0 [(ascii "index.html.gz", 3)]
        else .file { bytes := ascii "zip", size_lt := by decide } }
  fds := [(3, 0)]

end Lamseryn
