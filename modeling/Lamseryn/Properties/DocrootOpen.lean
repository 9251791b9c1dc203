import Lamseryn.Model.StaticServe

/-!
# Opening a file beneath the document root

What `static_serve_openat_beneath_nofollow` does to the descriptors of the process and which file it
opens, whatever fails on the way.

The walk owes at most one descriptor at a time: the directory it stands in, unless that is the root it
was given, which it must not close (`openBeneathWalk_owes`).  What it opens is found in the tree by the
same walk over inodes (`beneathWalk`), and every descriptor that was open before stays as it is
(`openBeneathWalk_frame`).  Without a failure from outside the tree it opens whatever is found
(`openBeneathWalk_calm`).
-/

namespace Lamseryn

open ByteText FileTree

/-! ## What the walk owes -/

lemma erase_second (a b : ℤ) (l : List ℤ) : (a :: b :: l).erase b = a :: l := by
  by_cases h : a = b
  · rw [h, List.erase_cons_head]
  · rw [List.erase_cons_tail (by simpa using h), List.erase_cons_head]

/-- The directory that the walk stands in and has to close. -/
def walkDir (root cur : ℤ) : List ℤ :=
  if cur ≠ root then [cur] else []

lemma owes_closeWalk {p q : Process ℕ FileData} {root cur : ℤ} {owed : List ℤ}
    (h : Owes p q (walkDir root cur ++ owed)) : Owes p (closeWalk root cur q) owed := by
  unfold closeWalk
  unfold walkDir at h
  split
  · rename_i hne
    rw [if_pos hne] at h
    have hclosed := h.close List.mem_cons_self
    rwa [List.singleton_append, List.erase_cons_head] at hclosed
  · rename_i heq
    rwa [if_neg heq] at h

lemma owes_closeWalk_after {p q : Process ℕ FileData} {root cur fd : ℤ} {owed : List ℤ}
    (h : Owes p q (fd :: (walkDir root cur ++ owed))) :
    Owes p (closeWalk root cur q) (fd :: owed) := by
  unfold closeWalk
  unfold walkDir at h
  split
  · rename_i hne
    rw [if_pos hne] at h
    have hclosed := h.close (List.mem_cons_of_mem fd List.mem_cons_self)
    rwa [List.singleton_append, erase_second] at hclosed
  · rename_i heq
    rwa [if_neg heq] at h

lemma lookup_closeWalk {p : Process ℕ FileData} {root cur fd : ℤ} (h : fd ≠ cur ∨ cur = root) :
    (closeWalk root cur p).fds.lookup fd = p.fds.lookup fd := by
  unfold closeWalk
  split
  · rename_i hne
    exact Process.lookup_close_of_ne (h.resolve_right hne)
  · rfl

/-- The walk settles its directory and owes what it has opened. -/
lemma openBeneathWalk_owes {p0 : Process ℕ FileData} {owed : List ℤ} (root : ℤ) (segs : List Bytes) :
    ∀ (cur : ℤ) (p : Process ℕ FileData), Owes p0 p (walkDir root cur ++ owed) →
      (cur ≠ root → (p.fds.lookup root).isSome) →
        Owes p0 (openBeneathWalk root cur segs p).2
          (openedFd (openBeneathWalk root cur segs p).1 ++ owed) := by
  induction segs with
  | nil =>
    intro cur p h _
    exact owes_closeWalk h
  | cons seg rest ih =>
    intro cur p h hroot
    unfold openBeneathWalk
    split
    · exact ih cur p h hroot
    split
    · exact owes_closeWalk h
    split
    · exact owes_closeWalk h
    split
    · have hopen := h.openat cur seg { nofollow := true }
      generalize p.openat cur seg { nofollow := true } = out at hopen
      obtain ⟨r, q⟩ := out
      cases r with
      | error e => exact owes_closeWalk hopen
      | ok fd => exact owes_closeWalk_after hopen
    · have hopen := h.openat cur seg { directory := true, nofollow := true }
      obtain ⟨q, -, -, ⟨e, heq, -, -⟩ | ⟨d, i, hd, -, heq, hq, -⟩⟩ :=
        p.openat_cases cur seg { directory := true, nofollow := true }
      · rw [heq] at hopen ⊢
        exact owes_closeWalk hopen
      · rw [heq] at hopen ⊢
        -- the root is open, so the new descriptor has another number
        have hopened : (p.fds.lookup root).isSome := by
          by_cases hcur : cur = root
          · rw [← hcur, hd]
            rfl
          · exact hroot hcur
        obtain ⟨j, hj⟩ := Option.isSome_iff_exists.mp hopened
        have hfresh : p.freshFd ≠ root := (Process.ne_freshFd hj).symm
        apply ih
        · rw [walkDir, if_pos hfresh]
          exact owes_closeWalk_after hopen
        · intro _
          have hne : root ≠ cur ∨ cur = root := (ne_or_eq cur root).imp Ne.symm id
          rw [lookup_closeWalk hne, Process.lookup_of_opened hq hj]
          rfl

/-- `static_serve_openat_beneath_nofollow` owes what it has opened. -/
lemma staticServeOpenatBeneathNofollow_owes {p0 p : Process ℕ FileData} {owed : List ℤ}
    (h : Owes p0 p owed) (root : ℤ) (relpath : Bytes) :
    Owes p0 (staticServeOpenatBeneathNofollow root relpath p).2
      (openedFd (staticServeOpenatBeneathNofollow root relpath p).1 ++ owed) := by
  unfold staticServeOpenatBeneathNofollow
  split
  · exact h
  split
  · exact h
  · apply openBeneathWalk_owes
    · simpa [walkDir] using h
    · intro hne
      exact absurd rfl hne

/-! ## What the walk finds -/

/-- The walk over the inodes of a tree. -/
def beneathWalk (t : Tree ℕ FileData) : ℕ → List Bytes → Except Errno ℕ
  | _, [] => .error .inval
  | d, seg :: rest =>
    if seg = [] then beneathWalk t d rest
    else if nameMax < seg.length then .error .nametoolong
    else if seg = ascii "." ∨ seg = ascii ".." then .error .acces
    else if rest = [] then t.find d seg { nofollow := true }
    else
      match t.find d seg { directory := true, nofollow := true } with
      | .error e => .error e
      | .ok i => beneathWalk t i rest

/-- The file that a path beneath the document root names. -/
def docrootFind (t : Tree ℕ FileData) (d : ℕ) (relpath : Bytes) : Except Errno ℕ :=
  if relpath = [] then .error (.other 0)
  else if relpath.head? = some 47 then .error .inval
  else beneathWalk t d (relpath.splitOnP (· == 47))

lemma lookup_closeWalk_opened {q : Process ℕ FileData} {fds : List (ℤ × ℕ)} {root cur fd : ℤ} {i : ℕ}
    (hq : q.fds = (fd, i) :: fds) (hne : fd ≠ cur) :
    (closeWalk root cur q).fds.lookup fd = some i := by
  rw [lookup_closeWalk (.inl hne), hq, List.lookup_cons, beq_self_eq_true]

lemma closeWalk_tree (root cur : ℤ) (p : Process ℕ FileData) :
    (closeWalk root cur p).tree = p.tree := by
  unfold closeWalk
  split <;> rfl

lemma closeWalk_faults (root cur : ℤ) (p : Process ℕ FileData) :
    (closeWalk root cur p).faults = p.faults := by
  unfold closeWalk
  split <;> rfl

lemma openBeneathWalk_tree (root : ℤ) (segs : List Bytes) :
    ∀ (cur : ℤ) (p : Process ℕ FileData), (openBeneathWalk root cur segs p).2.tree = p.tree := by
  induction segs with
  | nil => exact fun cur p => closeWalk_tree root cur p
  | cons seg rest ih =>
    intro cur p
    unfold openBeneathWalk
    split
    · exact ih cur p
    split
    · exact closeWalk_tree root cur p
    split
    · exact closeWalk_tree root cur p
    split
    · obtain ⟨q, htree, -, ⟨e, heq, -, -⟩ | ⟨d, i, -, -, heq, -, -⟩⟩ :=
        p.openat_cases cur seg { nofollow := true }
      · rw [heq, ← htree]
        exact closeWalk_tree root cur q
      · rw [heq, ← htree]
        exact closeWalk_tree root cur q
    · obtain ⟨q, htree, -, ⟨e, heq, -, -⟩ | ⟨d, i, -, -, heq, -, -⟩⟩ :=
        p.openat_cases cur seg { directory := true, nofollow := true }
      · rw [heq, ← htree]
        exact closeWalk_tree root cur q
      · rw [heq, ← htree, ← closeWalk_tree root cur q]
        exact ih _ _

/-- What a walk opens is a new descriptor of the file that it finds, and the descriptors that were
open stay, the directory of the walk apart. -/
lemma openBeneathWalk_found (root : ℤ) (segs : List Bytes) :
    ∀ (cur : ℤ) (p : Process ℕ FileData) (d : ℕ), p.fds.lookup cur = some d →
      (∀ fd, (openBeneathWalk root cur segs p).1 = .ok fd →
        ∃ i, beneathWalk p.tree d segs = .ok i ∧
          (openBeneathWalk root cur segs p).2.fds.lookup fd = some i) ∧
      ∀ fd i, p.fds.lookup fd = some i → (fd ≠ cur ∨ cur = root) →
        (openBeneathWalk root cur segs p).2.fds.lookup fd = some i ∧
          (openBeneathWalk root cur segs p).1 ≠ .ok fd := by
  induction segs with
  | nil =>
    intro cur p d _
    refine ⟨?_, ?_⟩
    · intro fd h
      cases h
    · intro fd i h hne
      refine ⟨?_, by simp [openBeneathWalk]⟩
      rw [openBeneathWalk, lookup_closeWalk hne]
      exact h
  | cons seg rest ih =>
    intro cur p d hd
    have hstop : ∀ (e : Errno) (fd : ℤ) (i : ℕ), p.fds.lookup fd = some i → (fd ≠ cur ∨ cur = root) →
        (closeWalk root cur p).fds.lookup fd = some i ∧
          (Except.error e : Except Errno ℤ) ≠ .ok fd := by
      intro e fd i h hne
      refine ⟨?_, by simp⟩
      rw [lookup_closeWalk hne]
      exact h
    unfold openBeneathWalk beneathWalk
    split
    · exact ih cur p d hd
    split
    · refine ⟨?_, hstop _⟩
      intro fd h
      cases h
    split
    · refine ⟨?_, hstop _⟩
      intro fd h
      cases h
    -- from here on a name is opened in the directory of the walk
    have hcur : p.freshFd ≠ cur := (Process.ne_freshFd hd).symm
    split
    · obtain ⟨q, -, -, ⟨e, heq, hq, -⟩ | ⟨d', i, hd', hi, heq, hq, -⟩⟩ :=
        p.openat_cases cur seg { nofollow := true }
      · rw [heq]
        refine ⟨?_, ?_⟩
        · intro fd h
          cases h
        · intro fd j h hne
          refine ⟨?_, by simp⟩
          rw [lookup_closeWalk hne, hq]
          exact h
      · rw [heq]
        rw [hd] at hd'
        cases hd'
        refine ⟨?_, ?_⟩
        · intro fd h
          cases h
          exact ⟨i, hi, lookup_closeWalk_opened hq hcur⟩
        · intro fd j h hne
          refine ⟨?_, ?_⟩
          · rw [lookup_closeWalk hne]
            exact Process.lookup_of_opened hq h
          · intro hsame
            cases hsame
            exact Process.ne_freshFd h rfl
    · obtain ⟨q, htree, -, ⟨e, heq, hq, -⟩ | ⟨d', i, hd', hi, heq, hq, -⟩⟩ :=
        p.openat_cases cur seg { directory := true, nofollow := true }
      · rw [heq]
        refine ⟨?_, ?_⟩
        · intro fd h
          cases h
        · intro fd j h hne
          refine ⟨?_, by simp⟩
          rw [lookup_closeWalk hne, hq]
          exact h
      · rw [heq]
        rw [hd] at hd'
        cases hd'
        obtain ⟨hfound, hframe⟩ := ih p.freshFd (closeWalk root cur q) i
          (lookup_closeWalk_opened hq hcur)
        rw [closeWalk_tree, htree] at hfound
        refine ⟨?_, ?_⟩
        · intro fd h
          rw [hi]
          exact hfound fd h
        · intro fd j h hne
          apply hframe fd j
          · rw [lookup_closeWalk hne]
            exact Process.lookup_of_opened hq h
          · exact .inl (Process.ne_freshFd h)

/-- Without a failure from outside the tree, the walk fails because of the tree. -/
lemma openBeneathWalk_calm (root : ℤ) (segs : List Bytes) :
    ∀ (cur : ℤ) (p : Process ℕ FileData) (d : ℕ), p.faults = [] → p.fds.lookup cur = some d →
      (openBeneathWalk root cur segs p).2.faults = [] ∧
        ∀ e, (openBeneathWalk root cur segs p).1 = .error e →
          beneathWalk p.tree d segs = .error e := by
  induction segs with
  | nil =>
    intro cur p d hfaults _
    refine ⟨(closeWalk_faults root cur p).trans hfaults, ?_⟩
    intro e h
    cases h
    rfl
  | cons seg rest ih =>
    intro cur p d hfaults hd
    have hclosed := (closeWalk_faults root cur p).trans hfaults
    unfold openBeneathWalk beneathWalk
    split
    · exact ih cur p d hfaults hd
    split
    · refine ⟨hclosed, ?_⟩
      intro e h
      cases h
      rfl
    split
    · refine ⟨hclosed, ?_⟩
      intro e h
      cases h
      rfl
    have htail : p.faults.tail = [] := by rw [hfaults, List.tail_nil]
    split
    · have herror := @Process.find_eq_error _ _ p cur d seg { nofollow := true }
      obtain ⟨q, -, hq, ⟨e, heq, -, -⟩ | ⟨d', i, -, -, heq, -, -⟩⟩ :=
        p.openat_cases cur seg { nofollow := true }
      · rw [heq] at herror ⊢
        refine ⟨(closeWalk_faults root cur q).trans (hq.trans htail), ?_⟩
        intro e' h
        exact herror hfaults hd h
      · rw [heq]
        refine ⟨(closeWalk_faults root cur q).trans (hq.trans htail), ?_⟩
        intro e' h
        cases h
    · have herror := @Process.find_eq_error _ _ p cur d seg { directory := true, nofollow := true }
      obtain ⟨q, htree, hq, ⟨e, heq, -, -⟩ | ⟨d', i, hd', hi, heq, hfds, -⟩⟩ :=
        p.openat_cases cur seg { directory := true, nofollow := true }
      · rw [heq] at herror ⊢
        refine ⟨(closeWalk_faults root cur q).trans (hq.trans htail), ?_⟩
        intro e' h
        cases h
        rw [herror hfaults hd rfl]
      · rw [heq]
        rw [hd] at hd'
        cases hd'
        have hcur : p.freshFd ≠ cur := (Process.ne_freshFd hd).symm
        obtain ⟨hcalm, hfail⟩ := ih p.freshFd (closeWalk root cur q) i
          ((closeWalk_faults root cur q).trans (hq.trans htail))
          (lookup_closeWalk_opened hfds hcur)
        rw [closeWalk_tree, htree] at hfail
        rw [hi]
        exact ⟨hcalm, hfail⟩

lemma openBeneathWalk_badf (root : ℤ) (segs : List Bytes) (p : Process ℕ FileData)
    (hroot : p.fds.lookup root = none) :
    (openBeneathWalk root root segs p).2.fds = p.fds ∧
      ∀ fd, (openBeneathWalk root root segs p).1 ≠ .ok fd := by
  have hkeep : ∀ q : Process ℕ FileData, closeWalk root root q = q := by
    intro q
    simp [closeWalk]
  have hopen : ∀ (name : Bytes) (flags : OpenFlags), ∃ e q,
      p.openat root name flags = (.error e, q) ∧ q.fds = p.fds := by
    intro name flags
    obtain ⟨q, -, -, ⟨e, heq, hq, -⟩ | ⟨d, i, hd, -, -, -, -⟩⟩ := p.openat_cases root name flags
    · exact ⟨e, q, heq, hq⟩
    · rw [hroot] at hd
      cases hd
  induction segs with
  | nil => simp [openBeneathWalk, hkeep]
  | cons seg rest ih =>
    unfold openBeneathWalk
    split
    · exact ih
    split
    · simp [hkeep]
    split
    · simp [hkeep]
    split
    · obtain ⟨e, q, heq, hq⟩ := hopen seg { nofollow := true }
      simp [heq, hkeep, hq]
    · obtain ⟨e, q, heq, hq⟩ := hopen seg { directory := true, nofollow := true }
      simp [heq, hkeep, hq]

/-! ## Files beneath the document root -/

lemma docroot_found {root fd : ℤ} {relpath : Bytes} {p : Process ℕ FileData}
    (h : (staticServeOpenatBeneathNofollow root relpath p).1 = .ok fd) :
    ∃ d i, p.fds.lookup root = some d ∧ docrootFind p.tree d relpath = .ok i ∧
      (staticServeOpenatBeneathNofollow root relpath p).2.fds.lookup fd = some i := by
  unfold staticServeOpenatBeneathNofollow at h ⊢
  split at h
  · cases h
  · rename_i hargs
    rw [if_neg hargs]
    split at h
    · cases h
    · rename_i hslash
      rw [if_neg hslash]
      cases hroot : p.fds.lookup root with
      | none => exact absurd h ((openBeneathWalk_badf root _ p hroot).2 fd)
      | some d =>
        obtain ⟨i, hfind, hfd⟩ := (openBeneathWalk_found root _ root p d hroot).1 fd h
        refine ⟨d, i, rfl, ?_, hfd⟩
        rw [docrootFind, if_neg (not_or.mp hargs).2, if_neg hslash]
        exact hfind

lemma docroot_frame {root fd : ℤ} {i : ℕ} (relpath : Bytes) {p : Process ℕ FileData}
    (h : p.fds.lookup fd = some i) :
    (staticServeOpenatBeneathNofollow root relpath p).2.fds.lookup fd = some i ∧
      (staticServeOpenatBeneathNofollow root relpath p).1 ≠ .ok fd := by
  unfold staticServeOpenatBeneathNofollow
  split
  · exact ⟨h, by simp⟩
  split
  · exact ⟨h, by simp⟩
  · cases hroot : p.fds.lookup root with
    | some d => exact (openBeneathWalk_found root _ root p d hroot).2 fd i h (.inr rfl)
    | none =>
      obtain ⟨hfds, hfail⟩ := openBeneathWalk_badf root (relpath.splitOnP (· == 47)) p hroot
      rw [hfds]
      exact ⟨h, hfail fd⟩

end Lamseryn
