import Lamseryn.Framework.Bytes

/-!
# File trees and descriptors

A file system as a graph of inodes, the resolution of path names in it, and a process that opens
files by name relative to a descriptor.

Resolution follows `path_resolution(7)`: an absolute name starts at the root, `.` stays, `..` goes
to the parent, and a symbolic link is replaced by its target, at most `maxSymlinks` times, unless it
is the last component of a name that is opened without following links.  A name can therefore leave
the directory it starts from.  `Reaches` is the smaller relation that it cannot leave: the inodes
found by descending through directory entries.  For a plain name the two agree (`openBeneath`).

A `Process` keeps its open descriptors and the record of its `openat` calls.  Any call may fail for a
reason outside the tree, such as a permission or a limit; these failures are the list `faults`, in
the order of the calls, and after its end no call fails for such a reason.
-/

namespace FileTree

open ByteText

variable {ι α : Type*}

/-- The error codes that a caller tells apart. -/
inductive Errno where
  | acces
  | perm
  | loop
  | noent
  | notdir
  | badf
  | nametoolong
  | inval
  | other (code : ℕ)
  deriving DecidableEq, Repr

/-- What an inode is. -/
inductive Node (ι α : Type*) where
  | dir (parent : ι) (entries : List (Bytes × ι))
  | file (content : α)
  | symlink (target : Bytes)
  | special

/-- A file system. -/
structure Tree (ι α : Type*) where
  root : ι
  node : ι → Node ι α

def Node.isDir : Node ι α → Bool
  | .dir _ _ => true
  | _ => false

/-! ## Path resolution -/

/-- The number of symbolic links that a resolution follows. -/
def maxSymlinks : ℕ := 40

/-- The components of a path name. -/
def components (path : Bytes) : List Bytes :=
  tokens (· == 47) path

/-- A name in a directory. -/
def Tree.lookup (t : Tree ι α) (d : ι) (name : Bytes) : Except Errno ι :=
  match t.node d with
  | .dir parent entries =>
    if name = ascii "." then .ok d
    else if name = ascii ".." then .ok parent
    else
      match entries.lookup name with
      | some i => .ok i
      | none => .error .noent
  | _ => .error .notdir

/-- Walk through components, with `follow` for what remains after a symbolic link. -/
def Tree.resolveWith (t : Tree ι α) (nofollow : Bool) (follow : ι → List Bytes → Except Errno ι) :
    ι → List Bytes → Except Errno ι
  | d, [] => .ok d
  | d, name :: rest =>
    match t.lookup d name with
    | .error e => .error e
    | .ok i =>
      match t.node i with
      | .symlink target =>
        if rest = [] ∧ nofollow then .error .loop
        else
          follow (if target.head? = some 47 then t.root else d) (components target ++ rest)
      | _ => t.resolveWith nofollow follow i rest

/-- Walk through components, following a bounded number of symbolic links. -/
def Tree.resolve (t : Tree ι α) (nofollow : Bool) : ℕ → ι → List Bytes → Except Errno ι
  | 0 => t.resolveWith nofollow fun _ _ => .error .loop
  | links + 1 => t.resolveWith nofollow (t.resolve nofollow links)

/-- `O_DIRECTORY` and `O_NOFOLLOW`. -/
structure OpenFlags where
  directory : Bool := false
  nofollow : Bool := false
  deriving DecidableEq, Repr

/-- The inode that opening a name finds from a directory. -/
def Tree.find (t : Tree ι α) (d : ι) (path : Bytes) (flags : OpenFlags) : Except Errno ι :=
  if path = [] then .error .noent
  else
    match t.resolve flags.nofollow maxSymlinks
        (if path.head? = some 47 then t.root else d) (components path) with
    | .error e => .error e
    | .ok i => if flags.directory ∧ !(t.node i).isDir then .error .notdir else .ok i

/-! ## Descending -/

/-- An entry of a directory. -/
def Tree.Entry (t : Tree ι α) (d : ι) (name : Bytes) (i : ι) : Prop :=
  ∃ parent entries, t.node d = .dir parent entries ∧ entries.lookup name = some i

/-- Descending from `d` through the entries `names` leads to `i`. -/
inductive Tree.Reaches (t : Tree ι α) (d : ι) : List Bytes → ι → Prop
  | here : Reaches t d [] d
  | enter {names : List Bytes} {e i : ι} {name : Bytes} (h : Reaches t d names e)
      (hentry : t.Entry e name i) : Reaches t d (names ++ [name]) i

/-- A name of one component that is an entry of its own: not empty, without a slash, and neither `.`
nor `..`. -/
def Plain (name : Bytes) : Prop :=
  name ≠ [] ∧ 47 ∉ name ∧ name ≠ ascii "." ∧ name ≠ ascii ".."

instance (name : Bytes) : Decidable (Plain name) :=
  inferInstanceAs (Decidable (_ ∧ _))

lemma components_of_plain {name : Bytes} (h : Plain name) : components name = [name] := by
  have hsplit : name.splitOnP (· == 47) = [name] := by
    apply List.splitOnP_eq_singleton
    intro b hb
    have hne : b ≠ 47 := fun hb47 => h.2.1 (hb47 ▸ hb)
    simpa using hne
  have hne : name.isEmpty = false := by simpa using h.1
  simp [components, tokens, hsplit, hne]

lemma Tree.entry_of_lookup {t : Tree ι α} {d i : ι} {name : Bytes} (hname : Plain name)
    (h : t.lookup d name = .ok i) : t.Entry d name i := by
  unfold Tree.lookup at h
  split at h
  · rename_i parent entries hdir
    rw [if_neg hname.2.2.1, if_neg hname.2.2.2] at h
    split at h
    · rename_i j hj
      cases h
      exact ⟨parent, entries, hdir, hj⟩
    · cases h
  · cases h

/-- Opening a plain name without following links finds an entry of the directory, and no symbolic
link. -/
lemma Tree.entry_of_find {t : Tree ι α} {d i : ι} {name : Bytes} {flags : OpenFlags}
    (hname : Plain name) (hflags : flags.nofollow = true) (h : t.find d name flags = .ok i) :
    t.Entry d name i := by
  have hhead : name.head? ≠ some 47 := fun hhead => hname.2.1 (List.mem_of_mem_head? hhead)
  unfold Tree.find at h
  rw [if_neg hname.1, if_neg hhead, components_of_plain hname, hflags] at h
  simp only [maxSymlinks, Tree.resolve, Tree.resolveWith] at h
  cases hlook : t.lookup d name with
  | error e => simp [hlook] at h
  | ok j =>
    have hentry : t.Entry d name j := Tree.entry_of_lookup hname hlook
    rw [hlook] at h
    cases hnode : t.node j with
    | symlink target => simp [hnode] at h
    | _ =>
      simp only [hnode] at h
      split at h
      · cases h
      · cases h
        exact hentry

/-! ## Processes -/

/-- An `openat` call: its arguments and the descriptor and inode it opened, or its error. -/
structure OpenatCall (ι : Type*) where
  dirfd : ℤ
  name : Bytes
  flags : OpenFlags
  result : Except Errno (ℤ × ι)

/-- A call that opens or closes a descriptor. -/
inductive FdCall (ι : Type*) where
  | openat (call : OpenatCall ι)
  | close (fd : ℤ)

/-- A process as far as its files are concerned. -/
structure Process (ι α : Type*) where
  tree : Tree ι α
  fds : List (ℤ × ι) := []
  faults : List (Option Errno) := []
  calls : List (FdCall ι) := []

/-- The inode of an open descriptor with what it is. -/
def Process.nodeAt (p : Process ι α) (fd : ℤ) : Option (ι × Node ι α) :=
  (p.fds.lookup fd).map fun i => (i, p.tree.node i)

/-- The lowest number that is not an open descriptor. -/
def Process.freshFd (p : Process ι α) : ℤ :=
  match (List.range p.fds.length).find? fun n : ℕ => (p.fds.lookup (n : ℤ)).isNone with
  | some n => n
  | none => p.fds.length

/-- What an `openat` call finds: a failure from outside the tree, or an inode of it. -/
def Process.findAt (p : Process ι α) (dirfd : ℤ) (name : Bytes) (flags : OpenFlags) :
    Except Errno ι :=
  match p.faults.head?.join with
  | some e => .error e
  | none =>
    match p.fds.lookup dirfd with
    | none => .error .badf
    | some d => p.tree.find d name flags

/-- `openat`. -/
def Process.openat (p : Process ι α) (dirfd : ℤ) (name : Bytes) (flags : OpenFlags) :
    Except Errno ℤ × Process ι α :=
  match p.findAt dirfd name flags with
  | .error e =>
    (.error e,
      { p with
        faults := p.faults.tail
        calls := p.calls ++ [.openat ⟨dirfd, name, flags, .error e⟩] })
  | .ok i =>
    (.ok p.freshFd,
      { p with
        fds := (p.freshFd, i) :: p.fds
        faults := p.faults.tail
        calls := p.calls ++ [.openat ⟨dirfd, name, flags, .ok (p.freshFd, i)⟩] })

/-- `close`. -/
def Process.close (p : Process ι α) (fd : ℤ) : Process ι α :=
  { p with
    fds := p.fds.filter fun e => e.1 != fd
    calls := p.calls ++ [.close fd] }

lemma Process.lookup_freshFd (p : Process ι α) : p.fds.lookup p.freshFd = none := by
  unfold Process.freshFd
  split
  · rename_i n hfind
    simpa using List.find?_some hfind
  · rename_i hfind
    -- all smaller numbers are in use, so there is no descriptor left for this one
    by_contra hused
    have hkeys : ∀ n ∈ List.range (p.fds.length + 1), (n : ℤ) ∈ p.fds.map Prod.fst := by
      intro n hn
      have hlook : (p.fds.lookup (n : ℤ)).isSome = true := by
        rcases Nat.lt_succ_iff_lt_or_eq.mp (List.mem_range.mp hn) with hlt | rfl
        · have := List.find?_eq_none.mp hfind n (List.mem_range.mpr hlt)
          simpa using this
        · simpa [Option.isSome_iff_ne_none] using hused
      obtain ⟨i, hi⟩ := Option.isSome_iff_exists.mp hlook
      obtain ⟨before, after, hsplit, -⟩ := List.lookup_eq_some_iff.mp hi
      have hmem : ((n : ℤ), i) ∈ p.fds := by simp [hsplit]
      exact List.mem_map.mpr ⟨(n, i), hmem, rfl⟩
    have hsub : (List.range (p.fds.length + 1)).map (fun n : ℕ => (n : ℤ)) ⊆ p.fds.map Prod.fst := by
      intro z hz
      obtain ⟨n, hn, rfl⟩ := List.mem_map.mp hz
      exact hkeys n hn
    have hnodup : ((List.range (p.fds.length + 1)).map (fun n : ℕ => (n : ℤ))).Nodup :=
      List.nodup_range.map Nat.cast_injective
    have hlen := (hnodup.subperm hsub).length_le
    simp at hlen

/-- `openat` fails and opens nothing, or it opens a descriptor that was free, on an inode that is
found from an open directory. -/
lemma Process.openat_cases (p : Process ι α) (dirfd : ℤ) (name : Bytes) (flags : OpenFlags) :
    ∃ q, q.tree = p.tree ∧ q.faults = p.faults.tail ∧
      ((∃ e, p.openat dirfd name flags = (.error e, q) ∧ q.fds = p.fds ∧
          q.calls = p.calls ++ [.openat ⟨dirfd, name, flags, .error e⟩]) ∨
        ∃ d i, p.fds.lookup dirfd = some d ∧ p.tree.find d name flags = .ok i ∧
          p.openat dirfd name flags = (.ok p.freshFd, q) ∧ q.fds = (p.freshFd, i) :: p.fds ∧
          q.calls = p.calls ++ [.openat ⟨dirfd, name, flags, .ok (p.freshFd, i)⟩]) := by
  unfold Process.openat
  cases hfound : p.findAt dirfd name flags with
  | error e =>
    refine ⟨_, ?_, ?_, .inl ⟨e, rfl, ?_, ?_⟩⟩ <;> rfl
  | ok i =>
    unfold Process.findAt at hfound
    split at hfound
    · cases hfound
    · split at hfound
      · cases hfound
      · rename_i d hd
        refine ⟨_, ?_, ?_, .inr ⟨d, i, hd, hfound, rfl, ?_, ?_⟩⟩ <;> rfl

/-- Without a failure from outside the tree, `openat` fails because of the tree. -/
lemma Process.find_eq_error {p : Process ι α} {dirfd : ℤ} {d : ι} {name : Bytes} {flags : OpenFlags}
    {e : Errno} (hfaults : p.faults = []) (hd : p.fds.lookup dirfd = some d)
    (h : (p.openat dirfd name flags).1 = .error e) : p.tree.find d name flags = .error e := by
  have hfound : p.findAt dirfd name flags = p.tree.find d name flags := by
    simp [Process.findAt, hfaults, hd]
  unfold Process.openat at h
  rw [hfound] at h
  split at h
  · rename_i e' he
    cases h
    exact he
  · cases h

lemma Process.ne_freshFd {p : Process ι α} {fd : ℤ} {i : ι} (h : p.fds.lookup fd = some i) :
    fd ≠ p.freshFd := by
  intro heq
  rw [heq, p.lookup_freshFd] at h
  cases h

lemma Process.lookup_of_opened {p q : Process ι α} {fd : ℤ} {i j : ι}
    (hq : q.fds = (p.freshFd, j) :: p.fds) (h : p.fds.lookup fd = some i) :
    q.fds.lookup fd = some i := by
  have hne : (fd == p.freshFd) = false := beq_false_of_ne (Process.ne_freshFd h)
  rw [hq, List.lookup_cons, hne]
  exact h

lemma Process.lookup_close_of_ne {p : Process ι α} {fd fd' : ℤ} (h : fd' ≠ fd) :
    (p.close fd).fds.lookup fd' = p.fds.lookup fd' := by
  show (p.fds.filter fun e => e.1 != fd).lookup fd' = p.fds.lookup fd'
  induction p.fds with
  | nil => rfl
  | cons e fds ih =>
    by_cases he : e.1 = fd
    · have hne : (fd' == e.1) = false := by simpa [he] using h
      rw [List.filter_cons_of_neg (by simp [he]), ih, List.lookup_cons, hne]
    · rw [List.filter_cons_of_pos (by simp [he]), List.lookup_cons, List.lookup_cons, ih]

/-! ## The descriptors that a sequence of calls owes -/

/-- The descriptors that are still open after a call, of those that the calls so far have opened.  A
call that closes another descriptor has no result. -/
def owedAfter (owed : List ℤ) : FdCall ι → Option (List ℤ)
  | .openat call =>
    match call.result with
    | .ok (fd, _) => some (fd :: owed)
    | .error _ => some owed
  | .close fd => if fd ∈ owed then some (owed.erase fd) else none

/-- The descriptors that a sequence of calls has opened and not closed.  There is a result only if
every call to `close` is for a descriptor that is open at that time and was opened by an earlier call
of the sequence, so that each descriptor outside the result was closed exactly once. -/
def owedBy (owed : List ℤ) (calls : List (FdCall ι)) : Option (List ℤ) :=
  calls.foldlM owedAfter owed

/-- From `p` to `q`, the process has opened the descriptors `owed` and has closed every other one that
it has opened. -/
def Owes (p q : Process ι α) (owed : List ℤ) : Prop :=
  ∃ calls, q.calls = p.calls ++ calls ∧ owedBy [] calls = some owed

lemma Owes.refl (p : Process ι α) : Owes p p [] :=
  ⟨[], by simp, rfl⟩

lemma Owes.snoc {p q r : Process ι α} {owed owed' : List ℤ} {call : FdCall ι}
    (h : Owes p q owed) (hcalls : r.calls = q.calls ++ [call]) (hcall : owedAfter owed call = some owed') :
    Owes p r owed' := by
  obtain ⟨calls, heq, howed⟩ := h
  refine ⟨calls ++ [call], by rw [hcalls, heq, List.append_assoc], ?_⟩
  unfold owedBy at howed ⊢
  rw [List.foldlM_append, howed]
  simp [hcall]

lemma Owes.close {p q : Process ι α} {fd : ℤ} {owed : List ℤ} (h : Owes p q owed) (hfd : fd ∈ owed) :
    Owes p (q.close fd) (owed.erase fd) :=
  h.snoc rfl (by simp [owedAfter, hfd])

/-- The descriptor of a successful open. -/
def openedFd : Except Errno ℤ → List ℤ
  | .ok fd => [fd]
  | .error _ => []

lemma Owes.openat {p q : Process ι α} {owed : List ℤ} (h : Owes p q owed) (dirfd : ℤ) (name : Bytes)
    (flags : OpenFlags) :
    Owes p (q.openat dirfd name flags).2 (openedFd (q.openat dirfd name flags).1 ++ owed) := by
  obtain ⟨r, -, -, ⟨e, heq, -, hcalls⟩ | ⟨d, i, -, -, heq, -, hcalls⟩⟩ :=
    q.openat_cases dirfd name flags
  · rw [heq]
    exact h.snoc hcalls rfl
  · rw [heq]
    exact h.snoc hcalls rfl

lemma Owes.unique {p q : Process ι α} {owed owed' : List ℤ} (h : Owes p q owed) (h' : Owes p q owed') :
    owed = owed' := by
  obtain ⟨calls, heq, howed⟩ := h
  obtain ⟨calls', heq', howed'⟩ := h'
  rw [heq] at heq'
  rw [List.append_cancel_left heq'] at howed
  exact Option.some.inj (howed.symm.trans howed')

end FileTree
