import Lamseryn.Framework.SegmentStack
import Lamseryn.Framework.Splitting
import Lamseryn.Model.Url

/-!
# Path normalisation

`url_path_normalize_absolute` keeps its output and the starts of the segments in it, and cuts the output
back at `..`.  Here it is compared with the stack of segments that it stands for (`SegmentStack`): after
every round the output is the join of the stack, with the starts where the join puts them (`NormState.of`).
The output never outgrows the part of the path that was read, so a buffer of the length of the path
suffices.
-/

namespace Lamseryn

open ByteText SegmentStack Splitting

/-- What a segment of a path does: empty ones and `.` are skipped, `..` goes up. -/
def segmentKind (seg : Bytes) : Kind :=
  if seg = [] ∨ seg = ascii "." then .skip
  else if seg = ascii ".." then .up
  else .keep

/-- The text between the slashes of a path. -/
def splitSlash (path : Bytes) : List Bytes :=
  path.splitOnP (· == 47)

/-- The path of a stack of segments, which has its last segment first. -/
def joinStack : List Bytes → Bytes
  | [] => [47]
  | seg :: rest => (if rest = [] then [47] else joinStack rest ++ [47]) ++ seg

/-- Where the segments of a stack start in its path. -/
def stackStarts : List Bytes → List ℕ
  | [] => []
  | _ :: rest => (if rest = [] then 1 else (joinStack rest).length + 1) :: stackStarts rest

/-- The state of the loop for a stack. -/
def NormState.of (stack : List Bytes) : NormState :=
  ⟨joinStack stack, stackStarts stack⟩

/-- The room that segments take, each with the slash before it. -/
def spaceFor (segs : List Bytes) : ℕ :=
  (segs.map fun seg => seg.length + 1).sum

/-! ## Joined stacks -/

lemma joinStack_of_ne_nil {rest : List Bytes} (h : rest ≠ []) (seg : Bytes) :
    joinStack (seg :: rest) = joinStack rest ++ 47 :: seg := by
  simp [joinStack, h]

lemma joinStack_length {stack : List Bytes} (h : stack ≠ []) :
    (joinStack stack).length = spaceFor stack := by
  induction stack with
  | nil => exact absurd rfl h
  | cons seg rest ih =>
    by_cases hrest : rest = []
    · subst hrest
      simp [joinStack, spaceFor]
    · rw [joinStack_of_ne_nil hrest, List.length_append, ih hrest]
      simp only [List.length_cons, spaceFor, List.map_cons, List.sum_cons]
      omega

lemma one_lt_joinStack_length {stack : List Bytes} (hne : ∀ seg ∈ stack, seg ≠ []) :
    1 < (joinStack stack).length ↔ stack ≠ [] := by
  constructor
  · rintro hlen rfl
    exact absurd hlen (by decide)
  · intro hstack
    obtain ⟨seg, rest, rfl⟩ := List.exists_cons_of_ne_nil hstack
    have hseg : 0 < seg.length := List.length_pos_iff.mpr (hne seg List.mem_cons_self)
    rw [joinStack_length hstack]
    simp only [spaceFor, List.map_cons, List.sum_cons]
    omega

lemma length_stackStarts (stack : List Bytes) : (stackStarts stack).length = stack.length := by
  induction stack with
  | nil => rfl
  | cons seg rest ih => rw [stackStarts, List.length_cons, ih, List.length_cons]

/-! ## One round -/

lemma ne_nil_of_keep {seg : Bytes} (h : segmentKind seg = .keep) : seg ≠ [] := by
  rintro rfl
  simp [segmentKind] at h

variable {cap : ℕ} {stack : List Bytes} {seg : Bytes}

lemma normalizeSegment_dot (st : NormState) : normalizeSegment cap st (ascii ".") = .ok st := by
  unfold normalizeSegment
  rw [if_pos rfl]

/-- `..` cuts the output back to the path of the smaller stack. -/
lemma normalizeSegment_up (hne : ∀ s ∈ stack, s ≠ []) :
    normalizeSegment cap (.of stack) (ascii "..") = .ok (.of stack.tail) := by
  unfold normalizeSegment
  rw [if_neg (by decide), if_pos rfl]
  cases stack with
  | nil => rfl
  | cons s rest =>
    by_cases hrest : rest = []
    · subst hrest
      simp [NormState.of, stackStarts, joinStack]
    · have hlong : 1 < (joinStack rest).length :=
        (one_lt_joinStack_length fun t ht => hne t (List.mem_cons_of_mem s ht)).mpr hrest
      have hslash : (joinStack (s :: rest))[(joinStack rest).length]? = some 47 := by
        rw [joinStack_of_ne_nil hrest]
        simp
      simp only [NormState.of, stackStarts, if_neg hrest, Nat.add_sub_cancel, hslash]
      rw [if_pos ⟨by omega, trivial⟩, joinStack_of_ne_nil hrest, List.take_left, List.tail_cons]

/-- A segment is appended if there is room for it. -/
lemma normalizeSegment_keep (hne : ∀ s ∈ stack, s ≠ []) (hseg : segmentKind seg = .keep)
    (hroom : spaceFor stack + (seg.length + 1) ≤ cap) :
    normalizeSegment cap (.of stack) seg =
      if segCap ≤ stack.length then .error .invalid else .ok (.of (seg :: stack)) := by
  have hkinds : seg ≠ ascii "." ∧ seg ≠ ascii ".." := by
    constructor
    · rintro rfl
      exact absurd hseg (by decide)
    · rintro rfl
      exact absurd hseg (by decide)
  have hlong := one_lt_joinStack_length hne
  unfold NormState.of normalizeSegment
  rw [if_neg hkinds.1, if_neg hkinds.2]
  dsimp only
  rw [length_stackStarts]
  by_cases hstack : stack = []
  · subst hstack
    have hfits : ¬ cap < (joinStack []).length + seg.length := by
      simp only [spaceFor, List.map_nil, List.sum_nil] at hroom
      simp only [joinStack, List.length_singleton]
      omega
    simp only [joinStack, List.length_singleton, lt_irrefl, false_and, if_false, List.length_nil] at hfits ⊢
    rw [if_neg hfits]
    rfl
  · have hlen := joinStack_length hstack
    rw [if_neg (by omega), if_pos (hlong.mpr hstack)]
    have hfits : ¬ cap < (joinStack stack ++ [47]).length + seg.length := by
      rw [List.length_append, hlen, List.length_singleton]
      omega
    rw [if_neg hfits]
    simp [stackStarts, joinStack, hstack]

/-! ## The loop -/

/-- **The loop against the stack.**  With room for what is on the stack and for what is to come, the loop
fails exactly where the stack would get too high, and otherwise leaves the path of the stack. -/
lemma normalizeSegments_of (segs : List Bytes) : ∀ {stack : List Bytes},
    (∀ s ∈ segs, s ≠ []) → (∀ s ∈ stack, segmentKind s = .keep) → stack.length ≤ segCap →
    spaceFor stack + spaceFor segs ≤ cap →
    (Exceeds segmentKind segCap stack segs →
      normalizeSegments cap (.of stack) segs = .error .invalid) ∧
    (¬ Exceeds segmentKind segCap stack segs →
      normalizeSegments cap (.of stack) segs = .ok (.of (segs.foldl (push segmentKind) stack))) := by
  induction segs with
  | nil =>
    intro stack _ _ hlen _
    exact ⟨fun h => absurd h (not_exceeds_nil hlen), fun _ => rfl⟩
  | cons seg segs ih =>
    intro stack hsegs hkeep hlen hroom
    have hne : ∀ s ∈ stack, s ≠ [] := fun s hs => ne_nil_of_keep (hkeep s hs)
    have hseg : seg ≠ [] := hsegs seg List.mem_cons_self
    have hrest : ∀ s ∈ segs, s ≠ [] := fun s hs => hsegs s (List.mem_cons_of_mem seg hs)
    have hspace : spaceFor (seg :: segs) = (seg.length + 1) + spaceFor segs := by
      simp [spaceFor]
    rw [hspace] at hroom
    rw [exceeds_cons hlen, List.foldl_cons, normalizeSegments]
    rcases hkind : segmentKind seg with _ | _ | _
    · -- only `.` is skipped here
      have hdot : seg = ascii "." := by
        unfold segmentKind at hkind
        split_ifs at hkind with h
        exact h.resolve_left hseg
      rw [push_skip hkind, hdot, normalizeSegment_dot]
      exact ih hrest hkeep hlen (by omega)
    · have hup : seg = ascii ".." := by
        unfold segmentKind at hkind
        split_ifs at hkind with _ h
        exact h
      have htail : spaceFor stack.tail ≤ spaceFor stack := by
        cases stack with
        | nil => exact le_rfl
        | cons s rest => simp [spaceFor]
      rw [push_up hkind, hup, normalizeSegment_up hne]
      refine ih hrest (fun s hs => hkeep s (List.mem_of_mem_tail hs)) ?_ (by omega)
      rw [List.length_tail]
      omega
    · rw [push_keep hkind, normalizeSegment_keep hne hkind (by omega)]
      by_cases hfull : segCap ≤ stack.length
      · rw [if_pos hfull]
        refine ⟨fun _ => rfl, fun hno => absurd (exceeds_of_lt ?_ segs) hno⟩
        rw [List.length_cons]
        omega
      · rw [if_neg hfull]
        refine ih hrest ?_ (by rw [List.length_cons]; omega) ?_
        · intro s hs
          rcases List.mem_cons.mp hs with rfl | hs
          · exact hkind
          · exact hkeep s hs
        · have hpushed : spaceFor (seg :: stack) = (seg.length + 1) + spaceFor stack := by
            simp [spaceFor]
          omega

/-! ## The whole path -/

/-- The path of a list of segments: each of them behind a slash, or the root. -/
def joinSegments (segs : List Bytes) : Bytes :=
  if segs = [] then [47] else (segs.map fun seg => 47 :: seg).flatten

lemma joinStack_eq (stack : List Bytes) : joinStack stack = joinSegments stack.reverse := by
  unfold joinSegments
  induction stack with
  | nil => rfl
  | cons seg rest ih =>
    rw [if_neg (by simp), List.reverse_cons, List.map_append, List.flatten_append]
    by_cases hrest : rest = []
    · subst hrest
      simp [joinStack]
    · rw [if_neg (by simpa using hrest)] at ih
      rw [joinStack_of_ne_nil hrest, ih]
      simp

lemma visited_pathSegments {path : Bytes} (habs : path.head? = some 47) :
    visited segmentKind (pathSegments path) = visited segmentKind (splitSlash path) := by
  obtain ⟨rest, rfl⟩ := List.head?_eq_some_iff.mp habs
  have hempty : segmentKind [] = .skip := rfl
  unfold splitSlash
  rw [splitOnP_cons_of_sep (by rfl)]
  simp only [pathSegments, tokens, visited, List.drop_succ_cons, List.drop_zero, List.filter_filter,
    List.filter_cons, hempty, ne_eq, not_true_eq_false, decide_false, Bool.false_eq_true, if_false]
  refine List.filter_congr fun seg _ => ?_
  cases seg with
  | nil => simp [hempty]
  | cons b seg => simp

lemma exceeds_pathSegments {path : Bytes} (habs : path.head? = some 47) :
    Exceeds segmentKind segCap [] (pathSegments path) ↔
      Exceeds segmentKind segCap [] (splitSlash path) := by
  rw [← exceeds_visited (Nat.zero_le _), visited_pathSegments habs, exceeds_visited (Nat.zero_le _)]

lemma foldl_pathSegments {path : Bytes} (habs : path.head? = some 47) :
    (pathSegments path).foldl (push segmentKind) [] = resolve segmentKind (splitSlash path) := by
  rw [← foldl_visited, visited_pathSegments habs, foldl_visited]
  rfl

lemma spaceFor_filter_le (keep : Bytes → Bool) (segs : List Bytes) :
    spaceFor (segs.filter keep) ≤ spaceFor segs := by
  unfold spaceFor
  exact (List.filter_sublist.map _).sum_le_sum fun _ _ => Nat.zero_le _

lemma spaceFor_pathSegments_le {path : Bytes} (habs : path.head? = some 47) :
    spaceFor (pathSegments path) ≤ path.length := by
  obtain ⟨rest, rfl⟩ := List.head?_eq_some_iff.mp habs
  have hall : spaceFor (rest.splitOnP (· == 47)) = rest.length + 1 := sum_length_splitOnP rest
  have hle := spaceFor_filter_le (fun t => !t.isEmpty) (rest.splitOnP (· == 47))
  rw [hall] at hle
  exact hle

lemma spaceFor_foldl_le (segs : List Bytes) : ∀ stack : List Bytes,
    spaceFor (segs.foldl (push segmentKind) stack) ≤ spaceFor stack + spaceFor segs := by
  induction segs with
  | nil => exact fun stack => Nat.le_add_right _ _
  | cons seg segs ih =>
    intro stack
    have hspace : spaceFor (seg :: segs) = (seg.length + 1) + spaceFor segs := by
      simp [spaceFor]
    have hpush : spaceFor (push segmentKind stack seg) ≤ spaceFor stack + (seg.length + 1) := by
      rcases hkind : segmentKind seg with _ | _ | _
      · rw [push_skip hkind]
        omega
      · rw [push_up hkind]
        cases stack with
        | nil => exact Nat.zero_le _
        | cons s rest =>
          simp only [spaceFor, List.tail_cons, List.map_cons, List.sum_cons]
          omega
      · rw [push_keep hkind]
        simp only [spaceFor, List.map_cons, List.sum_cons]
        omega
    rw [List.foldl_cons, hspace]
    exact (ih _).trans (by omega)

lemma joinStack_resolve_length_le {path : Bytes} (habs : path.head? = some 47) :
    (joinStack (resolve segmentKind (splitSlash path))).length ≤ path.length := by
  by_cases hstack : resolve segmentKind (splitSlash path) = []
  · rw [hstack]
    obtain ⟨rest, rfl⟩ := List.head?_eq_some_iff.mp habs
    exact Nat.le_add_left 1 rest.length
  · rw [joinStack_length hstack, ← foldl_pathSegments habs]
    have hspace := spaceFor_foldl_le (pathSegments path) []
    have hpath := spaceFor_pathSegments_le habs
    have hnil : spaceFor [] = 0 := rfl
    omega

/-- **What normalisation does**, given room for the path. -/
lemma normalize_cases {path : Bytes} {outCap : ℕ} (habs : path.head? = some 47)
    (hcap : path.length ≤ outCap) :
    (Exceeds segmentKind segCap [] (splitSlash path) →
      urlPathNormalizeAbsolute path outCap = .error .invalid) ∧
    (¬ Exceeds segmentKind segCap [] (splitSlash path) →
      urlPathNormalizeAbsolute path outCap =
        .ok (joinStack (resolve segmentKind (splitSlash path)), path.getLast? == some 47)) := by
  have hpos : outCap ≠ 0 := by
    rintro rfl
    rw [List.eq_nil_of_length_eq_zero (Nat.le_zero.mp hcap)] at habs
    cases habs
  have hspace : spaceFor [] + spaceFor (pathSegments path) ≤ outCap := by
    have hpath := spaceFor_pathSegments_le habs
    have hnil : spaceFor [] = 0 := rfl
    omega
  have hne : ∀ s ∈ pathSegments path, s ≠ [] := by
    intro s hs
    simpa using (List.mem_filter.mp hs).2
  have hloop := @normalizeSegments_of outCap (pathSegments path) [] hne (by simp) (Nat.zero_le _) hspace
  rw [exceeds_pathSegments habs, foldl_pathSegments habs] at hloop
  unfold urlPathNormalizeAbsolute
  rw [if_neg hpos, if_neg (not_not.mpr habs)]
  constructor
  · intro hover
    rw [show NormState.mk [47] [] = .of [] from rfl, hloop.1 hover]
  · intro hfits
    rw [show NormState.mk [47] [] = .of [] from rfl, hloop.2 hfits]
    rfl

/-! ## Normalising again -/

lemma splitSlash_joinStack {stack : List Bytes} (hne : stack ≠ []) (hslash : ∀ s ∈ stack, 47 ∉ s) :
    splitSlash (joinStack stack) = [] :: stack.reverse := by
  have hpiece : ∀ s ∈ stack, ∀ b ∈ s, (b == 47) = false := by
    intro s hs b hb
    exact beq_eq_false_iff_ne.mpr fun heq => hslash s hs (heq ▸ hb)
  unfold splitSlash
  induction stack with
  | nil => exact absurd rfl hne
  | cons seg rest ih =>
    have hseg := hpiece seg List.mem_cons_self
    by_cases hrest : rest = []
    · subst hrest
      show List.splitOnP _ (47 :: seg) = [[], seg]
      rw [splitOnP_cons_of_sep (by rfl), List.splitOnP_eq_singleton hseg]
    · rw [joinStack_of_ne_nil hrest, splitOnP_append_last (by rfl) _ hseg,
        ih hrest (fun s hs => hslash s (List.mem_cons_of_mem seg hs))
          (fun s hs => hpiece s (List.mem_cons_of_mem seg hs)), List.reverse_cons, List.cons_append]

/-- A stack of segments to be kept is left by its own path, and at no point of it is the stack higher. -/
lemma resolve_joinStack {stack : List Bytes} (hkeep : ∀ s ∈ stack, segmentKind s = .keep)
    (hslash : ∀ s ∈ stack, 47 ∉ s) (hlen : stack.length ≤ segCap) :
    resolve segmentKind (splitSlash (joinStack stack)) = stack ∧
      ¬ Exceeds segmentKind segCap [] (splitSlash (joinStack stack)) := by
  have hempty : segmentKind [] = .skip := rfl
  by_cases hne : stack = []
  · subst hne
    refine ⟨by decide, ?_⟩
    have hsplit : splitSlash (joinStack []) = [[], []] := by decide
    rw [hsplit, exceeds_cons (Nat.zero_le _), push_skip hempty, exceeds_cons (Nat.zero_le _),
      push_skip hempty]
    exact not_exceeds_nil (Nat.zero_le _)
  · have hrev : ∀ s ∈ stack.reverse, segmentKind s = .keep :=
      fun s hs => hkeep s (List.mem_reverse.mp hs)
    rw [splitSlash_joinStack hne hslash]
    constructor
    · rw [resolve, List.foldl_cons, push_skip hempty, foldl_of_keep hrev, List.reverse_reverse,
        List.append_nil]
    · rw [exceeds_cons (Nat.zero_le _), push_skip hempty]
      exact not_exceeds_of_keep hrev (by rwa [List.length_reverse])

lemma head?_joinStack (stack : List Bytes) : (joinStack stack).head? = some 47 := by
  induction stack with
  | nil => rfl
  | cons seg rest ih =>
    by_cases hrest : rest = []
    · subst hrest
      rfl
    · rw [joinStack_of_ne_nil hrest, List.head?_append, ih]
      rfl

lemma slash_notMem_of_mem_resolve {path seg : Bytes}
    (h : seg ∈ resolve segmentKind (splitSlash path)) : 47 ∉ seg := by
  intro hslash
  have hmem := (mem_of_mem_foldl (splitSlash path) h).resolve_left (by simp)
  exact absurd (not_sep_of_mem_splitOnP path seg hmem 47 hslash) (by decide)

lemma normalize_joinStack_resolve {path : Bytes} {cap : ℕ}
    (hfits : ¬ Exceeds segmentKind segCap [] (splitSlash path))
    (hcap : (joinStack (resolve segmentKind (splitSlash path))).length ≤ cap) :
    ∃ slash, urlPathNormalizeAbsolute (joinStack (resolve segmentKind (splitSlash path))) cap =
      .ok (joinStack (resolve segmentKind (splitSlash path)), slash) := by
  obtain ⟨hsame, hbound⟩ := resolve_joinStack (keep_of_mem_resolve (splitSlash path))
    (fun _ hs => slash_notMem_of_mem_resolve hs) (length_foldl_le hfits)
  have hagain := (normalize_cases (head?_joinStack _) hcap).2 hbound
  rw [hsame] at hagain
  exact ⟨_, hagain⟩

/-- **Path normalisation.**  With room for the path, an absolute path is refused exactly if the stack of
its segments gets higher than the array of segment starts; otherwise it is replaced by the join of that
stack, which is not longer and is left as it is by another normalisation. -/
theorem pathNormalisation_eq (path : Bytes) (outCap : ℕ) (habs : path.head? = some 47)
    (hcap : path.length ≤ outCap) :
    (urlPathNormalizeAbsolute path outCap = .error .invalid ↔
      Exceeds segmentKind segCap [] (splitSlash path)) ∧
    urlPathNormalizeAbsolute path outCap ≠ .error .noSpace ∧
    ∀ out endsWithSlash, urlPathNormalizeAbsolute path outCap = .ok (out, endsWithSlash) →
      out = joinSegments (resolve segmentKind (splitSlash path)).reverse ∧
      out.length ≤ path.length ∧ (endsWithSlash = true ↔ path.getLast? = some 47) ∧
      ∀ cap, out.length ≤ cap → ∃ slash, urlPathNormalizeAbsolute out cap = .ok (out, slash) := by
  obtain ⟨hover, hfits⟩ := normalize_cases habs hcap
  by_cases hexceeds : Exceeds segmentKind segCap [] (splitSlash path)
  · rw [hover hexceeds]
    exact ⟨iff_of_true rfl hexceeds, by simp, by simp⟩
  · rw [hfits hexceeds]
    refine ⟨iff_of_false (by simp) hexceeds, by simp, ?_⟩
    intro out slash hout
    cases hout
    refine ⟨joinStack_eq _, joinStack_resolve_length_le habs, beq_iff_eq, fun cap hroom => ?_⟩
    exact normalize_joinStack_resolve hexceeds hroom

/-- A path with all kinds of segments. -/
theorem pathNormalisation_eq_mixed :
    urlPathNormalizeAbsolute (ascii "/a//./b/../c/") 13 = .ok (ascii "/a/c", true) ∧
      (urlPathNormalizeAbsolute (ascii "/a//./b/../c/") 13 = .error .invalid ↔
        Exceeds segmentKind segCap [] (splitSlash (ascii "/a//./b/../c/"))) :=
  ⟨by decide,
    (pathNormalisation_eq (ascii "/a//./b/../c/") 13 (by decide) (by decide)).1⟩

end Lamseryn
