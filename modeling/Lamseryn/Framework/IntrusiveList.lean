import Mathlib

/-!
# Intrusive doubly linked lists

Nodes carry their own links to the previous and the next node.  `Chain L p l` says that the links of the
nodes of `l` run through `l` in order, with `p` as the node before the first one; `IsList L head l` is a
whole list with its head pointer.

The two changes are `pushFront` and `unlink`.  Each of them changes only the links of a node and of its
neighbours, so a chain that contains none of these is left alone (`Chain.congr`).

`Buckets` is a family of such lists in which every node says whether it is in a list and in which one.  A
bucket may be taken out as a whole and its nodes visited one after the other while other nodes are put into
lists; `Wf S B r` says that the lists are `B` and that `r` are the nodes still to be visited.
-/

namespace IntrusiveList

variable {ι : Type*}

/-- The links of all nodes. -/
@[ext]
structure Links (ι : Type*) where
  prev : ι → Option ι
  next : ι → Option ι

/-- The links run through `l`, which follows the node `p`. -/
def Chain (L : Links ι) : Option ι → List ι → Prop
  | _, [] => True
  | p, a :: l => L.prev a = p ∧ L.next a = l.head? ∧ Chain L (some a) l

/-- A list with its head pointer. -/
def IsList (L : Links ι) (head : Option ι) (l : List ι) : Prop :=
  head = l.head? ∧ Chain L none l

lemma Chain.congr {L L' : Links ι} {p : Option ι} {l : List ι} (h : Chain L p l)
    (hprev : ∀ a ∈ l, L'.prev a = L.prev a) (hnext : ∀ a ∈ l, L'.next a = L.next a) :
    Chain L' p l := by
  induction l generalizing p with
  | nil => trivial
  | cons a l ih =>
    obtain ⟨hp, hn, hrest⟩ := h
    refine ⟨?_, ?_, ih hrest (fun b hb => hprev b (by simp [hb])) fun b hb => hnext b (by simp [hb])⟩
    · rw [hprev a (by simp), hp]
    · rw [hnext a (by simp), hn]

lemma Chain.right {L : Links ι} {p : Option ι} {l₁ l₂ : List ι} {a : ι}
    (h : Chain L p (l₁ ++ a :: l₂)) :
    L.prev a = (l₁.getLast?).or p ∧ L.next a = l₂.head? ∧ Chain L (some a) l₂ := by
  induction l₁ generalizing p with
  | nil => exact ⟨h.1, h.2.1, h.2.2⟩
  | cons b l₁ ih =>
    obtain ⟨hprev, hnext, hrest⟩ := ih h.2.2
    refine ⟨?_, hnext, hrest⟩
    rw [hprev]
    cases l₁ with
    | nil => rfl
    | cons c l₁ => simp [List.getLast?_eq_some_getLast]

/-- A node whose links are changed when `c` is taken out of a list is in that list. -/
lemma Chain.neighbour_mem {L : Links ι} {l : List ι} {a c : ι} (h : Chain L none l) (hc : c ∈ l)
    (ha : some a = L.prev c ∨ some a = L.next c) : a ∈ l := by
  obtain ⟨l₁, l₂, rfl⟩ := List.append_of_mem hc
  obtain ⟨hprev, hnext, -⟩ := h.right
  rcases ha with ha | ha
  · rw [hprev, Option.or_none] at ha
    simp [List.mem_of_mem_getLast? ha.symm]
  · rw [hnext] at ha
    simp [List.mem_of_mem_head? ha.symm]

/-! ## Buckets -/

/-- Lists indexed by `κ`; a node says whether it is in one of them, and in which. -/
@[ext]
structure Buckets (κ ι : Type*) where
  head : κ → Option ι
  links : Links ι
  active : ι → Bool
  slot : ι → κ

namespace Buckets

variable {κ : Type*}

/-- The lists are `B`; `r` are the nodes of a list that was taken out which were not cleared yet. -/
structure Wf (S : Buckets κ ι) (B : κ → List ι) (r : List ι) : Prop where
  isList : ∀ k, IsList S.links (S.head k) (B k)
  nodup : ∀ k, (B k).Nodup
  mem_iff : ∀ k a, a ∈ B k ↔ S.active a = true ∧ S.slot a = k ∧ a ∉ r
  rest_nodup : r.Nodup
  rest_chain : ∃ p, Chain S.links p r
  rest_active : ∀ a ∈ r, S.active a = true

variable {S : Buckets κ ι} {B : κ → List ι} {r : List ι} {k : κ} {c : ι}

lemma Wf.not_mem_of_inactive (h : S.Wf B r) (hc : S.active c = false) (k : κ) : c ∉ B k := by
  intro hmem
  have := ((h.mem_iff k c).mp hmem).1
  simp [hc] at this

lemma Wf.not_mem_rest_of_inactive (h : S.Wf B r) (hc : S.active c = false) : c ∉ r := by
  intro hmem
  have := h.rest_active c hmem
  simp [hc] at this

lemma Wf.disjoint (h : S.Wf B r) {k k' : κ} (hne : k' ≠ k) {a : ι} (ha : a ∈ B k') : a ∉ B k := by
  intro ha'
  exact hne (((h.mem_iff k' a).mp ha).2.1.symm.trans ((h.mem_iff k a).mp ha').2.1)

lemma Wf.head_mem (h : S.Wf B r) {a : ι} (ha : a ∈ S.head k) : a ∈ B k := by
  rw [(h.isList k).1] at ha
  exact List.mem_of_mem_head? ha

lemma Wf.congr (h : S.Wf B r) {S' : Buckets κ ι} (hhead : S'.head = S.head)
    (hactive : S'.active = S.active)
    (hsame : ∀ a, S.active a = true → S'.links.prev a = S.links.prev a ∧
      S'.links.next a = S.links.next a ∧ S'.slot a = S.slot a) : S'.Wf B r where
  isList k := by
    have hB : ∀ a ∈ B k, S.active a = true := fun a ha => ((h.mem_iff k a).mp ha).1
    rw [IsList, hhead]
    exact ⟨(h.isList k).1, (h.isList k).2.congr (fun a ha => (hsame a (hB a ha)).1) fun a ha =>
      (hsame a (hB a ha)).2.1⟩
  nodup := h.nodup
  mem_iff k a := by
    rw [h.mem_iff, hactive]
    refine and_congr_right fun ha => ?_
    rw [(hsame a ha).2.2]
  rest_nodup := h.rest_nodup
  rest_chain := by
    obtain ⟨p, hp⟩ := h.rest_chain
    exact ⟨p, hp.congr (fun a ha => (hsame a (h.rest_active a ha)).1) fun a ha =>
      (hsame a (h.rest_active a ha)).2.1⟩
  rest_active a ha := by
    rw [hactive]
    exact h.rest_active a ha

lemma Wf.next_eq (h : S.Wf B (c :: r)) : S.links.next c = r.head? := by
  obtain ⟨p, hp⟩ := h.rest_chain
  exact hp.2.1

end Buckets

/-! ## Changes of one list -/

variable [DecidableEq ι]

/-- Put `c` before the list with the given head. -/
def pushFront (L : Links ι) (head : Option ι) (c : ι) : Links ι where
  prev a := if some a = head then some c else if a = c then none else L.prev a
  next a := if a = c then head else L.next a

/-- Take `c` out of its list. -/
def unlink (L : Links ι) (c : ι) : Links ι where
  prev a := if a = c then none else if some a = L.next c then L.prev c else L.prev a
  next a := if a = c then none else if some a = L.prev c then L.next c else L.next a

/-- The head pointer after `c` has been taken out of a list. -/
def unlinkHead (L : Links ι) (head : Option ι) (c : ι) : Option ι :=
  if L.prev c = none then L.next c else head

lemma isList_pushFront {L : Links ι} {head : Option ι} {l : List ι} {c : ι} (h : IsList L head l)
    (hl : l.Nodup) (hc : c ∉ l) : IsList (pushFront L head c) (some c) (c :: l) := by
  obtain ⟨rfl, hchain⟩ := h
  refine ⟨rfl, ?_, ?_, ?_⟩
  · have hne : some c ≠ l.head? := fun hhead => hc (List.mem_of_mem_head? hhead.symm)
    simp [pushFront, hne]
  · simp [pushFront]
  · cases l with
    | nil => trivial
    | cons a l =>
      have hac : a ≠ c := fun hac => hc (by simp [hac])
      refine ⟨by simp [pushFront], by simpa [pushFront, hac] using hchain.2.1, ?_⟩
      -- the rest of the list keeps its links
      apply hchain.2.2.congr
      · intro b hb
        have hbc : b ≠ c := fun hbc => hc (by simp [← hbc, hb])
        have hba : b ≠ a := fun hba => (List.nodup_cons.mp hl).1 (hba ▸ hb)
        simp [pushFront, hbc, hba]
      · intro b hb
        have hbc : b ≠ c := fun hbc => hc (by simp [← hbc, hb])
        simp [pushFront, hbc]

/-- A chain in which `unlink` skips a node. -/
lemma Chain.unlink {L : Links ι} {p : Option ι} {l₁ l₂ : List ι} {c : ι}
    (h : Chain L p (l₁ ++ c :: l₂)) (hl : (l₁ ++ c :: l₂).Nodup)
    (hp : ∀ a ∈ p, a ∉ l₁ ++ c :: l₂) : Chain (unlink L c) p (l₁ ++ l₂) := by
  obtain ⟨hprev, hnext, hright⟩ := h.right
  have hc₂ : c ∉ l₂ := (List.nodup_cons.mp (List.nodup_append.mp hl).2.1).1
  induction l₁ generalizing p with
  | nil =>
    cases l₂ with
    | nil => trivial
    | cons a l₂ =>
      have hac : a ≠ c := fun hac => hc₂ (by simp [hac])
      have hprevc : L.prev c = p := by simpa using hprev
      have hpa : some a ≠ p := fun hpa => hp a hpa.symm (by simp)
      refine ⟨?_, ?_, ?_⟩
      · simp [IntrusiveList.unlink, hac, hnext, hprevc]
      · simpa [IntrusiveList.unlink, hac, hprevc, hpa] using hright.2.1
      · apply hright.2.2.congr
        · intro b hb
          have hbc : b ≠ c := fun hbc => hc₂ (by simp [← hbc, hb])
          have hba : b ≠ a := by
            rintro rfl
            have := (List.nodup_append.mp hl).2.1
            simp [hb] at this
          simp [IntrusiveList.unlink, hbc, hnext, hba]
        · intro b hb
          have hbc : b ≠ c := fun hbc => hc₂ (by simp [← hbc, hb])
          have hbp : some b ≠ p := fun hbp => hp b hbp.symm (by simp [hb])
          simp [IntrusiveList.unlink, hbc, hprevc, hbp]
  | cons b l₁ ih =>
    obtain ⟨hb, htail⟩ := List.nodup_cons.mp hl
    have hbc : b ≠ c := fun hbc => hb (by simp [hbc])
    have hprevc : L.prev c = (l₁.getLast?).or (some b) := h.2.2.right.1
    refine ⟨?_, ?_, ih h.2.2 htail ?_ hprevc⟩
    · have hbnext : some b ≠ l₂.head? := fun hhead =>
        hb (by simp [List.mem_of_mem_head? hhead.symm])
      simpa [IntrusiveList.unlink, hbc, hnext, hbnext] using h.1
    · cases l₁ with
      | nil => simp [IntrusiveList.unlink, hbc, hprevc, hnext]
      | cons a l₁ =>
        -- the node before `c` is a later one
        have hlast : some b ≠ L.prev c := by
          rw [hprevc, List.getLast?_eq_some_getLast (List.cons_ne_nil a l₁)]
          intro heq
          apply hb
          rw [Option.some.inj heq]
          exact List.mem_append_left _ (List.getLast_mem _)
        simpa [IntrusiveList.unlink, hbc, hlast] using h.2.1
    · rintro a ha
      cases ha
      exact hb

lemma isList_unlink {L : Links ι} {head : Option ι} {l₁ l₂ : List ι} {c : ι}
    (h : IsList L head (l₁ ++ c :: l₂)) (hl : (l₁ ++ c :: l₂).Nodup) :
    IsList (unlink L c) (unlinkHead L head c) (l₁ ++ l₂) := by
  obtain ⟨rfl, hchain⟩ := h
  obtain ⟨hprev, hnext, -⟩ := hchain.right
  refine ⟨?_, hchain.unlink hl (by simp)⟩
  cases l₁ with
  | nil => simp_all [unlinkHead]
  | cons b l₁ =>
    simp [unlinkHead, hprev, List.getLast?_eq_some_getLast (List.cons_ne_nil b l₁)]

/-- A list that shares no node with the list of `c` keeps its links when `c` is taken out. -/
lemma IsList.unlink_of_disjoint {L : Links ι} {head head' : Option ι} {l l' : List ι} {c : ι}
    (h : IsList L head l) (h' : IsList L head' l') (hc : c ∈ l) (hdisj : ∀ a ∈ l', a ∉ l) :
    IsList (unlink L c) head' l' := by
  refine ⟨h'.1, h'.2.congr ?_ ?_⟩
  · intro a ha
    have hac : a ≠ c := fun hac => hdisj a ha (hac ▸ hc)
    have hne : some a ≠ L.next c := fun hne => hdisj a ha (h.2.neighbour_mem hc (.inr hne))
    simp [unlink, hac, hne]
  · intro a ha
    have hac : a ≠ c := fun hac => hdisj a ha (hac ▸ hc)
    have hne : some a ≠ L.prev c := fun hne => hdisj a ha (h.2.neighbour_mem hc (.inl hne))
    simp [unlink, hac, hne]

/-- A list that shares no node with `c` and the list behind `head` keeps its links when `c` is put
before that list. -/
lemma IsList.pushFront_of_disjoint {L : Links ι} {head head' : Option ι} {l' : List ι} {c : ι}
    (h' : IsList L head' l') (hc : c ∉ l') (hdisj : ∀ a ∈ head, a ∉ l') :
    IsList (pushFront L head c) head' l' := by
  refine ⟨h'.1, h'.2.congr ?_ ?_⟩
  · intro a ha
    have hac : a ≠ c := fun hac => hc (hac ▸ ha)
    have hne : some a ≠ head := fun hne => hdisj a hne.symm ha
    simp [pushFront, hac, hne]
  · intro a ha
    have hac : a ≠ c := fun hac => hc (hac ▸ ha)
    simp [pushFront, hac]

/-! ## Changes of the buckets -/

namespace Buckets

variable {κ : Type*} {S : Buckets κ ι} {B : κ → List ι} {r : List ι} {k : κ} {c : ι}

/-- Clear a node of a list that was taken out. -/
def clear (S : Buckets κ ι) (c : ι) : Buckets κ ι where
  head := S.head
  links := ⟨Function.update S.links.prev c none, Function.update S.links.next c none⟩
  active := Function.update S.active c false
  slot := S.slot

lemma Wf.clear (h : S.Wf B (c :: r)) : (S.clear c).Wf B r where
  isList k' := by
    have hne : ∀ a ∈ B k', a ≠ c := fun a ha hac =>
      ((h.mem_iff k' a).mp ha).2.2 (by simp [hac])
    refine ⟨(h.isList k').1, (h.isList k').2.congr (fun a ha => ?_) fun a ha => ?_⟩
    · simp [Buckets.clear, hne a ha]
    · simp [Buckets.clear, hne a ha]
  nodup := h.nodup
  mem_iff k' a := by
    rw [h.mem_iff k' a]
    by_cases hac : a = c
    · subst hac
      simp [Buckets.clear]
    · simp [Buckets.clear, hac]
  rest_nodup := (List.nodup_cons.mp h.rest_nodup).2
  rest_chain := by
    obtain ⟨p, hp⟩ := h.rest_chain
    have hne : ∀ a ∈ r, a ≠ c := fun a ha hac => (List.nodup_cons.mp h.rest_nodup).1 (hac ▸ ha)
    refine ⟨some c, hp.2.2.congr (fun a ha => ?_) fun a ha => ?_⟩
    · simp [Buckets.clear, hne a ha]
    · simp [Buckets.clear, hne a ha]
  rest_active a ha := by
    have hne : a ≠ c := fun hac => (List.nodup_cons.mp h.rest_nodup).1 (hac ▸ ha)
    simpa [Buckets.clear, hne] using h.rest_active a (by simp [ha])

variable [DecidableEq κ]

/-- Put `c` at the front of list `k`. -/
def insert (S : Buckets κ ι) (k : κ) (c : ι) : Buckets κ ι where
  head := Function.update S.head k (some c)
  links := pushFront S.links (S.head k) c
  active := Function.update S.active c true
  slot := Function.update S.slot c k

/-- Take `c` out of its list. -/
def remove (S : Buckets κ ι) (c : ι) : Buckets κ ι where
  head := Function.update S.head (S.slot c) (unlinkHead S.links (S.head (S.slot c)) c)
  links := unlink S.links c
  active := Function.update S.active c false
  slot := S.slot

/-- Take the nodes of list `k` out as a whole. -/
def detach (S : Buckets κ ι) (k : κ) : Buckets κ ι :=
  { S with head := Function.update S.head k none }

lemma Wf.insert (h : S.Wf B r) (hc : S.active c = false) :
    (S.insert k c).Wf (Function.update B k (c :: B k)) r where
  isList k' := by
    by_cases hk : k' = k
    · subst hk
      simpa [Buckets.insert] using
        isList_pushFront (h.isList k') (h.nodup k') (h.not_mem_of_inactive hc k')
    · simpa [Buckets.insert, hk] using
        (h.isList k').pushFront_of_disjoint (h.not_mem_of_inactive hc k') fun a ha ha' =>
          h.disjoint hk ha' (h.head_mem ha)
  nodup k' := by
    by_cases hk : k' = k
    · subst hk
      simpa using ⟨h.not_mem_of_inactive hc k', h.nodup k'⟩
    · simpa [hk] using h.nodup k'
  mem_iff k' a := by
    by_cases hac : a = c
    · subst hac
      have hr := h.not_mem_rest_of_inactive hc
      by_cases hk : k' = k
      · subst hk
        simp [Buckets.insert, hr]
      · simp [Buckets.insert, hk, Ne.symm hk, h.not_mem_of_inactive hc k']
    · by_cases hk : k' = k
      · subst hk
        simpa [Buckets.insert, hac] using h.mem_iff k' a
      · simpa [Buckets.insert, hac, hk] using h.mem_iff k' a
  rest_nodup := h.rest_nodup
  rest_chain := by
    obtain ⟨p, hp⟩ := h.rest_chain
    have hne : ∀ a ∈ r, a ≠ c := fun a ha hac => h.not_mem_rest_of_inactive hc (hac ▸ ha)
    refine ⟨p, hp.congr (fun a ha => ?_) fun a ha => ?_⟩
    · have hhead : some a ≠ S.head k := fun hhead =>
        ((h.mem_iff k a).mp (h.head_mem hhead.symm)).2.2 ha
      simp [Buckets.insert, pushFront, hne a ha, hhead]
    · simp [Buckets.insert, pushFront, hne a ha]
  rest_active a ha := by
    have hne : a ≠ c := fun hac => h.not_mem_rest_of_inactive hc (hac ▸ ha)
    simpa [Buckets.insert, hne] using h.rest_active a ha

lemma Wf.remove (h : S.Wf B []) (hc : S.active c = true) :
    (S.remove c).Wf (Function.update B (S.slot c) ((B (S.slot c)).erase c)) [] where
  isList k' := by
    have hmem : c ∈ B (S.slot c) := (h.mem_iff _ c).mpr ⟨hc, rfl, List.not_mem_nil⟩
    by_cases hk : k' = S.slot c
    · subst hk
      obtain ⟨l₁, l₂, hl⟩ := List.append_of_mem hmem
      have hlist := h.isList (S.slot c)
      have hnodup := h.nodup (S.slot c)
      rw [hl] at hlist hnodup
      have hc₁ : c ∉ l₁ := fun hmem => (List.nodup_append.mp hnodup).2.2 c hmem c (by simp) rfl
      simpa [Buckets.remove, hl, List.erase_append_right _ hc₁] using isList_unlink hlist hnodup
    · simpa [Buckets.remove, hk] using
        (h.isList (S.slot c)).unlink_of_disjoint (h.isList k') hmem fun a ha => h.disjoint hk ha
  nodup k' := by
    by_cases hk : k' = S.slot c
    · subst hk
      simpa using (h.nodup (S.slot c)).erase c
    · simpa [hk] using h.nodup k'
  mem_iff k' a := by
    by_cases hk : k' = S.slot c
    · subst hk
      by_cases hac : a = c
      · subst hac
        simp [Buckets.remove, (h.nodup (S.slot a)).mem_erase_iff]
      · simpa [Buckets.remove, (h.nodup (S.slot c)).mem_erase_iff, hac] using h.mem_iff (S.slot c) a
    · by_cases hac : a = c
      · subst hac
        have hnot : a ∉ B k' := fun ha => hk ((h.mem_iff k' a).mp ha).2.1.symm
        simp [Buckets.remove, hk, hnot]
      · simpa [Buckets.remove, hk, hac] using h.mem_iff k' a
  rest_nodup := List.nodup_nil
  rest_chain := ⟨none, trivial⟩
  rest_active := by simp

lemma Wf.detach (h : S.Wf B []) (k : κ) : (S.detach k).Wf (Function.update B k []) (B k) where
  isList k' := by
    by_cases hk : k' = k
    · subst hk
      simp [Buckets.detach, IsList, Chain]
    · simpa [Buckets.detach, hk] using h.isList k'
  nodup k' := by
    by_cases hk : k' = k
    · subst hk
      simp
    · simpa [hk] using h.nodup k'
  mem_iff k' a := by
    by_cases hk : k' = k
    · subst hk
      simp only [Function.update_self, List.not_mem_nil, false_iff, Buckets.detach]
      rintro ⟨hactive, hslot, hnot⟩
      exact hnot ((h.mem_iff k' a).mpr ⟨hactive, hslot, List.not_mem_nil⟩)
    · have hmem := h.mem_iff k' a
      have hdisj : a ∈ B k' → a ∉ B k := h.disjoint hk
      simp only [List.not_mem_nil, not_false_eq_true, and_true] at hmem
      simp only [Buckets.detach, Function.update_of_ne hk, ← and_assoc, ← hmem]
      tauto
  rest_nodup := h.nodup k
  rest_chain := ⟨none, (h.isList k).2⟩
  rest_active a ha := ((h.mem_iff k a).mp ha).1

end Buckets

end IntrusiveList
