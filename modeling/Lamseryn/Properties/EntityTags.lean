import Lamseryn.Framework.Splitting
import Lamseryn.Model.Conditional

/-!
# Lists of entity tags

The grammar of `If-None-Match` and what `static_serve_check_not_modified` makes of a value of it.
The source cuts the value at every comma and compares each piece as a whole, but a comma may also
stand inside the quotes.  No piece of such a tag can be taken for the tag of the file, which has two
quotes and no comma; a piece `*` between two commas is taken for the wildcard, though, and this is
the only difference (`element_matches_iff`).
-/

namespace Lamseryn

open ByteText CText Splitting

/-! ## The grammar -/

/-- The bytes of an opaque tag: visible ones other than the quote, and those above `7F`. -/
def isEtagc (b : UInt8) : Bool :=
  b == 33 || (35 ≤ b && b ≤ 126) || 128 ≤ b

/-- An entity tag of a client. -/
structure EntityTag where
  weak : Bool
  chars : Bytes
  etagc : ∀ b ∈ chars, isEtagc b = true

/-- The opaque tag with its quotes. -/
def EntityTag.quoted (t : EntityTag) : Bytes :=
  34 :: (t.chars ++ [34])

def EntityTag.text (t : EntityTag) : Bytes :=
  (if t.weak then ascii "W/" else []) ++ t.quoted

/-- An element of a list, possibly empty, between blanks. -/
structure TagElement where
  before : Bytes
  tag : Option EntityTag
  after : Bytes
  blank_before : ∀ b ∈ before, isOws b = true
  blank_after : ∀ b ∈ after, isOws b = true

def TagElement.text (e : TagElement) : Bytes :=
  e.before ++ (e.tag.elim [] EntityTag.text ++ e.after)

/-- The values of the grammar; a list names at least one tag. -/
inductive NoneMatch where
  | wildcard
  | tags (elements : List TagElement) (named : ∃ e ∈ elements, e.tag ≠ none)

def NoneMatch.text : NoneMatch → Bytes
  | .wildcard => ascii "*"
  | .tags elements _ => [44].intercalate (elements.map TagElement.text)

/-- The tags a value lists. -/
def NoneMatch.listed : NoneMatch → List EntityTag
  | .wildcard => []
  | .tags elements _ => elements.filterMap TagElement.tag

/-- Does the value match a file with the tag `etag`?  The comparison is the weak one, and `etag`
itself is a strong tag. -/
def NoneMatch.Matches (v : NoneMatch) (etag : Bytes) : Prop :=
  v = .wildcard ∨ ∃ t ∈ v.listed, t.quoted = etag

/-- Between two commas of its own the tag has a lone `*`. -/
def EntityTag.HidesStar (t : EntityTag) : Prop :=
  ascii ",*," <:+: t.chars

/-! ## The tag of a file -/

/-- The text of a tag that the server issues: in quotes, neither a quote nor a comma. -/
def IssuedTag (etag : Bytes) : Prop :=
  ∃ inner, etag = 34 :: (inner ++ [34]) ∧ ∀ b ∈ inner, b ≠ 34 ∧ b ≠ 44

lemma ne_quote_comma_of_mem_hexNumeral {n : ℕ} {b : UInt8} (h : b ∈ hexNumeral n) :
    b ≠ 34 ∧ b ≠ 44 := by
  unfold hexNumeral at h
  split at h
  · rw [List.mem_singleton] at h
    subst h
    decide
  · obtain ⟨d, hd, rfl⟩ := List.mem_map.mp h
    have hlt : d < 16 := Nat.digits_lt_base (by norm_num) (List.mem_reverse.mp hd)
    interval_cases d <;> decide

lemma staticServeFormatEtag_issued {cap : ℕ} {st : FileStat}
    (h : staticServeFormatEtag cap st ≠ []) : IssuedTag (staticServeFormatEtag cap st) := by
  unfold staticServeFormatEtag at h ⊢
  dsimp only at h ⊢
  split at h
  case isFalse => exact (h rfl).elim
  case isTrue hfits =>
    have hquote : ascii "\"" = [34] := by decide
    have hhyphen : ∀ b ∈ ascii "-", b ≠ 34 ∧ b ≠ 44 := by decide +kernel
    have hassoc : ∀ a b c : Bytes, [34] ++ a ++ ascii "-" ++ b ++ ascii "-" ++ c ++ [34] =
        34 :: ((a ++ (ascii "-" ++ (b ++ (ascii "-" ++ c)))) ++ [34]) := by
      intro a b c
      simp
    rw [if_pos hfits, hquote, hassoc]
    refine ⟨_, rfl, fun b hb => ?_⟩
    simp only [List.mem_append] at hb
    rcases hb with hb | hb | hb | hb | hb
    · exact ne_quote_comma_of_mem_hexNumeral hb
    · exact hhyphen b hb
    · exact ne_quote_comma_of_mem_hexNumeral hb
    · exact hhyphen b hb
    · exact ne_quote_comma_of_mem_hexNumeral hb

/-! ## One piece -/

/-- The piece without the mark of a weak tag. -/
def withoutWeak (tok : Bytes) : Bytes :=
  if (ascii "W/").isPrefixOf tok then tok.drop 2 else tok

lemma mem_of_mem_withoutWeak {tok : Bytes} {b : UInt8} (h : b ∈ withoutWeak tok) : b ∈ tok := by
  unfold withoutWeak at h
  split at h
  · exact List.mem_of_mem_drop h
  · exact h

lemma withoutWeak_of_head {b : UInt8} (hb : b ≠ 87) (tok : Bytes) :
    withoutWeak (b :: tok) = b :: tok := by
  have hnot : (ascii "W/").isPrefixOf (b :: tok) = false := by
    have hbeq : ((87 : UInt8) == b) = false := by
      rw [beq_eq_false_iff_ne]
      exact hb.symm
    show ((87 : UInt8) == b && _) = false
    rw [hbeq, Bool.false_and]
  rw [withoutWeak, hnot, if_neg Bool.false_ne_true]

lemma withoutWeak_text (t : EntityTag) : withoutWeak t.text = t.quoted := by
  unfold EntityTag.text
  split
  · rfl
  · rw [List.nil_append]
    exact withoutWeak_of_head (by decide) _

lemma inmTokenMatches_iff {etag before core after : Bytes} (hetag : IssuedTag etag)
    (hbefore : ∀ b ∈ before, isOws b = true) (hcore : ∀ b ∈ core, isOws b = false)
    (hafter : ∀ b ∈ after, isOws b = true) :
    inmTokenMatches etag (before ++ (core ++ after)) = true ↔
      core = ascii "*" ∨ withoutWeak core = etag := by
  have hne : etag ≠ [] := by
    obtain ⟨inner, rfl, -⟩ := hetag
    exact List.cons_ne_nil _ _
  unfold inmTokenMatches
  rw [trim_append hbefore hcore hafter]
  by_cases hstar : core = ascii "*"
  · simp [hstar]
  · rw [if_neg hstar]
    simp [hstar, hne, withoutWeak]

/-! ## The pieces of a tag -/

lemma isEtagc_ne {b : UInt8} (h : isEtagc b = true) : b ≠ 34 ∧ isOws b = false := by
  constructor
  · rintro rfl
    exact absurd h (by decide)
  · by_contra hows
    rw [Bool.not_eq_false, isOws, Bool.or_eq_true, beq_iff_eq, beq_iff_eq] at hows
    rcases hows with rfl | rfl
    · exact absurd h (by decide)
    · exact absurd h (by decide)

/-- A text without a quote in front of its last byte is not the tag of a file, nor is one without a
quote behind its first. -/
lemma IssuedTag.ne_of_notMem_tail {etag s : Bytes} {b : UInt8} (hetag : IssuedTag etag)
    (hs : (34 : UInt8) ∉ s) : b :: s ≠ etag := by
  obtain ⟨inner, rfl, -⟩ := hetag
  intro heq
  apply hs
  rw [(List.cons.inj heq).2]
  exact List.mem_append_right inner List.mem_cons_self

lemma IssuedTag.ne_append {etag s : Bytes} (hetag : IssuedTag etag) (hs : (34 : UInt8) ∉ s) :
    s ++ [34] ≠ etag := by
  obtain ⟨inner, rfl, -⟩ := hetag
  rw [← List.cons_append]
  intro heq
  apply hs
  rw [List.append_cancel_right heq]
  exact List.mem_cons_self

lemma IssuedTag.ne_of_notMem {etag s : Bytes} (hetag : IssuedTag etag) (hs : (34 : UInt8) ∉ s) :
    s ≠ etag := by
  rintro rfl
  obtain ⟨inner, rfl, -⟩ := hetag
  exact hs List.mem_cons_self

lemma not_matches_first {etag before chars : Bytes} (hetag : IssuedTag etag) (weak : Bool)
    (hbefore : ∀ b ∈ before, isOws b = true) (hchars : ∀ b ∈ chars, isEtagc b = true) :
    ¬ inmTokenMatches etag (before ++ ((if weak then ascii "W/" else []) ++ 34 :: chars)) = true := by
  have hquote : (34 : UInt8) ∉ chars := fun h => (isEtagc_ne (hchars 34 h)).1 rfl
  have hblank : ∀ b ∈ (if weak then ascii "W/" else []) ++ 34 :: chars, isOws b = false := by
    intro b hb
    rcases List.mem_append.mp hb with hb | hb
    · have hmark : ∀ b ∈ ascii "W/", isOws b = false := by decide +kernel
      split at hb
      · exact hmark b hb
      · cases hb
    · rcases List.mem_cons.mp hb with rfl | hb
      · rfl
      · exact (isEtagc_ne (hchars b hb)).2
  have hmatch := @inmTokenMatches_iff etag before _ [] hetag hbefore hblank (List.forall_mem_nil _)
  rw [List.append_nil] at hmatch
  rw [hmatch]
  have hstrip : withoutWeak ((if weak then ascii "W/" else []) ++ 34 :: chars) = 34 :: chars := by
    split
    · rfl
    · exact withoutWeak_of_head (by decide) _
  rintro (hstar | htag)
  · have hmem : (34 : UInt8) ∈ ascii "*" := by
      rw [← hstar]
      exact List.mem_append_right _ List.mem_cons_self
    exact absurd hmem (by decide)
  · rw [hstrip] at htag
    exact hetag.ne_of_notMem_tail hquote htag

/-- Nor does the piece behind its last comma. -/
lemma not_matches_last {etag chars after : Bytes} (hetag : IssuedTag etag)
    (hchars : ∀ b ∈ chars, isEtagc b = true) (hafter : ∀ b ∈ after, isOws b = true) :
    ¬ inmTokenMatches etag (chars ++ 34 :: after) = true := by
  have hquote : (34 : UInt8) ∉ chars := fun h => (isEtagc_ne (hchars 34 h)).1 rfl
  have hblank : ∀ b ∈ chars ++ [34], isOws b = false := by
    intro b hb
    rcases List.mem_append.mp hb with hb | hb
    · exact (isEtagc_ne (hchars b hb)).2
    · rw [List.mem_singleton.mp hb]
      rfl
  have hmatch := @inmTokenMatches_iff etag [] _ after hetag (List.forall_mem_nil _) hblank hafter
  rw [List.nil_append, List.append_assoc, List.singleton_append] at hmatch
  rw [hmatch]
  rintro (hstar | htag)
  · have hmem : (34 : UInt8) ∈ ascii "*" := by
      rw [← hstar]
      exact List.mem_append_right _ List.mem_cons_self
    exact absurd hmem (by decide)
  · -- cutting off a weak mark leaves the quote at the end
    have hend : ∃ rest, withoutWeak (chars ++ [34]) = rest ++ [34] ∧ (34 : UInt8) ∉ rest := by
      unfold withoutWeak
      split
      case isFalse => exact ⟨chars, rfl, hquote⟩
      case isTrue hmark =>
        have hlen := (List.isPrefixOf_iff_prefix.mp hmark).length_le
        rw [List.length_append] at hlen
        have htwo : 2 ≤ chars.length := by
          rcases Nat.lt_or_ge chars.length 2 with hlt | hge
          · obtain ⟨rest, hrest⟩ := List.isPrefixOf_iff_prefix.mp hmark
            match chars, hlt with
            | [], _ => exact absurd hrest (by simp [ascii])
            | [c], _ => exact absurd hrest (by simp [ascii])
          · exact hge
        refine ⟨chars.drop 2, List.drop_append_of_le_length htwo, ?_⟩
        exact fun h => hquote (List.mem_of_mem_drop h)
    obtain ⟨rest, hrest, hnot⟩ := hend
    rw [hrest] at htag
    exact hetag.ne_append hnot htag

lemma matches_middle_iff {etag chars : Bytes} (hetag : IssuedTag etag)
    (hchars : ∀ b ∈ chars, isEtagc b = true) :
    inmTokenMatches etag chars = true ↔ chars = ascii "*" := by
  have hquote : (34 : UInt8) ∉ chars := fun h => (isEtagc_ne (hchars 34 h)).1 rfl
  have hmatch := @inmTokenMatches_iff etag [] chars [] hetag (List.forall_mem_nil _)
    (fun b hb => (isEtagc_ne (hchars b hb)).2) (List.forall_mem_nil _)
  rw [List.nil_append, List.append_nil] at hmatch
  rw [hmatch]
  refine ⟨fun h => h.resolve_right ?_, .inl⟩
  exact hetag.ne_of_notMem fun h => hquote (mem_of_mem_withoutWeak h)

lemma EntityTag.text_not_blank (t : EntityTag) : ∀ b ∈ t.text, isOws b = false := by
  have hmark : ∀ b ∈ ascii "W/", isOws b = false := by decide +kernel
  intro b hb
  simp only [EntityTag.text, EntityTag.quoted, List.mem_append, List.mem_cons, List.not_mem_nil,
    or_false] at hb
  rcases hb with hb | rfl | hb | rfl
  · split at hb
    · exact hmark b hb
    · cases hb
  · rfl
  · exact (isEtagc_ne (t.etagc b hb)).2
  · rfl

lemma EntityTag.text_ne_star (t : EntityTag) : t.text ≠ ascii "*" := by
  intro h
  have hlen : t.text.length = 1 := by
    rw [h]
    rfl
  simp only [EntityTag.text, EntityTag.quoted, List.length_append, List.length_cons,
    List.length_nil] at hlen
  omega

lemma IssuedTag.ne_quoted_of_comma {etag : Bytes} (hetag : IssuedTag etag) {t : EntityTag}
    (h : (44 : UInt8) ∈ t.chars) : t.quoted ≠ etag := by
  obtain ⟨inner, rfl, hinner⟩ := hetag
  intro heq
  have hchars : t.chars = inner := List.append_cancel_right (List.cons.inj heq).2
  exact (hinner 44 (hchars ▸ h)).2 rfl

/-- The pieces of a tag with commas: the ones at the ends do not match, one in between matches as
the wildcard. -/
lemma commaTag_matches_iff {etag before after : Bytes} (hetag : IssuedTag etag) (t : EntityTag)
    (hin : (44 : UInt8) ∈ t.chars) (hbefore : ∀ b ∈ before, isOws b = true)
    (hafter : ∀ b ∈ after, isOws b = true)
    (hfront : (44 : UInt8) ∉ before ++ (if t.weak then ascii "W/" else []))
    (hback : (44 : UInt8) ∉ 34 :: after) :
    (∃ tok ∈ (before ++ (t.text ++ after)).splitOnP (· == 44), inmTokenMatches etag tok = true) ↔
      t.HidesStar := by
  obtain ⟨first, rest, hchars, hfirst⟩ := List.eq_append_cons_of_mem hin
  have hetagc := t.etagc
  rw [hchars] at hetagc
  have hfirst' := not_matches_first hetag t.weak hbefore fun b hb =>
    hetagc b (List.mem_append_left _ hb)
  have hhead : (44 : UInt8) ∉ before ++ ((if t.weak then ascii "W/" else []) ++ 34 :: first) := by
    rw [← List.append_assoc, List.mem_append, List.mem_cons, not_or, not_or]
    exact ⟨hfront, by decide, hfirst⟩
  have htext : before ++ (t.text ++ after) =
      (before ++ ((if t.weak then ascii "W/" else []) ++ 34 :: first)) ++
        44 :: (rest ++ 34 :: after) := by
    rw [EntityTag.text, EntityTag.quoted, hchars]
    simp
  rw [htext, splitOnP_beq_append, splitOnP_beq_of_notMem hhead]
  simp only [List.singleton_append, List.mem_cons, exists_eq_or_imp, or_iff_right hfirst']
  unfold EntityTag.HidesStar
  rw [hchars]
  by_cases hmore : (44 : UInt8) ∈ rest
  · obtain ⟨last, middle, hrest, hlast⟩ :=
      List.eq_append_cons_of_mem (List.mem_reverse.mpr hmore)
    have hrest : rest = middle.reverse ++ 44 :: last.reverse := by
      rw [← List.reverse_reverse rest, hrest]
      simp
    have hlast : (44 : UInt8) ∉ last.reverse := fun h => hlast (List.mem_reverse.mp h)
    generalize middle.reverse = middle at hrest
    generalize last.reverse = last at hrest hlast
    rw [hrest] at hetagc ⊢
    have hlast' : ¬ inmTokenMatches etag (last ++ 34 :: after) = true :=
      not_matches_last hetag (fun b hb => hetagc b (by simp [hb])) hafter
    have htail : (44 : UInt8) ∉ last ++ 34 :: after := by
      rw [List.mem_append, not_or]
      exact ⟨hlast, hback⟩
    have hstar : ascii ",*," = 44 :: (ascii "*" ++ [44]) := by decide
    rw [List.append_assoc, List.cons_append, splitOnP_beq_append, splitOnP_beq_of_notMem htail,
      hstar, ← mem_splitOnP_iff_infix hfirst hlast (by decide)]
    have hmiddle : ∀ tok ∈ middle.splitOnP (· == 44), ∀ b ∈ tok, isEtagc b = true :=
      fun tok htok b hb => hetagc b (by simp [mem_of_mem_splitOnP htok hb])
    constructor
    · rintro ⟨tok, htok, hmatch⟩
      rcases List.mem_append.mp htok with htok | htok
      · rwa [(matches_middle_iff hetag (hmiddle tok htok)).mp hmatch] at htok
      · rw [List.mem_singleton.mp htok] at hmatch
        exact (hlast' hmatch).elim
    · intro htok
      exact ⟨_, List.mem_append_left _ htok,
        (matches_middle_iff hetag (hmiddle _ htok)).mpr rfl⟩
  · -- one comma: no piece lies between two
    have hlast' : ¬ inmTokenMatches etag (rest ++ 34 :: after) = true :=
      not_matches_last hetag (fun b hb => hetagc b (by simp [hb])) hafter
    have htail : (44 : UInt8) ∉ rest ++ 34 :: after := by
      rw [List.mem_append, not_or]
      exact ⟨hmore, hback⟩
    rw [splitOnP_beq_of_notMem htail]
    simp only [List.mem_singleton, exists_eq_left]
    refine iff_of_false hlast' fun hinfix => ?_
    have hcount := hinfix.sublist.count_le (44 : UInt8)
    rw [List.count_append, List.count_cons_self, List.count_eq_zero_of_not_mem hfirst,
      List.count_eq_zero_of_not_mem hmore] at hcount
    exact absurd hcount (by decide)

/-- What the source makes of one element: it matches if its tag is the tag of the file or hides a
lone `*` between commas. -/
lemma element_matches_iff {etag : Bytes} (hetag : IssuedTag etag) (e : TagElement) :
    (∃ tok ∈ e.text.splitOnP (· == 44), inmTokenMatches etag tok = true) ↔
      ∃ t, e.tag = some t ∧ (t.quoted = etag ∨ t.HidesStar) := by
  have hcomma : ∀ s : Bytes, (∀ b ∈ s, isOws b = true) → (44 : UInt8) ∉ s := fun s hs h =>
    absurd (hs 44 h) (by decide)
  obtain ⟨before, tag, after, hbefore, hafter⟩ := e
  cases tag with
  | none =>
    -- an empty element is one blank piece
    have hmatch := @inmTokenMatches_iff etag before [] after hetag hbefore (List.forall_mem_nil _)
      hafter
    have hnot : (44 : UInt8) ∉ before ++ ([] ++ after) := by
      rw [List.nil_append, List.mem_append, not_or]
      exact ⟨hcomma before hbefore, hcomma after hafter⟩
    simp only [TagElement.text, Option.elim_none, splitOnP_beq_of_notMem hnot, List.mem_singleton,
      exists_eq_left, hmatch, reduceCtorEq, false_and, exists_false, iff_false, not_or]
    exact ⟨by decide, hetag.ne_of_notMem fun h => absurd (mem_of_mem_withoutWeak h) (by decide)⟩
  | some t =>
    have hfront : (44 : UInt8) ∉ before ++ (if t.weak then ascii "W/" else []) := by
      rw [List.mem_append, not_or]
      refine ⟨hcomma before hbefore, ?_⟩
      split <;> decide
    have hback : (44 : UInt8) ∉ 34 :: after := by
      rw [List.mem_cons, not_or]
      exact ⟨by decide, hcomma after hafter⟩
    simp only [TagElement.text, Option.elim_some, Option.some.injEq, exists_eq_left']
    by_cases hin : (44 : UInt8) ∈ t.chars
    · rw [or_iff_right (hetag.ne_quoted_of_comma hin)]
      exact commaTag_matches_iff hetag t hin hbefore hafter hfront hback
    · -- no comma inside the quotes: one piece
      have hstar : ¬ t.HidesStar := fun h => hin (h.mem (by decide))
      have hpiece : (44 : UInt8) ∉ before ++ (t.text ++ after) := by
        simp only [EntityTag.text, EntityTag.quoted, List.mem_append, List.mem_cons, not_or] at *
        tauto
      have hmatch := inmTokenMatches_iff hetag hbefore t.text_not_blank hafter
      rw [withoutWeak_text] at hmatch
      rw [splitOnP_beq_of_notMem hpiece]
      simp only [List.mem_singleton, exists_eq_left, hmatch, or_iff_left hstar]
      exact or_iff_right t.text_ne_star

/-! ## The whole value -/

lemma tags_match_iff {etag : Bytes} (hetag : IssuedTag etag) {elements : List TagElement}
    (hne : elements ≠ []) :
    (([44].intercalate (elements.map TagElement.text)).splitOnP (· == 44)).any
        (inmTokenMatches etag) = true ↔
      ∃ t ∈ elements.filterMap TagElement.tag, t.quoted = etag ∨ t.HidesStar := by
  have hmap : elements.map TagElement.text ≠ [] := by simpa using hne
  rw [splitOnP_intercalate hmap, List.any_flatMap, List.any_map, List.any_eq_true]
  simp only [Function.comp_apply, List.any_eq_true, element_matches_iff hetag, List.mem_filterMap]
  constructor
  · rintro ⟨e, he, t, ht, hor⟩
    exact ⟨t, ⟨e, he, ht⟩, hor⟩
  · rintro ⟨t, ⟨e, he, ht⟩, hor⟩
    exact ⟨e, he, t, ht, hor⟩

lemma NoneMatch.text_ne_nil (v : NoneMatch) : v.text ≠ [] := by
  cases v with
  | wildcard => decide
  | tags elements named =>
    obtain ⟨e, he, htag⟩ := named
    obtain ⟨t, ht⟩ := Option.ne_none_iff_exists'.mp htag
    have hquote : (34 : UInt8) ∈ e.text := by
      simp [TagElement.text, ht, EntityTag.text, EntityTag.quoted]
    exact List.ne_nil_of_mem (subset_intercalate (List.mem_map_of_mem he) hquote)

lemma notModified_iff {hdrs : List ReqHdrEntry} {v : NoneMatch} {etag : Bytes} (st : FileStat)
    (hfield : httpHeaderFindValue hdrs .ifNoneMatch = some v.text) (hetag : IssuedTag etag) :
    staticServeCheckNotModified hdrs st etag = true ↔
      v.Matches etag ∨ ∃ t ∈ v.listed, t.HidesStar := by
  have hpresent : (httpHeaderFindValue hdrs .ifNoneMatch).filter (· ≠ []) = some v.text := by
    rw [hfield, Option.filter_some, if_pos (by simpa using v.text_ne_nil)]
  unfold staticServeCheckNotModified
  simp only [hpresent]
  cases v with
  | wildcard =>
    have hmatch := @inmTokenMatches_iff etag [] (ascii "*") [] hetag (List.forall_mem_nil _)
      (by decide +kernel) (List.forall_mem_nil _)
    rw [List.nil_append, List.append_nil] at hmatch
    rw [NoneMatch.text, splitOnP_beq_of_notMem (by decide), List.any_cons,
      hmatch.mpr (.inl rfl), Bool.true_or]
    exact iff_of_true rfl (.inl (.inl rfl))
  | tags elements named =>
    have hne : elements ≠ [] := by
      obtain ⟨e, he, -⟩ := named
      exact List.ne_nil_of_mem he
    rw [NoneMatch.text, tags_match_iff hetag hne]
    simp only [NoneMatch.Matches, NoneMatch.listed, reduceCtorEq, false_or]
    rw [← exists_or]
    simp only [and_or_left]

lemma staticServeFormatEtag_ne_nil (st : FileStat) : staticServeFormatEtag 64 st ≠ [] := by
  have hhex : ∀ n : ℕ, n < 2 ^ 64 → (hexNumeral n).length ≤ 16 := fun n hn =>
    hexNumeral_length_le (by decide) (by omega)
  have hino := hhex (st.ino % 2 ^ 64) (Nat.mod_lt _ (by norm_num))
  have hsize := hhex (st.size % 2 ^ 64) (Nat.mod_lt _ (by norm_num))
  have htime := hhex ((st.mtimeSec * 1000000 + (st.mtimeNsec / 1000 : ℕ)) % 2 ^ 64).toNat (by omega)
  have hquote : ascii "\"" = [34] := by decide
  have hhyphen : ascii "-" = [45] := by decide
  unfold staticServeFormatEtag
  dsimp only
  rw [hquote, hhyphen, if_pos]
  · simp
  · simp only [List.length_append, List.length_cons, List.length_nil]
    omega

/-- The answer to `If-None-Match`: not modified exactly if the value matches the tag of the file,
whatever the other fields say. -/
structure NoneMatchExact (hdrs : List ReqHdrEntry) (v : NoneMatch) (st : FileStat) : Prop where
  exact : staticServeCheckNotModified hdrs st (staticServeFormatEtag 64 st) = true ↔
    v.Matches (staticServeFormatEtag 64 st)
  alone : ∀ hdrs' : List ReqHdrEntry,
    httpHeaderFindValue hdrs' .ifNoneMatch = httpHeaderFindValue hdrs .ifNoneMatch →
      staticServeCheckNotModified hdrs' st (staticServeFormatEtag 64 st) =
        staticServeCheckNotModified hdrs st (staticServeFormatEtag 64 st)

/-- **If-None-Match.**  The answer is right exactly when no listed tag has a lone `*` between two of
its commas, or the value matches anyway; the modification date is never asked for. -/
theorem noneMatch_iff (hdrs : List ReqHdrEntry) (v : NoneMatch) (st : FileStat)
    (hfield : httpHeaderFindValue hdrs .ifNoneMatch = some v.text) :
    NoneMatchExact hdrs v st ↔
      (∀ t ∈ v.listed, ¬ t.HidesStar) ∨ v.Matches (staticServeFormatEtag 64 st) := by
  have hissued := staticServeFormatEtag_issued (staticServeFormatEtag_ne_nil st)
  have hanswer := notModified_iff st hfield hissued
  constructor
  · intro h
    by_contra hcon
    push Not at hcon
    obtain ⟨⟨t, ht, hstar⟩, hnot⟩ := hcon
    exact hnot (h.exact.mp (hanswer.mpr (.inr ⟨t, ht, hstar⟩)))
  · intro hcond
    refine ⟨?_, fun hdrs' hsame => ?_⟩
    · rw [hanswer]
      refine ⟨fun h => ?_, .inl⟩
      rcases h with h | ⟨t, ht, hstar⟩
      · exact h
      · exact hcond.resolve_left fun hnone => hnone t ht hstar
    · rw [Bool.eq_iff_iff, hanswer, notModified_iff st (hsame.trans hfield) hissued]

/-- The fields of a request with one `If-None-Match`. -/
def noneMatchField (value : Bytes) : List ReqHdrEntry :=
  [⟨.ifNoneMatch, ascii "if-none-match", value, false⟩]

lemma no_ows : ∀ b ∈ ([] : Bytes), isOws b = true :=
  List.forall_mem_nil _

/-- The value `"a,*,b"`, whose only tag hides a `*`. -/
def starTag : EntityTag :=
  ⟨false, ascii "a,*,b", by decide +kernel⟩

def starValue : NoneMatch :=
  .tags [⟨[], some starTag, [], no_ows, no_ows⟩]
    ⟨_, List.mem_cons_self, by simp⟩

def fiveByteFile : FileStat :=
  ⟨.regular, 1, 5, 0, 0⟩

/-- The tag `"a,*,b"` is no file's, but the request is answered as if it matched. -/
theorem noneMatch_fails_on_star :
    ¬ NoneMatchExact (noneMatchField starValue.text) starValue fiveByteFile := by
  intro h
  rcases h.exact.mp (by decide) with hwild | ⟨t, ht, heq⟩
  · cases hwild
  · rw [List.mem_singleton.mp ht] at heq
    exact absurd heq (by decide)

/-- The tag of that file, as a client may send it back. -/
def fiveByteTag : EntityTag :=
  ⟨true, ascii "1-5-0", by decide +kernel⟩

/-- The value `W/"1-5-0","a,*,b"`. -/
def mixedValue : NoneMatch :=
  .tags [⟨[], some fiveByteTag, [], no_ows, no_ows⟩, ⟨[], some starTag, [], no_ows, no_ows⟩]
    ⟨_, List.mem_cons_self, by simp⟩

theorem noneMatch_iff_mixed :
    NoneMatchExact (noneMatchField mixedValue.text) mixedValue fiveByteFile :=
  (noneMatch_iff (noneMatchField mixedValue.text) mixedValue fiveByteFile rfl).mpr
    (.inr (.inr ⟨fiveByteTag, List.mem_cons_self, by decide⟩))

end Lamseryn
