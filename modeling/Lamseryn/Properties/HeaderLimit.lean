import Lamseryn.Properties.RequestFeeds

/-!
# The limit of the header section

`max_header_bytes` limits the header section of a request: the bytes from the request line through the
blank line.  `http_pipeline_feed` counts whole chunks, before llhttp has found the end of the section, so
what arrives in the same chunk behind the section, and blank lines in front of it, counts as well.

`Counting` says where a request stands after some chunks of its header section; the theorem compares the
answer with the length of the section itself.
-/

namespace Lamseryn

open ByteText

variable {L : Llhttp}

/-! ## The header section -/

/-- The position behind the first blank line. -/
def blankLineEnd : Bytes → Option ℕ
  | [] => none
  | b :: rest =>
    if (ascii "\r\n\r\n").isPrefixOf (b :: rest) then some 4 else (blankLineEnd rest).map (· + 1)

/-- The length of the header section of a request, from the request line through the blank line, once the
bytes hold all of it.  Line ends in front of the request line are not part of it. -/
def headerSectionLength (bytes : Bytes) : Option ℕ :=
  blankLineEnd (bytes.dropWhile fun b => b == 13 || b == 10)

lemma blankLineEnd_le {bytes : Bytes} {n : ℕ} (h : blankLineEnd bytes = some n) : n ≤ bytes.length := by
  induction bytes generalizing n with
  | nil => exact absurd h (by simp [blankLineEnd])
  | cons b rest ih =>
    rw [blankLineEnd] at h
    split_ifs at h with hblank
    · rw [← Option.some.inj h]
      exact (List.isPrefixOf_iff_prefix.mp hblank).length_le
    · obtain ⟨m, hm, rfl⟩ := Option.map_eq_some_iff.mp h
      exact Nat.succ_le_succ (ih hm)

lemma headerSectionLength_le {bytes : Bytes} {n : ℕ} (h : headerSectionLength bytes = some n) :
    n ≤ bytes.length :=
  (blankLineEnd_le h).trans (List.length_dropWhile_le _ _)

lemma blankLineEnd_append {bytes : Bytes} (h : (blankLineEnd bytes).isSome = true) (more : Bytes) :
    (blankLineEnd (bytes ++ more)).isSome = true := by
  induction bytes with
  | nil => exact absurd h (by simp [blankLineEnd])
  | cons b rest ih =>
    rw [blankLineEnd] at h
    rw [List.cons_append, blankLineEnd]
    by_cases hlater : (ascii "\r\n\r\n").isPrefixOf (b :: (rest ++ more)) = true
    · rw [if_pos hlater]
      rfl
    · have hblank : ¬ (ascii "\r\n\r\n").isPrefixOf (b :: rest) = true := by
        intro hblank
        refine hlater (List.isPrefixOf_iff_prefix.mpr ?_)
        exact (List.isPrefixOf_iff_prefix.mp hblank).trans (List.prefix_append (b :: rest) more)
      rw [if_neg hblank, Option.isSome_map] at h
      rw [if_neg hlater, Option.isSome_map]
      exact ih h

lemma headerSectionLength_append {bytes : Bytes} (h : headerSectionLength bytes ≠ none) (more : Bytes) :
    headerSectionLength (bytes ++ more) ≠ none := by
  have hsome : (blankLineEnd (bytes.dropWhile fun b => b == 13 || b == 10)).isSome = true :=
    Option.isSome_iff_ne_none.mpr h
  have hne : ¬ (bytes.dropWhile fun b => b == 13 || b == 10).isEmpty = true := by
    intro hempty
    rw [List.isEmpty_iff.mp hempty] at hsome
    exact absurd hsome (by simp [blankLineEnd])
  unfold headerSectionLength
  rw [List.dropWhile_append, if_neg hne]
  exact Option.isSome_iff_ne_none.mp (blankLineEnd_append hsome more)

/-- The state of llhttp after the chunks of a request. -/
def Llhttp.after (L : Llhttp) (chunks : List Bytes) : L.State :=
  chunks.foldl (fun st buf => (L.execute st buf).state) L.init

lemma Llhttp.after_append (L : Llhttp) (chunks : List Bytes) (buf : Bytes) :
    L.after (chunks ++ [buf]) = (L.execute (L.after chunks) buf).state :=
  List.foldl_concat _ _ _ _

/-- llhttp ends the header section behind its blank line and not before. -/
def Llhttp.Phases.EndsAtBlankLine (P : L.Phases) : Prop :=
  ∀ chunks : List Bytes, P.ended (L.after chunks) = true → headerSectionLength chunks.flatten ≠ none

/-! ## The limit flag -/

/-- The limit flag is set if the field count has set it. -/
def Http1State.BigByCount (s : Http1State) : Prop :=
  s.headerTooBig = s.headerFieldsTooMany

lemma h1ProcessHeader_bigByCount {s : Http1State} (h : s.BigByCount) :
    (h1ProcessHeader s).BigByCount := by
  have hseen : (http1HeaderFieldSeen s).BigByCount := by
    unfold http1HeaderFieldSeen
    split_ifs
    · exact h
    · exact h
    · rfl
    · exact h
  unfold h1ProcessHeader
  split_ifs
  · exact h
  · exact hseen
  · obtain ⟨hd, r, e, k, hcap⟩ := h1CaptureHeader_cases (http1HeaderFieldSeen s)
    obtain ⟨f, hframe⟩ := h1FrameHeader_cases (h1CaptureHeader (http1HeaderFieldSeen s))
    rw [hframe, hcap]
    exact hseen

/-- The rest of `on_headers_complete` leaves the flags alone. -/
lemma h1CompleteFraming_bigByCount (vh : Option Vhost) {s : Http1State} (h : s.BigByCount) :
    (h1CompleteFraming vh s).BigByCount := by
  have hbody : ∀ t : Http1State, t.BigByCount → (h1CompleteBody vh t).BigByCount := by
    intro t ht
    unfold h1CompleteBody
    dsimp only
    split_ifs <;> exact ht
  unfold h1CompleteFraming h1CompleteRequest
  dsimp only
  split_ifs
  · exact h
  · exact h
  · exact h
  · exact h
  · exact h
  · exact h
  · obtain ⟨pl, qo, ql, dec, decCap, norm, normCap, slash, r, p, e, k, d, b, heq, -⟩ :=
      h1CompleteTarget_cases s.clearPath
    rw [heq]
    cases b with
    | false => exact h
    | true =>
      apply hbody
      exact h

lemma h1FinalizeInterestedHeader_bigByCount {s : Http1State} (h : s.BigByCount) :
    (h1FinalizeInterestedHeader s).BigByCount := by
  unfold h1FinalizeInterestedHeader
  apply h1ProcessHeader_bigByCount
  exact h

lemma onHeaderField_bigByCount {s : Http1State} (h : s.BigByCount) (piece : Bytes) :
    (onHeaderField s piece).BigByCount := by
  unfold onHeaderField
  dsimp only
  split_ifs
  · exact h
  · exact h
  · exact h1FinalizeInterestedHeader_bigByCount h
  · exact h

lemma onHeadersComplete_bigByCount (vh : Option Vhost) {s : Http1State} (h : s.BigByCount)
    (method : LlhttpMethod) (keepAlive : Bool) :
    (onHeadersComplete vh s method keepAlive).BigByCount := by
  have henter : (s.enterComplete method keepAlive).BigByCount := h
  unfold onHeadersComplete
  dsimp only
  apply h1CompleteFraming_bigByCount
  split_ifs
  · exact h1FinalizeInterestedHeader_bigByCount henter
  · exact henter

lemma onUrl_bigByCount {s : Http1State} (h : s.BigByCount) (piece : Bytes) :
    (onUrl s piece).BigByCount := by
  unfold onUrl
  dsimp only
  generalize max (min (growTargetCap _ _ _) _) _ = newCap
  split_ifs
  · exact h
  · exact h
  · exact h
  · obtain ⟨b, r, hb⟩ := arenaAlloc_cases s
    rw [hb]
    cases b <;> exact h
  · exact h

lemma Callback.run_bigByCount (vh : Option Vhost) {s : Http1State} (h : s.BigByCount) (cb : Callback) :
    (cb.run vh s).1.BigByCount := by
  cases cb with
  | messageBegin => exact h
  | url piece => exact onUrl_bigByCount h piece
  | headerField piece => exact onHeaderField_bigByCount h piece
  | headerValue piece =>
    show (onHeaderValue s piece).BigByCount
    unfold onHeaderValue
    split_ifs <;> exact h
  | headersComplete method keepAlive => exact onHeadersComplete_bigByCount vh h method keepAlive
  | body piece =>
    show (onBody s piece).1.BigByCount
    unfold onBody
    dsimp only
    split_ifs <;> exact h
  | messageComplete => exact h

lemma runCallbacks_bigByCount (vh : Option Vhost) {s : Http1State} (h : s.BigByCount)
    (cbs : List Callback) : (runCallbacks vh s cbs).1.BigByCount := by
  induction cbs generalizing s with
  | nil => exact h
  | cons cb cbs ih =>
    have hcb := Callback.run_bigByCount vh h cb
    rw [runCallbacks]
    rcases hrun : cb.run vh s with ⟨s1, _ | _⟩
    · rw [hrun] at hcb
      exact ih hcb
    · rw [hrun] at hcb
      exact hcb

/-! ## Counting chunks -/

/-- The connection after some chunks of a request. -/
def feedAll (c : Conn L) (chunks : List Bytes) : Conn L :=
  (chunks.map FeedEvent.feed).foldl FeedEvent.step c

lemma feedAll_append (c : Conn L) (chunks : List Bytes) (buf : Bytes) :
    feedAll c (chunks ++ [buf]) = (httpPipelineFeed (feedAll c chunks) buf).1 := by
  rw [feedAll, List.map_append, List.foldl_append]
  rfl

/-- Where a request stands after some chunks of its header section: they were counted and parsed, or the
request was stopped for another reason, or they exceed the limit. -/
inductive Counting (c : Conn L) (chunks : List Bytes) (r : Conn L) : Prop
  | within (hparser : r.parser = L.after chunks) (hbytes : r.parserBytes = chunks.flatten.length)
      (hparse : r.h1.parseError = false) (hbig : r.h1.headerTooBig = false)
      (hcount : r.h1.BigByCount)
  | stopped (hstop : r.h1.parseError = true ∨ r.h1.headerTooBig = true) (hcount : r.h1.BigByCount)
  | exceeded (hlimit : h1MaxHeaderBytes c < chunks.flatten.length) (hparse : r.h1.parseError = false)
      (hbig : r.h1.headerTooBig = true) (hmany : r.h1.headerFieldsTooMany = false)

lemma httpPipelineFeed_of_stopped {r : Conn L} (h : r.h1.parseError = true ∨ r.h1.headerTooBig = true)
    (buf : Bytes) : (httpPipelineFeed r buf).1 = r := by
  have hstop : ¬ (r.h1.parseError = false ∧ r.h1.headerTooBig = false ∧ r.h1.unsupportedTe = false ∧
      r.h1.messageDone = false) := by
    rintro ⟨hparse, hbig, -⟩
    rcases h with h | h
    · exact absurd h (by rw [hparse]; decide)
    · exact absurd h (by rw [hbig]; decide)
  rcases httpPipelineFeed_cases r buf with
    ⟨-, hc, -, -⟩ | ⟨-, -, -, -, -, hgo⟩ | ⟨-, hgo, -⟩
  · exact hc
  · exact absurd hgo hstop
  · exact absurd hgo hstop

section Chunks

variable {c : Conn L} {chunks : List Bytes} {buf : Bytes}

/-- A chunk of a header section that is being counted exceeds the limit, or it is parsed. -/
lemma within_feed (P : L.Phases) (hends : P.EndsAtBlankLine) {r : Conn L}
    (hhead : HeadInStep (P.ended r.parser) () r.h1) (hne : buf ≠ [])
    (hnone : headerSectionLength chunks.flatten = none) (hmax : r.maxHeaderBytes = c.maxHeaderBytes)
    (hparser : r.parser = L.after chunks) (hbytes : r.parserBytes = chunks.flatten.length)
    (hparse : r.h1.parseError = false) (hbig : r.h1.headerTooBig = false) (hcount : r.h1.BigByCount) :
    (h1MaxHeaderBytes c < (chunks ++ [buf]).flatten.length ∧
      (httpPipelineFeed r buf).1.h1 = { r.h1 with headerTooBig := true }) ∨
    ((chunks ++ [buf]).flatten.length ≤ h1MaxHeaderBytes c ∧
      (httpPipelineFeed r buf).1.parser = L.after (chunks ++ [buf]) ∧
      (httpPipelineFeed r buf).1.parserBytes = (chunks ++ [buf]).flatten.length ∧
      (httpPipelineFeed r buf).1.h1.BigByCount) := by
  have hlimit : h1MaxHeaderBytes r = h1MaxHeaderBytes c := by
    unfold h1MaxHeaderBytes
    rw [hmax]
  have hlen : (chunks ++ [buf]).flatten.length = r.parserBytes + buf.length := by
    rw [hbytes, List.flatten_append, List.length_append, List.flatten_singleton]
  have hearly : P.ended r.parser = false := by
    rw [hparser]
    exact Bool.eq_false_iff.mpr fun h => hends chunks h hnone
  rw [hearly] at hhead
  obtain ⟨hdone, hte⟩ := hhead.2 rfl
  rw [hlen, ← hlimit]
  rcases httpPipelineFeed_cases r buf with
    ⟨-, -, -, hwhy⟩ | ⟨-, -, hover, hc, -⟩ | ⟨-, -, hle, hcounted, hstate, -, hh1, -⟩
  · rcases hwhy with hwhy | hwhy
    · exact absurd hwhy hne
    · exact absurd hwhy (by simp [hparse, hbig, hte, hdone])
  · exact .inl ⟨hover, by rw [hc]⟩
  · refine .inr ⟨hle hhead.1, ?_, ?_, ?_⟩
    · rw [hstate, hparser, L.after_append]
    · rw [hcounted, hhead.1]
      rfl
    · have hrun := runCallbacks_bigByCount r.vhost hcount (L.execute r.parser buf).callbacks
      rcases hh1 with hh1 | hh1
      · rw [hh1]
        exact hrun
      · rw [hh1]
        exact hrun

lemma feedAll_frame (c : Conn L) (chunks : List Bytes) :
    (feedAll c chunks).maxHeaderBytes = c.maxHeaderBytes ∧ (feedAll c chunks).draining = c.draining := by
  induction chunks using List.reverseRecOn with
  | nil => exact ⟨rfl, rfl⟩
  | append_singleton chunks buf ih =>
    have hstep := httpPipelineFeed_parse (feedAll c chunks) buf
    rw [feedAll_append]
    refine ⟨?_, hstep.draining.trans ih.2⟩
    rw [hstep]
    exact ih.1

lemma feedAll_headInStep (P : L.Phases) (hc : c.AtStart) (chunks : List Bytes) :
    HeadInStep (P.ended (feedAll c chunks).parser) () (feedAll c chunks).h1 :=
  feeds_headInStep P hc _

/-- Every chunk of a header section is counted. -/
lemma feedAll_counting (P : L.Phases) (hends : P.EndsAtBlankLine) (hc : c.AtStart)
    (hne : ∀ buf ∈ chunks, buf ≠ []) (hnone : headerSectionLength chunks.flatten = none) :
    Counting c chunks (feedAll c chunks) := by
  induction chunks using List.reverseRecOn with
  | nil =>
    refine .within hc.parser hc.parserBytes ?_ ?_ ?_
    · rw [feedAll, List.map_nil, List.foldl_nil, hc.h1]
      rfl
    · rw [feedAll, List.map_nil, List.foldl_nil, hc.h1]
      rfl
    · rw [feedAll, List.map_nil, List.foldl_nil, hc.h1]
      rfl
  | append_singleton chunks buf ih =>
    have hbefore : headerSectionLength chunks.flatten = none := by
      by_contra hsome
      rw [List.flatten_append] at hnone
      exact headerSectionLength_append hsome _ hnone
    rw [feedAll_append]
    cases ih (fun b hb => hne b (List.mem_append_left _ hb)) hbefore with
    | stopped hstop hcount =>
      rw [httpPipelineFeed_of_stopped hstop]
      exact .stopped hstop hcount
    | exceeded hlimit hparse hbig hmany =>
      rw [httpPipelineFeed_of_stopped (.inr hbig)]
      refine .exceeded (hlimit.trans_le ?_) hparse hbig hmany
      rw [List.flatten_append, List.length_append]
      exact Nat.le_add_right _ _
    | within hparser hbytes hparse hbig hcount =>
      have hlast : buf ≠ [] := hne buf (List.mem_append_right _ List.mem_cons_self)
      rcases within_feed P hends (feedAll_headInStep P hc chunks) hlast hbefore (feedAll_frame c chunks).1
        hparser hbytes hparse hbig hcount with ⟨hover, hh1⟩ | ⟨-, hparser', hbytes', hcount'⟩
      · refine .exceeded hover ?_ ?_ ?_
        · rw [hh1]
          exact hparse
        · rw [hh1]
        · rw [hh1]
          exact hcount.symm.trans hbig
      · by_cases hstop : (httpPipelineFeed (feedAll c chunks) buf).1.h1.parseError = true ∨
            (httpPipelineFeed (feedAll c chunks) buf).1.h1.headerTooBig = true
        · exact .stopped hstop hcount'
        · obtain ⟨hparse', hbig'⟩ := not_or.mp hstop
          exact .within hparser' hbytes' (Bool.eq_false_iff.mpr hparse') (Bool.eq_false_iff.mpr hbig')
            hcount'

end Chunks

/-! ## The answer -/

/-- The request is answered with 431 for the size of its header section, and not for the number of its
fields. -/
def AnsweredForSize (c : Conn L) : Prop :=
  httpPipelineBuildApplyPlan c (httpPipelineClassifyAction c) = .error ⟨.k431, false, true, false⟩ ∧
    c.h1.headerFieldsTooMany = false

/-- The request is refused for another reason: a parse error, too many fields or a failed allocation. -/
def Http1State.refusedOtherwise (s : Http1State) : Bool :=
  s.parseError || s.headerFieldsTooMany || s.internalError

lemma answeredForSize_iff {c : Conn L} (hdrain : c.draining = false) :
    AnsweredForSize c ↔ c.h1.internalError = false ∧ c.h1.headerTooBig = true ∧
      c.h1.headerFieldsTooMany = false := by
  unfold AnsweredForSize httpPipelineBuildApplyPlan
  cases hmem : c.h1.internalError with
  | true => simp
  | false =>
    cases hbig : c.h1.headerTooBig with
    | true => simp [httpPipelineClassifyAction, hbig, hdrain, httpPipelineErrorPlan]
    | false =>
      have hother : httpPipelineClassifyAction c ≠ .resp431 := by
        unfold httpPipelineClassifyAction
        rw [hbig, Bool.false_and, if_neg Bool.false_ne_true]
        split_ifs <;> nofun
      cases haction : httpPipelineClassifyAction c with
      | resp431 => exact absurd haction hother
      | _ => simp [httpPipelineErrorPlan]

/-- The answer after the chunk in which the header section ends. -/
lemma answeredForSize_feedAll (P : L.Phases) (hends : P.EndsAtBlankLine) {c : Conn L} (hc : c.AtStart)
    (hdrain : c.draining = false) {before : List Bytes} {last : Bytes} (hne : ∀ buf ∈ before ++ [last], buf ≠ [])
    (hnone : headerSectionLength before.flatten = none) :
    AnsweredForSize (feedAll c (before ++ [last])) ↔
      (feedAll c before).h1.refusedOtherwise = false ∧
        h1MaxHeaderBytes c < (before ++ [last]).flatten.length := by
  have hnb : ∀ buf ∈ before, buf ≠ [] := fun buf hb => hne buf (List.mem_append_left _ hb)
  have hlast : last ≠ [] := hne last (List.mem_append_right _ List.mem_cons_self)
  rw [answeredForSize_iff ((feedAll_frame c _).2.trans hdrain), feedAll_append]
  unfold Http1State.refusedOtherwise
  cases feedAll_counting P hends hc hnb hnone with
  | stopped hstop hcount =>
    rw [httpPipelineFeed_of_stopped hstop]
    have hmany : (feedAll c before).h1.headerTooBig = (feedAll c before).h1.headerFieldsTooMany := hcount
    rcases hstop with hstop | hstop
    · simp [hstop, hmany]
    · rw [hmany] at hstop ⊢
      simp [hstop]
  | exceeded hlimit hparse hbig hmany =>
    rw [httpPipelineFeed_of_stopped (.inr hbig)]
    have hlen : before.flatten.length ≤ (before ++ [last]).flatten.length := by
      rw [List.flatten_append, List.length_append]
      exact Nat.le_add_right _ _
    generalize (before ++ [last]).flatten.length = total at hlen ⊢
    simp [hparse, hbig, hmany, hlimit.trans_le hlen]
  | within hparser hbytes hparse hbig hcount =>
    have hmany : (feedAll c before).h1.headerFieldsTooMany = false := hcount.symm.trans hbig
    rcases within_feed P hends (feedAll_headInStep P hc before) hlast hnone (feedAll_frame c before).1
      hparser hbytes hparse hbig hcount with ⟨hlimit, hh1⟩ | ⟨hle, -, -, hcount'⟩
    · rw [hh1]
      generalize (before ++ [last]).flatten.length = total at hlimit ⊢
      simp [hparse, hmany, hlimit]
    · have hsync : (httpPipelineFeed (feedAll c before) last).1.h1.headerTooBig
          = (httpPipelineFeed (feedAll c before) last).1.h1.headerFieldsTooMany := hcount'
      rw [hsync]
      generalize (before ++ [last]).flatten.length = total at hle ⊢
      simp [hle]

/-- A parser of requests `GET /` without fields. -/
def lineParser : Llhttp where
  State := Bytes
  init := []
  execute st buf :=
    if headerSectionLength st = none ∧ headerSectionLength (st ++ buf) ≠ none then
      ⟨st ++ buf, [.url (ascii "/"), .headersComplete .get true, .messageComplete], .paused,
        (headerSectionLength (st ++ buf)).map (· - st.length)⟩
    else ⟨st ++ buf, [], if headerSectionLength st = none then .ok else .paused, none⟩

lemma lineParser_state (st buf : Bytes) : (lineParser.execute st buf).state = st ++ buf := by
  simp only [lineParser]
  split_ifs <;> rfl

/-- It ends the header section behind the blank line. -/
def lineParserPhases : lineParser.Phases where
  ended := fun st : Bytes => (headerSectionLength st).isSome
  init := by decide
  execute (st : Bytes) (buf : Bytes) := by
    rw [lineParser_state]
    simp only [lineParser]
    by_cases hend : headerSectionLength st = none ∧ headerSectionLength (st ++ buf) ≠ none
    · rw [if_pos hend, hend.1, Option.isSome_iff_ne_none.mpr hend.2]
      rfl
    · rw [if_neg hend, phaseAfter]
      by_cases hst : headerSectionLength st = none
      · have hnone : headerSectionLength (st ++ buf) = none := by
          by_contra hsome
          exact hend ⟨hst, hsome⟩
        rw [hst, hnone]
      · rw [Option.isSome_iff_ne_none.mpr hst,
          Option.isSome_iff_ne_none.mpr (headerSectionLength_append hst buf)]

lemma lineParser_after (chunks : List Bytes) : lineParser.after chunks = chunks.flatten := by
  induction chunks using List.reverseRecOn with
  | nil => rfl
  | append_singleton chunks buf ih =>
    rw [List.flatten_append, List.flatten_singleton]
    exact ((lineParser.after_append chunks buf).trans (lineParser_state _ buf)).trans
      (congrArg (fun st : Bytes => st ++ buf) ih)

lemma lineParser_ends : lineParserPhases.EndsAtBlankLine := by
  intro chunks h
  rw [lineParser_after] at h
  exact Option.isSome_iff_ne_none.mp h

/-- A connection whose header sections may have twenty bytes. -/
def twentyBytes : Conn lineParser :=
  connInit { sampleWorker lineParser with maxHeaderBytes := 20 } none false []

/-- A header section of eighteen bytes. -/
def shortSection : Bytes :=
  ascii "GET / HTTP/1.1\r\n\r\n"

end Lamseryn
