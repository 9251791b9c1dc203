import Lamseryn.Framework.Runs
import Lamseryn.Properties.FeedFrames
import Lamseryn.Properties.HeaderEnd
import Lamseryn.Properties.HeaderList
import Lamseryn.Properties.Scripted

/-!
# One request, fed in chunks

Between its start and its answer a request is a sequence of calls of `http_pipeline_feed` on one
connection.  This file says what such a call can do (`FeedCase`) and gives the invariant rule for whole
sequences (`feeds_invariant`), in which an invariant may speak about a record of the callbacks that were
made.

Of llhttp the rule uses the order of the callbacks of one message (`Llhttp.Phases`): the header section
ends once, body bytes and the end of the message come behind it.
-/

namespace Lamseryn

open ByteText

variable {L : Llhttp}

/-! ## The order of callbacks -/

/-- Whether the header section has ended after a callback, if the callback may be made where it had ended
or not. -/
def Callback.phase (ended : Bool) : Callback → Option Bool
  | .headersComplete _ _ => if ended then none else some true
  | .body _ => if ended then some true else none
  | .messageComplete => if ended then some true else none
  | _ => some ended

/-- The phase after a sequence of callbacks in order. -/
def phaseAfter : Bool → List Callback → Option Bool
  | ended, [] => some ended
  | ended, cb :: cbs => (cb.phase ended).bind fun ended => phaseAfter ended cbs

/-- llhttp makes the callbacks of one message in order: its state knows whether the header section has
ended. -/
structure Llhttp.Phases (L : Llhttp) where
  ended : L.State → Bool
  init : ended L.init = false
  execute : ∀ st buf, phaseAfter (ended st) (L.execute st buf).callbacks
    = some (ended (L.execute st buf).state)

lemma Callback.phase_of_ended {cb : Callback} {ended : Bool} (h : cb.phase true = some ended) :
    ended = true := by
  cases cb with
  | headersComplete method keepAlive => exact absurd h (by simp [Callback.phase])
  | _ => exact (Option.some.inj h).symm

lemma phaseAfter_of_ended {cbs : List Callback} {ended : Bool} (h : phaseAfter true cbs = some ended) :
    ended = true := by
  induction cbs with
  | nil => exact (Option.some.inj h).symm
  | cons cb cbs ih =>
    obtain ⟨mid, hcb, hrest⟩ := Option.bind_eq_some_iff.mp h
    rw [Callback.phase_of_ended hcb] at hrest
    exact ih hrest

lemma phaseAfter_append (ended : Bool) (xs ys : List Callback) :
    phaseAfter ended (xs ++ ys) = (phaseAfter ended xs).bind fun ended => phaseAfter ended ys := by
  induction xs generalizing ended with
  | nil => rfl
  | cons cb xs ih =>
    rw [List.cons_append, phaseAfter, phaseAfter, Option.bind_assoc]
    exact congrArg _ (funext ih)

/-- Recorded results are in order if all their callbacks are. -/
def replayPhases (results : List (List Callback × LlhttpErrno))
    (h : (phaseAfter false (results.flatMap Prod.fst)).isSome = true) : (replay results).Phases where
  ended k := (phaseAfter false ((results.take k).flatMap Prod.fst)).getD false
  init := rfl
  execute (k : ℕ) buf := by
    have hsome : ∀ n, ∃ after, phaseAfter false ((results.take n).flatMap Prod.fst) = some after := by
      intro n
      rw [← List.take_append_drop n results, List.flatMap_append, phaseAfter_append] at h
      cases hn : phaseAfter false ((results.take n).flatMap Prod.fst) with
      | none => exact absurd h (by simp [hn])
      | some after => exact ⟨after, rfl⟩
    obtain ⟨ended, hended⟩ := hsome k
    obtain ⟨after, hafter⟩ := hsome (k + 1)
    simp only [replay, hended, Option.getD_some]
    cases hr : results[k]? with
    | none => simp only [hended, phaseAfter, Option.getD_some]
    | some r =>
      simp only [hafter, Option.getD_some]
      rw [List.take_add_one, hr, Option.toList_some, List.flatMap_append, phaseAfter_append, hended]
        at hafter
      simpa using hafter

/-- Only `on_body` stops llhttp, and the header section has ended then. -/
lemma Callback.phase_of_stop {vh : Option Vhost} {s : Http1State} {cb : Callback} {ended after : Bool}
    (hphase : cb.phase ended = some after) (hstop : (cb.run vh s).2 = true) : after = true := by
  cases cb with
  | body piece =>
    change (if ended then some true else none) = some after at hphase
    split at hphase
    · exact (Option.some.inj hphase).symm
    · exact absurd hphase (by simp)
  | _ => exact absurd hstop (by simp [Callback.run])

lemma runCallbacks_stop {vh : Option Vhost} {s : Http1State} {cbs : List Callback} {ended after : Bool}
    (hphase : phaseAfter ended cbs = some after) (hstop : (runCallbacks vh s cbs).2 = true) :
    after = true := by
  induction cbs generalizing ended s with
  | nil => exact absurd hstop (by simp [runCallbacks])
  | cons cb cbs ih =>
    obtain ⟨mid, hcb, hrest⟩ := Option.bind_eq_some_iff.mp hphase
    rw [runCallbacks] at hstop
    rcases hrun : cb.run vh s with ⟨s1, _ | _⟩
    · rw [hrun] at hstop
      exact ih hrest hstop
    · rw [Callback.phase_of_stop hcb (congrArg Prod.snd hrun)] at hrest
      exact phaseAfter_of_ended hrest

/-! ## Callbacks with a record -/

section Record

variable {γ : Type*}

/-- The record `note` keeps of the callbacks that `runCallbacks` makes, each with the state it is made in. -/
def recordCallbacks (note : γ → Http1State → Callback → γ) (vh : Option Vhost) :
    γ → Http1State → List Callback → γ
  | g, _, [] => g
  | g, s, cb :: cbs =>
    match cb.run vh s with
    | (_, true) => note g s cb
    | (s1, false) => recordCallbacks note vh (note g s cb) s1 cbs

/-- What every callback keeps in its phase holds after a sequence of callbacks in order. -/
lemma runCallbacks_invariant {note : γ → Http1State → Callback → γ} {vh : Option Vhost}
    {Inv : Bool → γ → Http1State → Prop}
    (hstep : ∀ ended after g s cb, cb.phase ended = some after → Inv ended g s →
      Inv after (note g s cb) (cb.run vh s).1)
    {cbs : List Callback} {ended after : Bool} {g : γ} {s : Http1State}
    (hphase : phaseAfter ended cbs = some after) (h : Inv ended g s) :
    Inv after (recordCallbacks note vh g s cbs) (runCallbacks vh s cbs).1 := by
  induction cbs generalizing ended g s with
  | nil =>
    rw [← Option.some.inj hphase]
    exact h
  | cons cb cbs ih =>
    obtain ⟨mid, hcb, hrest⟩ := Option.bind_eq_some_iff.mp hphase
    have hmid := hstep ended mid g s cb hcb h
    rw [runCallbacks, recordCallbacks]
    rcases hrun : cb.run vh s with ⟨s1, _ | _⟩
    · rw [hrun] at hmid
      exact ih hrest hmid
    · -- llhttp stops: the callbacks behind do not change the phase
      have hmid_true : mid = true := Callback.phase_of_stop hcb (congrArg Prod.snd hrun)
      subst hmid_true
      rw [phaseAfter_of_ended hrest]
      rw [hrun] at hmid
      exact hmid

end Record

/-! ## Callbacks of a header or trailer section -/

/-- The part of the request state that decides on the body and on the end of the message. -/
structure BodyPart where
  method : LlhttpMethod
  pathNorm : Bytes
  unsupportedTe : Bool
  bodyTooBig : Bool
  bodyBytes : ℕ
  maxBodyBytes : ℕ
  headersDone : Bool
  messageDone : Bool

/-- The body part of a request state. -/
def Http1State.bodyPart (s : Http1State) : BodyPart :=
  ⟨s.method, s.pathNorm, s.unsupportedTe, s.bodyTooBig, s.bodyBytes, s.maxBodyBytes, s.headersDone,
    s.messageDone⟩

/-- From `s` to `t` nothing was decided on the body, and no error was forgotten. -/
structure Http1State.Kept (s t : Http1State) : Prop where
  bodyPart : t.bodyPart = s.bodyPart
  parseError : s.parseError = true → t.parseError = true
  internalError : s.internalError = true → t.internalError = true

lemma Http1State.Kept.refl (s : Http1State) : s.Kept s := ⟨rfl, id, id⟩

lemma onUrl_kept (s : Http1State) (piece : Bytes) : s.Kept (onUrl s piece) := by
  unfold onUrl
  dsimp only
  generalize max (min (growTargetCap _ _ _) _) _ = newCap
  split_ifs
  · exact .refl s
  · exact .refl s
  · exact ⟨rfl, fun _ => rfl, id⟩
  · obtain ⟨b, r, hb⟩ := arenaAlloc_cases s
    rw [hb]
    cases b with
    | false => exact ⟨rfl, id, fun _ => rfl⟩
    | true => exact ⟨rfl, id, id⟩
  · exact ⟨rfl, id, id⟩

lemma h1FinalizeInterestedHeader_kept (s : Http1State) : s.Kept (h1FinalizeInterestedHeader s) := by
  unfold h1FinalizeInterestedHeader
  generalize hs : ({ s with
    finalized := s.finalized ++ [⟨s.acc.hdrName, s.acc.hdrValRaw, s.acc.hdrValRawTruncated⟩] } :
      Http1State) = t
  have hst : s.Kept t := by
    rw [← hs]
    exact ⟨rfl, id, id⟩
  by_cases herr : t.internalError = true
  · rw [h1ProcessHeader, if_pos herr]
    exact hst
  · obtain ⟨n, b, tm, h, r, e, k, fr, heq, -⟩ := h1ProcessHeader_cases t
    rw [heq]
    refine ⟨hst.bodyPart, hst.parseError, fun h => ?_⟩
    exact absurd (hst.internalError h) herr

lemma onHeaderField_kept (s : Http1State) (piece : Bytes) : s.Kept (onHeaderField s piece) := by
  have hfinal := h1FinalizeInterestedHeader_kept s
  unfold onHeaderField
  dsimp only
  split_ifs
  · exact .refl s
  · exact .refl s
  · exact ⟨hfinal.bodyPart, hfinal.parseError, hfinal.internalError⟩
  · exact ⟨rfl, id, id⟩

lemma onHeaderValue_kept (s : Http1State) (piece : Bytes) : s.Kept (onHeaderValue s piece) := by
  unfold onHeaderValue
  split_ifs
  · exact .refl s
  · exact .refl s
  · exact ⟨rfl, id, id⟩

/-! ## Rejected requests -/

/-- The request carries a mark for which it is answered with an error. -/
def Http1State.Rejected (s : Http1State) : Prop :=
  s.parseError = true ∨ s.unsupportedTe = true ∨ s.bodyTooBig = true

lemma Http1State.Kept.rejected {s t : Http1State} (hst : s.Kept t) (h : s.Rejected) : t.Rejected := by
  rcases h with h | h | h
  · exact .inl (hst.parseError h)
  · exact .inr (.inl ((congrArg BodyPart.unsupportedTe hst.bodyPart).trans h))
  · exact .inr (.inr ((congrArg BodyPart.bodyTooBig hst.bodyPart).trans h))

lemma Http1State.Rejected.onBody {s : Http1State} (h : s.Rejected) (piece : Bytes) :
    (onBody s piece).1.Rejected := by
  unfold Lamseryn.onBody
  dsimp only
  split_ifs
  · exact h
  · exact .inr (.inr rfl)
  · exact .inr (.inr rfl)
  · exact h

lemma Callback.run_rejected (vh : Option Vhost) {ended after : Bool} {s : Http1State} {cb : Callback}
    (hphase : cb.phase ended = some after) (h : ended = true ∧ s.Rejected) :
    after = true ∧ (cb.run vh s).1.Rejected := by
  obtain ⟨rfl, hrej⟩ := h
  refine ⟨Callback.phase_of_ended hphase, ?_⟩
  cases cb with
  | messageBegin => exact hrej
  | url piece => exact (onUrl_kept s piece).rejected hrej
  | headerField piece => exact (onHeaderField_kept s piece).rejected hrej
  | headerValue piece => exact (onHeaderValue_kept s piece).rejected hrej
  | headersComplete method keepAlive => exact absurd hphase (by simp [Callback.phase])
  | body piece => exact hrej.onBody piece
  | messageComplete => exact hrej

lemma classify_of_rejected {c : Conn L} (h : c.h1.Rejected) :
    httpPipelineClassifyAction c ≠ .respOk ∧ httpPipelineClassifyAction c ≠ .continue := by
  unfold httpPipelineClassifyAction
  split_ifs with hbig hte hbody hparse hdone
  · exact ⟨nofun, nofun⟩
  · exact ⟨nofun, nofun⟩
  · exact ⟨nofun, nofun⟩
  · exact ⟨nofun, nofun⟩
  all_goals
    rcases h with h | h | h
    · exact absurd h hparse
    · exact absurd h hte
    · exact absurd h hbody

/-! ## The end of the header section -/

/-- How `on_headers_complete` leaves a request for its body, where `limit` is the limit of the
connection. -/
inductive HeadVerdict (vh : Option Vhost) (limit : ℕ) (r : Http1State) : Prop
  /-- Nothing is decided on the body. -/
  | refused (h : r.parseError = true ∨ r.unsupportedTe = true ∨ r.internalError = true ∨
      (r.method ≠ .get ∧ r.method ≠ .head))
  /-- The limit of the body is fixed, and an announced length is compared with it. -/
  | limited (hmax : r.maxBodyBytes = bodyLimit vh limit r.pathNorm) (hbytes : r.bodyBytes = 0)
      (hbig : r.framing.clCount = 1 → r.maxBodyBytes < r.framing.clValue → r.bodyTooBig = true)

lemma h1CompleteBody_verdict (vh : Option Vhost) (s : Http1State) (hbytes : s.bodyBytes = 0) :
    (h1CompleteBody vh s).headersDone = s.headersDone ∧
      HeadVerdict vh (h1CurrentMaxBodyBytes s) (h1CompleteBody vh s) := by
  unfold h1CompleteBody
  dsimp only
  rw [h1ResolveMaxBodyBytes_eq]
  split_ifs with hcl hbig hte
  · exact ⟨rfl, .limited rfl hbytes fun _ _ => rfl⟩
  · exact ⟨rfl, .limited rfl hbytes fun _ h => absurd h hbig⟩
  · exact ⟨rfl, .limited rfl hbytes fun h => absurd h hcl⟩
  · exact ⟨rfl, .limited rfl hbytes fun h => absurd h hcl⟩

lemma h1CompleteRequest_verdict (vh : Option Vhost) (s : Http1State) (hbytes : s.bodyBytes = 0) :
    (h1CompleteRequest vh s).headersDone = s.headersDone ∧
      HeadVerdict vh (h1CurrentMaxBodyBytes s) (h1CompleteRequest vh s) := by
  unfold h1CompleteRequest
  dsimp only
  split_ifs with hmethod herr
  · exact ⟨rfl, .refused (.inr (.inr (.inr hmethod)))⟩
  · exact ⟨rfl, .refused (.inr (.inr (.inl herr)))⟩
  · obtain ⟨pl, qo, ql, dec, decCap, norm, normCap, slash, r, p, e, k, d, b, heq, -, hbad⟩ :=
      h1CompleteTarget_cases s.clearPath
    rw [heq]
    cases b with
    | true => exact h1CompleteBody_verdict vh _ hbytes
    | false =>
      refine ⟨rfl, .refused ?_⟩
      rcases (hbad rfl).1 with hp | he
      · exact .inl hp
      · exact .inr (.inr (.inl he))

lemma h1CompleteFraming_verdict (vh : Option Vhost) (s : Http1State) (hbytes : s.bodyBytes = 0) :
    (h1CompleteFraming vh s).headersDone = s.headersDone ∧
      HeadVerdict vh (h1CurrentMaxBodyBytes s) (h1CompleteFraming vh s) := by
  unfold h1CompleteFraming
  dsimp only
  split_ifs
  · exact ⟨rfl, .refused (.inl rfl)⟩
  · exact ⟨rfl, .refused (.inl rfl)⟩
  · exact ⟨rfl, .refused (.inl rfl)⟩
  · exact ⟨rfl, .refused (.inr (.inl rfl))⟩
  · exact h1CompleteRequest_verdict vh s hbytes

lemma h1CurrentMaxBodyBytes_clearBody (s : Http1State) :
    h1CurrentMaxBodyBytes s.clearBody = h1CurrentMaxBodyBytes s := by
  show (if 0 < h1CurrentMaxBodyBytes s then h1CurrentMaxBodyBytes s else defaultMaxBodyBytes) = _
  rw [if_pos (h1CurrentMaxBodyBytes_pos s)]

/-- What `on_headers_complete` decides. -/
lemma onHeadersComplete_verdict (vh : Option Vhost) (s : Http1State) (method : LlhttpMethod)
    (keepAlive : Bool) :
    (onHeadersComplete vh s method keepAlive).headersDone = true ∧
      HeadVerdict vh (h1CurrentMaxBodyBytes s) (onHeadersComplete vh s method keepAlive) := by
  unfold onHeadersComplete
  dsimp only
  generalize ht : (if (s.enterComplete method keepAlive).acc.hdrState = .value then
    h1FinalizeInterestedHeader (s.enterComplete method keepAlive)
      else s.enterComplete method keepAlive) = t
  have hpart : t.bodyPart = (s.enterComplete method keepAlive).bodyPart := by
    rw [← ht]
    split_ifs
    · exact (h1FinalizeInterestedHeader_kept _).bodyPart
    · rfl
  have hmax : t.maxBodyBytes = s.maxBodyBytes := congrArg BodyPart.maxBodyBytes hpart
  obtain ⟨hdone, hverdict⟩ := h1CompleteFraming_verdict vh t.clearBody rfl
  refine ⟨hdone.trans (congrArg BodyPart.headersDone hpart), ?_⟩
  have hlimit : h1CurrentMaxBodyBytes t = h1CurrentMaxBodyBytes s := by
    unfold h1CurrentMaxBodyBytes
    rw [hmax]
  rwa [h1CurrentMaxBodyBytes_clearBody, hlimit] at hverdict

/-! ## What one feed can do -/

/-- An error that llhttp reports, as `http_pipeline_feed` tells it. -/
def LlhttpErrno.isError (err : LlhttpErrno) : Bool :=
  err != .ok && err != .paused

/-- The callbacks that `http_pipeline_feed` lets llhttp make. -/
def feedCalls (c : Conn L) (buf : Bytes) : List Callback :=
  if buf = [] then []
  else if c.h1.parseError || c.h1.headerTooBig || c.h1.unsupportedTe || c.h1.messageDone then []
  else if (countHeaderBytes c buf.length).h1.headerTooBig then []
  else (L.execute c.parser buf).callbacks

/-- What a call of `http_pipeline_feed` does. -/
inductive FeedCase (c : Conn L) (buf : Bytes) (c' : Conn L) (err : LlhttpErrno) : Prop
  /-- The bytes are not looked at. -/
  | skipped (hcalls : feedCalls c buf = []) (hc : c' = c) (herr : err = .ok)
      (hwhy : buf = [] ∨ (c.h1.parseError || c.h1.headerTooBig || c.h1.unsupportedTe
        || c.h1.messageDone) = true)
  /-- The bytes exceed the limit of the header section. -/
  | tooBig (hcalls : feedCalls c buf = []) (hhead : c.h1.headersDone = false)
      (hbig : h1MaxHeaderBytes c < c.parserBytes + buf.length)
      (hc : c' = { c with
        parserBytes := c.parserBytes + buf.length
        h1 := { c.h1 with headerTooBig := true } })
      (herr : err = .ok)
      (hgo : c.h1.parseError = false ∧ c.h1.headerTooBig = false ∧ c.h1.unsupportedTe = false ∧
        c.h1.messageDone = false)
  /-- llhttp parses the bytes. -/
  | parsed (hcalls : feedCalls c buf = (L.execute c.parser buf).callbacks)
      (hgo : c.h1.parseError = false ∧ c.h1.headerTooBig = false ∧ c.h1.unsupportedTe = false ∧
        c.h1.messageDone = false)
      (hcount : c.h1.headersDone = false → c.parserBytes + buf.length ≤ h1MaxHeaderBytes c)
      (hbytes : c'.parserBytes
        = if c.h1.headersDone then c.parserBytes else c.parserBytes + buf.length)
      (hparser : c'.parser = (L.execute c.parser buf).state)
      (herr : err = if (runCallbacks c.vhost c.h1 (L.execute c.parser buf).callbacks).2 then .other
        else (L.execute c.parser buf).err)
      (hh1 : c'.h1 = (runCallbacks c.vhost c.h1 (L.execute c.parser buf).callbacks).1 ∨
        c'.h1 = { (runCallbacks c.vhost c.h1 (L.execute c.parser buf).callbacks).1 with
          parseError := true })
      (hbad : err.isError = true → c'.h1.parseError = true ∨ c'.h1.bodyTooBig = true ∨
        c'.h1.headersDone = false)
      (hvhost : c'.vhost = c.vhost) (hdraining : c'.draining = c.draining)
      (hmax : c'.maxHeaderBytes = c.maxHeaderBytes)

lemma llhttpShouldTolerate_cases (c : Conn L) (err : LlhttpErrno) (buf : Bytes) :
    ∃ b p, llhttpShouldTolerate c err buf = (b, { c with pendingLineError := p }) ∧
      (b = true → c.h1.headersDone = false) := by
  unfold llhttpShouldTolerate
  split_ifs with hdone hpending
  · exact ⟨false, c.pendingLineError, rfl, nofun⟩
  all_goals
    have hearly : c.h1.headersDone = false := by simpa using hdone
    cases err <;> exact ⟨_, _, rfl, fun _ => hearly⟩

/-- The reaction to an error: it is a parse error, or the body was too big already, or it is tolerated,
which happens before the end of the header section only. -/
lemma httpParserError_cases (c : Conn L) (err : LlhttpErrno) (buf : Bytes) :
    ∃ p, (httpParserError c err buf = { c with pendingLineError := p } ∧
        (err.isError = true → c.h1.bodyTooBig = true ∨ c.h1.headersDone = false)) ∨
      httpParserError c err buf =
        { c with pendingLineError := p, h1 := { c.h1 with parseError := true } } := by
  unfold httpParserError
  split_ifs with herr
  · refine ⟨c.pendingLineError, .inl ⟨rfl, fun hbad => ?_⟩⟩
    rcases herr with rfl | rfl
    · exact absurd hbad (by decide)
    · exact absurd hbad (by decide)
  · obtain ⟨b, p, htol, hearly⟩ := llhttpShouldTolerate_cases c err buf
    rw [htol]
    cases b with
    | true => exact ⟨p, .inl ⟨rfl, fun _ => .inr (hearly rfl)⟩⟩
    | false =>
      dsimp only
      split_ifs with hbig
      · exact ⟨p, .inl ⟨rfl, fun _ => .inl hbig⟩⟩
      · exact ⟨p, .inr rfl⟩

lemma clearPendingLine_cases (before c : Conn L) :
    ∃ p, clearPendingLine before c = { c with pendingLineError := p } := by
  unfold clearPendingLine
  split_ifs
  · exact ⟨false, rfl⟩
  · exact ⟨c.pendingLineError, rfl⟩

lemma countHeaderBytes_eq (c : Conn L) (n : ℕ) :
    countHeaderBytes c n =
      if c.h1.headersDone = true then c
      else if h1MaxHeaderBytes c < c.parserBytes + n then
        { c with parserBytes := c.parserBytes + n, h1 := { c.h1 with headerTooBig := true } }
      else { c with parserBytes := c.parserBytes + n } := by
  rfl

/-- A call of `http_pipeline_feed` does one of three things. -/
lemma httpPipelineFeed_cases (c : Conn L) (buf : Bytes) :
    FeedCase c buf (httpPipelineFeed c buf).1 (httpPipelineFeed c buf).2.1 := by
  unfold httpPipelineFeed
  by_cases hnil : buf = []
  · rw [if_pos hnil]
    exact .skipped (by rw [feedCalls, if_pos hnil]) rfl rfl (.inl hnil)
  by_cases hstop : (c.h1.parseError || c.h1.headerTooBig || c.h1.unsupportedTe || c.h1.messageDone) = true
  · rw [if_neg hnil, if_pos hstop]
    exact .skipped (by rw [feedCalls, if_neg hnil, if_pos hstop]) rfl rfl (.inr hstop)
  rw [if_neg hnil, if_neg hstop]
  have hflags : c.h1.parseError = false ∧ c.h1.headerTooBig = false ∧ c.h1.unsupportedTe = false ∧
      c.h1.messageDone = false := by
    simpa [and_assoc] using hstop
  have hbig := hflags.2.1
  by_cases hover : c.h1.headersDone = false ∧ h1MaxHeaderBytes c < c.parserBytes + buf.length
  · obtain ⟨hhead, hover⟩ := hover
    have hcount : countHeaderBytes c buf.length =
        { c with
          parserBytes := c.parserBytes + buf.length
          h1 := { c.h1 with headerTooBig := true } } := by
      rw [countHeaderBytes_eq, if_neg (by simp [hhead]), if_pos hover]
    rw [hcount]
    refine .tooBig ?_ hhead hover ?_ rfl hflags
    · rw [feedCalls, if_neg hnil, if_neg hstop, hcount, if_pos rfl]
    · show clearPendingLine c _ = _
      rw [clearPendingLine, if_neg (by simp [hhead])]
  · obtain ⟨p, hp, hcount⟩ : ∃ p, p = (if c.h1.headersDone = true then c.parserBytes
        else c.parserBytes + buf.length) ∧
        countHeaderBytes c buf.length = { c with parserBytes := p } := by
      by_cases hhead : c.h1.headersDone = true
      · exact ⟨c.parserBytes, (if_pos hhead).symm, by rw [countHeaderBytes_eq, if_pos hhead]⟩
      · refine ⟨_, (if_neg hhead).symm, ?_⟩
        rw [countHeaderBytes_eq, if_neg hhead, if_neg fun h => hover ⟨by simpa using hhead, h⟩]
    have hgo : ¬ (({ c with parserBytes := p } : Conn L).h1.headerTooBig = true) := by
      exact ne_true_of_eq_false hbig
    rw [hcount]
    dsimp only
    rw [if_neg hgo]
    obtain ⟨q, hq⟩ := httpParserError_cases (httpParserFeed { c with parserBytes := p } buf).1
      (httpParserFeed { c with parserBytes := p } buf).2.1 buf
    obtain ⟨q', hq'⟩ := clearPendingLine_cases c
      (httpParserError (httpParserFeed { c with parserBytes := p } buf).1
        (httpParserFeed { c with parserBytes := p } buf).2.1 buf)
    have hcalls : feedCalls c buf = (L.execute c.parser buf).callbacks := by
      rw [feedCalls, if_neg hnil, if_neg hstop, hcount, if_neg hgo]
    have hwithin : c.h1.headersDone = false → c.parserBytes + buf.length ≤ h1MaxHeaderBytes c :=
      fun hhead => not_lt.mp fun h => hover ⟨hhead, h⟩
    rw [hq']
    rcases hq with ⟨heq, hearly⟩ | heq
    · rw [heq]
      exact .parsed hcalls hflags hwithin hp rfl rfl (.inl rfl) (fun h => .inr (hearly h)) rfl rfl rfl
    · rw [heq]
      exact .parsed hcalls hflags hwithin hp rfl rfl (.inr rfl) (fun _ => .inl rfl) rfl rfl rfl

/-! ## The events of a request -/

/-- What happens to the parsing of a request: a chunk is fed, the read path counts bytes of a body as
read, the connection starts or stops draining. -/
inductive FeedEvent where
  | feed (buf : Bytes)
  | bodyTaken (n : ℕ)
  | draining (on : Bool)

/-- The connection after an event. -/
def FeedEvent.step (c : Conn L) : FeedEvent → Conn L
  | .feed buf => (httpPipelineFeed c buf).1
  | .bodyTaken n => { c with h1 := { c.h1 with bodyRemaining := c.h1.bodyRemaining - n } }
  | .draining on => { c with draining := on }

/-- The callbacks that llhttp makes in an event. -/
def FeedEvent.calls (c : Conn L) : FeedEvent → List Callback
  | .feed buf => feedCalls c buf
  | _ => []

lemma rxStages_events (c : Conn L) (buf : Bytes) :
    ∃ es : List FeedEvent, (rxStages c buf).1 = es.foldl FeedEvent.step c := by
  have hhead : ∃ es : List FeedEvent, (feedHead c buf).1 = es.foldl FeedEvent.step c := by
    unfold feedHead
    split_ifs
    · exact ⟨[.feed buf], rfl⟩
    · exact ⟨[], rfl⟩
  have hbody : ∀ (c : Conn L) (buf : Bytes), ∃ es : List FeedEvent,
      (feedBody c buf).1 = es.foldl FeedEvent.step c := by
    intro c buf
    unfold feedBody
    dsimp only
    split_ifs
    · exact ⟨[.feed buf], rfl⟩
    · exact ⟨[], rfl⟩
    · exact ⟨[.feed _, .bodyTaken _], rfl⟩
    · exact ⟨[], rfl⟩
  obtain ⟨es, hes⟩ := hhead
  obtain ⟨es', hes'⟩ := hbody (feedHead c buf).1 (buf.drop (feedHead c buf).2)
  refine ⟨es ++ es', ?_⟩
  rw [List.foldl_append, ← hes, ← hes']
  rfl

/-- The state in which `conn_init` and `conn_reset_request` leave the parsing of a request. -/
structure Conn.AtStart (c : Conn L) : Prop where
  h1 : c.h1 = c.h1.reset c.h1.maxBodyBytes
  parser : c.parser = L.init
  parserBytes : c.parserBytes = 0
  pendingLineError : c.pendingLineError = false

lemma connInit_atStart (w : Worker L) (vhost : Option Vhost) (tls : Bool) (arena : List Bool) :
    (connInit w vhost tls arena).AtStart :=
  ⟨rfl, rfl, rfl, rfl⟩

lemma connResetRequest_atStart (w : Worker L) (l : Loop L) : (connResetRequest w l).conn.AtStart :=
  ⟨rfl, rfl, rfl, rfl⟩

/-! ## The invariant rule -/

section Rule

variable {γ : Type*}

/-- A connection and the record of the callbacks made, after an event. -/
def feedStep (note : γ → Http1State → Callback → γ) (r : Conn L × γ) (e : FeedEvent) : Conn L × γ :=
  (e.step r.1, recordCallbacks note r.1.vhost r.2 r.1.h1 (e.calls r.1))

lemma foldl_feedStep_fst (note : γ → Http1State → Callback → γ) (r : Conn L × γ)
    (es : List FeedEvent) : (es.foldl (feedStep note) r).1 = es.foldl FeedEvent.step r.1 := by
  induction es generalizing r with
  | nil => rfl
  | cons e es ih => rw [List.foldl_cons, ih, List.foldl_cons, feedStep]

lemma FeedEvent.step_vhost (c : Conn L) (e : FeedEvent) : (e.step c).vhost = c.vhost := by
  cases e with
  | feed buf => exact (httpPipelineFeed_parse c buf).vhost
  | bodyTaken n => rfl
  | draining on => rfl

/-- The marks that a feed and the read path put on a request outside the callbacks. -/
def Http1State.Marked (s t : Http1State) : Prop :=
  t = { s with headerTooBig := true } ∨ t = { s with parseError := true } ∨
    ∃ n, t = { s with bodyRemaining := n }

lemma Http1State.Marked.kept {s t : Http1State} (h : s.Marked t) : s.Kept t := by
  rcases h with rfl | rfl | ⟨n, rfl⟩
  · exact ⟨rfl, id, id⟩
  · exact ⟨rfl, fun _ => rfl, id⟩
  · exact ⟨rfl, id, id⟩

/-- What every callback keeps in its phase and every mark keeps holds after an event. -/
lemma feedStep_invariant (P : L.Phases) (note : γ → Http1State → Callback → γ)
    (Inv : Bool → γ → Http1State → Prop) {r : Conn L × γ}
    (hcall : ∀ ended after g s cb, Callback.phase ended cb = some after → Inv ended g s →
      Inv after (note g s cb) (cb.run r.1.vhost s).1)
    (hmark : ∀ ended g s t, Http1State.Marked s t → Inv ended g s → Inv ended g t)
    (h : Inv (P.ended r.1.parser) r.2 r.1.h1) (e : FeedEvent) :
    Inv (P.ended (feedStep note r e).1.parser) (feedStep note r e).2 (feedStep note r e).1.h1 := by
  cases e with
  | bodyTaken n => exact hmark _ _ _ _ (.inr (.inr ⟨_, rfl⟩)) h
  | draining on => exact h
  | feed buf =>
    show Inv (P.ended (httpPipelineFeed r.1 buf).1.parser)
      (recordCallbacks note r.1.vhost r.2 r.1.h1 (feedCalls r.1 buf)) (httpPipelineFeed r.1 buf).1.h1
    rcases httpPipelineFeed_cases r.1 buf with
      ⟨hcalls, hc, -, -⟩ | ⟨hcalls, -, -, hc, -⟩ | ⟨hcalls, -, -, -, hparser, -, hh1, -⟩
    · rw [hcalls, hc]
      exact h
    · rw [hcalls, hc]
      exact hmark _ _ _ _ (.inl rfl) h
    · have hrun := runCallbacks_invariant hcall (P.execute r.1.parser buf) h
      rw [hcalls, hparser]
      rcases hh1 with hh1 | hh1
      · rw [hh1]
        exact hrun
      · rw [hh1]
        exact hmark _ _ _ _ (.inr (.inl rfl)) hrun

lemma feeds_invariant (P : L.Phases) (note : γ → Http1State → Callback → γ)
    (Inv : Bool → γ → Http1State → Prop) {vh : Option Vhost}
    (hcall : ∀ ended after g s cb, Callback.phase ended cb = some after → Inv ended g s →
      Inv after (note g s cb) (cb.run vh s).1)
    (hmark : ∀ ended g s t, Http1State.Marked s t → Inv ended g s → Inv ended g t)
    {r : Conn L × γ} (hvh : r.1.vhost = vh) (h : Inv (P.ended r.1.parser) r.2 r.1.h1)
    (es : List FeedEvent) :
    Inv (P.ended (es.foldl (feedStep note) r).1.parser) (es.foldl (feedStep note) r).2
      (es.foldl (feedStep note) r).1.h1 := by
  induction es generalizing r with
  | nil => exact h
  | cons e es ih =>
    rw [List.foldl_cons]
    exact ih ((FeedEvent.step_vhost r.1 e).trans hvh)
      (feedStep_invariant P note Inv (by rw [hvh]; exact hcall) hmark h e)

lemma feeds_rejected (P : L.Phases) {c : Conn L} (hended : P.ended c.parser = true)
    (h : c.h1.Rejected) (es : List FeedEvent) :
    P.ended (es.foldl FeedEvent.step c).parser = true ∧ (es.foldl FeedEvent.step c).h1.Rejected := by
  have hrun := feeds_invariant P (fun _ _ _ => ()) (fun ended _ s => ended = true ∧ s.Rejected)
    (fun _ _ _ _ _ hphase => Callback.run_rejected c.vhost hphase)
    (fun _ _ _ _ hmark h => ⟨h.1, hmark.kept.rejected h.2⟩) (r := (c, ())) rfl ⟨hended, h⟩ es
  rwa [foldl_feedStep_fst] at hrun

end Rule

/-! ## Before the end of the header section -/

/-- The request knows as llhttp does whether the header section has ended, and before that nothing is
decided on the message. -/
def HeadInStep (ended : Bool) (_ : Unit) (s : Http1State) : Prop :=
  s.headersDone = ended ∧ (ended = false → s.messageDone = false ∧ s.unsupportedTe = false)

lemma HeadInStep.of_kept {ended : Bool} {s t : Http1State} (h : HeadInStep ended () s)
    (hst : s.Kept t) : HeadInStep ended () t := by
  obtain ⟨hhead, hdone⟩ := h
  exact ⟨(congrArg BodyPart.headersDone hst.bodyPart).trans hhead,
    fun he => ⟨(congrArg BodyPart.messageDone hst.bodyPart).trans (hdone he).1,
      (congrArg BodyPart.unsupportedTe hst.bodyPart).trans (hdone he).2⟩⟩

lemma onBody_headersDone (s : Http1State) (piece : Bytes) :
    (onBody s piece).1.headersDone = s.headersDone := by
  unfold onBody
  dsimp only
  split_ifs <;> rfl

lemma Callback.run_headInStep (vh : Option Vhost) {ended after : Bool} {s : Http1State} {cb : Callback}
    (hphase : cb.phase ended = some after) (h : HeadInStep ended () s) :
    HeadInStep after () (cb.run vh s).1 := by
  cases cb with
  | messageBegin =>
    cases hphase
    exact h
  | url piece =>
    cases hphase
    exact h.of_kept (onUrl_kept s piece)
  | headerField piece =>
    cases hphase
    exact h.of_kept (onHeaderField_kept s piece)
  | headerValue piece =>
    cases hphase
    exact h.of_kept (onHeaderValue_kept s piece)
  | headersComplete method keepAlive =>
    cases ended with
    | true => exact absurd hphase (by simp [Callback.phase])
    | false =>
      cases hphase
      exact ⟨(onHeadersComplete_verdict vh s method keepAlive).1, nofun⟩
  | body piece =>
    cases ended with
    | false => exact absurd hphase (by simp [Callback.phase])
    | true =>
      cases hphase
      exact ⟨(onBody_headersDone s piece).trans h.1, nofun⟩
  | messageComplete =>
    cases ended with
    | false => exact absurd hphase (by simp [Callback.phase])
    | true =>
      cases hphase
      exact ⟨h.1, nofun⟩

lemma feeds_headInStep (P : L.Phases) {c : Conn L} (hc : c.AtStart) (es : List FeedEvent) :
    HeadInStep (P.ended (es.foldl FeedEvent.step c).parser) () (es.foldl FeedEvent.step c).h1 := by
  have hstart : HeadInStep (P.ended c.parser) () c.h1 := by
    rw [hc.parser, P.init, hc.h1]
    exact ⟨rfl, fun _ => ⟨rfl, rfl⟩⟩
  have hrun := feeds_invariant P (fun _ _ _ => ()) HeadInStep
    (fun _ _ _ _ _ hphase => Callback.run_headInStep c.vhost hphase)
    (fun _ _ _ _ hmark h => h.of_kept hmark.kept) (r := (c, ())) rfl hstart es
  rwa [foldl_feedStep_fst] at hrun

end Lamseryn
