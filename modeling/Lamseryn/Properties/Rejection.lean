import Lamseryn.Properties.HeaderList
import Lamseryn.Properties.LoopFrames
import Lamseryn.Properties.Scripted

/-!
# A rejected request is never dispatched

Once an error response is staged for a request of a plain connection, no later received chunk may
lead to another answer for it.  Every error response but 431 closes the connection, and a closing
connection does nothing any more (`step_of_closed`).  After a 431 the connection drains: the
limit flag keeps every later byte away from the parser, so the other flags stay as the rejected
chunk left them.  If that chunk left nothing else to be answered, nothing else is answered
(`rejectedOnce_of_quiet`); the field limit, unlike the byte limit, is noticed in the middle of a
chunk, and then the rest of the chunk is parsed as well.
-/

namespace Lamseryn

open ByteText FieldAssembly GuardedRun

variable {L : Llhttp}

/-! ## Rejections and answers in the log -/

/-- The response kinds of `http_pipeline_error_plan` and `http_pipeline_internal_error_plan`. -/
def errorKinds : List RespKind :=
  [.k400, .k413, .k431, .k500, .k501]

/-- The entry stages an error response. -/
def LogEntry.isRejection : LogEntry → Bool
  | .staged _ kind => errorKinds.contains kind
  | _ => false

/-- The entry answers its request: a `RESP_OK`, a dispatch or a staged response. -/
def LogEntry.isAnswer : LogEntry → Bool
  | .applied _ a => a == .respOk
  | _ => true

/-- No request is answered again after an error response for it. -/
def RejectedOnce (log : List LogEntry) : Prop :=
  log.Pairwise fun e e' => e.isRejection = true → e'.isAnswer = true → e'.reqNo ≠ e.reqNo

instance (log : List LogEntry) : Decidable (RejectedOnce log) :=
  inferInstanceAs (Decidable (List.Pairwise _ log))

/-- No error response has been staged for the request. -/
def Unrejected (log : List LogEntry) (n : ℕ) : Prop :=
  ∀ e ∈ log, e.isRejection = true → e.reqNo ≠ n

lemma RejectedOnce.append_applied {log : List LogEntry} {n : ℕ} {a : HttpAction}
    (h : RejectedOnce log) (ha : a ≠ .respOk) : RejectedOnce (log ++ [.applied n a]) := by
  refine List.pairwise_append.mpr ⟨h, List.pairwise_singleton _ _, ?_⟩
  intro e _ e' he' _ hans
  rw [List.mem_singleton.mp he'] at hans
  exact absurd (beq_iff_eq.mp hans) ha

lemma Unrejected.append_applied {log : List LogEntry} {n : ℕ} (a : HttpAction)
    (h : Unrejected log n) : Unrejected (log ++ [.applied n a]) n := by
  intro e he hrej
  rcases List.mem_append.mp he with he | he
  · exact h e he hrej
  · rw [List.mem_singleton.mp he] at hrej
    exact absurd hrej (by simp [LogEntry.isRejection])

lemma RejectedOnce.append_action {log tail : List LogEntry} {n : ℕ} (h : RejectedOnce log)
    (hn : Unrejected log n) (a : HttpAction) (htail : ActionTail n tail) :
    RejectedOnce (log ++ .applied n a :: tail) := by
  refine List.pairwise_append.mpr ⟨h, ?_, ?_⟩
  · rcases htail with rfl | ⟨kind, rfl⟩ | ⟨kind, taken, h1, rfl⟩ <;> simp [LogEntry.isRejection]
  · intro e he e' he' hrej _
    rw [htail.reqNo a e' he']
    exact (hn e he hrej).symm

/-! ## Chunks that exceed the field limit -/

/-- What the callbacks of a header or trailer section leave alone: the flags that the
classification reads, but for the limit flag, and the target. -/
structure AnswerPart where
  parseError : Bool
  unsupportedTe : Bool
  bodyTooBig : Bool
  messageDone : Bool
  headersDone : Bool

/-- The answer part of a request state. -/
def Http1State.answerPart (s : Http1State) : AnswerPart :=
  ⟨s.parseError, s.unsupportedTe, s.bodyTooBig, s.messageDone, s.headersDone⟩

/-- Nothing but the field limit can be answered. -/
structure Http1State.Unanswered (s : Http1State) : Prop where
  parseError : s.parseError = false
  unsupportedTe : s.unsupportedTe = false
  bodyTooBig : s.bodyTooBig = false
  messageDone : s.messageDone = false

lemma Http1State.Unanswered.of_answerPart {s t : Http1State} (h : s.Unanswered)
    (ht : t.answerPart = s.answerPart) : t.Unanswered :=
  ⟨(congrArg AnswerPart.parseError ht).trans h.parseError,
    (congrArg AnswerPart.unsupportedTe ht).trans h.unsupportedTe,
    (congrArg AnswerPart.bodyTooBig ht).trans h.bodyTooBig,
    (congrArg AnswerPart.messageDone ht).trans h.messageDone⟩

/-- The callback ends the header section or the message. -/
def Callback.endsSection : Callback → Bool
  | .headersComplete _ _ => true
  | .messageComplete => true
  | _ => false

/-- The bytes a callback adds to the target. -/
def Callback.urlLength : Callback → ℕ
  | .url piece => piece.length
  | _ => 0

lemma onUrl_answerPart (s : Http1State) (piece : Bytes)
    (h : s.target.length + piece.length ≤ reqTargetMax) :
    (onUrl s piece).answerPart = s.answerPart ∧
      (onUrl s piece).target.length ≤ s.target.length + piece.length := by
  unfold onUrl
  dsimp only
  generalize max (min (growTargetCap _ _ _) _) _ = newCap
  split_ifs with hnil hskip hlong hcap
  · exact ⟨rfl, Nat.le_add_right _ _⟩
  · exact ⟨rfl, Nat.le_add_right _ _⟩
  · omega
  · obtain ⟨b, r, hb⟩ := arenaAlloc_cases s
    rw [hb]
    cases b with
    | false => exact ⟨rfl, Nat.le_add_right _ _⟩
    | true => exact ⟨rfl, List.length_append.le⟩
  · exact ⟨rfl, List.length_append.le⟩

lemma onHeaderField_answerPart (s : Http1State) (piece : Bytes) :
    (onHeaderField s piece).answerPart = s.answerPart ∧
      (onHeaderField s piece).target = s.target := by
  unfold onHeaderField h1FinalizeInterestedHeader
  dsimp only
  split_ifs
  · exact ⟨rfl, rfl⟩
  · exact ⟨rfl, rfl⟩
  · obtain ⟨n, b, t, h, r, e, k, fr, heq, -⟩ := h1ProcessHeader_cases _
    rw [heq]
    exact ⟨rfl, rfl⟩
  · exact ⟨rfl, rfl⟩

/-- A callback that neither ends a section nor stops llhttp sets no flag but the limit's. -/
lemma Callback.run_answerPart (vh : Option Vhost) (s : Http1State) (cb : Callback)
    (hend : cb.endsSection = false) (hurl : s.target.length + cb.urlLength ≤ reqTargetMax)
    (hgo : (cb.run vh s).2 = false) :
    (cb.run vh s).1.answerPart = s.answerPart ∧
      (cb.run vh s).1.target.length ≤ s.target.length + cb.urlLength := by
  cases cb with
  | messageBegin => exact ⟨rfl, le_rfl⟩
  | url piece => exact onUrl_answerPart s piece hurl
  | headerField piece =>
    obtain ⟨hpart, htarget⟩ := onHeaderField_answerPart s piece
    exact ⟨hpart, (congrArg List.length htarget).le⟩
  | headerValue piece =>
    show (onHeaderValue s piece).answerPart = _ ∧ (onHeaderValue s piece).target.length ≤ _
    unfold onHeaderValue
    split_ifs <;> exact ⟨rfl, le_rfl⟩
  | headersComplete method keepAlive => exact absurd hend (by simp [Callback.endsSection])
  | body piece =>
    change (onBody s piece).2 = false at hgo
    show (onBody s piece).1.answerPart = _ ∧ (onBody s piece).1.target.length ≤ _
    unfold onBody at hgo ⊢
    dsimp only at hgo ⊢
    split_ifs at hgo ⊢ <;> exact ⟨rfl, le_rfl⟩
  | messageComplete => exact absurd hend (by simp [Callback.endsSection])

lemma runCallbacks_answerPart (vh : Option Vhost) (s : Http1State) (cbs : List Callback)
    (hend : ∀ cb ∈ cbs, cb.endsSection = false)
    (hurl : s.target.length + (cbs.map Callback.urlLength).sum ≤ reqTargetMax)
    (hgo : (runCallbacks vh s cbs).2 = false) :
    (runCallbacks vh s cbs).1.answerPart = s.answerPart := by
  induction cbs generalizing s with
  | nil => rfl
  | cons cb cbs ih =>
    rw [List.map_cons, List.sum_cons] at hurl
    have hhead := Callback.run_answerPart vh s cb (hend cb (by simp)) (by omega)
    rw [runCallbacks] at hgo ⊢
    rcases hcb : cb.run vh s with ⟨s1, _ | _⟩
    · rw [hcb] at hgo hhead
      obtain ⟨hpart, htarget⟩ := hhead rfl
      have htail := ih s1 (fun cb h => hend cb (by simp [h])) (by dsimp only at htarget; omega) hgo
      exact htail.trans hpart
    · rw [hcb] at hgo
      exact absurd hgo (by simp)

/-- The chunk runs into the field limit: its callbacks set `header_too_big`. -/
def LimitHit (c : Conn L) (buf : Bytes) : Prop :=
  c.h1.headerTooBig = false ∧
    (runCallbacks c.vhost c.h1 (L.execute c.parser buf).callbacks).1.headerTooBig = true

/-- The chunk leaves nothing else to be answered: the body was within its limit, no callback ends
the header section or the message, the target stays within `REQ_TARGET_MAX`, no callback stops
llhttp, and llhttp reports no error that is not tolerated. -/
structure LeavesNothing (c : Conn L) (buf : Bytes) : Prop where
  bodyTooBig : c.h1.bodyTooBig = false
  noEnd : ∀ cb ∈ (L.execute c.parser buf).callbacks, cb.endsSection = false
  target : c.h1.target.length + ((L.execute c.parser buf).callbacks.map Callback.urlLength).sum ≤
    reqTargetMax
  runs : (runCallbacks c.vhost c.h1 (L.execute c.parser buf).callbacks).2 = false
  err : (L.execute c.parser buf).err = .ok ∨ (L.execute c.parser buf).err = .paused ∨
    (llhttpShouldTolerate c (L.execute c.parser buf).err buf).1 = true

/-- A chunk that runs into the field limit leaves nothing else to be answered. -/
def QuietFeed (c : Conn L) (buf : Bytes) : Prop :=
  LimitHit c buf → LeavesNothing c buf

/-- A quiet chunk that is rejected for its header fields or bytes leaves nothing else to answer. -/
lemma httpPipelineFeed_quiet {c : Conn L} {buf : Bytes} (hq : QuietFeed c buf)
    (hbig : c.h1.headerTooBig = false) (hparse : c.h1.parseError = false)
    (hte : c.h1.unsupportedTe = false) (hdone : c.h1.messageDone = false)
    (hbody : c.h1.headersDone = false → c.h1.bodyTooBig = false)
    (hhit : (httpPipelineFeed c buf).1.h1.headerTooBig = true) :
    (httpPipelineFeed c buf).1.h1.Unanswered := by
  unfold httpPipelineFeed at hhit ⊢
  by_cases hnil : buf = []
  · rw [if_pos hnil] at hhit
    exact absurd hhit (by simp [hbig])
  · rw [if_neg hnil, if_neg (by simp [hbig, hparse, hte, hdone])] at hhit ⊢
    dsimp only at hhit ⊢
    obtain ⟨p, hp | ⟨hhead, hp⟩⟩ := countHeaderBytes_cases c buf.length
    · -- the bytes are within the limit, so the callbacks set the flag
      rw [hp, if_neg (by exact ne_true_of_eq_false hbig)] at hhit ⊢
      rw [clearPendingLine_h1] at hhit ⊢
      have hlimit : LimitHit c buf := by
        rcases httpParserError_h1 (httpParserFeed { c with parserBytes := p } buf).1
          (httpParserFeed { c with parserBytes := p } buf).2.1 buf with h | ⟨h, -⟩
        · rw [h] at hhit
          exact ⟨hbig, hhit⟩
        · rw [h] at hhit
          exact ⟨hbig, hhit⟩
      have hleaves := hq hlimit
      have hpart := runCallbacks_answerPart c.vhost c.h1 _ hleaves.noEnd hleaves.target hleaves.runs
      have hun : c.h1.Unanswered := ⟨hparse, hte, hleaves.bodyTooBig, hdone⟩
      have herr : (httpParserFeed { c with parserBytes := p } buf).2.1 =
          (L.execute c.parser buf).err := if_neg (by exact ne_true_of_eq_false hleaves.runs)
      rw [herr] at hhit ⊢
      rcases httpParserError_h1 (httpParserFeed { c with parserBytes := p } buf).1
        (L.execute c.parser buf).err buf with h | ⟨-, h⟩
      · rw [h]
        exact hun.of_answerPart hpart
      · refine absurd ?_ h
        rw [llhttpShouldTolerate_congr c (httpParserFeed { c with parserBytes := p } buf).1
          (L.execute c.parser buf).err buf (congrArg AnswerPart.headersDone hpart) rfl]
        exact hleaves.err
    · rw [hp, if_pos rfl, clearPendingLine_h1]
      exact ⟨hparse, hte, hbody hhead, hdone⟩

/-- The bytes that the body stage feeds. -/
def bodyBlock (c : Conn L) (buf : Bytes) : Bytes :=
  if isChunked c.h1.framing then buf else buf.take c.h1.bodyRemaining

/-- Both feeds of the received bytes are quiet. -/
structure QuietStages (c : Conn L) (buf : Bytes) : Prop where
  head : QuietFeed c buf
  body : QuietFeed (feedHead c buf).1
    (bodyBlock (feedHead c buf).1 (buf.drop (feedHead c buf).2))

instance (c : Conn L) (buf : Bytes) : Decidable (LimitHit c buf) :=
  inferInstanceAs (Decidable (_ ∧ _))

instance (c : Conn L) (buf : Bytes) : Decidable (LeavesNothing c buf) :=
  decidable_of_iff (_ ∧ _ ∧ _ ∧ _ ∧ _)
    ⟨fun ⟨h1, h2, h3, h4, h5⟩ => ⟨h1, h2, h3, h4, h5⟩, fun ⟨h1, h2, h3, h4, h5⟩ => ⟨h1, h2, h3, h4, h5⟩⟩

instance (c : Conn L) (buf : Bytes) : Decidable (QuietFeed c buf) :=
  inferInstanceAs (Decidable (_ → _))

instance (c : Conn L) (buf : Bytes) : Decidable (QuietStages c buf) :=
  decidable_of_iff (_ ∧ _) ⟨fun ⟨h1, h2⟩ => ⟨h1, h2⟩, fun ⟨h1, h2⟩ => ⟨h1, h2⟩⟩

lemma QuietFeed.onto {c : Conn L} {buf : Bytes} (h : QuietFeed c buf) (d : Conn L) :
    QuietFeed (c.onto d) buf := by
  intro hhit
  obtain ⟨hbody, hend, htarget, hruns, herr⟩ := h hhit
  refine ⟨hbody, hend, htarget, hruns, ?_⟩
  rw [llhttpShouldTolerate_onto]
  exact herr

lemma QuietStages.onto {c : Conn L} {buf : Bytes} (h : QuietStages c buf) (d : Conn L) :
    QuietStages (c.onto d) buf := by
  refine ⟨h.head.onto d, ?_⟩
  rw [feedHead_onto]
  exact h.body.onto d

/-- **A quiet chunk that is rejected leaves nothing else to answer.** -/
lemma rxStages_quiet {c : Conn L} {buf : Bytes} (hq : QuietStages c buf) (hc : c.h1.Unanswered)
    (hbig : c.h1.headerTooBig = false)
    (hhit : (rxStages c buf).1.h1.headerTooBig = true) : (rxStages c buf).1.h1.Unanswered := by
  have hhead : (feedHead c buf).1.h1.headerTooBig = true → (feedHead c buf).1.h1.Unanswered := by
    unfold feedHead
    split_ifs with hgo
    · intro h
      exact httpPipelineFeed_quiet hq.head hbig hc.parseError hc.unsupportedTe hc.messageDone
        (fun _ => hc.bodyTooBig) h
    · intro _
      exact hc
  have hbody := hq.body
  unfold rxStages at hhit ⊢
  dsimp only at hhit ⊢
  generalize hc1 : (feedHead c buf).1 = c1 at *
  generalize buf.drop (feedHead c buf).2 = rest at *
  unfold feedBody at hhit ⊢
  unfold bodyBlock at hbody
  by_cases hguard : (rest ≠ [] && c1.h1.headersDone && !c1.h1.messageDone && stillParsing c1.h1) = true
  · rw [if_pos hguard] at hhit ⊢
    simp only [stillParsing, Bool.and_eq_true, Bool.not_eq_true', decide_eq_true_eq] at hguard
    obtain ⟨⟨⟨-, hheaders⟩, hdone⟩, ⟨hparse, hbig1⟩, hte⟩ := hguard
    have hskip : c1.h1.headersDone = false → c1.h1.bodyTooBig = false := by
      intro h
      exact absurd hheaders (by simp [h])
    dsimp only at hhit ⊢
    split_ifs at hhit hbody ⊢ with hchunked hzero
    · exact httpPipelineFeed_quiet hbody hbig1 hparse hte hdone hskip hhit
    · exact absurd hhit (by simp [hbig1])
    · rw [← List.take_eq_take_min] at hhit ⊢
      have hfed := httpPipelineFeed_quiet hbody hbig1 hparse hte hdone hskip hhit
      exact ⟨hfed.parseError, hfed.unsupportedTe, hfed.bodyTooBig, hfed.messageDone⟩
  · rw [if_neg hguard] at hhit ⊢
    exact hhead hhit

/-! ## The phases of a plain connection -/

/-- A plain connection that is not being closed. -/
structure OpenConn (l : Loop L) : Prop where
  plain : l.conn.tlsEnabled = false
  fdOpen : l.conn.fdOpen = true
  oneRead : l.OneRead
  bounded : ∀ e ∈ l.log, e.reqNo ≤ l.reqNo

/-- The rest of the request is awaited: nothing is being sent and nothing has been answered. -/
structure Waiting (l : Loop L) : Prop where
  draining : l.conn.draining = false
  internalError : l.conn.h1.internalError = false
  headerTooBig : l.conn.h1.headerTooBig = false
  unanswered : l.conn.h1.Unanswered
  keepalive : l.conn.tx.keepalive = false
  unrejected : Unrejected l.log l.reqNo

/-- A 431 has been staged and the connection drains. -/
structure Drained (l : Loop L) : Prop where
  draining : l.conn.draining = true
  internalError : l.conn.h1.internalError = false
  headerTooBig : l.conn.h1.headerTooBig = true
  unanswered : l.conn.h1.Unanswered
  keepalive : l.conn.tx.keepalive = false

/-- The response of request handling is being sent, and no read is posted. -/
structure Serving (l : Loop L) : Prop where
  draining : l.conn.draining = false
  drain : l.conn.tx.drainAfterHeaders = false
  noRead : l.recvOps = 0

/-- The phases in which a read may be posted. -/
def Resting (l : Loop L) : Prop :=
  l.Closed ∨ (OpenConn l ∧ (Waiting l ∨ Drained l))

/-- The phases of a plain connection. -/
def Phase (l : Loop L) : Prop :=
  Resting l ∨ (OpenConn l ∧ Serving l)

section IoSteps

variable {b : Bool} {l l' : Loop L}

lemma OpenConn.io (h : OpenConn l) (hio : IoStep b l l') :
    l'.Closed ∨ OpenConn l' := by
  rcases hio.open_or_closed (Or.inl h.fdOpen) with hfd | hclosed
  · refine Or.inr ⟨hio.tlsEnabled.trans h.plain, hfd, hio.oneRead h.oneRead, ?_⟩
    rw [hio.log, hio.reqNo]
    exact h.bounded
  · exact Or.inl hclosed

lemma Waiting.io (h : Waiting l) (hio : IoStep b l l') : Waiting l' := by
  refine ⟨hio.draining.trans h.draining, ?_, ?_, ?_, hio.keepalive.trans h.keepalive, ?_⟩
  · rw [hio.h1]
    exact h.internalError
  · rw [hio.h1]
    exact h.headerTooBig
  · rw [hio.h1]
    exact h.unanswered
  · rw [hio.log, hio.reqNo]
    exact h.unrejected

lemma Drained.io (h : Drained l) (hio : IoStep b l l') : Drained l' := by
  refine ⟨hio.draining.trans h.draining, ?_, ?_, ?_, hio.keepalive.trans h.keepalive⟩
  · rw [hio.h1]
    exact h.internalError
  · rw [hio.h1]
    exact h.headerTooBig
  · rw [hio.h1]
    exact h.unanswered

lemma Resting.io (h : Resting l) (hio : IoStep b l l') : Resting l' := by
  rcases h with hclosed | ⟨hopen, hphase⟩
  · exact Or.inl (hio.closed hclosed)
  · rcases hopen.io hio with hclosed | hopen'
    · exact Or.inl hclosed
    · exact Or.inr ⟨hopen', hphase.imp (·.io hio) (·.io hio)⟩

lemma Phase.io (h : Phase l) (hio : IoStep false l l') : Phase l' := by
  rcases h with hrest | ⟨hopen, hserving⟩
  · exact Or.inl (hrest.io hio)
  · rcases hopen.io hio with hclosed | hopen'
    · exact Or.inl (Or.inl hclosed)
    · exact Or.inr ⟨hopen', hio.draining.trans hserving.draining, hio.drain.trans hserving.drain,
        (hio.recv rfl).1.trans hserving.noRead⟩

end IoSteps

lemma Resting.consume {l : Loop L} (h : Resting l) (n : ℕ) :
    Resting { l with conn := connRxStashConsume l.conn n } := by
  rcases h with h | ⟨ho, hw | hd⟩
  · exact Or.inl h
  · exact Or.inr ⟨⟨ho.plain, ho.fdOpen, ho.oneRead, ho.bounded⟩, Or.inl ⟨hw.draining,
      hw.internalError, hw.headerTooBig, hw.unanswered, hw.keepalive, hw.unrejected⟩⟩
  · exact Or.inr ⟨⟨ho.plain, ho.fdOpen, ho.oneRead, ho.bounded⟩, Or.inr ⟨hd.draining,
      hd.internalError, hd.headerTooBig, hd.unanswered, hd.keepalive⟩⟩

lemma Phase.consume {l : Loop L} (h : Phase l) (n : ℕ) :
    Phase { l with conn := connRxStashConsume l.conn n } := by
  rcases h with h | ⟨ho, hs⟩
  · exact Or.inl (h.consume n)
  · exact Or.inr ⟨⟨ho.plain, ho.fdOpen, ho.oneRead, ho.bounded⟩, hs.draining, hs.drain, hs.noRead⟩

/-! ## One action -/

/-- A plain connection after the two stages on received bytes, before the action is applied. -/
structure Parsed (l : Loop L) : Prop where
  plain : l.conn.tlsEnabled = false
  attached : l.Attached
  noRead : l.recvOps = 0
  bounded : ∀ e ∈ l.log, e.reqNo ≤ l.reqNo
  once : RejectedOnce l.log
  draining : l.conn.draining = false
  keepalive : l.conn.tx.keepalive = false
  unrejected : Unrejected l.log l.reqNo
  quiet : l.conn.h1.headerTooBig = true → l.conn.h1.Unanswered

lemma classify_continue {c : Conn L} (h : httpPipelineClassifyAction c = .continue) :
    (c.h1.headerTooBig = true → c.draining = true) ∧ c.h1.Unanswered := by
  unfold httpPipelineClassifyAction at h
  split_ifs at h with h1 h2 h3 h4 h5
  exact ⟨by simpa using h1, by simpa using h4, by simpa using h2, by simpa using h3,
    by simpa using h5⟩

lemma startSend_plain (w : Worker L) (stash : Loop L → Loop L × Bool) {l : Loop L}
    (h : l.conn.tlsEnabled = false) :
    startSend w stash l = l.emit [.ref, .postSend l.conn.tx.writeBuf] :=
  if_neg (ne_true_of_eq_false h)

lemma Parsed.log {l : Loop L} (h : Parsed l) (a : HttpAction) {tail : List LogEntry}
    (htail : ActionTail l.reqNo tail) :
    RejectedOnce (l.log ++ .applied l.reqNo a :: tail) ∧
      ∀ e ∈ l.log ++ .applied l.reqNo a :: tail, e.reqNo ≤ l.reqNo := by
  refine ⟨h.once.append_action h.unrejected a htail, fun e he => ?_⟩
  rcases List.mem_append.mp he with he | he
  · exact h.bounded e he
  · exact (htail.reqNo a e he).le

/-- The action after received bytes leads to a resting connection, or to one that serves a
dispatched request. -/
lemma httpApplyAction_phase (w : Worker L) (stash : Loop L → Loop L × Bool) {l : Loop L}
    (h : Parsed l) {a : HttpAction} (ha : httpPipelineClassifyAction l.conn = a) :
    RejectedOnce (httpApplyAction w stash l a).log ∧
      (Resting (httpApplyAction w stash l a) ∨
        (a = .respOk ∧ OpenConn (httpApplyAction w stash l a) ∧
          Serving (httpApplyAction w stash l a))) := by
  obtain ⟨honce, hbounded⟩ := h.log a (Or.inl rfl : ActionTail l.reqNo [])
  rcases httpApplyAction_applied w stash l a with
    ⟨hcont, herr, hio, -⟩ | ⟨hio, hclosed, -⟩ |
      ⟨want, tx, closing, draining, env, tail, hresp, -, -, -, -, heq⟩
  · refine ⟨hio.log ▸ honce, Or.inl (Resting.io ?_ hio)⟩
    rcases h.attached.open_or_closed with hfd | hclosed
    · obtain ⟨hbig, hun⟩ := classify_continue (ha.trans hcont)
      refine Or.inr ⟨⟨h.plain, hfd, Or.inl h.noRead, hbounded⟩, Or.inl ⟨h.draining, herr, ?_, hun,
        h.keepalive, h.unrejected.append_applied a⟩⟩
      exact Bool.eq_false_iff.mpr fun h' => by simpa [h.draining] using hbig h'
    · exact Or.inl ⟨hclosed.1, fun hfd => absurd (hfd.symm.trans hclosed.2) (by decide)⟩
  · exact ⟨hio.log ▸ honce, Or.inl (Or.inl (hclosed h.attached))⟩
  · have hplain : (l.withResponse want tx closing draining env
        (l.log ++ .applied l.reqNo a :: tail)).conn.tlsEnabled = false := h.plain
    rw [startSend_plain w stash hplain] at heq
    rw [heq]
    obtain ⟨honce, hbounded⟩ := h.log a hresp.actionTail
    refine ⟨honce, ?_⟩
    -- a detached connection stays closed whatever is placed on it
    have hdetached : closing = l.conn.closing → l.conn.closing = true ∧ l.conn.fdOpen = false →
        ((l.withResponse want tx closing draining env
          (l.log ++ .applied l.reqNo a :: tail)).emit [.ref, .postSend tx.writeBuf]).Closed :=
      fun hclosing hd => ⟨hclosing.trans hd.1, fun hfd => absurd (hfd.symm.trans hd.2) (by decide)⟩
    rcases hresp with ⟨kind, hclosing, hka, -⟩ | ⟨h431, herr, hclosing, hdraining, -, hka, -, -⟩ |
      ⟨kind, h1, hok, -, hclosing, hdraining, hdrain, -, -, -, -⟩
    · exact Or.inl (Or.inl ⟨hclosing, fun _ => hka⟩)
    · rcases h.attached.open_or_closed with hfd | hclosed
      · have hbig := classify_resp431 (ha.trans h431)
        have hun := h.quiet hbig
        exact Or.inl (Or.inr ⟨⟨h.plain, hfd, Or.inl h.noRead, hbounded⟩, Or.inr ⟨hdraining, herr,
          hbig, ⟨hun.parseError, hun.unsupportedTe, hun.bodyTooBig, hun.messageDone⟩, hka⟩⟩)
      · exact Or.inl (Or.inl (hdetached hclosing hclosed))
    · rcases h.attached.open_or_closed with hfd | hclosed
      · exact Or.inr ⟨hok, ⟨h.plain, hfd, Or.inl h.noRead, hbounded⟩,
          hdraining.trans h.draining, hdrain, h.noRead⟩
      · exact Or.inl (Or.inl (hdetached hclosing hclosed))

/-! ## Received bytes -/

lemma Parsed.io {l l' : Loop L} (h : Parsed l) (hio : IoStep false l l') : Parsed l' := by
  refine ⟨hio.tlsEnabled.trans h.plain, hio.attached h.attached, (hio.recv rfl).1.trans h.noRead,
    ?_, ?_, hio.draining.trans h.draining, hio.keepalive.trans h.keepalive, ?_, ?_⟩
  · rw [hio.log, hio.reqNo]
    exact h.bounded
  · rw [hio.log]
    exact h.once
  · rw [hio.log, hio.reqNo]
    exact h.unrejected
  · rw [hio.h1]
    exact h.quiet

lemma Waiting.takeBytes {l : Loop L} {buf : Bytes} (hopen : OpenConn l) (hw : Waiting l)
    (honce : RejectedOnce l.log) (hno : l.recvOps = 0) (hq : QuietStages l.conn buf) :
    Parsed (takeBytes l buf).1 := by
  have hp := rxStages_parse l.conn buf
  exact
    { plain := hp.tlsEnabled.trans hopen.plain
      attached := Or.inl (hp.fdOpen.trans hopen.fdOpen)
      noRead := hno
      bounded := hopen.bounded
      once := honce
      draining := hp.draining.trans hw.draining
      keepalive := (congrArg TxState.keepalive hp.tx).trans hw.keepalive
      unrejected := hw.unrejected
      quiet := rxStages_quiet hq hw.unanswered hw.headerTooBig }

lemma Parsed.stashRest {l : Loop L} (h : Parsed l) (data : Bytes) : Parsed (stashRest l data) := by
  unfold Lamseryn.stashRest
  obtain ⟨e, -, hr | hr⟩ := connRxStashAppend_cases l data
  · rw [hr]
    exact ⟨h.plain, h.attached, h.noRead, h.bounded, h.once, h.draining, h.keepalive,
      h.unrejected, h.quiet⟩
  · rw [hr]
    exact h.io ((ioStep_env l e).trans (scheduleOrSyncClose_io _))

/-- The loop as `worker_loop_read_handle_cqe` handles data on it. -/
def Loop.reading (l : Loop L) (env : Env) : Loop L :=
  { l with
    env := env
    recvOps := l.recvOps - 1
    conn :=
      { l.conn with tx := { l.conn.tx with recvArmed := false }, noselectStreak := 0 } }

lemma OpenConn.reading {l : Loop L} (h : OpenConn l) (env : Env) :
    OpenConn (l.reading env) ∧ (l.reading env).recvOps = 0 := by
  have hzero : l.recvOps - 1 = 0 := by
    rcases h.oneRead with h | ⟨h, -⟩ <;> omega
  exact ⟨⟨h.plain, h.fdOpen, Or.inl hzero, h.bounded⟩, hzero⟩

lemma step_recv_data (w : Worker L) {l : Loop L} (hfd : l.conn.fdOpen = true)
    (hclosing : l.conn.closing = false) (buf : Bytes) (env : Env) :
    l.step w (.recv (.data buf), env) =
      httpApplyAction w (stashProcessor w)
        (stashRest (takeBytes (l.reading env) buf).1 (buf.drop (takeBytes (l.reading env) buf).2))
        (httpPipelineClassifyAction
          (stashRest (takeBytes (l.reading env) buf).1
            (buf.drop (takeBytes (l.reading env) buf).2)).conn) := by
  refine (if_neg ?_).trans rfl
  show ¬ (!l.conn.fdOpen || l.conn.closing) = true
  rw [hfd, hclosing]
  decide

/-- The log and the phase of a plain connection. -/
def InOrder (l : Loop L) : Prop :=
  RejectedOnce l.log ∧ Phase l

lemma Waiting.recv_data (w : Worker L) {l : Loop L} (hopen : OpenConn l) (hw : Waiting l)
    (honce : RejectedOnce l.log) (hclosing : l.conn.closing = false) {buf : Bytes}
    (hq : QuietStages l.conn buf) (env : Env) :
    InOrder (l.step w (.recv (.data buf), env)) := by
  rw [step_recv_data w hopen.fdOpen hclosing]
  obtain ⟨hopen', hno⟩ := hopen.reading env
  have hw' : Waiting (l.reading env) := ⟨hw.draining, hw.internalError, hw.headerTooBig,
    hw.unanswered, hw.keepalive, hw.unrejected⟩
  have hparsed := (hw'.takeBytes hopen' honce hno (hq.onto (l.reading env).conn)).stashRest
    (buf.drop (Lamseryn.takeBytes (l.reading env) buf).2)
  obtain ⟨honce', hrest | ⟨-, hserving⟩⟩ := httpApplyAction_phase w (stashProcessor w) hparsed rfl
  · exact ⟨honce', Or.inl hrest⟩
  · exact ⟨honce', Or.inr hserving⟩

lemma classify_drained {c : Conn L} (hdraining : c.draining = true) (hun : c.h1.Unanswered) :
    httpPipelineClassifyAction c = .continue := by
  simp [httpPipelineClassifyAction, hdraining, hun.parseError, hun.unsupportedTe, hun.bodyTooBig,
    hun.messageDone]

lemma Drained.stashRest {l : Loop L} (hopen : OpenConn l) (hd : Drained l) (data : Bytes) :
    Drained (stashRest l data) ∧
      ((stashRest l data).Closed ∨ OpenConn (stashRest l data)) ∧
      (stashRest l data).log = l.log ∧ (stashRest l data).reqNo = l.reqNo := by
  unfold Lamseryn.stashRest
  obtain ⟨e, -, hr | hr⟩ := connRxStashAppend_cases l data
  · rw [hr]
    exact ⟨⟨hd.draining, hd.internalError, hd.headerTooBig, hd.unanswered, hd.keepalive⟩,
      Or.inr ⟨hopen.plain, hopen.fdOpen, hopen.oneRead, hopen.bounded⟩, rfl, rfl⟩
  · rw [hr]
    have hio := (ioStep_env l e).trans (scheduleOrSyncClose_io { l with env := e })
    exact ⟨hd.io hio, hopen.io hio, hio.log, hio.reqNo⟩

lemma Drained.recv_data (w : Worker L) {l : Loop L} (hopen : OpenConn l) (hd : Drained l)
    (honce : RejectedOnce l.log) (hclosing : l.conn.closing = false) (buf : Bytes) (env : Env) :
    InOrder (l.step w (.recv (.data buf), env)) := by
  rw [step_recv_data w hopen.fdOpen hclosing]
  have hstages : rxStages (l.reading env).conn buf = ((l.reading env).conn, 0) :=
    rxStages_of_headerTooBig (c := (l.reading env).conn) hd.headerTooBig buf
  have htaken : (takeBytes (l.reading env) buf).1 =
      { l.reading env with taken := l.taken ++ buf.take 0 } := by
    unfold takeBytes
    rw [hstages]
    rfl
  obtain ⟨hopen', -⟩ := hopen.reading env
  obtain ⟨hd', hor, hlog, hreq⟩ := Drained.stashRest
    (l := { l.reading env with taken := l.taken ++ buf.take 0 })
    ⟨hopen'.plain, hopen'.fdOpen, hopen'.oneRead, hopen'.bounded⟩
    ⟨hd.draining, hd.internalError, hd.headerTooBig, hd.unanswered, hd.keepalive⟩
    (buf.drop (takeBytes (l.reading env) buf).2)
  rw [← htaken] at hd' hor hlog hreq
  generalize Lamseryn.stashRest (takeBytes (l.reading env) buf).1 _ = l1 at *
  rw [classify_drained hd'.draining hd'.unanswered]
  have hio := httpApplyAction_continue w (stashProcessor w) l1 hd'.internalError
  have hrest : Resting (l1.record (.applied l1.reqNo .continue)) := by
    rcases hor with hclosed | ho
    · exact Or.inl hclosed
    · refine Or.inr ⟨⟨ho.plain, ho.fdOpen, ho.oneRead, ?_⟩, Or.inr ⟨hd'.draining,
        hd'.internalError, hd'.headerTooBig, hd'.unanswered, hd'.keepalive⟩⟩
      intro e he
      rcases List.mem_append.mp he with he | he
      · exact ho.bounded e he
      · exact (List.mem_singleton.mp he ▸ rfl : e.reqNo = l1.reqNo).le
  refine ⟨?_, Or.inl (hrest.io hio)⟩
  rw [hio.log, record_log, hlog]
  exact honce.append_applied (by decide)

lemma Resting.not_closing {l : Loop L} (h : Resting l) (hclosed : ¬ l.Closed) :
    l.conn.closing = false := by
  obtain ⟨-, hphase⟩ := h.resolve_left hclosed
  have hka : l.conn.tx.keepalive = false := hphase.elim (·.keepalive) (·.keepalive)
  exact Bool.eq_false_iff.mpr fun hclosing => hclosed ⟨hclosing, fun _ => hka⟩

/-- What a plain connection does when a read brings no data. -/
lemma Resting.recv_other (w : Worker L) {l : Loop L} (hrest : Resting l)
    (hclosed : ¬ l.Closed) (r : RecvResult) (hr : ∀ buf, r ≠ .data buf) (env : Env) :
    Resting (l.step w (.recv r, env)) ∧ (l.step w (.recv r, env)).log = l.log := by
  have hclosing := hrest.not_closing hclosed
  obtain ⟨hopen, hphase⟩ := hrest.resolve_left hclosed
  have hstep : ∀ k : ℕ, Resting { l.reading env with
      conn := { (l.reading env).conn with noselectStreak := k } } := by
    intro k
    obtain ⟨hopen', -⟩ := hopen.reading env
    refine Or.inr ⟨⟨hopen'.plain, hopen'.fdOpen, hopen'.oneRead, hopen'.bounded⟩, ?_⟩
    rcases hphase with hw | hd
    · exact Or.inl ⟨hw.draining, hw.internalError, hw.headerTooBig, hw.unanswered, hw.keepalive,
        hw.unrejected⟩
    · exact Or.inr ⟨hd.draining, hd.internalError, hd.headerTooBig, hd.unanswered, hd.keepalive⟩
  have hguard : ¬ (!l.conn.fdOpen || l.conn.closing) = true := by
    rw [hopen.fdOpen, hclosing]
    decide
  have hdone : ∀ (k : ℕ) {b : Bool} {l' : Loop L}, IoStep b { l.reading env with
      conn := { (l.reading env).conn with noselectStreak := k } } l' →
      Resting l' ∧ l'.log = l.log := fun k _ _ hio => ⟨(hstep k).io hio, hio.log⟩
  show Resting (readHandleCqe w { l with env := env, recvOps := l.recvOps - 1 } r) ∧
    (readHandleCqe w { l with env := env, recvOps := l.recvOps - 1 } r).log = l.log
  unfold readHandleCqe
  rw [if_neg (by exact hguard)]
  dsimp only
  cases r with
  | data buf => exact absurd rfl (hr buf)
  | noBuffer =>
    dsimp only
    split_ifs
    · exact hdone (l.conn.noselectStreak + 1) (scheduleOrSyncClose_io _)
    · exact hdone (l.conn.noselectStreak + 1) (IoStep.refl false _)
    · exact hdone (l.conn.noselectStreak + 1) (postRecvPtr_io _)
  | again =>
    dsimp only
    split_ifs
    · exact hdone l.conn.noselectStreak (IoStep.refl false _)
    · exact hdone l.conn.noselectStreak (postRecvPtr_io _)
  | closed => exact hdone l.conn.noselectStreak (scheduleOrSyncClose_io _)

/-! ## Completed responses -/

/-- After `conn_reset_request` the next request is awaited. -/
lemma Serving.reset (w : Worker L) {l l1 : Loop L} (hopen : OpenConn l) (hs : Serving l)
    (hio : IoStep false l l1) (hfd : l1.conn.fdOpen = true) :
    OpenConn (connResetRequest w l1) ∧ Waiting (connResetRequest w l1) ∧
      (connResetRequest w l1).recvOps = 0 := by
  have hno : l1.recvOps = 0 := (hio.recv rfl).1.trans hs.noRead
  have hbounded : ∀ e ∈ l1.log, e.reqNo ≤ l1.reqNo := by
    rw [hio.log, hio.reqNo]
    exact hopen.bounded
  refine ⟨⟨hio.tlsEnabled.trans hopen.plain, hfd, Or.inl hno, ?_⟩,
    ⟨rfl, rfl, rfl, ⟨rfl, rfl, rfl, rfl⟩, rfl, ?_⟩, hno⟩
  · exact fun e he => (hbounded e he).trans (Nat.le_succ _)
  · exact fun e he _ => Nat.ne_of_lt (Nat.lt_succ_of_le (hbounded e he))

lemma Waiting.stash (w : Worker L) {l : Loop L} (hopen : OpenConn l) (hw : Waiting l)
    (honce : RejectedOnce l.log) (hno : l.recvOps = 0) (hq : QuietStages l.conn l.conn.rxStash) :
    RejectedOnce (stashProcessor w l).1.log ∧
      (Resting (stashProcessor w l).1 ∨
        ((stashProcessor w l).2 = true ∧ Phase (stashProcessor w l).1)) := by
  have hrest : Resting l := Or.inr ⟨hopen, Or.inl hw⟩
  unfold stashProcessor
  cases w.stackDepth with
  | zero =>
    unfold connTryProcessStash
    split_ifs
    · exact ⟨honce, Or.inl hrest⟩
    · exact ⟨honce, Or.inl (Or.inr ⟨⟨hopen.plain, hopen.fdOpen, hopen.oneRead, hopen.bounded⟩,
        Or.inl ⟨hw.draining, hw.internalError, hw.headerTooBig, hw.unanswered, hw.keepalive,
          hw.unrejected⟩⟩)⟩
  | succ depth =>
    unfold connTryProcessStash
    split_ifs
    · exact ⟨honce, Or.inl hrest⟩
    · dsimp only
      have hparsed := hw.takeBytes hopen honce hno hq
      obtain ⟨honce', hphase⟩ := httpApplyAction_phase w (connTryProcessStash w depth) hparsed rfl
      refine ⟨honce', ?_⟩
      rcases hphase with hrest' | ⟨hok, hserving⟩
      · exact Or.inl (hrest'.consume _)
      · exact Or.inr ⟨by simp [hok], Phase.consume (Or.inr hserving) _⟩

lemma Serving.nextRequest (w : Worker L) {l l1 : Loop L} (hopen : OpenConn l) (hs : Serving l)
    (honce : RejectedOnce l.log) (hio : IoStep false l l1) (hfd : l1.conn.fdOpen = true)
    (hq : QuietStages (connResetRequest w l).conn l.conn.rxStash) :
    InOrder (nextRequest w (stashProcessor w) l1) := by
  obtain ⟨hopen', hw', hno'⟩ := hs.reset w hopen hio hfd
  have hconn : (connResetRequest w l1).conn =
      (connResetRequest w l).conn.onto (connResetRequest w l1).conn := by
    rw [hio.reset w]
    rfl
  have hstash : (connResetRequest w l1).conn.rxStash = l.conn.rxStash := hio.rxStash
  have hq' : QuietStages (connResetRequest w l1).conn (connResetRequest w l1).conn.rxStash := by
    rw [hstash, hconn]
    exact hq.onto _
  have honce' : RejectedOnce (connResetRequest w l1).log := by
    show RejectedOnce l1.log
    rw [hio.log]
    exact honce
  obtain ⟨honce2, hphase⟩ := hw'.stash w hopen' honce' hno' hq'
  unfold Lamseryn.nextRequest
  dsimp only
  split_ifs with hstaged
  · exact ⟨honce2, hphase.elim Or.inl (·.2)⟩
  · have hrest := hphase.resolve_right (fun h => hstaged h.1)
    have hrecv := postRecvPtr_io (stashProcessor w (connResetRequest w l1)).1
    exact ⟨hrecv.log ▸ honce2, Or.inl (hrest.io hrecv)⟩

lemma WriteOutcome.inOrder {w : Worker L} {l l' : Loop L}
    (hout : WriteOutcome w (stashProcessor w) l l') (h : InOrder l) (hfd : l.conn.fdOpen = true)
    (hq : l.conn.tx.keepalive = true →
      QuietStages (connResetRequest w l).conn l.conn.rxStash) : InOrder l' := by
  obtain ⟨honce, hphase⟩ := h
  rcases hphase with hrest | ⟨hopen, hs⟩
  · rcases hout with hio | ⟨-, hio⟩ | ⟨l1, hka', -, -, -⟩
    · exact ⟨hio.log ▸ honce, Or.inl (hrest.io hio)⟩
    · exact ⟨hio.log ▸ honce, Or.inl (hrest.io hio)⟩
    · have hka : l.conn.tx.keepalive = false := by
        rcases hrest with hclosed | ⟨-, hor⟩
        · exact hclosed.2 hfd
        · exact hor.elim (·.keepalive) (·.keepalive)
      exact absurd hka' (by simp [hka])
  · rcases hout with hio | ⟨hdrain | ⟨hdraining, -⟩, -⟩ | ⟨l1, hka, hio, hfd1, rfl⟩
    · exact ⟨hio.log ▸ honce, Phase.io (Or.inr ⟨hopen, hs⟩) hio⟩
    · exact absurd hdrain (by simp [hs.drain])
    · exact absurd hdraining (by simp [hs.draining])
    · exact hs.nextRequest w hopen honce hio (hfd1.trans hfd) (hq hka)

/-! ## Runs -/

/-- The bytes that a step may feed are quiet: the received chunk, or the stash if the step finishes
a response with keep-alive. -/
def QuietStep (w : Worker L) (l : Loop L) (e : Event × Env) : Prop :=
  match e.1 with
  | .recv (.data buf) => QuietStages l.conn buf
  | .write _ =>
    l.conn.tx.keepalive = true → QuietStages (connResetRequest w l).conn l.conn.rxStash
  | .writeReady =>
    l.conn.tx.keepalive = true → QuietStages (connResetRequest w l).conn l.conn.rxStash
  | _ => True

instance (w : Worker L) (l : Loop L) : DecidablePred (QuietStep w l)
  | (.recv (.data buf), _) => inferInstanceAs (Decidable (QuietStages l.conn buf))
  | (.recv .noBuffer, _) => .isTrue trivial
  | (.recv .again, _) => .isTrue trivial
  | (.recv .closed, _) => .isTrue trivial
  | (.tlsRead _, _) => .isTrue trivial
  | (.write _, _) => inferInstanceAs (Decidable (_ → QuietStages _ _))
  | (.writeReady, _) => inferInstanceAs (Decidable (_ → QuietStages _ _))
  | (.shutdown, _) => .isTrue trivial
  | (.expire, _) => .isTrue trivial

lemma InOrder.io {l l' : Loop L} (h : InOrder l) (hio : IoStep false l l') : InOrder l' :=
  ⟨hio.log ▸ h.1, h.2.io hio⟩

lemma InOrder.recv (w : Worker L) {l : Loop L} (h : InOrder l) (r : RecvResult) (env : Env)
    (hposted : 0 < l.recvOps) (hclosed : ¬ l.Closed)
    (hq : QuietStep w l (.recv r, env)) : InOrder (l.step w (.recv r, env)) := by
  obtain ⟨honce, hrest | ⟨-, hs⟩⟩ := h
  · have hclosing := hrest.not_closing hclosed
    obtain ⟨hopen, hphase⟩ := hrest.resolve_left hclosed
    by_cases hdata : ∃ buf, r = .data buf
    · obtain ⟨buf, rfl⟩ := hdata
      rcases hphase with hw | hd
      · exact hw.recv_data w hopen honce hclosing hq env
      · exact hd.recv_data w hopen honce hclosing buf env
    · obtain ⟨hrest', hlog⟩ :=
        hrest.recv_other w hclosed r (fun buf h => hdata ⟨buf, h⟩) env
      exact ⟨hlog ▸ honce, Or.inl hrest'⟩
  · exact absurd hs.noRead (Nat.ne_of_gt hposted)

/-- **A step keeps the order**: one case per event. -/
lemma InOrder.step (w : Worker L) {l : Loop L} (h : InOrder l) (e : Event × Env)
    (hen : l.enabled e = true) (hq : QuietStep w l e) : InOrder (l.step w e) := by
  by_cases hclosed : l.Closed
  · obtain ⟨hclosed', hlog, -⟩ := step_of_closed w e hclosed
    exact ⟨hlog ▸ h.1, Or.inl (Or.inl hclosed')⟩
  · have hopen : OpenConn l := by
      rcases h.2 with hrest | ⟨hopen, -⟩
      · exact (hrest.resolve_left hclosed).1
      · exact hopen
    have hplain := hopen.plain
    obtain ⟨ev, env⟩ := e
    have henv : InOrder { l with env := env } := h.io (ioStep_env l env)
    cases ev with
    | recv r =>
      simp only [Loop.enabled, Bool.and_eq_true, decide_eq_true_eq] at hen
      exact h.recv w r env hen.1.2 hclosed hq
    | tlsRead rs =>
      simp [Loop.enabled, hplain] at hen
    | write res =>
      have hout : WriteOutcome w (stashProcessor w) { l with env := env }
          (handleWrite w { l with env := env } res) := by
        unfold handleWrite
        split_ifs
        · exact writeHandleCqe_outcome w _ _ res
        · exact .io (IoStep.refl _ _)
      exact hout.inOrder henv hopen.fdOpen hq
    | writeReady =>
      have hout : WriteOutcome w (stashProcessor w) { l with env := env }
          (handleWriteReady w { l with env := env }) := by
        unfold handleWriteReady
        rw [if_neg (c := l.conn.tlsEnabled = true) (by simp [hplain])]
        split_ifs
        · exact .io (IoStep.refl _ _)
        · exact writeReadyHandleCqe_outcome w _ _
        · exact .io (IoStep.refl _ _)
      exact hout.inOrder henv hopen.fdOpen hq
    | shutdown => exact henv.io (ioStep_shutdown _)
    | expire => exact henv.io (scheduleOrSyncClose_io _)

lemma acceptConn_inOrder (w : Worker L) (vhost : Option Vhost) (arena : List Bool) :
    InOrder (acceptConn w vhost false arena) := by
  have hio := postRecvPtr_io ({ conn := connInit w vhost false arena } : Loop L)
  refine ⟨hio.log ▸ List.Pairwise.nil, Or.inl (Resting.io (Or.inr ⟨?_, Or.inl ?_⟩) hio)⟩
  · exact ⟨rfl, rfl, Or.inl rfl, by simp⟩
  · exact ⟨rfl, rfl, rfl, ⟨rfl, rfl, rfl, rfl⟩, rfl, by simp [Unrejected]⟩

/-- **A rejected request is never dispatched** on a plain connection, and gets no second response:
in every run in which a chunk that runs into the field limit leaves nothing else to be answered. -/
theorem rejectedOnce_of_quiet (w : Worker L) (vhost : Option Vhost) (arena : List Bool)
    {es : List (Event × Env)} {l : Loop L}
    (hrun : Run (Loop.step w) (fun l e => l.enabled e = true ∧ QuietStep w l e)
      (acceptConn w vhost false arena) es l) : RejectedOnce l.log := by
  have hinv := Run.invariant (fun _ l => InOrder l) (acceptConn_inOrder w vhost arena)
    (fun _ l e h hok => h.step w e hok.1 hok.2) hrun
  exact hinv.1

/-- A request of three header fields; its last part is sent in a chunk of its own. -/
def threeFields : List (String × List Callback) :=
  [("GET /", [.url (ascii "/")]),
   (" HTTP/1.1\r\nA", [.headerField (ascii "A")]), (": b", [.headerValue (ascii "b")]),
   ("\r\nC", [.headerField (ascii "C")]), (": d", [.headerValue (ascii "d")]),
   ("\r\nE", [.headerField (ascii "E")]), (": f", [.headerValue (ascii "f")]),
   ("\r\n\r\n", [.headersComplete .get true, .messageComplete])]

/-- The three fields under a limit of one, cut inside the third field. -/
def threeFieldsScript :
    Script (Loop.step (sampleWorker (scripted threeFields)))
      (fun l e => l.enabled e = true ∧ QuietStep (sampleWorker (scripted threeFields)) l e)
      (acceptConn (sampleWorker (scripted threeFields)) (some { maxHeaderFields := 1 }) false [])
      fun l => .staged 0 .k431 ∈ l.log where
  events := [(.recv (.data ((scriptBytes threeFields).take 30)), {}), (.write (.sent 1), {}),
      (.recv (.data ((scriptBytes threeFields).drop 30)), {})]
  allowed := by decide +kernel
  ends := by decide +kernel

/-- The three fields under a limit of one, cut inside the third field: the 431 is the only answer,
also after the end of the header section has arrived. -/
theorem rejectedOnce_three_fields :
    ∃ l, Run (Loop.step (sampleWorker (scripted threeFields)))
        (fun l e => l.enabled e = true ∧ QuietStep (sampleWorker (scripted threeFields)) l e)
        (acceptConn (sampleWorker (scripted threeFields)) (some { maxHeaderFields := 1 }) false [])
        [(.recv (.data ((scriptBytes threeFields).take 30)), {}), (.write (.sent 1), {}),
          (.recv (.data ((scriptBytes threeFields).drop 30)), {})] l ∧
      .staged 0 .k431 ∈ l.log ∧ RejectedOnce l.log := by
  obtain ⟨l, hrun, hstaged⟩ := threeFieldsScript.exists_run
  exact ⟨l, hrun, hstaged, rejectedOnce_of_quiet _ _ _ hrun⟩

/-- A request of two header fields. -/
def twoFields : List (String × List Callback) :=
  [("GET /", [.url (ascii "/")]),
   (" HTTP/1.1\r\nA", [.headerField (ascii "A")]), (": b", [.headerValue (ascii "b")]),
   ("\r\nC", [.headerField (ascii "C")]), (": d", [.headerValue (ascii "d")]),
   ("\r\n\r\n", [.headersComplete .get true, .messageComplete])]

/-- The two fields under a limit of one, and one byte more. -/
def twoFieldsScript :
    Script (Loop.step (sampleWorker (scripted twoFields)))
      (fun l e => l.enabled e = true)
      (acceptConn (sampleWorker (scripted twoFields)) (some { maxHeaderFields := 1 }) false [])
      fun l => ¬ RejectedOnce l.log where
  events := [(.recv (.data (scriptBytes twoFields)), {}), (.write (.sent 1), {}),
      (.recv (.data [120]), {})]
  allowed := by decide +kernel
  ends := by decide +kernel

/-- The two fields under a limit of one exceed it only at the end of the header section, where the
message is complete as well: the 431 is staged, and the next byte received makes the loop dispatch
the request. -/
theorem rejectedOnce_fails_at_header_end :
    ∃ l, Run (Loop.step (sampleWorker (scripted twoFields))) (fun l e => l.enabled e = true)
        (acceptConn (sampleWorker (scripted twoFields)) (some { maxHeaderFields := 1 }) false [])
        [(.recv (.data (scriptBytes twoFields)), {}), (.write (.sent 1), {}),
          (.recv (.data [120]), {})] l ∧
      ¬ RejectedOnce l.log :=
  twoFieldsScript.exists_run

end Lamseryn
