import Lamseryn.Properties.PlainTransmit
import Lamseryn.Properties.PostedOps
import Lamseryn.Properties.Scripted

/-!
# Draining after a 431

A plain connection whose header section is too big is answered with 431 and then only read from, so that
the client sees the response before the connection is reset.  `DrainsOn` says that this goes on: the
descriptor is there, the 431 is on its way or a read is posted, and no request is answered.

Draining uses the ordinary read path.  What is received while `header_too_big` is set is not fed to the
parser and counts as left over, so it fills the stash; and the classification, which passes over the 431
once the connection drains, sees whatever else the parser had found.  `toleratesDrain` says which events
the drain survives.
-/

namespace Lamseryn

open ByteText GuardedRun IoView

variable {L : Llhttp}

/-! ## What draining is -/

/-- An entry of the log by which a request is answered. -/
def LogEntry.answersRequest : LogEntry → Bool
  | .applied _ _ => false
  | _ => true

/-- The dispatched requests and staged responses so far. -/
def Loop.answers (l : Loop L) : List LogEntry :=
  l.log.filter LogEntry.answersRequest

/-- The connection is open, its response is on its way or it reads, and nothing was answered since. -/
structure Session.DrainsOn (s : Session L) (answers : List LogEntry) : Prop where
  fdOpen : s.loop.conn.fdOpen = true
  attends : 0 < s.loop.recvOps ∨ (txPendingHeaders s.loop.conn.tx = true ∧
    (0 < sendsInFlight s.history ∨ 0 < pollsInFlight s.history))
  answers : s.loop.answers = answers

/-- What may end a drain: the end of the stream, an error of the socket, and the deadline. -/
def SessionEvent.endsDrain : SessionEvent → Bool
  | .io (.recv .closed) => true
  | .io (.write .interrupted) => true
  | .io (.write .failed) => true
  | .io (.write (.sent 0)) => true
  | .io .expire => true
  | _ => false

/-- The parser has found nothing about the request that the classification would act on. -/
def Http1State.undecided (s : Http1State) : Bool :=
  !s.internalError && !s.unsupportedTe && !s.bodyTooBig && !s.parseError && !s.messageDone

/-- The stash has room for received data, and there is a block for it. -/
def Conn.stashTakes (c : Conn L) (buf : Bytes) (env : Env) : Bool :=
  decide (c.rxStash.length + buf.length ≤ rbufSz) &&
    (c.rxStash != [] || env.stashBlocks.head? != some false)

/-- The events that a drain survives: data that the stash takes, while there is nothing else to answer,
and a completion without a buffer that is not the second in a row. -/
def Session.toleratesDrain (s : Session L) (e : SessionEvent × Env) : Bool :=
  match e.1 with
  | .io (.recv (.data buf)) => s.loop.conn.stashTakes buf e.2 && s.loop.conn.h1.undecided
  | .io (.recv .noBuffer) => s.loop.conn.noselectStreak == 0
  | _ => true

/-- An event of the drain: it can occur, does not end the drain, and every submission entry is granted. -/
def Session.inDrain (s : Session L) (e : SessionEvent × Env) : Bool :=
  s.enabled e && !e.1.endsDrain && e.2.sqes.all id

/-! ## Inside a drain -/

/-- The state of a connection that drains: the 431 with its flags, and a parser that is fed no more. -/
structure Drain431 (l : Loop L) : Prop where
  draining : l.conn.draining = true
  closing : l.conn.closing = false
  headerTooBig : l.conn.h1.headerTooBig = true
  kind : l.conn.tx.respKind = .k431
  drain : l.conn.tx.drainAfterHeaders = true
  writeBuf : l.conn.tx.writeBuf ≠ []

lemma connRxStashAppend_fst {l : Loop L} {buf : Bytes} (hbuf : buf ≠ []) :
    (connRxStashAppend l buf).1 = l.conn.stashTakes buf l.env := by
  unfold connRxStashAppend Loop.stashAlloc Conn.stashTakes
  rw [if_neg hbuf]
  by_cases hlong : rbufSz < l.conn.rxStash.length + buf.length
  · rw [if_pos hlong, decide_eq_false (by omega), Bool.false_and]
  · rw [if_neg hlong, decide_eq_true (by omega), Bool.true_and]
    by_cases hempty : l.conn.rxStash = []
    · rw [if_pos hempty]
      rcases l.env.stashBlocks with _ | ⟨ok, rest⟩
      · simp
      · cases ok <;> simp [hempty]
    · simp [hempty]

lemma classify_of_draining {c : Conn L} (h : c.draining = true) :
    httpPipelineClassifyAction c = .continue ∧ c.h1.internalError = false ↔
      c.h1.undecided = true := by
  unfold httpPipelineClassifyAction Http1State.undecided
  cases c.h1.internalError <;> cases c.h1.unsupportedTe <;> cases c.h1.bodyTooBig <;>
    cases c.h1.parseError <;> cases c.h1.messageDone <;> simp [h]

/-! ## Granted entries -/

lemma getSqe_granted {l : Loop L} (h : l.env.sqes.all id = true) :
    ∃ e : Env, l.getSqe = (true, { l with env := e }) ∧ e.io = l.env.io ∧ e.sqes.all id = true := by
  unfold Loop.getSqe
  rcases hs : l.env.sqes with _ | ⟨ok, rest⟩
  · exact ⟨l.env, rfl, rfl, h⟩
  · rw [hs] at h
    simp only [List.all_cons, id_eq, Bool.and_eq_true] at h
    exact ⟨{ l.env with sqes := rest }, by simp [h.1], rfl, h.2⟩

lemma postRecvPtr_granted {l : Loop L} (h : l.env.sqes.all id = true) (hfd : l.conn.fdOpen = true)
    (hdraining : l.conn.draining = true) (harmed : l.conn.tx.recvArmed = false) :
    ∃ e : Env, postRecvPtr l = ({ l with env := e } : Loop L).armRead := by
  obtain ⟨e, he, -⟩ := getSqe_granted h
  refine ⟨e, ?_⟩
  unfold postRecvPtr connIsClosingNoDeadline
  rw [if_neg (by simp [hfd, hdraining, harmed]), he]

/-! ## Received data -/

lemma takeBytes_of_headerTooBig {l : Loop L} (h : l.conn.h1.headerTooBig = true) (buf : Bytes) :
    takeBytes l buf = (l, 0) := by
  simp [takeBytes, rxStages_of_headerTooBig h]

lemma connRxStashAppend_sqes (l : Loop L) (data : Bytes) :
    (connRxStashAppend l data).2.env.sqes = l.env.sqes := by
  unfold connRxStashAppend Loop.stashAlloc
  split_ifs
  · rfl
  · rfl
  · rcases l.env.stashBlocks with _ | ⟨ok, rest⟩
    · rfl
    · cases ok <;> rfl
  · rfl

lemma Drain431.reads {l : Loop L} (h : Drain431 l) (hfd : l.conn.fdOpen = true)
    (hsqes : l.env.sqes.all id = true) (harmed : l.conn.tx.recvArmed = false) :
    Drain431 (postRecvPtr l) ∧ (postRecvPtr l).conn.fdOpen = true ∧ 0 < (postRecvPtr l).recvOps ∧
      (postRecvPtr l).answers = l.answers := by
  obtain ⟨e, he⟩ := postRecvPtr_granted hsqes hfd h.draining harmed
  rw [he]
  exact ⟨⟨h.draining, h.closing, h.headerTooBig, h.kind, h.drain, h.writeBuf⟩, hfd, Nat.succ_pos _, rfl⟩

lemma record_applied_answers (l : Loop L) (n : ℕ) (a : HttpAction) :
    (l.record (.applied n a)).answers = l.answers := by
  simp [Loop.answers, Loop.record, LogEntry.answersRequest]

/-- While draining, `CONTINUE` posts a read. -/
lemma httpApplyAction_of_draining {w : Worker L} {stash : Loop L → Loop L × Bool} {l : Loop L}
    (herr : l.conn.h1.internalError = false) (hdraining : l.conn.draining = true) :
    httpApplyAction w stash l .continue = postRecvPtr (l.record (.applied l.reqNo .continue)) := by
  have hplan : httpPipelineBuildApplyPlan l.conn .continue = .continue := by
    simp [httpPipelineBuildApplyPlan, httpPipelineErrorPlan, herr]
  unfold httpApplyAction connIsClosingNoDeadline
  dsimp only
  rw [record_conn, hplan]
  simp [hdraining]

lemma Response.answered {l : Loop L} {a : HttpAction} {tx : TxState} {closing draining : Bool}
    {tail : List LogEntry} (h : Response l a tx closing draining tail) :
    tail.filter LogEntry.answersRequest ≠ [] := by
  rcases h with ⟨kind, -, -, htail | ⟨h1, htail⟩⟩ | ⟨-, -, -, -, -, -, -, -, htail⟩ |
    ⟨kind, h1, -, -, -, -, -, -, -, -, htail⟩
  all_goals
    rw [htail]
    simp [LogEntry.answersRequest]

lemma httpApplyAction_answers (w : Worker L) (stash : Loop L → Loop L × Bool) {l : Loop L}
    (hplain : l.conn.tlsEnabled = false) {a : HttpAction}
    (ha : ¬ (a = .continue ∧ l.conn.h1.internalError = false)) :
    (httpApplyAction w stash l a).conn.fdOpen = false ∨
      (httpApplyAction w stash l a).answers ≠ l.answers := by
  rcases httpApplyAction_applied w stash l a with
    ⟨hcont, herr, -⟩ | ⟨-, -, e, -, heq⟩ |
      ⟨want, tx, closing, draining, env, tail, hresp, -, -, -, -, heq⟩
  · exact absurd ⟨hcont, herr⟩ ha
  · rw [heq]
    exact Or.inl (scheduleOrSyncClose_detached _)
  · refine Or.inr fun hsame => hresp.answered ?_
    have hlog : (httpApplyAction w stash l a).log = l.log ++ .applied l.reqNo a :: tail := by
      rw [heq]
      unfold startSend
      rw [if_neg (by simp [Loop.withResponse, hplain])]
      rfl
    rw [Loop.answers, hlog, List.filter_append, Loop.answers, List.append_right_eq_self] at hsame
    simpa [LogEntry.answersRequest] using hsame

lemma httpApplyAction_detached (w : Worker L) {l : Loop L} (h : l.conn.fdOpen = false)
    (a : HttpAction) (ha : a = .respOk → l.conn.h1.messageDone = true) :
    (httpApplyAction w (stashProcessor w) l a).conn.fdOpen = false :=
  ((growRules w l.view).applies (growRules w l.view).stash (.refl l.view) a ha).detached h

/-- **Data while draining** is not parsed: it goes to the stash, and the drain goes on exactly if the stash
takes it and there is nothing to answer. -/
lemma Drain431.readData {w : Worker L} {l : Loop L} (h : Drain431 l) (hfd : l.conn.fdOpen = true)
    (hplain : l.conn.tlsEnabled = false) (hsqes : l.env.sqes.all id = true)
    (harmed : l.conn.tx.recvArmed = false) {buf : Bytes} (hbuf : buf ≠ []) :
    (l.conn.stashTakes buf l.env = true ∧ l.conn.h1.undecided = true →
      Drain431 (readData w l buf) ∧ (readData w l buf).conn.fdOpen = true ∧
        0 < (readData w l buf).recvOps ∧ (readData w l buf).answers = l.answers) ∧
    (¬ (l.conn.stashTakes buf l.env = true ∧ l.conn.h1.undecided = true) →
      (readData w l buf).conn.fdOpen = false ∨ (readData w l buf).answers ≠ l.answers) := by
  have htaken : takeBytes l.heard buf = (l.heard, 0) :=
    takeBytes_of_headerTooBig (l := l.heard) h.headerTooBig buf
  have hfits : (connRxStashAppend l.heard buf).1 = l.conn.stashTakes buf l.env :=
    connRxStashAppend_fst hbuf
  have hgranted : (connRxStashAppend l.heard buf).2.env.sqes.all id = true := by
    rw [connRxStashAppend_sqes]
    exact hsqes
  rw [readData_eq, htaken, List.drop_zero]
  unfold stashRest
  obtain ⟨e, -, hr | hr⟩ := connRxStashAppend_cases l.heard buf
  · rw [hr] at hfits hgranted ⊢
    have hclassify := classify_of_draining (c := (l.heard.stashed buf e).conn) h.draining
    rw [if_pos rfl]
    dsimp only
    refine ⟨fun hok => ?_, fun hno => ?_⟩
    · obtain ⟨hcont, herr⟩ := hclassify.mpr hok.2
      rw [hcont, httpApplyAction_of_draining herr h.draining]
      obtain ⟨hdrain', hfd', hreads, hanswers⟩ :=
        Drain431.reads (l := (l.heard.stashed buf e).record (.applied l.reqNo .continue))
          ⟨h.draining, h.closing, h.headerTooBig, h.kind, h.drain, h.writeBuf⟩ hfd
          hgranted harmed
      exact ⟨hdrain', hfd', hreads, hanswers.trans (record_applied_answers _ _ _)⟩
    · refine httpApplyAction_answers w _ (l := l.heard.stashed buf e) hplain fun hwaits => ?_
      exact hno ⟨hfits.symm, hclassify.mp hwaits⟩
  · rw [hr] at hfits ⊢
    rw [if_neg (by simp)]
    dsimp only
    refine ⟨fun hok => absurd (hfits.trans hok.1) Bool.false_ne_true, fun _ => Or.inl ?_⟩
    exact httpApplyAction_detached w (scheduleOrSyncClose_detached _) _ classify_respOk

/-! ## The events of a drain -/

/-- What is known between the events of a drain. -/
structure Session.Drain (s : Session L) (answers : List LogEntry) : Prop where
  tx : TxInv s.loop.view
  posted : Posted s.loop.view
  state : Drain431 s.loop
  on : s.DrainsOn answers

section Events

variable {w : Worker L} {s : Session L} {answers : List LogEntry} {env : Env}

lemma Session.step_recv (env : Env) (hfd : s.loop.conn.fdOpen = true)
    (hclosing : s.loop.conn.closing = false) (r : RecvResult) :
    (s.step w (.io (.recv r), env)).loop =
      Loop.emit
        (match r with
          | .noBuffer =>
            let l := { s.receiving env with
              conn := { (s.receiving env).conn with noselectStreak := s.loop.conn.noselectStreak + 1 } }
            if 2 ≤ l.conn.noselectStreak then scheduleOrSyncClose l
            else if connIsClosingNoDeadline l.conn then l
            else postRecvPtr l
          | .again =>
            if connIsClosingNoDeadline (s.receiving env).conn then s.receiving env
            else postRecvPtr (s.receiving env)
          | .closed => scheduleOrSyncClose (s.receiving env)
          | .data buf => Lamseryn.readData w (s.receiving env) buf) [.put] := by
  have hguard : ¬ (!s.loop.conn.fdOpen || s.loop.conn.closing) = true := by simp [hfd, hclosing]
  exact congrArg (Loop.emit · [.put]) (if_neg hguard)

lemma Drain431.of_read {s' : Session L} {l : Loop L} (hloop : s'.loop = l.emit [.put])
    (h : Drain431 l ∧ l.conn.fdOpen = true ∧ 0 < l.recvOps ∧ l.answers = answers) :
    Drain431 s'.loop ∧ s'.DrainsOn answers := by
  obtain ⟨hdrain, hfd, hreads, hanswers⟩ := h
  refine ⟨?_, hloop ▸ hfd, Or.inl (hloop ▸ hreads), hloop ▸ hanswers⟩
  rw [hloop]
  exact ⟨hdrain.draining, hdrain.closing, hdrain.headerTooBig, hdrain.kind, hdrain.drain, hdrain.writeBuf⟩

/-- A completed read. -/
lemma Session.Drain.recv (h : s.Drain answers) (hsqes : env.sqes.all id = true) {r : RecvResult}
    (hr : r.inBounds = true) (hend : r ≠ .closed) :
    (s.toleratesDrain (.io (.recv r), env) = true →
      Drain431 (s.step w (.io (.recv r), env)).loop ∧
        (s.step w (.io (.recv r), env)).DrainsOn answers) ∧
    ((s.step w (.io (.recv r), env)).DrainsOn answers →
      s.toleratesDrain (.io (.recv r), env) = true) := by
  have hloop := Session.step_recv (w := w) env h.on.fdOpen h.state.closing r
  have hopen : (s.receiving env).conn.fdOpen = true := h.on.fdOpen
  have hsame : (s.receiving env).answers = answers := h.on.answers
  have hdrain : Drain431 (s.receiving env) :=
    ⟨h.state.draining, h.state.closing, h.state.headerTooBig, h.state.kind, h.state.drain,
      h.state.writeBuf⟩
  have hdeaf : connIsClosingNoDeadline (s.receiving env).conn = false := by
    simp [connIsClosingNoDeadline, hdrain.closing]
  cases r with
  | closed => exact absurd rfl hend
  | data buf =>
    have hbuf : buf ≠ [] := by
      simp only [RecvResult.inBounds, decide_eq_true_eq] at hr
      exact hr.1
    obtain ⟨hgoes, hstops⟩ := hdrain.readData (w := w) hopen h.tx.plain hsqes rfl hbuf
    have hiff : s.toleratesDrain (.io (.recv (.data buf)), env) = true ↔
        (s.receiving env).conn.stashTakes buf (s.receiving env).env = true ∧
          (s.receiving env).conn.h1.undecided = true := Bool.and_eq_true_iff
    rw [hiff]
    refine ⟨fun hok => Drain431.of_read hloop ?_, fun hon => ?_⟩
    · obtain ⟨hdrain', hfd', hreads, hanswers⟩ := hgoes hok
      exact ⟨hdrain', hfd', hreads, hanswers.trans hsame⟩
    · by_contra hno
      rcases hstops hno with hclosed | hanswered
      · have hfd' := hon.fdOpen
        rw [hloop] at hfd'
        exact absurd (hfd'.symm.trans hclosed) (by decide)
      · have hanswers := hon.answers
        rw [hloop] at hanswers
        exact hanswered (hanswers.trans hsame.symm)
  | again =>
    refine ⟨fun _ => Drain431.of_read (hloop.trans (congrArg (Loop.emit · [.put]) (if_neg (by simp [hdeaf])))) ?_,
      fun _ => rfl⟩
    obtain ⟨hdrain', hfd', hreads, hanswers⟩ := hdrain.reads hopen hsqes rfl
    exact ⟨hdrain', hfd', hreads, hanswers.trans hsame⟩
  | noBuffer =>
    have hstreak : s.toleratesDrain (.io (.recv .noBuffer), env) = true ↔
        s.loop.conn.noselectStreak = 0 := beq_iff_eq
    rw [hstreak]
    dsimp only at hloop
    refine ⟨fun hzero => Drain431.of_read (l := postRecvPtr { s.receiving env with
      conn := { (s.receiving env).conn with noselectStreak := s.loop.conn.noselectStreak + 1 } }) ?_ ?_,
      fun hon => ?_⟩
    · rw [hloop, if_neg (by omega), if_neg (by simp [connIsClosingNoDeadline, hdrain.closing])]
    · obtain ⟨hdrain', hfd', hreads, hanswers⟩ := Drain431.reads (l := { s.receiving env with
        conn := { (s.receiving env).conn with noselectStreak := s.loop.conn.noselectStreak + 1 } })
        ⟨hdrain.draining, hdrain.closing, hdrain.headerTooBig, hdrain.kind, hdrain.drain,
          hdrain.writeBuf⟩ hopen hsqes rfl
      exact ⟨hdrain', hfd', hreads, hanswers.trans hsame⟩
    · by_contra hne
      have hfd' := hon.fdOpen
      rw [hloop, if_pos (by omega)] at hfd'
      exact absurd (hfd'.symm.trans (scheduleOrSyncClose_detached _)) (by decide)

lemma sendsInFlight_of_txInv (h : TxInv s.loop.view) :
    sendsInFlight s.history = (ledger s.history).sends.length :=
  sendsInFlight_eq h.accepts

lemma pollsInFlight_of_txInv (h : TxInv s.loop.view) :
    pollsInFlight s.history = (ledger s.history).polls :=
  pollsInFlight_eq h.accepts

lemma Session.Drain.sending (h : s.Drain answers)
    (hbusy : 0 < sendsInFlight s.history ∨ 0 < pollsInFlight s.history) :
    txPendingHeaders s.loop.conn.tx = true ∧ s.loop.conn.tx.recvArmed = false := by
  have hresp : Responding s.loop.view := by
    refine h.tx.busy h.on.fdOpen h.state.closing ?_
    rcases hbusy with hsends | hpolls
    · rw [sendsInFlight_of_txInv h.tx] at hsends
      exact Or.inl (List.length_pos_iff.mp hsends)
    · rw [pollsInFlight_of_txInv h.tx] at hpolls
      exact Or.inr hpolls.ne'
  obtain ⟨hnone, harmed⟩ := hresp.reads h.state.closing
  rcases h.on.attends with hreads | hpending
  · exact absurd hnone (by show s.loop.recvOps ≠ 0; omega)
  · exact ⟨hpending.1, harmed⟩

lemma Session.Drain.unpolled (h : s.Drain answers) (hsends : 0 < sendsInFlight s.history) :
    s.loop.conn.tx.writePollArmed = false := by
  refine Bool.eq_false_iff.mpr fun hflag => ?_
  have hkind : s.loop.view.tx.respKind = .k431 := h.state.kind
  have hpolls := h.posted.polls h.on.fdOpen ⟨hflag, fun hskip => by simp [hkind] at hskip⟩
  rw [pollsInFlight_eq h.tx.accepts] at hpolls
  rw [sendsInFlight_of_txInv h.tx] at hsends
  rcases h.tx.one h.on.fdOpen with ⟨hnone, -⟩ | ⟨-, hnone⟩
  · rw [show (ledger s.history).sends = [] from hnone] at hsends
    exact absurd hsends (by simp)
  · omega

lemma Drain431.of_send {s' : Session L} {l : Loop L} (buf : Bytes) (htx : TxInv s'.loop.view)
    (hloop : s'.loop = (l.emit [.ref, .postSend buf]).emit [.put]) (h : Drain431 l)
    (hfd : l.conn.fdOpen = true) (hpending : txPendingHeaders l.conn.tx = true)
    (hanswers : l.answers = answers) : Drain431 s'.loop ∧ s'.DrainsOn answers := by
  have hsends : 0 < sendsInFlight s'.history := by
    rw [sendsInFlight_of_txInv htx, Session.history, hloop]
    simp [Loop.emit, ledger_append, Ledger.next]
  refine ⟨?_, hloop ▸ hfd, Or.inr ⟨hloop ▸ hpending, Or.inl hsends⟩, hloop ▸ hanswers⟩
  rw [hloop]
  exact ⟨h.draining, h.closing, h.headerTooBig, h.kind, h.drain, h.writeBuf⟩

lemma writePostRemaining_granted {l : Loop L} (hsqes : l.env.sqes.all id = true)
    (hpending : txPendingHeaders l.conn.tx = true) (guardIfClosing : Bool) :
    ∃ e : Env, writePostRemaining l guardIfClosing =
      ({ l with env := e } : Loop L).emit [.ref, .postSend l.conn.tx.pending] := by
  obtain ⟨e, he, -⟩ := getSqe_granted hsqes
  refine ⟨e, ?_⟩
  unfold writePostRemaining
  rw [if_pos hpending, he]

lemma writeReadyHandleCqe_of_sendHeaders {stash : Loop L → Loop L × Bool} {l : Loop L}
    (h : txOnPollout { l.conn.tx with writePollArmed := false } = .sendHeaders) :
    writeReadyHandleCqe w stash l =
      writePostRemaining (l.setTx { l.conn.tx with writePollArmed := false }) false := by
  have hset : txOnPollout (l.setTx { l.conn.tx with writePollArmed := false }).conn.tx = .sendHeaders := h
  unfold writeReadyHandleCqe
  dsimp only
  rw [hset]

lemma Session.Drain.writeReady (h : s.Drain answers) (hsqes : env.sqes.all id = true)
    (hpolls : 0 < pollsInFlight s.history) (htx : TxInv (s.step w (.io .writeReady, env)).loop.view) :
    Drain431 (s.step w (.io .writeReady, env)).loop ∧
      (s.step w (.io .writeReady, env)).DrainsOn answers := by
  obtain ⟨hpending, -⟩ := h.sending (Or.inr hpolls)
  set l := ((s.entered env).emit [.pollDone]).setTx { s.loop.conn.tx with writePollArmed := false }
    with hl
  obtain ⟨e, he⟩ := writePostRemaining_granted (l := l) hsqes hpending false
  have hpollout : txOnPollout l.conn.tx = .sendHeaders := by
    have hpending' : txPendingHeaders l.conn.tx = true := hpending
    have hkind : l.conn.tx.respKind = .k431 := h.state.kind
    simp [txOnPollout, hpending', hkind]
  refine Drain431.of_send (l := { l with env := e }) l.conn.tx.pending htx ?_
    ⟨h.state.draining, h.state.closing, h.state.headerTooBig, h.state.kind, h.state.drain,
      h.state.writeBuf⟩ h.on.fdOpen hpending h.on.answers
  rw [← he]
  show (handleWriteReady w ((s.entered env).emit [.pollDone])).emit [.put] = _
  unfold handleWriteReady
  have hfd : ((s.entered env).emit [.pollDone]).conn.fdOpen = true := h.on.fdOpen
  have hclosing : ((s.entered env).emit [.pollDone]).conn.closing = false := h.state.closing
  have htls : ((s.entered env).emit [.pollDone]).conn.tlsEnabled = false := h.tx.plain
  rw [if_pos hfd, if_neg (by simp [hclosing]), if_neg (by simp [htls])]
  have hready : writeReadyHandleCqe w (stashProcessor w) ((s.entered env).emit [.pollDone]) =
      writePostRemaining l false := by
    exact writeReadyHandleCqe_of_sendHeaders hpollout
  rw [hready]

lemma Session.Drain.writeAgain (h : s.Drain answers) (hsqes : env.sqes.all id = true)
    (hsends : 0 < sendsInFlight s.history)
    (htx : TxInv (s.step w (.io (.write .again), env)).loop.view) :
    Drain431 (s.step w (.io (.write .again), env)).loop ∧
      (s.step w (.io (.write .again), env)).DrainsOn answers := by
  obtain ⟨hpending, -⟩ := h.sending (Or.inl hsends)
  set l := (s.entered env).emit [.sendDone .again] with hl
  have hfd : l.conn.fdOpen = true := h.on.fdOpen
  have hflag : l.conn.tx.writePollArmed = false := h.unpolled hsends
  obtain ⟨e, he, -, hsqes'⟩ := getSqe_granted (l := l) hsqes
  obtain ⟨e', he', -⟩ := getSqe_granted (l := { l with env := e }) hsqes'
  have hloop : (s.step w (.io (.write .again), env)).loop =
      ({ l with env := e' } : Loop L).armPoll.emit [.put] := by
    show (handleWrite w l .again).emit [.put] = _
    unfold handleWrite
    rw [if_pos hfd]
    show (writeArmPollout l).emit [.put] = _
    unfold writeArmPollout
    rw [if_neg (by simp [hflag]), he]
    dsimp only
    rw [he']
  have hpolls : 0 < pollsInFlight (s.step w (.io (.write .again), env)).history := by
    rw [pollsInFlight_of_txInv htx, Session.history, hloop]
    simp [Loop.emit, Loop.armPoll, Loop.setTx, ledger_append, Ledger.next]
  refine ⟨?_, hloop ▸ hfd, Or.inr ⟨hloop ▸ hpending, Or.inr hpolls⟩, hloop ▸ h.on.answers⟩
  rw [hloop]
  exact ⟨h.state.draining, h.state.closing, h.state.headerTooBig, h.state.kind, h.state.drain,
    h.state.writeBuf⟩

lemma txOnHeadersResult_more {tx : TxState} {n : ℕ} (hbuf : tx.writeBuf ≠ [])
    (hmore : tx.writeOff + (n + 1) < tx.writeBuf.length) :
    txOnHeadersResult tx (.sent (n + 1)) =
      ({ tx with writeOff := tx.writeOff + (n + 1) }, .sendHeaders) := by
  simp [txOnHeadersResult, hbuf, hmore]

lemma txOnHeadersResult_drained {tx : TxState} {n : ℕ} (hbuf : tx.writeBuf ≠ [])
    (hdone : ¬ tx.writeOff + (n + 1) < tx.writeBuf.length) (hdrain : tx.drainAfterHeaders = true) :
    txOnHeadersResult tx (.sent (n + 1)) =
      ({ tx with writeOff := tx.writeOff + (n + 1) }, .shutWrAndRead) := by
  simp [txOnHeadersResult, hbuf, hdone, hdrain]

/-- A send that was accepted: the rest is posted, or the write side is shut and the next read posted. -/
lemma Session.Drain.writeSent (h : s.Drain answers) (hsqes : env.sqes.all id = true) {n : ℕ}
    (hsends : 0 < sendsInFlight s.history)
    (htx : TxInv (s.step w (.io (.write (.sent (n + 1))), env)).loop.view) :
    Drain431 (s.step w (.io (.write (.sent (n + 1))), env)).loop ∧
      (s.step w (.io (.write (.sent (n + 1))), env)).DrainsOn answers := by
  obtain ⟨-, harmed⟩ := h.sending (Or.inl hsends)
  set l := ((s.entered env).emit [.sendDone (.sent (n + 1))]).setTx
    { s.loop.conn.tx with writeOff := s.loop.conn.tx.writeOff + (n + 1) } with hl
  have hfd : l.conn.fdOpen = true := h.on.fdOpen
  have hdrain : Drain431 l :=
    ⟨h.state.draining, h.state.closing, h.state.headerTooBig, h.state.kind, h.state.drain,
      h.state.writeBuf⟩
  have hstart : (s.step w (.io (.write (.sent (n + 1))), env)).loop =
      (writeHandleCqe w (stashProcessor w) ((s.entered env).emit [.sendDone (.sent (n + 1))])
        (.sent (n + 1))).emit [.put] :=
    congrArg (Loop.emit · [.put]) (if_pos hfd)
  unfold writeHandleCqe at hstart
  by_cases hmore : s.loop.conn.tx.writeOff + (n + 1) < s.loop.conn.tx.writeBuf.length
  · have hpending : txPendingHeaders l.conn.tx = true := decide_eq_true hmore
    obtain ⟨e, he⟩ := writePostRemaining_granted (l := l) hsqes hpending true
    refine Drain431.of_send (l := { l with env := e }) l.conn.tx.pending htx ?_
      ⟨hdrain.draining, hdrain.closing, hdrain.headerTooBig, hdrain.kind, hdrain.drain,
        hdrain.writeBuf⟩ hfd hpending h.on.answers
    rw [← he, hstart, show txOnHeadersResult ((s.entered env).emit _).conn.tx _ = _ from
      txOnHeadersResult_more h.state.writeBuf hmore]
    rfl
  · have hflag : l.conn.tx.writePollArmed = false := h.unpolled hsends
    have hcancel : cancelWritePollIfArmed l = l := if_neg (by simp [hflag])
    refine Drain431.of_read (l := postRecvPtr l) ?_ ?_
    · rw [hstart, show txOnHeadersResult ((s.entered env).emit _).conn.tx _ = _ from
        txOnHeadersResult_drained h.state.writeBuf hmore h.state.drain]
      exact congrArg (fun l => (postRecvPtr l).emit [.put]) hcancel
    · obtain ⟨hdrain', hfd', hreads, hanswers⟩ := hdrain.reads hfd hsqes harmed
      exact ⟨hdrain', hfd', hreads, hanswers.trans h.on.answers⟩

/-- **One event of a drain**: the drain goes on exactly if it survives the event. -/
lemma Session.Drain.step (h : s.Drain answers) {e : SessionEvent × Env} (he : s.inDrain e = true) :
    (s.toleratesDrain e = true → (s.step w e).Drain answers) ∧
      ((s.step w e).DrainsOn answers → s.toleratesDrain e = true) := by
  obtain ⟨ev, env⟩ := e
  unfold Session.inDrain at he
  simp only [Bool.and_eq_true, Bool.not_eq_true'] at he
  obtain ⟨⟨hen, hend⟩, hsqes⟩ := he
  have htx := h.tx.step (w := w) hen
  have hposted := h.posted.step (w := w) hen
  have hfull : Drain431 (s.step w (ev, env)).loop ∧ (s.step w (ev, env)).DrainsOn answers →
      (s.step w (ev, env)).Drain answers := fun hnext => ⟨htx, hposted, hnext.1, hnext.2⟩
  have hplain : s.loop.conn.tlsEnabled = false := h.tx.plain
  cases ev with
  | io e =>
    cases e with
    | recv r =>
      simp only [Session.enabled, Bool.and_eq_true] at hen
      obtain ⟨hgoes, honly⟩ := h.recv (w := w) hsqes hen.2 (by rintro rfl; simp [SessionEvent.endsDrain] at hend)
      exact ⟨fun hok => hfull (hgoes hok), honly⟩
    | tlsRead rs => simp [Session.enabled, hplain] at hen
    | write res =>
      have hsends := of_decide_eq_true hen
      refine ⟨fun _ => hfull ?_, fun _ => rfl⟩
      cases res with
      | again => exact h.writeAgain hsqes hsends htx
      | interrupted => simp [SessionEvent.endsDrain] at hend
      | failed => simp [SessionEvent.endsDrain] at hend
      | sent n =>
        cases n with
        | zero => simp [SessionEvent.endsDrain] at hend
        | succ n => exact h.writeSent hsqes hsends htx
    | writeReady =>
      simp only [Session.enabled, Bool.and_eq_true, decide_eq_true_eq] at hen
      exact ⟨fun _ => hfull (h.writeReady hsqes hen.2 htx), fun _ => rfl⟩
    | shutdown =>
      have hhistory : (s.step w (.io .shutdown, env)).history = s.history := by
        show (s.loop.env.io ++ []) ++ [] = s.loop.env.io
        simp
      refine ⟨fun _ => hfull ⟨?_, h.on.fdOpen, ?_, h.on.answers⟩, fun _ => rfl⟩
      · exact ⟨h.state.draining, h.state.closing, h.state.headerTooBig, h.state.kind, h.state.drain,
          h.state.writeBuf⟩
      · rw [hhistory]
        exact h.on.attends
    | expire => simp [SessionEvent.endsDrain] at hend
  | handshakeRead failed hs => simp [Session.enabled, Session.handshakePending, hplain] at hen
  | handshakeReady hs => simp [Session.enabled, Session.handshakePending, hplain] at hen
  | closed =>
    have hnone : closesInFlight s.history = 0 := h.posted.closesInFlight h.on.fdOpen
    simp [Session.enabled, hnone] at hen
  | timeout =>
    simp [Session.enabled, Session.requestInProgress, h.state.draining] at hen

end Events

/-! ## How a drain begins -/

/-- The connection was just answered with 431. -/
structure Begins (l : Loop L) : Prop where
  state : Drain431 l
  pending : txPendingHeaders l.conn.tx = true
  posted : ∃ h buf, l.env.io = h ++ [.ref, .postSend buf]

/-- If the connection drains and is not closing, it was just answered with 431. -/
def BeginsIfDrains (l : Loop L) : Prop :=
  l.conn.draining = true → l.conn.closing = false → Begins l

lemma beginsIfDrains_of_idle {l : Loop L} (h : l.conn.draining = false) : BeginsIfDrains l :=
  fun hdraining => absurd (hdraining.symm.trans h) (by decide)

/-- Applying the action of a plain connection that does not drain yet. -/
lemma beginsIfDrains_applied (w : Worker L) (stash : Loop L → Loop L × Bool) {l : Loop L}
    (hplain : l.conn.tlsEnabled = false) (hidle : l.conn.draining = false) :
    BeginsIfDrains (httpApplyAction w stash l (httpPipelineClassifyAction l.conn)) ∧
      (httpPipelineClassifyAction l.conn = .continue →
        (httpApplyAction w stash l .continue).conn.draining = false ∨
          (httpApplyAction w stash l .continue).conn.closing = true) := by
  generalize ha : httpPipelineClassifyAction l.conn = a
  rcases httpApplyAction_applied w stash l a with
    ⟨-, -, hio, -⟩ | ⟨hio, -⟩ |
      ⟨want, tx, closing, draining, env, tail, hresp, hoff, -, -, hio, heq⟩
  · have hdr := hio.draining.trans hidle
    exact ⟨beginsIfDrains_of_idle hdr, fun hcont => Or.inl (hcont ▸ hdr)⟩
  · have hdr := hio.draining.trans hidle
    exact ⟨beginsIfDrains_of_idle hdr, fun hcont => Or.inl (hcont ▸ hdr)⟩
  · have hposted : httpApplyAction w stash l a =
        (l.withResponse want tx closing draining env (l.log ++ .applied l.reqNo a :: tail)).emit
          [.ref, .postSend tx.writeBuf] := by
      rw [heq]
      exact if_neg (by simp [Loop.withResponse, hplain])
    rcases hresp with ⟨-, hclosing, -⟩ | ⟨h431, -, hclosing, hdraining, hkind, -, hbuf, hdrain, -⟩ |
      ⟨-, -, hok, -, -, hdr, -⟩
    · refine ⟨fun _ hopen => ?_, fun hcont => Or.inr ?_⟩
      · rw [hposted] at hopen
        exact absurd (hopen.symm.trans hclosing) (by decide)
      · subst hcont
        rw [hposted]
        exact hclosing
    · refine ⟨fun _ hopen => ?_, fun hcont => absurd (hcont.symm.trans h431) (by decide)⟩
      have hbig : l.conn.h1.headerTooBig = true := classify_resp431 (ha.trans h431)
      rw [hposted] at hopen ⊢
      refine ⟨⟨hdraining, hopen, hbig, hkind, hdrain, hbuf⟩, ?_, env.io, tx.writeBuf, rfl⟩
      show decide (tx.writeOff < tx.writeBuf.length) = true
      rw [hoff]
      exact decide_eq_true (List.length_pos_iff.mpr hbuf)
    · refine ⟨beginsIfDrains_of_idle ?_, fun hcont => absurd (hcont.symm.trans hok) (by decide)⟩
      rw [hposted]
      exact hdr.trans hidle

lemma beginsIfDrains_stash (w : Worker L) (depth : ℕ) {l : Loop L}
    (hplain : l.conn.tlsEnabled = false) (hidle : l.conn.draining = false) :
    BeginsIfDrains (connTryProcessStash w depth l).1 ∧
      ((connTryProcessStash w depth l).2 = false →
        (connTryProcessStash w depth l).1.conn.draining = false ∨
          (connTryProcessStash w depth l).1.conn.closing = true) := by
  cases depth with
  | zero =>
    unfold connTryProcessStash
    split_ifs
    · exact ⟨beginsIfDrains_of_idle hidle, fun _ => Or.inl hidle⟩
    · exact ⟨beginsIfDrains_of_idle hidle, fun _ => Or.inl hidle⟩
  | succ depth =>
    unfold connTryProcessStash
    split_ifs
    · exact ⟨beginsIfDrains_of_idle hidle, fun _ => Or.inl hidle⟩
    · have hparse := rxStages_parse l.conn l.conn.rxStash
      have happlied := beginsIfDrains_applied w (connTryProcessStash w depth)
        (l := (takeBytes l l.conn.rxStash).1) (hparse.tlsEnabled.trans hplain)
        (hparse.draining.trans hidle)
      dsimp only
      generalize takeBytes l l.conn.rxStash = r at happlied
      refine ⟨fun hdraining hclosing => ?_, fun hcont => ?_⟩
      · obtain ⟨hstate, hpending, hposted⟩ := happlied.1 hdraining hclosing
        exact ⟨⟨hstate.draining, hstate.closing, hstate.headerTooBig, hstate.kind, hstate.drain,
          hstate.writeBuf⟩, hpending, hposted⟩
      · have hcont' : httpPipelineClassifyAction r.1.conn = .continue := by simpa using hcont
        rw [hcont']
        exact happlied.2 hcont'

lemma beginsIfDrains_nextRequest (w : Worker L) {l : Loop L} (hplain : l.conn.tlsEnabled = false) :
    BeginsIfDrains (nextRequest w (stashProcessor w) l) := by
  obtain ⟨hstaged, hwaits⟩ :=
    beginsIfDrains_stash w w.stackDepth (l := connResetRequest w l) hplain rfl
  unfold nextRequest
  dsimp only
  split_ifs with hflag
  · exact hstaged
  · intro hdraining hclosing
    have hio := postRecvPtr_io (stashProcessor w (connResetRequest w l)).1
    rcases hwaits (Bool.eq_false_iff.mpr hflag) with hdr | hcl
    · exact absurd (hdraining.symm.trans (hio.draining.trans hdr)) (by decide)
    · exact absurd (hclosing.symm.trans (hio.closing hcl)) (by decide)

lemma beginsIfDrains_sendOutcome {w : Worker L} {l l' : Loop L} (hplain : l.conn.tlsEnabled = false)
    (hidle : l.conn.draining = false) (hout : SendOutcome w (stashProcessor w) l l') :
    BeginsIfDrains l' := by
  cases hout with
  | io hio => exact beginsIfDrains_of_idle (hio.draining.trans hidle)
  | done l1 _ hio _ heq =>
    rw [heq]
    exact beginsIfDrains_nextRequest w (hio.tlsEnabled.trans hplain)

lemma stashRest_frame (l : Loop L) (data : Bytes) :
    (stashRest l data).conn.tlsEnabled = l.conn.tlsEnabled ∧
      (stashRest l data).conn.draining = l.conn.draining := by
  unfold stashRest
  obtain ⟨e, -, hr | hr⟩ := connRxStashAppend_cases l data
  · rw [hr, if_pos rfl]
    exact ⟨rfl, rfl⟩
  · rw [hr, if_neg Bool.false_ne_true]
    have hio := scheduleOrSyncClose_io ({ l with env := e } : Loop L)
    exact ⟨hio.tlsEnabled, hio.draining⟩

lemma beginsIfDrains_recv (w : Worker L) {l : Loop L} (hplain : l.conn.tlsEnabled = false)
    (hidle : l.conn.draining = false) (r : RecvResult) : BeginsIfDrains (readHandleCqe w l r) := by
  unfold readHandleCqe
  split_ifs
  · exact beginsIfDrains_of_idle hidle
  · cases r with
    | closed => exact beginsIfDrains_of_idle ((scheduleOrSyncClose_io _).draining.trans hidle)
    | again =>
      dsimp only
      split_ifs
      · exact beginsIfDrains_of_idle hidle
      · exact beginsIfDrains_of_idle ((postRecvPtr_io _).draining.trans hidle)
    | noBuffer =>
      dsimp only
      split_ifs
      · exact beginsIfDrains_of_idle ((scheduleOrSyncClose_io _).draining.trans hidle)
      · exact beginsIfDrains_of_idle hidle
      · exact beginsIfDrains_of_idle ((postRecvPtr_io _).draining.trans hidle)
    | data buf =>
      dsimp only
      rw [readData_eq]
      set l1 := l.setTx { l.conn.tx with recvArmed := false }
      have hparse := rxStages_parse l1.heard.conn buf
      obtain ⟨htls, hdr⟩ := stashRest_frame (takeBytes l1.heard buf).1
        (buf.drop (takeBytes l1.heard buf).2)
      exact (beginsIfDrains_applied w _ (htls.trans (hparse.tlsEnabled.trans hplain))
        (hdr.trans (hparse.draining.trans hidle))).1

/-- **How a drain begins**: a plain connection that starts to drain, open and not closing, was just
answered with 431. -/
lemma Session.begins {w : Worker L} {s : Session L} (h : TxInv s.loop.view) (hposted : Posted s.loop.view)
    {e : SessionEvent × Env} (hen : s.enabled e = true) (hidle : s.loop.conn.draining = false)
    (hdraining : (s.step w e).loop.conn.draining = true)
    (hopen : (s.step w e).loop.conn.fdOpen = true)
    (hclosing : (s.step w e).loop.conn.closing = false) :
    (s.step w e).Drain (s.step w e).loop.answers := by
  have htx := h.step (w := w) hen
  have hplain : s.loop.conn.tlsEnabled = false := h.plain
  have hkept : ∀ {P : Prop}, (s.step w e).loop.conn.draining = s.loop.conn.draining → P := by
    intro P hsame
    exact absurd (hdraining.symm.trans (hsame.trans hidle)) (by decide)
  have hdrain : ∀ l : Loop L, (s.step w e).loop = l.emit [.put] → BeginsIfDrains l →
      (s.step w e).Drain (s.step w e).loop.answers := by
    intro l hloop hbegins
    rw [hloop] at hdraining hclosing
    obtain ⟨hstate, hpending, hist, buf, hio⟩ := hbegins hdraining hclosing
    have hsends : 0 < sendsInFlight (s.step w e).history := by
      rw [sendsInFlight_of_txInv htx, Session.history, hloop]
      simp [Loop.emit, hio, ledger_append, Ledger.next]
    refine ⟨htx, hposted.step hen, ?_, hopen, Or.inr ⟨hloop ▸ hpending, Or.inl hsends⟩, rfl⟩
    rw [hloop]
    exact ⟨hstate.draining, hstate.closing, hstate.headerTooBig, hstate.kind, hstate.drain,
      hstate.writeBuf⟩
  obtain ⟨ev, env⟩ := e
  cases ev with
  | io e =>
    cases e with
    | recv r =>
      exact hdrain _ rfl (beginsIfDrains_recv w (l := { (s.entered env).emit [.readDone] with
        recvOps := s.loop.recvOps - 1 }) hplain hidle r)
    | tlsRead rs => simp [Session.enabled, hplain] at hen
    | write res =>
      exact hdrain _ rfl (beginsIfDrains_sendOutcome (l := (s.entered env).emit [.sendDone res]) hplain
        hidle (handleWrite_outcome w _ res))
    | writeReady =>
      exact hdrain _ rfl (beginsIfDrains_sendOutcome (l := (s.entered env).emit [.pollDone]) hplain
        hidle (handleWriteReady_outcome w _))
    | shutdown => exact hkept rfl
    | expire => exact hkept (scheduleOrSyncClose_io ((s.entered env).emit [])).draining
  | handshakeRead failed hs => simp [Session.enabled, Session.handshakePending, hplain] at hen
  | handshakeReady hs => simp [Session.enabled, Session.handshakePending, hplain] at hen
  | closed => exact hkept rfl
  | timeout =>
    obtain ⟨e, -, heq⟩ | ⟨tx, -, -, -, hview⟩ := postResponse_cases w (s.entered env)
      ⟨if w.handlers.policyFails (s.entered env).log.length (s.entered env).conn .k408 then .k500
        else .k408, false, false, true⟩ rfl rfl
    · exact hkept ((congrArg (fun l => l.conn.draining) heq).trans (scheduleOrSyncClose_io _).draining)
    · exact hkept (congrArg IoView.draining hview)

/-- **What a drain survives.**  Let a plain connection start to drain after a 431, open and not closing.
As long as it survives every event, the connection stays open, the 431 is on its way or a read is posted,
and no request is answered; and the next event leaves it so exactly if the drain survives it. -/
theorem drain431_goes_on_iff (w : Worker L) (vhost : Option Vhost) (arena : List Bool) (hs : HsStatus)
    (env : Env) {es : List (SessionEvent × Env)} {s : Session L}
    (hrun : Run (Session.step w) (fun s e => s.enabled e = true)
      (acceptSession w vhost false arena hs env) es s)
    {start : SessionEvent × Env} (hstart : s.enabled start = true)
    (hidle : s.loop.conn.draining = false)
    (hdraining : (s.step w start).loop.conn.draining = true)
    (hopen : (s.step w start).loop.conn.fdOpen = true)
    (hclosing : (s.step w start).loop.conn.closing = false)
    {es' : List (SessionEvent × Env)} {s' : Session L}
    (hdrain : Run (Session.step w) (fun s e => s.inDrain e = true ∧ s.toleratesDrain e = true)
      (s.step w start) es' s') :
    s'.DrainsOn (s.step w start).loop.answers ∧
      ∀ e, s'.inDrain e = true →
        ((s'.step w e).DrainsOn (s.step w start).loop.answers ↔ s'.toleratesDrain e = true) := by
  have hbegin : (s.step w start).Drain (s.step w start).loop.answers :=
    Session.begins (txInv_of_run hrun) (posted_of_run hrun) hstart hidle hdraining hopen hclosing
  have hinv : s'.Drain (s.step w start).loop.answers :=
    hdrain.invariant (fun _ s' => s'.Drain (s.step w start).loop.answers) hbegin
      fun _ _ _ h hok => (h.step hok.1).1 hok.2
  refine ⟨hinv.on, fun e he => ⟨(hinv.step he).2, fun hok => ((hinv.step he).1 hok).on⟩⟩

/-! ## A header section of more than four bytes -/

/-- A worker that takes at most four bytes of header section. -/
def narrowWorker : Worker (scripted bareRequest) :=
  { sampleWorker (scripted bareRequest) with maxHeaderBytes := 4 }

def narrowAccepted : Session (scripted bareRequest) :=
  acceptSession narrowWorker (some {}) false [] .done {}

/-- The whole request in one read. -/
def oversized : SessionEvent × Env :=
  (.io (.recv (.data (scriptBytes bareRequest))), {})

/-- The connection is answered with 431 and drains. -/
def oversizedScript :
    Script (Session.step narrowWorker) (fun s e => s.enabled e = true ∧ s.loop.conn.draining = false)
      narrowAccepted (fun s => s.loop.conn.draining = true ∧ s.loop.conn.fdOpen = true ∧
        s.loop.conn.closing = false) where
  events := [oversized]
  allowed := by decide
  ends := by decide

/-- The 431 goes out after a wait for the socket, and then some bytes are received. -/
def drainedScript :
    Script (Session.step narrowWorker) (fun s e => s.inDrain e = true ∧ s.toleratesDrain e = true)
      (narrowAccepted.step narrowWorker oversized) (fun s => s.loop.conn.rxStash ≠ []) where
  events := [(.io (.write .again), {}), (.io .writeReady, {}), (.io (.write (.sent 1)), {}),
    (.io (.recv (.data [65, 66, 67])), {})]
  allowed := by decide
  ends := by decide

theorem drain431_goes_on_short :
    ∃ s', Run (Session.step narrowWorker) (fun s e => s.inDrain e = true ∧ s.toleratesDrain e = true)
        (narrowAccepted.step narrowWorker oversized) drainedScript.events s' ∧
      s'.DrainsOn (narrowAccepted.step narrowWorker oversized).loop.answers := by
  obtain ⟨⟨hstart, hidle⟩, -⟩ := oversizedScript.allowed
  obtain ⟨hdraining, hopen, hclosing⟩ := oversizedScript.ends
  obtain ⟨s', hrun, -⟩ := drainedScript.exists_run
  exact ⟨s', hrun, (drain431_goes_on_iff narrowWorker (some {}) [] .done {} (.nil narrowAccepted) hstart
    hidle hdraining hopen hclosing hrun).1⟩

/-- The response is out, and the client sends one byte more than the stash takes. -/
def flooded : List (SessionEvent × Env) :=
  [(.io (.write (.sent 1)), {}), (.io (.recv (.data (List.replicate rbufSz 65))), {}),
    (.io (.recv (.data [65])), {})]

def floodedScript :
    Script (Session.step narrowWorker) (fun s e => s.inDrain e = true)
      (narrowAccepted.step narrowWorker oversized) (fun s => s.loop.conn.fdOpen = false) where
  events := flooded
  allowed := by decide +kernel
  ends := by decide +kernel

/-- **A drain ends after 256 bytes.**  The received bytes fill the stash, and the read that does not fit
any more closes the connection. -/
theorem drain431_closed_by_data :
    (narrowAccepted.step narrowWorker oversized).loop.conn.draining = true ∧
      (narrowAccepted.step narrowWorker oversized).loop.conn.fdOpen = true ∧
      (narrowAccepted.step narrowWorker oversized).loop.conn.closing = false ∧
      ∃ s', Run (Session.step narrowWorker) (fun s e => s.inDrain e = true)
          (narrowAccepted.step narrowWorker oversized) flooded s' ∧
        s'.loop.conn.fdOpen = false := by
  obtain ⟨hdraining, hopen, hclosing⟩ := oversizedScript.ends
  exact ⟨hdraining, hopen, hclosing, floodedScript.exists_run⟩

end Lamseryn
