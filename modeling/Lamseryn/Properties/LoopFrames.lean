import Lamseryn.Framework.Runs
import Lamseryn.Properties.FeedFrames
import Lamseryn.Model.WorkerLoop

/-!
# What the write side of the loop can do

Sends, polls and closes only touch the transmit state, the closing flags, the answers of the
outside world and the posted reads.  `IoStep` says so once, every small operation of the loop is
an `IoStep`, and a completed write is one too unless it finishes a response with keep-alive, which
is the only way to `conn_reset_request` (`WriteOutcome`).
-/

namespace Lamseryn

open ByteText

variable {L : Llhttp}

@[simp] lemma record_conn (l : Loop L) (e : LogEntry) : (l.record e).conn = l.conn := rfl

@[simp] lemma record_reqNo (l : Loop L) (e : LogEntry) : (l.record e).reqNo = l.reqNo := rfl

@[simp] lemma record_log (l : Loop L) (e : LogEntry) : (l.record e).log = l.log ++ [e] := rfl

/-! ## Input and output steps -/

/-- The loop with another input and output state. -/
def Loop.withIo (l : Loop L) (tx : TxState) (closing fdOpen isDraining : Bool) (env : Env)
    (recvOps : ℕ) : Loop L :=
  { l with
    conn := { l.conn with tx := tx, closing := closing, fdOpen := fdOpen }
    isDraining := isDraining
    env := env
    recvOps := recvOps }

/-- A connection without a descriptor is closing. -/
def Loop.Attached (l : Loop L) : Prop :=
  l.conn.fdOpen = true ∨ l.conn.closing = true

lemma Loop.Attached.open_or_closed {l : Loop L} (h : l.Attached) :
    l.conn.fdOpen = true ∨ (l.conn.closing = true ∧ l.conn.fdOpen = false) := by
  by_cases hfd : l.conn.fdOpen = true
  · exact Or.inl hfd
  · exact Or.inr ⟨h.resolve_left hfd, by simpa using hfd⟩

/-- A connection that serves nothing any more: it is closing, and it is detached unless its last
response is one without keep-alive. -/
def Loop.Closed (l : Loop L) : Prop :=
  l.conn.closing = true ∧ (l.conn.fdOpen = true → l.conn.tx.keepalive = false)

/-- At most one read is posted, and the connection knows it. -/
def Loop.OneRead (l : Loop L) : Prop :=
  l.recvOps = 0 ∨ (l.recvOps = 1 ∧ l.conn.tx.recvArmed = true)

/-- From `l` to `l'` only input and output state has changed, not the plan of the response under
way; a closing connection stays closing.  Reads may have been posted only if `mayRecv`. -/
structure IoStep (mayRecv : Bool) (l l' : Loop L) : Prop where
  eq : l' = l.withIo l'.conn.tx l'.conn.closing l'.conn.fdOpen l'.isDraining l'.env l'.recvOps
  kind : l'.conn.tx.respKind = l.conn.tx.respKind
  keepalive : l'.conn.tx.keepalive = l.conn.tx.keepalive
  drain : l'.conn.tx.drainAfterHeaders = l.conn.tx.drainAfterHeaders
  closing : l.conn.closing = true → l'.conn.closing = true
  detached : l.conn.fdOpen = false → l'.conn.fdOpen = false
  attached : l.Attached → l'.Attached
  oneRead : l.OneRead → l'.OneRead
  recv : mayRecv = false →
    l'.recvOps = l.recvOps ∧ l'.conn.tx.recvArmed = l.conn.tx.recvArmed

lemma IoStep.refl (b : Bool) (l : Loop L) : IoStep b l l :=
  ⟨rfl, rfl, rfl, rfl, id, id, id, id, fun _ => ⟨rfl, rfl⟩⟩

lemma IoStep.trans {b : Bool} {l l' l'' : Loop L} (h : IoStep b l l') (h' : IoStep b l' l'') :
    IoStep b l l'' := by
  refine ⟨?_, h'.kind.trans h.kind, h'.keepalive.trans h.keepalive, h'.drain.trans h.drain,
    fun hc => h'.closing (h.closing hc), fun hd => h'.detached (h.detached hd),
    fun ha => h'.attached (h.attached ha), fun hr => h'.oneRead (h.oneRead hr), fun hb => ?_⟩
  · have heq := h'.eq
    rw [h.eq] at heq
    exact heq
  · exact ⟨(h'.recv hb).1.trans (h.recv hb).1, (h'.recv hb).2.trans (h.recv hb).2⟩

lemma IoStep.mono {l l' : Loop L} (h : IoStep false l l') (b : Bool) : IoStep b l l' :=
  ⟨h.eq, h.kind, h.keepalive, h.drain, h.closing, h.detached, h.attached, h.oneRead,
    fun _ => h.recv rfl⟩

section Fields

variable {b : Bool} {l l' : Loop L}

lemma IoStep.h1 (h : IoStep b l l') : l'.conn.h1 = l.conn.h1 := by
  rw [h.eq]
  rfl

lemma IoStep.log (h : IoStep b l l') : l'.log = l.log := by
  rw [h.eq]
  rfl

lemma IoStep.reqNo (h : IoStep b l l') : l'.reqNo = l.reqNo := by
  rw [h.eq]
  rfl

lemma IoStep.rxStash (h : IoStep b l l') : l'.conn.rxStash = l.conn.rxStash := by
  rw [h.eq]
  rfl

lemma IoStep.draining (h : IoStep b l l') : l'.conn.draining = l.conn.draining := by
  rw [h.eq]
  rfl

lemma IoStep.tlsEnabled (h : IoStep b l l') : l'.conn.tlsEnabled = l.conn.tlsEnabled := by
  rw [h.eq]
  rfl

lemma IoStep.closed (h : IoStep b l l') (hc : l.Closed) : l'.Closed := by
  refine ⟨h.closing hc.1, fun hfd => ?_⟩
  have hopen : l.conn.fdOpen = true := by
    by_contra hno
    exact absurd (hfd.symm.trans (h.detached (by simpa using hno))) (by decide)
  exact h.keepalive.trans (hc.2 hopen)

lemma IoStep.open_or_closed (h : IoStep b l l') (ha : l.Attached) :
    l'.conn.fdOpen = true ∨ l'.Closed := by
  by_cases hfd : l'.conn.fdOpen = true
  · exact Or.inl hfd
  · exact Or.inr ⟨(h.attached ha).resolve_left hfd, fun hopen => absurd hopen hfd⟩

/-- Whatever it starts from, a reset of the request sees nothing of an input and output step but
the descriptor. -/
lemma IoStep.reset (h : IoStep b l l') (w : Worker L) :
    (connResetRequest w l').conn = { (connResetRequest w l).conn with fdOpen := l'.conn.fdOpen } := by
  rw [h.eq]
  rfl

end Fields

lemma getSqe_cases (l : Loop L) :
    ∃ b e, l.getSqe = (b, { l with env := e }) ∧ e.io = l.env.io := by
  rcases h : l.env.sqes with _ | ⟨b, rest⟩
  · have hs : l.getSqe = (true, l) := by simp [Loop.getSqe, h]
    exact ⟨true, l.env, hs, rfl⟩
  · exact ⟨b, { l.env with sqes := rest }, by simp [Loop.getSqe, h], rfl⟩

lemma ioStep_env (l : Loop L) (e : Env) : IoStep false l { l with env := e } :=
  ⟨rfl, rfl, rfl, rfl, id, id, id, id, fun _ => ⟨rfl, rfl⟩⟩

lemma ioStep_emit (l : Loop L) (ops : List Io) : IoStep false l (l.emit ops) :=
  ioStep_env l _

lemma armPoll_io (l : Loop L) : IoStep false l l.armPoll :=
  ⟨rfl, rfl, rfl, rfl, id, id, id, id, fun _ => ⟨rfl, rfl⟩⟩

lemma ioStep_shutdown (l : Loop L) : IoStep false l { l with isDraining := true } :=
  ⟨rfl, rfl, rfl, rfl, id, id, id, id, fun _ => ⟨rfl, rfl⟩⟩

lemma ioStep_setTx (l : Loop L) (tx : TxState) (hkind : tx.respKind = l.conn.tx.respKind)
    (hka : tx.keepalive = l.conn.tx.keepalive)
    (hdrain : tx.drainAfterHeaders = l.conn.tx.drainAfterHeaders)
    (hrecv : tx.recvArmed = l.conn.tx.recvArmed) :
    IoStep false l (l.setTx tx) :=
  ⟨rfl, hkind, hka, hdrain, id, id, id,
    fun h => h.imp_right fun h => ⟨h.1, hrecv.trans h.2⟩, fun _ => ⟨rfl, hrecv⟩⟩

lemma cancelWritePollIfArmed_io (l : Loop L) : IoStep false l (cancelWritePollIfArmed l) := by
  unfold cancelWritePollIfArmed
  split_ifs
  · obtain ⟨b, e, hb, -⟩ := getSqe_cases l
    rw [hb]
    cases b with
    | false => exact ioStep_env l e
    | true => exact (ioStep_env l e).trans (ioStep_setTx _ _ rfl rfl rfl rfl)
  · exact IoStep.refl _ l

lemma cancelWritePollIfArmed_fdOpen (l : Loop L) :
    (cancelWritePollIfArmed l).conn.fdOpen = l.conn.fdOpen := by
  unfold cancelWritePollIfArmed
  split_ifs
  · obtain ⟨b, e, hb, -⟩ := getSqe_cases l
    rw [hb]
    cases b <;> rfl
  · rfl

lemma detach_io (l : Loop L) : IoStep false l l.detach :=
  ⟨rfl, rfl, rfl, rfl, fun _ => rfl, fun _ => rfl, fun _ => Or.inr rfl, id, fun _ => ⟨rfl, rfl⟩⟩

/-- **What closing an open connection does**: the descriptor is detached, whichever way it is
closed. -/
lemma scheduleOrSyncClose_of_open {l : Loop L} (h : l.conn.fdOpen = true) :
    IoStep false l.detach (scheduleOrSyncClose l) := by
  unfold scheduleOrSyncClose
  rw [if_pos h]
  dsimp only
  have href := ioStep_emit l.detach [.ref]
  split_ifs
  · exact (href.trans (cancelWritePollIfArmed_io _)).trans (ioStep_emit _ _)
  · obtain ⟨b, e, hb, -⟩ := getSqe_cases (l.detach.emit [.ref])
    rw [hb]
    have hsqe := href.trans (ioStep_env _ e)
    cases b with
    | false => exact hsqe.trans (ioStep_emit _ _)
    | true =>
      exact ((hsqe.trans (ioStep_emit _ _)).trans (cancelWritePollIfArmed_io _)).trans
        (ioStep_emit _ _)

lemma scheduleOrSyncClose_of_detached {l : Loop L} (h : l.conn.fdOpen = false) :
    scheduleOrSyncClose l = l := by
  unfold scheduleOrSyncClose
  rw [if_neg (by simp [h])]

lemma scheduleOrSyncClose_io (l : Loop L) : IoStep false l (scheduleOrSyncClose l) := by
  by_cases h : l.conn.fdOpen = true
  · exact (detach_io l).trans (scheduleOrSyncClose_of_open h)
  · rw [scheduleOrSyncClose_of_detached (by simpa using h)]
    exact IoStep.refl _ l

lemma scheduleOrSyncClose_detached (l : Loop L) : (scheduleOrSyncClose l).conn.fdOpen = false := by
  by_cases h : l.conn.fdOpen = true
  · exact (scheduleOrSyncClose_of_open h).detached rfl
  · have hfd : l.conn.fdOpen = false := by simpa using h
    rw [scheduleOrSyncClose_of_detached hfd]
    exact hfd

lemma scheduleOrSyncClose_closed {l : Loop L} (h : l.Attached) : (scheduleOrSyncClose l).Closed := by
  have hfd := scheduleOrSyncClose_detached l
  refine ⟨?_, fun hopen => absurd (hopen.symm.trans hfd) (by decide)⟩
  exact ((scheduleOrSyncClose_io l).attached h).resolve_left (by simp [hfd])

lemma closeUnlessClosing_io (l : Loop L) : IoStep false l (closeUnlessClosing l) := by
  unfold closeUnlessClosing
  split_ifs
  · exact IoStep.refl _ l
  · exact scheduleOrSyncClose_io l

lemma postRecvPtr_io (l : Loop L) : IoStep true l (postRecvPtr l) := by
  unfold postRecvPtr
  split_ifs with hskip
  · exact IoStep.refl _ l
  · obtain ⟨b, e, hb, -⟩ := getSqe_cases l
    have hrecv : l.conn.tx.recvArmed ≠ true := by
      intro h
      simp [h] at hskip
    rw [hb]
    cases b with
    | false => exact (ioStep_env l e).mono true
    | true =>
      refine ⟨rfl, rfl, rfl, rfl, id, id, id, ?_, fun h => absurd h (by decide)⟩
      rintro (h | h)
      · exact Or.inr ⟨congrArg (· + 1) h, rfl⟩
      · exact absurd h.2 hrecv

lemma postTlsPollout_io (l : Loop L) : IoStep false l (postTlsPollout l).2 := by
  unfold postTlsPollout
  split_ifs
  · exact IoStep.refl _ l
  · exact IoStep.refl _ l
  · obtain ⟨b, e, hb, -⟩ := getSqe_cases l
    rw [hb]
    cases b with
    | false => exact ioStep_env l e
    | true => exact (ioStep_env l e).trans (armPoll_io _)

lemma writeArmPollout_io (l : Loop L) : IoStep false l (writeArmPollout l) := by
  unfold writeArmPollout
  split_ifs
  · exact IoStep.refl _ l
  · obtain ⟨b, e, hb, -⟩ := getSqe_cases l
    rw [hb]
    cases b with
    | false => exact (ioStep_env l e).trans (closeUnlessClosing_io _)
    | true =>
      obtain ⟨b', e', hb', -⟩ := getSqe_cases { l with env := e }
      dsimp only
      rw [hb']
      cases b' with
      | false =>
        exact ((ioStep_env l e').trans (ioStep_emit _ _)).trans (closeUnlessClosing_io _)
      | true => exact (ioStep_env l e').trans (armPoll_io _)

lemma writePostRemaining_io (l : Loop L) (g : Bool) : IoStep false l (writePostRemaining l g) := by
  unfold writePostRemaining
  by_cases hpending : txPendingHeaders l.conn.tx = true
  · rw [if_pos hpending]
    obtain ⟨b, e, hb, -⟩ := getSqe_cases l
    rw [hb]
    cases b with
    | false =>
      cases g with
      | false => exact (ioStep_env l e).trans (scheduleOrSyncClose_io _)
      | true => exact (ioStep_env l e).trans (closeUnlessClosing_io _)
    | true => exact (ioStep_env l e).trans (ioStep_emit _ _)
  · rw [if_neg hpending]
    exact IoStep.refl _ l

/-! ## Completed writes -/

/-- The end of a response with keep-alive: the request is reset, the stash is processed and a read
is posted if nothing was staged. -/
def nextRequest (w : Worker L) (stash : Loop L → Loop L × Bool) (l : Loop L) : Loop L :=
  let r := stash (connResetRequest w l)
  if r.2 then r.1 else postRecvPtr r.1

/-- What a completed write can do: an input and output step, which posts a read only for a response
that drains the connection; or the end of a response with keep-alive. -/
inductive WriteOutcome (w : Worker L) (stash : Loop L → Loop L × Bool) (l l' : Loop L) : Prop
  | io (h : IoStep false l l')
  | reads (hdrain : l.conn.tx.drainAfterHeaders = true ∨
      (l.conn.draining = true ∧ l.conn.tx.respKind = .k431)) (h : IoStep true l l')
  | done (l1 : Loop L) (hka : l.conn.tx.keepalive = true) (h : IoStep false l l1)
      (hfd : l1.conn.fdOpen = l.conn.fdOpen) (heq : l' = nextRequest w stash l1)

lemma WriteOutcome.of_ioStep {w : Worker L} {stash : Loop L → Loop L × Bool} {l l1 l' : Loop L}
    (h : IoStep false l l1) (hfd : l1.conn.fdOpen = l.conn.fdOpen) (h' : WriteOutcome w stash l1 l') : WriteOutcome w stash l l' := by
  rcases h' with hio | ⟨hdrain, hio⟩ | ⟨l2, hka, hio, hfd', heq⟩
  · exact .io (h.trans hio)
  · refine .reads ?_ ((h.mono true).trans hio)
    rwa [h.drain, h.draining, h.kind] at hdrain
  · exact .done l2 (h.keepalive ▸ hka) (h.trans hio) (hfd'.trans hfd) heq

section Writes

variable (w : Worker L) (stash : Loop L → Loop L × Bool)

lemma writeOnFullResponse_outcome (l : Loop L) :
    WriteOutcome w stash l (writeOnFullResponse w stash l) := by
  unfold writeOnFullResponse txAfterFullResponse
  split_ifs with hdrain h503 hka
  · exact .reads (Or.inr hdrain) (postRecvPtr_io l)
  · exact .io (scheduleOrSyncClose_io l)
  · exact .done l hka (IoStep.refl _ l) rfl rfl
  · exact .io (scheduleOrSyncClose_io l)

lemma finishSendfile_outcome (l : Loop L) :
    WriteOutcome w stash l (finishSendfile w stash l) := by
  have hset : IoStep false l (l.setTx (txCloseAttachedFile l.conn.tx)) :=
    ioStep_setTx l _ rfl rfl rfl rfl
  exact .of_ioStep (hset.trans (cancelWritePollIfArmed_io _)) (cancelWritePollIfArmed_fdOpen _)
    (writeOnFullResponse_outcome w stash _)

/-- A `sendfile` result changes only the attached file. -/
lemma txOnSendfileResult_cases (tx : TxState) (r : IoRes) :
    ∃ f d, txOnSendfileResult tx r = ({ tx with file := f }, d) := by
  unfold txOnSendfileResult
  split
  · exact ⟨tx.file, _, rfl⟩
  · exact ⟨tx.file, _, rfl⟩
  · exact ⟨tx.file, _, rfl⟩
  · exact ⟨tx.file, _, rfl⟩
  · dsimp only
    split_ifs
    · exact ⟨tx.file, _, rfl⟩
    · exact ⟨_, _, rfl⟩
    · exact ⟨_, _, rfl⟩

lemma sendfileLoop_outcome (rs : List IoRes) (l : Loop L) :
    WriteOutcome w stash l (sendfileLoop w stash rs l) := by
  induction rs generalizing l with
  | nil =>
    unfold sendfileLoop
    split_ifs
    · exact .io ((ioStep_env l _).trans (scheduleOrSyncClose_io _))
    · exact finishSendfile_outcome w stash l
  | cons r rs ih =>
    unfold sendfileLoop
    split_ifs
    · obtain ⟨f, d, hf⟩ := txOnSendfileResult_cases l.conn.tx r
      rw [hf]
      dsimp only
      have hcall : IoStep false l (l.callSendfile r rs) := ioStep_env l _
      refine .of_ioStep hcall rfl (.of_ioStep (ioStep_setTx _ { l.conn.tx with file := f } rfl rfl
        rfl rfl) rfl ?_)
      cases d with
      | resumeSendfile => exact ih _
      | noop => exact ih _
      | armPollout => exact .io (writeArmPollout_io _)
      | errorClose => exact .io (scheduleOrSyncClose_io _)
      | sendHeaders => exact finishSendfile_outcome w stash _
      | startSendfile => exact finishSendfile_outcome w stash _
      | shutWrAndRead => exact finishSendfile_outcome w stash _
      | doneKeepalive => exact finishSendfile_outcome w stash _
      | doneClose => exact finishSendfile_outcome w stash _
    · exact finishSendfile_outcome w stash l

lemma txSendfileProgress_outcome (l : Loop L) :
    WriteOutcome w stash l (txSendfileProgress w stash l) := by
  unfold txSendfileProgress
  split_ifs
  · exact sendfileLoop_outcome w stash _ l
  · have hset : IoStep false l (l.setTx (txCloseAttachedFile l.conn.tx)) :=
      ioStep_setTx l _ rfl rfl rfl rfl
    exact .of_ioStep hset rfl (writeOnFullResponse_outcome w stash _)

/-- A `send` result changes only the offset; a read is asked for only by a draining response. -/
lemma txOnHeadersResult_cases (tx : TxState) (r : IoRes) :
    ∃ o d, txOnHeadersResult tx r = ({ tx with writeOff := o }, d) ∧
      (d = .shutWrAndRead → tx.drainAfterHeaders = true) ∧
      (tx.writeBuf = [] → d = .armPollout ∨ d = .errorClose) := by
  unfold txOnHeadersResult
  split
  · exact ⟨tx.writeOff, _, rfl, by simp, by simp⟩
  · exact ⟨tx.writeOff, _, rfl, by simp, by simp⟩
  · exact ⟨tx.writeOff, _, rfl, by simp, by simp⟩
  · exact ⟨tx.writeOff, _, rfl, by simp, by simp⟩
  · rename_i n
    dsimp only
    split_ifs with hbuf hmore hdrain hfile
    · exact ⟨tx.writeOff, _, rfl, by simp, by simp⟩
    · exact ⟨_, _, rfl, by simp, fun h => absurd h hbuf⟩
    · exact ⟨_, _, rfl, fun _ => hdrain, fun h => absurd h hbuf⟩
    · exact ⟨_, _, rfl, by simp, fun h => absurd h hbuf⟩
    · refine ⟨_, _, rfl, ?_, fun h => absurd h hbuf⟩
      unfold txDone
      split_ifs <;> simp

lemma writeHandleCqe_outcome (l : Loop L) (res : IoRes) :
    WriteOutcome w stash l (writeHandleCqe w stash l res) := by
  obtain ⟨o, d, htx, hdrain, -⟩ := txOnHeadersResult_cases l.conn.tx res
  unfold writeHandleCqe
  rw [htx]
  dsimp only
  have hset : IoStep false l (l.setTx { l.conn.tx with writeOff := o }) :=
    ioStep_setTx l _ rfl rfl rfl rfl
  refine .of_ioStep hset rfl ?_
  cases d with
  | sendHeaders => exact .io (writePostRemaining_io _ true)
  | startSendfile =>
    refine .of_ioStep (cancelWritePollIfArmed_io _) (cancelWritePollIfArmed_fdOpen _) ?_
    dsimp only
    have hdiscard : ∀ l : Loop L, IoStep false l (l.setTx (txDiscard l.conn.tx)) :=
      fun l => ioStep_setTx l _ rfl rfl rfl rfl
    exact .of_ioStep (hdiscard _) rfl (txSendfileProgress_outcome w stash _)
  | armPollout => exact .io (writeArmPollout_io _)
  | shutWrAndRead =>
    refine .of_ioStep (cancelWritePollIfArmed_io _) (cancelWritePollIfArmed_fdOpen _)
      (.reads (Or.inl ?_) (postRecvPtr_io _))
    rw [(cancelWritePollIfArmed_io _).drain]
    exact hdrain rfl
  | doneKeepalive =>
    exact .of_ioStep (cancelWritePollIfArmed_io _) (cancelWritePollIfArmed_fdOpen _)
      (writeOnFullResponse_outcome w stash _)
  | doneClose =>
    exact .of_ioStep (cancelWritePollIfArmed_io _) (cancelWritePollIfArmed_fdOpen _)
      (writeOnFullResponse_outcome w stash _)
  | errorClose => exact .io (scheduleOrSyncClose_io _)
  | resumeSendfile => exact .io (IoStep.refl _ _)
  | noop => exact .io (IoStep.refl _ _)

lemma writeReadyHandleCqe_outcome (l : Loop L) :
    WriteOutcome w stash l (writeReadyHandleCqe w stash l) := by
  unfold writeReadyHandleCqe
  have hset : IoStep false l (l.setTx { l.conn.tx with writePollArmed := false }) :=
    ioStep_setTx l _ rfl rfl rfl rfl
  dsimp only
  refine .of_ioStep hset rfl ?_
  split
  · exact txSendfileProgress_outcome w stash _
  · exact .io (writePostRemaining_io _ false)
  · exact .io (IoStep.refl _ _)

end Writes

/-! ## Applying an action -/

/-- The loop in which a response has been placed. -/
def Loop.withResponse (l : Loop L) (want : Bool) (tx : TxState) (closing draining : Bool)
    (env : Env) (log : List LogEntry) : Loop L :=
  { l with
    conn :=
      { l.conn with
        h1 := { l.conn.h1 with wantKeepalive := want }
        tx := tx
        closing := closing
        draining := draining }
    env := env
    log := log }

lemma classify_respOk {c : Conn L} (h : httpPipelineClassifyAction c = .respOk) :
    c.h1.messageDone = true := by
  unfold httpPipelineClassifyAction at h
  split_ifs at h with h1 h2 h3 h4 h5
  simpa using h5

lemma classify_resp431 {c : Conn L} (h : httpPipelineClassifyAction c = .resp431) :
    c.h1.headerTooBig = true := by
  unfold httpPipelineClassifyAction at h
  split_ifs at h with h431
  simp only [Bool.and_eq_true] at h431
  exact h431.1

/-- Which response `http_apply_action` has placed, and what it has logged for it. -/
inductive Response (l : Loop L) (a : HttpAction) (tx : TxState) (closing draining : Bool)
    (tail : List LogEntry) : Prop
  /-- An error response that closes the connection, or the refusal of a dispatched request. -/
  | closes (kind : RespKind) (hclosing : closing = true) (hka : tx.keepalive = false)
      (htail : tail = [.staged l.reqNo kind] ∨
        ∃ h1, tail = [.dispatched l.reqNo l.taken h1, .staged l.reqNo kind])
  /-- The 431 that keeps the connection open in draining state. -/
  | drains (ha : a = .resp431) (herr : l.conn.h1.internalError = false)
      (hclosing : closing = l.conn.closing) (hdraining : draining = true)
      (hkind : tx.respKind = .k431) (hka : tx.keepalive = false) (hbuf : tx.writeBuf ≠ [])
      (hdrain : tx.drainAfterHeaders = true) (htail : tail = [.staged l.reqNo .k431])
  /-- The answer of request handling. -/
  | serves (kind : RespKind) (h1 : Http1State) (ha : a = .respOk)
      (herr : l.conn.h1.internalError = false) (hclosing : closing = l.conn.closing)
      (hdraining : draining = l.conn.draining) (hdrain : tx.drainAfterHeaders = false)
      (hkind : tx.respKind = kind) (hbuf : tx.writeBuf ≠ [])
      (hh1 : h1 = { l.conn.h1 with wantKeepalive := h1.wantKeepalive })
      (htail : tail = [.dispatched l.reqNo l.taken h1, .staged l.reqNo kind])

/-- What the loop can log for one action: that it was applied, and then nothing, a staged response
or a dispatch with its staged response. -/
def ActionTail (n : ℕ) (tail : List LogEntry) : Prop :=
  tail = [] ∨ (∃ kind, tail = [.staged n kind]) ∨
    ∃ kind taken h1, tail = [.dispatched n taken h1, .staged n kind]

lemma ActionTail.reqNo {n : ℕ} {tail : List LogEntry} (h : ActionTail n tail) (a : HttpAction) :
    ∀ e ∈ LogEntry.applied n a :: tail, e.reqNo = n := by
  rcases h with rfl | ⟨kind, rfl⟩ | ⟨kind, taken, h1, rfl⟩ <;> simp [LogEntry.reqNo]

lemma Response.actionTail {l : Loop L} {a : HttpAction} {tx : TxState} {closing draining : Bool}
    {tail : List LogEntry} (h : Response l a tx closing draining tail) :
    ActionTail l.reqNo tail := by
  rcases h with ⟨kind, -, -, htail | ⟨h1, htail⟩⟩ | ⟨-, -, -, -, -, -, -, -, htail⟩ |
    ⟨kind, h1, -, -, -, -, -, -, -, -, htail⟩
  · exact Or.inr (Or.inl ⟨kind, htail⟩)
  · exact Or.inr (Or.inr ⟨kind, _, h1, htail⟩)
  · exact Or.inr (Or.inl ⟨_, htail⟩)
  · exact Or.inr (Or.inr ⟨kind, _, h1, htail⟩)

/-- Request handling may leave this file attached on a connection of this kind. -/
def Worker.Attaches (w : Worker L) (tls : Bool) (file : Option Bytes) : Prop :=
  ∃ (n : ℕ) (c : Conn L) (plan : HttpOkPlan) (resp : TxResponse), c.tlsEnabled = tls ∧
    w.handlers.dispatchOk n c plan = .txBuffer resp ∧ resp.file = file

/-- What `http_apply_action` can do. -/
inductive Applied (w : Worker L) (stash : Loop L → Loop L × Bool) (l : Loop L) (a : HttpAction)
    (l' : Loop L) : Prop
  /-- It waits for more bytes. -/
  | waits (ha : a = .continue) (herr : l.conn.h1.internalError = false)
      (hio : IoStep true (l.record (.applied l.reqNo a)) l')
      (heq : l' = l.record (.applied l.reqNo a) ∨ l' = postRecvPtr (l.record (.applied l.reqNo a)))
  /-- There is no submission entry for the response. -/
  | starved (hio : IoStep false (l.record (.applied l.reqNo a)) l')
      (hclosed : l.Attached → l'.Closed)
      (heq : ∃ e : Env, e.io = l.env.io ∧
        l' = scheduleOrSyncClose { (l.record (.applied l.reqNo a)) with env := e })
  /-- It responds. -/
  | responds (want : Bool) (tx : TxState) (closing draining : Bool) (env : Env)
      (tail : List LogEntry) (hresp : Response l a tx closing draining tail)
      (hoff : tx.writeOff = 0)
      (hrecv : tx.recvArmed = l.conn.tx.recvArmed ∧ tx.writePollArmed = l.conn.tx.writePollArmed)
      (hfile : tx.file = l.conn.tx.file ∨ w.Attaches l.conn.tlsEnabled tx.file)
      (hio : env.io = l.env.io ++ [.respond tx.writeBuf tx.file])
      (heq : l' = startSend w stash
        (l.withResponse want tx closing draining env (l.log ++ .applied l.reqNo a :: tail)))

lemma sendSqe_cases (l : Loop L) :
    ∃ b e, sendSqe l = (b, { l with env := e }) ∧ e.io = l.env.io := by
  unfold sendSqe
  split_ifs
  · exact ⟨true, l.env, rfl, rfl⟩
  · exact getSqe_cases l

lemma txBeginHeaders_eq (tx : TxState) (rk : RespKind) {buf : Bytes} (hbuf : buf ≠ [])
    (ka drain : Bool) :
    txBeginHeaders tx rk buf ka drain =
      { tx with
        respKind := rk
        writeBuf := buf
        writeOff := 0
        keepalive := ka
        drainAfterHeaders := drain } := by
  unfold txBeginHeaders
  rw [if_neg hbuf]

lemma effectivePlan_cases (w : Worker L) (l : Loop L) (plan : ResponsePlan) :
    effectivePlan w l plan = plan ∨ (effectivePlan w l plan).closeAfterSend = true := by
  unfold effectivePlan
  dsimp only
  split_ifs
  · exact Or.inr rfl
  · exact Or.inr rfl
  · exact Or.inr rfl
  · exact Or.inl rfl

lemma effectivePlan_keepalive (w : Worker L) (l : Loop L) (plan : ResponsePlan)
    (h : plan.keepalive = false) : (effectivePlan w l plan).keepalive = false := by
  unfold effectivePlan
  dsimp only
  split_ifs
  · rfl
  · rfl
  · rfl
  · exact h

/-- The transmit state that `stage_header_response_send` starts the send from. -/
def headerTx (w : Worker L) (l : Loop L) (plan : ResponsePlan) : TxState :=
  { l.conn.tx with
    respKind := plan.kind
    writeBuf := w.handlers.responseText l.log.length l.conn plan
    writeOff := 0
    keepalive := plan.keepalive
    drainAfterHeaders := plan.drainAfterHeaders }

lemma placeHeaderResponse_eq (w : Worker L) (l : Loop L) (plan : ResponsePlan) :
    placeHeaderResponse w l plan =
      l.withResponse l.conn.h1.wantKeepalive (headerTx w l plan)
        (l.conn.closing || plan.closeAfterSend) l.conn.draining
        (l.emit [.respond (headerTx w l plan).writeBuf (headerTx w l plan).file]).env
        (l.log ++ [.staged l.reqNo plan.kind]) := by
  unfold placeHeaderResponse
  dsimp only
  rw [txBeginHeaders_eq _ _ (w.handlers.responseText_ne_nil _ _ _)]
  rfl

lemma errorPlan_eq {a : HttpAction} {plan : ResponsePlan}
    (h : httpPipelineErrorPlan a = some plan) :
    plan.keepalive = false ∧
      (plan.closeAfterSend = true ∨ (a = .resp431 ∧ plan = ⟨.k431, false, true, false⟩)) := by
  cases a <;> simp [httpPipelineErrorPlan] at h <;> subst h <;> simp

section Apply

variable (w : Worker L) (stash : Loop L → Loop L × Bool)

lemma stageError_responds (l : Loop L) (a : HttpAction) (plan : ResponsePlan) (e : Env)
    (he : e.io = l.env.io) (hka : plan.keepalive = false)
    (hplan : plan.closeAfterSend = true ∨
      (a = .resp431 ∧ l.conn.h1.internalError = false ∧ plan = ⟨.k431, false, true, false⟩))
    (draining : Bool) (hdraining : plan.kind = .k431 → draining = true) :
    Applied w stash l a (stageHeaderResponseSend w stash
      { (l.record (.applied l.reqNo a)) with
        env := e
        conn := { l.conn with draining := draining } } plan) := by
  unfold stageHeaderResponseSend
  generalize hl1 : ({ (l.record (.applied l.reqNo a)) with
        env := e
        conn := { l.conn with draining := draining } } : Loop L) = l1
  rw [placeHeaderResponse_eq]
  refine .responds l.conn.h1.wantKeepalive (headerTx w l1 (effectivePlan w l1 plan))
    (l.conn.closing || (effectivePlan w l1 plan).closeAfterSend) draining
    (l1.emit [.respond (headerTx w l1 (effectivePlan w l1 plan)).writeBuf
      (headerTx w l1 (effectivePlan w l1 plan)).file]).env
    [.staged l.reqNo (effectivePlan w l1 plan).kind] ?_ rfl (by subst hl1; exact ⟨rfl, rfl⟩)
    (Or.inl (by subst hl1; rfl)) (by subst hl1; exact congrArg (· ++ _) he)
    (by subst hl1; simp [Loop.withResponse, Loop.record])
  by_cases hclose : (effectivePlan w l1 plan).closeAfterSend = true
  · exact .closes _ (by simp [hclose]) (effectivePlan_keepalive w l1 plan hka) (Or.inl rfl)
  · have heff := (effectivePlan_cases w l1 plan).resolve_right hclose
    rw [heff] at hclose ⊢
    obtain ⟨ha, herr, hplan⟩ := hplan.resolve_left hclose
    subst hplan
    exact .drains ha herr (by simp) (hdraining rfl) rfl rfl
      (w.handlers.responseText_ne_nil _ _ _) rfl rfl

/-- A dispatched request is answered by request handling, or refused and closed. -/
lemma dispatchRequest_responds (l : Loop L) (plan : HttpOkPlan) (e : Env) (he : e.io = l.env.io)
    (herr : l.conn.h1.internalError = false) :
    Applied w stash l .respOk (dispatchRequest w stash
      { (l.record (.applied l.reqNo .respOk)) with env := e } plan) := by
  unfold dispatchRequest
  dsimp only
  generalize ((Loop.conn _).h1.wantKeepalive && !Loop.isDraining _) = want
  have hh1 : ({ l.conn.h1 with wantKeepalive := want } : Http1State) =
      { l.conn.h1 with
        wantKeepalive := ({ l.conn.h1 with wantKeepalive := want } : Http1State).wantKeepalive } :=
    rfl
  split
  · rename_i resp hresp
    refine .responds want (responseTx l.conn.tx resp) l.conn.closing l.conn.draining
      { e with io := e.io ++ [.respond resp.buf resp.file] }
      [.dispatched l.reqNo l.taken { l.conn.h1 with wantKeepalive := want },
        .staged l.reqNo resp.kind]
      (.serves resp.kind _ rfl herr rfl rfl rfl rfl resp.buf_ne_nil hh1 rfl) rfl ⟨rfl, rfl⟩
      (Or.inr ⟨_, _, _, resp, by rfl, hresp, rfl⟩)
      (congrArg (· ++ _) he) ?_
    simp [placeTxResponse, Loop.withResponse, Loop.record, Loop.setTx, Loop.setWant, Loop.emit]
  · rename_i kind _
    unfold stageHeaderResponseSend
    generalize hl1 : Loop.setWant _ false = l1
    rw [placeHeaderResponse_eq]
    have hclose : (effectivePlan w l1 ⟨kind, false, false, true⟩).closeAfterSend = true := by
      rcases effectivePlan_cases w l1 ⟨kind, false, false, true⟩ with h | h
      · rw [h]
      · exact h
    have hka := effectivePlan_keepalive w l1 ⟨kind, false, false, true⟩ rfl
    rw [hclose, Bool.or_true]
    generalize effectivePlan w l1 ⟨kind, false, false, true⟩ = eff at hka ⊢
    refine .responds false (headerTx w l1 eff) true l.conn.draining
      (l1.emit [.respond (headerTx w l1 eff).writeBuf (headerTx w l1 eff).file]).env
      [.dispatched l.reqNo l.taken { l.conn.h1 with wantKeepalive := want },
        .staged l.reqNo eff.kind]
      (.closes _ rfl hka (Or.inr ⟨_, rfl⟩)) rfl (by subst hl1; exact ⟨rfl, rfl⟩)
      (Or.inl (by subst hl1; rfl))
      (by subst hl1; exact congrArg (· ++ _) he) ?_
    subst hl1
    simp [Loop.withResponse, Loop.record, Loop.setWant]

/-- `CONTINUE` only posts a read. -/
lemma httpApplyAction_continue (l : Loop L) (herr : l.conn.h1.internalError = false) :
    IoStep true (l.record (.applied l.reqNo .continue)) (httpApplyAction w stash l .continue) := by
  have hplan : httpPipelineBuildApplyPlan l.conn .continue = .continue := by
    simp [httpPipelineBuildApplyPlan, httpPipelineErrorPlan, herr]
  unfold httpApplyAction
  dsimp only
  rw [record_conn, hplan]
  dsimp only
  split_ifs
  · exact IoStep.refl _ _
  · exact postRecvPtr_io _

/-- **What `http_apply_action` can do**, once for all uses of it. -/
lemma httpApplyAction_applied (l : Loop L) (a : HttpAction) :
    Applied w stash l a (httpApplyAction w stash l a) := by
  unfold httpApplyAction
  dsimp only
  have hstarved : ∀ e : Env, e.io = l.env.io → Applied w stash l a
      (scheduleOrSyncClose { (l.record (.applied l.reqNo a)) with env := e }) := by
    intro e he
    refine .starved ((ioStep_env _ e).trans (scheduleOrSyncClose_io _)) (fun h => ?_) ⟨e, he, rfl⟩
    exact scheduleOrSyncClose_closed h
  unfold httpPipelineBuildApplyPlan
  by_cases herr : l.conn.h1.internalError = true
  · rw [if_pos (by exact herr)]
    dsimp only
    obtain ⟨b, e, hb, he⟩ := sendSqe_cases (l.record (.applied l.reqNo a))
    rw [hb]
    cases b with
    | false => exact hstarved e he
    | true =>
      exact stageError_responds w stash l a httpPipelineInternalErrorPlan e he rfl (Or.inl rfl)
        l.conn.draining (fun h => absurd h (by decide))
  · have herr' : l.conn.h1.internalError = false := by simpa using herr
    rw [if_neg (by exact herr)]
    rcases hplan : httpPipelineErrorPlan a with _ | plan
    · dsimp only
      by_cases hcont : a = .continue
      · rw [if_pos hcont]
        dsimp only
        split_ifs
        · exact .waits hcont herr' (IoStep.refl _ _) (Or.inl rfl)
        · exact .waits hcont herr' (postRecvPtr_io _) (Or.inr rfl)
      · have hok : a = .respOk := by
          cases a <;> simp_all [httpPipelineErrorPlan]
        subst hok
        rw [if_neg hcont]
        dsimp only
        obtain ⟨b, e, hb, he⟩ := sendSqe_cases (l.record (.applied l.reqNo .respOk))
        rw [hb]
        cases b with
        | false => exact hstarved e he
        | true => exact dispatchRequest_responds w stash l _ e he herr'
    · dsimp only
      obtain ⟨b, e, hb, he⟩ := sendSqe_cases (l.record (.applied l.reqNo a))
      rw [hb]
      cases b with
      | false => exact hstarved e he
      | true =>
        obtain ⟨hka, hclose⟩ := errorPlan_eq hplan
        refine stageError_responds w stash l a plan e he hka ?_
          (l.conn.draining || plan.kind == .k431) (by simp +contextual)
        rcases hclose with h | ⟨ha, h⟩
        · exact Or.inl h
        · exact Or.inr ⟨ha, herr', h⟩

end Apply

/-! ## The stash -/

/-- The loop with more bytes in the stash. -/
def Loop.stashed (l : Loop L) (data : Bytes) (env : Env) : Loop L :=
  { l with conn := { l.conn with rxStash := l.conn.rxStash ++ data }, env := env }

lemma connRxStashAppend_cases (l : Loop L) (data : Bytes) :
    ∃ e : Env, e.io = l.env.io ∧ (connRxStashAppend l data = (true, l.stashed data e) ∨
      connRxStashAppend l data = (false, { l with env := e })) := by
  unfold connRxStashAppend
  split_ifs with hnil hlong hempty
  · exact ⟨l.env, rfl, Or.inl (by simp [Loop.stashed, hnil])⟩
  · exact ⟨l.env, rfl, Or.inr rfl⟩
  · unfold Loop.stashAlloc
    rcases hb : l.env.stashBlocks with _ | ⟨ok, rest⟩
    · exact ⟨l.env, rfl, Or.inl (by simp [Loop.stashed, hempty])⟩
    · cases ok with
      | false => exact ⟨{ l.env with stashBlocks := rest }, rfl, Or.inr rfl⟩
      | true =>
        exact ⟨{ l.env with stashBlocks := rest }, rfl, Or.inl (by simp [Loop.stashed, hempty])⟩
  · exact ⟨l.env, rfl, Or.inl rfl⟩

/-- The loop as received bytes are fed on it. -/
def Loop.heard (l : Loop L) : Loop L :=
  { l with conn := { l.conn with noselectStreak := 0 } }

/-- Bytes left over go to the stash, or the connection is closed. -/
def stashRest (l : Loop L) (data : Bytes) : Loop L :=
  if (connRxStashAppend l data).1 then (connRxStashAppend l data).2
  else scheduleOrSyncClose (connRxStashAppend l data).2

lemma readData_eq (w : Worker L) (l : Loop L) (buf : Bytes) :
    readData w l buf =
      httpApplyAction w (stashProcessor w)
        (stashRest (takeBytes l.heard buf).1 (buf.drop (takeBytes l.heard buf).2))
        (httpPipelineClassifyAction
          (stashRest (takeBytes l.heard buf).1 (buf.drop (takeBytes l.heard buf).2)).conn) :=
  rfl

/-! ## Sends -/

/-- What a send can do on either kind of connection: an input and output step, or the end of a
response with keep-alive. -/
inductive SendOutcome (w : Worker L) (stash : Loop L → Loop L × Bool) (l l' : Loop L) : Prop
  | io (h : IoStep true l l')
  | done (l1 : Loop L) (hka : l.conn.tx.keepalive = true) (h : IoStep false l l1)
      (hfd : l1.conn.fdOpen = l.conn.fdOpen) (heq : l' = nextRequest w stash l1)

lemma WriteOutcome.send {w : Worker L} {stash : Loop L → Loop L × Bool} {l l' : Loop L}
    (h : WriteOutcome w stash l l') : SendOutcome w stash l l' := by
  rcases h with hio | ⟨-, hio⟩ | ⟨l1, hka, hio, hfd, heq⟩
  · exact .io (hio.mono true)
  · exact .io hio
  · exact .done l1 hka hio hfd heq

lemma SendOutcome.of_ioStep {w : Worker L} {stash : Loop L → Loop L × Bool} {l l1 l' : Loop L}
    (h : IoStep false l l1) (hfd : l1.conn.fdOpen = l.conn.fdOpen) (h' : SendOutcome w stash l1 l') : SendOutcome w stash l l' := by
  rcases h' with hio | ⟨l2, hka, hio, hfd', heq⟩
  · exact .io ((h.mono true).trans hio)
  · exact .done l2 (h.keepalive ▸ hka) (h.trans hio) (hfd'.trans hfd) heq

/-- What asking for readiness after `EAGAIN` does. -/
lemma wantPolls_io (l : Loop L) (wantRead wantWrite : Bool) :
    IoStep true l
      (let polled := if wantWrite then postTlsPollout l else (true, l)
       if polled.1 then if wantRead then postRecvPtr polled.2 else polled.2
       else scheduleOrSyncClose polled.2) := by
  have hpoll : IoStep true l (if wantWrite then postTlsPollout l else (true, l)).2 := by
    split_ifs
    · exact (postTlsPollout_io l).mono true
    · exact IoStep.refl _ l
  dsimp only
  generalize (if wantWrite then postTlsPollout l else (true, l)) = polled at hpoll ⊢
  split_ifs
  · exact hpoll.trans (postRecvPtr_io _)
  · exact hpoll
  · exact hpoll.trans ((scheduleOrSyncClose_io _).mono true)

lemma tlsTrySendPending_outcome (w : Worker L) (stash : Loop L → Loop L × Bool) (l : Loop L) :
    SendOutcome w stash l (tlsTrySendPending w stash l) := by
  unfold tlsTrySendPending
  by_cases hpending : txPendingHeaders l.conn.tx = true
  · rw [if_pos hpending]
    rcases hsends : l.env.tlsSends with _ | ⟨r, rest⟩
    · exact .io (((ioStep_env l _).trans (scheduleOrSyncClose_io _)).mono true)
    · have hcall : IoStep false l (l.callTlsSend r rest) := ioStep_env l _
      refine .of_ioStep hcall rfl ?_
      cases r with
      | sent n =>
        dsimp only
        split_ifs
        · exact .io ((scheduleOrSyncClose_io _).mono true)
        · exact (writeHandleCqe_outcome w stash _ _).send
      | again wantRead wantWrite => exact .io (wantPolls_io _ wantRead wantWrite)
      | failed => exact .io ((scheduleOrSyncClose_io _).mono true)
  · rw [if_neg hpending]
    exact .io (IoStep.refl _ l)

/-! ## Closing connections -/

/-- From `l` to the closed connection `l'` nothing was logged. -/
structure Frozen (l l' : Loop L) : Prop where
  closed : l'.Closed
  log : l'.log = l.log
  tlsEnabled : l'.conn.tlsEnabled = l.conn.tlsEnabled

lemma IoStep.frozen {b : Bool} {l l' : Loop L} (h : IoStep b l l') (hclosed : l.Closed) :
    Frozen l l' :=
  ⟨h.closed hclosed, h.log, h.tlsEnabled⟩

/-- A send on a closed connection that still has its descriptor adds nothing to the log: its response
is without keep-alive. -/
lemma SendOutcome.of_closed {w : Worker L} {stash : Loop L → Loop L × Bool} {l l' : Loop L}
    (hout : SendOutcome w stash l l') (h : l.Closed) (hfd : l.conn.fdOpen = true) :
    Frozen l l' := by
  rcases hout with hio | ⟨l1, hka, -, -, -⟩
  · exact hio.frozen h
  · exact absurd (hka.symm.trans (h.2 hfd)) (by decide)

lemma handleWrite_outcome (w : Worker L) (l : Loop L) (res : IoRes) :
    SendOutcome w (stashProcessor w) l (handleWrite w l res) := by
  unfold handleWrite
  split_ifs
  · exact (writeHandleCqe_outcome w _ l res).send
  · exact .io (IoStep.refl _ l)

lemma handleWriteReady_outcome (w : Worker L) (l : Loop L) :
    SendOutcome w (stashProcessor w) l (handleWriteReady w l) := by
  unfold handleWriteReady
  split_ifs
  · exact .io (IoStep.refl _ l)
  · have hset : IoStep false l (l.setTx { l.conn.tx with writePollArmed := false }) :=
      ioStep_setTx l _ rfl rfl rfl rfl
    exact .of_ioStep hset rfl (tlsTrySendPending_outcome w _ _)
  · exact (writeReadyHandleCqe_outcome w _ l).send
  · exact .io (IoStep.refl _ l)

lemma handleWrite_of_detached (w : Worker L) {l : Loop L} (h : l.conn.fdOpen = false) (res : IoRes) :
    handleWrite w l res = l :=
  if_neg (by simp [h])

lemma handleWriteReady_of_detached (w : Worker L) {l : Loop L} (h : l.conn.fdOpen = false) :
    handleWriteReady w l = l :=
  if_neg (by simp [h])

/-- **A closed connection is done**: no event makes the loop apply, dispatch or stage anything. -/
lemma step_of_closed (w : Worker L) {l : Loop L} (e : Event × Env) (h : l.Closed) :
    Frozen l (l.step w e) := by
  obtain ⟨ev, env⟩ := e
  have hguard : (!l.conn.fdOpen || l.conn.closing) = true := by simp [h.1]
  have henv := (ioStep_env l env).frozen h
  cases ev with
  | recv r =>
    show Frozen l (readHandleCqe w { l with env := env, recvOps := l.recvOps - 1 } r)
    unfold readHandleCqe
    rw [if_pos (by exact hguard)]
    exact ⟨h, rfl, rfl⟩
  | tlsRead rs =>
    show Frozen l (tlsReadHandleCqe w { l with env := env, recvOps := l.recvOps - 1 } rs)
    unfold tlsReadHandleCqe
    rw [if_pos (by exact hguard)]
    exact ⟨h, rfl, rfl⟩
  | write res =>
    show Frozen l (handleWrite w { l with env := env } res)
    by_cases hfd : l.conn.fdOpen = true
    · have hout := handleWrite_outcome w { l with env := env } res
      exact (SendOutcome.of_ioStep (ioStep_env l env) rfl hout).of_closed h hfd
    · rw [handleWrite_of_detached w (l := { l with env := env }) (by simpa using hfd)]
      exact henv
  | writeReady =>
    show Frozen l (handleWriteReady w { l with env := env })
    by_cases hfd : l.conn.fdOpen = true
    · have hout := handleWriteReady_outcome w { l with env := env }
      exact (SendOutcome.of_ioStep (ioStep_env l env) rfl hout).of_closed h hfd
    · rw [handleWriteReady_of_detached w (l := { l with env := env }) (by simpa using hfd)]
      exact henv
  | shutdown => exact ((ioStep_env l env).trans (ioStep_shutdown _)).frozen h
  | expire => exact ((ioStep_env l env).trans (scheduleOrSyncClose_io _)).frozen h

end Lamseryn
