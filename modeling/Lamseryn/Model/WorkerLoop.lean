import Lamseryn.Model.Pipeline

/-!
# The worker loop (`src/worker_loop.c`)

What the worker does to one connection on each completion: received data (`recv` completions on a
plain connection, read polls on a TLS connection), finished sends, writable polls, the shutdown
transition and an expired deadline.

The functions are the source's, with the connection and the worker's state in one record (`Loop`).
Three conventions hold.

* What the outside world answers while an event is handled (submission queue entries, stash
  blocks, `tls_conn_send`, `sendfile`) is the `Env` of that event.
* What request handling answers is a parameter (`Handlers`); every call may answer differently.
* The vtable entry `conn_try_process_stash` is an argument (`stash`) of the functions that reach it
  through `write_handle_cqe`, because a TLS send can complete inside the dispatch.  The recursion
  is bounded by `stackDepth`; running out of stack is `crashed`.

Timers, counters and log lines are left out, and so is the 408 that precedes the close when a header
or body deadline expires; TLS connections are past their handshake.  `reqNo`, `taken`, `log`, `restarts`
(the connection behind each reset of the request) and the record `Env.io` of what was asked of the outside
world are history variables.
-/

namespace Lamseryn

open ByteText

/-! ## State -/

/-- The outcome of a `tls_conn_send`. -/
inductive TlsSend where
  | sent (n : ℕ)
  | again (wantRead wantWrite : Bool)
  | failed
  deriving DecidableEq, Repr

/-- What passes between the loop, the kernel and the bookkeeping of the connection: references taken
and dropped, operations posted to the ring and their completions, direct calls on the descriptor, and
the two ends of a response. -/
inductive Io where
  | ref
  | put
  | postRead
  | readDone
  | postSend (buf : Bytes)
  | sendDone (res : IoRes)
  | postPollOut
  | pollDone
  | sendfile (rest : Bytes) (res : IoRes)
  | tlsSend (buf : Bytes) (res : TlsSend)
  | closeFd
  | postClose
  | closeDone
  | storeDel
  | respond (buf : Bytes) (file : Option Bytes)
  | reset
  deriving DecidableEq, Repr

/-- What the outside world answers while one event is handled, and the record of what was asked of it.
An exhausted list of submission entries or stash blocks means success; an exhausted list of sends
means failure.  `closeNow` says that a close in this event has to be synchronous, because of the
connection's deadline (`DK_INITIAL_IDLE`, `DK_KA_IDLE`, `DK_DRAIN`) or as an abortive close. -/
structure Env where
  sqes : List Bool := []
  stashBlocks : List Bool := []
  tlsSends : List TlsSend := []
  sendfiles : List IoRes := []
  closeNow : Bool := false
  io : List Io := []
  deriving DecidableEq, Repr

/-- What the loop does that the results speak about: the classified action of each
`http_apply_action`, each call of `request_dispatch_ok` with the bytes that were counted as consumed
for the request and its state, and each staged response. -/
inductive LogEntry where
  | applied (reqNo : ℕ) (action : HttpAction)
  | dispatched (reqNo : ℕ) (taken : Bytes) (h1 : Http1State)
  | staged (reqNo : ℕ) (kind : RespKind)
  deriving DecidableEq, Repr

/-- The request an entry is about. -/
def LogEntry.reqNo : LogEntry → ℕ
  | .applied n _ => n
  | .dispatched n _ _ => n
  | .staged n _ => n

/-- A response left in the transmit state by request handling; its header block is not empty. -/
structure TxResponse where
  kind : RespKind
  buf : Bytes
  buf_ne_nil : buf ≠ []
  keepalive : Bool
  file : Option Bytes

/-- `struct request_ok_dispatch`.  `REQUEST_OK_NO_RESPONSE` is not returned for a connection, and
every header response of request handling is without keep-alive and closes the connection. -/
inductive OkDispatch where
  | txBuffer (resp : TxResponse)
  | headerResponse (kind : RespKind)

/-- Request handling as the loop uses it.  The first argument of each function is the length of the
log, so that no two calls need agree. -/
structure Handlers (L : Llhttp) where
  dispatchOk : ℕ → Conn L → HttpOkPlan → OkDispatch
  policyFails : ℕ → Conn L → RespKind → Bool
  responseText : ℕ → Conn L → ResponsePlan → Bytes
  responseText_ne_nil : ∀ n c plan, responseText n c plan ≠ []

/-- `struct worker_ctx`, as far as it is fixed: request handling, the configured limits and the
depth of the stack. -/
structure Worker (L : Llhttp) where
  handlers : Handlers L
  maxHeaderBytes : ℕ
  maxBodyBytes : ℕ
  stackDepth : ℕ

/-- One connection in the worker's hands; `recvOps` is the number of posted reads that have not
completed. -/
structure Loop (L : Llhttp) where
  conn : Conn L
  isDraining : Bool := false
  recvOps : ℕ := 0
  env : Env := {}
  crashed : Bool := false
  reqNo : ℕ := 0
  taken : Bytes := []
  log : List LogEntry := []
  restarts : List (Conn L) := []

variable {L : Llhttp}

/-! ## Small operations -/

/-- `get_sqe_batching` and `get_sqe_retry_once`. -/
def Loop.getSqe (l : Loop L) : Bool × Loop L :=
  match l.env.sqes with
  | [] => (true, l)
  | ok :: rest => (ok, { l with env := { l.env with sqes := rest } })

/-- `rx_stash_alloc`. -/
def Loop.stashAlloc (l : Loop L) : Bool × Loop L :=
  match l.env.stashBlocks with
  | [] => (true, l)
  | ok :: rest => (ok, { l with env := { l.env with stashBlocks := rest } })

/-- Change the transmit state. -/
def Loop.setTx (l : Loop L) (tx : TxState) : Loop L :=
  { l with conn := { l.conn with tx := tx } }

/-- Change `want_keepalive`. -/
def Loop.setWant (l : Loop L) (want : Bool) : Loop L :=
  { l with conn := { l.conn with h1 := { l.conn.h1 with wantKeepalive := want } } }

/-- Record an entry of the log. -/
def Loop.record (l : Loop L) (e : LogEntry) : Loop L :=
  { l with log := l.log ++ [e] }

/-- Add to the record of what was asked of the outside world. -/
def Loop.emit (l : Loop L) (ops : List Io) : Loop L :=
  { l with env := { l.env with io := l.env.io ++ ops } }

/-- `worker_loop_cancel_write_poll_if_armed`; the cancelled poll still completes. -/
def cancelWritePollIfArmed (l : Loop L) : Loop L :=
  if l.conn.tx.writePollArmed then
    match l.getSqe with
    | (false, l) => l
    | (true, l) => l.setTx { l.conn.tx with writePollArmed := false }
  else l

/-- The beginning of `schedule_or_sync_close`, with the descriptor detached. -/
def Loop.detach (l : Loop L) : Loop L :=
  { l with
    conn := { l.conn with closing := true, fdOpen := false, tx := txCloseAttachedFile l.conn.tx } }

/-- `schedule_or_sync_close`: a connection that is already detached is not found again.  The close is
asynchronous unless the event forbids it or there is no submission entry. -/
def scheduleOrSyncClose (l : Loop L) : Loop L :=
  if l.conn.fdOpen then
    let l := l.detach.emit [.ref]
    if l.env.closeNow then
      (cancelWritePollIfArmed l).emit [.closeFd, .storeDel, .put, .put]
    else
      match l.getSqe with
      | (false, l) => l.emit [.closeFd, .storeDel, .put, .put]
      | (true, l) => (cancelWritePollIfArmed (l.emit [.postClose])).emit [.storeDel, .put]
  else l

/-- `conn_rx_stash_append`. -/
def connRxStashAppend (l : Loop L) (data : Bytes) : Bool × Loop L :=
  if data = [] then (true, l)
  else if rbufSz < l.conn.rxStash.length + data.length then (false, l)
  else if l.conn.rxStash = [] then
    match l.stashAlloc with
    | (false, l) => (false, l)
    | (true, l) => (true, { l with conn := { l.conn with rxStash := data } })
  else (true, { l with conn := { l.conn with rxStash := l.conn.rxStash ++ data } })

/-- The request state that `conn_reset_request` leaves. -/
def Http1State.reset (s : Http1State) (maxBodyBytes : ℕ) : Http1State :=
  { hdrs := { reqHdrStoreMask := s.hdrs.reqHdrStoreMask }
    hdrFieldsMax := s.hdrFieldsMax
    maxBodyBytes := maxBodyBytes
    arena := s.arena }

/-- `conn_reset_request`; `conn_enter_keepalive_idle` also clears the closing flag. -/
def connResetRequest (w : Worker L) (l : Loop L) : Loop L :=
  let conn :=
    { l.conn with
      h1 := l.conn.h1.reset w.maxBodyBytes
      parser := L.init
      parserBytes := 0
      maxHeaderBytes := w.maxHeaderBytes
      pendingLineError := false
      noselectStreak := 0
      tx := txReset l.conn.tx
      closing := false
      draining := false }
  { l.emit [.reset] with
    conn := conn
    reqNo := l.reqNo + 1
    taken := []
    restarts := l.restarts ++ [conn] }

/-- Post a read: a `recv`, or a read poll on a TLS connection. -/
def Loop.armRead (l : Loop L) : Loop L :=
  { (l.setTx { l.conn.tx with recvArmed := true }).emit [.ref, .postRead] with
    recvOps := l.recvOps + 1 }

/-- Post a write poll. -/
def Loop.armPoll (l : Loop L) : Loop L :=
  (l.setTx { l.conn.tx with writePollArmed := true }).emit [.ref, .postPollOut]

/-- `post_recv_ptr`. -/
def postRecvPtr (l : Loop L) : Loop L :=
  if !l.conn.fdOpen || connIsClosingNoDeadline l.conn || l.conn.tx.recvArmed then l
  else
    match l.getSqe with
    | (false, l) => l
    | (true, l) => l.armRead

/-- `worker_loop_post_tls_pollout`. -/
def postTlsPollout (l : Loop L) : Bool × Loop L :=
  if !l.conn.fdOpen || connIsClosingNoDeadline l.conn then (false, l)
  else if l.conn.tx.writePollArmed then (true, l)
  else
    match l.getSqe with
    | (false, l) => (false, l)
    | (true, l) => (true, l.armPoll)

/-- The close on starvation that spares a connection already closing. -/
def closeUnlessClosing (l : Loop L) : Loop L :=
  if l.conn.closing then l else scheduleOrSyncClose l

/-- `worker_loop_write_arm_pollout`: one entry for the poll and one direct submission.  If the
submission fails, the entry is turned into a no-op and the reference dropped. -/
def writeArmPollout (l : Loop L) : Loop L :=
  if l.conn.tx.writePollArmed then l
  else
    match l.getSqe with
    | (false, l) => closeUnlessClosing l
    | (true, l) =>
      match l.getSqe with
      | (false, l) => closeUnlessClosing (l.emit [.ref, .put])
      | (true, l) => l.armPoll

/-- The bytes of the write buffer that are still to be sent. -/
def TxState.pending (tx : TxState) : Bytes :=
  tx.writeBuf.drop tx.writeOff

/-- `worker_loop_write_post_remaining`. -/
def writePostRemaining (l : Loop L) (guardIfClosing : Bool) : Loop L :=
  if txPendingHeaders l.conn.tx then
    match l.getSqe with
    | (false, l) => if guardIfClosing then closeUnlessClosing l else scheduleOrSyncClose l
    | (true, l) => l.emit [.ref, .postSend l.conn.tx.pending]
  else l

/-! ## Finished responses -/

/-- `worker_loop_write_on_full_response`. -/
def writeOnFullResponse (w : Worker L) (stash : Loop L → Loop L × Bool) (l : Loop L) : Loop L :=
  match txAfterFullResponse l.conn.tx l.conn.draining with
  | .shutWrAndRead => postRecvPtr l
  | .keepaliveReset =>
    let r := stash (connResetRequest w l)
    if r.2 then r.1 else postRecvPtr r.1
  | .close => scheduleOrSyncClose l

/-- One `sendfile` with its result; `rs` are the results of the later ones. -/
def Loop.callSendfile (l : Loop L) (r : IoRes) (rs : List IoRes) : Loop L :=
  { l with env := { l.env with sendfiles := rs } }.emit [.sendfile (l.conn.tx.file.getD []) r]

/-- The end of `worker_loop_tx_sendfile_progress`. -/
def finishSendfile (w : Worker L) (stash : Loop L → Loop L × Bool) (l : Loop L) : Loop L :=
  writeOnFullResponse w stash (cancelWritePollIfArmed (l.setTx (txCloseAttachedFile l.conn.tx)))

/-- The loop of `worker_loop_tx_sendfile_progress`; the list holds the results of `sendfile`. -/
def sendfileLoop (w : Worker L) (stash : Loop L → Loop L × Bool) : List IoRes → Loop L → Loop L
  | [], l =>
    if txSendfileIsActive l.conn.tx then
      scheduleOrSyncClose (l.callSendfile .failed [])
    else finishSendfile w stash l
  | r :: rs, l =>
    if txSendfileIsActive l.conn.tx then
      let next := txOnSendfileResult l.conn.tx r
      let l := (l.callSendfile r rs).setTx next.1
      match next.2 with
      | .resumeSendfile => sendfileLoop w stash rs l
      | .noop => sendfileLoop w stash rs l
      | .armPollout => writeArmPollout l
      | .errorClose => scheduleOrSyncClose l
      | _ => finishSendfile w stash l
    else finishSendfile w stash l

/-- `worker_loop_tx_sendfile_progress`. -/
def txSendfileProgress (w : Worker L) (stash : Loop L → Loop L × Bool) (l : Loop L) : Loop L :=
  if txSendfileIsActive l.conn.tx then sendfileLoop w stash l.env.sendfiles l
  else writeOnFullResponse w stash (l.setTx (txCloseAttachedFile l.conn.tx))

/-- `worker_loop_write_handle_cqe`. -/
def writeHandleCqe (w : Worker L) (stash : Loop L → Loop L × Bool) (l : Loop L) (res : IoRes) :
    Loop L :=
  let next := txOnHeadersResult l.conn.tx res
  let l := l.setTx next.1
  match next.2 with
  | .sendHeaders => writePostRemaining l true
  | .startSendfile =>
    let l := cancelWritePollIfArmed l
    txSendfileProgress w stash (l.setTx (txDiscard l.conn.tx))
  | .armPollout => writeArmPollout l
  | .shutWrAndRead => postRecvPtr (cancelWritePollIfArmed l)
  | .doneKeepalive => writeOnFullResponse w stash (cancelWritePollIfArmed l)
  | .doneClose => writeOnFullResponse w stash (cancelWritePollIfArmed l)
  | .errorClose => scheduleOrSyncClose l
  | .resumeSendfile => l
  | .noop => l

/-- `worker_loop_write_ready_handle_cqe`. -/
def writeReadyHandleCqe (w : Worker L) (stash : Loop L → Loop L × Bool) (l : Loop L) : Loop L :=
  let l := l.setTx { l.conn.tx with writePollArmed := false }
  match txOnPollout l.conn.tx with
  | .resumeSendfile => txSendfileProgress w stash l
  | .sendHeaders => writePostRemaining l false
  | _ => l

/-- One `tls_conn_send` of the pending bytes with its result; `rs` are the results of the later
ones. -/
def Loop.callTlsSend (l : Loop L) (r : TlsSend) (rs : List TlsSend) : Loop L :=
  { l with env := { l.env with tlsSends := rs } }.emit [.tlsSend l.conn.tx.pending r]

/-- `worker_loop_tls_try_send_pending`. -/
def tlsTrySendPending (w : Worker L) (stash : Loop L → Loop L × Bool) (l : Loop L) : Loop L :=
  if txPendingHeaders l.conn.tx then
    match l.env.tlsSends with
    | [] => scheduleOrSyncClose (l.callTlsSend .failed [])
    | r :: rest =>
      let l := l.callTlsSend r rest
      match r with
      | .sent n => if n = 0 then scheduleOrSyncClose l else writeHandleCqe w stash l (.sent n)
      | .again wantRead wantWrite =>
        let polled := if wantWrite then postTlsPollout l else (true, l)
        if polled.1 then if wantRead then postRecvPtr polled.2 else polled.2
        else scheduleOrSyncClose polled.2
      | .failed => scheduleOrSyncClose l
  else l

/-! ## Staging a response -/

/-- The plan that `stage_header_response_send` really sends: no keep-alive while the worker shuts
down, and 500 when the policy headers cannot be assembled. -/
def effectivePlan (w : Worker L) (l : Loop L) (plan : ResponsePlan) : ResponsePlan :=
  let plan :=
    if l.isDraining then { plan with keepalive := false, closeAfterSend := true } else plan
  if w.handlers.policyFails l.log.length l.conn plan.kind then ⟨.k500, false, false, true⟩ else plan

/-- The state in which `stage_header_response_send` starts the send. -/
def placeHeaderResponse (w : Worker L) (l : Loop L) (plan : ResponsePlan) : Loop L :=
  let text := w.handlers.responseText l.log.length l.conn plan
  let tx := txBeginHeaders l.conn.tx plan.kind text plan.keepalive plan.drainAfterHeaders
  ({ l with conn := { l.conn with tx := tx, closing := l.conn.closing || plan.closeAfterSend } }.record
    (.staged l.reqNo plan.kind)).emit [.respond text tx.file]

/-- Start the send of the staged response: at once on a TLS connection, else by a posted send. -/
def startSend (w : Worker L) (stash : Loop L → Loop L × Bool) (l : Loop L) : Loop L :=
  if l.conn.tlsEnabled then tlsTrySendPending w stash l
  else l.emit [.ref, .postSend l.conn.tx.writeBuf]

/-- `stage_header_response_send`. -/
def stageHeaderResponseSend (w : Worker L) (stash : Loop L → Loop L × Bool) (l : Loop L)
    (plan : ResponsePlan) : Loop L :=
  startSend w stash (placeHeaderResponse w l (effectivePlan w l plan))

/-- The transmit state that request handling leaves with its response. -/
def responseTx (tx : TxState) (resp : TxResponse) : TxState :=
  { tx with
    respKind := resp.kind
    writeBuf := resp.buf
    writeOff := 0
    keepalive := resp.keepalive
    drainAfterHeaders := false
    file := resp.file }

/-- The state in which the response of request handling is staged. -/
def placeTxResponse (l : Loop L) (resp : TxResponse) : Loop L :=
  ((l.setTx (responseTx l.conn.tx resp)).record (.staged l.reqNo resp.kind)).emit
    [.respond resp.buf resp.file]

/-- The submission entry a response needs; a TLS send needs none. -/
def sendSqe (l : Loop L) : Bool × Loop L :=
  if l.conn.tlsEnabled then (true, l) else l.getSqe

/-- The plan of a served request; no keep-alive while the worker shuts down. -/
def effectiveOkPlan (l : Loop L) (plan : HttpOkPlan) : HttpOkPlan :=
  if l.isDraining then { plan with keepalive := false } else plan

/-- The call of `request_dispatch_ok` and the staging of its answer. -/
def dispatchRequest (w : Worker L) (stash : Loop L → Loop L × Bool) (l : Loop L)
    (plan : HttpOkPlan) : Loop L :=
  let l := l.setWant (l.conn.h1.wantKeepalive && !l.isDraining)
  let answer := w.handlers.dispatchOk l.log.length l.conn (effectiveOkPlan l plan)
  let l := l.record (.dispatched l.reqNo l.taken l.conn.h1)
  match answer with
  | .txBuffer resp => startSend w stash (placeTxResponse l resp)
  | .headerResponse kind =>
    stageHeaderResponseSend w stash (l.setWant false) ⟨kind, false, false, true⟩

/-- `http_apply_action`. -/
def httpApplyAction (w : Worker L) (stash : Loop L → Loop L × Bool) (l : Loop L)
    (action : HttpAction) : Loop L :=
  let l := l.record (.applied l.reqNo action)
  match httpPipelineBuildApplyPlan l.conn action with
  | .continue => if connIsClosingNoDeadline l.conn then l else postRecvPtr l
  | .internalError plan =>
    match sendSqe l with
    | (false, l) => scheduleOrSyncClose l
    | (true, l) => stageHeaderResponseSend w stash l plan
  | .error plan =>
    match sendSqe l with
    | (false, l) => scheduleOrSyncClose l
    | (true, l) =>
      let draining := l.conn.draining || plan.kind == .k431
      stageHeaderResponseSend w stash { l with conn := { l.conn with draining := draining } } plan
  | .ok plan =>
    match sendSqe l with
    | (false, l) => scheduleOrSyncClose l
    | (true, l) => dispatchRequest w stash l plan

/-! ## Received bytes -/

/-- The two stages on received bytes, with the consumed bytes recorded. -/
def takeBytes (l : Loop L) (buf : Bytes) : Loop L × ℕ :=
  let r := rxStages l.conn buf
  ({ l with conn := r.1, taken := l.taken ++ buf.take r.2 }, r.2)

/-- `conn_try_process_stash`; the flag says whether a response was staged. -/
def connTryProcessStash (w : Worker L) : ℕ → Loop L → Loop L × Bool
  | 0, l =>
    if l.conn.rxStash = [] ∨ l.conn.closing ∨ l.conn.draining then (l, false)
    else ({ l with crashed := true }, true)
  | depth + 1, l =>
    if l.conn.rxStash = [] ∨ l.conn.closing ∨ l.conn.draining then (l, false)
    else
      let r := takeBytes l l.conn.rxStash
      let action := httpPipelineClassifyAction r.1.conn
      let l := httpApplyAction w (connTryProcessStash w depth) r.1 action
      ({ l with conn := connRxStashConsume l.conn r.2 }, action ≠ .continue)

/-- The stash processor as the vtables install it. -/
def stashProcessor (w : Worker L) : Loop L → Loop L × Bool :=
  connTryProcessStash w w.stackDepth

/-- The result of a `recv` on a plain connection. -/
inductive RecvResult where
  | data (buf : Bytes)
  | noBuffer
  | again
  | closed
  deriving DecidableEq, Repr

/-- The part of `worker_loop_read_handle_cqe` that handles data. -/
def readData (w : Worker L) (l : Loop L) (buf : Bytes) : Loop L :=
  let r := takeBytes { l with conn := { l.conn with noselectStreak := 0 } } buf
  let appended := connRxStashAppend r.1 (buf.drop r.2)
  let l := if appended.1 then appended.2 else scheduleOrSyncClose appended.2
  httpApplyAction w (stashProcessor w) l (httpPipelineClassifyAction l.conn)

/-- `worker_loop_read_handle_cqe`, behind the guard of `read_handle_cqe`. -/
def readHandleCqe (w : Worker L) (l : Loop L) (r : RecvResult) : Loop L :=
  if !l.conn.fdOpen || l.conn.closing then l
  else
    let l := l.setTx { l.conn.tx with recvArmed := false }
    match r with
    | .noBuffer =>
      let l := { l with conn := { l.conn with noselectStreak := l.conn.noselectStreak + 1 } }
      if 2 ≤ l.conn.noselectStreak then scheduleOrSyncClose l
      else if connIsClosingNoDeadline l.conn then l
      else postRecvPtr l
    | .again => if connIsClosingNoDeadline l.conn then l else postRecvPtr l
    | .closed => scheduleOrSyncClose l
    | .data buf => readData w l buf

/-- `worker_loop_process_rx_bytes`. -/
def processRxBytes (w : Worker L) (l : Loop L) (buf : Bytes) : Loop L :=
  if buf = [] ∨ l.conn.closing then l
  else
    let r := takeBytes { l with conn := { l.conn with noselectStreak := 0 } } buf
    match connRxStashAppend r.1 (buf.drop r.2) with
    | (false, l) => scheduleOrSyncClose l
    | (true, l) => httpApplyAction w (stashProcessor w) l (httpPipelineClassifyAction l.conn)

/-- The outcome of a `tls_conn_recv`. -/
inductive TlsRecv where
  | data (buf : Bytes)
  | again (wantRead wantWrite : Bool)
  | eof
  | failed
  deriving DecidableEq, Repr

/-- The read loop of `worker_loop_tls_read_handle_cqe`: at most `spins` decrypted reads. -/
def tlsReadLoop (w : Worker L) : ℕ → List TlsRecv → Loop L → Loop L
  | 0, _, l => l
  | _ + 1, [], l => l
  | spins + 1, r :: rs, l =>
    if l.conn.closing then l
    else
      match r with
      | .data buf => tlsReadLoop w spins rs (processRxBytes w l buf)
      | .eof => scheduleOrSyncClose l
      | .failed => scheduleOrSyncClose l
      | .again wantRead wantWrite =>
        let polled := if wantWrite then postTlsPollout l else (true, l)
        if polled.1 then if wantRead then postRecvPtr polled.2 else polled.2
        else scheduleOrSyncClose polled.2

/-- `worker_loop_tls_read_handle_cqe`, behind the guard of `read_handle_cqe`. -/
def tlsReadHandleCqe (w : Worker L) (l : Loop L) (rs : List TlsRecv) : Loop L :=
  if !l.conn.fdOpen || l.conn.closing then l
  else
    let l := tlsReadLoop w 8 rs (l.setTx { l.conn.tx with recvArmed := false })
    if l.conn.closing then l else postRecvPtr l

/-! ## New connections -/

/-- `conn_init`. -/
def connInit (w : Worker L) (vhost : Option Vhost) (tls : Bool) (arena : List Bool) : Conn L :=
  { h1 :=
      { hdrs :=
          { reqHdrStoreMask := httpHeadersStoreMask ((vhost.map Vhost.features).getD {}) }
        hdrFieldsMax := (vhost.map Vhost.maxHeaderFields).getD 100
        maxBodyBytes := w.maxBodyBytes
        arena := arena }
    parser := L.init
    maxHeaderBytes := w.maxHeaderBytes
    tlsEnabled := tls
    vhost := vhost }

/-- An accepted connection with its first read posted. -/
def acceptConn (w : Worker L) (vhost : Option Vhost) (tls : Bool) (arena : List Bool) : Loop L :=
  postRecvPtr { conn := connInit w vhost tls arena }

/-! ## Events -/

/-- A completion or a transition of the worker. -/
inductive Event where
  | recv (r : RecvResult)
  | tlsRead (rs : List TlsRecv)
  | write (res : IoRes)
  | writeReady
  | shutdown
  | expire
  deriving DecidableEq, Repr

/-- `OP_WRITE` in `worker_loop_try_handle_conn`. -/
def handleWrite (w : Worker L) (l : Loop L) (res : IoRes) : Loop L :=
  if l.conn.fdOpen then writeHandleCqe w (stashProcessor w) l res else l

/-- `OP_WRITE_READY` in `worker_loop_try_handle_conn`. -/
def handleWriteReady (w : Worker L) (l : Loop L) : Loop L :=
  if l.conn.fdOpen then
    if l.conn.closing && l.conn.tx.respKind == .none then l
    else if l.conn.tlsEnabled then
      tlsTrySendPending w (stashProcessor w) (l.setTx { l.conn.tx with writePollArmed := false })
    else writeReadyHandleCqe w (stashProcessor w) l
  else l

/-- What the worker does on an event.  A completed read is no longer posted. -/
def handleEvent (w : Worker L) (l : Loop L) : Event → Loop L
  | .recv r => readHandleCqe w { l with recvOps := l.recvOps - 1 } r
  | .tlsRead rs => tlsReadHandleCqe w { l with recvOps := l.recvOps - 1 } rs
  | .write res => handleWrite w l res
  | .writeReady => handleWriteReady w l
  | .shutdown => { l with isDraining := true }
  | .expire => scheduleOrSyncClose l

/-- One step of the worker on one connection. -/
def Loop.step (w : Worker L) (l : Loop L) (e : Event × Env) : Loop L :=
  handleEvent w { l with env := e.2 } e.1

/-- The data of a `recv` fits the receive buffer. -/
def RecvResult.inBounds : RecvResult → Bool
  | .data buf => decide (buf ≠ [] ∧ buf.length ≤ rbufSz)
  | _ => true

/-- The data of a `tls_conn_recv` fits its buffer of 8192 bytes. -/
def TlsRecv.inBounds : TlsRecv → Bool
  | .data buf => decide (buf ≠ [] ∧ buf.length ≤ 8192)
  | _ => true

/-- A decrypted read that brought data. -/
def TlsRecv.isData : TlsRecv → Bool
  | .data _ => true
  | _ => false

/-- An event that can occur: data arrives only on a posted read. -/
def Loop.enabled (l : Loop L) (e : Event × Env) : Bool :=
  match e.1 with
  | .recv r => !l.conn.tlsEnabled && decide (0 < l.recvOps) && r.inBounds
  | .tlsRead rs => l.conn.tlsEnabled && decide (0 < l.recvOps) && rs.all TlsRecv.inBounds
  | _ => true

end Lamseryn
