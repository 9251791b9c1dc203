import Lamseryn.Model.WorkerLoop

/-!
# A connection from accept to its last completion

`Loop` is what the handlers of `src/worker_loop.c` work on once data flows.  A `Session` adds what
surrounds them: the accept hook (`worker_accept_success` in `lamseryn.c`), the TLS handshake, the
request deadlines of the timing wheel (`tw_process_tick` in `src/timing_wheel.c`), the completion of
the close, and the dispatch of completions to handlers with the reference that each of them consumes
(`worker_loop_try_handle_conn`).

The history of a session is the record `Env.io` of its loop, which every event extends.  An operation
is outstanding if it was posted and has not completed; completions arrive for outstanding operations
only (`Session.enabled`).  Deadlines other than those of a request close the connection and are the
event `expire` of the loop.
-/

namespace Lamseryn

open ByteText

/-- `enum tls_hs_status`. -/
inductive HsStatus where
  | done
  | wantRead
  | wantWrite
  | error
  deriving DecidableEq, Repr

/-- A connection with its handshake state; `handshakeDone` is `tls_handshake_done`. -/
structure Session (L : Llhttp) where
  loop : Loop L
  handshakeDone : Bool := false

variable {L : Llhttp}

/-- What passed between the worker and the outside world for this connection. -/
def Session.history (s : Session L) : List Io :=
  s.loop.env.io

/-- `conn_tls_handshake_pending`. -/
def Session.handshakePending (s : Session L) : Bool :=
  s.loop.conn.tlsEnabled && !s.handshakeDone

/-- `worker_loop_tls_handshake_progress`, with the outcome of `tls_conn_handshake_step`. -/
def tlsHandshakeProgress (s : Session L) (hs : HsStatus) : Session L :=
  if s.handshakePending then
    match hs with
    | .done => { loop := postRecvPtr s.loop, handshakeDone := true }
    | .wantRead => { s with loop := postRecvPtr s.loop }
    | .wantWrite =>
      let polled := postTlsPollout s.loop
      { s with loop := if polled.1 then polled.2 else scheduleOrSyncClose polled.2 }
    | .error => { s with loop := scheduleOrSyncClose s.loop }
  else s

/-! ## Responses outside request handling -/

/-- Post the send of a response that is built outside `http_apply_action`.  Neither of the two places
that do so asks whether the connection uses TLS. -/
def postResponse (w : Worker L) (l : Loop L) (plan : ResponsePlan) : Loop L :=
  match l.getSqe with
  | (false, l) => scheduleOrSyncClose l
  | (true, l) =>
    let l := placeHeaderResponse w l plan
    l.emit [.ref, .postSend l.conn.tx.writeBuf]

/-- The cases `DK_HEADER_TIMEOUT` and `DK_BODY_TIMEOUT` of `tw_process_tick`: a 408, or a 500 when the
policy headers cannot be assembled. -/
def requestTimeout (w : Worker L) (l : Loop L) : Loop L :=
  postResponse w l
    ⟨if w.handlers.policyFails l.log.length l.conn .k408 then .k500 else .k408, false, false, true⟩

/-- `tw_conn_get_state` says that a request is being received.  The keep-alive flag `ka_idle` is left
out, so that the deadline may expire in more states than the source allows; and llhttp completes no
message before its header section. -/
def Session.requestInProgress (s : Session L) : Bool :=
  s.loop.conn.fdOpen && !s.loop.conn.draining && !s.handshakePending && !s.loop.conn.closing &&
    !s.loop.conn.h1.messageDone && (s.loop.conn.h1.headersDone || decide (0 < s.loop.conn.parserBytes))

/-! ## Accept -/

/-- The end of `worker_accept_success`: a connection without a posted read is refused with 503. -/
def acceptRead (w : Worker L) (l : Loop L) : Loop L :=
  let l := postRecvPtr l
  if !l.conn.tx.recvArmed && !l.conn.closing && l.conn.fdOpen then
    postResponse w l ⟨.k503, false, false, true⟩
  else l

/-- `worker_accept_success` after `conn_init`, with the outcome of the first handshake step.  A failed
`tls_conn_init` closes the connection as a failed handshake does. -/
def acceptSession (w : Worker L) (vhost : Option Vhost) (tls : Bool) (arena : List Bool)
    (hs : HsStatus) (env : Env) : Session L :=
  let s : Session L := { loop := { conn := connInit w vhost tls arena, env := { env with io := [] } } }
  if vhost = none then { s with loop := scheduleOrSyncClose s.loop }
  else
    let s := tlsHandshakeProgress s hs
    if !s.loop.conn.fdOpen || s.handshakePending then s
    else { s with loop := acceptRead w s.loop }

/-! ## Events -/

/-- An event of a session: one of the loop, a completion during the handshake, the completion of the
close, or the expiry of a request deadline. -/
inductive SessionEvent where
  | io (e : Event)
  | handshakeRead (failed : Bool) (hs : HsStatus)
  | handshakeReady (hs : HsStatus)
  | closed
  | timeout
  deriving DecidableEq, Repr

/-- The completion that an event of the loop is about. -/
def Event.arrival : Event → List Io
  | .recv _ => [.readDone]
  | .tlsRead _ => [.readDone]
  | .write res => [.sendDone res]
  | .writeReady => [.pollDone]
  | .shutdown => []
  | .expire => []

/-- The reference that a handled completion gives back. -/
def Event.release : Event → List Io
  | .shutdown => []
  | .expire => []
  | _ => [.put]

/-- `read_handle_cqe` during the handshake. -/
def handshakeRead (s : Session L) (failed : Bool) (hs : HsStatus) : Session L :=
  if !s.loop.conn.fdOpen || s.loop.conn.closing then s
  else
    let s := { s with loop := s.loop.setTx { s.loop.conn.tx with recvArmed := false } }
    if failed then { s with loop := scheduleOrSyncClose s.loop } else tlsHandshakeProgress s hs

/-- `OP_WRITE_READY` in `worker_loop_try_handle_conn` during the handshake. -/
def handshakeReady (s : Session L) (hs : HsStatus) : Session L :=
  if s.loop.conn.fdOpen && !(s.loop.conn.closing && s.loop.conn.tx.respKind == .none) then
    tlsHandshakeProgress
      { s with loop := s.loop.setTx { s.loop.conn.tx with writePollArmed := false } } hs
  else s

/-- Add to the history. -/
def Session.emit (s : Session L) (ops : List Io) : Session L :=
  { s with loop := s.loop.emit ops }

/-- What the worker does on an event of a session. -/
def Session.handle (w : Worker L) (s : Session L) : SessionEvent → Session L
  | .io e => { s with loop := (handleEvent w (s.loop.emit e.arrival) e).emit e.release }
  | .handshakeRead failed hs =>
    let s := { s with loop := { s.loop.emit [.readDone] with recvOps := s.loop.recvOps - 1 } }
    (handshakeRead s failed hs).emit [.put]
  | .handshakeReady hs => (handshakeReady (s.emit [.pollDone]) hs).emit [.put]
  | .closed =>
    { s with
      loop :=
        { s.loop with conn := { s.loop.conn with fdOpen := false } }.emit [.closeDone, .put] }
  | .timeout => { s with loop := requestTimeout w s.loop }

/-- One step of a session: the event is handled in its environment, and the history goes on. -/
def Session.step (w : Worker L) (s : Session L) (e : SessionEvent × Env) : Session L :=
  Session.handle w
    { s with loop := { s.loop with env := { e.2 with io := s.loop.env.io } } } e.1

/-! ## Outstanding operations -/

/-- The send operations in a history. -/
def Io.isPostSend : Io → Bool
  | .postSend _ => true
  | _ => false

/-- The completions of send operations. -/
def Io.isSendDone : Io → Bool
  | .sendDone _ => true
  | _ => false

/-- The reads of a history that have not completed. -/
def readsInFlight (h : List Io) : ℕ := h.count .postRead - h.count .readDone

/-- The sends of a history that have not completed. -/
def sendsInFlight (h : List Io) : ℕ := h.countP Io.isPostSend - h.countP Io.isSendDone

/-- The write polls of a history that have not completed. -/
def pollsInFlight (h : List Io) : ℕ := h.count .postPollOut - h.count .pollDone

/-- The closes of a history that have not completed. -/
def closesInFlight (h : List Io) : ℕ := h.count .postClose - h.count .closeDone

/-- The events that can occur: completions of outstanding operations, deadlines of requests in
progress, and what the worker does on its own. -/
def Session.enabled (s : Session L) (e : SessionEvent × Env) : Bool :=
  match e.1 with
  | .io (.recv r) => !s.loop.conn.tlsEnabled && decide (0 < s.loop.recvOps) && r.inBounds
  | .io (.tlsRead rs) =>
    s.loop.conn.tlsEnabled && !s.handshakePending && decide (0 < s.loop.recvOps) &&
      rs.all TlsRecv.inBounds
  | .io (.write _) => decide (0 < sendsInFlight s.history)
  | .io .writeReady => !s.handshakePending && decide (0 < pollsInFlight s.history)
  | .io .shutdown => true
  | .io .expire => true
  | .handshakeRead _ _ => s.handshakePending && decide (0 < s.loop.recvOps)
  | .handshakeReady _ => s.handshakePending && decide (0 < pollsInFlight s.history)
  | .closed => decide (0 < closesInFlight s.history)
  | .timeout => s.requestInProgress

end Lamseryn
