import Lamseryn.Model.Parser
import Lamseryn.Model.Tx

/-!
# Feeding received bytes (`src/http_pipeline.c`, `src/rx_stash.c`)

The path of received bytes into the request state: `http_pipeline_feed`, the classification of the
result, the response plans, and the stash that holds the bytes of later requests.

llhttp is a parameter (`Llhttp`): from a parser state and a chunk it yields a new state, the
callbacks it makes, its error code and the error position.  The three places that feed received
bytes (`worker_loop_read_handle_cqe`, `worker_loop_process_rx_bytes`, `conn_try_process_stash`)
share the two stages of `rxStages`.  With `RBUF_SZ` at 256, `conn_split_on_header_end` never splits,
so `rx_tail` is not read and is left out.
-/

namespace Lamseryn

open ByteText

/-- `RBUF_SZ`, also the size of the stash. -/
def rbufSz : ℕ := 256

/-! ## llhttp -/

/-- The error codes of llhttp that the server tells apart. -/
inductive LlhttpErrno where
  | ok
  | paused
  | crExpected
  | lfExpected
  | invalidHeaderToken
  | other
  deriving DecidableEq, Repr

/-- What one `llhttp_execute` does: the new parser state, the callbacks it makes as long as none
stops it, the error code and the offset of `llhttp_get_error_pos` in the chunk. -/
structure LlhttpResult (σ : Type) where
  state : σ
  callbacks : List Callback
  err : LlhttpErrno
  errorPos : Option ℕ

/-- llhttp as the server uses it: `llhttp_init` and `llhttp_execute`. -/
structure Llhttp where
  State : Type
  init : State
  execute : State → Bytes → LlhttpResult State

/-! ## The connection -/

/-- `struct conn`, with the fields of `struct http1_state` that the callbacks do not touch.
`rx_stash` is `NULL` exactly while `rx_stash_len` is zero.  `fdOpen` says whether `fd` is
non-negative. -/
structure Conn (L : Llhttp) where
  h1 : Http1State := {}
  parser : L.State
  parserBytes : ℕ := 0
  maxHeaderBytes : ℕ := 0
  pendingLineError : Bool := false
  rxStash : Bytes := []
  tx : TxState := {}
  closing : Bool := false
  draining : Bool := false
  noselectStreak : ℕ := 0
  fdOpen : Bool := true
  tlsEnabled : Bool := false
  vhost : Option Vhost := none

/-- `conn_is_closing_no_deadline`. -/
def connIsClosingNoDeadline {L : Llhttp} (c : Conn L) : Bool :=
  c.closing && !c.draining

/-! ## Feeding -/

section Feed

variable {L : Llhttp}

/-- `has_lf`. -/
def hasLf (buf : Bytes) : Bool :=
  buf.any (· == 10)

/-- `h1_max_header_bytes`. -/
def h1MaxHeaderBytes (c : Conn L) : ℕ :=
  if 0 < c.maxHeaderBytes then c.maxHeaderBytes else defaultMaxHeaderBytes

/-- `llhttp_should_tolerate`. -/
def llhttpShouldTolerate (c : Conn L) (err : LlhttpErrno) (buf : Bytes) : Bool × Conn L :=
  if c.h1.headersDone then (false, c)
  else
    match err with
    | .crExpected => (true, c)
    | .lfExpected => (true, c)
    | .invalidHeaderToken =>
      if c.pendingLineError then (!hasLf buf, c)
      else (true, { c with pendingLineError := true })
    | _ => (false, c)

/-- `http_parser_feed`: one `llhttp_execute` with the server's callbacks.  A callback that stops
llhttp makes it report an error. -/
def httpParserFeed (c : Conn L) (buf : Bytes) : Conn L × LlhttpErrno × Option ℕ :=
  let r := L.execute c.parser buf
  let out := runCallbacks c.vhost c.h1 r.callbacks
  ({ c with h1 := out.1, parser := r.state }, if out.2 then .other else r.err, r.errorPos)

/-- The reaction of `http_pipeline_feed` to an llhttp error. -/
def httpParserError (c : Conn L) (err : LlhttpErrno) (buf : Bytes) : Conn L :=
  if err = .ok ∨ err = .paused then c
  else
    match llhttpShouldTolerate c err buf with
    | (true, c) => c
    | (false, c) =>
      if c.h1.bodyTooBig then c else { c with h1 := { c.h1 with parseError := true } }

/-- The byte count of `http_pipeline_feed`: while the headers are not done, every fed byte counts
against `max_header_bytes`. -/
def countHeaderBytes (c : Conn L) (n : ℕ) : Conn L :=
  if c.h1.headersDone then c
  else
    let c := { c with parserBytes := c.parserBytes + n }
    if h1MaxHeaderBytes c < c.parserBytes then { c with h1 := { c.h1 with headerTooBig := true } }
    else c

/-- The end of `http_pipeline_feed`: completed headers clear the pending line error. -/
def clearPendingLine (before c : Conn L) : Conn L :=
  if !before.h1.headersDone && c.h1.headersDone then { c with pendingLineError := false } else c

/-- `http_pipeline_feed`, with the error code it reports and the error position llhttp holds
afterwards. -/
def httpPipelineFeed (c : Conn L) (buf : Bytes) : Conn L × LlhttpErrno × Option ℕ :=
  if buf = [] then (c, .ok, none)
  else if c.h1.parseError || c.h1.headerTooBig || c.h1.unsupportedTe || c.h1.messageDone then
    (c, .ok, none)
  else
    let counted := countHeaderBytes c buf.length
    if counted.h1.headerTooBig then (clearPendingLine c counted, .ok, none)
    else
      let r := httpParserFeed counted buf
      (clearPendingLine c (httpParserError r.1 r.2.1 buf), r.2.1, r.2.2)

/-- How many bytes of a fed block count as consumed: up to the error position if llhttp paused
inside the block, else all. -/
def usedBytes (err : LlhttpErrno) (errorPos : Option ℕ) (n : ℕ) : ℕ :=
  if err = .paused then
    match errorPos with
    | some k => if k ≤ n then k else n
    | none => n
  else n

/-- No flag stops the parsing of the current request. -/
def stillParsing (s : Http1State) : Bool :=
  !s.parseError && !s.headerTooBig && !s.unsupportedTe

/-- The first stage of the read paths: header bytes. -/
def feedHead (c : Conn L) (buf : Bytes) : Conn L × ℕ :=
  if !c.h1.headersDone && stillParsing c.h1 then
    let r := httpPipelineFeed c buf
    (r.1, usedBytes r.2.1 r.2.2 buf.length)
  else (c, 0)

/-- Is the body framed as chunked? -/
def isChunked (f : Framing) : Bool :=
  decide (0 < f.teCount) && f.teChunked && !f.teOther

/-- The second stage of the read paths: body bytes. -/
def feedBody (c : Conn L) (buf : Bytes) : Conn L × ℕ :=
  if buf ≠ [] && c.h1.headersDone && !c.h1.messageDone && stillParsing c.h1 then
    if isChunked c.h1.framing then
      let r := httpPipelineFeed c buf
      (r.1, usedBytes r.2.1 r.2.2 buf.length)
    else
      let n := min c.h1.bodyRemaining buf.length
      if n = 0 then (c, 0)
      else
        let c := (httpPipelineFeed c (buf.take n)).1
        ({ c with h1 := { c.h1 with bodyRemaining := c.h1.bodyRemaining - n } }, n)
  else (c, 0)

/-- The two stages of the read paths on received bytes: the connection afterwards and the number
of bytes that count as consumed. -/
def rxStages (c : Conn L) (buf : Bytes) : Conn L × ℕ :=
  let head := feedHead c buf
  let body := feedBody head.1 (buf.drop head.2)
  (body.1, head.2 + body.2)

/-! ## The stash -/

/-- `conn_rx_stash_consume`. -/
def connRxStashConsume (c : Conn L) (n : ℕ) : Conn L :=
  { c with rxStash := c.rxStash.drop n }

/-! ## Classification and plans -/

/-- `enum http_action`. -/
inductive HttpAction where
  | continue
  | resp431
  | resp400
  | resp413
  | resp501
  | respOk
  deriving DecidableEq, Repr

/-- `http_pipeline_classify_action`. -/
def httpPipelineClassifyAction (c : Conn L) : HttpAction :=
  if c.h1.headerTooBig && !c.draining then .resp431
  else if c.h1.unsupportedTe then .resp501
  else if c.h1.bodyTooBig then .resp413
  else if c.h1.parseError then .resp400
  else if !c.h1.messageDone then .continue
  else .respOk

/-- A response without a body, as `stage_header_response_send` takes it: `struct http_error_plan`
and the parameters of `request_build_response_plan`. -/
structure ResponsePlan where
  kind : RespKind
  keepalive : Bool
  drainAfterHeaders : Bool
  closeAfterSend : Bool
  deriving DecidableEq, Repr

/-- `http_pipeline_error_plan`. -/
def httpPipelineErrorPlan : HttpAction → Option ResponsePlan
  | .resp431 => some ⟨.k431, false, true, false⟩
  | .resp400 => some ⟨.k400, false, false, true⟩
  | .resp413 => some ⟨.k413, false, false, true⟩
  | .resp501 => some ⟨.k501, false, false, true⟩
  | _ => none

/-- `http_pipeline_internal_error_plan`. -/
def httpPipelineInternalErrorPlan : ResponsePlan :=
  ⟨.k500, false, false, true⟩

/-- `struct http_ok_plan`. -/
structure HttpOkPlan where
  kind : RespKind
  keepalive : Bool
  closeAfterSend : Bool
  deriving DecidableEq, Repr

/-- `http_pipeline_ok_plan`. -/
def httpPipelineOkPlan (c : Conn L) : HttpOkPlan :=
  if c.h1.methodNotAllowed then ⟨.k405, false, true⟩
  else ⟨if c.h1.wantKeepalive then .okKa else .okClose, c.h1.wantKeepalive, false⟩

/-- `struct http_apply_plan`. -/
inductive HttpApplyPlan where
  | continue
  | error (plan : ResponsePlan)
  | internalError (plan : ResponsePlan)
  | ok (plan : HttpOkPlan)
  deriving DecidableEq, Repr

/-- `http_pipeline_build_apply_plan`. -/
def httpPipelineBuildApplyPlan (c : Conn L) (action : HttpAction) : HttpApplyPlan :=
  if c.h1.internalError then .internalError httpPipelineInternalErrorPlan
  else
    match httpPipelineErrorPlan action with
    | some plan => .error plan
    | none => if action = .continue then .continue else .ok (httpPipelineOkPlan c)

end Feed

end Lamseryn
