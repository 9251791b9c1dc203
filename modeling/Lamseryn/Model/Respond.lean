import Lamseryn.Model.Policy

/-!
# Building responses (`src/tx.c`, `src/request_handlers.c`)

`tx_build_headers`, which formats a header block with its body into one allocated buffer, and the
answers that `request_dispatch_ok` gives without looking at a file: the CORS preflight and the
responses without a body.

The `Date` line is a parameter: it comes from a cached clock.  The integration-test hooks
(`ENABLE_ITEST_ECHO`) are compiled out.
-/

namespace Lamseryn

open ByteText CText

/-- `SIZE_MAX`. -/
def sizeMax : ℕ := 2 ^ 64 - 1

/-- The arguments of `tx_build_headers` that the header block is made of. -/
structure HeaderSpec where
  statusLine : Bytes
  contentType : Option Bytes
  emitContentLength : Bool
  contentLen : ℕ
  keepalive : Bool
  extraHeaders : Bytes
  deriving DecidableEq, Repr

/-- The line `Content-Length`. -/
def contentLengthLine (n : ℕ) : Bytes :=
  headerLine (ascii "Content-Length") (numeral n)

/-- `content_lines`, unless they do not fit into their 128 bytes. -/
def HeaderSpec.contentLines (spec : HeaderSpec) : Option Bytes :=
  let lines :=
    match spec.contentType with
    | some ctype => headerLine (ascii "Content-Type") ctype ++ contentLengthLine spec.contentLen
    | none => if spec.emitContentLength then contentLengthLine spec.contentLen else []
  if 128 ≤ lines.length then none else some lines

/-- The header block around its content lines. -/
def HeaderSpec.block (spec : HeaderSpec) (date content : Bytes) : Bytes :=
  ascii "HTTP/1.1 " ++ spec.statusLine ++ ascii "\r\n" ++ date ++ content
    ++ headerLine (ascii "Connection") (ascii (if spec.keepalive then "keep-alive" else "close"))
    ++ spec.extraHeaders ++ ascii "\r\n"

/-- `tx_build_headers`: the buffer with the header block and the body, or `none` on a failure.
`mallocOk` is the answer of its allocation. -/
def txBuildHeaders (date : Bytes) (mallocOk : Bool) (spec : HeaderSpec) (body : Bytes) :
    Option Bytes :=
  match spec.contentLines with
  | none => none
  | some content =>
    let block := spec.block date content
    if sizeMax - block.length - 1 < body.length then none
    else if !mallocOk then none
    else some (block ++ body)

/-- The state in which a request reaches `request_dispatch_ok`: its message is complete, and no flag
leads to another response. -/
def Http1State.accepted (h1 : Http1State) : Bool :=
  !h1.internalError && !h1.headerTooBig && !h1.unsupportedTe && !h1.bodyTooBig && !h1.parseError
    && h1.messageDone

/-! ## CORS preflight -/

/-- The result of `request_try_cors_preflight`: 0, a negative number, or 1 with the staged buffer. -/
inductive PreflightResult where
  | notPreflight
  | failed
  | answered (buf : Bytes)
  deriving DecidableEq, Repr

/-- The response of an answered preflight. -/
def preflightSpec (extra : Bytes) : HeaderSpec :=
  { statusLine := ascii "204 No Content"
    contentType := none
    emitContentLength := true
    contentLen := 0
    keepalive := false
    extraHeaders := extra }

/-- A captured header with a non-empty value. -/
def hasHeader (h1 : Http1State) (id : HttpHeaderId) : Bool :=
  (httpHeaderFindValue h1.hdrs.reqHdrs id).any fun value => !value.isEmpty

/-- `request_try_cors_preflight` under a given effective policy. -/
def corsPreflight (cors : CorsPolicy) (date : Bytes) (mallocOk : Bool) (h1 : Http1State) :
    PreflightResult :=
  if !cors.enabled then .notPreflight
  else if !(hasHeader h1 .origin && hasHeader h1 .accessControlRequestMethod) then .notPreflight
  else
    match requestBuildCorsPreflightHeaders cors with
    | none => .failed
    | some extra =>
      match txBuildHeaders date mallocOk (preflightSpec extra) [] with
      | none => .failed
      | some buf => .answered buf

/-- `request_try_cors_preflight`. -/
def requestTryCorsPreflight (vh : Option Vhost) (date : Bytes) (mallocOk : Bool)
    (h1 : Http1State) : PreflightResult :=
  if h1.method ≠ .options then .notPreflight
  else
    match vh with
    | none => .notPreflight
    | some vh => corsPreflight (policySharedResolveEffectiveCors h1 vh) date mallocOk h1

end Lamseryn
