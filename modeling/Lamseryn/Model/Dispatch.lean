import Lamseryn.Model.Auth
import Lamseryn.Model.StaticServe
import Lamseryn.Model.WorkerLoop

/-!
# Request handling (`src/request_handlers.c`)

`request_dispatch_ok` on a whole request: the CORS preflight, authentication, the document root, and the
response without a body if none of them answers.  The header block of such a response is built by
`stage_header_response_send`, with a fixed text in its place if the allocation fails.

`HandlerEnv` is what one call meets outside the request: the clock, the libraries, the answers of its
allocations and the file system.  The integration-test hook (`ENABLE_ITEST_ECHO`) is compiled out.
-/

namespace Lamseryn

open ByteText CText FileTree

/-- The line `Date`, which is empty while there is no valid clock, is a single header line. -/
def IsDateLine (date : Bytes) : Prop :=
  date = [] ∨ ∃ value, 10 ∉ value ∧ date = headerLine (ascii "Date") value

/-- What one call of request handling meets. -/
structure HandlerEnv where
  date : Bytes := []
  date_line : IsDateLine date := by exact Or.inl rfl
  date_lt : date.length < 64 := by exact no_date_lt
  haveBrotli : Bool := false
  codec : Codec
  crypt : Bytes → Bytes → Option Bytes
  /-- The allocations in `tx_build_headers` for the preflight, the 401 and a response without a body. -/
  preflightMalloc : Bool := true
  authMalloc : Bool := true
  responseMalloc : Bool := true
  world : ServeWorld

/-- What a dispatched request leaves in `c->tx`. -/
structure Reply where
  kind : RespKind
  buf : Bytes
  keepalive : Bool
  file : Option AttachedFile := none
  deriving DecidableEq, Repr

/-- `struct request_ok_dispatch`; the plan of a header response is without keep-alive and closes the
connection. -/
inductive Dispatch where
  | txBuffer (r : Reply)
  | headerResponse (kind : RespKind)
  deriving DecidableEq, Repr

/-! ## Routes -/

/-- `struct request_route_plan`. -/
inductive RoutePlan where
  | methodNotAllowed
  | tryStatic
  | nothing
  deriving DecidableEq, Repr

/-- `request_build_route_plan`. -/
def requestBuildRoutePlan (h1 : Http1State) (vhost : Option Vhost) : RoutePlan :=
  if h1.methodNotAllowed then .methodNotAllowed
  else
    match vhost with
    | none => .nothing
    | some vh =>
      if vh.features.static ∧ vh.docroot ≠ [] ∧ 0 ≤ vh.docrootFd ∧ !h1.pathBad ∧ h1.pathNorm ≠ [] then
        .tryStatic
      else .nothing

/-- `request_static_open_error_kind`. -/
def requestStaticOpenErrorKind (err : Errno) : RespKind :=
  if err = .acces ∨ err = .perm ∨ err = .loop then .k403 else .k404

/-- `request_static_open_err_finalize`. -/
def requestStaticOpenErrFinalize (current : Option Errno) : Errno :=
  current.getD .noent

/-- `request_build_route_apply_plan`: the kind of the terminal response. -/
def requestBuildRouteApplyPlan (plan : RoutePlan) (openErr : Option Errno) : RespKind :=
  match plan with
  | .methodNotAllowed => .k405
  | .tryStatic => requestStaticOpenErrorKind (requestStaticOpenErrFinalize openErr)
  | .nothing => .k404

/-! ## Dispatch -/

/-- The static server as request handling calls it. -/
def HandlerEnv.serveCtx (e : HandlerEnv) (h1 : Http1State) (vhost : Option Vhost) (tls : Bool) :
    ServeCtx :=
  { h1 := h1
    vhost := vhost
    tls := tls
    docrootFd := (vhost.map Vhost.docrootFd).getD (-1)
    date := e.date
    date_lt := e.date_lt
    haveBrotli := e.haveBrotli
    codec := e.codec }

/-- What a response of the static server leaves in `c->tx`. -/
def Staged.reply (s : Staged) : Reply :=
  { kind := s.resp.kind, buf := s.buf, keepalive := s.resp.keepalive, file := s.file }

/-- The part of `request_dispatch_ok` behind authentication. -/
def dispatchRoute (e : HandlerEnv) (h1 : Http1State) (vhost : Option Vhost) (tls : Bool) :
    Dispatch × ServeWorld :=
  let w := { e.world with staticOpenErr := none }
  match requestBuildRoutePlan h1 vhost with
  | .tryStatic =>
    match staticServeTryPrepareDocrootResponse (e.serveCtx h1 vhost tls) w with
    | (.staged s, w) => (.txBuffer s.reply, w)
    | (.passed, w) => (.headerResponse (requestBuildRouteApplyPlan .tryStatic w.staticOpenErr), w)
  | plan => (.headerResponse (requestBuildRouteApplyPlan plan none), w)

/-- The part of `request_dispatch_ok` behind the preflight. -/
def dispatchAuthorized (e : HandlerEnv) (h1 : Http1State) (vhost : Option Vhost) (tls : Bool) :
    Dispatch × ServeWorld :=
  match requestCheckEffectiveAuth e.crypt e.date e.authMalloc h1 vhost with
  | .denied spec buf => (.txBuffer { kind := .k401, buf := buf, keepalive := spec.keepalive }, e.world)
  | .failed => (.headerResponse .k500, e.world)
  | .passed => dispatchRoute e h1 vhost tls

/-- `request_dispatch_ok`, with the file system that it leaves. -/
def requestDispatchOk (e : HandlerEnv) (h1 : Http1State) (vhost : Option Vhost) (tls : Bool) :
    Dispatch × ServeWorld :=
  match requestTryCorsPreflight vhost e.date e.preflightMalloc h1 with
  | .answered buf => (.txBuffer { kind := .okClose, buf := buf, keepalive := false }, e.world)
  | .failed => (.headerResponse .k500, e.world)
  | .notPreflight => dispatchAuthorized e h1 vhost tls

/-! ## Responses without a body -/

/-- `request_response_status_line`, with `ENABLE_OVERLOAD_503`. -/
def requestResponseStatusLine : RespKind → Option Bytes
  | .k400 => some (ascii "400 Bad Request")
  | .k403 => some (ascii "403 Forbidden")
  | .k404 => some (ascii "404 Not Found")
  | .k405 => some (ascii "405 Method Not Allowed")
  | .k408 => some (ascii "408 Request Timeout")
  | .k413 => some (ascii "413 Payload Too Large")
  | .k431 => some (ascii "431 Request Header Fields Too Large")
  | .k500 => some (ascii "500 Internal Server Error")
  | .k501 => some (ascii "501 Not Implemented")
  | .k503 => some (ascii "503 Service Unavailable")
  | _ => none

/-- The fixed texts `RESP_400` … `RESP_503`: the same three lines around each status line. -/
def fixedText (status : Bytes) : Bytes :=
  ascii "HTTP/1.1 " ++ status ++ ascii "\r\nContent-Length: 0\r\nConnection: close\r\n\r\n"

example : fixedText (ascii "500 Internal Server Error") = resp500 := by
  decide

/-- The header block of a response without a body. -/
def headerResponseSpec (plan : ResponsePlan) (status extra : Bytes) : HeaderSpec :=
  { statusLine := status
    contentType := none
    emitContentLength := true
    contentLen := 0
    keepalive := plan.keepalive
    extraHeaders := extra }

/-- The text that `stage_header_response_send` and the expiry of a request deadline send: the header
block with the policy headers, or the fixed text.  The 503 of an overloaded worker is always its fixed
text; and no plan names a kind without a status line. -/
def headerResponseText (e : HandlerEnv) (h1 : Http1State) (vhost : Option Vhost)
    (plan : ResponsePlan) : Bytes :=
  match requestResponseStatusLine plan.kind with
  | none => resp500
  | some status =>
    if plan.kind = .k503 then fixedText status
    else
      let extra := (requestBuildPolicyExtraHeaders h1 vhost plan.kind).getD []
      (txBuildHeaders e.date e.responseMalloc (headerResponseSpec plan status extra) []).getD
        (fixedText status)

/-- `request_policy_fail_closed_response_plan`: a response whose policy headers cannot be built becomes
a 500. -/
def requestPolicyFailClosedResponsePlan (h1 : Http1State) (vhost : Option Vhost)
    (plan : ResponsePlan) : ResponsePlan :=
  match requestBuildPolicyExtraHeaders h1 vhost plan.kind with
  | none => ⟨.k500, false, false, true⟩
  | some _ => plan

/-- What a dispatched request puts on the connection: the bytes, and the range of a file behind them. -/
def Dispatch.staged (e : HandlerEnv) (h1 : Http1State) (vhost : Option Vhost) :
    Dispatch → Bytes × Option AttachedFile
  | .txBuffer r => (r.buf, r.file)
  | .headerResponse kind =>
    (headerResponseText e h1 vhost
      (requestPolicyFailClosedResponsePlan h1 vhost ⟨kind, false, false, true⟩), none)

end Lamseryn
