import Lamseryn.Framework.Bytes

/-!
# Data model

The records and enumerations the request path works on: the callback-visible part of
`struct http1_state` (`include/conn.h`), the policy and virtual-host configuration
(`include/policy_types.h`, `include/route_policy_types.h`, `include/types.h`) and the capacity
constants.

Three conventions hold throughout.

* A C buffer with its length is a byte string; the capacities of fixed arrays are the constants
  below and are applied by the functions that write them.
* The 8-bit counters `cl_count`, `te_count` and `expect_count` are `UInt8`, because they wrap;
  sizes and 64-bit values are `ℕ` with the source's own overflow tests.
* The per-request arena is the list of outcomes of its future allocations (`Http1State.arena`):
  `false` is a failed allocation and an exhausted list means that every later one succeeds.

The fields of `struct http1_state` are flat in the source.  Here the header accumulator, the
framing flags and the captured headers are records of their own, so that a statement that one
of them is unchanged is one equation.
-/

namespace Lamseryn

open ByteText

/-! ## Capacities -/

/-- `REQ_TARGET_MAX`. -/
def reqTargetMax : ℕ := 2048

/-- `REQ_PATH_MAX`. -/
def reqPathMax : ℕ := 2048

/-- `REQ_HDRS_MAX`. -/
def reqHdrsMax : ℕ := 32

/-- `REQ_HDR_NAME_MAX`, also the size of `hdr_name`. -/
def reqHdrNameMax : ℕ := 32

/-- `REQ_HDR_VALUE_MAX`, the size of `hdr_val_raw`. -/
def reqHdrValueMax : ℕ := 128

/-- The size of `hdr_val`. -/
def hdrValMax : ℕ := 64

/-- `DEFAULT_MAX_BODY_BYTES`. -/
def defaultMaxBodyBytes : ℕ := 1048576

/-- `DEFAULT_MAX_HEADER_BYTES`. -/
def defaultMaxHeaderBytes : ℕ := 65536

/-- `UINT64_MAX`. -/
def uint64Max : ℕ := 2 ^ 64 - 1

/-- `UINT16_MAX`. -/
def uint16Max : ℕ := 65535

/-! ## Enumerations -/

/-- The llhttp methods the server names; every other method is `other` with its number. -/
inductive LlhttpMethod where
  | get
  | head
  | options
  | other (code : ℕ)
  deriving DecidableEq, Repr

/-- `enum http_header_id`, in declaration order. -/
inductive HttpHeaderId where
  | host
  | connection
  | acceptEncoding
  | range
  | ifRange
  | ifModifiedSince
  | ifNoneMatch
  | authorization
  | cookie
  | origin
  | accessControlRequestMethod
  | accessControlRequestHeaders
  deriving DecidableEq, Repr

/-- `hdr_state`: no field open (0), collecting a name (1), collecting a value (2). -/
inductive HdrState where
  | idle
  | name
  | value
  deriving DecidableEq, Repr

/-- `hdr_interest`: which framing field the open header is. -/
inductive HdrInterest where
  | none
  | contentLength
  | transferEncoding
  | expect
  deriving DecidableEq, Repr

/-- `enum resp_kind`. -/
inductive RespKind where
  | none
  | okClose
  | okKa
  | k206
  | k301
  | k304
  | k400
  | k401
  | k416
  | k403
  | k404
  | k405
  | k408
  | k413
  | k431
  | k500
  | k501
  | k503
  deriving DecidableEq, Repr

/-- `enum route_auth_mode`. -/
inductive RouteAuthMode where
  | inherit
  | require
  | disable
  deriving DecidableEq, Repr

/-! ## Configuration -/

/-- `struct security_header_entry`. -/
structure SecurityHeaderEntry where
  name : Bytes
  value : Bytes
  deriving DecidableEq, Repr

/-- `struct security_headers_policy`. -/
structure SecurityHeadersPolicy where
  enabled : Bool := false
  enabledSet : Bool := false
  headers : List SecurityHeaderEntry := []
  deriving DecidableEq, Repr

/-- `struct cors_policy`. -/
structure CorsPolicy where
  enabled : Bool := false
  enabledSet : Bool := false
  allowOrigin : Bytes := []
  allowOriginSet : Bool := false
  allowMethods : Bytes := []
  allowMethodsSet : Bool := false
  allowHeaders : Bytes := []
  allowHeadersSet : Bool := false
  allowCredentials : Bool := false
  allowCredentialsSet : Bool := false
  maxAgeSeconds : ℕ := 0
  maxAgeSecondsSet : Bool := false
  deriving DecidableEq, Repr

/-- `struct route_policy_rule`; an `Option` field is a value with its `_set` flag. -/
structure RoutePolicyRule where
  pathPrefix : Bytes
  authMode : RouteAuthMode := .inherit
  maxBodyBytes : Option ℕ := none
  inheritSecurityHeaders : Option Bool := none
  securityHeaders : SecurityHeadersPolicy := {}
  cors : CorsPolicy := {}
  deriving DecidableEq, Repr

/-- One `user:hash` line of a credential file. -/
structure AuthEntry where
  user : Bytes
  hash : Bytes
  deriving DecidableEq, Repr

/-- The `CFG_FEAT_*` bits. -/
structure Features where
  static : Bool := false
  range : Bool := false
  conditional : Bool := false
  compression : Bool := false
  auth : Bool := false
  cors : Bool := false
  deriving DecidableEq, Repr

/-- `struct vhost_t`, restricted to the fields the request path reads; an `Option` field is a
value with its `VF_*` presence bit, and `authStore` and the two policies are pointers that may be
`NULL`.  A custom header is a whole line with its `CRLF`. -/
structure Vhost where
  docroot : Bytes := []
  docrootFd : ℤ := -1
  features : Features := {}
  maxHeaderFields : ℕ := 0
  compDynamic : Option Bool := none
  compDynamicMaxBytes : Option ℕ := none
  compDynamicMinBytes : Option ℕ := none
  compDynamicEffort : Option ℕ := none
  indexFile : Bytes := []
  authRealm : Bytes := []
  authEnabled : Bool := false
  authStore : Option (List AuthEntry) := none
  routeRules : List RoutePolicyRule := []
  securityHeaders : Option SecurityHeadersPolicy := none
  cors : Option CorsPolicy := none
  customHeaders : List Bytes := []
  deriving DecidableEq, Repr

/-! ## HTTP/1 request state -/

/-- `struct req_hdr_entry`: a captured request header. -/
structure ReqHdrEntry where
  id : HttpHeaderId
  name : Bytes
  value : Bytes
  /-- `REQ_HDR_F_VALUE_TRUNCATED`. -/
  valueTruncated : Bool
  deriving DecidableEq, Repr

/-- The header accumulator: `hdr_state`, `hdr_interest`, `hdr_name`, `hdr_val`, `hdr_val_raw` and
its truncation flag. -/
structure HdrAccum where
  hdrState : HdrState := .idle
  hdrInterest : HdrInterest := .none
  hdrName : Bytes := []
  hdrVal : Bytes := []
  hdrValRaw : Bytes := []
  hdrValRawTruncated : Bool := false
  deriving DecidableEq, Repr

/-- The framing state: `cl_count` … `cl_value`. -/
structure Framing where
  clCount : UInt8 := 0
  teCount : UInt8 := 0
  expectCount : UInt8 := 0
  clInvalid : Bool := false
  teChunked : Bool := false
  teOther : Bool := false
  expect100Continue : Bool := false
  expectUnsupported : Bool := false
  clValue : ℕ := 0
  deriving DecidableEq, Repr

/-- The captured request headers with their masks. -/
structure ReqHdrs where
  reqHdrStoreMask : BitVec 64 := 0
  reqHdrSeenMask : BitVec 64 := 0
  reqHdrs : List ReqHdrEntry := []
  reqHdrCap : ℕ := 0
  deriving DecidableEq, Repr

/-- A header field as handed to `h1_finalize_interested_header`: the accumulated name, the raw
value and the truncation flag. -/
structure FinalizedField where
  name : Bytes
  valueRaw : Bytes
  truncated : Bool
  deriving DecidableEq, Repr

/-- The part of `struct http1_state` that the llhttp callbacks read and write.

`target` is `NULL` exactly while `targetCap` is zero; the path buffers are `NULL` exactly while
their capacity is `none`.  `finalized` is a history variable: the fields on which
`h1_finalize_interested_header` has been called for this request. -/
structure Http1State where
  method : LlhttpMethod := .other 0
  methodSet : Bool := false
  target : Bytes := []
  targetCap : ℕ := 0
  targetTooLong : Bool := false
  pathLen : ℕ := 0
  queryOff : ℕ := 0
  queryLen : ℕ := 0
  pathDec : Bytes := []
  pathDecCap : Option ℕ := none
  pathNorm : Bytes := []
  pathNormCap : Option ℕ := none
  pathBad : Bool := false
  pathEndsWithSlash : Bool := false
  methodNotAllowed : Bool := false
  headersDone : Bool := false
  messageDone : Bool := false
  parseError : Bool := false
  internalError : Bool := false
  headerTooBig : Bool := false
  headerFieldsTooMany : Bool := false
  unsupportedTe : Bool := false
  wantKeepalive : Bool := false
  bodyRemaining : ℕ := 0
  bodyBytes : ℕ := 0
  maxBodyBytes : ℕ := 0
  bodyTooBig : Bool := false
  acc : HdrAccum := {}
  hdrs : ReqHdrs := {}
  hdrFieldsCount : ℕ := 0
  hdrFieldsMax : ℕ := 0
  framing : Framing := {}
  arena : List Bool := []
  finalized : List FinalizedField := []
  deriving DecidableEq, Repr

end Lamseryn
