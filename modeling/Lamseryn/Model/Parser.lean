import Lamseryn.Model.Url

/-!
# The llhttp callbacks (`src/http_parser.c`)

The server's half of the parser: what `on_url`, `on_header_field`, `on_header_value`,
`on_headers_complete`, `on_body` and `on_message_complete` do to the request state, together with
the header table of `src/http_headers.c`, the field limit of `src/http1_limits.c` and the route
matching of `include/policy_headers_shared.h` that the body limit needs.

llhttp itself is not modelled: it appears only through the sequences of `Callback`s it makes.
-/

namespace Lamseryn

open ByteText

/-! ## Header table -/

/-- The position of a header id in its enumeration. -/
def HttpHeaderId.index : HttpHeaderId → ℕ
  | .host => 0
  | .connection => 1
  | .acceptEncoding => 2
  | .range => 3
  | .ifRange => 4
  | .ifModifiedSince => 5
  | .ifNoneMatch => 6
  | .authorization => 7
  | .cookie => 8
  | .origin => 9
  | .accessControlRequestMethod => 10
  | .accessControlRequestHeaders => 11

/-- `http_header_bit`. -/
def httpHeaderBit (id : HttpHeaderId) : BitVec 64 :=
  1#64 <<< id.index

/-- `g_specs`. -/
def gSpecs : List (Bytes × HttpHeaderId) :=
  [(ascii "host", .host),
   (ascii "connection", .connection),
   (ascii "accept-encoding", .acceptEncoding),
   (ascii "range", .range),
   (ascii "if-range", .ifRange),
   (ascii "if-modified-since", .ifModifiedSince),
   (ascii "if-none-match", .ifNoneMatch),
   (ascii "authorization", .authorization),
   (ascii "cookie", .cookie),
   (ascii "origin", .origin),
   (ascii "access-control-request-method", .accessControlRequestMethod),
   (ascii "access-control-request-headers", .accessControlRequestHeaders)]

/-- `http_header_lookup_lower`. -/
def httpHeaderLookupLower (name : Bytes) : Option HttpHeaderId :=
  if name = [] then none else (gSpecs.find? fun spec => spec.1 == name).map Prod.snd

/-- `http_headers_store_mask`. -/
def httpHeadersStoreMask (features : Features) : BitVec 64 :=
  let mask := httpHeaderBit .host ||| httpHeaderBit .connection
  let mask := if features.compression then mask ||| httpHeaderBit .acceptEncoding else mask
  let mask :=
    if features.range then mask ||| httpHeaderBit .range ||| httpHeaderBit .ifRange else mask
  let mask :=
    if features.conditional then
      mask ||| httpHeaderBit .ifModifiedSince ||| httpHeaderBit .ifNoneMatch
    else mask
  let mask :=
    if features.auth then mask ||| httpHeaderBit .authorization ||| httpHeaderBit .cookie
    else mask
  if features.cors then
    mask ||| httpHeaderBit .origin ||| httpHeaderBit .accessControlRequestMethod
      ||| httpHeaderBit .accessControlRequestHeaders
  else mask

/-- `http_header_find_value`. -/
def httpHeaderFindValue (hdrs : List ReqHdrEntry) (id : HttpHeaderId) : Option Bytes :=
  (hdrs.find? fun e => e.id == id).map ReqHdrEntry.value

/-! ## Route matching -/

/-- `policy_shared_path_prefix_matches`.  Both strings are `NUL`-free, so `strncmp` over the length
of the rule's prefix is the list test. -/
def policySharedPathPrefixMatches (path pre : Bytes) : Bool :=
  if pre = [] then false
  else if pre = [47] then path.head? == some 47
  else if !pre.isPrefixOf path then false
  else
    match path.drop pre.length with
    | [] => true
    | next :: _ => pre.getLast? == some 47 || next == 47

/-- `policy_shared_resolve_route_rule` on the vhost's rules and the request's `path_norm`. -/
def policySharedResolveRouteRule (rules : List RoutePolicyRule) (pathNorm : Bytes) :
    Option RoutePolicyRule :=
  if pathNorm = [] then none
  else rules.find? fun rr => policySharedPathPrefixMatches pathNorm rr.pathPrefix

/-! ## Arena -/

/-- `req_arena_alloc` and `req_arena_strndup`: whether the next allocation succeeds. -/
def Http1State.arenaAlloc (s : Http1State) : Bool × Http1State :=
  match s.arena with
  | [] => (true, s)
  | ok :: rest => (ok, { s with arena := rest })

/-! ## Body limit -/

/-- `h1_current_max_body_bytes`. -/
def h1CurrentMaxBodyBytes (s : Http1State) : ℕ :=
  if 0 < s.maxBodyBytes then s.maxBodyBytes else defaultMaxBodyBytes

/-- `h1_resolve_max_body_bytes`. -/
def h1ResolveMaxBodyBytes (vh : Option Vhost) (s : Http1State) : ℕ :=
  match vh with
  | none => h1CurrentMaxBodyBytes s
  | some vh =>
    match policySharedResolveRouteRule vh.routeRules s.pathNorm with
    | none => h1CurrentMaxBodyBytes s
    | some rr => rr.maxBodyBytes.getD (h1CurrentMaxBodyBytes s)

/-! ## The request target -/

/-- The doubling loop of `on_url`; twelve rounds reach `REQ_TARGET_MAX` from 64. -/
def growTargetCap : ℕ → ℕ → ℕ → ℕ
  | 0, cap, _ => cap
  | rounds + 1, cap, need => if cap < need then growTargetCap rounds (cap * 2) need else cap

/-- `on_url`. -/
def onUrl (s : Http1State) (piece : Bytes) : Http1State :=
  if piece = [] then s
  else if s.targetTooLong || s.internalError then s
  else
    let need := s.target.length + piece.length
    if reqTargetMax < need then
      { s with targetTooLong := true, parseError := true, wantKeepalive := false }
    else if s.targetCap < need then
      let grown := growTargetCap 12 (if s.targetCap = 0 then 64 else s.targetCap) need
      let newCap := max (min grown reqTargetMax) need
      match s.arenaAlloc with
      | (false, s) => { s with internalError := true, wantKeepalive := false }
      | (true, s) => { s with target := s.target ++ piece, targetCap := newCap }
    else { s with target := s.target ++ piece }

/-! ## The header accumulator -/

/-- `http_parser_reset_header_state`. -/
def httpParserResetHeaderState (s : Http1State) : Http1State :=
  { s with acc := {} }

/-- `h1_hdr_append_raw`: append what fits below `cap - 1` and report whether bytes were dropped. -/
def h1HdrAppendRaw (cap : ℕ) : Bytes → Bytes → Bytes × Bool
  | dst, [] => (dst, false)
  | dst, b :: src =>
    if dst.length + 1 < cap then h1HdrAppendRaw cap (dst ++ [b]) src
    else ((h1HdrAppendRaw cap dst src).1, true)

/-- `h1_hdr_append_lower`: append in lower case until the buffer is full. -/
def h1HdrAppendLower (cap : ℕ) : Bytes → Bytes → Bytes
  | dst, [] => dst
  | dst, b :: src =>
    if dst.length + 1 < cap then h1HdrAppendLower cap (dst ++ [lowerByte b]) src else dst

/-- A blank of optional white space. -/
def isOws (b : UInt8) : Bool :=
  b == 32 || b == 9

/-- `h1_parse_u64_ows_decimal`. -/
def h1ParseU64OwsDecimal (s : Bytes) : Option ℕ :=
  let body := s.dropWhile isOws
  let digits := body.takeWhile isDigit
  match checkedDecimalFrom uint64Max 0 digits with
  | none => none
  | some v =>
    if digits = [] then none
    else if (body.drop digits.length).dropWhile isOws ≠ [] then none
    else some v

/-- The separators of the token loops. -/
def isTokenSep (b : UInt8) : Bool :=
  b == 32 || b == 9 || b == 44

/-- `h1_expect_value_supported`. -/
def h1ExpectValueSupported (s : Bytes) : Bool :=
  let toks := tokens isTokenSep s
  !toks.isEmpty && toks.all (· == ascii "100-continue")

/-- The framing half of `h1_finalize_interested_header`: what the value of a field of the given
interest does to the counters and flags. -/
def Framing.finalize (f : Framing) : HdrInterest → Bytes → Framing
  | .none, _ => f
  | .contentLength, val =>
    let f := { f with clCount := f.clCount + 1 }
    let f := if 1 < f.clCount then { f with clInvalid := true } else f
    match h1ParseU64OwsDecimal val with
    | none => { f with clInvalid := true }
    | some v =>
      if f.clCount = 1 then { f with clValue := v }
      else if f.clValue ≠ v then { f with clInvalid := true }
      else f
  | .transferEncoding, val =>
    let toks := tokens isTokenSep val
    { f with
      teCount := f.teCount + 1
      teChunked := f.teChunked || toks.any (· == ascii "chunked")
      teOther := f.teOther || toks.any (· != ascii "chunked") }
  | .expect, val =>
    let f := { f with expectCount := f.expectCount + 1 }
    if h1ExpectValueSupported val then { f with expect100Continue := true }
    else { f with expectUnsupported := true }

/-- The field counter after one more field; it saturates. -/
def nextFieldsCount (s : Http1State) : ℕ :=
  if s.hdrFieldsCount ≠ uint16Max then s.hdrFieldsCount + 1 else s.hdrFieldsCount

/-- `http1_header_field_seen`.  The `llhttp_pause` of the limit branch has no effect the server can
see: nothing is fed to this parser again before `llhttp_init`. -/
def http1HeaderFieldSeen (s : Http1State) : Http1State :=
  if s.headerTooBig then s
  else if s.acc.hdrName = [] then s
  else if s.hdrFieldsMax ≠ 0 ∧ s.hdrFieldsMax < nextFieldsCount s then
    { s with
      hdrFieldsCount := nextFieldsCount s
      headerTooBig := true
      headerFieldsTooMany := true
      wantKeepalive := false }
  else { s with hdrFieldsCount := nextFieldsCount s }

/-- `h1_hdrs_ensure_cap`. -/
def h1HdrsEnsureCap (s : Http1State) (need : ℕ) : Bool × Http1State :=
  if need ≤ s.hdrs.reqHdrCap then (true, s)
  else
    let newCap := if s.hdrs.reqHdrCap = 0 then 8 else s.hdrs.reqHdrCap * 2
    let newCap := min (max newCap need) reqHdrsMax
    match s.arenaAlloc with
    | (false, s) => (false, s)
    | (true, s) => (true, { s with hdrs := { s.hdrs with reqHdrCap := newCap } })

/-- The guards of the capture half of `h1_finalize_interested_header`: the header that a field of
this name would be stored as, if it is wanted and not yet seen. -/
def h1WantedHeader (hdrs : ReqHdrs) (name : Bytes) : Option HttpHeaderId :=
  if name = [] ∨ hdrs.reqHdrStoreMask = 0 then none
  else
    match httpHeaderLookupLower name with
    | none => none
    | some id =>
      if hdrs.reqHdrStoreMask &&& httpHeaderBit id ≠ 0
          ∧ hdrs.reqHdrSeenMask &&& httpHeaderBit id = 0 then some id
      else none

/-- The body of the capture half: mark the header as seen and store the field if there is room. -/
def h1StoreHeader (s : Http1State) (id : HttpHeaderId) : Http1State :=
  let s :=
    { s with hdrs := { s.hdrs with reqHdrSeenMask := s.hdrs.reqHdrSeenMask ||| httpHeaderBit id } }
  if s.hdrs.reqHdrs.length < reqHdrsMax then
    match h1HdrsEnsureCap s (s.hdrs.reqHdrs.length + 1) with
    | (false, s) => { s with internalError := true, wantKeepalive := false }
    | (true, s) =>
      let (nameOk, s) := s.arenaAlloc
      let (valueOk, s) := s.arenaAlloc
      if nameOk && valueOk then
        let entry : ReqHdrEntry :=
          { id := id
            name := s.acc.hdrName.take (reqHdrNameMax - 1)
            value := s.acc.hdrValRaw.take (reqHdrValueMax - 1)
            valueTruncated := s.acc.hdrValRawTruncated }
        { s with hdrs := { s.hdrs with reqHdrs := s.hdrs.reqHdrs ++ [entry] } }
      else { s with internalError := true, wantKeepalive := false }
  else s

/-- The capture half of `h1_finalize_interested_header`. -/
def h1CaptureHeader (s : Http1State) : Http1State :=
  match h1WantedHeader s.hdrs s.acc.hdrName with
  | none => s
  | some id => h1StoreHeader s id

/-- The framing half of `h1_finalize_interested_header`.  The capture half returns from the
function exactly when an allocation failed. -/
def h1FrameHeader (s : Http1State) : Http1State :=
  if s.internalError then s
  else { s with framing := s.framing.finalize s.acc.hdrInterest s.acc.hdrVal }

/-- The body of `h1_finalize_interested_header`. -/
def h1ProcessHeader (s : Http1State) : Http1State :=
  if s.internalError then s
  else if (http1HeaderFieldSeen s).headerTooBig then http1HeaderFieldSeen s
  else h1FrameHeader (h1CaptureHeader (http1HeaderFieldSeen s))

/-- `h1_finalize_interested_header`, with the call recorded in `finalized`. -/
def h1FinalizeInterestedHeader (s : Http1State) : Http1State :=
  h1ProcessHeader
    { s with
      finalized := s.finalized ++ [⟨s.acc.hdrName, s.acc.hdrValRaw, s.acc.hdrValRawTruncated⟩] }

/-- `on_header_field`. -/
def onHeaderField (s : Http1State) (piece : Bytes) : Http1State :=
  if piece = [] then s
  else if s.headerTooBig then s
  else
    let s :=
      if s.acc.hdrState = .value then httpParserResetHeaderState (h1FinalizeInterestedHeader s)
      else s
    { s with
      acc :=
        { s.acc with
          hdrState := .name
          hdrName := h1HdrAppendLower reqHdrNameMax s.acc.hdrName piece } }

/-- Which framing field a lower-case name denotes. -/
def hdrInterestOf (name : Bytes) : HdrInterest :=
  if name = ascii "content-length" then .contentLength
  else if name = ascii "transfer-encoding" then .transferEncoding
  else if name = ascii "expect" then .expect
  else .none

/-- The first value piece of a field fixes its interest and clears the value buffers. -/
def HdrAccum.openValue (acc : HdrAccum) : HdrAccum :=
  if acc.hdrState ≠ .value then
    { acc with
      hdrInterest := hdrInterestOf acc.hdrName
      hdrState := .value
      hdrVal := []
      hdrValRaw := []
      hdrValRawTruncated := false }
  else acc

/-- Append a value piece to the raw buffer and, for a framing field, to the lower-case one. -/
def HdrAccum.appendValue (acc : HdrAccum) (piece : Bytes) : HdrAccum :=
  let (raw, cut) := h1HdrAppendRaw reqHdrValueMax acc.hdrValRaw piece
  { acc with
    hdrValRaw := raw
    hdrValRawTruncated := acc.hdrValRawTruncated || cut
    hdrVal :=
      if acc.hdrInterest ≠ .none then h1HdrAppendLower hdrValMax acc.hdrVal piece
      else acc.hdrVal }

/-- `on_header_value`. -/
def onHeaderValue (s : Http1State) (piece : Bytes) : Http1State :=
  if piece = [] then s
  else if s.headerTooBig then s
  else { s with acc := s.acc.openValue.appendValue piece }

/-! ## End of the header section -/

/-- The rejection used on every bad target: 400 without keep-alive. -/
def Http1State.rejectTarget (s : Http1State) : Http1State :=
  { s with parseError := true, wantKeepalive := false, messageDone := true }

/-- The path-buffer allocation failure: 500 without keep-alive. -/
def Http1State.failTarget (s : Http1State) : Http1State :=
  { s with internalError := true, wantKeepalive := false, messageDone := true }

/-- The lazy allocation of `path_dec`. -/
def h1AllocPathDec (s : Http1State) (cap : ℕ) : Bool × Http1State :=
  match s.pathDecCap with
  | some _ => (true, s)
  | none =>
    match s.arenaAlloc with
    | (false, s) => (false, s)
    | (true, s) => (true, { s with pathDecCap := some cap })

/-- The lazy allocation of `path_norm`. -/
def h1AllocPathNorm (s : Http1State) (cap : ℕ) : Bool × Http1State :=
  match s.pathNormCap with
  | some _ => (true, s)
  | none =>
    match s.arenaAlloc with
    | (false, s) => (false, s)
    | (true, s) => (true, { s with pathNormCap := some cap })

/-- Both path buffers, of capacity `cap`. -/
def h1AllocPathBuffers (s : Http1State) (cap : ℕ) : Bool × Http1State :=
  match h1AllocPathDec s cap with
  | (false, s) => (false, s)
  | (true, s) => h1AllocPathNorm s cap

/-- Decode and normalise the first `pathLen` bytes of the target into the path buffers. -/
def h1NormalizePath (s : Http1State) (pathLen : ℕ) : Http1State × Bool :=
  match urlPercentDecodeStrict (s.target.take pathLen) (s.pathDecCap.getD 0) true with
  | .error _ => (s.rejectTarget, false)
  | .ok dec =>
    match urlPathNormalizeAbsolute dec (s.pathNormCap.getD 0) with
    | .error _ => ({ s with pathDec := dec }.rejectTarget, false)
    | .ok (norm, slash) =>
      ({ s with pathDec := dec, pathNorm := norm, pathEndsWithSlash := slash }, true)

/-- The target half of `on_headers_complete`: split, decode and normalise the path.  The flag says
whether the callback goes on to the body limit. -/
def h1CompleteTarget (s : Http1State) : Http1State × Bool :=
  if s.target = [] ∨ s.targetTooLong then (s.rejectTarget, false)
  else
    let (pathLen, queryOff, queryLen) := urlSplitPathQuery s.target
    if pathLen = 0 ∨ s.target.head? ≠ some 47 then (s.rejectTarget, false)
    else
      let s := { s with pathLen := pathLen, queryOff := queryOff, queryLen := queryLen }
      if reqPathMax < pathLen then (s.rejectTarget, false)
      else
        match h1AllocPathBuffers s (max pathLen 1) with
        | (false, s) => (s.failTarget, false)
        | (true, s) => h1NormalizePath s pathLen

/-- The body-limit half of `on_headers_complete`. -/
def h1CompleteBody (vh : Option Vhost) (s : Http1State) : Http1State :=
  let s := { s with maxBodyBytes := h1ResolveMaxBodyBytes vh s }
  if s.framing.clCount = 1 then
    if s.maxBodyBytes < s.framing.clValue then { s with bodyTooBig := true, wantKeepalive := false }
    else
      { s with bodyRemaining := s.framing.clValue, messageDone := s.framing.clValue == 0 }
  else if s.framing.teCount = 0 then { s with bodyRemaining := 0, messageDone := true }
  else s

/-- The rejection of a bad framing: 400 without keep-alive. -/
def Http1State.rejectFraming (s : Http1State) : Http1State :=
  { s with parseError := true, wantKeepalive := false }

/-- The path state that `on_headers_complete` starts from. -/
def Http1State.clearPath (s : Http1State) : Http1State :=
  { s with
    pathBad := false
    methodNotAllowed := false
    pathLen := 0
    queryOff := s.target.length
    queryLen := 0
    pathDec := []
    pathNorm := []
    pathEndsWithSlash := false }

/-- The part of `on_headers_complete` after the framing checks. -/
def h1CompleteRequest (vh : Option Vhost) (s : Http1State) : Http1State :=
  let s := s.clearPath
  if s.method ≠ .get ∧ s.method ≠ .head then
    { s with
      methodNotAllowed := true
      wantKeepalive := false
      messageDone := true
      bodyRemaining := 0 }
  else if s.internalError then { s with wantKeepalive := false, messageDone := true }
  else
    match h1CompleteTarget s with
    | (s, false) => s
    | (s, true) => h1CompleteBody vh s

/-- The framing half of `on_headers_complete`. -/
def h1CompleteFraming (vh : Option Vhost) (s : Http1State) : Http1State :=
  let f := s.framing
  if f.clInvalid ∨ 1 < f.clCount then s.rejectFraming
  else if f.expectUnsupported then s.rejectFraming
  else if 0 < f.teCount ∧ 0 < f.clCount then s.rejectFraming
  else if 0 < f.teCount ∧ ¬ (f.teChunked ∧ !f.teOther) then
    { s with unsupportedTe := true, wantKeepalive := false }
  else h1CompleteRequest vh s

/-- The start of `on_headers_complete`: what it takes from llhttp. -/
def Http1State.enterComplete (s : Http1State) (method : LlhttpMethod) (keepAlive : Bool) :
    Http1State :=
  { s with headersDone := true, wantKeepalive := keepAlive, method := method, methodSet := true }

/-- The body state that `on_headers_complete` starts from. -/
def Http1State.clearBody (s : Http1State) : Http1State :=
  { s with
    unsupportedTe := false
    bodyRemaining := 0
    bodyBytes := 0
    maxBodyBytes := h1CurrentMaxBodyBytes s
    bodyTooBig := false
    messageDone := false }

/-- `on_headers_complete`; the method and `llhttp_should_keep_alive` come from llhttp. -/
def onHeadersComplete (vh : Option Vhost) (s : Http1State) (method : LlhttpMethod)
    (keepAlive : Bool) : Http1State :=
  let s := s.enterComplete method keepAlive
  let s := if s.acc.hdrState = .value then h1FinalizeInterestedHeader s else s
  h1CompleteFraming vh s.clearBody

/-! ## Body and end of message -/

/-- `on_body`; the flag is the callback's non-zero return, on which llhttp stops. -/
def onBody (s : Http1State) (piece : Bytes) : Http1State × Bool :=
  if piece = [] then (s, false)
  else if uint64Max - piece.length < s.bodyBytes then
    ({ s with bodyTooBig := true, wantKeepalive := false }, true)
  else
    let s := { s with bodyBytes := s.bodyBytes + piece.length }
    if h1CurrentMaxBodyBytes s < s.bodyBytes then
      ({ s with bodyTooBig := true, wantKeepalive := false }, true)
    else (s, false)

/-- `on_message_complete`; its `HPE_PAUSED` return is part of llhttp's answer. -/
def onMessageComplete (s : Http1State) : Http1State :=
  { s with messageDone := true }

/-! ## Callback sequences -/

/-- A callback made by llhttp, with the data it passes. -/
inductive Callback where
  | messageBegin
  | url (piece : Bytes)
  | headerField (piece : Bytes)
  | headerValue (piece : Bytes)
  | headersComplete (method : LlhttpMethod) (keepAlive : Bool)
  | body (piece : Bytes)
  | messageComplete
  deriving DecidableEq, Repr

/-- The settings table: which function answers which callback, and whether it stops llhttp. -/
def Callback.run (vh : Option Vhost) (s : Http1State) : Callback → Http1State × Bool
  | .messageBegin => (s, false)
  | .url piece => (onUrl s piece, false)
  | .headerField piece => (onHeaderField s piece, false)
  | .headerValue piece => (onHeaderValue s piece, false)
  | .headersComplete method keepAlive => (onHeadersComplete vh s method keepAlive, false)
  | .body piece => onBody s piece
  | .messageComplete => (onMessageComplete s, false)

/-- A sequence of callbacks; llhttp makes no further callback once one has stopped it. -/
def runCallbacks (vh : Option Vhost) : Http1State → List Callback → Http1State × Bool
  | s, [] => (s, false)
  | s, cb :: cbs =>
    match cb.run vh s with
    | (s, true) => (s, true)
    | (s, false) => runCallbacks vh s cbs

lemma runCallbacks_append {vh : Option Vhost} {s s' : Http1State} {xs : List Callback}
    (h : runCallbacks vh s xs = (s', false)) (ys : List Callback) :
    runCallbacks vh s (xs ++ ys) = runCallbacks vh s' ys := by
  induction xs generalizing s with
  | nil =>
    simp only [runCallbacks, Prod.mk.injEq, and_true] at h
    rw [List.nil_append, h]
  | cons cb xs ih =>
    rw [List.cons_append, runCallbacks]
    rw [runCallbacks] at h
    rcases hcb : cb.run vh s with ⟨s1, _ | _⟩
    · rw [hcb] at h
      exact ih h
    · rw [hcb] at h
      simp at h

end Lamseryn
