import Lamseryn.Framework.CText
import Lamseryn.Model.Parser

/-!
# Response policies (`include/policy_headers_shared.h`, `src/request_handlers.c`)

The CORS policy and the policy headers that a response carries: the overlay of a route rule over the
policy of its virtual host, the table of header lines merged from the configured sources, and the two
header blocks built from them, the one of an error response and the one of a CORS preflight.

A line of the table is a pointer into an array of its own or to a custom header, so a table entry is
the stored name with the text of the line.  A failed `snprintf` leaves the text cut to the buffer.
-/

namespace Lamseryn

open ByteText CText

/-! ## Effective CORS policy -/

/-- The field-wise overlay of `policy_shared_resolve_effective_cors_for_route`: what the rule sets
replaces what the virtual host has. -/
def CorsPolicy.overlay (out rule : CorsPolicy) : CorsPolicy where
  enabled := if rule.enabledSet then rule.enabled else out.enabled
  enabledSet := if rule.enabledSet then rule.enabledSet else out.enabledSet
  allowOrigin := if rule.allowOriginSet then rule.allowOrigin else out.allowOrigin
  allowOriginSet := if rule.allowOriginSet then true else out.allowOriginSet
  allowMethods := if rule.allowMethodsSet then rule.allowMethods else out.allowMethods
  allowMethodsSet := if rule.allowMethodsSet then true else out.allowMethodsSet
  allowHeaders := if rule.allowHeadersSet then rule.allowHeaders else out.allowHeaders
  allowHeadersSet := if rule.allowHeadersSet then true else out.allowHeadersSet
  allowCredentials :=
    if rule.allowCredentialsSet then rule.allowCredentials else out.allowCredentials
  allowCredentialsSet := if rule.allowCredentialsSet then true else out.allowCredentialsSet
  maxAgeSeconds := if rule.maxAgeSecondsSet then rule.maxAgeSeconds else out.maxAgeSeconds
  maxAgeSecondsSet := if rule.maxAgeSecondsSet then true else out.maxAgeSecondsSet

/-- `policy_shared_resolve_effective_cors_for_route`. -/
def policySharedResolveEffectiveCorsForRoute (vh : Vhost) (rr : Option RoutePolicyRule) :
    CorsPolicy :=
  match rr with
  | none => vh.cors.getD {}
  | some rr => (vh.cors.getD {}).overlay rr.cors

/-- `policy_shared_resolve_effective_cors`. -/
def policySharedResolveEffectiveCors (h1 : Http1State) (vh : Vhost) : CorsPolicy :=
  policySharedResolveEffectiveCorsForRoute vh
    (policySharedResolveRouteRule vh.routeRules h1.pathNorm)

/-! ## The table of header lines -/

/-- `POLICY_SHARED_HDR_MAX`. -/
def policySharedHdrMax : ℕ := 64

/-- `POLICY_SHARED_HDR_LINE_MAX`. -/
def policySharedHdrLineMax : ℕ := 384

/-- `POLICY_SHARED_HDR_NAME_MAX`. -/
def policySharedHdrNameMax : ℕ := 64

/-- A name of the table with its line. -/
structure PolicyLine where
  name : Bytes
  line : Bytes
  deriving DecidableEq, Repr

/-- `struct policy_shared_header_ctx`. -/
structure PolicySharedHeaderCtx where
  lines : List PolicyLine := []
  overflow : Bool := false
  deriving DecidableEq, Repr

/-- The text of a header line. -/
def headerLine (name value : Bytes) : Bytes :=
  name ++ ascii ": " ++ value ++ ascii "\r\n"

lemma headerLine_length (n v : Bytes) : (headerLine n v).length = n.length + v.length + 4 := by
  simp only [headerLine, List.length_append]
  have h1 : (ascii ": ").length = 2 := by decide
  have h2 : (ascii "\r\n").length = 2 := by decide
  omega

/-- `policy_shared_header_find`. -/
def policySharedHeaderFind (ctx : PolicySharedHeaderCtx) (name : Bytes) : Option ℕ :=
  if name = [] then none else ctx.lines.findIdx? fun e => strcaseEq e.name name

/-- `policy_shared_header_extract_name`. -/
def policySharedHeaderExtractName (line : Bytes) : Option Bytes :=
  let name := line.takeWhile (· ≠ 58)
  if name.length = line.length ∨ name = [] ∨ policySharedHdrNameMax ≤ name.length then none
  else some name

/-- `policy_shared_header_upsert`. -/
def policySharedHeaderUpsert (ctx : PolicySharedHeaderCtx) (name value : Bytes) :
    PolicySharedHeaderCtx :=
  if name = [] then ctx
  else
    let line := headerLine name value
    match policySharedHeaderFind ctx name with
    | some i =>
      { lines := ctx.lines.modify i fun e => { e with line := snprintfS policySharedHdrLineMax line }
        overflow := ctx.overflow || decide (policySharedHdrLineMax ≤ line.length) }
    | none =>
      if policySharedHdrMax ≤ ctx.lines.length then { ctx with overflow := true }
      else if policySharedHdrLineMax ≤ line.length then { ctx with overflow := true }
      else
        { ctx with lines := ctx.lines ++ [⟨snprintfS policySharedHdrNameMax name, line⟩] }

/-- `policy_shared_append_custom_if_unique`. -/
def policySharedAppendCustomIfUnique (ctx : PolicySharedHeaderCtx) (line : Bytes) :
    PolicySharedHeaderCtx :=
  if line = [] then ctx
  else if policySharedHdrMax ≤ ctx.lines.length then { ctx with overflow := true }
  else
    match policySharedHeaderExtractName line with
    | none => ctx
    | some name =>
      match policySharedHeaderFind ctx name with
      | some _ => ctx
      | none => { ctx with lines := ctx.lines ++ [⟨name, line⟩] }

/-! ## Collecting the configured headers -/

/-- The loop over the entries of a security policy. -/
def PolicySharedHeaderCtx.addSecurity (ctx : PolicySharedHeaderCtx)
    (headers : List SecurityHeaderEntry) : PolicySharedHeaderCtx :=
  headers.foldl
    (fun ctx h =>
      if h.name ≠ [] ∧ h.value ≠ [] then policySharedHeaderUpsert ctx h.name h.value else ctx)
    ctx

/-- The headers of an enabled CORS policy, in the order in which they are written. -/
def CorsPolicy.headers (cors : CorsPolicy) : List (Bytes × Bytes) :=
  (if cors.allowOrigin = [] then []
    else
      (ascii "Access-Control-Allow-Origin", cors.allowOrigin) ::
        if cors.allowOrigin = ascii "*" then [] else [(ascii "Vary", ascii "Origin")])
    ++ (if cors.allowMethods = [] then []
      else [(ascii "Access-Control-Allow-Methods", cors.allowMethods)])
    ++ (if cors.allowHeaders = [] then []
      else [(ascii "Access-Control-Allow-Headers", cors.allowHeaders)])
    ++ (if cors.allowCredentials then [(ascii "Access-Control-Allow-Credentials", ascii "true")]
      else [])
    ++ (if cors.maxAgeSecondsSet ∧ 0 < cors.maxAgeSeconds then
        [(ascii "Access-Control-Max-Age", numeral cors.maxAgeSeconds)]
      else [])

/-- The CORS part of `policy_shared_collect_headers`. -/
def PolicySharedHeaderCtx.addCors (ctx : PolicySharedHeaderCtx) (cors : CorsPolicy) :
    PolicySharedHeaderCtx :=
  if cors.enabled then
    cors.headers.foldl (fun ctx h => policySharedHeaderUpsert ctx h.1 h.2) ctx
  else ctx

/-- The security headers of the virtual host, unless the rule does not inherit them. -/
def collectVhostSecurity (vh : Vhost) (rr : Option RoutePolicyRule)
    (ctx : PolicySharedHeaderCtx) : PolicySharedHeaderCtx :=
  let inherit := (rr.bind RoutePolicyRule.inheritSecurityHeaders).getD true
  match vh.securityHeaders with
  | some sec => if inherit ∧ sec.enabled then ctx.addSecurity sec.headers else ctx
  | none => ctx

/-- The security headers of the rule; an explicit `security_headers = false` empties the table. -/
def collectRouteSecurity (rr : Option RoutePolicyRule) (ctx : PolicySharedHeaderCtx) :
    PolicySharedHeaderCtx :=
  match rr with
  | none => ctx
  | some rr =>
    if rr.securityHeaders.enabledSet ∧ !rr.securityHeaders.enabled then { ctx with lines := [] }
    else ctx.addSecurity rr.securityHeaders.headers

/-- `policy_shared_collect_headers` for a request whose matching rule is `rr`. -/
def collectHeadersForRoute (vh : Vhost) (rr : Option RoutePolicyRule) : PolicySharedHeaderCtx :=
  let ctx := collectRouteSecurity rr (collectVhostSecurity vh rr {})
  let ctx := ctx.addCors (policySharedResolveEffectiveCorsForRoute vh rr)
  vh.customHeaders.foldl policySharedAppendCustomIfUnique ctx

/-- `policy_shared_collect_headers`. -/
def policySharedCollectHeaders (h1 : Http1State) (vh : Vhost) : PolicySharedHeaderCtx :=
  collectHeadersForRoute vh (policySharedResolveRouteRule vh.routeRules h1.pathNorm)

/-! ## Header blocks -/

/-- `request_hdr_appendf` into a buffer of `cap` bytes, on the text that was formatted. -/
def requestHdrAppendf (cap : ℕ) (buf text : Bytes) : Option Bytes :=
  if cap ≤ buf.length then none
  else if text = [] ∨ cap - buf.length ≤ text.length then none
  else some (buf ++ text)

/-- A sequence of `request_hdr_appendf` calls, the first failure of which fails them all. -/
def requestHdrAppendAll (cap : ℕ) : Bytes → List Bytes → Option Bytes
  | buf, [] => some buf
  | buf, text :: rest =>
    match requestHdrAppendf cap buf text with
    | none => none
    | some buf => requestHdrAppendAll cap buf rest

/-- The size of the header buffers in `request_handlers.c`. -/
def policyExtraMax : ℕ := 1024

/-- `request_response_kind_supports_policy`, with `ENABLE_OVERLOAD_503`. -/
def requestResponseKindSupportsPolicy : RespKind → Bool
  | .k400 | .k403 | .k404 | .k405 | .k408 | .k413 | .k431 | .k500 | .k501 | .k503 => true
  | _ => false

/-- `request_build_policy_extra_headers`: `none` is the return value `-1`; otherwise the headers,
which are empty exactly for the return value `0`. -/
def requestBuildPolicyExtraHeaders (h1 : Http1State) (vh : Option Vhost) (kind : RespKind) :
    Option Bytes :=
  match vh with
  | none => some []
  | some vh =>
    if !requestResponseKindSupportsPolicy kind then some []
    else
      let ctx := policySharedCollectHeaders h1 vh
      if ctx.overflow then none
      else
        requestHdrAppendAll policyExtraMax []
          ((ctx.lines.map PolicyLine.line).filter fun line => line ≠ [])

/-- `request_build_cors_preflight_headers`. -/
def requestBuildCorsPreflightHeaders (cors : CorsPolicy) : Option Bytes :=
  if !cors.enabled ∨ cors.allowOrigin = [] then none
  else
    requestHdrAppendAll policyExtraMax [] (cors.headers.map fun h => headerLine h.1 h.2)

end Lamseryn
