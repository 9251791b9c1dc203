import Lamseryn.Model.Respond

/-!
# Basic authentication (`src/auth.c`)

`auth_basic_check`: the credentials of the `Authorization` header, their comparison with the entries of
the virtual host's credential file, and the 401 that is staged when they are not accepted.

`crypt_r` is a parameter, from the password and the stored hash to its result; `none` is `NULL`.
-/

namespace Lamseryn

open ByteText CText

/-! ## Base64 -/

/-- The result of `b64_char_val`. -/
inductive B64Val where
  | value (n : ℕ)
  | padding
  | invalid
  deriving DecidableEq, Repr

/-- `b64_char_val`. -/
def b64CharVal (c : UInt8) : B64Val :=
  if 65 ≤ c ∧ c ≤ 90 then .value (c.toNat - 65)
  else if 97 ≤ c ∧ c ≤ 122 then .value (c.toNat - 97 + 26)
  else if 48 ≤ c ∧ c ≤ 57 then .value (c.toNat - 48 + 52)
  else if c = 43 then .value 62
  else if c = 47 then .value 63
  else if c = 61 then .padding
  else .invalid

/-- What `auth_base64_decode` appends to `out` when it succeeds; the buffer has `cap` bytes.  A last group
may be short or padded, and nothing may follow a padded one. -/
def authBase64Decode (cap : ℕ) : Bytes → Bytes → Option Bytes
  | [], out => some out
  | [_], _ => none
  | [a, b], out =>
    match b64CharVal a, b64CharVal b with
    | .value a, .value b =>
      if cap ≤ out.length then none else some (out ++ [UInt8.ofNat (a * 4 + b / 16)])
    | _, _ => none
  | [a, b, c], out =>
    match b64CharVal a, b64CharVal b, b64CharVal c with
    | .value a, .value b, .value c =>
      if cap ≤ out.length + 1 then none
      else some (out ++ [UInt8.ofNat (a * 4 + b / 16), UInt8.ofNat (b * 16 + c / 4)])
    | _, _, _ => none
  | a :: b :: c :: d :: rest, out =>
    match b64CharVal a, b64CharVal b, b64CharVal c, b64CharVal d with
    | .value a, .value b, .padding, .padding =>
      if cap ≤ out.length ∨ rest ≠ [] then none else some (out ++ [UInt8.ofNat (a * 4 + b / 16)])
    | .value a, .value b, .value c, .padding =>
      if cap ≤ out.length + 1 ∨ rest ≠ [] then none
      else some (out ++ [UInt8.ofNat (a * 4 + b / 16), UInt8.ofNat (b * 16 + c / 4)])
    | .value a, .value b, .value c, .value d =>
      if cap ≤ out.length + 2 then none
      else
        authBase64Decode cap rest
          (out ++ [UInt8.ofNat (a * 4 + b / 16), UInt8.ofNat (b * 16 + c / 4),
            UInt8.ofNat (c * 64 + d)])
    | _, _, _, _ => none

example : authBase64Decode 95 (ascii "QWxhZGRpbjpvcGVu") [] = some (ascii "Aladdin:open") := by
  decide

example : authBase64Decode 95 (ascii "dTpw") [] = some (ascii "u:p") := by
  decide

/-! ## Credentials -/

/-- The room for decoded credentials, without the `NUL`. -/
def authDecodedMax : ℕ := 95

/-- The user and the password of a decoded token: the text on either side of the first colon. -/
def authSplit (decoded : Bytes) : Option (Bytes × Bytes) :=
  if decoded = [] ∨ 0 ∈ decoded ∨ 58 ∉ decoded then none
  else some (decoded.takeWhile (· ≠ 58), (decoded.dropWhile (· ≠ 58)).tail)

/-- The user and the password of a header value `Basic <token>`. -/
def authParseBasic (value : Bytes) : Option (Bytes × Bytes) :=
  if value.length < 6 ∨ !strncaseEq 5 value (ascii "Basic") ∨ value[5]? ≠ some 32 then none
  else
    let token := (value.drop 5).dropWhile (· == 32)
    if token = [] then none else (authBase64Decode authDecodedMax token []).bind authSplit

/-- The credentials of a request: those of its first `Authorization` header, unless that is cut. -/
def authCredentials (hdrs : List ReqHdrEntry) : Option (Bytes × Bytes) :=
  match hdrs.find? fun e => e.id == .authorization with
  | none => none
  | some e => if e.valueTruncated then none else authParseBasic e.value

/-- `auth_ct_strcmp`: the differences of the lengths and of all bytes, collected in an `unsigned`. -/
def authCtStrcmp (a b : Bytes) : ℕ :=
  (List.range (max a.length b.length)).foldl
    (fun diff i => diff ||| (a.getD i 0 ^^^ b.getD i 0).toNat) ((a.length ^^^ b.length) % 2 ^ 32)

/-- `auth_verify_password`. -/
def authVerifyPassword (crypt : Bytes → Bytes → Option Bytes) (password hash : Bytes) : Bool :=
  match crypt password hash with
  | none => false
  | some result => decide (result.head? ≠ some 42) && authCtStrcmp result hash == 0

/-- The lookup of `auth_basic_check`.  For an unknown user the password is verified against the first
entry, and refused. -/
def authAccepts (crypt : Bytes → Bytes → Option Bytes) (store : List AuthEntry)
    (hdrs : List ReqHdrEntry) : Bool :=
  match authCredentials hdrs, store with
  | some (user, pass), first :: _ =>
    let found := store.find? fun e => e.user == user
    authVerifyPassword crypt pass (found.getD first).hash && found.isSome
  | _, _ => false

/-! ## The 401 response -/

/-- `auth_build_policy_extra_headers`: `none` is the return value `-1`. -/
def authBuildPolicyExtraHeaders (h1 : Http1State) (vh : Vhost) : Option Bytes :=
  let ctx := policySharedCollectHeaders h1 vh
  if ctx.overflow then none
  else
    requestHdrAppendAll policyExtraMax []
      ((ctx.lines.map PolicyLine.line).filter fun line => line ≠ [])

/-- The line of the challenge for a realm. -/
def challengeLine (realm : Bytes) : Bytes :=
  headerLine (ascii "WWW-Authenticate") (ascii "Basic realm=\"" ++ realm ++ ascii "\"")

/-- `challenge`: a realm that does not fit is replaced. -/
def authChallenge (vh : Vhost) : Bytes :=
  let line := challengeLine (if vh.authRealm = [] then ascii "Restricted" else vh.authRealm)
  if 128 ≤ line.length then challengeLine (ascii "Restricted") else line

/-- `extra_headers`: the challenge, then the policy headers if there are any. -/
def authExtraHeaders (h1 : Http1State) (vh : Vhost) : Option Bytes :=
  match authBuildPolicyExtraHeaders h1 vh with
  | none => none
  | some policy =>
    requestHdrAppendAll 1280 [] (authChallenge vh :: if policy = [] then [] else [policy])

/-- The body of the 401. -/
def unauthorizedBody : Bytes := ascii "Unauthorized\n"

/-- The header block of the 401. -/
def unauthorizedSpec (h1 : Http1State) (extra : Bytes) : HeaderSpec :=
  { statusLine := ascii "401 Unauthorized"
    contentType := some (ascii "text/plain")
    emitContentLength := true
    contentLen := unauthorizedBody.length
    keepalive := h1.wantKeepalive
    extraHeaders := extra }

/-- The result of `auth_basic_check`: 0, -1, or 1 with the header block and the buffer that it staged. -/
inductive AuthResult where
  | passed
  | failed
  | denied (spec : HeaderSpec) (buf : Bytes)
  deriving DecidableEq, Repr

/-- The label `deny` of `auth_basic_check`. -/
def authDeny (date : Bytes) (mallocOk : Bool) (h1 : Http1State) (vh : Vhost) : AuthResult :=
  match authExtraHeaders h1 vh with
  | none => .failed
  | some extra =>
    match txBuildHeaders date mallocOk (unauthorizedSpec h1 extra) unauthorizedBody with
    | none => .failed
    | some buf => .denied (unauthorizedSpec h1 extra) buf

/-- `auth_basic_check`. -/
def authBasicCheck (crypt : Bytes → Bytes → Option Bytes) (date : Bytes) (mallocOk : Bool)
    (h1 : Http1State) (vh : Vhost) : AuthResult :=
  match vh.authStore with
  | none => .passed
  | some store =>
    if authAccepts crypt store h1.hdrs.reqHdrs then .passed else authDeny date mallocOk h1 vh

/-- `request_check_effective_auth`. -/
def requestCheckEffectiveAuth (crypt : Bytes → Bytes → Option Bytes) (date : Bytes) (mallocOk : Bool)
    (h1 : Http1State) (vh : Option Vhost) : AuthResult :=
  match vh with
  | none => .passed
  | some vh =>
    let rr := policySharedResolveRouteRule vh.routeRules h1.pathNorm
    let mode := (rr.map RoutePolicyRule.authMode).getD .inherit
    if mode = .disable then .passed
    else if mode = .require ∧ vh.authStore = none then .failed
    else if mode = .inherit ∧ !vh.authEnabled then .passed
    else authBasicCheck crypt date mallocOk h1 vh

end Lamseryn
