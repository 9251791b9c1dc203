import Lamseryn.Framework.Precedence
import Lamseryn.Model.Policy

/-!
# Loading the configuration (`src/config_ini.c`)

`config_load_ini`: the handler `on_kv` that inih calls for every key of the file, the checks and the
route resolution after parsing, and the commit of the candidate configuration.

inih is represented by what it hands over: the entries of the file in order, each with its line, and
the lines it could not read.  What the loader asks of the system is a parameter (`LoadEnv`): whether
the allocations succeed, the resolution of bind addresses, the opened document roots and the credential
files.

`pctx->routes` and `pctx->route_rules` are parallel arrays and appear as one list of `RouteCfg`.  The
pointers `vh->route_rules[j]` are indices into `cfg->route_rules`.  Fields of `struct vhost_t` and
`struct globals_cfg` that neither the loader nor the request path reads are left out; the keys that
set them are accepted without effect.
-/

namespace Lamseryn

open ByteText CText

/-! ## Parsed values -/

/-- `parse_bool`. -/
def parseBool (s : Bytes) : Option Bool :=
  if strcaseEq s (ascii "true") || s == ascii "1" || strcaseEq s (ascii "yes")
      || strcaseEq s (ascii "on") then some true
  else if strcaseEq s (ascii "false") || s == ascii "0" || strcaseEq s (ascii "no")
      || strcaseEq s (ascii "off") then some false
  else none

/-- `parse_u16`. -/
def parseU16 (s : Bytes) : Option ℕ :=
  match strtol s with
  | none => none
  | some v => if v < 0 ∨ 65535 < v then none else some v.toNat

/-- `parse_u32`. -/
def parseU32 (s : Bytes) : Option ℕ :=
  match strtoul s with
  | none => none
  | some v => if 0xffffffff < v then none else some v

/-- `parse_u32_strict`: digits only, and no overflow. -/
def parseU32Strict (s : Bytes) : Option ℕ :=
  if s = [] ∨ !s.all isDigit then none
  else if 0xffffffff < decimal s then none
  else some (decimal s)

/-- `parse_u64_positive`. -/
def parseU64Positive (s : Bytes) : Option ℕ :=
  if s = [] ∨ !s.all isDigit then none
  else if uint64Max < decimal s ∨ decimal s = 0 then none
  else some (decimal s)

/-- `parse_route_auth_mode`. -/
def parseRouteAuthMode (s : Bytes) : Option RouteAuthMode :=
  if strcaseEq s (ascii "inherit") then some .inherit
  else if strcaseEq s (ascii "require") then some .require
  else if strcaseEq s (ascii "disable") then some .disable
  else none

/-- A byte of a header name: `http_header_name_char_is_valid`. -/
def httpHeaderNameCharIsValid (ch : UInt8) : Bool :=
  !(ch ≤ 32 || ch == 127 || (ascii "()<>@,;\\\"/[]?=\x7b\x7d").contains ch)

/-- A blank of `parse_header_name_value`. -/
def isBlank (b : UInt8) : Bool :=
  b == 32 || b == 9

/-- A string without its leading and trailing blanks. -/
def trimBlanks (s : Bytes) : Bytes :=
  ((s.dropWhile isBlank).reverse.dropWhile isBlank).reverse

/-- Does a value hold a `CR` or `LF`? -/
def hasLineBreak (s : Bytes) : Bool :=
  s.any fun b => b == 13 || b == 10

/-- `parse_header_name_value`, with the sizes of the two buffers. -/
def parseHeaderNameValue (nameCap valueCap : ℕ) (line : Bytes) : Option SecurityHeaderEntry :=
  let before := line.takeWhile (· ≠ 58)
  let name := trimBlanks before
  let value := trimBlanks (line.drop (before.length + 1))
  if hasLineBreak line then none
  else if before.length = line.length then none
  else if name = [] ∨ nameCap ≤ name.length then none
  else if !name.all httpHeaderNameCharIsValid then none
  else if valueCap ≤ value.length then none
  else some { name := name, value := value }

/-! ## Keys of the policy records -/

/-- The outcome of a key: the handler returns 1, returns 0, or returns 0 with a fatal reason. -/
inductive KvResult (α : Type) where
  | accepted (a : α)
  | refused
  | fatal (reason : Bytes)
  deriving DecidableEq, Repr

/-- The string fields of `struct cors_policy`. -/
inductive CorsText where
  | allowOrigin
  | allowMethods
  | allowHeaders
  deriving DecidableEq, Repr

/-- The keys that set a CORS policy. -/
inductive CorsKey where
  | enabled
  | text (field : CorsText)
  | allowCredentials
  | maxAgeSeconds
  deriving DecidableEq, Repr

/-- The size of a string field. -/
def CorsText.size : CorsText → ℕ
  | .allowOrigin => 256
  | .allowMethods => 128
  | .allowHeaders => 256

/-- Store a string field. -/
def CorsPolicy.setText (cors : CorsPolicy) : CorsText → Bytes → CorsPolicy
  | .allowOrigin, v => { cors with allowOrigin := v, allowOriginSet := true }
  | .allowMethods, v => { cors with allowMethods := v, allowMethodsSet := true }
  | .allowHeaders, v => { cors with allowHeaders := v, allowHeadersSet := true }

/-- A CORS key of a route or a virtual host; `none` if the value is ignored with a warning. -/
def CorsPolicy.setKey (cors : CorsPolicy) : CorsKey → Bytes → Option CorsPolicy
  | .enabled, value =>
    (parseBool value).map fun b => { cors with enabled := b, enabledSet := true }
  | .text field, value =>
    if value = [] ∨ field.size ≤ value.length then none else some (cors.setText field value)
  | .allowCredentials, value =>
    (parseBool value).map fun b => { cors with allowCredentials := b, allowCredentialsSet := true }
  | .maxAgeSeconds, value =>
    (parseU32 value).map fun v => { cors with maxAgeSeconds := v, maxAgeSecondsSet := true }

/-- The keys that set a security policy. -/
inductive SecurityKey where
  | enabled
  | headerSet
  deriving DecidableEq, Repr

/-- The number of entries of `struct security_headers_policy`. -/
def securityHeadersMax : ℕ := 16

/-- A security key of a route or a virtual host; `none` if the value is ignored with a warning. -/
def SecurityHeadersPolicy.setKey (sec : SecurityHeadersPolicy) :
    SecurityKey → Bytes → Option SecurityHeadersPolicy
  | .enabled, value =>
    (parseBool value).map fun b => { sec with enabled := b, enabledSet := true }
  | .headerSet, value =>
    if value = [] ∨ securityHeadersMax ≤ sec.headers.length then none
    else
      (parseHeaderNameValue 64 256 value).map fun entry =>
        { sec with headers := sec.headers ++ [entry], enabled := true }

/-! ## Route sections -/

/-- `struct route_cfg_entry` with its `struct route_policy_rule`. -/
structure RouteCfg where
  name : Bytes
  vhostName : Bytes := []
  declOrdinal : ℕ
  rule : RoutePolicyRule := { pathPrefix := [] }
  deriving DecidableEq, Repr

/-- The keys of a route section. -/
inductive RouteKey where
  | vhost
  | pathPrefix
  | auth
  | maxBodyBytes
  | inheritSecurityHeaders
  | security (key : SecurityKey)
  | cors (key : CorsKey)
  deriving DecidableEq, Repr

/-- The key names of a route section, in the order in which `on_kv` compares them. -/
def routeKeys : List (Bytes × RouteKey) :=
  [(ascii "vhost", .vhost),
   (ascii "path_prefix", .pathPrefix),
   (ascii "auth", .auth),
   (ascii "max_body_bytes", .maxBodyBytes),
   (ascii "inherit_security_headers", .inheritSecurityHeaders),
   (ascii "security_headers", .security .enabled),
   (ascii "security_header_set", .security .headerSet),
   (ascii "cors", .cors .enabled),
   (ascii "cors_allow_origin", .cors (.text .allowOrigin)),
   (ascii "cors_allow_methods", .cors (.text .allowMethods)),
   (ascii "cors_allow_headers", .cors (.text .allowHeaders)),
   (ascii "cors_allow_credentials", .cors .allowCredentials),
   (ascii "cors_max_age_seconds", .cors .maxAgeSeconds)]

/-- The first key whose name is `name` up to case. -/
def keyOf {κ : Type} (keys : List (Bytes × κ)) (name : Bytes) : Option κ :=
  (keys.find? fun k => strcaseEq name k.1).map Prod.snd

/-- `ROUTE_PATH_PREFIX_MAX`. -/
def routePathPrefixMax : ℕ := 256

/-- The size of `vhost_name`, `name` and the other names of sections. -/
def sectionNameMax : ℕ := 64

/-- One key of a route section.  Values that are ignored with a warning leave the route as it is. -/
def RouteCfg.setKey (re : RouteCfg) : RouteKey → Bytes → KvResult RouteCfg
  | .vhost, value =>
    if value = [] ∨ sectionNameMax ≤ value.length then .accepted re
    else .accepted { re with vhostName := value }
  | .pathPrefix, value =>
    if value = [] ∨ routePathPrefixMax ≤ value.length ∨ value.head? ≠ some 47 then .accepted re
    else .accepted { re with rule := { re.rule with pathPrefix := value } }
  | .auth, value =>
    match parseRouteAuthMode value with
    | none =>
      .fatal (ascii "invalid route auth mode '" ++ value
        ++ ascii "': expected inherit, require, or disable")
    | some mode => .accepted { re with rule := { re.rule with authMode := mode } }
  | .maxBodyBytes, value =>
    match parseU64Positive value with
    | none =>
      .fatal (ascii "invalid route max_body_bytes '" ++ value ++ ascii "': expected positive u64")
    | some v => .accepted { re with rule := { re.rule with maxBodyBytes := some v } }
  | .inheritSecurityHeaders, value =>
    match parseBool value with
    | none => .accepted re
    | some b => .accepted { re with rule := { re.rule with inheritSecurityHeaders := some b } }
  | .security key, value =>
    match re.rule.securityHeaders.setKey key value with
    | none => .accepted re
    | some sec => .accepted { re with rule := { re.rule with securityHeaders := sec } }
  | .cors key, value =>
    match re.rule.cors.setKey key value with
    | none => .accepted re
    | some cors => .accepted { re with rule := { re.rule with cors := cors } }

/-! ## Virtual host sections -/

/-- The TLS settings that are handed to the TLS library, of a virtual host or as global defaults; a
string that is not set is empty. -/
structure TlsPolicy where
  minVersion : Bytes := []
  ciphers : Bytes := []
  ciphersuites : Bytes := []
  sessionTickets : Option Bool := none
  sessionCache : Option Bool := none
  deriving DecidableEq, Repr

/-- The keys that set a TLS policy. -/
inductive TlsKey where
  | minVersion
  | ciphers
  | ciphersuites
  | sessionTickets
  | sessionCache
  deriving DecidableEq, Repr

/-- The names of these keys. -/
def tlsPolicyKeys : List (Bytes × TlsKey) :=
  [(ascii "tls_min_version", .minVersion),
   (ascii "tls_ciphers", .ciphers),
   (ascii "tls_ciphersuites", .ciphersuites),
   (ascii "tls_session_tickets", .sessionTickets),
   (ascii "tls_session_cache", .sessionCache)]

/-- A TLS key of a virtual host or of the globals; a value that is no boolean is ignored. -/
def TlsPolicy.setKey (tls : TlsPolicy) : TlsKey → Bytes → TlsPolicy
  | .minVersion, value => { tls with minVersion := snprintfS 16 value }
  | .ciphers, value => { tls with ciphers := snprintfS 256 value }
  | .ciphersuites, value => { tls with ciphersuites := snprintfS 256 value }
  | .sessionTickets, value =>
    { tls with sessionTickets := (parseBool value).map some |>.getD tls.sessionTickets }
  | .sessionCache, value =>
    { tls with sessionCache := (parseBool value).map some |>.getD tls.sessionCache }

/-- `struct vhost_t`: what the request path reads, with what only the loader reads. -/
structure VhostCfg extends Vhost where
  name : Bytes
  bind : Bytes := []
  port : ℕ := 0
  tlsEnabled : Option Bool := none
  tlsCertFile : Bytes := []
  tlsKeyFile : Bytes := []
  tlsPolicy : TlsPolicy := {}
  authBasicFile : Bytes := []
  deriving DecidableEq, Repr

/-- The feature bits that a key switches. -/
inductive FeatureKey where
  | static
  | compression
  | range
  | conditional
  deriving DecidableEq, Repr

/-- Switch a feature bit. -/
def Features.set (f : Features) (b : Bool) : FeatureKey → Features
  | .static => { f with static := b }
  | .compression => { f with compression := b }
  | .range => { f with range := b }
  | .conditional => { f with conditional := b }

/-- The keys of a virtual host section. -/
inductive VhostKey where
  | bind
  | port
  | docroot
  | maxHeaderFields
  | tls
  | tlsCertFile
  | tlsKeyFile
  | tlsPolicy (key : TlsKey)
  | feature (key : FeatureKey)
  | auth
  | compDynamic
  | compDynamicMaxBytes
  | compDynamicMinBytes
  | compDynamicEffort
  | index
  | authBasicFile
  | authRealm
  | security (key : SecurityKey)
  | cors (key : CorsKey)
  | headerSet
  deriving DecidableEq, Repr

/-- The key names of a virtual host section, in the order in which `on_kv` compares them. -/
def vhostKeys : List (Bytes × VhostKey) :=
  [(ascii "bind", .bind),
   (ascii "port", .port),
   (ascii "docroot", .docroot),
   (ascii "max_header_fields", .maxHeaderFields),
   (ascii "tls", .tls),
   (ascii "tls_cert_file", .tlsCertFile),
   (ascii "tls_key_file", .tlsKeyFile),
   (ascii "tls_min_version", .tlsPolicy .minVersion),
   (ascii "tls_ciphers", .tlsPolicy .ciphers),
   (ascii "tls_ciphersuites", .tlsPolicy .ciphersuites),
   (ascii "tls_session_tickets", .tlsPolicy .sessionTickets),
   (ascii "tls_session_cache", .tlsPolicy .sessionCache),
   (ascii "static", .feature .static),
   (ascii "compression", .feature .compression),
   (ascii "range", .feature .range),
   (ascii "conditional", .feature .conditional),
   (ascii "auth", .auth),
   (ascii "compression_dynamic", .compDynamic),
   (ascii "compression_dynamic_max_bytes", .compDynamicMaxBytes),
   (ascii "compression_dynamic_min_bytes", .compDynamicMinBytes),
   (ascii "compression_dynamic_effort", .compDynamicEffort),
   (ascii "index", .index),
   (ascii "auth_basic_file", .authBasicFile),
   (ascii "auth_realm", .authRealm),
   (ascii "security_headers", .security .enabled),
   (ascii "security_header_set", .security .headerSet),
   (ascii "cors", .cors .enabled),
   (ascii "cors_allow_origin", .cors (.text .allowOrigin)),
   (ascii "cors_allow_methods", .cors (.text .allowMethods)),
   (ascii "cors_allow_headers", .cors (.text .allowHeaders)),
   (ascii "cors_allow_credentials", .cors .allowCredentials),
   (ascii "cors_max_age_seconds", .cors .maxAgeSeconds),
   (ascii "header_set", .headerSet)]

/-- The number of custom headers of a virtual host. -/
def customHeadersMax : ℕ := 16

/-- The tests of `header_set` before it allocates: a name and a colon, no line break, token bytes in
the name, a free place, and the two length limits. -/
def headerSetAccepts (vh : Vhost) (value : Bytes) : Bool :=
  let name := value.takeWhile (· ≠ 58)
  value ≠ [] && name.length ≠ value.length && name ≠ [] && !hasLineBreak value
    && name.all httpHeaderNameCharIsValid
    && vh.customHeaders.length < customHeadersMax
    && value.length ≤ 1024
    && value.length + 2 + (vh.customHeaders.map List.length).sum ≤ 1536

/-- Does a key of a virtual host section allocate? -/
def VhostCfg.needsAlloc (vh : VhostCfg) : VhostKey → Bytes → Bool
  | .security _, _ => vh.securityHeaders.isNone
  | .cors _, _ => vh.cors.isNone
  | .headerSet, value => headerSetAccepts vh.toVhost value
  | _, _ => false

/-- The tests of the key `index`: a plain file name that fits. -/
def indexAccepts (value : Bytes) : Bool :=
  value ≠ [] && !value.contains 47 && value ≠ ascii "." && value ≠ ascii ".."
    && value.length < 64

/-- The tests of the key `auth_realm`: it appears between quotes in a header. -/
def authRealmAccepts (value : Bytes) : Bool :=
  value ≠ [] && value.length < 64 && value.all fun ch => !(ch < 0x20 || ch == 34 || ch == 92)

/-- The key `compression_dynamic_effort`: a number from 1 to 9. -/
def VhostCfg.setCompEffort (vh : VhostCfg) (value : Bytes) : VhostCfg :=
  match parseU32 value with
  | none => vh
  | some v => if v < 1 ∨ 9 < v then vh else { vh with compDynamicEffort := some v }

/-- A security key of a virtual host, once its policy is allocated.  The record stays allocated also
when the value is ignored. -/
def VhostCfg.setSecurity (vh : VhostCfg) (key : SecurityKey) (value : Bytes) : VhostCfg :=
  let sec := vh.securityHeaders.getD {}
  { vh with securityHeaders := some ((sec.setKey key value).getD sec) }

/-- A CORS key of a virtual host, once its policy is allocated.  A value that is taken also switches
the feature bit. -/
def VhostCfg.setCors (vh : VhostCfg) (key : CorsKey) (value : Bytes) : VhostCfg :=
  let cors := vh.cors.getD {}
  match cors.setKey key value with
  | none => { vh with cors := some cors }
  | some cors => { vh with cors := some cors, features := { vh.features with cors := true } }

/-- One key of a virtual host section; `ok` is the answer of the allocation if the key makes one. -/
def VhostCfg.setKey (vh : VhostCfg) (ok : Bool) : VhostKey → Bytes → KvResult VhostCfg
  | .bind, value => .accepted { vh with bind := snprintfS 64 value }
  | .port, value =>
    match parseU16 value with
    | none => .refused
    | some v => .accepted { vh with port := v }
  | .docroot, value => .accepted { vh with docroot := snprintfS pathMax value }
  | .maxHeaderFields, value =>
    match parseU16 value with
    | none => .refused
    | some v => .accepted { vh with maxHeaderFields := v }
  | .tls, value =>
    .accepted { vh with tlsEnabled := (parseBool value).map some |>.getD vh.tlsEnabled }
  | .tlsCertFile, value => .accepted { vh with tlsCertFile := snprintfS pathMax value }
  | .tlsKeyFile, value => .accepted { vh with tlsKeyFile := snprintfS pathMax value }
  | .tlsPolicy key, value => .accepted { vh with tlsPolicy := vh.tlsPolicy.setKey key value }
  | .feature key, value =>
    match parseBool value with
    | none => .accepted vh
    | some b => .accepted { vh with features := vh.features.set b key }
  | .auth, value =>
    match parseBool value with
    | none => .accepted vh
    | some b => .accepted { vh with authEnabled := b, features := { vh.features with auth := b } }
  | .compDynamic, value =>
    .accepted { vh with compDynamic := (parseBool value).map some |>.getD vh.compDynamic }
  | .compDynamicMaxBytes, value =>
    .accepted
      { vh with compDynamicMaxBytes := (parseU32 value).map some |>.getD vh.compDynamicMaxBytes }
  | .compDynamicMinBytes, value =>
    .accepted
      { vh with compDynamicMinBytes := (parseU32 value).map some |>.getD vh.compDynamicMinBytes }
  | .compDynamicEffort, value => .accepted (vh.setCompEffort value)
  | .index, value => .accepted (if indexAccepts value then { vh with indexFile := value } else vh)
  | .authBasicFile, value =>
    .accepted
      (if value ≠ [] ∧ value.length < pathMax then { vh with authBasicFile := value } else vh)
  | .authRealm, value =>
    .accepted (if authRealmAccepts value then { vh with authRealm := value } else vh)
  | .security key, value =>
    if ok then .accepted (vh.setSecurity key value)
    else .fatal (ascii "out of memory while allocating vhost security policy")
  | .cors key, value =>
    if ok then .accepted (vh.setCors key value)
    else .fatal (ascii "out of memory while allocating vhost cors policy")
  | .headerSet, value =>
    .accepted
      (if headerSetAccepts vh.toVhost value && ok then
        { vh with customHeaders := vh.customHeaders ++ [value ++ ascii "\r\n"] }
      else vh)

/-! ## Global keys -/

/-- `struct globals_cfg`, restricted to the defaults of the virtual hosts and of their connections, the
workers, the accept backoff and the access log. -/
structure GlobalsCfg where
  workers : Option ℕ := none
  acceptBackoffMs : Option ℕ := none
  defaultMaxHeaderFields : Option ℕ := none
  defaultMaxBodyBytes : Option ℕ := none
  maxHeaderBytes : Option ℕ := none
  tlsEnabled : Option Bool := none
  tlsCertFile : Option Bytes := none
  tlsKeyFile : Option Bytes := none
  tlsPolicy : TlsPolicy := {}
  accessLogEnabled : Option Bool := none
  accessLogPath : Option Bytes := none
  accessLogFormat : Option Bytes := none
  accessLogSample : Option ℕ := none
  accessLogMinStatus : Option ℕ := none
  deriving DecidableEq, Repr

/-- `INT_MAX`. -/
def intMax : ℕ := 2147483647

/-- The global keys that reject a bad value. -/
inductive CheckedKey where
  | ioUringSqpollCpu
  | tcpDeferAcceptSec
  | workers
  | listenBacklog
  | shutdownGraceMs
  | defaultMaxBodyBytes
  | maxHeaderBytes
  | accessLogSample
  | accessLogMinStatus
  deriving DecidableEq, Repr

/-- The values that a checked key takes, and how the error describes them. -/
def CheckedKey.check : CheckedKey → (Bytes → Bool) × Bytes
  | .ioUringSqpollCpu => (fun s => (parseU32Strict s).any (· ≤ intMax), ascii "0..INT_MAX")
  | .tcpDeferAcceptSec => (fun s => (parseU32Strict s).any (· ≤ 3600), ascii "0..3600")
  | .workers => (fun s => (parseU32 s).any (0 < ·), ascii "u32 > 0")
  | .listenBacklog =>
    (fun s => (parseU32Strict s).any fun v => 0 < v && v ≤ intMax, ascii "1..INT_MAX")
  | .shutdownGraceMs => (fun s => (parseU32 s).any (0 < ·), ascii "u32 > 0")
  | .defaultMaxBodyBytes => (fun s => (parseU64Positive s).isSome, ascii "positive u64")
  | .maxHeaderBytes => (fun s => (parseU32Strict s).any (0 < ·), ascii "u32 > 0")
  | .accessLogSample => (fun s => (parseU32 s).any (0 < ·), ascii "u32 > 0")
  | .accessLogMinStatus =>
    (fun s => (parseU32 s).any fun v => 100 ≤ v && v ≤ 599, ascii "100..599")

/-- The global keys that are checked or that the modelled code reads. -/
inductive GlobalKey where
  | checked (key : CheckedKey)
  | defaultMaxHeaderFields
  | tls
  | tlsCertFile
  | tlsKeyFile
  | tlsPolicy (key : TlsKey)
  | accessLogEnabled
  | accessLogPath
  | accessLogFormat
  | acceptBackoffMs
  deriving DecidableEq, Repr

/-- The names of these keys. -/
def globalKeys : List (Bytes × GlobalKey) :=
  [(ascii "io_uring_sqpoll_cpu", .checked .ioUringSqpollCpu),
   (ascii "tcp_defer_accept_sec", .checked .tcpDeferAcceptSec),
   (ascii "workers", .checked .workers),
   (ascii "listen_backlog", .checked .listenBacklog),
   (ascii "accept_backoff_ms", .acceptBackoffMs),
   (ascii "shutdown_grace_ms", .checked .shutdownGraceMs),
   (ascii "default_max_header_fields", .defaultMaxHeaderFields),
   (ascii "default_max_body_bytes", .checked .defaultMaxBodyBytes),
   (ascii "max_header_bytes", .checked .maxHeaderBytes),
   (ascii "access_log_enabled", .accessLogEnabled),
   (ascii "access_log_path", .accessLogPath),
   (ascii "access_log_format", .accessLogFormat),
   (ascii "access_log_sample", .checked .accessLogSample),
   (ascii "access_log_min_status", .checked .accessLogMinStatus),
   (ascii "tls", .tls),
   (ascii "tls_cert_file", .tlsCertFile),
   (ascii "tls_key_file", .tlsKeyFile)]
    ++ tlsPolicyKeys.map fun k => (k.1, .tlsPolicy k.2)

/-- Store an accepted value.  The other checked keys store what the modelled code does not read. -/
def GlobalsCfg.set (g : GlobalsCfg) : GlobalKey → Bytes → GlobalsCfg
  | .checked .workers, value => { g with workers := parseU32 value }
  | .checked .defaultMaxBodyBytes, value => { g with defaultMaxBodyBytes := parseU64Positive value }
  | .checked .maxHeaderBytes, value => { g with maxHeaderBytes := parseU32Strict value }
  | .checked .accessLogSample, value => { g with accessLogSample := parseU32 value }
  | .checked .accessLogMinStatus, value => { g with accessLogMinStatus := parseU32 value }
  | .checked _, _ => g
  | .acceptBackoffMs, value =>
    { g with acceptBackoffMs := (parseU32 value).map some |>.getD g.acceptBackoffMs }
  | .defaultMaxHeaderFields, value =>
    { g with
      defaultMaxHeaderFields :=
        ((parseU32 value).filter (· ≤ 65535)).map some |>.getD g.defaultMaxHeaderFields }
  | .tls, value => { g with tlsEnabled := (parseBool value).map some |>.getD g.tlsEnabled }
  | .tlsCertFile, value => { g with tlsCertFile := some (snprintfS pathMax value) }
  | .tlsKeyFile, value => { g with tlsKeyFile := some (snprintfS pathMax value) }
  | .tlsPolicy key, value => { g with tlsPolicy := g.tlsPolicy.setKey key value }
  | .accessLogEnabled, value =>
    { g with accessLogEnabled := (parseBool value).map some |>.getD g.accessLogEnabled }
  | .accessLogPath, value => { g with accessLogPath := some (snprintfS pathMax value) }
  | .accessLogFormat, value =>
    { g with
      accessLogFormat :=
        if strcaseEq value (ascii "text") then some (snprintfS 16 value) else g.accessLogFormat }

/-- One key of the section `globals`.  A key that is not in the list is not checked and stores nothing
that the modelled code reads. -/
def GlobalsCfg.setKey (g : GlobalsCfg) (name value : Bytes) : KvResult GlobalsCfg :=
  match globalKeys.find? fun k => strcaseEq name k.1 with
  | none => .accepted g
  | some (text, .checked key) =>
    if key.check.1 value then .accepted (g.set (.checked key) value)
    else
      .fatal (ascii "invalid [globals]." ++ text ++ ascii ": '" ++ value ++ ascii "' (expected "
        ++ key.check.2 ++ ascii ")")
  | some (_, key) => .accepted (g.set key value)

/-- `conn_default_max_body_bytes` (`src/conn_lifecycle.c`). -/
def connDefaultMaxBodyBytes (g : GlobalsCfg) : ℕ :=
  g.defaultMaxBodyBytes.getD defaultMaxBodyBytes

/-- `conn_default_max_header_bytes` (`src/conn_lifecycle.c`). -/
def connDefaultMaxHeaderBytes (g : GlobalsCfg) : ℕ :=
  g.maxHeaderBytes.getD defaultMaxHeaderBytes

/-! ## The handler -/

/-- `struct config_parse_ctx` with the candidate configuration, `ini_fatal` and `ini_err_reason`.
`allocs` are the outcomes of the allocations to come; an exhausted list means that every later one
succeeds. -/
structure ConfigParseCtx where
  g : GlobalsCfg := {}
  vhosts : List VhostCfg := []
  routes : List RouteCfg := []
  routeCap : ℕ := 0
  iniFatal : Bool := false
  iniErrReason : Bytes := []
  allocs : List Bool := []
  deriving DecidableEq, Repr

/-- The outcome of the next allocation. -/
def ConfigParseCtx.alloc (ctx : ConfigParseCtx) : Bool × ConfigParseCtx :=
  match ctx.allocs with
  | [] => (true, ctx)
  | ok :: rest => (ok, { ctx with allocs := rest })

/-- Set `ini_fatal` with its reason. -/
def ConfigParseCtx.fail (ctx : ConfigParseCtx) (reason : Bytes) : ConfigParseCtx :=
  { ctx with iniFatal := true, iniErrReason := snprintfS 256 reason }

/-- `INIH_SECTION_LIMIT`. -/
def inihSectionLimit : ℕ := 49

/-- `CFG_MAX_VHOSTS`. -/
def cfgMaxVhosts : ℕ := 32

/-- `CFG_MAX_ROUTES`. -/
def cfgMaxRoutes : ℕ := 256

/-- The common start of `ensure_vhost` and `ensure_route`: `none` if the section is of another kind,
otherwise the name it gives or the reason why it is refused. -/
def sectionName (kind sec : Bytes) : Option (Except Bytes Bytes) :=
  if !strncaseEq 5 sec kind then none
  else
    let p := (sec.drop 5).dropWhile fun b => b == 32 || b == 58 || b == 46
    let name := if p = [] then ascii "default" else p
    let consumed := sec.length - p.length
    if inihSectionLimit ≤ consumed then
      some (.error (kind ++ ascii " section too long or truncated by parser (prefix len="
        ++ numeral consumed ++ ascii " >= " ++ numeral inihSectionLimit
        ++ ascii "). Keep names short"))
    else if inihSectionLimit - consumed ≤ name.length then
      some (.error (kind ++ ascii " section too long or truncated by parser (len="
        ++ numeral (consumed + name.length) ++ ascii " >= " ++ numeral inihSectionLimit
        ++ ascii "). Keep names < " ++ numeral (inihSectionLimit - consumed) ++ ascii " chars"))
    else if sectionNameMax ≤ name.length then
      some (.error (kind ++ ascii " name exceeds buffer (" ++ numeral name.length ++ ascii " >= "
        ++ numeral sectionNameMax ++ ascii ")"))
    else some (.ok name)

/-- The position of the virtual host of a name: `config_find_vhost_index_by_name`. -/
def configFindVhostIndexByName (vhosts : List VhostCfg) (name : Bytes) : Option ℕ :=
  if name = [] then none else vhosts.findIdx? fun vh => strcaseEq vh.name name

/-- A fresh virtual host. -/
def newVhost (g : GlobalsCfg) (name : Bytes) : VhostCfg :=
  { name := name, maxHeaderFields := g.defaultMaxHeaderFields.getD 100, docrootFd := -1 }

/-- `ensure_vhost`: the position of the virtual host a section names, entering it if it is new. -/
def ensureVhost (ctx : ConfigParseCtx) (sec : Bytes) : Option ℕ × ConfigParseCtx :=
  match sectionName (ascii "vhost") sec with
  | none => (none, ctx)
  | some (.error reason) => (none, ctx.fail reason)
  | some (.ok name) =>
    match ctx.vhosts.findIdx? fun vh => strcaseEq vh.name name with
    | some i => (some i, ctx)
    | none =>
      if cfgMaxVhosts ≤ ctx.vhosts.length then (none, ctx.fail (ascii "too many vhosts (max 32)"))
      else (some ctx.vhosts.length, { ctx with vhosts := ctx.vhosts ++ [newVhost ctx.g name] })

/-- The doubling loop of `ensure_route_capacity`; six rounds reach `CFG_MAX_ROUTES` from 8. -/
def growRouteCap : ℕ → ℕ → ℕ → ℕ
  | 0, cap, _ => cap
  | rounds + 1, cap, need =>
    if cap < need ∧ cap < cfgMaxRoutes then growRouteCap rounds (cap * 2) need else cap

/-- `ensure_route_capacity`: whether there is room for `need` routes.  Both arrays are allocated
before either is tested. -/
def ensureRouteCapacity (ctx : ConfigParseCtx) (need : ℕ) : Bool × ConfigParseCtx :=
  if need ≤ ctx.routeCap then (true, ctx)
  else
    let grown := growRouteCap 6 (if 0 < ctx.routeCap then ctx.routeCap else 8) need
    let newCap := min grown cfgMaxRoutes
    if newCap < need then (false, ctx)
    else
      let (routesOk, ctx) := ctx.alloc
      let (rulesOk, ctx) := ctx.alloc
      if routesOk && rulesOk then (true, { ctx with routeCap := newCap }) else (false, ctx)

/-- `ensure_route`: the position of the route a section names, entering it if it is new. -/
def ensureRoute (ctx : ConfigParseCtx) (sec : Bytes) : Option ℕ × ConfigParseCtx :=
  match sectionName (ascii "route") sec with
  | none => (none, ctx)
  | some (.error reason) => (none, ctx.fail reason)
  | some (.ok name) =>
    match ctx.routes.findIdx? fun re => strcaseEq re.name name with
    | some i => (some i, ctx)
    | none =>
      if cfgMaxRoutes ≤ ctx.routes.length then
        (none, ctx.fail (ascii "too many route rules (max 256)"))
      else
        match ensureRouteCapacity ctx (ctx.routes.length + 1) with
        | (false, ctx) =>
          (none, ctx.fail (ascii "out of memory while allocating route parse buffer"))
        | (true, ctx) =>
          (some ctx.routes.length,
            { ctx with routes := ctx.routes ++ [⟨name, [], ctx.routes.length, { pathPrefix := [] }⟩] })

/-- Take over the outcome of a key, with the handler's return value. -/
def ConfigParseCtx.finish {α : Type} (ctx : ConfigParseCtx) (store : α → ConfigParseCtx) :
    KvResult α → ConfigParseCtx × Bool
  | .accepted a => (store a, true)
  | .refused => (ctx, false)
  | .fatal reason => (ctx.fail reason, false)

/-- A key of the route at position `i`. -/
def onRouteKv (ctx : ConfigParseCtx) (i : ℕ) (name value : Bytes) : ConfigParseCtx × Bool :=
  match ctx.routes[i]?, keyOf routeKeys name with
  | some re, some key =>
    ctx.finish (fun re => { ctx with routes := ctx.routes.set i re }) (re.setKey key value)
  | _, _ => (ctx, true)

/-- A key of the virtual host at position `i`. -/
def onVhostKv (ctx : ConfigParseCtx) (i : ℕ) (name value : Bytes) : ConfigParseCtx × Bool :=
  match ctx.vhosts[i]?, keyOf vhostKeys name with
  | some vh, some key =>
    let (ok, ctx) := if vh.needsAlloc key value then ctx.alloc else (true, ctx)
    ctx.finish (fun vh => { ctx with vhosts := ctx.vhosts.set i vh }) (vh.setKey ok key value)
  | _, _ => (ctx, true)

/-- `on_kv`. -/
def onKv (ctx : ConfigParseCtx) (sec name value : Bytes) : ConfigParseCtx × Bool :=
  if ctx.iniFatal then (ctx, false)
  else if strcaseEq sec (ascii "globals") then
    ctx.finish (fun g => { ctx with g := g }) (ctx.g.setKey name value)
  else
    match ensureRoute ctx sec with
    | (some i, ctx) => onRouteKv ctx i name value
    | (none, ctx) =>
      if ctx.iniFatal then (ctx, false)
      else
        match ensureVhost ctx sec with
        | (some i, ctx) => onVhostKv ctx i name value
        | (none, ctx) => (ctx, !ctx.iniFatal)

/-! ## inih -/

/-- A call of the handler: the line, which is counted from one, and the three strings.  A value is
part of one line of the file. -/
structure IniEntry where
  line : ℕ
  sec : Bytes
  name : Bytes
  value : Bytes
  line_pos : 0 < line
  one_line : 10 ∉ value

/-- What inih makes of the file, in order: calls of the handler, and the numbers of the lines it
cannot read. -/
inductive IniItem where
  | entry (e : IniEntry)
  | malformed (line : ℕ) (line_pos : 0 < line)

/-- `ini_parse` on an open file: it goes on after an error and returns the line of the first one. -/
def iniParse : ConfigParseCtx → ℕ → List IniItem → ConfigParseCtx × ℕ
  | ctx, rc, [] => (ctx, rc)
  | ctx, rc, .malformed line _ :: rest => iniParse ctx (if rc = 0 then line else rc) rest
  | ctx, rc, .entry e :: rest =>
    match onKv ctx e.sec e.name e.value with
    | (ctx, true) => iniParse ctx rc rest
    | (ctx, false) => iniParse ctx (if rc = 0 then e.line else rc) rest

/-! ## Resolving the routes -/

/-- `route_has_cors_policy`. -/
def routeHasCorsPolicy (rr : RoutePolicyRule) : Bool :=
  rr.cors.enabled || rr.cors.enabledSet || rr.cors.allowOriginSet || rr.cors.allowMethodsSet
    || rr.cors.allowHeadersSet || rr.cors.allowCredentialsSet || rr.cors.maxAgeSecondsSet

/-- The combination that no effective policy may have: any origin together with credentials. -/
def CorsPolicy.isUnsafe (cors : CorsPolicy) : Bool :=
  cors.enabled && cors.allowCredentials && cors.allowOrigin == ascii "*"

/-- `struct vhost_route_index_scratch` with the flag of `vhost_route_has_cors`. -/
structure VhostRouteIndex where
  routeIndices : List ℕ := []
  hasCors : Bool := false
  deriving DecidableEq, Repr

/-- What the first loop of `config_resolve_routes` works on. -/
structure RouteResolution where
  vhosts : List VhostCfg
  index : List VhostRouteIndex

/-- Enter route `i` for the virtual host at position `v`. -/
def RouteResolution.enter (st : RouteResolution) (v i : ℕ) (rr : RoutePolicyRule) :
    RouteResolution where
  index :=
    st.index.modify v fun idx =>
      { routeIndices := idx.routeIndices ++ [i], hasCors := idx.hasCors || routeHasCorsPolicy rr }
  vhosts :=
    st.vhosts.modify v fun vh =>
      { vh with features := { vh.features with auth := vh.features.auth || rr.authMode == .require } }

/-- One round of the first loop of `config_resolve_routes`. -/
def resolveRoute (st : RouteResolution) (i : ℕ) (src : RouteCfg) : Except Bytes RouteResolution :=
  let err (text : Bytes) : Bytes := ascii "route '" ++ src.name ++ ascii "': " ++ text
  if src.vhostName = [] then .error (err (ascii "missing required key 'vhost'"))
  else if src.rule.pathPrefix = [] then .error (err (ascii "missing required key 'path_prefix'"))
  else if src.rule.pathPrefix.head? ≠ some 47 then
    .error (err (ascii "path_prefix must start with '/'"))
  else
    match configFindVhostIndexByName st.vhosts src.vhostName with
    | none => .error (err (ascii "unknown vhost '" ++ src.vhostName ++ ascii "'"))
    | some v =>
      match st.vhosts[v]?, st.index[v]? with
      | some vh, some idx =>
        if cfgMaxRoutes ≤ idx.routeIndices.length then
          .error (ascii "vhost '" ++ vh.name ++ ascii "': too many route entries")
        else if (policySharedResolveEffectiveCorsForRoute vh.toVhost (some src.rule)).isUnsafe then
          .error (err (ascii
            "cors_allow_origin='*' cannot be combined with cors_allow_credentials=true"))
        else .ok (st.enter v i src.rule)
      | _, _ => .error (err (ascii "unknown vhost '" ++ src.vhostName ++ ascii "'"))

/-- The first loop of `config_resolve_routes`, from route `i` on. -/
def resolveRoutesFrom : RouteResolution → ℕ → List RouteCfg → Except Bytes RouteResolution
  | st, _, [] => .ok st
  | st, i, src :: rest =>
    match resolveRoute st i src with
    | .error e => .error e
    | .ok st => resolveRoutesFrom st (i + 1) rest

/-- The test `swap` of the insertion sort: does the route `key` go before the route `prev`?  The
stored prefix length is the length of the prefix. -/
def routeSwap (routes : List RouteCfg) (prev key : ℕ) : Bool :=
  match routes[prev]?, routes[key]? with
  | some rp, some rk =>
    rp.rule.pathPrefix.length < rk.rule.pathPrefix.length
      || (rp.rule.pathPrefix.length == rk.rule.pathPrefix.length && rk.declOrdinal < rp.declOrdinal)
  | _, _ => false

/-- `sort_vhost_route_index`. -/
def sortVhostRouteIndex (routes : List RouteCfg) (indices : List ℕ) : List ℕ :=
  Precedence.insertionSort (routeSwap routes) indices

/-- A virtual host of the candidate configuration with its pointers `route_rules`. -/
structure CandidateVhost where
  vhost : VhostCfg
  routeRefs : List ℕ

/-- The last loop of `config_resolve_routes`: the route list of every virtual host. -/
def assignRoutes (routes : List RouteCfg) :
    List Bool → List (VhostCfg × VhostRouteIndex) → Except Bytes (List CandidateVhost × List Bool)
  | allocs, [] => .ok ([], allocs)
  | allocs, (vh, idx) :: rest =>
    let vhFeatures := { vh.features with cors := vh.features.cors || idx.hasCors }
    let out : CandidateVhost :=
      { vhost := { vh with features := vhFeatures }
        routeRefs := sortVhostRouteIndex routes idx.routeIndices }
    let (ok, allocs) :=
      if idx.routeIndices = [] then (true, allocs) else (allocs.headD true, allocs.tail)
    if !ok then
      .error (ascii "out of memory while resolving route list for vhost '" ++ vh.name ++ ascii "'")
    else
      match assignRoutes routes allocs rest with
      | .error e => .error e
      | .ok (outs, allocs) => .ok (out :: outs, allocs)

/-- `config_resolve_routes`. -/
def configResolveRoutes (ctx : ConfigParseCtx) : Except Bytes (List CandidateVhost) :=
  let (indexOk, ctx) := ctx.alloc
  if !indexOk then .error (ascii "out of memory while resolving route index")
  else
    let (rulesOk, ctx) := if ctx.routes = [] then (true, ctx) else ctx.alloc
    if !rulesOk then .error (ascii "out of memory while allocating resolved route storage")
    else
      match resolveRoutesFrom ⟨ctx.vhosts, ctx.vhosts.map fun _ => {}⟩ 0 ctx.routes with
      | .error e => .error e
      | .ok st =>
        match assignRoutes ctx.routes ctx.allocs (st.vhosts.zip st.index) with
        | .error e => .error e
        | .ok (outs, _) => .ok outs

/-! ## Loading -/

/-- What the loader asks of the system. -/
structure LoadEnv where
  allocs : List Bool := []
  /-- `is_wildcard_bind`. -/
  isWildcardBind : Bytes → Bool
  /-- `resolve_bind_host_numeric`: the numeric address or the text of the error. -/
  resolveBindHostNumeric : Bytes → Except Bytes Bytes
  /-- `open` of a document root. -/
  openDocroot : Bytes → Option ℕ
  /-- `auth_store_load`. -/
  authStoreLoad : Bytes → Option (List AuthEntry)

/-- `struct config_t`. -/
structure Config where
  g : GlobalsCfg := {}
  vhosts : List VhostCfg := []
  routeRules : List RoutePolicyRule := []
  deriving DecidableEq, Repr

/-- `normalize_vhost_binds` on one virtual host. -/
def normalizeVhostBind (env : LoadEnv) (vh : VhostCfg) : Except Bytes VhostCfg :=
  if vh.bind = [] ∨ env.isWildcardBind vh.bind then .ok vh
  else
    match env.resolveBindHostNumeric vh.bind with
    | .error e => .error (if e = [] then ascii "bind resolution failed" else e)
    | .ok addr => .ok { vh with bind := snprintfS 64 addr }

/-- The checks of one virtual host before the routes are resolved. -/
def checkVhost (g : GlobalsCfg) (vh : VhostCfg) : Except Bytes Unit :=
  let tls := vh.tlsEnabled.getD (g.tlsEnabled.getD false)
  let cert := if vh.tlsCertFile ≠ [] then vh.tlsCertFile else g.tlsCertFile.getD []
  let key := if vh.tlsKeyFile ≠ [] then vh.tlsKeyFile else g.tlsKeyFile.getD []
  if tls ∧ (cert = [] ∨ key = []) then
    .error (ascii "vhost '" ++ vh.name
      ++ ascii "': tls=true requires tls_cert_file and tls_key_file")
  else if (vh.cors.getD {}).isUnsafe then
    .error (ascii "vhost '" ++ vh.name ++ ascii
      "': cors_allow_origin='*' cannot be combined with cors_allow_credentials=true")
  else .ok ()

/-- The document root and the credential file of a virtual host. -/
def openVhost (env : LoadEnv) (cand : CandidateVhost) : Except Bytes CandidateVhost :=
  let vh := cand.vhost
  let docrootFd : ℤ :=
    if vh.docroot = [] then vh.docrootFd
    else match env.openDocroot vh.docroot with
      | some fd => fd
      | none => vh.docrootFd
  let vh := { vh with docrootFd := docrootFd }
  if vh.authBasicFile = [] ∨ !vh.features.auth then .ok { cand with vhost := vh }
  else
    match env.authStoreLoad vh.authBasicFile with
    | none =>
      .error (ascii "vhost '" ++ vh.name ++ ascii "': failed to load auth_basic_file '"
        ++ vh.authBasicFile ++ ascii "'")
    | some store => .ok { cand with vhost := { vh with authStore := some store } }

/-- The rules that a list of pointers refers to. -/
def derefRules (rules : List RoutePolicyRule) (refs : List ℕ) : List RoutePolicyRule :=
  refs.filterMap fun i => rules[i]?

/-- A route that requires authentication needs the credentials of its virtual host. -/
def checkRouteAuth (rules : List RoutePolicyRule) (cand : CandidateVhost) : Except Bytes Unit :=
  if (derefRules rules cand.routeRefs).any (fun rr => rr.authMode == .require)
      ∧ cand.vhost.authStore = none then
    .error (ascii "vhost '" ++ cand.vhost.name
      ++ ascii "': route auth=require needs auth=true and a valid auth_basic_file")
  else .ok ()

/-- `rebind_vhost_route_rule_ptrs_after_commit` for one virtual host: its count is cut to the number
of rules, and a pointer outside the array becomes `NULL`, which route resolution skips. -/
def rebindVhostRouteRulePtrsAfterCommit (rules : List RoutePolicyRule) (cand : CandidateVhost) :
    VhostCfg :=
  { cand.vhost with routeRules := derefRules rules (cand.routeRefs.take rules.length) }

/-- The part of `config_load_ini` after parsing. -/
def finishLoad (env : LoadEnv) (ctx : ConfigParseCtx) : Except Bytes Config :=
  match ctx.vhosts.mapM (normalizeVhostBind env) with
  | .error e => .error e
  | .ok vhosts =>
    match vhosts.forM (checkVhost ctx.g) with
    | .error e => .error e
    | .ok _ =>
      match configResolveRoutes { ctx with vhosts := vhosts } with
      | .error e => .error e
      | .ok cands =>
        match cands.mapM (openVhost env) with
        | .error e => .error e
        | .ok cands =>
          let rules := ctx.routes.map RouteCfg.rule
          match cands.forM (checkRouteAuth rules) with
          | .error e => .error e
          | .ok _ =>
            .ok
              { g := ctx.g
                vhosts := cands.map (rebindVhostRouteRulePtrsAfterCommit rules)
                routeRules := rules }

/-- The text that `config_load_ini` reports after a failed parse. -/
def parseErrorText (ctx : ConfigParseCtx) (rc : ℤ) : Bytes :=
  let rcText := if rc < 0 then ascii "-" ++ numeral rc.natAbs else numeral rc.natAbs
  if ctx.iniErrReason ≠ [] then
    if rc ≠ 0 then ctx.iniErrReason ++ ascii " (line=" ++ rcText ++ ascii ")"
    else ctx.iniErrReason
  else ascii "ini_parse failed (rc=" ++ rcText ++ ascii ")"

/-- `config_load_ini`: the committed configuration, or the text of the error, in which case the
running configuration is left alone.  The file is `none` if it cannot be opened. -/
def configLoadIni (env : LoadEnv) (file : Option (List IniItem)) : Except Bytes Config :=
  let (candidateOk, ctx) := ({ allocs := env.allocs } : ConfigParseCtx).alloc
  if !candidateOk then .error (ascii "out of memory while allocating candidate config")
  else
    let (pctxOk, ctx) := ctx.alloc
    if !pctxOk then .error (ascii "out of memory while allocating parse context")
    else
      match file with
      | none => .error (snprintfS 256 (parseErrorText ctx (-1)))
      | some items =>
        let (ctx, rc) := iniParse ctx 0 items
        if ctx.iniFatal ∨ rc ≠ 0 then .error (snprintfS 256 (parseErrorText ctx rc))
        else (finishLoad env ctx).mapError (snprintfS 256)

end Lamseryn
