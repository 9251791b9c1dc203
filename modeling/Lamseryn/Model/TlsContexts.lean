import Lamseryn.Framework.SwapRemove
import Lamseryn.Model.ConfigIni

/-!
# The TLS contexts of the virtual hosts (`src/tls.c`)

Every virtual host with TLS has a context, which its handle owns; the registry finds the context of a
server name during a handshake.  A reload builds new contexts beside the old ones, exchanges the handles
and frees the old contexts.

A context is the address of its `SSL_CTX`, and `struct tls_ctx`, which holds nothing else, is identified
with it.  `malloc` gives the address of a new context from those in use.
-/

namespace Lamseryn

open ByteText CText SwapRemove

/-- `TLS_SNI_MAX_CTX`. -/
def tlsSniMaxCtx : ℕ := 64

/-- `struct tls_sni_entry`. -/
structure SniEntry where
  serverName : Bytes
  port : ℕ
  sslCtx : ℕ
  deriving DecidableEq, Repr

/-- The entries of the registry below `g_tls_sni_count`, and the contexts that have not been freed. -/
structure TlsState where
  entries : List SniEntry := []
  live : List ℕ := []
  deriving DecidableEq, Repr

/-! ## The registry -/

/-- `tls_sni_unregister_ctx`. -/
def tlsSniUnregisterCtx (s : TlsState) (ctx : ℕ) : TlsState :=
  match s.entries.findIdx? fun e => e.sslCtx = ctx with
  | none => s
  | some i => { s with entries := swapRemove s.entries i }

/-- `tls_sni_register_ctx`: whether it returns zero. -/
def tlsSniRegisterCtx (s : TlsState) (vh : VhostCfg) (ctx : ℕ) : Bool × TlsState :=
  if vh.name = [] then (true, s)
  else if s.entries.any fun e => e.sslCtx = ctx then (true, s)
  else if tlsSniMaxCtx ≤ s.entries.length then (false, s)
  else
    (true, { s with entries := s.entries ++ [⟨snprintfS sectionNameMax vh.name, vh.port, ctx⟩] })

/-- The test of `tls_sni_find_ctx` for one entry. -/
def SniEntry.answers (e : SniEntry) (serverName : Bytes) (port : ℕ) : Bool :=
  strcaseEq e.serverName serverName && !(port ≠ 0 && e.port ≠ 0 && e.port ≠ port)

/-- `tls_sni_find_ctx`. -/
def tlsSniFindCtx (s : TlsState) (serverName : Bytes) (port : ℕ) : Option ℕ :=
  if serverName = [] then none
  else (s.entries.find? fun e => e.answers serverName port).map SniEntry.sslCtx

/-! ## Contexts -/

/-- The outcomes of the calls of the TLS library and of `calloc` that build a context. -/
structure BuildIo where
  ctxNew : Bool := true
  setMinProtoVersion : Bool := true
  setCipherList : Bool := true
  setCiphersuites : Bool := true
  useCertificateChainFile : Bool := true
  usePrivateKeyFile : Bool := true
  checkPrivateKey : Bool := true
  calloc : Bool := true
  deriving DecidableEq, Repr

/-- `tls_apply_ctx_policy`: whether it returns zero. -/
def tlsApplyCtxPolicy (tls : TlsPolicy) (io : BuildIo) : Bool :=
  (tls.minVersion = [] || tls.minVersion = ascii "tls1.2" || tls.minVersion = ascii "tls1.3")
    && io.setMinProtoVersion
    && (tls.ciphers = [] || io.setCipherList)
    && (tls.ciphersuites = [] || io.setCiphersuites)

/-- The steps of `tls_ctx_build_for_vhost` between `SSL_CTX_new` and the registration succeed. -/
def contextConfigured (vh : VhostCfg) (io : BuildIo) : Bool :=
  tlsApplyCtxPolicy vh.tlsPolicy io && io.useCertificateChainFile && io.usePrivateKeyFile
    && io.checkPrivateKey && io.calloc

/-- `tls_ctx_build_for_vhost`. -/
def tlsCtxBuildForVhost (malloc : List ℕ → ℕ) (s : TlsState) (vh : VhostCfg) (io : BuildIo) :
    Option ℕ × TlsState :=
  if vh.tlsCertFile = [] ∨ vh.tlsKeyFile = [] then (none, s)
  else if io.ctxNew = false then (none, s)
  else
    let ctx := malloc s.live
    let s := { s with live := ctx :: s.live }
    let freed (s : TlsState) : TlsState := { s with live := s.live.erase ctx }
    if contextConfigured vh io then
      match tlsSniRegisterCtx s vh ctx with
      | (true, s) => (some ctx, s)
      | (false, s) => (none, freed s)
    else (none, freed s)

/-- `tls_ctx_free`. -/
def tlsCtxFree (s : TlsState) (ctx : ℕ) : TlsState :=
  let s := tlsSniUnregisterCtx s ctx
  { s with live := s.live.erase ctx }

/-! ## Virtual hosts -/

/-- `tls_vhost_effective_enabled`. -/
def tlsVhostEffectiveEnabled (g : GlobalsCfg) (vh : VhostCfg) : Bool :=
  vh.tlsEnabled.getD (g.tlsEnabled.getD false)

/-- `tls_build_effective_vhost`. -/
def tlsBuildEffectiveVhost (g : GlobalsCfg) (vh : VhostCfg) : VhostCfg :=
  let orDefault (own dflt : Bytes) : Bytes := if own = [] then dflt else own
  { vh with
    tlsCertFile := orDefault vh.tlsCertFile (g.tlsCertFile.getD [])
    tlsKeyFile := orDefault vh.tlsKeyFile (g.tlsKeyFile.getD [])
    tlsPolicy :=
      { minVersion := orDefault vh.tlsPolicy.minVersion g.tlsPolicy.minVersion
        ciphers := orDefault vh.tlsPolicy.ciphers g.tlsPolicy.ciphers
        ciphersuites := orDefault vh.tlsPolicy.ciphersuites g.tlsPolicy.ciphersuites
        sessionTickets := vh.tlsPolicy.sessionTickets.or g.tlsPolicy.sessionTickets
        sessionCache := vh.tlsPolicy.sessionCache.or g.tlsPolicy.sessionCache } }

/-- The loop that builds a context for every virtual host with TLS, up to the first failure: the new
contexts, whether all were built, and the state.  An exhausted list of outcomes means that all succeed. -/
def buildContexts (malloc : List ℕ → ℕ) (g : GlobalsCfg) :
    TlsState → List VhostCfg → List BuildIo → List (Option ℕ) × Bool × TlsState
  | s, [], _ => ([], true, s)
  | s, vh :: rest, ios =>
    if tlsVhostEffectiveEnabled g vh then
      match tlsCtxBuildForVhost malloc s (tlsBuildEffectiveVhost g vh) (ios.headD {}) with
      | (none, s) => (none :: rest.map fun _ => none, false, s)
      | (some ctx, s) =>
        let (ctxs, ok, s) := buildContexts malloc g s rest ios.tail
        (some ctx :: ctxs, ok, s)
    else
      let (ctxs, ok, s) := buildContexts malloc g s rest ios
      (none :: ctxs, ok, s)

/-- The loops that free the contexts of an array. -/
def freeContexts : TlsState → List (Option ℕ) → TlsState
  | s, [] => s
  | s, none :: rest => freeContexts s rest
  | s, some ctx :: rest => freeContexts (tlsCtxFree s ctx) rest

/-- The state of `src/tls.c` with the `tls_ctx_handle` of every virtual host. -/
structure TlsRuntime where
  state : TlsState := {}
  handles : List (Option ℕ) := []
  deriving DecidableEq, Repr

/-- `tls_init_vhost_contexts` on a configuration without contexts: whether it returns zero. -/
def tlsInitVhostContexts (malloc : List ℕ → ℕ) (cfg : Config) (ios : List BuildIo) : Bool × TlsRuntime :=
  match buildContexts malloc cfg.g {} cfg.vhosts ios with
  | (ctxs, true, s) => (true, { state := s, handles := ctxs })
  | (ctxs, false, s) => (false, { state := freeContexts s ctxs, handles := ctxs.map fun _ => none })

/-- The outcomes of a reload: the allocation of the array, and those of the builds. -/
structure ReloadIo where
  calloc : Bool := true
  builds : List BuildIo := []
  deriving DecidableEq, Repr

/-- Exchange the handles of the virtual hosts with TLS: the new handles, and what is left in the array. -/
def exchangeHandles (g : GlobalsCfg) :
    List VhostCfg → List (Option ℕ) → List (Option ℕ) → List (Option ℕ) × List (Option ℕ)
  | vh :: vhosts, old :: olds, new :: news =>
    let (handles, left) := exchangeHandles g vhosts olds news
    if tlsVhostEffectiveEnabled g vh then (new :: handles, old :: left) else (old :: handles, new :: left)
  | _, _, _ => ([], [])

/-- `tls_reload_vhost_contexts`: whether it returns zero. -/
def tlsReloadVhostContexts (malloc : List ℕ → ℕ) (cfg : Config) (rt : TlsRuntime) (io : ReloadIo) :
    Bool × TlsRuntime :=
  if io.calloc = false then (false, rt)
  else
    match buildContexts malloc cfg.g rt.state cfg.vhosts io.builds with
    | (ctxs, false, s) => (false, { rt with state := freeContexts s ctxs })
    | (ctxs, true, s) =>
      let (handles, left) := exchangeHandles cfg.g cfg.vhosts rt.handles ctxs
      (true, { state := freeContexts s left, handles := handles })

end Lamseryn
