import Lamseryn.Properties.RequestFeeds
import Lamseryn.Properties.Routing

/-!
# The body limit

The limit of a request body is the matching route's `max_body_bytes` or the default of the configuration.
`on_headers_complete` fixes it and compares an announced length with it, `on_body` counts against it.
A record beside the run (`BodyLedger`) says what was announced and how much was delivered; the invariant
(`BodyInv`) compares the record with the request state over every sequence of chunks.

A request for which an allocation failed is left out: it is answered with 500, and `on_headers_complete`
declares it complete without a look at its length.
-/

namespace Lamseryn

open ByteText

variable {L : Llhttp}

/-! ## Limits of a loaded configuration are positive -/

lemma parseU64Positive_pos {s : Bytes} {v : ℕ} (h : parseU64Positive s = some v) : 0 < v := by
  unfold parseU64Positive at h
  split_ifs at h with hform hrange
  rw [← Option.some.inj h]
  exact Nat.pos_of_ne_zero fun h0 => hrange (.inr h0)

/-- The limit of a route, if it has one, is positive. -/
def RouteCfg.LimitPos (re : RouteCfg) : Prop :=
  ∀ n, re.rule.maxBodyBytes = some n → 0 < n

lemma RouteCfg.setKey_maxBodyBytes {re re1 : RouteCfg} {key : RouteKey} {value : Bytes}
    (h : re.setKey key value = .accepted re1) :
    re1.rule.maxBodyBytes = re.rule.maxBodyBytes ∨
      ∃ v, parseU64Positive value = some v ∧ re1.rule.maxBodyBytes = some v := by
  cases key with
  | maxBodyBytes =>
    simp only [RouteCfg.setKey] at h
    split at h
    · cases h
    · rename_i v hv
      cases h
      exact .inr ⟨v, hv, rfl⟩
  | _ =>
    simp only [RouteCfg.setKey] at h
    split at h <;> cases h <;> exact .inl rfl

lemma RouteCfg.LimitPos.apply {re : RouteCfg} (h : re.LimitPos) (e : IniEntry) :
    (re.apply e).LimitPos := by
  unfold RouteCfg.apply
  split
  · exact h
  · split
    · rename_i hset
      intro n hn
      rcases RouteCfg.setKey_maxBodyBytes hset with hsame | ⟨v, hv, hlimit⟩
      · exact h n (hsame ▸ hn)
      · rw [hlimit] at hn
        cases hn
        exact parseU64Positive_pos hv
    · exact h

lemma declareGlobal_maxBodyBytes_pos {g : GlobalsCfg} (e : IniEntry)
    (h : ∀ n, g.defaultMaxBodyBytes = some n → 0 < n) :
    ∀ n, (declareGlobal g e).defaultMaxBodyBytes = some n → 0 < n := by
  unfold declareGlobal GlobalsCfg.apply
  split
  · split
    · exact h
    · rename_i key _
      cases key with
      | checked key =>
        cases key with
        | defaultMaxBodyBytes => exact fun n hn => parseU64Positive_pos hn
        | _ => exact h
      | _ => exact h
  · exact h

lemma connDefaultMaxBodyBytes_pos {env : LoadEnv} {file : Option (List IniItem)} {cfg : Config}
    (h : configLoadIni env file = .ok cfg) : 0 < connDefaultMaxBodyBytes cfg.g := by
  obtain ⟨items, ctx0, ctx, -, hg, -, -, hrun, hloaded⟩ := configLoadIni_ok h
  have hglobals : ∀ n, ctx.g.defaultMaxBodyBytes = some n → 0 < n := by
    rw [hrun.globals_eq, hg]
    refine List.foldlRecOn (motive := fun g : GlobalsCfg => ∀ n, g.defaultMaxBodyBytes = some n → 0 < n)
      (fileEntries items) declareGlobal ?_ fun g hg e _ => declareGlobal_maxBodyBytes_pos e hg
    intro n hn
    cases hn
  rw [hloaded.globals, connDefaultMaxBodyBytes]
  cases hset : ctx.g.defaultMaxBodyBytes with
  | none => simp [defaultMaxBodyBytes]
  | some n => exact hglobals n hset

lemma routes_limitPos {ctx0 ctx : ConfigParseCtx} {es : List IniEntry} (hroutes : ctx0.routes = [])
    (hrun : ParseRun ctx0 es ctx) : ∀ re ∈ ctx.routes, re.LimitPos := by
  refine hrun.routes_rule (fun name n => ?_) (fun re e hre => RouteCfg.LimitPos.apply hre e) ?_
  · intro v hv
    cases hv
  · rw [hroutes]
    exact fun re hre => absurd hre List.not_mem_nil

lemma bodyLimit_pos {env : LoadEnv} {file : Option (List IniItem)} {cfg : Config}
    (h : configLoadIni env file = .ok cfg) {vh : VhostCfg} (hvh : vh ∈ cfg.vhosts) (norm : Bytes) :
    0 < bodyLimit (some vh.toVhost) (connDefaultMaxBodyBytes cfg.g) norm := by
  obtain ⟨items, ctx0, ctx, -, -, hroutes0, -, hrun, hloaded⟩ := configLoadIni_ok h
  have hdefault := connDefaultMaxBodyBytes_pos h
  have hroutes := routes_limitPos hroutes0 hrun
  obtain ⟨v, vh0, -, -, hrules⟩ := hloaded.vhost hvh
  unfold bodyLimit
  generalize connDefaultMaxBodyBytes cfg.g = current at *
  dsimp only
  split
  · exact hdefault
  · rename_i rr hrr
    have hmem : rr ∈ vh.routeRules := by
      unfold policySharedResolveRouteRule at hrr
      split_ifs at hrr
      exact List.mem_of_find?_eq_some hrr
    rw [hrules] at hmem
    obtain ⟨i, -, hi⟩ := List.mem_filterMap.mp hmem
    obtain ⟨re, hre, rfl⟩ := Option.map_eq_some_iff.mp hi
    cases hset : re.rule.maxBodyBytes with
    | none => exact hdefault
    | some n => exact hroutes re (List.mem_of_getElem? hre) n hset

/-! ## The record of a body -/

/-- What llhttp has announced and delivered of the body of a request. -/
structure BodyLedger where
  announced : Option ℕ := none
  delivered : ℕ := 0

/-- The record of a callback: the header section may announce a length, each body callback delivers its
bytes. -/
def BodyLedger.note (vh : Option Vhost) (g : BodyLedger) (s : Http1State) : Callback → BodyLedger
  | .headersComplete method keepAlive =>
    let framing := (onHeadersComplete vh s method keepAlive).framing
    { g with announced := if framing.clCount = 1 then some framing.clValue else none }
  | .body piece => { g with delivered := g.delivered + piece.length }
  | _ => g

/-- Nothing was announced or delivered beyond `limit`. -/
structure BodyLedger.Within (g : BodyLedger) (limit : ℕ) : Prop where
  announced : ∀ n, g.announced = some n → n ≤ limit
  delivered : g.delivered ≤ limit

/-- The request is not one whose body is limited: an allocation failed, or it is no GET or HEAD. -/
def Http1State.Unlimited (s : Http1State) : Prop :=
  s.internalError = true ∨ (s.method ≠ .get ∧ s.method ≠ .head)

/-- The limit in force is the effective one, and what was announced and delivered is within it. -/
structure BodyOpen (vh : Option Vhost) (limit : ℕ) (g : BodyLedger) (s : Http1State) : Prop where
  current : h1CurrentMaxBodyBytes s = bodyLimit vh limit s.pathNorm
  counted : s.bodyBytes = g.delivered
  within : g.Within (bodyLimit vh limit s.pathNorm)

/-- The body of a request before and behind the end of its header section. -/
def BodyInv (vh : Option Vhost) (limit : ℕ) : Bool → BodyLedger → Http1State → Prop
  | false, g, s => g = {} ∧ h1CurrentMaxBodyBytes s = limit
  | true, g, s => s.Unlimited ∨ s.Rejected ∨ BodyOpen vh limit g s

section Steps

variable {vh : Option Vhost} {limit : ℕ}

lemma Http1State.Kept.unlimited {s t : Http1State} (hst : s.Kept t) (h : s.Unlimited) :
    t.Unlimited := by
  rcases h with h | h
  · exact .inl (hst.internalError h)
  · right
    rwa [show t.method = s.method from congrArg BodyPart.method hst.bodyPart]

lemma Http1State.Kept.currentMaxBodyBytes {s t : Http1State} (hst : s.Kept t) :
    h1CurrentMaxBodyBytes t = h1CurrentMaxBodyBytes s := by
  unfold h1CurrentMaxBodyBytes
  rw [show t.maxBodyBytes = s.maxBodyBytes from congrArg BodyPart.maxBodyBytes hst.bodyPart]

lemma BodyInv.of_kept {ended : Bool} {g : BodyLedger} {s t : Http1State} (hst : s.Kept t)
    (h : BodyInv vh limit ended g s) : BodyInv vh limit ended g t := by
  have hnorm : t.pathNorm = s.pathNorm := congrArg BodyPart.pathNorm hst.bodyPart
  have hbytes : t.bodyBytes = s.bodyBytes := congrArg BodyPart.bodyBytes hst.bodyPart
  cases ended with
  | false => exact ⟨h.1, hst.currentMaxBodyBytes.trans h.2⟩
  | true =>
    rcases h with h | h | ⟨hcurrent, hcounted, hwithin⟩
    · exact .inl (hst.unlimited h)
    · exact .inr (.inl (hst.rejected h))
    · refine .inr (.inr ⟨?_, hbytes.trans hcounted, ?_⟩)
      · rw [hst.currentMaxBodyBytes, hnorm, hcurrent]
      · rw [hnorm]
        exact hwithin

lemma BodyInv.headersComplete (hpos : ∀ norm, 0 < bodyLimit vh limit norm) {s : Http1State}
    (h : BodyInv vh limit false {} s) (method : LlhttpMethod) (keepAlive : Bool) :
    BodyInv vh limit true (BodyLedger.note vh {} s (.headersComplete method keepAlive))
      (onHeadersComplete vh s method keepAlive) := by
  have hverdict := (onHeadersComplete_verdict vh s method keepAlive).2
  rw [h.2] at hverdict
  dsimp only [BodyLedger.note]
  generalize onHeadersComplete vh s method keepAlive = r at *
  rcases hverdict with hrefused | ⟨hmax, hbytes, hbig⟩
  · rcases hrefused with h | h | h | h
    · exact .inr (.inl (.inl h))
    · exact .inr (.inl (.inr (.inl h)))
    · exact .inl (.inl h)
    · exact .inl (.inr h)
  · by_cases hfit : r.framing.clCount = 1 ∧ r.maxBodyBytes < r.framing.clValue
    · exact .inr (.inl (.inr (.inr (hbig hfit.1 hfit.2))))
    · have hcurrent : h1CurrentMaxBodyBytes r = bodyLimit vh limit r.pathNorm := by
        unfold h1CurrentMaxBodyBytes
        rw [hmax, if_pos (hpos _)]
      refine .inr (.inr ⟨hcurrent, hbytes, ⟨fun n hn => ?_, Nat.zero_le _⟩⟩)
      dsimp only at hn
      split_ifs at hn with hcl
      rw [← Option.some.inj hn, ← hmax]
      exact not_lt.mp fun hlt => hfit ⟨hcl, hlt⟩

lemma BodyInv.body {g : BodyLedger} {s : Http1State} (h : BodyInv vh limit true g s) (piece : Bytes) :
    BodyInv vh limit true (g.note vh s (.body piece)) (onBody s piece).1 := by
  rcases h with h | h | ⟨hcurrent, hcounted, hwithin⟩
  · left
    unfold onBody
    dsimp only
    split_ifs <;> exact h
  · exact .inr (.inl (h.onBody piece))
  · unfold onBody
    dsimp only
    split_ifs with hnil hover hbig
    · rw [hnil]
      exact .inr (.inr ⟨hcurrent, hcounted, hwithin⟩)
    · exact .inr (.inl (.inr (.inr rfl)))
    · exact .inr (.inl (.inr (.inr rfl)))
    · have hle : s.bodyBytes + piece.length ≤ bodyLimit vh limit s.pathNorm := by
        rw [← hcurrent]
        exact not_lt.mp hbig
      refine .inr (.inr ⟨hcurrent, congrArg (· + piece.length) hcounted, hwithin.announced, ?_⟩)
      rw [hcounted] at hle
      exact hle

lemma Callback.run_bodyInv (hpos : ∀ norm, 0 < bodyLimit vh limit norm) {ended after : Bool}
    {g : BodyLedger} {s : Http1State} {cb : Callback} (hphase : cb.phase ended = some after)
    (h : BodyInv vh limit ended g s) : BodyInv vh limit after (g.note vh s cb) (cb.run vh s).1 := by
  cases cb with
  | messageBegin =>
    cases hphase
    exact h
  | url piece =>
    cases hphase
    exact h.of_kept (onUrl_kept s piece)
  | headerField piece =>
    cases hphase
    exact h.of_kept (onHeaderField_kept s piece)
  | headerValue piece =>
    cases hphase
    exact h.of_kept (onHeaderValue_kept s piece)
  | headersComplete method keepAlive =>
    cases ended with
    | true => exact absurd hphase (by simp [Callback.phase])
    | false =>
      cases hphase
      obtain ⟨rfl, hlimit⟩ := h
      exact BodyInv.headersComplete hpos ⟨rfl, hlimit⟩ method keepAlive
  | body piece =>
    cases ended with
    | false => exact absurd hphase (by simp [Callback.phase])
    | true =>
      cases hphase
      exact h.body piece
  | messageComplete =>
    cases ended with
    | false => exact absurd hphase (by simp [Callback.phase])
    | true =>
      cases hphase
      rcases h with h | h | ⟨hcurrent, hcounted, hwithin⟩
      · exact .inl h
      · exact .inr (.inl h)
      · exact .inr (.inr ⟨hcurrent, hcounted, hwithin⟩)

end Steps

/-! ## The limit is enforced -/

/-- A request whose body has got beyond its limit was rejected behind the end of its header section. -/
lemma rejected_of_beyond (P : L.Phases) {vh : Option Vhost} {limit : ℕ} {r : Conn L × BodyLedger}
    (h : BodyInv vh limit (P.ended r.1.parser) r.2 r.1.h1)
    (hmethod : r.1.h1.method = .get ∨ r.1.h1.method = .head) (hmem : r.1.h1.internalError = false)
    (hbeyond : ¬ r.2.Within (bodyLimit vh limit r.1.h1.pathNorm)) :
    P.ended r.1.parser = true ∧ r.1.h1.Rejected := by
  cases hended : P.ended r.1.parser with
  | false =>
    rw [hended] at h
    refine absurd ?_ hbeyond
    rw [h.1]
    exact ⟨nofun, Nat.zero_le _⟩
  | true =>
    rw [hended] at h
    rcases h with (h | h) | h | h
    · exact absurd h (by rw [hmem]; decide)
    · exact absurd hmethod (not_or.mpr h)
    · exact ⟨rfl, h⟩
    · exact absurd h.within hbeyond

/-- A virtual host with a default limit and a route with a smaller one. -/
def limitFile : List IniItem :=
  [fileKey 1 "globals" "default_max_body_bytes" "5",
   fileKey 3 "vhost a" "max_header_fields" "7",
   fileKey 5 "route r" "vhost" "a",
   fileKey 6 "route r" "path_prefix" "/small",
   fileKey 7 "route r" "max_body_bytes" "2"]

/-- The rule of the route of `limitFile`. -/
def smallRoute : RoutePolicyRule :=
  { pathPrefix := ascii "/small", maxBodyBytes := some 2 }

/-- The virtual host of `limitFile`. -/
def limitVhost : VhostCfg :=
  { newVhost {} (ascii "a") with maxHeaderFields := 7, routeRules := [smallRoute] }

/-- The configuration of `limitFile`. -/
def limitConfig : Config where
  g := { defaultMaxBodyBytes := some 5 }
  vhosts := [limitVhost]
  routeRules := [smallRoute]

lemma limitFile_loaded : configLoadIni plainEnv (some limitFile) = .ok limitConfig := by
  decide

/-- A new connection on that virtual host, with recorded results of llhttp and the outcomes of its
allocations. -/
def limitConn (results : List (List Callback × LlhttpErrno)) (arena : List Bool) :
    Conn (replay results) :=
  connInit { sampleWorker (replay results) with maxBodyBytes := connDefaultMaxBodyBytes limitConfig.g }
    (some limitVhost.toVhost) false arena

/-- The request and the record of its body after some chunks. -/
def limitRun (results : List (List Callback × LlhttpErrno)) (arena : List Bool) (chunks : List String) :
    Conn (replay results) × BodyLedger :=
  (chunks.map fun chunk => .feed (ascii chunk)).foldl
    (feedStep (BodyLedger.note (limitConn results arena).vhost)) (limitConn results arena, {})

/-- A chunked body for the route; `on_body` stops llhttp. -/
def chunkedResults : List (List Callback × LlhttpErrno) :=
  [([.url (ascii "/small/x"), .headerField (ascii "Transfer-Encoding"), .headerValue (ascii "chunked"),
      .headersComplete .get true], .ok),
   ([.body (ascii "abc")], .other)]

def chunkedHead : String := "GET /small/x HTTP/1.1\r\nTransfer-Encoding: chunked\r\n\r\n"

/-- A length beyond the default limit. -/
def sizedResults : List (List Callback × LlhttpErrno) :=
  [([.url (ascii "/x"), .headerField (ascii "Content-Length"), .headerValue (ascii "9"),
      .headersComplete .get true], .ok)]

def sizedHead : String := "GET /x HTTP/1.1\r\nContent-Length: 9\r\n\r\n"

end Lamseryn
