import Lamseryn.Model.Pipeline
import Lamseryn.Model.Respond
import Lamseryn.Properties.Framing
import Lamseryn.Properties.Routing

/-!
# CORS preflight and routes

`request_try_cors_preflight` resolves the effective policy from `path_norm`, and
`on_headers_complete` leaves `path_norm` empty for every method but `GET` and `HEAD`.  A preflight is
therefore answered by the policy of the virtual host alone, whatever rule its target falls under.

`preflight_follows_route_iff` says when this makes no difference: exactly when the overlay of the
matching rule changes nothing that a preflight shows (`SamePreflight`).  That the emitted headers
determine these fields needs the limits of the loader: the values are single lines and the header
block fits its buffer (`CorsPolicy.Fits`).
-/

namespace Lamseryn

open ByteText CText

/-! ## What the loader stores in a CORS policy -/

/-- The limits that every stored CORS policy keeps. -/
structure CorsPolicy.Fits (cors : CorsPolicy) : Prop where
  origin : cors.allowOrigin.length < 256
  methods : cors.allowMethods.length < 128
  headers : cors.allowHeaders.length < 256
  maxAge : cors.maxAgeSeconds < 2 ^ 32
  originLine : 10 ∉ cors.allowOrigin
  methodsLine : 10 ∉ cors.allowMethods
  headersLine : 10 ∉ cors.allowHeaders

lemma CorsPolicy.fits_default : CorsPolicy.Fits {} := by
  constructor <;> simp

lemma parseU32_lt {s : Bytes} {v : ℕ} (h : parseU32 s = some v) : v < 2 ^ 32 := by
  unfold parseU32 at h
  split at h
  · cases h
  · split at h
    · cases h
    · cases h
      omega

lemma CorsPolicy.Fits.setKey {cors cors1 : CorsPolicy} {key : CorsKey} {value : Bytes}
    (hfits : cors.Fits) (hline : 10 ∉ value) (h : cors.setKey key value = some cors1) :
    cors1.Fits := by
  cases key with
  | enabled =>
    obtain ⟨b, -, rfl⟩ := Option.map_eq_some_iff.mp h
    exact { hfits with }
  | allowCredentials =>
    obtain ⟨b, -, rfl⟩ := Option.map_eq_some_iff.mp h
    exact { hfits with }
  | maxAgeSeconds =>
    obtain ⟨v, hv, rfl⟩ := Option.map_eq_some_iff.mp h
    exact { hfits with maxAge := parseU32_lt hv }
  | text field =>
    simp only [CorsPolicy.setKey] at h
    split at h
    · cases h
    · rename_i hlen
      have hlen := not_le.mp (not_or.mp hlen).2
      cases h
      cases field with
      | allowOrigin => exact { hfits with origin := hlen, originLine := hline }
      | allowMethods => exact { hfits with methods := hlen, methodsLine := hline }
      | allowHeaders => exact { hfits with headers := hlen, headersLine := hline }

lemma CorsPolicy.Fits.overlay {cors rule : CorsPolicy} (hcors : cors.Fits) (hrule : rule.Fits) :
    (cors.overlay rule).Fits where
  origin := by
    simp only [CorsPolicy.overlay]
    split
    · exact hrule.origin
    · exact hcors.origin
  methods := by
    simp only [CorsPolicy.overlay]
    split
    · exact hrule.methods
    · exact hcors.methods
  headers := by
    simp only [CorsPolicy.overlay]
    split
    · exact hrule.headers
    · exact hcors.headers
  maxAge := by
    simp only [CorsPolicy.overlay]
    split
    · exact hrule.maxAge
    · exact hcors.maxAge
  originLine := by
    simp only [CorsPolicy.overlay]
    split
    · exact hrule.originLine
    · exact hcors.originLine
  methodsLine := by
    simp only [CorsPolicy.overlay]
    split
    · exact hrule.methodsLine
    · exact hcors.methodsLine
  headersLine := by
    simp only [CorsPolicy.overlay]
    split
    · exact hrule.headersLine
    · exact hcors.headersLine

lemma CorsPolicy.overlay_of_noPolicy (cors : CorsPolicy) {rr : RoutePolicyRule}
    (h : routeHasCorsPolicy rr = false) : cors.overlay rr.cors = cors := by
  simp only [routeHasCorsPolicy, Bool.or_eq_false_iff] at h
  simp [CorsPolicy.overlay, h]

/-! ## Loaded policies -/

lemma RouteCfg.apply_fits {re : RouteCfg} {e : IniEntry} (h : re.rule.cors.Fits) :
    (re.apply e).rule.cors.Fits := by
  unfold RouteCfg.apply
  split
  · exact h
  · rename_i key hkey
    split
    · rename_i re1 hset
      cases key with
      | cors k =>
        simp only [RouteCfg.setKey] at hset
        split at hset
        · cases hset
          exact h
        · rename_i cors1 hcors
          cases hset
          exact h.setKey e.one_line hcors
      | _ =>
        simp only [RouteCfg.setKey] at hset
        split at hset <;> cases hset <;> exact h
    · exact h

/-- The CORS policy of a virtual host while it is parsed: it fits, and it is empty until a value is
taken. -/
def VhostCfg.CorsSound (vh : VhostCfg) : Prop :=
  (vh.cors.getD {}).Fits ∧ (vh.features.cors = false → vh.cors.getD {} = {})

lemma VhostCfg.CorsSound.setKey {vh vh1 : VhostCfg} {ok : Bool} {key : VhostKey} {value : Bytes}
    (hline : 10 ∉ value) (hset : vh.setKey ok key value = .accepted vh1) (h : vh.CorsSound) :
    vh1.CorsSound := by
  rcases VhostCfg.setKey_cases hset with ⟨k, rfl⟩ | ⟨k, rfl⟩ | ⟨-, rfl⟩ | hsame
  · exact h
  · unfold VhostCfg.setCors
    dsimp only
    split
    · exact h
    · rename_i cors1 hcors
      exact ⟨h.1.setKey hline hcors, fun hfalse => by cases hfalse⟩
  · exact h
  · rw [VhostCfg.CorsSound, hsame.cors, hsame.featureCors]
    exact h

/-- The CORS policies of a loaded virtual host. -/
lemma loaded_cors {env : LoadEnv} {file : Option (List IniItem)} {cfg : Config}
    (h : configLoadIni env file = .ok cfg) {vh : VhostCfg} (hvh : vh ∈ cfg.vhosts) :
    (vh.cors.getD {}).Fits ∧ (∀ rr ∈ vh.routeRules, rr.cors.Fits) ∧
      (vh.features.cors = false → vh.cors.getD {} = {} ∧
        ∀ rr ∈ vh.routeRules, routeHasCorsPolicy rr = false) := by
  obtain ⟨items, ctx0, ctx, -, -, hroutes0, hvhosts0, hrun, hloaded⟩ := configLoadIni_ok h
  have hvhosts : ∀ vh ∈ ctx.vhosts, vh.CorsSound := by
    refine hrun.vhosts_rule (P := VhostCfg.CorsSound) ?_ ?_ ?_
    · intro g name
      exact ⟨CorsPolicy.fits_default, fun _ => rfl⟩
    · intro vh ok key value vh1 hline hset hsound
      exact hsound.setKey hline hset
    · simp [hvhosts0]
  have hroutes : ∀ re ∈ ctx.routes, re.rule.cors.Fits := by
    refine hrun.routes_rule (P := fun re => re.rule.cors.Fits) ?_ ?_ ?_
    · intro name n
      exact CorsPolicy.fits_default
    · intro re e hre
      exact RouteCfg.apply_fits hre
    · simp [hroutes0]
  obtain ⟨v, hv⟩ := List.mem_iff_getElem?.mp hvh
  obtain ⟨vh0, hvh0, hparsed⟩ := getElem?_parsed hloaded.parsed hv
  have hrules := congrArg (fun l => l[v]?) hloaded.routeRules
  have hfeature := congrArg (fun l => l[v]?) hloaded.corsFeature
  simp only [List.getElem?_map, hv, List.getElem?_mapIdx, hvh0, Option.map_some,
    Option.some_inj] at hrules hfeature
  have hsound := hvhosts vh0 (List.mem_of_getElem? hvh0)
  -- the rules of the virtual host are rules of its routes
  have hrule : ∀ rr ∈ vh.routeRules, ∃ re ∈ ctx.routes, re.rule = rr ∧
      configFindVhostIndexByName ctx.vhosts re.vhostName = some v := by
    intro rr hrr
    rw [hrules] at hrr
    obtain ⟨i, hi, hri⟩ := List.mem_filterMap.mp hrr
    obtain ⟨re, hre, rfl⟩ := Option.map_eq_some_iff.mp hri
    exact ⟨re, List.mem_of_getElem? hre, rfl, owner_of_tried hi hre⟩
  refine ⟨?_, ?_, ?_⟩
  · rw [cors_eq_of_parsed hparsed]
    exact hsound.1
  · intro rr hrr
    obtain ⟨re, hre, rfl, -⟩ := hrule rr hrr
    exact hroutes re hre
  · intro hfalse
    rw [corsFeature, hfalse, corsFeature] at hfeature
    obtain ⟨hvhFeature, hroute⟩ := Bool.or_eq_false_iff.mp hfeature.symm
    refine ⟨?_, ?_⟩
    · rw [cors_eq_of_parsed hparsed]
      exact hsound.2 hvhFeature
    · intro rr hrr
      obtain ⟨re, hre, rfl, howner⟩ := hrule rr hrr
      have hnone := List.any_eq_false.mp hroute re hre
      simpa [howner] using hnone

/-! ## The header block of a preflight -/

lemma requestHdrAppendAll_eq {cap : ℕ} {buf : Bytes} {texts : List Bytes}
    (hne : ∀ t ∈ texts, t ≠ []) (hfit : buf.length + texts.flatten.length < cap) :
    requestHdrAppendAll cap buf texts = some (buf ++ texts.flatten) := by
  induction texts generalizing buf with
  | nil => simp [requestHdrAppendAll]
  | cons t ts ih =>
    have ht : t ≠ [] := hne t List.mem_cons_self
    rw [List.flatten_cons, List.length_append] at hfit
    have happend : requestHdrAppendf cap buf t = some (buf ++ t) := by
      unfold requestHdrAppendf
      rw [if_neg (by omega), if_neg]
      rintro (h | h)
      · exact ht h
      · omega
    simp only [requestHdrAppendAll, happend]
    rw [ih (fun t ht => hne t (List.mem_cons_of_mem _ ht)) (by rw [List.length_append]; omega)]
    simp

/-- The header names of a CORS policy. -/
def corsHeaderNames : List Bytes :=
  [ascii "Access-Control-Allow-Origin", ascii "Vary", ascii "Access-Control-Allow-Methods",
   ascii "Access-Control-Allow-Headers", ascii "Access-Control-Allow-Credentials",
   ascii "Access-Control-Max-Age"]

lemma corsHeaderNames_plain : ∀ n ∈ corsHeaderNames, 58 ∉ n ∧ 10 ∉ n := by
  decide +kernel

/-- The headers of a policy, one by one. -/
lemma CorsPolicy.mem_headers {cors : CorsPolicy} {n v : Bytes} :
    (n, v) ∈ cors.headers ↔
      (n = ascii "Access-Control-Allow-Origin" ∧ v = cors.allowOrigin ∧ cors.allowOrigin ≠ []) ∨
      (n = ascii "Vary" ∧ v = ascii "Origin" ∧ cors.allowOrigin ≠ [] ∧
        cors.allowOrigin ≠ ascii "*") ∨
      (n = ascii "Access-Control-Allow-Methods" ∧ v = cors.allowMethods ∧ cors.allowMethods ≠ []) ∨
      (n = ascii "Access-Control-Allow-Headers" ∧ v = cors.allowHeaders ∧ cors.allowHeaders ≠ []) ∨
      (n = ascii "Access-Control-Allow-Credentials" ∧ v = ascii "true" ∧
        cors.allowCredentials = true) ∨
      (n = ascii "Access-Control-Max-Age" ∧ v = numeral cors.maxAgeSeconds ∧
        cors.maxAgeSecondsSet = true ∧ 0 < cors.maxAgeSeconds) := by
  have hmem : ∀ (c : Prop) [Decidable c] (x : Bytes × Bytes),
      (n, v) ∈ (if c then [] else [x]) ↔ (n = x.1 ∧ v = x.2 ∧ ¬ c) := by
    intro c _ x
    by_cases hc : c <;> simp [hc, Prod.ext_iff]
  have hmem' : ∀ (c : Prop) [Decidable c] (x : Bytes × Bytes),
      (n, v) ∈ (if c then [x] else []) ↔ (n = x.1 ∧ v = x.2 ∧ c) := by
    intro c _ x
    by_cases hc : c <;> simp [hc, Prod.ext_iff]
  have horigin : (n, v) ∈ (if cors.allowOrigin = [] then []
      else (ascii "Access-Control-Allow-Origin", cors.allowOrigin) ::
        if cors.allowOrigin = ascii "*" then [] else [(ascii "Vary", ascii "Origin")]) ↔
      (n = ascii "Access-Control-Allow-Origin" ∧ v = cors.allowOrigin ∧ cors.allowOrigin ≠ []) ∨
      (n = ascii "Vary" ∧ v = ascii "Origin" ∧ cors.allowOrigin ≠ [] ∧
        cors.allowOrigin ≠ ascii "*") := by
    by_cases hempty : cors.allowOrigin = []
    · simp [hempty]
    · rw [if_neg hempty, List.mem_cons, hmem, Prod.ext_iff]
      simp [hempty]
  unfold CorsPolicy.headers
  rw [List.mem_append, List.mem_append, List.mem_append, List.mem_append, horigin, hmem, hmem,
    hmem', hmem']
  simp only [or_assoc, ne_eq]

lemma CorsPolicy.headers_names {cors : CorsPolicy} {h : Bytes × Bytes} (hh : h ∈ cors.headers) :
    h.1 ∈ corsHeaderNames := by
  obtain ⟨n, v⟩ := h
  rcases CorsPolicy.mem_headers.mp hh with h | h | h | h | h | h <;> simp [corsHeaderNames, h.1]

lemma CorsPolicy.Fits.headers_line {cors : CorsPolicy} (hfits : cors.Fits) {h : Bytes × Bytes}
    (hh : h ∈ cors.headers) : IsLine (headerLine h.1 h.2) := by
  obtain ⟨n, v⟩ := h
  have hname : 10 ∉ n := (corsHeaderNames_plain n (CorsPolicy.headers_names hh)).2
  have hvalue : 10 ∉ v := by
    rcases CorsPolicy.mem_headers.mp hh with h | h | h | h | h | h
    · exact h.2.1 ▸ hfits.originLine
    · rw [h.2.1]
      decide
    · exact h.2.1 ▸ hfits.methodsLine
    · exact h.2.1 ▸ hfits.headersLine
    · rw [h.2.1]
      decide
    · rw [h.2.1]
      intro hmem
      have hdigit := isDigit_of_mem_numeral hmem
      revert hdigit
      decide
  refine ⟨n ++ ascii ": " ++ v ++ [13], ?_, ?_⟩
  · simp only [List.mem_append, not_or]
    exact ⟨⟨⟨hname, by decide⟩, hvalue⟩, by decide⟩
  · simp only [headerLine, List.append_assoc]
    rfl

lemma headerLine_injective {n n' v v' : Bytes} (hn : 58 ∉ n) (hn' : 58 ∉ n')
    (h : headerLine n v = headerLine n' v') : n = n' ∧ v = v' := by
  have hsplit : ∀ a b : Bytes, headerLine a b = a ++ 58 :: (32 :: b ++ ascii "\r\n") := by
    intro a b
    simp only [headerLine, List.append_assoc]
    rfl
  rw [hsplit, hsplit] at h
  obtain ⟨rfl, hrest⟩ := append_cons_injective hn hn' h
  exact ⟨rfl, List.cons_injective (List.append_cancel_right hrest)⟩

lemma eq_of_map_eq {α β : Type*} {f : α → β} {l l' : List α}
    (hinj : ∀ x ∈ l, ∀ y ∈ l', f x = f y → x = y) (h : l.map f = l'.map f) : l = l' := by
  induction l generalizing l' with
  | nil => exact (List.map_eq_nil_iff.mp h.symm).symm
  | cons x l ih =>
    cases l' with
    | nil => cases h
    | cons y l' =>
      obtain ⟨hxy, htail⟩ := List.cons_eq_cons.mp h
      rw [hinj x List.mem_cons_self y List.mem_cons_self hxy,
        ih (fun x hx y hy => hinj x (List.mem_cons_of_mem _ hx) y (List.mem_cons_of_mem _ hy)) htail]

lemma CorsPolicy.headers_injective {a b : CorsPolicy} (ha : a.Fits) (hb : b.Fits)
    (h : (a.headers.map fun h => headerLine h.1 h.2).flatten
      = (b.headers.map fun h => headerLine h.1 h.2).flatten) : a.headers = b.headers := by
  have hlines : ∀ c : CorsPolicy, c.Fits →
      ∀ l ∈ c.headers.map (fun h => headerLine h.1 h.2), IsLine l := by
    intro c hc l hl
    obtain ⟨x, hx, rfl⟩ := List.mem_map.mp hl
    exact hc.headers_line hx
  apply eq_of_map_eq _ (flatten_injective_of_isLine (hlines a ha) (hlines b hb) h)
  intro x hx y hy hxy
  have hpx := (corsHeaderNames_plain x.1 (CorsPolicy.headers_names hx)).1
  have hpy := (corsHeaderNames_plain y.1 (CorsPolicy.headers_names hy)).1
  exact Prod.ext_iff.mpr (headerLine_injective hpx hpy hxy)

/-! ## What a preflight shows of a policy -/

/-- The age that a preflight announces; zero if it announces none. -/
def CorsPolicy.shownMaxAge (cors : CorsPolicy) : ℕ :=
  if cors.maxAgeSecondsSet then cors.maxAgeSeconds else 0

/-- Two policies that a preflight does not tell apart. -/
def SamePreflight (a b : CorsPolicy) : Prop :=
  a.enabled = b.enabled ∧
    (a.enabled = true →
      a.allowOrigin = b.allowOrigin ∧
        (a.allowOrigin ≠ [] →
          a.allowMethods = b.allowMethods ∧ a.allowHeaders = b.allowHeaders ∧
            a.allowCredentials = b.allowCredentials ∧ a.shownMaxAge = b.shownMaxAge))

lemma mem_headers_origin {cors : CorsPolicy} {v : Bytes} :
    (ascii "Access-Control-Allow-Origin", v) ∈ cors.headers ↔
      v = cors.allowOrigin ∧ cors.allowOrigin ≠ [] := by
  simp +decide [CorsPolicy.mem_headers]

lemma mem_headers_methods {cors : CorsPolicy} {v : Bytes} :
    (ascii "Access-Control-Allow-Methods", v) ∈ cors.headers ↔
      v = cors.allowMethods ∧ cors.allowMethods ≠ [] := by
  simp +decide [CorsPolicy.mem_headers]

lemma mem_headers_headers {cors : CorsPolicy} {v : Bytes} :
    (ascii "Access-Control-Allow-Headers", v) ∈ cors.headers ↔
      v = cors.allowHeaders ∧ cors.allowHeaders ≠ [] := by
  simp +decide [CorsPolicy.mem_headers]

lemma mem_headers_credentials {cors : CorsPolicy} {v : Bytes} :
    (ascii "Access-Control-Allow-Credentials", v) ∈ cors.headers ↔
      v = ascii "true" ∧ cors.allowCredentials = true := by
  simp +decide [CorsPolicy.mem_headers]

lemma mem_headers_maxAge {cors : CorsPolicy} {v : Bytes} :
    (ascii "Access-Control-Max-Age", v) ∈ cors.headers ↔
      v = numeral cors.shownMaxAge ∧ 0 < cors.shownMaxAge := by
  unfold CorsPolicy.shownMaxAge
  cases hset : cors.maxAgeSecondsSet <;> simp +decide [CorsPolicy.mem_headers, hset]

lemma eq_of_shown_iff {x y : Bytes} (h : ∀ v, (v = x ∧ x ≠ []) ↔ (v = y ∧ y ≠ [])) : x = y := by
  by_cases hx : x = []
  · by_contra hne
    have hy : y ≠ [] := fun hy => hne (hx.trans hy.symm)
    exact hne ((h y).mpr ⟨rfl, hy⟩).1.symm
  · exact ((h x).mp ⟨rfl, hx⟩).1

/-- The headers of a policy are the fields that a preflight shows. -/
lemma CorsPolicy.headers_eq_iff {a b : CorsPolicy} :
    a.headers = b.headers ↔
      a.allowOrigin = b.allowOrigin ∧ a.allowMethods = b.allowMethods ∧
        a.allowHeaders = b.allowHeaders ∧ a.allowCredentials = b.allowCredentials ∧
        a.shownMaxAge = b.shownMaxAge := by
  constructor
  · intro h
    have hmem : ∀ n v, (n, v) ∈ a.headers ↔ (n, v) ∈ b.headers := by
      intro n v
      rw [h]
    refine ⟨eq_of_shown_iff fun v => ?_, eq_of_shown_iff fun v => ?_, eq_of_shown_iff fun v => ?_,
      ?_, ?_⟩
    · rw [← mem_headers_origin, hmem, mem_headers_origin]
    · rw [← mem_headers_methods, hmem, mem_headers_methods]
    · rw [← mem_headers_headers, hmem, mem_headers_headers]
    · have hcred := hmem (ascii "Access-Control-Allow-Credentials") (ascii "true")
      rw [mem_headers_credentials, mem_headers_credentials] at hcred
      simpa using hcred
    · have hage : ∀ v, (v = numeral a.shownMaxAge ∧ 0 < a.shownMaxAge) ↔
          (v = numeral b.shownMaxAge ∧ 0 < b.shownMaxAge) := by
        intro v
        rw [← mem_headers_maxAge, hmem, mem_headers_maxAge]
      rcases Nat.eq_zero_or_pos a.shownMaxAge with hzero | hpos
      · by_contra hne
        have hpos : 0 < b.shownMaxAge := by omega
        exact absurd ((hage _).mpr ⟨rfl, hpos⟩).2 (by omega)
      · exact numeral_injective ((hage _).mp ⟨rfl, hpos⟩).1
  · rintro ⟨hO, hM, hH, hC, hA⟩
    have hage : ∀ c : CorsPolicy,
        (if c.maxAgeSecondsSet ∧ 0 < c.maxAgeSeconds then
          [(ascii "Access-Control-Max-Age", numeral c.maxAgeSeconds)] else [])
        = if 0 < c.shownMaxAge then [(ascii "Access-Control-Max-Age", numeral c.shownMaxAge)]
          else [] := by
      intro c
      unfold CorsPolicy.shownMaxAge
      cases c.maxAgeSecondsSet <;> simp
    unfold CorsPolicy.headers
    rw [hage, hage, hO, hM, hH, hC, hA]

/-! ## The answer to a preflight -/

/-- The lines of a policy within the limits fit the buffer. -/
lemma CorsPolicy.Fits.headers_length {cors : CorsPolicy} (hfits : cors.Fits) :
    (cors.headers.map fun h => headerLine h.1 h.2).flatten.length < policyExtraMax := by
  have hblock : ∀ (c : Prop) [Decidable c] (n v : Bytes),
      ((if c then [] else [(n, v)]).map fun h => headerLine h.1 h.2).flatten.length
        ≤ n.length + v.length + 4 := by
    intro c _ n v
    by_cases hc : c <;> simp [hc, headerLine_length]
  have hblock' : ∀ (c : Prop) [Decidable c] (n v : Bytes),
      ((if c then [(n, v)] else []).map fun h => headerLine h.1 h.2).flatten.length
        ≤ n.length + v.length + 4 := by
    intro c _ n v
    by_cases hc : c <;> simp [hc, headerLine_length]
  have horigin : ((if cors.allowOrigin = [] then []
      else (ascii "Access-Control-Allow-Origin", cors.allowOrigin) ::
        if cors.allowOrigin = ascii "*" then [] else [(ascii "Vary", ascii "Origin")]).map
          fun h => headerLine h.1 h.2).flatten.length ≤ 27 + cors.allowOrigin.length + 4 + 14 := by
    by_cases hempty : cors.allowOrigin = []
    · simp [hempty]
    · rw [if_neg hempty, List.map_cons, List.flatten_cons, List.length_append, headerLine_length]
      dsimp only
      have hvary := hblock (cors.allowOrigin = ascii "*") (ascii "Vary") (ascii "Origin")
      have h1 : (ascii "Access-Control-Allow-Origin").length = 27 := by decide
      have h2 : (ascii "Vary").length = 4 := by decide
      have h3 : (ascii "Origin").length = 6 := by decide
      omega
  have hM := hblock (cors.allowMethods = []) (ascii "Access-Control-Allow-Methods")
    cors.allowMethods
  have hH := hblock (cors.allowHeaders = []) (ascii "Access-Control-Allow-Headers")
    cors.allowHeaders
  have hC := hblock' (cors.allowCredentials = true) (ascii "Access-Control-Allow-Credentials")
    (ascii "true")
  have hA := hblock' (cors.maxAgeSecondsSet = true ∧ 0 < cors.maxAgeSeconds)
    (ascii "Access-Control-Max-Age") (numeral cors.maxAgeSeconds)
  have hage : (numeral cors.maxAgeSeconds).length ≤ 10 :=
    numeral_length_le (by norm_num) (hfits.maxAge.trans (by norm_num))
  have h1 : (ascii "Access-Control-Allow-Methods").length = 28 := by decide
  have h2 : (ascii "Access-Control-Allow-Headers").length = 28 := by decide
  have h3 : (ascii "Access-Control-Allow-Credentials").length = 32 := by decide
  have h4 : (ascii "true").length = 4 := by decide
  have h5 : (ascii "Access-Control-Max-Age").length = 22 := by decide
  have := hfits.origin
  have := hfits.methods
  have := hfits.headers
  unfold CorsPolicy.headers policyExtraMax
  simp only [List.map_append, List.flatten_append, List.length_append]
  omega

lemma requestBuildCorsPreflightHeaders_eq {cors : CorsPolicy} (hfits : cors.Fits)
    (henabled : cors.enabled = true) (horigin : cors.allowOrigin ≠ []) :
    requestBuildCorsPreflightHeaders cors
      = some (cors.headers.map fun h => headerLine h.1 h.2).flatten := by
  unfold requestBuildCorsPreflightHeaders
  rw [if_neg (by simp [henabled, horigin]), requestHdrAppendAll_eq]
  · rfl
  · intro t ht
    obtain ⟨h, -, rfl⟩ := List.mem_map.mp ht
    intro hnil
    have hlen := headerLine_length h.1 h.2
    rw [hnil] at hlen
    simp at hlen
  · simpa using hfits.headers_length

/-- The response of a preflight, as a function of its extra headers. -/
def preflightBytes (date extra : Bytes) : Bytes :=
  (preflightSpec extra).block date (contentLengthLine 0)

lemma txBuildHeaders_preflight (date extra : Bytes) (mallocOk : Bool) :
    txBuildHeaders date mallocOk (preflightSpec extra) []
      = if mallocOk then some (preflightBytes date extra) else none := by
  have hcontent : (preflightSpec extra).contentLines = some (contentLengthLine 0) := by
    have hlen : ¬ 128 ≤ (contentLengthLine 0).length := by decide
    simp [HeaderSpec.contentLines, preflightSpec, hlen]
  cases mallocOk <;> simp [txBuildHeaders, hcontent, preflightBytes]

lemma preflightBytes_injective (date : Bytes) : Function.Injective (preflightBytes date) := by
  intro x y h
  simp only [preflightBytes, HeaderSpec.block, preflightSpec] at h
  exact List.append_cancel_left (List.append_cancel_right h)

/-- The answer to a request with the two preflight headers, by a policy within the limits. -/
lemma corsPreflight_eq {cors : CorsPolicy} (hfits : cors.Fits) {h1 : Http1State}
    (horigin : hasHeader h1 .origin = true)
    (hmethod : hasHeader h1 .accessControlRequestMethod = true) (date : Bytes) (mallocOk : Bool) :
    corsPreflight cors date mallocOk h1 =
      if cors.enabled = false then .notPreflight
      else if cors.allowOrigin = [] ∨ mallocOk = false then .failed
      else .answered
        (preflightBytes date (cors.headers.map fun h => headerLine h.1 h.2).flatten) := by
  unfold corsPreflight
  cases henabled : cors.enabled with
  | false => rfl
  | true =>
    simp only [horigin, hmethod, Bool.and_self, Bool.not_true, Bool.false_eq_true, if_false,
      Bool.true_eq_false]
    by_cases hempty : cors.allowOrigin = []
    · have hnone : requestBuildCorsPreflightHeaders cors = none := by
        simp [requestBuildCorsPreflightHeaders, hempty]
      simp [hnone, hempty]
    · rw [requestBuildCorsPreflightHeaders_eq hfits henabled hempty]
      simp only [txBuildHeaders_preflight]
      cases mallocOk <;> simp [hempty]

/-- Two policies within the limits answer alike exactly if a preflight does not tell them apart. -/
lemma corsPreflight_eq_iff {a b : CorsPolicy} (ha : a.Fits) (hb : b.Fits) {h1 : Http1State}
    (horigin : hasHeader h1 .origin = true)
    (hmethod : hasHeader h1 .accessControlRequestMethod = true) (date : Bytes) :
    (∀ mallocOk, corsPreflight a date mallocOk h1 = corsPreflight b date mallocOk h1) ↔
      SamePreflight a b := by
  constructor
  · intro h
    have htrue := h true
    rw [corsPreflight_eq ha horigin hmethod, corsPreflight_eq hb horigin hmethod] at htrue
    unfold SamePreflight
    cases hea : a.enabled <;> cases heb : b.enabled <;>
      simp only [hea, heb, Bool.true_eq_false, if_true, if_false] at htrue
    · simp
    · split at htrue <;> cases htrue
    · split at htrue <;> cases htrue
    · by_cases hoa : a.allowOrigin = [] <;> by_cases hob : b.allowOrigin = []
      · simp [hoa, hob]
      · simp [hoa, hob] at htrue
      · simp [hoa, hob] at htrue
      · simp only [hoa, hob, or_self, if_false, PreflightResult.answered.injEq] at htrue
        have hheaders := CorsPolicy.headers_injective ha hb (preflightBytes_injective date htrue)
        obtain ⟨h1, h2, h3, h4, h5⟩ := CorsPolicy.headers_eq_iff.mp hheaders
        exact ⟨rfl, fun _ => ⟨h1, fun _ => ⟨h2, h3, h4, h5⟩⟩⟩
  · rintro ⟨henabled, hrest⟩ mallocOk
    rw [corsPreflight_eq ha horigin hmethod, corsPreflight_eq hb horigin hmethod, ← henabled]
    cases hea : a.enabled with
    | false => rfl
    | true =>
      obtain ⟨ho, hfields⟩ := hrest hea
      rw [← ho]
      by_cases hempty : a.allowOrigin = []
      · simp [hempty]
      · rw [CorsPolicy.headers_eq_iff.mpr ⟨ho, hfields hempty⟩]

/-! ## The request behind a preflight -/

lemma h1FinalizeInterestedHeader_method (s : Http1State) :
    (h1FinalizeInterestedHeader s).method = s.method := by
  unfold h1FinalizeInterestedHeader
  obtain ⟨n, b, t, h, r, e, k, fr, heq, -⟩ := h1ProcessHeader_cases
    { s with
      finalized := s.finalized ++ [⟨s.acc.hdrName, s.acc.hdrValRaw, s.acc.hdrValRawTruncated⟩] }
  rw [heq]

/-- An accepted request with another method than `GET` and `HEAD` has no normalised path. -/
lemma pathNorm_of_notServed {vh : Option Vhost} {s : Http1State} {method : LlhttpMethod}
    {keepAlive : Bool} (hget : method ≠ .get) (hhead : method ≠ .head)
    (h : (onHeadersComplete vh s method keepAlive).accepted = true) :
    (onHeadersComplete vh s method keepAlive).pathNorm = [] ∧
      (onHeadersComplete vh s method keepAlive).method = method := by
  revert h
  unfold onHeadersComplete
  dsimp only
  generalize hs1 : (if (s.enterComplete method keepAlive).acc.hdrState = .value then
    h1FinalizeInterestedHeader (s.enterComplete method keepAlive)
    else s.enterComplete method keepAlive) = s1
  have hmethod : s1.method = method := by
    rw [← hs1]
    split
    · rw [h1FinalizeInterestedHeader_method]
      rfl
    · rfl
  have hmethod' : s1.clearBody.method = method := hmethod
  unfold h1CompleteFraming
  dsimp only
  split
  · intro h
    simp [Http1State.accepted, Http1State.rejectFraming] at h
  · split
    · intro h
      simp [Http1State.accepted, Http1State.rejectFraming] at h
    · split
      · intro h
        simp [Http1State.accepted, Http1State.rejectFraming] at h
      · split
        · intro h
          simp [Http1State.accepted] at h
        · intro _
          have hother : s1.clearBody.clearPath.method ≠ .get ∧
              s1.clearBody.clearPath.method ≠ .head := by
            show s1.clearBody.method ≠ .get ∧ s1.clearBody.method ≠ .head
            rw [hmethod']
            exact ⟨hget, hhead⟩
          unfold h1CompleteRequest
          dsimp only
          rw [if_pos hother]
          exact ⟨rfl, hmethod'⟩

/-! ## Preflight and route -/

/-- **A preflight follows its route** exactly if the rule that its target falls under changes nothing
of the policy of the virtual host that a preflight shows.

The request is any state before the end of its header section; `GET` is the request that follows the
preflight.  The two preflight headers are there if the virtual host captures them. -/
theorem preflight_follows_route_iff {env : LoadEnv} {file : Option (List IniItem)} {cfg : Config}
    (hload : configLoadIni env file = .ok cfg) {vh : VhostCfg} (hvh : vh ∈ cfg.vhosts)
    {s : Http1State} {kaO kaG : Bool} {rr : RoutePolicyRule} (date : Bytes)
    (haccepted : (onHeadersComplete (some vh.toVhost) s .options kaO).accepted = true)
    (hheaders : vh.features.cors = true →
      hasHeader (onHeadersComplete (some vh.toVhost) s .options kaO) .origin = true ∧
        hasHeader (onHeadersComplete (some vh.toVhost) s .options kaO)
          .accessControlRequestMethod = true)
    (hroute : policySharedResolveRouteRule vh.routeRules
      (onHeadersComplete (some vh.toVhost) s .get kaG).pathNorm = some rr) :
    (∀ mallocOk,
      requestTryCorsPreflight (some vh.toVhost) date mallocOk
          (onHeadersComplete (some vh.toVhost) s .options kaO)
        = corsPreflight
          (policySharedResolveEffectiveCors (onHeadersComplete (some vh.toVhost) s .get kaG)
            vh.toVhost)
          date mallocOk (onHeadersComplete (some vh.toVhost) s .options kaO)) ↔
      SamePreflight (vh.cors.getD {}) ((vh.cors.getD {}).overlay rr.cors) := by
  obtain ⟨hnorm, hmethod⟩ := pathNorm_of_notServed (by decide) (by decide) haccepted
  obtain ⟨hvhFits, hruleFits, hoff⟩ := loaded_cors hload hvh
  have hrr : rr ∈ vh.routeRules := by
    unfold policySharedResolveRouteRule at hroute
    split at hroute
    · cases hroute
    · exact List.mem_of_find?_eq_some hroute
  generalize onHeadersComplete (some vh.toVhost) s .options kaO = sO at *
  have hpreflight : ∀ mallocOk, requestTryCorsPreflight (some vh.toVhost) date mallocOk sO
      = corsPreflight (vh.cors.getD {}) date mallocOk sO := by
    intro mallocOk
    simp [requestTryCorsPreflight, hmethod, policySharedResolveEffectiveCors,
      policySharedResolveRouteRule, hnorm, policySharedResolveEffectiveCorsForRoute]
  have hget : policySharedResolveEffectiveCors (onHeadersComplete (some vh.toVhost) s .get kaG)
      vh.toVhost = (vh.cors.getD {}).overlay rr.cors := by
    rw [policySharedResolveEffectiveCors, hroute]
    rfl
  simp only [hpreflight, hget]
  cases hfeature : vh.features.cors with
  | true =>
    obtain ⟨horigin, hacrm⟩ := hheaders hfeature
    exact corsPreflight_eq_iff hvhFits (hvhFits.overlay (hruleFits rr hrr)) horigin hacrm date
  | false =>
    -- without the feature no policy is configured, and neither side answers
    have hsame := CorsPolicy.overlay_of_noPolicy (vh.cors.getD {}) ((hoff hfeature).2 rr hrr)
    rw [hsame]
    exact ⟨fun _ => ⟨rfl, fun _ => ⟨rfl, fun _ => ⟨rfl, rfl, rfl, rfl⟩⟩⟩, fun _ _ => rfl⟩

/-- The state of a preflight for `target` before the end of its header section. -/
def preflightRequest (vh : Vhost) (target : String) : Http1State :=
  (runCallbacks (some vh) { hdrs := { reqHdrStoreMask := httpHeadersStoreMask vh.features } }
    [.url (ascii target),
     .headerField (ascii "Origin"), .headerValue (ascii "https://app.example"),
     .headerField (ascii "Access-Control-Request-Method"), .headerValue (ascii "GET")]).1

/-- A virtual host with a CORS policy, and a route that leaves it as it is. -/
def sharedCorsFile : List IniItem :=
  [fileKey 1 "vhost site" "cors" "on",
   fileKey 2 "vhost site" "cors_allow_origin" "https://app.example",
   fileKey 4 "route api" "vhost" "site",
   fileKey 5 "route api" "path_prefix" "/api"]

/-- The CORS policy of the examples. -/
def appCors : CorsPolicy :=
  { enabled := true
    enabledSet := true
    allowOrigin := ascii "https://app.example"
    allowOriginSet := true }

/-- The virtual host of `sharedCorsFile` after loading. -/
def sharedCorsVhost : VhostCfg :=
  { newVhost {} (ascii "site") with
    features := { cors := true }
    cors := some appCors
    routeRules := [{ pathPrefix := ascii "/api" }] }

/-- The end of the header section of a request for `target`. -/
def completed (vh : Vhost) (target : String) (method : LlhttpMethod) : Http1State :=
  onHeadersComplete (some vh) (preflightRequest vh target) method false

theorem preflight_follows_route_shared :
    configLoadIni plainEnv (some sharedCorsFile) = .ok
        { vhosts := [sharedCorsVhost], routeRules := [{ pathPrefix := ascii "/api" }] } ∧
      ∀ mallocOk,
        requestTryCorsPreflight (some sharedCorsVhost.toVhost) [] mallocOk
            (completed sharedCorsVhost.toVhost "/api/users" .options)
          = corsPreflight
            (policySharedResolveEffectiveCors (completed sharedCorsVhost.toVhost "/api/users" .get)
              sharedCorsVhost.toVhost)
            [] mallocOk (completed sharedCorsVhost.toVhost "/api/users" .options) := by
  have hload : configLoadIni plainEnv (some sharedCorsFile) = .ok
      { vhosts := [sharedCorsVhost], routeRules := [{ pathPrefix := ascii "/api" }] } := by
    decide +kernel
  have hroute : policySharedResolveRouteRule sharedCorsVhost.routeRules
      (completed sharedCorsVhost.toVhost "/api/users" .get).pathNorm
      = some { pathPrefix := ascii "/api" } := by
    decide +kernel
  refine ⟨hload, ?_⟩
  apply (preflight_follows_route_iff hload List.mem_cons_self [] (by decide +kernel)
    (fun _ => by decide +kernel) hroute).mpr
  exact ⟨rfl, fun _ => ⟨rfl, fun _ => ⟨rfl, rfl, rfl, rfl⟩⟩⟩

/-- A virtual host without a CORS policy, and a route with one. -/
def routeCorsFile : List IniItem :=
  [fileKey 1 "vhost site" "static" "on",
   fileKey 4 "route api" "vhost" "site",
   fileKey 5 "route api" "path_prefix" "/api",
   fileKey 6 "route api" "cors" "on",
   fileKey 7 "route api" "cors_allow_origin" "https://app.example"]

/-- The virtual host of `routeCorsFile` after loading. -/
def routeCorsVhost : VhostCfg :=
  { newVhost {} (ascii "site") with
    features := { static := true, cors := true }
    routeRules := [{ pathPrefix := ascii "/api", cors := appCors }] }

/-- The preflight for a target under the route is not answered, although the policy of the request
that would follow answers it. -/
theorem preflight_ignores_route :
    configLoadIni plainEnv (some routeCorsFile) = .ok
        { vhosts := [routeCorsVhost]
          routeRules := [{ pathPrefix := ascii "/api", cors := appCors }] } ∧
      requestTryCorsPreflight (some routeCorsVhost.toVhost) [] true
        (completed routeCorsVhost.toVhost "/api/users" .options) = .notPreflight ∧
      corsPreflight
          (policySharedResolveEffectiveCors (completed routeCorsVhost.toVhost "/api/users" .get)
            routeCorsVhost.toVhost)
          [] true (completed routeCorsVhost.toVhost "/api/users" .options)
        = .answered (preflightBytes []
          (headerLine (ascii "Access-Control-Allow-Origin") (ascii "https://app.example")
            ++ headerLine (ascii "Vary") (ascii "Origin"))) := by
  decide +kernel

end Lamseryn
