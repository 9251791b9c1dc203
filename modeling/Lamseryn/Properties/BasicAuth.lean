import Lamseryn.Properties.Base64Decode
import Lamseryn.Properties.HeaderList

/-!
# Basic authentication

When `auth_basic_check` lets a request pass: the credentials of its `Authorization` header, read as the
scheme, blanks and a base64 text, against the first entry of the store with their user.  An unknown user
is compared with the first entry of the store as well, which must not let it pass.
-/

namespace Lamseryn

open ByteText CText Base64

/-! ## Comparison -/

lemma foldl_or_eq_zero_iff {f : ℕ → ℕ} (l : List ℕ) (n : ℕ) :
    l.foldl (fun diff i => diff ||| f i) n = 0 ↔ n = 0 ∧ ∀ i ∈ l, f i = 0 := by
  induction l generalizing n with
  | nil => simp
  | cons i l ih => rw [List.foldl_cons, ih, Nat.or_eq_zero_iff, List.forall_mem_cons, and_assoc]

/-- The comparison of two strings is the test for equality: where their lengths differ by a multiple of
`2 ^ 32`, the bytes of the longer one do. -/
lemma authCtStrcmp_eq_zero_iff {a b : Bytes} (ha : (0 : UInt8) ∉ a) (hb : (0 : UInt8) ∉ b) :
    authCtStrcmp a b = 0 ↔ a = b := by
  unfold authCtStrcmp
  rw [foldl_or_eq_zero_iff]
  constructor
  · rintro ⟨-, hbytes⟩
    have hsame : ∀ i, a.getD i 0 = b.getD i 0 := by
      intro i
      rcases Nat.lt_or_ge i (max a.length b.length) with hlt | hge
      · have hzero := hbytes i (List.mem_range.mpr hlt)
        rw [← UInt8.xor_eq_zero_iff, ← UInt8.toNat_inj, hzero]
        rfl
      · rw [List.getD_eq_default _ _ (by omega), List.getD_eq_default _ _ (by omega)]
    have hlen : ∀ {x y : Bytes}, (0 : UInt8) ∉ x → (∀ i, x.getD i 0 = y.getD i 0) →
        x.length ≤ y.length := by
      intro x y hx hxy
      by_contra hlt
      have hlt := not_le.mp hlt
      have hread := hxy y.length
      rw [List.getD_eq_default y _ le_rfl, List.getD_eq_getElem x 0 hlt] at hread
      exact hx (hread ▸ List.getElem_mem hlt)
    have heq : a.length = b.length :=
      le_antisymm (hlen ha hsame) (hlen hb fun i => (hsame i).symm)
    apply List.ext_getElem heq
    intro i hi hi'
    have := hsame i
    rwa [List.getD_eq_getElem a 0 hi, List.getD_eq_getElem b 0 hi'] at this
  · rintro rfl
    simp

/-! ## Credentials -/

/-- The value of an `Authorization` header with the credentials `user` and `pass`: the scheme in any
case, spaces, and a base64 text of the two with a colon between them. -/
def BasicValue (value user pass : Bytes) : Prop :=
  ∃ scheme spaces token dec, value = scheme ++ (spaces ++ token) ∧ lower scheme = ascii "basic" ∧
    spaces ≠ [] ∧ (∀ b ∈ spaces, b = 32) ∧ Reads token dec ∧ (0 : UInt8) ∉ dec ∧
    dec = user ++ 58 :: pass ∧ (58 : UInt8) ∉ user

lemma authSplit_eq_some_iff {dec user pass : Bytes} :
    authSplit dec = some (user, pass) ↔
      (0 : UInt8) ∉ dec ∧ dec = user ++ 58 :: pass ∧ (58 : UInt8) ∉ user := by
  unfold authSplit
  constructor
  · intro h
    split at h
    case isTrue => cases h
    case isFalse hguard =>
      rw [not_or, not_or, not_not] at hguard
      obtain ⟨huser, hpass⟩ := Prod.mk.inj (Option.some.inj h)
      have hnot : (58 : UInt8) ∉ dec.takeWhile (· ≠ 58) := fun hmem => by
        simpa using List.mem_takeWhile_imp hmem
      refine ⟨hguard.2.1, ?_, huser ▸ hnot⟩
      have hcut := List.takeWhile_append_dropWhile (p := fun b : UInt8 => decide (b ≠ 58)) (l := dec)
      cases hdrop : dec.dropWhile (· ≠ 58) with
      | nil =>
        rw [hdrop, List.append_nil] at hcut
        rw [hcut] at hnot
        exact (hnot hguard.2.2).elim
      | cons b rest =>
        have hb : b = 58 := by
          have hhead := List.head?_dropWhile_not (fun b : UInt8 => decide (b ≠ 58)) dec
          rw [hdrop] at hhead
          simpa using hhead
        rw [hdrop, List.tail_cons] at hpass
        rw [hdrop, huser, hpass, hb] at hcut
        exact hcut.symm
  · rintro ⟨hnul, rfl, hcolon⟩
    rw [if_neg (by simp [hnul]), takeWhile_ne_append hcolon]
    have hcut := List.takeWhile_append_dropWhile (p := fun b : UInt8 => decide (b ≠ 58))
      (l := user ++ 58 :: pass)
    rw [takeWhile_ne_append hcolon] at hcut
    rw [List.append_cancel_left hcut, List.tail_cons]

lemma takeWhile_spaces_ne_nil {rest : Bytes} (h : rest[0]? = some 32) :
    rest.takeWhile (· == 32) ≠ [] := by
  cases rest with
  | nil => cases h
  | cons b rest =>
    rw [List.getElem?_cons_zero] at h
    rw [List.takeWhile_cons_of_pos (by simpa using h)]
    exact List.cons_ne_nil _ _

/-- `auth_basic_check` reads the credentials of exactly the values that carry them.  A captured value is
so short that its octets always fit. -/
lemma authParseBasic_eq_some_iff {value user pass : Bytes} (hlen : value.length < reqHdrValueMax) :
    authParseBasic value = some (user, pass) ↔ BasicValue value user pass := by
  unfold authParseBasic
  constructor
  · intro h
    split at h
    case isTrue => cases h
    case isFalse hguard =>
      simp only [not_or, Bool.not_eq_true', Bool.not_eq_false, not_not] at hguard
      obtain ⟨-, hscheme, hspace⟩ := hguard
      dsimp only at h
      split at h
      case isTrue => cases h
      case isFalse =>
        obtain ⟨dec, hdec, hsplit⟩ := Option.bind_eq_some_iff.mp h
        obtain ⟨dec', hreads, hdec'⟩ := reads_of_authBase64Decode hdec
        rw [List.nil_append] at hdec'
        subst hdec'
        refine ⟨value.take 5, (value.drop 5).takeWhile (· == 32), _, dec, ?_, ?_, ?_, ?_, hreads,
          authSplit_eq_some_iff.mp hsplit⟩
        · rw [List.takeWhile_append_dropWhile, List.take_append_drop]
        · exact eq_of_beq hscheme
        · exact takeWhile_spaces_ne_nil (by rwa [List.getElem?_drop])
        · intro b hb
          have hspaceb := List.mem_takeWhile_imp hb
          exact eq_of_beq hspaceb
  · rintro ⟨scheme, spaces, token, dec, rfl, hscheme, hne, hspaces, hreads, hsplit⟩
    have hfive : scheme.length = 5 := by
      rw [← lower_length, hscheme]
      rfl
    have htoken : token ≠ [] := by
      rintro rfl
      cases hreads
      simp at hsplit
    have hspaces' : ∀ b ∈ spaces, (b == 32) = true := fun b hb => beq_iff_eq.mpr (hspaces b hb)
    have hdrop : ((scheme ++ (spaces ++ token)).drop 5).dropWhile (· == 32) = token := by
      rw [← hfive, List.drop_left, List.dropWhile_append_of_pos hspaces']
      cases token with
      | nil => rfl
      | cons c token =>
        apply List.dropWhile_cons_of_neg
        intro hc
        have hmem := hreads.head_mem
        rw [eq_of_beq hc] at hmem
        exact absurd hmem (by decide)
    obtain ⟨first, spaces, rfl⟩ := List.exists_cons_of_ne_nil hne
    have hspace : (scheme ++ (first :: spaces ++ token))[5]? = some 32 := by
      rw [← hfive, List.getElem?_append_right le_rfl, Nat.sub_self, hspaces first List.mem_cons_self]
      rfl
    have hbasic : strncaseEq 5 (scheme ++ (first :: spaces ++ token)) (ascii "Basic") = true := by
      rw [strncaseEq, ← hfive, List.take_left, hscheme, hfive]
      decide
    have hlong : ¬ (scheme ++ (first :: spaces ++ token)).length < 6 := by
      simp only [List.length_append, List.length_cons]
      omega
    have hroom : ([] : Bytes).length + dec.length ≤ authDecodedMax := by
      have hle := hreads.length_le
      simp only [List.length_append, List.length_cons, reqHdrValueMax] at hlen
      rw [List.length_nil, authDecodedMax]
      omega
    have hguard : ¬ ((scheme ++ (first :: spaces ++ token)).length < 6 ∨
        (!strncaseEq 5 (scheme ++ (first :: spaces ++ token)) (ascii "Basic")) = true ∨
          (scheme ++ (first :: spaces ++ token))[5]? ≠ some 32) := by
      rintro (h | h | h)
      · exact hlong h
      · rw [hbasic] at h
        exact Bool.false_ne_true h
      · exact h hspace
    rw [if_neg hguard, hdrop]
    dsimp only
    rw [if_neg htoken, authBase64Decode_of_reads hreads hroom, List.nil_append, Option.bind_some]
    exact authSplit_eq_some_iff.mpr hsplit

/-! ## The decision -/

/-- The password is accepted for a stored hash: `crypt_r` gives the hash back.  Results that begin with
an asterisk are failures of `crypt_r`. -/
lemma authVerifyPassword_iff {crypt : Bytes → Bytes → Option Bytes} {pass hash : Bytes}
    (hcrypt : ∀ r, crypt pass hash = some r → (0 : UInt8) ∉ r) (hhash : (0 : UInt8) ∉ hash) :
    authVerifyPassword crypt pass hash = true ↔
      crypt pass hash = some hash ∧ hash.head? ≠ some 42 := by
  unfold authVerifyPassword
  cases hres : crypt pass hash with
  | none => simp
  | some r =>
    rw [Bool.and_eq_true, decide_eq_true_iff, beq_iff_eq,
      authCtStrcmp_eq_zero_iff (hcrypt r hres) hhash, Option.some_inj]
    constructor
    · rintro ⟨hstar, rfl⟩
      exact ⟨rfl, hstar⟩
    · rintro ⟨rfl, hstar⟩
      exact ⟨hstar, rfl⟩

/-- The values of the captured fields fit their buffers. -/
def CapturedValues (hdrs : List ReqHdrEntry) : Prop :=
  ∀ e ∈ hdrs, e.value.length < reqHdrValueMax

lemma h1CaptureHeader_capturedValues {s : Http1State} (h : CapturedValues s.hdrs.reqHdrs) :
    CapturedValues (h1CaptureHeader s).hdrs.reqHdrs := by
  unfold h1CaptureHeader
  split
  case h_1 => exact h
  case h_2 id _ =>
    obtain ⟨l, cap, r, e, k, hstore, hl⟩ := h1StoreHeader_cases s id
    rw [hstore]
    show CapturedValues l
    obtain rfl | ⟨entry, hentry, rfl⟩ := hl
    · exact h
    · intro field hfield
      obtain hold | hnew := List.mem_append.mp hfield
      · exact h field hold
      · exact List.mem_singleton.mp hnew ▸ hentry

/-- The request authenticates as an entry of the store: its first `Authorization` field is whole and
carries credentials, the entry is the first one with their user, and `crypt_r` gives its hash back for
their password. -/
def Authenticates (crypt : Bytes → Bytes → Option Bytes) (store : List AuthEntry)
    (hdrs : List ReqHdrEntry) (entry : AuthEntry) : Prop :=
  ∃ field user pass,
    hdrs.find? (fun e => e.id == .authorization) = some field ∧ field.valueTruncated = false ∧
    BasicValue field.value user pass ∧ store.find? (fun e => e.user == user) = some entry ∧
    crypt pass entry.hash = some entry.hash

lemma authCredentials_eq_some_iff {hdrs : List ReqHdrEntry} {user pass : Bytes}
    (hvalues : CapturedValues hdrs) :
    authCredentials hdrs = some (user, pass) ↔ ∃ field,
      hdrs.find? (fun e => e.id == .authorization) = some field ∧ field.valueTruncated = false ∧
      BasicValue field.value user pass := by
  unfold authCredentials
  cases hfield : hdrs.find? (fun e => e.id == .authorization) with
  | none => simp
  | some field =>
    have hlen := hvalues field (List.mem_of_find?_eq_some hfield)
    cases htrunc : field.valueTruncated with
    | true => simp [htrunc]
    | false => simp [htrunc, authParseBasic_eq_some_iff hlen]

/-- The lookup accepts a known user only, whichever hash stands in for an unknown one. -/
lemma authAccepts_iff_lookup {crypt : Bytes → Bytes → Option Bytes} {store : List AuthEntry}
    {hdrs : List ReqHdrEntry} :
    authAccepts crypt store hdrs = true ↔ ∃ user pass entry,
      authCredentials hdrs = some (user, pass) ∧ store.find? (fun e => e.user == user) = some entry ∧
      authVerifyPassword crypt pass entry.hash = true := by
  unfold authAccepts
  rcases authCredentials hdrs with _ | ⟨user, pass⟩
  · simp
  · cases store with
    | nil => simp
    | cons first rest =>
      dsimp only
      cases hfind : (first :: rest).find? (fun e => e.user == user) with
      | none =>
        rw [Option.isSome_none, Bool.and_false]
        constructor
        · intro h
          exact (Bool.false_ne_true h).elim
        · rintro ⟨_, _, entry, ⟨⟩, hfound, -⟩
          rw [hfind] at hfound
          cases hfound
      | some entry =>
        rw [Option.getD_some, Option.isSome_some, Bool.and_true]
        constructor
        · intro h
          exact ⟨user, pass, entry, rfl, hfind, h⟩
        · rintro ⟨_, _, found, ⟨⟩, hfound, hverify⟩
          rw [hfind, Option.some_inj] at hfound
          exact hfound ▸ hverify

lemma authAccepts_iff {crypt : Bytes → Bytes → Option Bytes} {store : List AuthEntry}
    {hdrs : List ReqHdrEntry} (hvalues : CapturedValues hdrs)
    (hcrypt : ∀ pass hash r, crypt pass hash = some r → (0 : UInt8) ∉ r)
    (hstore : ∀ e ∈ store, (0 : UInt8) ∉ e.hash) :
    authAccepts crypt store hdrs = true ↔
      ∃ entry, Authenticates crypt store hdrs entry ∧ entry.hash.head? ≠ some 42 := by
  rw [authAccepts_iff_lookup]
  constructor
  · rintro ⟨user, pass, entry, hcred, hfind, hverify⟩
    obtain ⟨field, hfield, htrunc, hvalue⟩ := (authCredentials_eq_some_iff hvalues).mp hcred
    have hhash := hstore entry (List.mem_of_find?_eq_some hfind)
    obtain ⟨heq, hstar⟩ := (authVerifyPassword_iff (hcrypt pass entry.hash) hhash).mp hverify
    exact ⟨entry, ⟨field, user, pass, hfield, htrunc, hvalue, hfind, heq⟩, hstar⟩
  · rintro ⟨entry, ⟨field, user, pass, hfield, htrunc, hvalue, hfind, heq⟩, hstar⟩
    have hhash := hstore entry (List.mem_of_find?_eq_some hfind)
    exact ⟨user, pass, entry, (authCredentials_eq_some_iff hvalues).mpr ⟨field, hfield, htrunc, hvalue⟩,
      hfind, (authVerifyPassword_iff (hcrypt pass entry.hash) hhash).mpr ⟨heq, hstar⟩⟩

lemma authDeny_ne_passed (date : Bytes) (mallocOk : Bool) (h1 : Http1State) (vh : Vhost) :
    authDeny date mallocOk h1 vh ≠ .passed := by
  unfold authDeny
  split
  · exact AuthResult.noConfusion
  · split
    · exact AuthResult.noConfusion
    · exact AuthResult.noConfusion

/-- `auth_basic_check` lets exactly the requests pass that authenticate as an entry whose hash does not
begin with an asterisk; all others are answered with the 401 or fail.  The hypotheses say that the
captured values fit their buffers and that the hashes are C strings. -/
theorem authBasicCheck_passed_iff (crypt : Bytes → Bytes → Option Bytes) (date : Bytes)
    (mallocOk : Bool) (h1 : Http1State) (vh : Vhost) (store : List AuthEntry)
    (hstored : vh.authStore = some store) (hvalues : CapturedValues h1.hdrs.reqHdrs)
    (hcrypt : ∀ pass hash r, crypt pass hash = some r → (0 : UInt8) ∉ r)
    (hstore : ∀ e ∈ store, (0 : UInt8) ∉ e.hash) :
    (authBasicCheck crypt date mallocOk h1 vh = .passed ↔
      ∃ entry, Authenticates crypt store h1.hdrs.reqHdrs entry ∧ entry.hash.head? ≠ some 42) ∧
    ((¬ ∃ entry, Authenticates crypt store h1.hdrs.reqHdrs entry ∧ entry.hash.head? ≠ some 42) →
      authBasicCheck crypt date mallocOk h1 vh = .failed ∨
      ∃ spec buf, authBasicCheck crypt date mallocOk h1 vh = .denied spec buf) := by
  have hpass : authBasicCheck crypt date mallocOk h1 vh = .passed ↔
      ∃ entry, Authenticates crypt store h1.hdrs.reqHdrs entry ∧ entry.hash.head? ≠ some 42 := by
    rw [← authAccepts_iff hvalues hcrypt hstore]
    unfold authBasicCheck
    rw [hstored]
    dsimp only
    cases authAccepts crypt store h1.hdrs.reqHdrs with
    | true => simp
    | false => simp [authDeny_ne_passed]
  refine ⟨hpass, fun hnot => ?_⟩
  have hne := mt hpass.mp hnot
  cases hres : authBasicCheck crypt date mallocOk h1 vh with
  | passed => exact (hne hres).elim
  | failed => exact .inl rfl
  | denied spec buf => exact .inr ⟨spec, buf, rfl⟩

/-- A request with one `Authorization` field. -/
def authorizationRequest (value : Bytes) : Http1State :=
  { hdrs := { reqHdrs := [⟨.authorization, ascii "authorization", value, false⟩] } }

lemma authorizationRequest_capturedValues {value : Bytes} (h : value.length < reqHdrValueMax) :
    CapturedValues (authorizationRequest value).hdrs.reqHdrs := by
  intro e he
  rw [List.mem_singleton.mp he]
  exact h

/-- The SHA-256 hash of `Hello world!` with the salt `saltstring`. -/
def helloHash : Bytes :=
  ascii "$5$saltstring$5B8vYYiY.CVt1RlTTf8KbXBH3hsxY/GNooZaBBGWEc5"

/-- `crypt_r` on that password and that hash. -/
def helloCrypt (password hash : Bytes) : Option Bytes :=
  if password = ascii "Hello world!" ∧ hash = helloHash then some helloHash else none

theorem authBasicCheck_passed_iff_hello :
    ∃ entry, Authenticates helloCrypt [⟨ascii "user", helloHash⟩]
      (authorizationRequest (ascii "basic  dXNlcjpIZWxsbyB3b3JsZCE=")).hdrs.reqHdrs entry ∧
      entry.hash.head? ≠ some 42 := by
  have hcrypt : ∀ pass hash r, helloCrypt pass hash = some r → (0 : UInt8) ∉ r := by
    intro pass hash r h
    unfold helloCrypt at h
    split at h
    · rw [← Option.some.inj h]
      decide
    · cases h
  exact (authBasicCheck_passed_iff helloCrypt [] true
    (authorizationRequest (ascii "basic  dXNlcjpIZWxsbyB3b3JsZCE="))
    { authStore := some [⟨ascii "user", helloHash⟩] } [⟨ascii "user", helloHash⟩] rfl
    (authorizationRequest_capturedValues (by decide)) hcrypt (by decide)).1.mp
    (by decide)

/-- A `crypt_r` that gives `*x` back for the stored hash `*x` does not let the user pass. -/
theorem authBasicCheck_refuses_asterisk :
    Authenticates (fun _ hash => some hash) [⟨ascii "u", ascii "*x"⟩]
      (authorizationRequest (ascii "Basic dTpw")).hdrs.reqHdrs ⟨ascii "u", ascii "*x"⟩ ∧
    authBasicCheck (fun _ hash => some hash) [] true (authorizationRequest (ascii "Basic dTpw"))
      { authStore := some [⟨ascii "u", ascii "*x"⟩] } ≠ .passed := by
  constructor
  · refine ⟨_, ascii "u", ascii "p", rfl, rfl, ?_, by decide, rfl⟩
    exact (authParseBasic_eq_some_iff (by decide)).mp (by decide)
  · decide +kernel

end Lamseryn
