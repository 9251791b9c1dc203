import Lamseryn.Framework.Base64
import Lamseryn.Model.Auth

/-!
# Decoding base64

`auth_base64_decode` accepts the texts of `Base64.Reads` whose octets fit its buffer, padded or not, and
nothing else.
-/

namespace Lamseryn

open ByteText CText Base64

/-! ## Characters and groups -/

lemma forall_byte {P : UInt8 → Prop} (h : ∀ k < 256, P (UInt8.ofNat k)) (b : UInt8) : P b := by
  have hb := h b.toNat (UInt8.toNat_lt b)
  rwa [UInt8.ofNat_toNat] at hb

lemma b64CharVal_eq_value_iff {c : UInt8} {n : ℕ} : b64CharVal c = .value n ↔ Sextet c n := by
  constructor
  · intro h
    have hall : ∀ c : UInt8, b64CharVal c = .padding ∨ b64CharVal c = .invalid ∨
        ∃ m ∈ List.range 64, b64CharVal c = .value m ∧ alphabet[m]? = some c := by
      apply forall_byte
      decide +kernel
    rcases hall c with hpad | hinvalid | ⟨m, -, hvalue, hchar⟩
    · cases h.symm.trans hpad
    · cases h.symm.trans hinvalid
    · cases h.symm.trans hvalue
      exact hchar
  · intro h
    have hall : ∀ n < 64, alphabet[n]?.map b64CharVal = some (.value n) := by
      decide +kernel
    have hc := hall n h.lt
    rw [show alphabet[n]? = some c from h, Option.map_some] at hc
    exact Option.some.inj hc

lemma b64CharVal_eq_padding_iff {c : UInt8} : b64CharVal c = .padding ↔ c = 61 := by
  revert c
  apply forall_byte
  decide +kernel

lemma padding_false (n : ℕ) : padding false n = [] := rfl

lemma padding_true (n : ℕ) : padding true n = List.replicate n 61 := rfl

/-- A base64 text is decoded, given the space for its octets. -/
lemma authBase64Decode_of_reads {cap : ℕ} {t dec : Bytes} (h : Reads t dec) :
    ∀ {out : Bytes}, out.length + dec.length ≤ cap → authBase64Decode cap t out = some (out ++ dec) := by
  have hpad : b64CharVal 61 = .padding := by decide
  induction h with
  | nil =>
    intro out _
    rw [authBase64Decode, List.append_nil]
  | @one x y a b padded hx hy =>
    intro out hcap
    rw [List.length_singleton] at hcap
    have hoctet : (a * 64 + b) / 16 = a * 4 + b / 16 := by omega
    cases padded with
    | false =>
      rw [padding_false, authBase64Decode, b64CharVal_eq_value_iff.mpr hx,
        b64CharVal_eq_value_iff.mpr hy, hoctet]
      exact if_neg (by omega)
    | true =>
      rw [padding_true, List.replicate_succ, List.replicate_one, authBase64Decode,
        b64CharVal_eq_value_iff.mpr hx, b64CharVal_eq_value_iff.mpr hy, hpad, hoctet]
      exact if_neg (by simp; omega)
  | @two x y z a b c padded hx hy hz =>
    intro out hcap
    simp only [List.length_cons, List.length_nil] at hcap
    have hz64 := hz.lt
    have hoctet : ((a * 64 + b) * 64 + c) / 1024 = a * 4 + b / 16 := by omega
    cases padded with
    | false =>
      rw [padding_false, authBase64Decode, b64CharVal_eq_value_iff.mpr hx,
        b64CharVal_eq_value_iff.mpr hy, b64CharVal_eq_value_iff.mpr hz, hoctet, ofNat_last_octet]
      exact if_neg (by omega)
    | true =>
      rw [padding_true, List.replicate_one, authBase64Decode, b64CharVal_eq_value_iff.mpr hx,
        b64CharVal_eq_value_iff.mpr hy, b64CharVal_eq_value_iff.mpr hz, hpad, hoctet, ofNat_last_octet]
      exact if_neg (by simp; omega)
  | @three x y z u a b c d t dec hx hy hz hu rest ih =>
    intro out hcap
    simp only [List.length_cons] at hcap
    rw [first_octet hz.lt hu.lt, ofNat_second_octet hu.lt, ofNat_third_octet, authBase64Decode,
      b64CharVal_eq_value_iff.mpr hx, b64CharVal_eq_value_iff.mpr hy, b64CharVal_eq_value_iff.mpr hz,
      b64CharVal_eq_value_iff.mpr hu]
    dsimp only
    rw [if_neg (by omega), ih]
    · simp
    · simp only [List.length_append, List.length_cons, List.length_nil]
      omega

/-- What is decoded is a base64 text. -/
lemma reads_of_authBase64Decode {cap : ℕ} : ∀ {t out r : Bytes},
    authBase64Decode cap t out = some r → ∃ dec, Reads t dec ∧ r = out ++ dec
  | [], out, r, h => by
    rw [authBase64Decode] at h
    cases h
    exact ⟨[], .nil, (List.append_nil out).symm⟩
  | [_], out, r, h => by
    rw [authBase64Decode] at h
    cases h
  | [x, y], out, r, h => by
    rw [authBase64Decode] at h
    split at h
    case h_2 => cases h
    case h_1 a b ha hb =>
      split at h
      case isTrue => cases h
      case isFalse =>
        cases h
        have hread := Reads.one false (b64CharVal_eq_value_iff.mp ha) (b64CharVal_eq_value_iff.mp hb)
        have hoctet : (a * 64 + b) / 16 = a * 4 + b / 16 := by omega
        rw [hoctet] at hread
        exact ⟨_, hread, rfl⟩
  | [x, y, z], out, r, h => by
    rw [authBase64Decode] at h
    split at h
    case h_2 => cases h
    case h_1 a b c ha hb hc =>
      split at h
      case isTrue => cases h
      case isFalse =>
        cases h
        have hread := Reads.two false (b64CharVal_eq_value_iff.mp ha) (b64CharVal_eq_value_iff.mp hb)
          (b64CharVal_eq_value_iff.mp hc)
        have hc64 := (b64CharVal_eq_value_iff.mp hc).lt
        have hoctet : ((a * 64 + b) * 64 + c) / 1024 = a * 4 + b / 16 := by omega
        rw [hoctet, ofNat_last_octet] at hread
        exact ⟨_, hread, rfl⟩
  | x :: y :: z :: u :: rest, out, r, h => by
    rw [authBase64Decode] at h
    split at h
    case h_4 => cases h
    case h_1 a b ha hb hc hd =>
      rw [b64CharVal_eq_padding_iff] at hc hd
      subst hc hd
      split at h
      case isTrue => cases h
      case isFalse hguard =>
        rw [not_or, not_not] at hguard
        obtain ⟨-, rfl⟩ := hguard
        cases h
        have hread := Reads.one true (b64CharVal_eq_value_iff.mp ha) (b64CharVal_eq_value_iff.mp hb)
        have hoctet : (a * 64 + b) / 16 = a * 4 + b / 16 := by omega
        rw [hoctet] at hread
        exact ⟨_, hread, rfl⟩
    case h_2 a b c ha hb hc hd =>
      rw [b64CharVal_eq_padding_iff] at hd
      subst hd
      split at h
      case isTrue => cases h
      case isFalse hguard =>
        rw [not_or, not_not] at hguard
        obtain ⟨-, rfl⟩ := hguard
        cases h
        have hread := Reads.two true (b64CharVal_eq_value_iff.mp ha) (b64CharVal_eq_value_iff.mp hb)
          (b64CharVal_eq_value_iff.mp hc)
        have hc64 := (b64CharVal_eq_value_iff.mp hc).lt
        have hoctet : ((a * 64 + b) * 64 + c) / 1024 = a * 4 + b / 16 := by omega
        rw [hoctet, ofNat_last_octet] at hread
        exact ⟨_, hread, rfl⟩
    case h_3 a b c d ha hb hc hd =>
      split at h
      case isTrue => cases h
      case isFalse =>
        obtain ⟨dec, hdec, rfl⟩ := reads_of_authBase64Decode h
        have hd' := b64CharVal_eq_value_iff.mp hd
        have hc' := b64CharVal_eq_value_iff.mp hc
        have hread := Reads.three (b64CharVal_eq_value_iff.mp ha) (b64CharVal_eq_value_iff.mp hb)
          hc' hd' hdec
        rw [first_octet hc'.lt hd'.lt, ofNat_second_octet hd'.lt, ofNat_third_octet] at hread
        exact ⟨_, hread, by simp⟩

end Lamseryn
