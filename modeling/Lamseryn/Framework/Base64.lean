import Lamseryn.Framework.Bytes

/-!
# Base64

The base64 texts and what they stand for (RFC 4648, section 4): groups of four characters of the
alphabet, each for 24 bits, and possibly a last group of two or three characters for 8 or 16 bits, with
or without its padding.  The bits of a last group that belong to no octet are not looked at.
-/

namespace Base64

open ByteText

/-- The alphabet; a character stands for its position. -/
def alphabet : Bytes :=
  ascii "ABCDEFGHIJKLMNOPQRSTUVWXYZabcdefghijklmnopqrstuvwxyz0123456789+/"

/-- The character `c` stands for the six bits `n`. -/
def Sextet (c : UInt8) (n : ℕ) : Prop :=
  alphabet[n]? = some c

lemma alphabet_length : alphabet.length = 64 := by
  decide

lemma Sextet.lt {c : UInt8} {n : ℕ} (h : Sextet c n) : n < 64 := by
  have hlt := (List.getElem?_eq_some_iff.mp h).1
  rwa [alphabet_length] at hlt

/-- The padding of a last group. -/
def padding (padded : Bool) (n : ℕ) : Bytes :=
  if padded then List.replicate n 61 else []

/-- The text `t` stands for the octets `out`. -/
inductive Reads : Bytes → Bytes → Prop
  | nil : Reads [] []
  | one {x y : UInt8} {a b : ℕ} (padded : Bool) (hx : Sextet x a) (hy : Sextet y b) :
      Reads (x :: y :: padding padded 2) [UInt8.ofNat ((a * 64 + b) / 16)]
  | two {x y z : UInt8} {a b c : ℕ} (padded : Bool) (hx : Sextet x a) (hy : Sextet y b)
      (hz : Sextet z c) :
      Reads (x :: y :: z :: padding padded 1)
        [UInt8.ofNat (((a * 64 + b) * 64 + c) / 1024), UInt8.ofNat (((a * 64 + b) * 64 + c) / 4)]
  | three {x y z u : UInt8} {a b c d : ℕ} {t out : Bytes} (hx : Sextet x a) (hy : Sextet y b)
      (hz : Sextet z c) (hu : Sextet u d) (rest : Reads t out) :
      Reads (x :: y :: z :: u :: t)
        (UInt8.ofNat ((((a * 64 + b) * 64 + c) * 64 + d) / 65536) ::
          UInt8.ofNat ((((a * 64 + b) * 64 + c) * 64 + d) / 256) ::
          UInt8.ofNat (((a * 64 + b) * 64 + c) * 64 + d) :: out)

lemma Reads.head_mem {c : UInt8} {t out : Bytes} (h : Reads (c :: t) out) : c ∈ alphabet := by
  cases h with
  | one padded hx hy => exact List.mem_of_getElem? hx
  | two padded hx hy hz => exact List.mem_of_getElem? hx
  | three hx hy hz hu rest => exact List.mem_of_getElem? hx

lemma Reads.length_le {t out : Bytes} (h : Reads t out) : 4 * out.length ≤ 3 * t.length := by
  induction h with
  | nil => exact le_rfl
  | one padded hx hy =>
    simp only [List.length_cons, List.length_nil]
    omega
  | two padded hx hy hz =>
    simp only [List.length_cons, List.length_nil]
    omega
  | three hx hy hz hu rest ih =>
    simp only [List.length_cons]
    omega

/-! ## The octets, computed from neighbouring sextets -/

section Octets

variable {a b c d : ℕ}

lemma first_octet (hc : c < 64) (hd : d < 64) :
    (((a * 64 + b) * 64 + c) * 64 + d) / 65536 = a * 4 + b / 16 := by
  omega

lemma ofNat_second_octet (hd : d < 64) :
    UInt8.ofNat ((((a * 64 + b) * 64 + c) * 64 + d) / 256) = UInt8.ofNat (b * 16 + c / 4) := by
  rw [← UInt8.toNat_inj, UInt8.toNat_ofNat', UInt8.toNat_ofNat']
  omega

lemma ofNat_third_octet :
    UInt8.ofNat (((a * 64 + b) * 64 + c) * 64 + d) = UInt8.ofNat (c * 64 + d) := by
  rw [← UInt8.toNat_inj, UInt8.toNat_ofNat', UInt8.toNat_ofNat']
  omega

lemma ofNat_last_octet : UInt8.ofNat (((a * 64 + b) * 64 + c) / 4) = UInt8.ofNat (b * 16 + c / 4) := by
  rw [← UInt8.toNat_inj, UInt8.toNat_ofNat', UInt8.toNat_ofNat']
  omega

end Octets

end Base64
