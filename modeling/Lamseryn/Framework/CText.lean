import Lamseryn.Framework.Bytes

/-!
# C strings and numerals

The functions of the C library that work on strings, on byte strings without a `NUL`: comparison
without regard to case, copying into a buffer of fixed size, `strtol` and `strtoul` in base ten,
and the numerals that `printf` prints.  A text made of lines determines its lines.
-/

namespace CText

/-- `PATH_MAX`. -/
def pathMax : ℕ := 4096

open ByteText

/-! ## Comparison and copying -/

/-- `strcasecmp(a, b) == 0`. -/
def strcaseEq (a b : Bytes) : Bool :=
  lower a == lower b

/-- `strncasecmp(a, b, n) == 0`. -/
def strncaseEq (n : ℕ) (a b : Bytes) : Bool :=
  lower (a.take n) == lower (b.take n)

/-- What `snprintf(buf, cap, "%s", s)` leaves in a buffer of `cap` bytes. -/
def snprintfS (cap : ℕ) (s : Bytes) : Bytes :=
  s.take (cap - 1)

lemma strcaseEq_iff {a b : Bytes} : strcaseEq a b = true ↔ lower a = lower b := by
  simp [strcaseEq]

@[simp] lemma strcaseEq_self (a : Bytes) : strcaseEq a a = true := by
  simp [strcaseEq]

lemma strcaseEq_comm (a b : Bytes) : strcaseEq a b = strcaseEq b a := by
  simp [strcaseEq, Bool.beq_comm]

lemma snprintfS_of_lt {cap : ℕ} {s : Bytes} (h : s.length < cap) : snprintfS cap s = s :=
  List.take_of_length_le (by omega)

/-! ## Numerals -/

/-- A conversion from `unsigned` to `int`. -/
def toInt32 (n : ℕ) : ℤ :=
  if n < 2 ^ 31 then n else n - 2 ^ 32

/-- `isspace` in the C locale. -/
def isSpace (b : UInt8) : Bool :=
  b == 32 || (9 ≤ b && b ≤ 13)

/-- The sign and the digits of a numeral after leading white space; `none` without a digit. -/
def strtoNumeral (s : Bytes) : Option (Bool × Bytes) :=
  let body := s.dropWhile isSpace
  let (neg, body) :=
    match body with
    | 45 :: rest => (true, rest)
    | 43 :: rest => (false, rest)
    | _ => (false, body)
  let digits := body.takeWhile isDigit
  if digits = [] then none else some (neg, digits)

/-- `strtoul` in base ten with a 64-bit `unsigned long`; `none` if there was no conversion.  A value
out of range is `ULONG_MAX`, and a minus sign negates in the unsigned type. -/
def strtoul (s : Bytes) : Option ℕ :=
  match strtoNumeral s with
  | none => none
  | some (neg, digits) =>
    let v := decimal digits
    if 2 ^ 64 ≤ v then some (2 ^ 64 - 1)
    else if neg then some ((2 ^ 64 - v) % 2 ^ 64)
    else some v

/-- `strtol` in base ten with a 64-bit `long`; `none` if there was no conversion.  A value out of
range is `LONG_MAX` or `LONG_MIN`. -/
def strtol (s : Bytes) : Option ℤ :=
  match strtoNumeral s with
  | none => none
  | some (neg, digits) =>
    let v : ℤ := decimal digits
    if neg then some (max (-v) (-2 ^ 63)) else some (min v (2 ^ 63 - 1))

/-- The numeral that `%u` and `%zu` print. -/
def numeral (n : ℕ) : Bytes :=
  if n = 0 then [48] else (Nat.digits 10 n).reverse.map fun d => UInt8.ofNat (48 + d)

/-- The numeral of a number below `10 ^ k` has at most `k` digits. -/
lemma numeral_length_le {n k : ℕ} (hk : 0 < k) (h : n < 10 ^ k) : (numeral n).length ≤ k := by
  unfold numeral
  split
  · exact hk
  · rw [List.length_map, List.length_reverse]
    exact (Nat.digits_length_le_iff (by norm_num) n).mpr h

lemma isDigit_of_mem_numeral {n : ℕ} {b : UInt8} (h : b ∈ numeral n) : isDigit b = true := by
  unfold numeral at h
  split at h
  · rw [List.mem_singleton] at h
    subst h
    decide
  · obtain ⟨d, hd, rfl⟩ := List.mem_map.mp h
    have hlt : d < 10 := Nat.digits_lt_base (by norm_num) (List.mem_reverse.mp hd)
    interval_cases d <;> decide

lemma decimal_numeral (n : ℕ) : decimal (numeral n) = n := by
  unfold numeral
  split
  · rename_i hn
    rw [hn]
    decide
  · have hfold : ∀ ds : List ℕ, (∀ d ∈ ds, d < 10) →
        decimal (ds.reverse.map fun d => UInt8.ofNat (48 + d)) = Nat.ofDigits 10 ds := by
      intro ds hds
      induction ds with
      | nil => rfl
      | cons d ds ih =>
        have hd : d < 10 := hds d List.mem_cons_self
        have hval : digitVal (UInt8.ofNat (48 + d)) = d := by
          interval_cases d <;> decide
        rw [List.reverse_cons, List.map_append, decimal, decimalFrom_append]
        have htail := ih fun x hx => hds x (List.mem_cons_of_mem d hx)
        rw [decimal] at htail
        rw [htail, Nat.ofDigits_cons, List.map_cons, List.map_nil, decimalFrom_cons, decimalFrom_nil,
          hval]
        ring
    rw [hfold _ fun d hd => Nat.digits_lt_base (by norm_num) hd, Nat.ofDigits_digits]

lemma numeral_injective : Function.Injective numeral := by
  intro m n h
  rw [← decimal_numeral m, h, decimal_numeral]

/-- The digit that `%x` prints. -/
def hexDigit (d : ℕ) : UInt8 :=
  UInt8.ofNat (if d < 10 then 48 + d else 87 + d)

/-- The numeral that `%x` prints. -/
def hexNumeral (n : ℕ) : Bytes :=
  if n = 0 then [48] else (Nat.digits 16 n).reverse.map hexDigit

/-- The hexadecimal numeral of a number below `16 ^ k` has at most `k` digits. -/
lemma hexNumeral_length_le {n k : ℕ} (hk : 0 < k) (h : n < 16 ^ k) :
    (hexNumeral n).length ≤ k := by
  unfold hexNumeral
  split
  · exact hk
  · rw [List.length_map, List.length_reverse]
    exact (Nat.digits_length_le_iff (by norm_num) n).mpr h

/-- The field that `%0wd` prints. -/
def zeroPadded (w : ℕ) (n : ℤ) : Bytes :=
  let digits := numeral n.natAbs
  if n < 0 then 45 :: (List.replicate (w - 1 - digits.length) 48 ++ digits)
  else List.replicate (w - digits.length) 48 ++ digits

example : strtoul (ascii " +42x") = some 42 := by decide

/-! ## Lines -/

/-- A text that is a single line with its `LF`. -/
def IsLine (l : Bytes) : Prop :=
  ∃ body, 10 ∉ body ∧ l = body ++ [10]

lemma takeWhile_ne_append {c : UInt8} {a : Bytes} (h : c ∉ a) (rest : Bytes) :
    (a ++ c :: rest).takeWhile (· ≠ c) = a := by
  have hall : ∀ b ∈ a, decide (b ≠ c) = true := by
    intro b hb
    exact decide_eq_true fun heq => h (heq ▸ hb)
  rw [List.takeWhile_append_of_pos hall]
  simp

lemma append_cons_injective {c : UInt8} {a a' b b' : Bytes} (ha : c ∉ a) (ha' : c ∉ a')
    (h : a ++ c :: b = a' ++ c :: b') : a = a' ∧ b = b' := by
  have haa : a = a' := by
    rw [← takeWhile_ne_append ha b, h, takeWhile_ne_append ha' b']
  subst haa
  exact ⟨rfl, List.cons_injective (List.append_cancel_left h)⟩

lemma flatten_injective_of_isLine {ls ms : List Bytes} (hls : ∀ l ∈ ls, IsLine l)
    (hms : ∀ m ∈ ms, IsLine m) (h : ls.flatten = ms.flatten) : ls = ms := by
  induction ls generalizing ms with
  | nil =>
    cases ms with
    | nil => rfl
    | cons m ms =>
      obtain ⟨body, -, rfl⟩ := hms m List.mem_cons_self
      simp at h
  | cons l ls ih =>
    obtain ⟨body, hbody, rfl⟩ := hls l List.mem_cons_self
    cases ms with
    | nil => simp at h
    | cons m ms =>
      obtain ⟨body', hbody', rfl⟩ := hms m List.mem_cons_self
      simp only [List.flatten_cons, List.append_assoc, List.singleton_append] at h
      obtain ⟨rfl, hrest⟩ := append_cons_injective hbody hbody' h
      have htail := ih (fun l hl => hls l (List.mem_cons_of_mem _ hl))
        (fun m hm => hms m (List.mem_cons_of_mem _ hm)) hrest
      rw [htail]

end CText
