import Lamseryn.Model.Policy

/-!
# Byte ranges (`src/http_range.c`)

The value of a `Range` header, its resolution against the size of a file, and the `Content-Range`
lines.  `struct byte_range` and `struct resolved_range` carry a flag that says whether the rest
counts; here they are optional results.
-/

namespace Lamseryn

open ByteText CText

/-- The loop of `parse_u64`: the value, and what is left behind the digits. -/
def parseU64From : ℕ → Bytes → Option (ℕ × Bytes)
  | v, [] => some (v, [])
  | v, d :: rest =>
    if !isDigit d then some (v, d :: rest)
    else if uint64Max / 10 < v ∨ v = uint64Max / 10 ∧ uint64Max % 10 < digitVal d then none
    else parseU64From (v * 10 + digitVal d) rest

/-- `parse_u64`. -/
def parseU64 (s : Bytes) : Option (ℕ × Bytes) :=
  if s.head?.any isDigit then parseU64From 0 s else none

/-- A valid `struct byte_range`. -/
structure ByteRange where
  /-- `bytes=-N`; then `first` is `N`. -/
  suffix : Bool
  first : ℕ
  last : ℕ
  deriving DecidableEq, Repr

/-- The part of `http_range_parse` behind the unit. -/
def rangeSpecParse (spec : Bytes) : Option ByteRange :=
  match spec with
  | [] => none
  | 45 :: rest =>
    match parseU64 rest with
    | some (n, []) => if n = 0 then none else some ⟨true, n, 0⟩
    | _ => none
  | _ =>
    match parseU64 spec with
    | some (first, [45]) => some ⟨false, first, uint64Max⟩
    | some (first, 45 :: rest) =>
      match parseU64 rest with
      | some (last, []) => if last < first then none else some ⟨false, first, last⟩
      | _ => none
    | _ => none

/-- `http_range_parse`. -/
def httpRangeParse (value : Bytes) : Option ByteRange :=
  if value.length < 6 then none
  else if lower (value.take 5) ≠ ascii "bytes" ∨ (value.drop 5).head? ≠ some 61 then none
  else
    let spec := (value.drop 6).dropWhile isOws
    if 44 ∈ spec then none else rangeSpecParse spec

/-- What is accepted: a suffix is not empty, and a range with an end does not end before it starts. -/
structure ByteRange.Valid (br : ByteRange) : Prop where
  suffix : br.suffix = true → 0 < br.first
  ordered : br.suffix = false → br.last ≠ uint64Max → br.first ≤ br.last

lemma rangeSpecParse_valid {spec : Bytes} {br : ByteRange} (h : rangeSpecParse spec = some br) :
    br.Valid := by
  unfold rangeSpecParse at h
  split at h
  · cases h
  · split at h
    · split at h
      · cases h
      · rename_i hpos
        cases h
        exact ⟨fun _ => Nat.pos_of_ne_zero hpos, nofun⟩
    · cases h
  · split at h
    · cases h
      exact ⟨nofun, fun _ hend => (hend rfl).elim⟩
    · split at h
      · split at h
        · cases h
        · rename_i horder
          cases h
          exact ⟨nofun, fun _ _ => Nat.not_lt.mp horder⟩
      · cases h
    · cases h

lemma httpRangeParse_valid {value : Bytes} {br : ByteRange} (h : httpRangeParse value = some br) :
    br.Valid := by
  unfold httpRangeParse at h
  split at h
  · cases h
  split at h
  · cases h
  · dsimp only at h
    split at h
    · cases h
    · exact rangeSpecParse_valid h

/-- A satisfiable `struct resolved_range`; `stop` is its field `end`. -/
structure ResolvedRange where
  start : ℕ
  stop : ℕ
  length : ℕ
  deriving DecidableEq, Repr

/-- `http_range_resolve`. -/
def httpRangeResolve (br : ByteRange) (fileSize : ℕ) : Option ResolvedRange :=
  if fileSize = 0 then none
  else if br.suffix then
    if fileSize ≤ br.first then some ⟨0, fileSize - 1, fileSize⟩
    else
      let start := fileSize - br.first
      some ⟨start, fileSize - 1, fileSize - 1 - start + 1⟩
  else if fileSize ≤ br.first then none
  else
    let stop := if br.last = uint64Max ∨ fileSize ≤ br.last then fileSize - 1 else br.last
    some ⟨br.first, stop, stop - br.first + 1⟩

lemma httpRangeResolve_some {br : ByteRange} {size : ℕ} {rr : ResolvedRange} (hbr : br.Valid)
    (h : httpRangeResolve br size = some rr) :
    rr.start ≤ rr.stop ∧ rr.stop < size ∧ rr.length = rr.stop - rr.start + 1 := by
  unfold httpRangeResolve at h
  split at h
  · cases h
  split at h
  · rename_i hsuffix
    have hpos := hbr.suffix hsuffix
    split at h
    · cases h
      dsimp only
      omega
    · cases h
      dsimp only
      omega
  · rename_i hsuffix
    have horder := hbr.ordered (by simpa using hsuffix)
    split at h
    · cases h
    · cases h
      dsimp only
      split <;> omega

/-- What `snprintf` leaves as a usable text in a buffer of `cap` bytes: nothing if it was cut. -/
def fitted (cap : ℕ) (text : Bytes) : Bytes :=
  if text.length < cap then text else []

/-- `http_range_format_content_range`. -/
def httpRangeFormatContentRange (cap start stop total : ℕ) : Bytes :=
  fitted cap (headerLine (ascii "Content-Range")
    (ascii "bytes " ++ numeral start ++ ascii "-" ++ numeral stop ++ ascii "/" ++ numeral total))

/-- `http_range_format_content_range_unsatisfied`. -/
def httpRangeFormatContentRangeUnsatisfied (cap total : ℕ) : Bytes :=
  fitted cap (headerLine (ascii "Content-Range") (ascii "bytes */" ++ numeral total))

end Lamseryn
