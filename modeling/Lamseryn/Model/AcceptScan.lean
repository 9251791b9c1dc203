import Lamseryn.Framework.Cursor
import Lamseryn.Model.Compression

/-!
# The scanner of `Accept-Encoding` (`src/compression.c`)

`compress_parse_accept_encoding` as it is written: one pointer that is moved over the value by nested
loops, with every comparison against `end` and every read.  The pointers are positions in the value; a
read outside it, or a loop that does not end, makes the result `none`.  `Model.Compression` states the
same function on the elements of the value.
-/

namespace Lamseryn

open ByteText CText Cursor

/-- `ae_skip_ws`. -/
def aeSkipWs (v : Bytes) (p : ℕ) : Option ℕ :=
  skipWhile isOws v (v.length + 1) p

/-- `ae_token_ieq`. -/
def aeTokenIeq (v : Bytes) (tok tokLen : ℕ) (s : Bytes) : Option Bool :=
  if tokLen ≠ s.length then some false else equalFrom lowerByte v tok s

/-- `tok_len == 1 && tok_start[0] == '*'`. -/
def aeIsWildcard (v : Bytes) (tok tokLen : ℕ) : Option Bool :=
  if tokLen = 1 then v[tok]?.map (· == 42) else some false

/-- Neither `,` nor `;`. -/
def isAeValueByte (b : UInt8) : Bool :=
  b != 44 && b != 59

/-- `while (p < end && *p != ',' && *p != ';') p++;` -/
def aeSkipValue (v : Bytes) (p : ℕ) : Option ℕ :=
  skipWhile isAeValueByte v (v.length + 1) p

/-- The digits behind the point: are they all zero, and where does the loop stop? -/
def aeFractionIsZero (v : Bytes) : ℕ → ℕ → Option (Bool × ℕ)
  | 0, _ => none
  | fuel + 1, p =>
    if p < v.length then
      v[p]?.bind fun b =>
        if isDigit b then
          if b ≠ 48 then some (false, p) else aeFractionIsZero v fuel (p + 1)
        else some (true, p)
    else some (true, p)

/-- `ae_q_is_zero`: the answer and the new `*p`. -/
def aeQIsZeroScan (v : Bytes) (p : ℕ) : Option (Bool × ℕ) :=
  (aeSkipWs v p).bind fun q =>
    if q < v.length then
      v[q]?.bind fun b =>
        if b ≠ 48 then (aeSkipValue v q).map fun p => (false, p)
        else if q + 1 < v.length then
          v[q + 1]?.bind fun dot =>
            if dot = 46 then
              (aeFractionIsZero v (v.length + 1) (q + 2)).bind fun r =>
                (aeSkipValue v r.2).map fun p => (r.1, p)
            else (aeSkipValue v (q + 1)).map fun p => (true, p)
        else some (true, q + 1)
    else some (false, q)

/-- The value of a parameter whose name is `[param, p)`. -/
def aeParamValue (v : Bytes) (qZero : Bool) (param p : ℕ) : Option (Bool × ℕ) :=
  if p < v.length then
    v[p]?.bind fun b =>
      if b = 61 then
        (if p - param = 1 then v[param]?.map fun b => b == 113 || b == 81 else some false).bind
          fun isQ =>
            if isQ then aeQIsZeroScan v (p + 1)
            else (aeSkipValue v (p + 1)).map fun p => (qZero, p)
      else some (qZero, p)
  else some (qZero, p)

/-- The loop over the parameters of an element: `q_zero` and the new `p`. -/
def aeParams (v : Bytes) : ℕ → ℕ → Bool → Option (Bool × ℕ)
  | 0, _, _ => none
  | fuel + 1, p, qZero =>
    if p < v.length then
      v[p]?.bind fun b =>
        if b = 59 then
          (aeSkipWs v (p + 1)).bind fun param =>
            (skipWhile (fun b => b != 61 && isAeValueByte b) v (v.length + 1) param).bind fun p =>
              (aeParamValue v qZero param p).bind fun r => aeParams v fuel r.2 r.1
        else some (qZero, p)
    else some (qZero, p)

/-- Record accept/reject decision. -/
def AeState.record (st : AeState) (isGzip isBrotli isWildcard qZero : Bool) : AeState :=
  if isGzip then { st with gzip := some (!qZero) }
  else if isBrotli then { st with brotli := some (!qZero) }
  else if isWildcard then { st with wildcard := some (!qZero) }
  else st

/-- `if (p < end && *p == ',') p++;` -/
def aeSkipComma (v : Bytes) (p : ℕ) : Option ℕ :=
  if p < v.length then v[p]?.map fun b => if b = 44 then p + 1 else p else some p

/-- The element whose coding starts at `tok`: the new state and the new `p`. -/
def aeElementScan (v : Bytes) (tok : ℕ) (st : AeState) : Option (AeState × ℕ) := do
  let p ← aeSkipValue v tok
  let tokEnd ← trimEnd isOws v tok p
  let isGzip ← aeTokenIeq v tok (tokEnd - tok) (ascii "gzip")
  let isBrotli ← aeTokenIeq v tok (tokEnd - tok) (ascii "br")
  let isWildcard ← aeIsWildcard v tok (tokEnd - tok)
  let (qZero, p) ← aeParams v (v.length + 1) p false
  let p ← aeSkipWs v p
  let p ← aeSkipComma v p
  return (st.record isGzip isBrotli isWildcard qZero, p)

/-- The loop over the elements. -/
def aeElements (v : Bytes) : ℕ → ℕ → AeState → Option AeState
  | 0, _, _ => none
  | fuel + 1, p, st =>
    if p < v.length then
      (aeSkipWs v p).bind fun tok =>
        if tok < v.length then
          (aeElementScan v tok st).bind fun r => aeElements v fuel r.2 r.1
        else some st
    else some st

/-- Resolve final bitmask: explicit entries win over wildcard. -/
def AeState.resolve (st : AeState) : CodingMask :=
  { gzip := st.gzip.getD (st.wildcard.getD false)
    brotli := st.brotli.getD (st.wildcard.getD false) }

/-- `compress_parse_accept_encoding`, with the number of rounds its outer loop may make. -/
def compressScanAcceptEncoding (fuel : ℕ) (v : Bytes) : Option CodingMask :=
  if v.length = 0 then some {} else (aeElements v fuel 0 {}).map AeState.resolve

end Lamseryn
