import Lamseryn.Model.Types

/-!
# Request targets (`src/url.c`)

Splitting a target at its `?`, strict percent decoding into a bounded buffer, and the
normalisation of an absolute path with its stack of segment starts.
-/

namespace Lamseryn

open ByteText

/-- The two failure codes of `url.c`. -/
inductive UrlError where
  /-- `-1`: malformed input. -/
  | invalid
  /-- `-2`: the output buffer is too small. -/
  | noSpace
  deriving DecidableEq, Repr

/-- `url_split_path_query`: path length, query offset and query length of a target. -/
def urlSplitPathQuery (target : Bytes) : ℕ × ℕ × ℕ :=
  let q := (target.takeWhile (· ≠ 63)).length
  if q = target.length then (q, target.length, 0)
  else (q, q + 1, target.length - (q + 1))

/-- `hexval`. -/
def hexval (c : UInt8) : Option ℕ :=
  if 48 ≤ c ∧ c ≤ 57 then some (c.toNat - 48)
  else if 97 ≤ c ∧ c ≤ 102 then some (10 + (c.toNat - 97))
  else if 65 ≤ c ∧ c ≤ 70 then some (10 + (c.toNat - 65))
  else none

/-- The loop of `url_percent_decode_strict`, with the bytes written so far. -/
def urlPercentDecodeLoop (outCap : ℕ) (rejectDecodedSlashes : Bool) :
    Bytes → Bytes → Except UrlError Bytes
  | out, [] => .ok out
  | out, c :: rest =>
    if c = 37 then
      match rest with
      | h :: l :: rest' =>
        match hexval h, hexval l with
        | some hi, some lo =>
          let d := UInt8.ofNat (hi * 16 + lo)
          if d = 0 then .error .invalid
          else if rejectDecodedSlashes ∧ (d = 47 ∨ d = 92) then .error .invalid
          else if outCap < out.length + 1 then .error .noSpace
          else urlPercentDecodeLoop outCap rejectDecodedSlashes (out ++ [d]) rest'
        | _, _ => .error .invalid
      | _ => .error .invalid
    else if outCap < out.length + 1 then .error .noSpace
    else urlPercentDecodeLoop outCap rejectDecodedSlashes (out ++ [c]) rest

/-- `url_percent_decode_strict`. -/
def urlPercentDecodeStrict (input : Bytes) (outCap : ℕ) (rejectDecodedSlashes : Bool) :
    Except UrlError Bytes :=
  if outCap = 0 then .error .invalid
  else urlPercentDecodeLoop outCap rejectDecodedSlashes [] input

/-- The output buffer of the normalisation and the stack of segment starts, last one first. -/
structure NormState where
  out : Bytes
  segStarts : List ℕ
  deriving DecidableEq, Repr

/-- `seg_cap`: the size of the segment stack. -/
def segCap : ℕ := 256

/-- The segments the normalisation loop visits: the non-empty runs between slashes. -/
def pathSegments (path : Bytes) : List Bytes :=
  tokens (· == 47) (path.drop 1)

/-- One round of the loop of `url_path_normalize_absolute` on the segment `seg`. -/
def normalizeSegment (outCap : ℕ) (st : NormState) (seg : Bytes) : Except UrlError NormState :=
  if seg = ascii "." then .ok st
  else if seg = ascii ".." then
    match st.segStarts with
    | [] => .ok st
    | o :: rest =>
      -- the separator before the popped segment goes too, unless it is the root slash
      let o := if 1 < o ∧ st.out[o - 1]? = some 47 then o - 1 else o
      .ok { out := st.out.take o, segStarts := rest }
  else if 1 < st.out.length ∧ outCap < st.out.length + 1 then .error .noSpace
  else
    let out := if 1 < st.out.length then st.out ++ [47] else st.out
    if segCap ≤ st.segStarts.length then .error .invalid
    else if outCap < out.length + seg.length then .error .noSpace
    else .ok { out := out ++ seg, segStarts := out.length :: st.segStarts }

/-- The loop of `url_path_normalize_absolute`. -/
def normalizeSegments (outCap : ℕ) : NormState → List Bytes → Except UrlError NormState
  | st, [] => .ok st
  | st, seg :: segs =>
    match normalizeSegment outCap st seg with
    | .error e => .error e
    | .ok st' => normalizeSegments outCap st' segs

/-- `url_path_normalize_absolute`: the normalised path and whether the input ended in a slash. -/
def urlPathNormalizeAbsolute (path : Bytes) (outCap : ℕ) : Except UrlError (Bytes × Bool) :=
  if outCap = 0 then .error .invalid
  else if path.head? ≠ some 47 then .error .invalid
  else
    match normalizeSegments outCap { out := [47], segStarts := [] } (pathSegments path) with
    | .error e => .error e
    | .ok st => .ok (st.out, path.getLast? == some 47)

end Lamseryn
