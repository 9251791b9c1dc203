import Lamseryn.Framework.CText
import Lamseryn.Model.Parser

/-!
# Content codings (`src/compression.c`)

The value of an `Accept-Encoding` header, the types that are worth compressing, and compression
itself.  The two libraries are a parameter: what zlib and brotli make of a text, or nothing on an
error, an allocation that fails included.

Every loop of the parser stops at a comma, and within an element at a semicolon, so the two levels of
the value are two splits.
-/

namespace Lamseryn

open ByteText CText

/-- `COMP_ENC_GZIP` and `COMP_ENC_BROTLI`. -/
inductive ContentCoding where
  | gzip
  | brotli
  deriving DecidableEq, Repr

/-- A bit mask of codings. -/
structure CodingMask where
  gzip : Bool := false
  brotli : Bool := false
  deriving DecidableEq, Repr

def CodingMask.has (mask : CodingMask) : ContentCoding → Bool
  | .gzip => mask.gzip
  | .brotli => mask.brotli

/-! ## Accept-Encoding -/

/-- `ae_q_is_zero`, on the text up to the end of the parameter. -/
def aeQIsZero (value : Bytes) : Bool :=
  match value.dropWhile isOws with
  | 48 :: 46 :: rest => (rest.takeWhile isDigit).all (· == 48)
  | 48 :: _ => true
  | _ => false

/-- The effect of one parameter on `q_zero`. -/
def aeParam (qZero : Bool) (param : Bytes) : Bool :=
  let param := param.dropWhile isOws
  let name := param.takeWhile (· ≠ 61)
  match param.dropWhile (· ≠ 61) with
  | [] => qZero
  | _ :: value => if name = ascii "q" ∨ name = ascii "Q" then aeQIsZero value else qZero

/-- Which codings were named, with the decision on them; `none` while a coding was not seen. -/
structure AeState where
  gzip : Option Bool := none
  brotli : Option Bool := none
  wildcard : Option Bool := none
  deriving DecidableEq, Repr

/-- One element of the value. -/
def aeElement (st : AeState) (element : Bytes) : AeState :=
  match (element.dropWhile isOws).splitOnP (· == 59) with
  | [] => st
  | coding :: params =>
    let coding := lower (coding.rdropWhile isOws)
    let accept := !params.foldl aeParam false
    if coding = ascii "gzip" then { st with gzip := some accept }
    else if coding = ascii "br" then { st with brotli := some accept }
    else if coding = ascii "*" then { st with wildcard := some accept }
    else st

/-- `compress_parse_accept_encoding`. -/
def compressParseAcceptEncoding (value : Bytes) : CodingMask :=
  let st := (value.splitOnP (· == 44)).foldl aeElement {}
  { gzip := st.gzip.getD (st.wildcard.getD false)
    brotli := st.brotli.getD (st.wildcard.getD false) }

example : compressParseAcceptEncoding (ascii "gzip;q=0, br ; q=0.5,*") = ⟨false, true⟩ := by
  decide

/-! ## Types and names -/

/-- The types that gain nothing from compression. -/
def incompressible : List Bytes :=
  [ascii "image/jpeg", ascii "image/png", ascii "image/gif", ascii "image/webp",
    ascii "image/avif", ascii "image/bmp", ascii "image/tiff", ascii "font/woff",
    ascii "application/zip", ascii "application/gzip", ascii "application/x-gzip",
    ascii "application/x-bzip2", ascii "application/x-xz", ascii "application/x-rar",
    ascii "application/x-7z", ascii "application/octet-stream", ascii "video/", ascii "audio/"]

/-- `compress_mime_is_compressible`. -/
def compressMimeIsCompressible (mimeType : Bytes) : Bool :=
  !incompressible.any fun skip => skip.isPrefixOf mimeType

/-- `compress_enc_ext`. -/
def compressEncExt : ContentCoding → Bytes
  | .gzip => ascii ".gz"
  | .brotli => ascii ".br"

/-- `compress_enc_name`. -/
def compressEncName : ContentCoding → Bytes
  | .gzip => ascii "gzip"
  | .brotli => ascii "br"

/-! ## Compression -/

/-- zlib and brotli, at a level. -/
structure Codec where
  deflate : ℤ → Bytes → Option Bytes
  brotli : ℤ → Bytes → Option Bytes

/-- `enum compress_result`, with the output. -/
inductive CompressResult where
  | ok (out : Bytes)
  | expanded
  | error
  deriving DecidableEq, Repr

/-- The expansion guard that both functions end with. -/
def expansionGuard (src : Bytes) : Option Bytes → CompressResult
  | none => .error
  | some out => if src.length ≤ out.length then .expanded else .ok out

/-- `compress_gzip`; `Z_DEFAULT_COMPRESSION` is `-1`. -/
def compressGzip (codec : Codec) (src : Bytes) (level : ℕ) : CompressResult :=
  if 2 ^ 32 - 1 < src.length then .error
  else expansionGuard src (codec.deflate (if level = 0 then -1 else level) src)

/-- `compress_brotli`, for a quality that is not negative. -/
def compressBrotli (codec : Codec) (src : Bytes) (quality : ℕ) : CompressResult :=
  expansionGuard src (codec.brotli quality src)

lemma expansionGuard_ok {src out : Bytes} {r : Option Bytes} (h : expansionGuard src r = .ok out) :
    out.length < src.length := by
  unfold expansionGuard at h
  split at h
  · cases h
  · split at h
    · cases h
    · cases h
      omega

end Lamseryn
