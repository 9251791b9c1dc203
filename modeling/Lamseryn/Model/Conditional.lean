import Lamseryn.Framework.CivilTime
import Lamseryn.Framework.CText
import Lamseryn.Model.Parser

/-!
# Validators and conditional requests (`src/static_serve_utils.c`, `include/time_utils.h`)

The entity tag and the modification date of a file, and the three headers that compare them:
`If-None-Match`, `If-Modified-Since` and `If-Range`.  Dates are in the fixed format of HTTP, written
and read without a locale; the day name is not read.
-/

namespace Lamseryn

open ByteText CText CivilTime

/-- What the source asks of `st_mode`. -/
inductive FileMode where
  | regular
  | directory
  | other
  deriving DecidableEq, Repr

/-- The fields of `struct stat` that are read; sizes are not negative. -/
structure FileStat where
  mode : FileMode
  ino : ℕ
  size : ℕ
  mtimeSec : ℤ
  mtimeNsec : ℕ
  deriving DecidableEq, Repr

/-! ## Dates -/

def dayNames : List Bytes :=
  [ascii "Sun", ascii "Mon", ascii "Tue", ascii "Wed", ascii "Thu", ascii "Fri", ascii "Sat"]

def monthNames : List Bytes :=
  [ascii "Jan", ascii "Feb", ascii "Mar", ascii "Apr", ascii "May", ascii "Jun", ascii "Jul",
    ascii "Aug", ascii "Sep", ascii "Oct", ascii "Nov", ascii "Dec"]

/-- The text that `time_format_http_date` prints. -/
def httpDateText (tm : Tm) : Bytes :=
  dayNames.getD tm.wday [] ++ ascii ", " ++ zeroPadded 2 tm.mday ++ ascii " "
    ++ monthNames.getD tm.mon [] ++ ascii " " ++ zeroPadded 4 tm.year ++ ascii " "
    ++ zeroPadded 2 tm.hour ++ ascii ":" ++ zeroPadded 2 tm.min ++ ascii ":"
    ++ zeroPadded 2 tm.sec ++ ascii " GMT"

/-- `time_format_http_date`, into a buffer of `cap` bytes; empty on a failure.  `gmtime_r` fails if
the year does not fit into `tm_year`. -/
def timeFormatHttpDate (cap : ℕ) (when : ℤ) : Bytes :=
  let tm := gmtime when
  if tm.year - 1900 < -2 ^ 31 ∨ 2 ^ 31 ≤ tm.year - 1900 then []
  else
    let text := httpDateText tm
    if text.length < cap then text else []

/-- A field of decimal digits of a given width, and the text behind it. -/
def digitField (w : ℕ) (s : Bytes) : Option (ℕ × Bytes) :=
  if w ≤ s.length ∧ (s.take w).all isDigit then some (decimal (s.take w), s.drop w) else none

/-- A fixed text, and the text behind it. -/
def expectText (text s : Bytes) : Option Bytes :=
  if text.isPrefixOf s then some (s.drop text.length) else none

/-- `static_serve_parse_http_date`. -/
def staticServeParseHttpDate (str : Bytes) : Option ℤ := do
  -- three characters for the day name, which are not looked at
  guard (3 ≤ str.length)
  let s ← expectText (ascii ", ") (str.drop 3)
  let (mday, s) ← digitField 2 s
  let s ← expectText (ascii " ") s
  let mon ← monthNames.findIdx? (· == s.take 3)
  let s ← expectText (ascii " ") (s.drop 3)
  let (year, s) ← digitField 4 s
  let s ← expectText (ascii " ") s
  let (hour, s) ← digitField 2 s
  let s ← expectText (ascii ":") s
  let (min, s) ← digitField 2 s
  let s ← expectText (ascii ":") s
  let (sec, s) ← digitField 2 s
  guard (s = ascii " GMT")
  guard (1 ≤ mday ∧ mday ≤ 31 ∧ hour ≤ 23 ∧ min ≤ 59 ∧ sec ≤ 60)
  return timegm { year, mon, mday, hour, min, sec }

example : staticServeParseHttpDate (ascii "Sun, 06 Nov 1994 08:49:37 GMT") = some 784111777 := by
  decide

lemma expectText_some {text s rest : Bytes} (h : expectText text s = some rest) :
    s.length = text.length + rest.length := by
  unfold expectText at h
  split at h
  · rename_i hprefix
    cases h
    have hle := (List.isPrefixOf_iff_prefix.mp hprefix).length_le
    rw [List.length_drop]
    omega
  · cases h

lemma digitField_some {w n : ℕ} {s rest : Bytes} (h : digitField w s = some (n, rest)) :
    s.length = w + rest.length := by
  unfold digitField at h
  split at h
  · rename_i hdigits
    cases h
    rw [List.length_drop]
    omega
  · cases h

/-- A date that is accepted has 29 characters. -/
lemma staticServeParseHttpDate_length {str : Bytes} {t : ℤ}
    (h : staticServeParseHttpDate str = some t) : str.length = 29 := by
  unfold staticServeParseHttpDate at h
  obtain ⟨_, hguard, h⟩ := Option.bind_eq_some_iff.mp h
  have hday : 3 ≤ str.length := (Option.guard_eq_some' _).mp hguard
  obtain ⟨s1, h1, h⟩ := Option.bind_eq_some_iff.mp h
  obtain ⟨⟨mday, s2⟩, h2, h⟩ := Option.bind_eq_some_iff.mp h
  obtain ⟨s3, h3, h⟩ := Option.bind_eq_some_iff.mp h
  obtain ⟨mon, hmon, h⟩ := Option.bind_eq_some_iff.mp h
  obtain ⟨s4, h4, h⟩ := Option.bind_eq_some_iff.mp h
  obtain ⟨⟨year, s5⟩, h5, h⟩ := Option.bind_eq_some_iff.mp h
  obtain ⟨s6, h6, h⟩ := Option.bind_eq_some_iff.mp h
  obtain ⟨⟨hour, s7⟩, h7, h⟩ := Option.bind_eq_some_iff.mp h
  obtain ⟨s8, h8, h⟩ := Option.bind_eq_some_iff.mp h
  obtain ⟨⟨min, s9⟩, h9, h⟩ := Option.bind_eq_some_iff.mp h
  obtain ⟨s10, h10, h⟩ := Option.bind_eq_some_iff.mp h
  obtain ⟨⟨sec, s11⟩, h11, h⟩ := Option.bind_eq_some_iff.mp h
  obtain ⟨_, hend, -⟩ := Option.bind_eq_some_iff.mp h
  have hgmt : s11 = ascii " GMT" := (Option.guard_eq_some' _).mp hend
  have hmonth : 3 ≤ s3.length := by
    obtain ⟨hlt, hname, -⟩ := List.findIdx?_eq_some_iff_getElem.mp hmon
    have hall : ∀ name ∈ monthNames, name.length = 3 := by decide
    have hlen := hall _ (List.getElem_mem hlt)
    rw [eq_of_beq hname, List.length_take] at hlen
    omega
  have e1 := expectText_some h1
  have e2 := digitField_some h2
  have e3 := expectText_some h3
  have e4 := expectText_some h4
  have e5 := digitField_some h5
  have e6 := expectText_some h6
  have e7 := digitField_some h7
  have e8 := expectText_some h8
  have e9 := digitField_some h9
  have e10 := expectText_some h10
  have e11 := digitField_some h11
  have hsep : (ascii ", ").length = 2 := by decide
  have hspace : (ascii " ").length = 1 := by decide
  have hcolon : (ascii ":").length = 1 := by decide
  have hlast : s11.length = 4 := by
    rw [hgmt]
    decide
  rw [List.length_drop] at e1 e4
  omega

/-- The date of a header value, read from a copy into 64 bytes. -/
def headerDate (value : Bytes) : Option ℤ :=
  staticServeParseHttpDate (value.take 63)

lemma headerDate_eq (value : Bytes) : headerDate value = staticServeParseHttpDate value := by
  unfold headerDate
  by_cases hle : value.length ≤ 63
  · rw [List.take_of_length_le hle]
  · have hnone : ∀ s : Bytes, s.length ≠ 29 → staticServeParseHttpDate s = none := by
      intro s hs
      by_contra hsome
      obtain ⟨t, ht⟩ := Option.ne_none_iff_exists'.mp hsome
      exact hs (staticServeParseHttpDate_length ht)
    rw [hnone value (by omega), hnone (value.take 63) (by rw [List.length_take]; omega)]

/-! ## Validators -/

/-- `static_serve_format_etag`, into a buffer of `cap` bytes; empty on a failure. -/
def staticServeFormatEtag (cap : ℕ) (st : FileStat) : Bytes :=
  let mtimeUs := (st.mtimeSec * 1000000 + (st.mtimeNsec / 1000 : ℕ)) % 2 ^ 64
  let text :=
    ascii "\"" ++ hexNumeral (st.ino % 2 ^ 64) ++ ascii "-" ++ hexNumeral (st.size % 2 ^ 64)
      ++ ascii "-" ++ hexNumeral mtimeUs.toNat ++ ascii "\""
  if text.length < cap then text else []

/-- `static_serve_format_last_modified`. -/
def staticServeFormatLastModified (cap : ℕ) (st : FileStat) : Bytes :=
  timeFormatHttpDate cap st.mtimeSec

lemma staticServeFormatEtag_quoted {cap : ℕ} {st : FileStat} (h : staticServeFormatEtag cap st ≠ []) :
    2 ≤ (staticServeFormatEtag cap st).length ∧ (staticServeFormatEtag cap st).head? = some 34 := by
  unfold staticServeFormatEtag at h ⊢
  dsimp only at h ⊢
  split at h
  · rename_i hfits
    have hquote : ascii "\"" = [34] := by decide
    rw [if_pos hfits, hquote]
    exact ⟨by simp only [List.length_append, List.length_cons, List.length_nil]; omega, rfl⟩
  · exact (h rfl).elim

/-! ## Conditional headers -/

/-- Does a token of `If-None-Match` match the tag, under weak comparison? -/
def inmTokenMatches (etag tok : Bytes) : Bool :=
  let tok := (tok.dropWhile isOws).rdropWhile isOws
  if tok = ascii "*" then true
  else
    let opaqueTag := if (ascii "W/").isPrefixOf tok then tok.drop 2 else tok
    decide (etag ≠ []) && opaqueTag == etag

/-- `static_serve_check_not_modified`. -/
def staticServeCheckNotModified (hdrs : List ReqHdrEntry) (st : FileStat) (etag : Bytes) : Bool :=
  match (httpHeaderFindValue hdrs .ifNoneMatch).filter (· ≠ []) with
  | some inm => (inm.splitOnP (· == 44)).any (inmTokenMatches etag)
  | none =>
    match (httpHeaderFindValue hdrs .ifModifiedSince).filter (· ≠ []) with
    | some ims => (headerDate ims).any fun t => decide (st.mtimeSec ≤ t)
    | none => false

/-- `static_serve_if_range_matches`. -/
def staticServeIfRangeMatches (hdrs : List ReqHdrEntry) (st : FileStat) (etag : Bytes) : Bool :=
  match (httpHeaderFindValue hdrs .ifRange).filter (· ≠ []) with
  | none => true
  | some ir =>
    if 2 ≤ ir.length ∧ ir.head? = some 34 then decide (etag ≠ []) && ir == etag
    else if (ascii "W/").isPrefixOf ir then false
    else (headerDate ir).any fun t => t == st.mtimeSec

end Lamseryn
