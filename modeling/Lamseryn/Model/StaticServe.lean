import Lamseryn.Framework.FileTree
import Lamseryn.Model.Compression
import Lamseryn.Model.Conditional
import Lamseryn.Model.HttpRange
import Lamseryn.Model.Respond

/-!
# Static files (`src/static_serve_utils.c`)

`static_serve_try_prepare_docroot_response`: it opens the requested file beneath the document root,
looks for a precompressed sibling, assembles the extra headers, answers a conditional request, a range
or a directory, and otherwise sends the whole file from a buffer or by `sendfile`.

`ServeWorld` is what the calls of the function read and change: the process with its descriptors and
the outcomes of the calls to come, each list in the order of its calls; where a list has ended the
calls succeed.  A file is read from the start, or from where `lseek` was told to go, so descriptors
have no file offset; `sendfile` has an offset of its own.

The function is cut at its stages.  A stage that answers the request or gives up ends with
`Except.error`, and the last one, `serveFull`, is the switch over the way the whole file is sent.
-/

namespace Lamseryn

open ByteText CText FileTree

/-! ## The outside world -/

/-- A regular file; its size is an `off_t`. -/
structure FileData where
  bytes : Bytes
  mtimeSec : ℤ := 0
  mtimeNsec : ℕ := 0
  size_lt : bytes.length < 2 ^ 63
  deriving DecidableEq

/-- The result of a `read`: at most `n` bytes, `EINTR`, or another error. -/
inductive ReadResult where
  | got (n : ℕ)
  | interrupted
  | failed
  deriving DecidableEq, Repr

/-- What the calls of the function read and change. -/
structure ServeWorld where
  proc : Process ℕ FileData
  fstats : List Bool := []
  mallocs : List Bool := []
  seeks : List Bool := []
  reads : List ReadResult := []
  /-- The allocations in `tx_build_headers`. -/
  builds : List Bool := []
  /-- `*static_open_err`; `none` is 0. -/
  staticOpenErr : Option Errno := none

/-- What the function reads and does not change: the request, the virtual host, the clock, the build
and the compression libraries.  The line `Date` is kept in 64 bytes. -/
structure ServeCtx where
  h1 : Http1State
  vhost : Option Vhost
  tls : Bool
  docrootFd : ℤ
  date : Bytes
  date_lt : date.length < 64
  haveBrotli : Bool
  codec : Codec

lemma no_date_lt : ([] : Bytes).length < 64 := by
  decide

/-- The virtual host's features, or none of them. -/
def ServeCtx.features (cx : ServeCtx) : Features :=
  (cx.vhost.map Vhost.features).getD {}

/-- The method is `GET` or `HEAD`. -/
def ServeCtx.served (cx : ServeCtx) : Bool :=
  cx.h1.method == .get || cx.h1.method == .head

/-- The next outcome of a call, success if none is left. -/
def nextOk (outcomes : List Bool) : Bool :=
  outcomes.head?.getD true

def ServeWorld.close (w : ServeWorld) (fd : ℤ) : ServeWorld :=
  { w with proc := w.proc.close fd }

/-- The `struct stat` of an inode. -/
def statOf : ℕ × Node ℕ FileData → FileStat
  | (ino, .file d) => ⟨.regular, ino, d.bytes.length, d.mtimeSec, d.mtimeNsec⟩
  | (ino, .dir _ _) => ⟨.directory, ino, 0, 0, 0⟩
  | (ino, _) => ⟨.other, ino, 0, 0, 0⟩

/-- `fstat`; `none` is a failure. -/
def ServeWorld.fstat (w : ServeWorld) (fd : ℤ) : Option FileStat × ServeWorld :=
  let st := if nextOk w.fstats then (w.proc.nodeAt fd).map statOf else none
  (st, { w with fstats := w.fstats.tail })

def ServeWorld.malloc (w : ServeWorld) : Bool × ServeWorld :=
  (nextOk w.mallocs, { w with mallocs := w.mallocs.tail })

def ServeWorld.lseek (w : ServeWorld) : Bool × ServeWorld :=
  (nextOk w.seeks, { w with seeks := w.seeks.tail })

/-- The bytes of the regular file behind a descriptor. -/
def ServeWorld.contentAt (w : ServeWorld) (fd : ℤ) : Bytes :=
  match w.proc.nodeAt fd with
  | some (_, .file d) => d.bytes
  | _ => []

/-- The loop of `read` calls for `want` bytes, of which `got` are there, on the text `src` that
follows in the file. -/
def readLoop (want : ℕ) : List ReadResult → Bytes → Bytes → Bytes × List ReadResult
  | [], src, got => (got ++ src.take (want - got.length), [])
  | r :: rs, src, got =>
    if want ≤ got.length then (got, r :: rs)
    else
      match r with
      | .interrupted => readLoop want rs src got
      | .failed => (got, rs)
      | .got n =>
        let chunk := src.take (min n (want - got.length))
        if chunk = [] then (got, rs) else readLoop want rs (src.drop chunk.length) (got ++ chunk)

/-- Read `want` bytes from an offset. -/
def ServeWorld.readAll (w : ServeWorld) (fd : ℤ) (off want : ℕ) : Bytes × ServeWorld :=
  let (got, reads) := readLoop want w.reads ((w.contentAt fd).drop off) []
  (got, { w with reads := reads })

/-! ## Paths -/

/-- `NAME_MAX`. -/
def nameMax : ℕ := 255

/-- The content types by the extension behind the last dot. -/
def mimeTable : List (Bytes × Bytes) :=
  [(ascii "html", ascii "text/html; charset=utf-8"), (ascii "htm", ascii "text/html; charset=utf-8"),
    (ascii "css", ascii "text/css; charset=utf-8"),
    (ascii "js", ascii "application/javascript; charset=utf-8"),
    (ascii "json", ascii "application/json; charset=utf-8"),
    (ascii "txt", ascii "text/plain; charset=utf-8"), (ascii "png", ascii "image/png"),
    (ascii "jpg", ascii "image/jpeg"), (ascii "jpeg", ascii "image/jpeg"),
    (ascii "gif", ascii "image/gif"), (ascii "svg", ascii "image/svg+xml")]

/-- `static_serve_mime_type_for_path`; a dot in front does not begin an extension. -/
def staticServeMimeTypeForPath (path : Bytes) : Bytes :=
  let ext := path.rtakeWhile (· ≠ 46)
  if path.length ≤ ext.length + 1 then ascii "application/octet-stream"
  else (mimeTable.lookup ext).getD (ascii "application/octet-stream")

/-- `static_serve_build_docroot_relpath`. -/
def staticServeBuildDocrootRelpath (pathNorm : Bytes) (endsWithSlash : Bool) (indexFile : Bytes) :
    Option Bytes :=
  match pathNorm with
  | 47 :: rel =>
    if rel = [] ∨ endsWithSlash then
      let dir := if rel.getLast? = some 47 then rel.dropLast else rel
      let idx := if indexFile = [] then ascii "index.html" else indexFile
      if dir ≠ [] ∧ pathMax ≤ dir.length + 1 then none
      else
        let out := if dir = [] then [] else dir ++ [47]
        if pathMax ≤ out.length + idx.length then none else some (out ++ idx)
    else if pathMax ≤ rel.length then none
    else some rel
  | _ => none

/-- Close the directory of a walk, unless it is the root that the walk was given. -/
def closeWalk (root cur : ℤ) (p : Process ℕ FileData) : Process ℕ FileData :=
  if cur ≠ root then p.close cur else p

/-- The loop of `static_serve_openat_beneath_nofollow` over the text between the slashes.  An empty
piece is a further slash; the last piece is the file, unless it is empty. -/
def openBeneathWalk (root : ℤ) :
    ℤ → List Bytes → Process ℕ FileData → Except Errno ℤ × Process ℕ FileData
  | cur, [], p => (.error .inval, closeWalk root cur p)
  | cur, seg :: rest, p =>
    if seg = [] then openBeneathWalk root cur rest p
    else if nameMax < seg.length then (.error .nametoolong, closeWalk root cur p)
    else if seg = ascii "." ∨ seg = ascii ".." then (.error .acces, closeWalk root cur p)
    else if rest = [] then
      match p.openat cur seg { nofollow := true } with
      | (r, p) => (r, closeWalk root cur p)
    else
      match p.openat cur seg { directory := true, nofollow := true } with
      | (.error e, p) => (.error e, closeWalk root cur p)
      | (.ok next, p) => openBeneathWalk root next rest (closeWalk root cur p)

/-- `static_serve_openat_beneath_nofollow`; without a name `errno` is left as it was. -/
def staticServeOpenatBeneathNofollow (root : ℤ) (relpath : Bytes) (p : Process ℕ FileData) :
    Except Errno ℤ × Process ℕ FileData :=
  if root < 0 ∨ relpath = [] then (.error (.other 0), p)
  else if relpath.head? = some 47 then (.error .inval, p)
  else openBeneathWalk root root (relpath.splitOnP (· == 47)) p

/-- Open a file beneath the document root. -/
def ServeWorld.openBeneath (w : ServeWorld) (cx : ServeCtx) (relpath : Bytes) :
    Except Errno ℤ × ServeWorld :=
  match staticServeOpenatBeneathNofollow cx.docrootFd relpath w.proc with
  | (r, p) => (r, { w with proc := p })

/-- `request_static_open_err_merge`. -/
def requestStaticOpenErrMerge (current : Option Errno) (attempt : Errno) : Option Errno :=
  if attempt = .other 0 then current else some attempt

/-- Open a file beneath the document root, or record why not. -/
def ServeWorld.openOrRecord (w : ServeWorld) (cx : ServeCtx) (relpath : Bytes) :
    Option ℤ × ServeWorld :=
  match w.openBeneath cx relpath with
  | (.ok fd, w) => (some fd, w)
  | (.error e, w) =>
    (none, { w with staticOpenErr := requestStaticOpenErrMerge w.staticOpenErr e })

/-! ## Staged responses -/

/-- The lines of `Accept-Ranges` and `Vary`. -/
def acceptRangesLine : Bytes :=
  headerLine (ascii "Accept-Ranges") (ascii "bytes")

def varyLine : Bytes :=
  headerLine (ascii "Vary") (ascii "Accept-Encoding")

def contentEncodingLine (coding : ContentCoding) : Bytes :=
  headerLine (ascii "Content-Encoding") (compressEncName coding)

/-- The extra headers of a response, in the order in which they are written. -/
structure ExtraHeaders where
  /-- The line of `Content-Range` or `Location`. -/
  lead : Bytes := []
  /-- A body compressed on the fly. -/
  dynamicCoding : Option ContentCoding := none
  validators : Bytes := []
  acceptRanges : Bool := false
  /-- A precompressed file. -/
  siblingCoding : Option ContentCoding := none
  vary : Bool := false
  policy : List Bytes := []
  deriving DecidableEq, Repr

/-- The string `extra_headers`. -/
def ExtraHeaders.text (x : ExtraHeaders) : Bytes :=
  x.lead ++ (x.dynamicCoding.map contentEncodingLine).getD [] ++ x.validators
    ++ (if x.acceptRanges then acceptRangesLine else [])
    ++ (x.siblingCoding.map fun c => contentEncodingLine c ++ varyLine).getD []
    ++ (if x.vary then varyLine else []) ++ x.policy.flatten

/-- The coding of the response by its own `Content-Encoding` line. -/
def ExtraHeaders.coding (x : ExtraHeaders) : Option ContentCoding :=
  x.dynamicCoding.or x.siblingCoding

/-- The arguments of `tx_build_headers` and `tx_begin_headers`. -/
structure StaticResponse where
  kind : RespKind
  statusLine : Bytes
  contentType : Option Bytes
  emitContentLength : Bool := true
  contentLen : ℕ
  keepalive : Bool
  extra : ExtraHeaders
  deriving DecidableEq, Repr

def StaticResponse.spec (resp : StaticResponse) : HeaderSpec :=
  { statusLine := resp.statusLine
    contentType := resp.contentType
    emitContentLength := resp.emitContentLength
    contentLen := resp.contentLen
    keepalive := resp.keepalive
    extraHeaders := resp.extra.text }

/-- The range of a file that `tx_attach_sendfile` attached. -/
structure AttachedFile where
  fd : ℤ
  off : ℕ
  len : ℕ
  deriving DecidableEq, Repr

/-- What a response leaves in `c->tx`: the buffer, of which `body` is the end, and the file. -/
structure Staged where
  resp : StaticResponse
  buf : Bytes
  body : Bytes := []
  file : Option AttachedFile := none
  deriving DecidableEq, Repr

/-- The return value: 0, or 1 with the staged response. -/
inductive ServeResult where
  | passed
  | staged (s : Staged)
  deriving DecidableEq, Repr

/-- `tx_build_headers`, then `tx_begin_headers`; `none` if the first fails. -/
def ServeWorld.build (w : ServeWorld) (cx : ServeCtx) (resp : StaticResponse) (body : Bytes) :
    Option Staged × ServeWorld :=
  ((txBuildHeaders cx.date (nextOk w.builds) resp.spec body).map fun buf => { resp, buf, body },
    { w with builds := w.builds.tail })

/-- Stage a response without a body, or give up. -/
def ServeWorld.answer (w : ServeWorld) (cx : ServeCtx) (resp : StaticResponse) :
    ServeResult × ServeWorld :=
  match w.build cx resp [] with
  | (some s, w) => (.staged s, w)
  | (none, w) => (.passed, w)

/-- Stage the headers of a file, and the file itself unless it is empty. -/
def ServeWorld.sendfile (w : ServeWorld) (cx : ServeCtx) (resp : StaticResponse) (fd : ℤ) (off : ℕ) :
    ServeResult × ServeWorld :=
  match w.build cx resp [] with
  | (none, w) => (.passed, w.close fd)
  | (some s, w) =>
    if 0 < resp.contentLen then
      (.staged { s with file := some ⟨fd, off, resp.contentLen⟩ }, w)
    else (.staged s, w.close fd)

/-! ## Representation -/

/-- The file that is going to be sent: `fd`, `st` and `serving_enc`. -/
structure SelectedFile where
  fd : ℤ
  st : FileStat
  coding : Option ContentCoding
  deriving DecidableEq, Repr

/-- A regular file whose size fits into `size_t`. -/
def FileStat.servable (st : FileStat) : Bool :=
  st.mode == .regular && decide (st.size ≤ sizeMax)

/-- `accepted`: the codings of the `Accept-Encoding` header, where compression is considered at all.
A range is a range of the file itself, so a request with a `Range` header accepts none. -/
def acceptedCodings (cx : ServeCtx) (ctype : Bytes) : CodingMask :=
  if cx.features.compression ∧ compressMimeIsCompressible ctype ∧ cx.served ∧
      ¬ (cx.features.range ∧ (httpHeaderFindValue cx.h1.hdrs.reqHdrs .range).isSome) then
    match httpHeaderFindValue cx.h1.hdrs.reqHdrs .acceptEncoding with
    | some ae => if ae = [] then {} else compressParseAcceptEncoding ae
    | none => {}
  else {}

/-- One round of the search for a precompressed sibling. -/
def probeSibling (cx : ServeCtx) (relpath : Bytes) (sel : SelectedFile) (coding : ContentCoding)
    (w : ServeWorld) : SelectedFile × ServeWorld :=
  if pathMax ≤ (relpath ++ compressEncExt coding).length then (sel, w)
  else
    match w.openBeneath cx (relpath ++ compressEncExt coding) with
    | (.error _, w) => (sel, w)
    | (.ok compFd, w) =>
      match w.fstat compFd with
      | (none, w) => (sel, w.close compFd)
      | (some st, w) =>
        if st.servable then (⟨compFd, st, some coding⟩, w.close sel.fd)
        else (sel, w.close compFd)

/-- The search for a precompressed sibling, brotli before gzip. -/
def probeSiblings (cx : ServeCtx) (relpath : Bytes) (accepted : CodingMask) :
    List ContentCoding → SelectedFile → ServeWorld → SelectedFile × ServeWorld
  | [], sel, w => (sel, w)
  | coding :: rest, sel, w =>
    if sel.coding.isNone ∧ accepted.has coding then
      match probeSibling cx relpath sel coding w with
      | (sel, w) => probeSiblings cx relpath accepted rest sel w
    else probeSiblings cx relpath accepted rest sel w

/-- The loop of `static_serve_assemble_extra_headers_ex` over the policy lines, `used` bytes of the
buffer being taken: the lines that fit, and whether there is one that does not. -/
def appendPolicyLines (bufsz : ℕ) : ℕ → List Bytes → List Bytes × Bool
  | _, [] => ([], false)
  | used, line :: rest =>
    if used + line.length < bufsz then
      match appendPolicyLines bufsz (used + line.length) rest with
      | (lines, overflow) => (line :: lines, overflow)
    else ((appendPolicyLines bufsz used rest).1, true)

/-- The result of `static_serve_assemble_extra_headers_ex`; `serving_enc` is `siblingCoding`. -/
structure Assembled where
  extra : ExtraHeaders
  etag : Bytes
  overflow : Bool
  deriving DecidableEq, Repr

/-- `static_serve_build_validator_headers`, if there is a validator. -/
def staticServeBuildValidatorHeaders (cap : ℕ) (etag lastMod : Bytes) : Bytes :=
  if etag = [] ∧ lastMod = [] then []
  else fitted cap (headerLine (ascii "ETag") etag ++ headerLine (ascii "Last-Modified") lastMod)

/-- `static_serve_assemble_extra_headers_ex`, which starts with no overflow whatever the caller
found. -/
def staticServeAssembleExtraHeaders (bufsz : ℕ) (st : FileStat) (features : Features)
    (servingEnc : Option ContentCoding) (ctype : Bytes) (lines : List Bytes) : Assembled :=
  let etag := if features.conditional then staticServeFormatEtag 64 st else []
  let lastMod := if features.conditional then staticServeFormatLastModified 64 st else []
  let validators := staticServeBuildValidatorHeaders bufsz etag lastMod
  let acceptRanges :=
    features.range && decide (validators.length + acceptRangesLine.length < bufsz)
  let head : ExtraHeaders := { validators, acceptRanges }
  let coding := servingEnc.filter fun c =>
    decide ((contentEncodingLine c ++ varyLine).length < 64 ∧
      head.text.length + (contentEncodingLine c ++ varyLine).length < bufsz)
  let vary :=
    coding.isNone && features.compression && compressMimeIsCompressible ctype
      && decide (head.text.length + varyLine.length < bufsz)
  let head : ExtraHeaders := { head with siblingCoding := coding, vary }
  match appendPolicyLines bufsz head.text.length lines with
  | (policy, overflow) => ⟨{ head with policy }, etag, overflow⟩

/-- The state of the function once the representation is chosen. -/
structure Prepared where
  relpath : Bytes
  ctype : Bytes
  accepted : CodingMask
  sel : SelectedFile
  /-- `orig_serving_enc`. -/
  probed : Option ContentCoding
  extra : ExtraHeaders
  etag : Bytes
  deriving DecidableEq, Repr

/-- The size of `validator_hdrs`. -/
def validatorHdrsMax : ℕ := 2048

/-- `RESP_500`. -/
def resp500 : Bytes :=
  ascii "HTTP/1.1 500 Internal Server Error\r\nContent-Length: 0\r\nConnection: close\r\n\r\n"

/-- The response if the policy headers do not fit. -/
def failClosedResponse : StaticResponse :=
  { kind := .k500
    statusLine := ascii "500 Internal Server Error"
    contentType := none
    contentLen := 0
    keepalive := false
    extra := {} }

/-- Close the file and stage a 500, if need be from its fixed text. -/
def failClosed (cx : ServeCtx) (fd : ℤ) (w : ServeWorld) : ServeResult × ServeWorld :=
  match (w.close fd).build cx failClosedResponse [] with
  | (some s, w) => (.staged s, w)
  | (none, w) => (.staged { resp := failClosedResponse, buf := resp500 }, w)

/-- The policy lines of the response. -/
def policyLines (cx : ServeCtx) : List Bytes :=
  match cx.vhost with
  | none => []
  | some vh => (policySharedCollectHeaders cx.h1 vh).lines.map PolicyLine.line

/-- Choose the representation and assemble its headers. -/
def selectRepresentation (cx : ServeCtx) (relpath : Bytes) (fd : ℤ) (st : FileStat)
    (w : ServeWorld) : Except ServeResult Prepared × ServeWorld :=
  let ctype := staticServeMimeTypeForPath relpath
  let accepted := acceptedCodings cx ctype
  match probeSiblings cx relpath accepted [.brotli, .gzip] ⟨fd, st, none⟩ w with
  | (sel, w) =>
    let a := staticServeAssembleExtraHeaders validatorHdrsMax sel.st cx.features sel.coding ctype
      (policyLines cx)
    if a.overflow then
      match failClosed cx sel.fd w with
      | (r, w) => (.error r, w)
    else if sel.coding.isSome ∧ a.extra.siblingCoding.isNone then
      -- the line of the coding did not fit: back to the file itself
      match (w.close sel.fd).openOrRecord cx relpath with
      | (none, w) => (.error .passed, w)
      | (some fd, w) =>
        match w.fstat fd with
        | (none, w) => (.error .passed, w.close fd)
        | (some st, w) =>
          if st.servable then
            (.ok ⟨relpath, ctype, accepted, ⟨fd, st, none⟩, sel.coding, a.extra, a.etag⟩, w)
          else (.error .passed, w.close fd)
    else
      (.ok ⟨relpath, ctype, accepted, { sel with coding := a.extra.siblingCoding }, sel.coding,
        a.extra, a.etag⟩, w)

/-! ## Conditional requests and ranges -/

/-- `REQUEST_STATIC_SERVE_*`. -/
inductive ServeMode where
  | head
  | buffered
  | sendfile
  deriving DecidableEq, Repr

/-- `request_build_static_serve_plan`. -/
def requestBuildStaticServePlan (method : LlhttpMethod) (fileSize : ℕ) : ServeMode :=
  if method = .head then .head
  else if 0 < fileSize ∧ fileSize < 256 * 1024 then .buffered
  else .sendfile

/-- The response 304: validators, and no line about the content. -/
def notModifiedResponse (cx : ServeCtx) (f : Prepared) : StaticResponse :=
  { kind := .k304
    statusLine := ascii "304 Not Modified"
    contentType := none
    emitContentLength := false
    contentLen := 0
    keepalive := cx.h1.wantKeepalive
    extra := f.extra }

/-- Is the request answered with 304? -/
def notModified (cx : ServeCtx) (f : Prepared) : Bool :=
  cx.features.conditional && cx.served && decide (f.etag ≠ [])
    && staticServeCheckNotModified cx.h1.hdrs.reqHdrs f.sel.st f.etag

/-- The range that the request is answered for: that of its `Range` header, if the feature is on, the
method is `GET`, the header is valid and `If-Range` matches. -/
def appliedRange (cx : ServeCtx) (f : Prepared) : Option ByteRange :=
  if cx.features.range ∧ cx.h1.method = .get then
    match httpHeaderFindValue cx.h1.hdrs.reqHdrs .range with
    | none => none
    | some value =>
      if value = [] then none
      else
        (httpRangeParse value).filter fun _ =>
          staticServeIfRangeMatches cx.h1.hdrs.reqHdrs f.sel.st f.etag
  else none

/-- The response 416. -/
def unsatisfiableResponse (cx : ServeCtx) (f : Prepared) : StaticResponse :=
  { kind := .k416
    statusLine := ascii "416 Range Not Satisfiable"
    contentType := none
    contentLen := 0
    keepalive := cx.h1.wantKeepalive
    extra :=
      { f.extra with lead := httpRangeFormatContentRangeUnsatisfied 128 f.sel.st.size } }

/-- The response 206. -/
def partialResponse (cx : ServeCtx) (f : Prepared) (rr : ResolvedRange) : StaticResponse :=
  { kind := .k206
    statusLine := ascii "206 Partial Content"
    contentType := some f.ctype
    contentLen := rr.length
    keepalive := cx.h1.wantKeepalive
    extra :=
      { f.extra with
        lead := httpRangeFormatContentRange 128 rr.start rr.stop f.sel.st.size } }

/-- `extra_headers` fits into a buffer of `cap` bytes. -/
def StaticResponse.extraFits (resp : StaticResponse) (cap : ℕ) : Bool :=
  decide (resp.extra.text ≠ [] ∧ resp.extra.text.length < cap)

/-- Send a range from a buffer: the result, or the descriptor that is left, `none` if it is closed. -/
def partialBuffered (cx : ServeCtx) (f : Prepared) (rr : ResolvedRange) (w : ServeWorld) :
    Except ServeResult (Option ℤ) × ServeWorld :=
  match w.malloc with
  | (false, w) => (.ok (some f.sel.fd), w)
  | (true, w) =>
    match w.lseek with
    | (false, w) => (.ok (some f.sel.fd), w)
    | (true, w) =>
      match w.readAll f.sel.fd rr.start rr.length with
      | (got, w) =>
        let w := w.close f.sel.fd
        if got.length = rr.length then
          match w.build cx (partialResponse cx f rr) got with
          | (some s, w) => (.error (.staged s), w)
          | (none, w) => (.ok none, w)
        else (.ok none, w)

/-- The label `done`. -/
def doneWith (fd : Option ℤ) (w : ServeWorld) : ServeResult × ServeWorld :=
  match fd with
  | some fd => (.passed, w.close fd)
  | none => (.passed, w)

/-- Send a satisfiable range. -/
def servePartial (cx : ServeCtx) (f : Prepared) (rr : ResolvedRange) (w : ServeWorld) :
    ServeResult × ServeWorld :=
  if !(partialResponse cx f rr).extraFits (validatorHdrsMax + 256) then doneWith (some f.sel.fd) w
  else if requestBuildStaticServePlan cx.h1.method rr.length = .buffered ∨
      cx.tls ∧ requestBuildStaticServePlan cx.h1.method rr.length = .sendfile then
    match partialBuffered cx f rr w with
    | (.error r, w) => (r, w)
    | (.ok fd, w) =>
      if cx.tls then doneWith fd w
      else
        match fd with
        | some fd => w.sendfile cx (partialResponse cx f rr) fd rr.start
        | none =>
          match w.openOrRecord cx f.relpath with
          | (none, w) => (.passed, w)
          | (some fd, w) => w.sendfile cx (partialResponse cx f rr) fd rr.start
  else w.sendfile cx (partialResponse cx f rr) f.sel.fd rr.start

/-- Answer a range. -/
def serveRange (cx : ServeCtx) (f : Prepared) (br : ByteRange) (w : ServeWorld) :
    ServeResult × ServeWorld :=
  match httpRangeResolve br f.sel.st.size with
  | some rr => servePartial cx f rr w
  | none =>
    let w := w.close f.sel.fd
    if (unsatisfiableResponse cx f).extraFits (validatorHdrsMax + 128) then
      w.answer cx (unsatisfiableResponse cx f)
    else (.passed, w)

/-! ## The whole file -/

/-- May the file be compressed on the fly? -/
def dynEligible (cx : ServeCtx) (f : Prepared) : Bool :=
  match cx.vhost with
  | none => false
  | some vh =>
    f.sel.coding.isNone && vh.features.compression && decide (vh.compDynamic = some true)
      && compressMimeIsCompressible f.ctype && cx.h1.method == .get
      && (f.accepted.gzip || cx.haveBrotli && f.accepted.brotli)
      && decide (vh.compDynamicMinBytes.getD 256 ≤ f.sel.st.size)
      && decide (f.sel.st.size ≤ vh.compDynamicMaxBytes.getD (2 ^ 20))

/-- The mode after the two corrections: TLS and compression need the bytes in a buffer. -/
def serveMode (cx : ServeCtx) (f : Prepared) : ServeMode :=
  match requestBuildStaticServePlan cx.h1.method f.sel.st.size with
  | .sendfile => if cx.tls ∨ dynEligible cx f then .buffered else .sendfile
  | mode => mode

/-- Compress with one coding. -/
def compressWith (cx : ServeCtx) (level : ℕ) (bytes : Bytes) : ContentCoding → CompressResult
  | .gzip => compressGzip cx.codec bytes level
  | .brotli => compressBrotli cx.codec bytes (if level ≤ 11 then level else 4)

/-- The loop over the codings: the first that the client accepts and that makes the text shorter. -/
def compressFirst (cx : ServeCtx) (accepted : CodingMask) (level : ℕ) (bytes : Bytes) :
    List ContentCoding → Option (ContentCoding × Bytes)
  | [] => none
  | coding :: rest =>
    if accepted.has coding then
      match compressWith cx level bytes coding with
      | .ok out => some (coding, out)
      | _ => compressFirst cx accepted level bytes rest
    else compressFirst cx accepted level bytes rest

/-- Dynamic compression of the text that was read. -/
def dynCompress (cx : ServeCtx) (f : Prepared) (bytes : Bytes) : Option (ContentCoding × Bytes) :=
  if dynEligible cx f then
    compressFirst cx f.accepted ((cx.vhost.bind Vhost.compDynamicEffort).getD 1) bytes
      (if cx.haveBrotli then [.brotli, .gzip] else [.gzip])
  else none

/-- The response 200 for a text of `len` bytes. -/
def fullResponse (cx : ServeCtx) (f : Prepared) (len : ℕ) : StaticResponse :=
  { kind := if cx.h1.wantKeepalive then .okKa else .okClose
    statusLine := ascii "200 OK"
    contentType := some f.ctype
    contentLen := len
    keepalive := cx.h1.wantKeepalive
    extra := f.extra }

/-- The response 200 for a text that was compressed on the fly.  Its coding gets a line of its own if
no sibling was found. -/
def compressedResponse (cx : ServeCtx) (f : Prepared) (coding : ContentCoding) (len : ℕ) :
    StaticResponse :=
  { fullResponse cx f len with
    extra := if f.probed.isNone then { f.extra with dynamicCoding := some coding } else f.extra }

/-- The whole file again by `sendfile`, after the buffer failed; `len` is `fsz` as it stands. -/
def reopenAndSend (cx : ServeCtx) (f : Prepared) (len : ℕ) (w : ServeWorld) :
    ServeResult × ServeWorld :=
  match w.openOrRecord cx f.relpath with
  | (none, w) => (.passed, w)
  | (some fd, w) => w.sendfile cx (fullResponse cx f len) fd 0

/-- Stage a response with its body in the buffer; the file is closed.  If that fails, a plain
connection reopens it. -/
def buildOrReopen (cx : ServeCtx) (f : Prepared) (resp : StaticResponse) (body : Bytes)
    (w : ServeWorld) : ServeResult × ServeWorld :=
  match w.build cx resp body with
  | (some s, w) => (.staged s, w)
  | (none, w) => if cx.tls then (.passed, w) else reopenAndSend cx f resp.contentLen w

/-- Send the bytes that were read. -/
def serveBytes (cx : ServeCtx) (f : Prepared) (bytes : Bytes) (w : ServeWorld) :
    ServeResult × ServeWorld :=
  match dynCompress cx f bytes with
  | some (coding, out) =>
    if f.probed.isNone ∧
        validatorHdrsMax + 64 ≤ (compressedResponse cx f coding out.length).extra.text.length then
      (.passed, w)
    else buildOrReopen cx f (compressedResponse cx f coding out.length) out w
  | none => buildOrReopen cx f (fullResponse cx f f.sel.st.size) bytes w

/-- What follows the reading of the whole file. -/
def serveRead (cx : ServeCtx) (f : Prepared) (got : Bytes) (w : ServeWorld) :
    ServeResult × ServeWorld :=
  if got.length = f.sel.st.size then serveBytes cx f got w
  else if cx.tls then (.passed, w)
  else reopenAndSend cx f f.sel.st.size w

/-- Send the whole file from a buffer.  If there is no buffer, the descriptor is closed for TLS only:
the reopened one takes its place. -/
def serveBuffered (cx : ServeCtx) (f : Prepared) (w : ServeWorld) : ServeResult × ServeWorld :=
  match w.malloc with
  | (false, w) =>
    if cx.tls then doneWith (some f.sel.fd) w else reopenAndSend cx f f.sel.st.size w
  | (true, w) =>
    match w.readAll f.sel.fd 0 f.sel.st.size with
    | (got, w) => serveRead cx f got (w.close f.sel.fd)

/-- The switch over the mode. -/
def serveFull (cx : ServeCtx) (f : Prepared) (w : ServeWorld) : ServeResult × ServeWorld :=
  match serveMode cx f with
  | .head => (w.close f.sel.fd).answer cx (fullResponse cx f f.sel.st.size)
  | .buffered => serveBuffered cx f w
  | .sendfile => w.sendfile cx (fullResponse cx f f.sel.st.size) f.sel.fd 0

/-! ## The request -/

/-- Collapse leading slashes. -/
def collapseSlashes (path : Bytes) : Bytes :=
  if path.head? = some 47 then 47 :: path.dropWhile (· == 47) else path

/-- The line `Location` for a directory: the path of the target with a slash, and its query. -/
def locationLine (h1 : Http1State) : Bytes :=
  headerLine (ascii "Location")
    (collapseSlashes (h1.target.take h1.pathLen)
      ++ if 0 < h1.queryLen then ascii "/?" ++ (h1.target.drop h1.queryOff).take h1.queryLen
        else ascii "/")

/-- The response 301. -/
def redirectResponse (cx : ServeCtx) : StaticResponse :=
  { kind := .k301
    statusLine := ascii "301 Moved Permanently"
    contentType := none
    contentLen := 0
    keepalive := cx.h1.wantKeepalive
    extra := { lead := locationLine cx.h1 } }

/-- What is not a regular file: a directory without its slash is redirected. -/
def serveOther (cx : ServeCtx) (fd : ℤ) (st : FileStat) (w : ServeWorld) :
    ServeResult × ServeWorld :=
  let w := w.close fd
  if st.mode = .directory ∧ !cx.h1.pathEndsWithSlash ∧
      (locationLine cx.h1).length < reqTargetMax + 16 then
    w.answer cx (redirectResponse cx)
  else (.passed, w)

/-- The path of the requested file beneath the document root. -/
def requestedPath (cx : ServeCtx) : Option Bytes :=
  staticServeBuildDocrootRelpath cx.h1.pathNorm cx.h1.pathEndsWithSlash
    ((cx.vhost.map Vhost.indexFile).getD [])

/-- Open the requested file, unless it is not a regular one. -/
def openRequested (cx : ServeCtx) (w : ServeWorld) :
    Except ServeResult (Bytes × ℤ × FileStat) × ServeWorld :=
  if cx.docrootFd < 0 then (.error .passed, w)
  else
    match requestedPath cx with
    | none => (.error .passed, w)
    | some relpath =>
      match w.openOrRecord cx relpath with
      | (none, w) => (.error .passed, w)
      | (some fd, w) =>
        match w.fstat fd with
        | (none, w) => (.error .passed, w.close fd)
        | (some st, w) =>
          if st.servable then (.ok (relpath, fd, st), w)
          else
            match serveOther cx fd st w with
            | (r, w) => (.error r, w)

/-- Everything before the whole file is sent. -/
def prepareFull (cx : ServeCtx) (w : ServeWorld) : Except ServeResult Prepared × ServeWorld :=
  match openRequested cx w with
  | (.error r, w) => (.error r, w)
  | (.ok (relpath, fd, st), w) =>
    match selectRepresentation cx relpath fd st w with
    | (.error r, w) => (.error r, w)
    | (.ok f, w) =>
      if notModified cx f then
        match (w.close f.sel.fd).answer cx (notModifiedResponse cx f) with
        | (r, w) => (.error r, w)
      else
        match appliedRange cx f with
        | some br =>
          match serveRange cx f br w with
          | (r, w) => (.error r, w)
        | none => (.ok f, w)

/-- `static_serve_try_prepare_docroot_response`. -/
def staticServeTryPrepareDocrootResponse (cx : ServeCtx) (w : ServeWorld) :
    ServeResult × ServeWorld :=
  match prepareFull cx w with
  | (.error r, w) => (r, w)
  | (.ok f, w) => serveFull cx f w

end Lamseryn
