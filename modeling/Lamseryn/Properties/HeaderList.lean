import Lamseryn.Framework.FieldAssembly
import Lamseryn.Properties.HeaderEnd

/-!
# The header list

The three-state accumulator behind `on_header_field` and `on_header_value` is the reader of
`Framework/FieldAssembly.lean` with bounded buffers: `accumOf` is the accumulator that a reader
state leaves in `struct http1_state`, and `runCallbacks_pieces` is the simulation.  Every field
the reader completes is one call of `h1_finalize_interested_header` on that field
(`finalizeField`), so what the header callbacks do to the request state is a fold over the
completed fields.

`runCallbacks_headers` does the same for a whole header section with its `on_headers_complete`,
and `headerListFaithful_iff` draws the conclusion: the fields finalised are the fields of the
message, whatever the splitting, exactly when no value is empty.
-/

namespace Lamseryn

open ByteText FieldAssembly

/-- A header field of a message. -/
abbrev HeaderField := FieldAssembly.Field UInt8

/-- The delivery of a header field through consecutive callbacks. -/
abbrev HeaderDelivery := Delivery UInt8

/-! ## The accumulator of a reader state -/

/-- A header name as `hdr_name` holds it: in lower case and cut to 31 bytes. -/
def cutName (n : Bytes) : Bytes :=
  (lower n).take (reqHdrNameMax - 1)

/-- A header value as `hdr_val` holds it: in lower case and cut to 63 bytes. -/
def cutValue (v : Bytes) : Bytes :=
  (lower v).take (hdrValMax - 1)

/-- A field as it reaches `h1_finalize_interested_header`: the cut name, the first 127 bytes of the
value, and whether the value is longer. -/
def cutField (f : HeaderField) : FinalizedField :=
  ⟨cutName f.name, f.value.take (reqHdrValueMax - 1), decide (reqHdrValueMax - 1 < f.value.length)⟩

/-- The accumulator that a reader state leaves. -/
def accumOf : Pending UInt8 → HdrAccum
  | .idle => {}
  | .name n => { hdrState := .name, hdrName := cutName n }
  | .value n v =>
    { hdrState := .value
      hdrInterest := hdrInterestOf (cutName n)
      hdrName := cutName n
      hdrVal := if hdrInterestOf (cutName n) ≠ .none then cutValue v else []
      hdrValRaw := v.take (reqHdrValueMax - 1)
      hdrValRawTruncated := decide (reqHdrValueMax - 1 < v.length) }

/-- The callback that reports a piece. -/
def pieceCallback : Piece UInt8 → Callback
  | .name x => .headerField x
  | .value x => .headerValue x

/-- The header callbacks of a list of deliveries. -/
def headerCallbacks (ds : List HeaderDelivery) : List Callback :=
  (ds.flatMap Delivery.pieces).map pieceCallback

/-! ## Bounded appends -/

/-- The lower-case append keeps the first `cap - 1` bytes of the whole text. -/
lemma h1HdrAppendLower_take (cap : ℕ) (v piece : Bytes) :
    h1HdrAppendLower cap ((lower v).take (cap - 1)) piece =
      (lower (v ++ piece)).take (cap - 1) := by
  induction piece generalizing v with
  | nil => simp [h1HdrAppendLower]
  | cons b piece ih =>
    have hsnoc : lower v ++ [lowerByte b] = lower (v ++ [b]) := by simp [lower]
    by_cases hroom : v.length + 1 < cap
    · have hfit : (lower v).take (cap - 1) = lower v := List.take_of_length_le (by simp; omega)
      have hfit' : (lower (v ++ [b])).take (cap - 1) = lower (v ++ [b]) :=
        List.take_of_length_le (by simp; omega)
      have hih := ih (v ++ [b])
      rw [hfit'] at hih
      rw [h1HdrAppendLower, hfit, lower_length, if_pos hroom, hsnoc, hih, List.append_assoc,
        List.singleton_append]
    · -- the buffer is full: the text past `cap - 1` does not matter
      have hfull : ¬ ((lower v).take (cap - 1)).length + 1 < cap := by simp; omega
      have hlong : cap - 1 ≤ (lower v).length := by simp; omega
      rw [h1HdrAppendLower, if_neg hfull, lower_append, List.take_append_of_le_length hlong]

/-- The raw append keeps the first `cap - 1` bytes of the whole text and reports whether bytes of
this piece were dropped. -/
lemma h1HdrAppendRaw_take (cap : ℕ) (v piece : Bytes) :
    h1HdrAppendRaw cap (v.take (cap - 1)) piece =
      ((v ++ piece).take (cap - 1),
        decide (cap - 1 < min v.length (cap - 1) + piece.length)) := by
  induction piece generalizing v with
  | nil => simp [h1HdrAppendRaw]
  | cons b piece ih =>
    by_cases hroom : v.length + 1 < cap
    · have hfit : v.take (cap - 1) = v := List.take_of_length_le (by omega)
      have hfit' : (v ++ [b]).take (cap - 1) = v ++ [b] := List.take_of_length_le (by simp; omega)
      have hih := ih (v ++ [b])
      rw [hfit'] at hih
      rw [h1HdrAppendRaw, hfit, if_pos hroom, hih]
      simp only [List.append_assoc, List.singleton_append, Prod.mk.injEq, decide_eq_decide,
        List.length_append, List.length_cons, List.length_nil, true_and]
      omega
    · have hfull : ¬ (v.take (cap - 1)).length + 1 < cap := by simp; omega
      have hlong : cap - 1 ≤ v.length := by omega
      rw [h1HdrAppendRaw, if_neg hfull, ih v]
      simp only [List.take_append_of_le_length hlong, Prod.mk.injEq, true_and,
        List.length_cons]
      exact (decide_eq_true (by omega)).symm

/-! ## What finalising a field does -/

/-- `h1_finalize_interested_header` on the field `f`. -/
def finalizeField (s : Http1State) (f : HeaderField) : Http1State :=
  h1FinalizeInterestedHeader { s with acc := accumOf (.value f.name f.value) }

lemma h1HdrsEnsureCap_cases (s : Http1State) (need : ℕ) :
    ∃ b r cap, h1HdrsEnsureCap s need =
      (b, { s with arena := r, hdrs := { s.hdrs with reqHdrCap := cap } }) := by
  by_cases hcap : need ≤ s.hdrs.reqHdrCap
  · exact ⟨true, s.arena, s.hdrs.reqHdrCap, by simp [h1HdrsEnsureCap, hcap]⟩
  · obtain ⟨b, r, hb⟩ := arenaAlloc_cases s
    cases b with
    | false => exact ⟨false, r, s.hdrs.reqHdrCap, by simp [h1HdrsEnsureCap, hcap, hb]⟩
    | true =>
      exact ⟨true, r,
        min (max (if s.hdrs.reqHdrCap = 0 then 8 else s.hdrs.reqHdrCap * 2) need) reqHdrsMax,
        by simp only [h1HdrsEnsureCap, if_neg hcap, hb]⟩

/-- Storing a header marks it as seen and adds at most one entry, with a value that fits its buffer;
beyond the captured headers it can only use the arena and report an allocation failure. -/
lemma h1StoreHeader_cases (s : Http1State) (id : HttpHeaderId) :
    ∃ l cap r e k, h1StoreHeader s id =
      { s with
        hdrs :=
          { s.hdrs with
            reqHdrSeenMask := s.hdrs.reqHdrSeenMask ||| httpHeaderBit id
            reqHdrs := l
            reqHdrCap := cap }
        arena := r
        internalError := e
        wantKeepalive := k } ∧
      (l = s.hdrs.reqHdrs ∨
        ∃ entry, entry.value.length < reqHdrValueMax ∧ l = s.hdrs.reqHdrs ++ [entry]) := by
  unfold h1StoreHeader
  dsimp only
  split_ifs with hroom
  · generalize hs : ({ s with hdrs := { s.hdrs with
      reqHdrSeenMask := s.hdrs.reqHdrSeenMask ||| httpHeaderBit id } } : Http1State) = s1
    obtain ⟨b, r, cap, hb⟩ := h1HdrsEnsureCap_cases s1 (s.hdrs.reqHdrs.length + 1)
    rw [hb]
    cases b with
    | false => exact ⟨s.hdrs.reqHdrs, cap, r, true, false, by subst hs; rfl, .inl rfl⟩
    | true =>
      dsimp only
      generalize hs2 : ({ s1 with arena := r, hdrs := { s1.hdrs with reqHdrCap := cap } } :
        Http1State) = s2
      obtain ⟨nameOk, r2, h2⟩ := arenaAlloc_cases s2
      rw [h2]
      dsimp only
      obtain ⟨valueOk, r3, h3⟩ := arenaAlloc_cases { s2 with arena := r2 }
      rw [h3]
      dsimp only
      split_ifs
      · refine ⟨_, cap, r3, s.internalError, s.wantKeepalive, by subst hs2; subst hs; rfl,
          .inr ⟨_, ?_, by subst hs2; subst hs; rfl⟩⟩
        exact lt_of_le_of_lt (List.length_take_le _ _) (by decide)
      · exact ⟨s.hdrs.reqHdrs, cap, r3, true, false, by subst hs2; subst hs; rfl, .inl rfl⟩
  · exact ⟨s.hdrs.reqHdrs, s.hdrs.reqHdrCap, s.arena, s.internalError, s.wantKeepalive, rfl, .inl rfl⟩

lemma h1CaptureHeader_cases (s : Http1State) :
    ∃ h r e k, h1CaptureHeader s =
      { s with hdrs := h, arena := r, internalError := e, wantKeepalive := k } := by
  unfold h1CaptureHeader
  split
  · exact ⟨s.hdrs, s.arena, s.internalError, s.wantKeepalive, rfl⟩
  · rename_i id _
    obtain ⟨l, cap, r, e, k, h, -⟩ := h1StoreHeader_cases s id
    exact ⟨_, r, e, k, h⟩

lemma nextFieldsCount_le_succ (s : Http1State) : nextFieldsCount s ≤ s.hdrFieldsCount + 1 := by
  unfold nextFieldsCount
  split_ifs <;> omega

/-- The field counter takes at most one step, and the limit flag is raised only past the limit. -/
lemma http1HeaderFieldSeen_cases (s : Http1State) :
    ∃ n b t k, http1HeaderFieldSeen s =
      { s with
        hdrFieldsCount := n
        headerTooBig := b
        headerFieldsTooMany := t
        wantKeepalive := k } ∧
      (n = s.hdrFieldsCount ∨ n = nextFieldsCount s) ∧
      (s.headerTooBig = true → b = true) ∧
      (s.headerTooBig = false → s.hdrFieldsMax = 0 ∨ s.hdrFieldsCount + 1 ≤ s.hdrFieldsMax →
        b = false) := by
  have hle := nextFieldsCount_le_succ s
  unfold http1HeaderFieldSeen
  split_ifs with hbig hname hlimit
  · exact ⟨s.hdrFieldsCount, s.headerTooBig, s.headerFieldsTooMany, s.wantKeepalive, rfl,
      Or.inl rfl, id, fun h _ => h⟩
  · exact ⟨s.hdrFieldsCount, s.headerTooBig, s.headerFieldsTooMany, s.wantKeepalive, rfl,
      Or.inl rfl, id, fun h _ => h⟩
  · refine ⟨nextFieldsCount s, true, true, false, rfl, Or.inr rfl, fun _ => rfl, fun _ hroom => ?_⟩
    omega
  · exact ⟨nextFieldsCount s, s.headerTooBig, s.headerFieldsTooMany, s.wantKeepalive, rfl,
      Or.inr rfl, id, fun h _ => h⟩

lemma h1FrameHeader_cases (s : Http1State) :
    ∃ f, h1FrameHeader s = { s with framing := f } := by
  unfold h1FrameHeader
  split_ifs
  · exact ⟨s.framing, rfl⟩
  · exact ⟨_, rfl⟩

/-- What finalising a field can change beyond the history: the field counter and its limit flag,
the captured headers, the framing state, and the arena with its failure flags. -/
lemma h1ProcessHeader_cases (s : Http1State) :
    ∃ n b t h r e k f, h1ProcessHeader s =
      { s with
        hdrFieldsCount := n
        headerTooBig := b
        headerFieldsTooMany := t
        hdrs := h
        arena := r
        internalError := e
        wantKeepalive := k
        framing := f } ∧
      (n = s.hdrFieldsCount ∨ n = nextFieldsCount s) ∧
      (s.headerTooBig = true → b = true) ∧
      (s.headerTooBig = false → s.hdrFieldsMax = 0 ∨ s.hdrFieldsCount + 1 ≤ s.hdrFieldsMax →
        b = false) := by
  unfold h1ProcessHeader
  split_ifs with herr hbig
  · exact ⟨s.hdrFieldsCount, s.headerTooBig, s.headerFieldsTooMany, s.hdrs, s.arena,
      s.internalError, s.wantKeepalive, s.framing, rfl, Or.inl rfl, id, fun h _ => h⟩
  · obtain ⟨n, b, t, k, hseen, hn, hmono, hlimit⟩ := http1HeaderFieldSeen_cases s
    rw [hseen]
    exact ⟨n, b, t, s.hdrs, s.arena, s.internalError, k, s.framing, rfl, hn, hmono, hlimit⟩
  · obtain ⟨n, b, t, k, hseen, hn, hmono, hlimit⟩ := http1HeaderFieldSeen_cases s
    obtain ⟨h, r, e, k', hcap⟩ := h1CaptureHeader_cases (http1HeaderFieldSeen s)
    obtain ⟨f, hframe⟩ := h1FrameHeader_cases (h1CaptureHeader (http1HeaderFieldSeen s))
    rw [hframe, hcap, hseen]
    exact ⟨n, b, t, h, r, e, k', f, rfl, hn, hmono, hlimit⟩

/-! ## Finalising a list of fields -/

lemma finalizeField_acc (s : Http1State) (f : HeaderField) :
    (finalizeField s f).acc = accumOf (.value f.name f.value) := by
  unfold finalizeField h1FinalizeInterestedHeader
  obtain ⟨n, b, t, h, r, e, k, fr, heq, -⟩ := h1ProcessHeader_cases _
  rw [heq]

lemma finalizeField_finalized (s : Http1State) (f : HeaderField) :
    (finalizeField s f).finalized = s.finalized ++ [cutField f] := by
  unfold finalizeField h1FinalizeInterestedHeader
  obtain ⟨n, b, t, h, r, e, k, fr, heq, -⟩ := h1ProcessHeader_cases _
  rw [heq]
  rfl

lemma finalizeField_hdrFieldsMax (s : Http1State) (f : HeaderField) :
    (finalizeField s f).hdrFieldsMax = s.hdrFieldsMax := by
  unfold finalizeField h1FinalizeInterestedHeader
  obtain ⟨n, b, t, h, r, e, k, fr, heq, -⟩ := h1ProcessHeader_cases _
  rw [heq]

lemma finalizeField_hdrFieldsCount_le (s : Http1State) (f : HeaderField) :
    (finalizeField s f).hdrFieldsCount ≤ s.hdrFieldsCount + 1 := by
  unfold finalizeField h1FinalizeInterestedHeader
  obtain ⟨n, b, t, h, r, e, k, fr, heq, hn, -⟩ := h1ProcessHeader_cases _
  have hle := nextFieldsCount_le_succ s
  rw [heq]
  rcases hn with hn | hn
  · exact hn.trans_le (Nat.le_succ _)
  · exact hn.trans_le hle

lemma finalizeField_headerTooBig (s : Http1State) (f : HeaderField)
    (hbig : s.headerTooBig = true) : (finalizeField s f).headerTooBig = true := by
  unfold finalizeField h1FinalizeInterestedHeader
  obtain ⟨n, b, t, h, r, e, k, fr, heq, -, hmono, -⟩ := h1ProcessHeader_cases _
  rw [heq]
  exact hmono hbig

lemma finalizeField_headerTooBig_of_room (s : Http1State) (f : HeaderField)
    (hbig : s.headerTooBig = false)
    (hroom : s.hdrFieldsMax = 0 ∨ s.hdrFieldsCount + 1 ≤ s.hdrFieldsMax) :
    (finalizeField s f).headerTooBig = false := by
  unfold finalizeField h1FinalizeInterestedHeader
  obtain ⟨n, b, t, h, r, e, k, fr, heq, -, -, hlimit⟩ := h1ProcessHeader_cases _
  rw [heq]
  exact hlimit hbig hroom

lemma foldl_finalizeField_acc (s : Http1State) (a : HdrAccum) (fs : List HeaderField) :
    fs.foldl finalizeField { s with acc := a } =
      if fs = [] then { s with acc := a } else fs.foldl finalizeField s := by
  cases fs <;> rfl

lemma foldl_finalizeField_finalized (s : Http1State) (fs : List HeaderField) :
    (fs.foldl finalizeField s).finalized = s.finalized ++ fs.map cutField := by
  induction fs generalizing s with
  | nil => simp
  | cons f fs ih => simp [ih, finalizeField_finalized]

lemma foldl_finalizeField_headerTooBig (s : Http1State) (fs : List HeaderField)
    (hbig : s.headerTooBig = true) : (fs.foldl finalizeField s).headerTooBig = true := by
  induction fs generalizing s with
  | nil => exact hbig
  | cons f fs ih => exact ih _ (finalizeField_headerTooBig s f hbig)

lemma foldl_finalizeField_headerTooBig_of_room (s : Http1State) (fs : List HeaderField)
    (hbig : s.headerTooBig = false)
    (hroom : s.hdrFieldsMax = 0 ∨ s.hdrFieldsCount + fs.length ≤ s.hdrFieldsMax) :
    (fs.foldl finalizeField s).headerTooBig = false := by
  induction fs generalizing s with
  | nil => exact hbig
  | cons f fs ih =>
    have hcount := finalizeField_hdrFieldsCount_le s f
    simp only [List.length_cons] at hroom
    refine ih _ (finalizeField_headerTooBig_of_room s f hbig (by omega)) ?_
    rw [finalizeField_hdrFieldsMax]
    omega

/-! ## The callbacks simulate the reader -/

/-- `on_header_field` is the reader's name step: it finalises the field that was open. -/
lemma onHeaderField_eq (s : Http1State) (p : Pending UInt8) (piece : Bytes) (hne : piece ≠ [])
    (hacc : s.acc = accumOf p) (hbig : s.headerTooBig = false) :
    onHeaderField s piece =
      { (p.addName piece).2.foldl finalizeField s with acc := accumOf (p.addName piece).1 } := by
  cases p with
  | idle =>
    have hlow := h1HdrAppendLower_take reqHdrNameMax [] piece
    simp only [lower_nil, List.take_nil, List.nil_append] at hlow
    simp [onHeaderField, hne, hbig, hacc, accumOf, Pending.addName, hlow, cutName]
  | name n =>
    have hlow := h1HdrAppendLower_take reqHdrNameMax n piece
    simp [onHeaderField, hne, hbig, hacc, accumOf, Pending.addName, cutName, hlow]
  | value n v =>
    have hlow := h1HdrAppendLower_take reqHdrNameMax [] piece
    simp only [lower_nil, List.take_nil, List.nil_append] at hlow
    have hs : h1FinalizeInterestedHeader s = finalizeField s ⟨n, v⟩ := by
      rw [finalizeField, ← hacc]
    simp [onHeaderField, hne, hbig, hacc, accumOf, Pending.addName, cutName, hlow, hs,
      httpParserResetHeaderState]

lemma openValue_accumOf (p : Pending UInt8) :
    (accumOf p).openValue =
      match p with
      | .idle => accumOf (.value [] [])
      | .name n => accumOf (.value n [])
      | .value n v => accumOf (.value n v) := by
  cases p <;> simp [HdrAccum.openValue, accumOf, cutValue, cutName]

lemma appendValue_accumOf (n v piece : Bytes) :
    (accumOf (.value n v)).appendValue piece = accumOf (.value n (v ++ piece)) := by
  have hraw := h1HdrAppendRaw_take reqHdrValueMax v piece
  have hlow := h1HdrAppendLower_take hdrValMax v piece
  have hcut : (decide (reqHdrValueMax - 1 < v.length) ||
      decide (reqHdrValueMax - 1 < min v.length (reqHdrValueMax - 1) + piece.length)) =
      decide (reqHdrValueMax - 1 < (v ++ piece).length) := by
    rw [← Bool.decide_or, decide_eq_decide, List.length_append]
    omega
  simp only [HdrAccum.appendValue, accumOf, hraw, hcut, HdrAccum.mk.injEq, true_and, and_true]
  split_ifs with hint
  · exact hlow
  · rfl

/-- `on_header_value` is the reader's value step. -/
lemma onHeaderValue_eq (s : Http1State) (p : Pending UInt8) (piece : Bytes) (hne : piece ≠ [])
    (hacc : s.acc = accumOf p) (hbig : s.headerTooBig = false) :
    onHeaderValue s piece = { s with acc := accumOf (p.addValue piece) } := by
  have happend : s.acc.openValue.appendValue piece = accumOf (p.addValue piece) := by
    rw [hacc, openValue_accumOf]
    cases p <;> simp [appendValue_accumOf, Pending.addValue]
  simp only [onHeaderValue, if_neg hne, hbig, happend, Bool.false_eq_true, if_false]

lemma pieceCallback_run (vh : Option Vhost) (s : Http1State) (p : Pending UInt8)
    (x : Piece UInt8) (hacc : s.acc = accumOf p) (hbig : s.headerTooBig = false) :
    (pieceCallback x).run vh s =
      ({ (p.step x).2.foldl finalizeField s with acc := accumOf (p.step x).1 }, false) := by
  cases x with
  | name x =>
    cases x with
    | nil => simp [pieceCallback, Callback.run, onHeaderField, Pending.step, ← hacc]
    | cons a x =>
      simp only [pieceCallback, Callback.run, Pending.step]
      rw [onHeaderField_eq s p (a :: x) (by simp) hacc hbig]
  | value x =>
    cases x with
    | nil => simp [pieceCallback, Callback.run, onHeaderValue, Pending.step, ← hacc]
    | cons a x =>
      simp only [pieceCallback, Callback.run, Pending.step]
      rw [onHeaderValue_eq s p (a :: x) (by simp) hacc hbig]
      rfl

lemma pieceCallback_run_of_headerTooBig (vh : Option Vhost) (s : Http1State) (x : Piece UInt8)
    (hbig : s.headerTooBig = true) : (pieceCallback x).run vh s = (s, false) := by
  cases x <;> simp [pieceCallback, Callback.run, onHeaderField, onHeaderValue, hbig]

/-- **Simulation.**  Header callbacks finalise the fields the reader completes, in order, and leave
the accumulator of the reader's state, as long as the field limit is not reached. -/
lemma runCallbacks_pieces (vh : Option Vhost) (s : Http1State) (p : Pending UInt8)
    (xs : List (Piece UInt8)) (hacc : s.acc = accumOf p)
    (hbig : ((p.feed xs).2.foldl finalizeField s).headerTooBig = false) :
    runCallbacks vh s (xs.map pieceCallback) =
      ({ (p.feed xs).2.foldl finalizeField s with acc := accumOf (p.feed xs).1 }, false) := by
  induction xs generalizing s p with
  | nil => simp [runCallbacks, ← hacc]
  | cons x xs ih =>
    rw [Pending.feed_cons, List.foldl_append] at hbig
    have hbig0 : s.headerTooBig = false := by
      by_contra h
      have h' := foldl_finalizeField_headerTooBig s (p.step x).2 (by simpa using h)
      rw [foldl_finalizeField_headerTooBig _ _ h'] at hbig
      exact Bool.noConfusion hbig
    have hrest := ih { (p.step x).2.foldl finalizeField s with acc := accumOf (p.step x).1 }
      (p.step x).1 rfl (by rw [foldl_finalizeField_acc]; split_ifs with h <;> simp_all)
    rw [List.map_cons, runCallbacks, pieceCallback_run vh s p x hacc hbig0]
    dsimp only
    rw [hrest, foldl_finalizeField_acc, Pending.feed_cons, List.foldl_append]
    split_ifs with h <;> simp [h]

lemma runCallbacks_pieces_headerTooBig (vh : Option Vhost) (s : Http1State) (p : Pending UInt8)
    (xs : List (Piece UInt8)) (hacc : s.acc = accumOf p)
    (hbig : ((p.feed xs).2.foldl finalizeField s).headerTooBig = true) :
    ∃ s', runCallbacks vh s (xs.map pieceCallback) = (s', false) ∧ s'.headerTooBig = true := by
  induction xs generalizing s p with
  | nil => exact ⟨s, rfl, hbig⟩
  | cons x xs ih =>
    rw [List.map_cons, runCallbacks]
    by_cases hbig0 : s.headerTooBig = true
    · -- the callbacks are ignored from here on
      rw [pieceCallback_run_of_headerTooBig vh s x hbig0]
      exact ih s p hacc (foldl_finalizeField_headerTooBig s _ hbig0)
    · rw [pieceCallback_run vh s p x hacc (by simpa using hbig0)]
      rw [Pending.feed_cons, List.foldl_append] at hbig
      refine ih _ (p.step x).1 rfl ?_
      rw [foldl_finalizeField_acc]
      split_ifs with h <;> simp_all

/-! ## The header section as a whole -/

/-- The request state in which `on_headers_complete` makes its decisions: every field of the
deliveries has been finalised, the last one by `on_headers_complete` itself. -/
def headersState (s : Http1State) (ds : List HeaderDelivery) (method : LlhttpMethod)
    (keepAlive : Bool) : Http1State :=
  let r := Pending.idle.feed (ds.flatMap Delivery.pieces)
  r.1.flush.foldl finalizeField
    ({ r.2.foldl finalizeField s with acc := accumOf r.1 }.enterComplete method keepAlive)

/-- A request state at the start of a header section. -/
structure Http1State.AtHeaders (s : Http1State) : Prop where
  acc : s.acc = {}
  framing : s.framing = {}
  finalized : s.finalized = []
  hdrFieldsCount : s.hdrFieldsCount = 0
  headerTooBig : s.headerTooBig = false

/-- The fields of a header section are within the configured number. -/
def withinFieldLimit (s : Http1State) (ds : List HeaderDelivery) : Prop :=
  s.hdrFieldsMax = 0 ∨ ds.length ≤ s.hdrFieldsMax

lemma completed_length_le (ds : List HeaderDelivery) (hname : ∀ d ∈ ds, d.field.name ≠ []) :
    (Pending.idle.completed ds).length ≤ ds.length := by
  rw [Pending.completed_length _ ds hname]
  have hfilter := List.length_filter_le (fun f : HeaderField => !f.value.isEmpty)
    (ds.map Delivery.field)
  simpa [Pending.flush] using hfilter

lemma foldl_finalizeField_hdrFieldsCount_le (s : Http1State) (fs : List HeaderField) :
    (fs.foldl finalizeField s).hdrFieldsCount ≤ s.hdrFieldsCount + fs.length := by
  induction fs generalizing s with
  | nil => simp
  | cons f fs ih =>
    have hcount := finalizeField_hdrFieldsCount_le s f
    have hrest := ih (finalizeField s f)
    simp only [List.foldl_cons, List.length_cons]
    omega

lemma foldl_finalizeField_hdrFieldsMax (s : Http1State) (fs : List HeaderField) :
    (fs.foldl finalizeField s).hdrFieldsMax = s.hdrFieldsMax := by
  induction fs generalizing s with
  | nil => rfl
  | cons f fs ih => rw [List.foldl_cons, ih, finalizeField_hdrFieldsMax]

section Headers

variable {s : Http1State} {ds : List HeaderDelivery}

lemma feed_headerTooBig (hs : s.AtHeaders) (hname : ∀ d ∈ ds, d.field.name ≠ [])
    (hlimit : withinFieldLimit s ds) :
    ((Pending.idle.feed (ds.flatMap Delivery.pieces)).2.foldl finalizeField s).headerTooBig
      = false := by
  have hlen := completed_length_le ds hname
  rw [Pending.completed, List.length_append] at hlen
  refine foldl_finalizeField_headerTooBig_of_room s _ hs.headerTooBig ?_
  rw [hs.hdrFieldsCount]
  rcases hlimit with h | h
  · exact Or.inl h
  · exact Or.inr (by omega)

/-- The header callbacks and `on_headers_complete` together. -/
lemma runCallbacks_headers (vh : Option Vhost) (hs : s.AtHeaders)
    (hname : ∀ d ∈ ds, d.field.name ≠ []) (hlimit : withinFieldLimit s ds)
    (method : LlhttpMethod) (keepAlive : Bool) :
    runCallbacks vh s (headerCallbacks ds ++ [.headersComplete method keepAlive]) =
      (h1CompleteFraming vh (headersState s ds method keepAlive).clearBody, false) := by
  have hpieces := runCallbacks_pieces vh s .idle (ds.flatMap Delivery.pieces) hs.acc
    (feed_headerTooBig hs hname hlimit)
  rw [headerCallbacks, runCallbacks_append hpieces]
  simp only [runCallbacks, Callback.run, onHeadersComplete, headersState]
  -- `on_headers_complete` finalises exactly the field that is still open
  cases hp : (Pending.idle.feed (ds.flatMap Delivery.pieces)).1 with
  | idle => simp [Http1State.enterComplete, accumOf, Pending.flush]
  | name n => simp [Http1State.enterComplete, accumOf, Pending.flush]
  | value n v => simp [Http1State.enterComplete, accumOf, Pending.flush, finalizeField]

lemma headersState_finalized (hs : s.AtHeaders) (method : LlhttpMethod) (keepAlive : Bool) :
    (headersState s ds method keepAlive).finalized =
      (Pending.idle.completed ds).map cutField := by
  simp only [headersState, foldl_finalizeField_finalized, Http1State.enterComplete, hs.finalized,
    Pending.completed, List.map_append, List.nil_append]

lemma headersState_hdrFieldsMax (s : Http1State) (ds : List HeaderDelivery) (method : LlhttpMethod)
    (keepAlive : Bool) :
    (headersState s ds method keepAlive).hdrFieldsMax = s.hdrFieldsMax := by
  rw [headersState, foldl_finalizeField_hdrFieldsMax]
  exact foldl_finalizeField_hdrFieldsMax s _

lemma headersState_hdrFieldsCount_le (hs : s.AtHeaders) (hname : ∀ d ∈ ds, d.field.name ≠ [])
    (method : LlhttpMethod) (keepAlive : Bool) :
    (headersState s ds method keepAlive).hdrFieldsCount ≤ ds.length := by
  have hlen := completed_length_le ds hname
  rw [Pending.completed, List.length_append] at hlen
  have hcount := foldl_finalizeField_hdrFieldsCount_le s
    (Pending.idle.feed (ds.flatMap Delivery.pieces)).2
  rw [hs.hdrFieldsCount] at hcount
  refine (foldl_finalizeField_hdrFieldsCount_le _ _).trans ?_
  simp only [Http1State.enterComplete]
  omega

lemma headersState_headerTooBig (hs : s.AtHeaders) (hname : ∀ d ∈ ds, d.field.name ≠ [])
    (hlimit : withinFieldLimit s ds) (method : LlhttpMethod) (keepAlive : Bool) :
    (headersState s ds method keepAlive).headerTooBig = false := by
  have hlen := completed_length_le ds hname
  rw [Pending.completed, List.length_append] at hlen
  refine foldl_finalizeField_headerTooBig_of_room _ _ (feed_headerTooBig hs hname hlimit) ?_
  have hcount := foldl_finalizeField_hdrFieldsCount_le s
    (Pending.idle.feed (ds.flatMap Delivery.pieces)).2
  have hmax := foldl_finalizeField_hdrFieldsMax s
    (Pending.idle.feed (ds.flatMap Delivery.pieces)).2
  have hzero := hs.hdrFieldsCount
  simp only [Http1State.enterComplete]
  rcases hlimit with h | h
  · exact Or.inl (by omega)
  · exact Or.inr (by omega)

end Headers

/-- The header list is faithful for a message: the fields handed to
`h1_finalize_interested_header` up to and including `on_headers_complete` are the message's fields
in order, cut to the buffers, and the field limit is not reported. -/
def HeaderListFaithful (vh : Option Vhost) (s : Http1State) (ds : List HeaderDelivery)
    (method : LlhttpMethod) (keepAlive : Bool) : Prop :=
  let r := (runCallbacks vh s (headerCallbacks ds ++ [.headersComplete method keepAlive])).1
  r.finalized = (ds.map Delivery.field).map cutField ∧ r.headerTooBig = false

/-- **Header list fidelity.**  For every list of header fields within the field limit and every
way of splitting names and values into callbacks, the finalised fields are the fields of the
message exactly when no value is empty.  An empty value is not noticed: the name of its field runs
into the next name, or is lost at the end of the section. -/
theorem headerListFaithful_iff (vh : Option Vhost) (s : Http1State) (ds : List HeaderDelivery)
    (method : LlhttpMethod) (keepAlive : Bool) (hs : s.AtHeaders)
    (hname : ∀ d ∈ ds, d.field.name ≠ []) (hlimit : withinFieldLimit s ds) :
    HeaderListFaithful vh s ds method keepAlive ↔ ∀ d ∈ ds, d.field.value ≠ [] := by
  have hrun := runCallbacks_headers vh hs hname hlimit method keepAlive
  have hpart := h1CompleteFraming_headerPart vh (headersState s ds method keepAlive).clearBody
  generalize h1CompleteFraming vh (headersState s ds method keepAlive).clearBody = r at hrun hpart
  have hfin : r.finalized = (Pending.idle.completed ds).map cutField :=
    (congrArg HeaderPart.finalized hpart).trans (headersState_finalized hs method keepAlive)
  have hbig : r.headerTooBig = false :=
    (congrArg HeaderPart.headerTooBig hpart).trans
      (headersState_headerTooBig hs hname hlimit method keepAlive)
  unfold HeaderListFaithful
  rw [hrun]
  simp only [hfin, hbig, and_true]
  exact Pending.completed_map_eq_iff cutField ds hname

/-- One field delivered as one name piece and one value piece. -/
def wholeField (name value : String) : HeaderDelivery :=
  ⟨[ascii name], [ascii value]⟩

/-- Two fields with values, the second split inside its name and its value. -/
theorem headerListFaithful_host_split :
    HeaderListFaithful none {}
      [wholeField "Host" "a", ⟨[ascii "Content-", ascii "Length"], [ascii "1", ascii "2"]⟩]
      .get true :=
  (headerListFaithful_iff none {} _ .get true ⟨rfl, rfl, rfl, rfl, rfl⟩ (by decide)
    (Or.inl rfl)).mpr (by decide)

/-- A field with an empty value swallows the `Content-Length` that follows it: one field named
`acontent-length` is finalised instead of two. -/
theorem headerListFaithful_fails_on_empty_value :
    ¬ HeaderListFaithful none {}
      [⟨[ascii "A"], [[]]⟩, wholeField "Content-Length" "5"] .get true := by
  unfold HeaderListFaithful
  decide

end Lamseryn
