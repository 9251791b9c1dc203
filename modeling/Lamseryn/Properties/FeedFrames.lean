import Lamseryn.Model.Pipeline

/-!
# What feeding received bytes can do

`http_pipeline_feed` and the two stages of the read paths change only the parsing state of a
connection (`ParseStep`), and they see nothing else of it (`rxStages_onto`).
-/

namespace Lamseryn

open ByteText

variable {L : Llhttp}

/-! ## The parsing state -/

/-- The connection with another parsing state. -/
def Conn.withParse (c : Conn L) (h1 : Http1State) (parser : L.State) (parserBytes : ℕ)
    (pendingLineError : Bool) : Conn L :=
  { c with
    h1 := h1
    parser := parser
    parserBytes := parserBytes
    pendingLineError := pendingLineError }

/-- From `c` to `c'` only the parsing state has changed. -/
def ParseStep (c c' : Conn L) : Prop :=
  c' = c.withParse c'.h1 c'.parser c'.parserBytes c'.pendingLineError

lemma ParseStep.trans {c c' c'' : Conn L} (h : ParseStep c c') (h' : ParseStep c' c'') :
    ParseStep c c'' := by
  unfold ParseStep at *
  rw [h] at h'
  exact h'

lemma countHeaderBytes_parse (c : Conn L) (n : ℕ) : ParseStep c (countHeaderBytes c n) := by
  unfold countHeaderBytes
  dsimp only
  split_ifs <;> rfl

lemma httpParserError_parse (c : Conn L) (err : LlhttpErrno) (buf : Bytes) :
    ParseStep c (httpParserError c err buf) := by
  have htol : ParseStep c (llhttpShouldTolerate c err buf).2 := by
    unfold llhttpShouldTolerate
    split_ifs
    · rfl
    all_goals cases err <;> rfl
  unfold httpParserError
  split_ifs
  · rfl
  · rcases hr : llhttpShouldTolerate c err buf with ⟨b, c'⟩
    rw [hr] at htol
    cases b with
    | true => exact htol
    | false =>
      refine htol.trans ?_
      dsimp only
      split_ifs <;> rfl

lemma httpPipelineFeed_parse (c : Conn L) (buf : Bytes) :
    ParseStep c (httpPipelineFeed c buf).1 := by
  have hclear : ∀ before c' : Conn L, ParseStep c' (clearPendingLine before c') := by
    intro before c'
    unfold clearPendingLine
    split_ifs <;> rfl
  have hcount := countHeaderBytes_parse c buf.length
  unfold httpPipelineFeed
  dsimp only
  split_ifs
  · rfl
  · rfl
  · exact hcount.trans (hclear c _)
  · have hfeed : ParseStep (countHeaderBytes c buf.length)
        (httpParserFeed (countHeaderBytes c buf.length) buf).1 := rfl
    exact ((hcount.trans hfeed).trans (httpParserError_parse _ _ buf)).trans (hclear c _)

lemma feedHead_parse (c : Conn L) (buf : Bytes) : ParseStep c (feedHead c buf).1 := by
  unfold feedHead
  split_ifs
  · exact httpPipelineFeed_parse c buf
  · rfl

lemma feedBody_parse (c : Conn L) (buf : Bytes) : ParseStep c (feedBody c buf).1 := by
  unfold feedBody
  dsimp only
  split_ifs
  · exact httpPipelineFeed_parse c buf
  · rfl
  · exact (httpPipelineFeed_parse c _).trans rfl
  · rfl

lemma rxStages_parse (c : Conn L) (buf : Bytes) : ParseStep c (rxStages c buf).1 :=
  (feedHead_parse c buf).trans (feedBody_parse _ _)

lemma rxStages_of_headerTooBig {c : Conn L} (h : c.h1.headerTooBig = true) (buf : Bytes) :
    rxStages c buf = (c, 0) := by
  simp [rxStages, feedHead, feedBody, stillParsing, h]

section Fields

variable {c c' : Conn L}

lemma ParseStep.tx (h : ParseStep c c') : c'.tx = c.tx := by
  rw [h]
  rfl

lemma ParseStep.vhost (h : ParseStep c c') : c'.vhost = c.vhost := by
  rw [h]
  rfl

lemma ParseStep.closing (h : ParseStep c c') : c'.closing = c.closing := by
  rw [h]
  rfl

lemma ParseStep.draining (h : ParseStep c c') : c'.draining = c.draining := by
  rw [h]
  rfl

lemma ParseStep.fdOpen (h : ParseStep c c') : c'.fdOpen = c.fdOpen := by
  rw [h]
  rfl

lemma ParseStep.tlsEnabled (h : ParseStep c c') : c'.tlsEnabled = c.tlsEnabled := by
  rw [h]
  rfl

end Fields

/-! ## What is not read -/

/-- The parsing state of `c` on the connection `d`. -/
def Conn.onto (c d : Conn L) : Conn L :=
  { d with
    h1 := c.h1
    parser := c.parser
    parserBytes := c.parserBytes
    maxHeaderBytes := c.maxHeaderBytes
    pendingLineError := c.pendingLineError
    vhost := c.vhost }

section Onto

variable (c d : Conn L)

lemma countHeaderBytes_onto (n : ℕ) :
    countHeaderBytes (c.onto d) n = (countHeaderBytes c n).onto d := by
  unfold countHeaderBytes
  rw [apply_ite (Conn.onto · d)]
  dsimp only
  rw [apply_ite (Conn.onto · d)]
  rfl

lemma llhttpShouldTolerate_onto (err : LlhttpErrno) (buf : Bytes) :
    llhttpShouldTolerate (c.onto d) err buf =
      Prod.map id (Conn.onto · d) (llhttpShouldTolerate c err buf) := by
  unfold llhttpShouldTolerate
  rw [apply_ite (Prod.map id (Conn.onto · d))]
  cases err with
  | invalidHeaderToken =>
    dsimp only
    rw [apply_ite (Prod.map id (Conn.onto · d))]
    rfl
  | _ => rfl

lemma httpParserError_onto (err : LlhttpErrno) (buf : Bytes) :
    httpParserError (c.onto d) err buf = (httpParserError c err buf).onto d := by
  unfold httpParserError
  rw [llhttpShouldTolerate_onto, apply_ite (Conn.onto · d)]
  rcases llhttpShouldTolerate c err buf with ⟨b, c'⟩
  cases b with
  | true => rfl
  | false =>
    dsimp only
    rw [apply_ite (Conn.onto · d)]
    rfl

lemma clearPendingLine_onto (before : Conn L) :
    clearPendingLine (before.onto d) (c.onto d) = (clearPendingLine before c).onto d := by
  unfold clearPendingLine
  rw [apply_ite (Conn.onto · d)]
  rfl

lemma httpPipelineFeed_onto (buf : Bytes) :
    httpPipelineFeed (c.onto d) buf = Prod.map (Conn.onto · d) id (httpPipelineFeed c buf) := by
  have hfeed : ∀ c' : Conn L, httpParserFeed (c'.onto d) buf =
      Prod.map (Conn.onto · d) id (httpParserFeed c' buf) := fun _ => rfl
  unfold httpPipelineFeed
  rw [countHeaderBytes_onto]
  dsimp only
  rw [hfeed, Prod.map_fst, httpParserError_onto, clearPendingLine_onto, clearPendingLine_onto]
  rw [apply_ite (Prod.map (Conn.onto · d) id), apply_ite (Prod.map (Conn.onto · d) id),
    apply_ite (Prod.map (Conn.onto · d) id)]
  rfl

lemma feedHead_onto (buf : Bytes) :
    feedHead (c.onto d) buf = Prod.map (Conn.onto · d) id (feedHead c buf) := by
  unfold feedHead
  rw [httpPipelineFeed_onto, apply_ite (Prod.map (Conn.onto · d) id)]
  rfl

end Onto
/-! ## The request state -/

lemma countHeaderBytes_cases (c : Conn L) (n : ℕ) :
    ∃ p, countHeaderBytes c n = { c with parserBytes := p } ∨
      (c.h1.headersDone = false ∧
        countHeaderBytes c n =
          { c with parserBytes := p, h1 := { c.h1 with headerTooBig := true } }) := by
  unfold countHeaderBytes
  dsimp only
  split_ifs with hdone hbig
  · exact ⟨c.parserBytes, Or.inl rfl⟩
  · exact ⟨_, Or.inr ⟨by simpa using hdone, rfl⟩⟩
  · exact ⟨_, Or.inl rfl⟩

@[simp] lemma clearPendingLine_h1 (before c : Conn L) : (clearPendingLine before c).h1 = c.h1 := by
  unfold clearPendingLine
  split_ifs <;> rfl

/-- An llhttp error changes the request state only by a parse error, and not if it is tolerated. -/
lemma httpParserError_h1 (c : Conn L) (err : LlhttpErrno) (buf : Bytes) :
    (httpParserError c err buf).h1 = c.h1 ∨
      (httpParserError c err buf).h1 = { c.h1 with parseError := true } ∧
        ¬ (err = .ok ∨ err = .paused ∨ (llhttpShouldTolerate c err buf).1 = true) := by
  have htol : (llhttpShouldTolerate c err buf).2.h1 = c.h1 := by
    unfold llhttpShouldTolerate
    split_ifs
    · rfl
    all_goals cases err <;> rfl
  unfold httpParserError
  split_ifs with herr
  · exact Or.inl rfl
  · rcases hr : llhttpShouldTolerate c err buf with ⟨b, c'⟩
    rw [hr] at htol
    change c'.h1 = c.h1 at htol
    cases b with
    | true => exact Or.inl htol
    | false =>
      dsimp only
      split_ifs
      · exact Or.inl htol
      · refine Or.inr ⟨by rw [htol], ?_⟩
        rintro (h | h | h)
        · exact herr (Or.inl h)
        · exact herr (Or.inr h)
        · exact absurd h (by decide)

lemma llhttpShouldTolerate_congr (c c' : Conn L) (err : LlhttpErrno) (buf : Bytes)
    (hdone : c'.h1.headersDone = c.h1.headersDone)
    (hline : c'.pendingLineError = c.pendingLineError) :
    (llhttpShouldTolerate c' err buf).1 = (llhttpShouldTolerate c err buf).1 := by
  unfold llhttpShouldTolerate
  rw [hdone, hline]
  split_ifs
  · rfl
  all_goals cases err <;> rfl

end Lamseryn
