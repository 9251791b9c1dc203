import Lamseryn.Framework.Runs
import Lamseryn.Properties.HeaderEnd
import Lamseryn.Properties.FeedFrames
import Lamseryn.Properties.LoopClosure
import Lamseryn.Properties.Scripted

/-!
# A reset connection is a new one

`conn_reset_request` clears a connection field by field and leaves what `conn_init` took from the
configuration.  Parsing changes none of that, whatever bytes arrive, so behind every reset in every history
the connection is the one `conn_init` makes, apart from the stash, the descriptor and the memory of the
arena (`restart_eq_connInit`).
-/

namespace Lamseryn

open ByteText GuardedRun

variable {L : Llhttp}

/-! ## What the configuration fixes -/

/-- The part of the request state that `conn_init` takes from the virtual host and no request changes. -/
def Http1State.limits (s : Http1State) : BitVec 64 × ℕ :=
  (s.hdrs.reqHdrStoreMask, s.hdrFieldsMax)

lemma arenaAlloc_limits (s : Http1State) : s.arenaAlloc.2.limits = s.limits := by
  unfold Http1State.arenaAlloc
  cases s.arena <;> rfl

lemma onUrl_limits (s : Http1State) (piece : Bytes) : (onUrl s piece).limits = s.limits := by
  have halloc := arenaAlloc_limits s
  unfold onUrl
  rcases h : s.arenaAlloc with ⟨ok, t⟩
  rw [h] at halloc
  dsimp only
  split_ifs
  · rfl
  · rfl
  · rfl
  · cases ok <;> exact halloc
  · cases ok <;> exact halloc
  · rfl

lemma h1HdrsEnsureCap_limits (s : Http1State) (need : ℕ) :
    (h1HdrsEnsureCap s need).2.limits = s.limits := by
  have halloc := arenaAlloc_limits s
  unfold h1HdrsEnsureCap
  rcases h : s.arenaAlloc with ⟨ok, t⟩
  rw [h] at halloc
  split_ifs
  · rfl
  · cases ok <;> exact halloc
  · cases ok <;> exact halloc

lemma h1StoreHeader_limits (s : Http1State) (id : HttpHeaderId) :
    (h1StoreHeader s id).limits = s.limits := by
  unfold h1StoreHeader
  dsimp only
  split_ifs
  · rcases hcap : h1HdrsEnsureCap _ _ with ⟨ok, t⟩
    have hroom := h1HdrsEnsureCap_limits
      { s with hdrs := { s.hdrs with reqHdrSeenMask := s.hdrs.reqHdrSeenMask ||| httpHeaderBit id } }
      (s.hdrs.reqHdrs.length + 1)
    rw [hcap] at hroom
    cases ok with
    | false => exact hroom
    | true =>
      -- the copies of the name and of the value
      have hboth : t.arenaAlloc.2.arenaAlloc.2.limits = s.limits :=
        (arenaAlloc_limits _).trans ((arenaAlloc_limits t).trans hroom)
      dsimp only
      split_ifs <;> exact hboth
  · rfl

lemma h1FinalizeInterestedHeader_limits (s : Http1State) :
    (h1FinalizeInterestedHeader s).limits = s.limits := by
  have hseen : ∀ t : Http1State, (http1HeaderFieldSeen t).limits = t.limits := by
    intro t
    unfold http1HeaderFieldSeen
    split_ifs <;> rfl
  have hcapture : ∀ t : Http1State, (h1CaptureHeader t).limits = t.limits := by
    intro t
    unfold h1CaptureHeader
    cases h1WantedHeader t.hdrs t.acc.hdrName with
    | none => rfl
    | some id => exact h1StoreHeader_limits t id
  have hframe : ∀ t : Http1State, (h1FrameHeader t).limits = t.limits := by
    intro t
    unfold h1FrameHeader
    split_ifs <;> rfl
  unfold h1FinalizeInterestedHeader h1ProcessHeader
  split_ifs
  · rfl
  · exact hseen _
  · exact (hframe _).trans ((hcapture _).trans (hseen _))

lemma onHeaderField_limits (s : Http1State) (piece : Bytes) :
    (onHeaderField s piece).limits = s.limits := by
  unfold onHeaderField
  split_ifs
  · rfl
  · rfl
  · exact h1FinalizeInterestedHeader_limits s
  · rfl

lemma onHeaderValue_limits (s : Http1State) (piece : Bytes) :
    (onHeaderValue s piece).limits = s.limits := by
  unfold onHeaderValue
  split_ifs <;> rfl

lemma onHeadersComplete_limits (vh : Option Vhost) (s : Http1State) (method : LlhttpMethod)
    (keepAlive : Bool) : (onHeadersComplete vh s method keepAlive).limits = s.limits := by
  have hframing : ∀ t : Http1State, (h1CompleteFraming vh t).limits = t.limits := by
    intro t
    have hpart := h1CompleteFraming_headerPart vh t
    exact Prod.ext (congrArg (fun p : HeaderPart => p.hdrs.reqHdrStoreMask) hpart)
      (congrArg HeaderPart.hdrFieldsMax hpart)
  unfold onHeadersComplete
  dsimp only
  refine (hframing _).trans ?_
  split_ifs
  · exact h1FinalizeInterestedHeader_limits _
  · rfl

lemma onBody_limits (s : Http1State) (piece : Bytes) : (onBody s piece).1.limits = s.limits := by
  unfold onBody
  dsimp only
  split_ifs <;> rfl

lemma runCallbacks_limits (vh : Option Vhost) (s : Http1State) (cbs : List Callback) :
    (runCallbacks vh s cbs).1.limits = s.limits := by
  induction cbs generalizing s with
  | nil => rfl
  | cons cb cbs ih =>
    have hrun : (cb.run vh s).1.limits = s.limits := by
      cases cb with
      | messageBegin => rfl
      | url piece => exact onUrl_limits s piece
      | headerField piece => exact onHeaderField_limits s piece
      | headerValue piece => exact onHeaderValue_limits s piece
      | headersComplete method keepAlive => exact onHeadersComplete_limits vh s method keepAlive
      | body piece => exact onBody_limits s piece
      | messageComplete => rfl
    unfold runCallbacks
    rcases hcb : cb.run vh s with ⟨t, stop⟩
    rw [hcb] at hrun
    cases stop with
    | true => exact hrun
    | false => exact (ih t).trans hrun

lemma httpPipelineFeed_limits (c : Conn L) (buf : Bytes) :
    (httpPipelineFeed c buf).1.h1.limits = c.h1.limits := by
  have hcount : (countHeaderBytes c buf.length).h1.limits = c.h1.limits := by
    unfold countHeaderBytes
    dsimp only
    split_ifs <;> rfl
  have hclear : ∀ before c' : Conn L, (clearPendingLine before c').h1.limits = c'.h1.limits := by
    intro before c'
    unfold clearPendingLine
    split_ifs <;> rfl
  have herror : ∀ (c' : Conn L) (err : LlhttpErrno),
      (httpParserError c' err buf).h1.limits = c'.h1.limits := by
    intro c' err
    have htol : (llhttpShouldTolerate c' err buf).2.h1 = c'.h1 := by
      unfold llhttpShouldTolerate
      split_ifs
      · rfl
      all_goals cases err <;> rfl
    unfold httpParserError
    split_ifs
    · rfl
    · rcases hr : llhttpShouldTolerate c' err buf with ⟨b, d⟩
      rw [hr] at htol
      have hlimits : d.h1.limits = c'.h1.limits := congrArg Http1State.limits htol
      cases b with
      | true => exact hlimits
      | false =>
        dsimp only
        split_ifs <;> exact hlimits
  unfold httpPipelineFeed
  dsimp only
  split_ifs
  · rfl
  · rfl
  · exact (hclear c _).trans hcount
  · have hfeed := runCallbacks_limits (countHeaderBytes c buf.length).vhost
      (countHeaderBytes c buf.length).h1 (L.execute (countHeaderBytes c buf.length).parser buf).callbacks
    exact (hclear c _).trans ((herror _ _).trans (hfeed.trans hcount))

lemma rxStages_limits (c : Conn L) (buf : Bytes) : (rxStages c buf).1.h1.limits = c.h1.limits := by
  have hhead : (feedHead c buf).1.h1.limits = c.h1.limits := by
    unfold feedHead
    split_ifs
    · exact httpPipelineFeed_limits c buf
    · rfl
  have hbody : ∀ (d : Conn L) (rest : Bytes), (feedBody d rest).1.h1.limits = d.h1.limits := by
    intro d rest
    unfold feedBody
    dsimp only
    split_ifs
    · exact httpPipelineFeed_limits d rest
    · rfl
    · exact httpPipelineFeed_limits d _
    · rfl
  exact (hbody _ _).trans hhead

/-! ## Behind every reset -/

/-- The connection that `conn_init` makes, with the memory, the stash and the descriptor of another. -/
def Conn.renewed (w : Worker L) (vhost : Option Vhost) (tls : Bool) (c : Conn L) : Conn L :=
  { connInit w vhost tls c.h1.arena with rxStash := c.rxStash, fdOpen := c.fdOpen }

/-- The configuration of the connection is the one it was accepted with, and so is the connection behind
each reset so far. -/
structure Restartable (w : Worker L) (vhost : Option Vhost) (tls : Bool) (l : Loop L) : Prop where
  sameVhost : l.conn.vhost = vhost
  sameTls : l.conn.tlsEnabled = tls
  limits : l.conn.h1.limits = (connInit w vhost tls []).h1.limits
  restarts : ∀ c ∈ l.restarts, c = c.renewed w vhost tls

lemma Restartable.reset_conn {w : Worker L} {vhost : Option Vhost} {tls : Bool} {l : Loop L}
    (h : Restartable w vhost tls l) :
    (connResetRequest w l).conn = (connResetRequest w l).conn.renewed w vhost tls := by
  have hmask : l.conn.h1.hdrs.reqHdrStoreMask = _ := congrArg Prod.fst h.limits
  have hmax : l.conn.h1.hdrFieldsMax = _ := congrArg Prod.snd h.limits
  unfold connResetRequest Conn.renewed connInit Http1State.reset txReset
  dsimp only
  rw [h.sameVhost, h.sameTls, hmask, hmax]
  rfl

lemma restartable_closed (w : Worker L) (vhost : Option Vhost) (tls : Bool) :
    LoopClosed w (Restartable w vhost tls) where
  conn _ _ _ _ _ _ _ h := ⟨h.sameVhost, h.sameTls, h.limits, h.restarts⟩
  outer _ _ _ _ _ _ h := ⟨h.sameVhost, h.sameTls, h.limits, h.restarts⟩
  want _ _ h := ⟨h.sameVhost, h.sameTls, h.limits, h.restarts⟩
  take l buf h := by
    have hparse := rxStages_parse l.conn buf
    exact ⟨hparse.vhost.trans h.sameVhost, hparse.tlsEnabled.trans h.sameTls,
      (rxStages_limits l.conn buf).trans h.limits, h.restarts⟩
  reset l h := by
    refine ⟨h.sameVhost, h.sameTls, h.limits, ?_⟩
    intro c hc
    rcases List.mem_append.mp hc with hold | hnew
    · exact h.restarts c hold
    · rw [List.mem_singleton.mp hnew]
      exact h.reset_conn

/-- **Nothing of a request outlives its reset.**  In every session, the connection that a reset of the
request left with an empty stash is the one that `conn_init` makes with the same virtual host and limits, on
the memory that the connection has; so whatever surrounds it and whatever happens next, the loop does what
it does with a new connection. -/
theorem restart_eq_connInit (w : Worker L) (vhost : Option Vhost) (tls : Bool) (arena : List Bool)
    (hs : HsStatus) (env : Env) {es : List (SessionEvent × Env)} {s : Session L}
    (hrun : Run (Session.step w) (fun s e => s.enabled e = true)
      (acceptSession w vhost tls arena hs env) es s)
    {c : Conn L} (hc : c ∈ s.loop.restarts) (hstash : c.rxStash = []) :
    c = { connInit w vhost tls c.h1.arena with fdOpen := c.fdOpen } ∧
      ∀ (around : Loop L) (done : Bool) (next : List (SessionEvent × Env)),
        next.foldl (Session.step w) ⟨{ around with conn := c }, done⟩ =
          next.foldl (Session.step w)
            ⟨{ around with conn := { connInit w vhost tls c.h1.arena with fdOpen := c.fdOpen } }, done⟩ := by
  have hclosed := restartable_closed w vhost tls
  have hinv : Restartable w vhost tls s.loop := by
    refine hrun.invariant (fun _ s => Restartable w vhost tls s.loop) ?_ ?_
    · refine hclosed.acceptSession vhost tls arena hs env ⟨rfl, rfl, rfl, ?_⟩
      intro c hc
      exact absurd hc (List.not_mem_nil)
    · intro _ s e h _
      exact hclosed.step e h
  have hnew : c = { connInit w vhost tls c.h1.arena with fdOpen := c.fdOpen } := by
    have hrenewed := hinv.restarts c hc
    unfold Conn.renewed at hrenewed
    rw [hstash] at hrenewed
    exact hrenewed
  refine ⟨hnew, fun around done next => ?_⟩
  exact congrArg
    (fun d => next.foldl (Session.step w) ⟨{ around with conn := d }, done⟩) hnew

/-- A request is answered, and the connection is reset once. -/
def answeredScript :
    Script (Session.step (sampleWorker (scripted bareRequest)))
      (fun s e => s.enabled e = true)
      (acceptSession (sampleWorker (scripted bareRequest)) (some {}) false [] .done {})
      fun s => s.loop.restarts.length = 1 ∧ ∀ c ∈ s.loop.restarts, c.rxStash = [] where
  events := [(.io (.recv (.data (scriptBytes bareRequest))), {}), (.io (.write (.sent 1)), {})]
  allowed := by decide +kernel
  ends := by decide +kernel

/-- A request is answered, and the connection is as new. -/
theorem restart_eq_connInit_answered :
    ∃ s c, Run (Session.step (sampleWorker (scripted bareRequest))) (fun s e => s.enabled e = true)
        (acceptSession (sampleWorker (scripted bareRequest)) (some {}) false [] .done {})
        [(.io (.recv (.data (scriptBytes bareRequest))), {}), (.io (.write (.sent 1)), {})] s ∧
      (c ∈ s.loop.restarts ∧ c.rxStash = []) ∧
      c = { connInit (sampleWorker (scripted bareRequest)) (some {}) false c.h1.arena with
        fdOpen := c.fdOpen } := by
  obtain ⟨s, hrun, hone, hempty⟩ := answeredScript.exists_run
  obtain ⟨c, hc⟩ := List.length_eq_one_iff.mp hone
  have hmem : c ∈ s.loop.restarts := hc ▸ List.mem_singleton_self c
  exact ⟨s, c, hrun, ⟨hmem, hempty c hmem⟩,
    (restart_eq_connInit _ _ _ _ _ _ hrun hmem (hempty c hmem)).1⟩

end Lamseryn
