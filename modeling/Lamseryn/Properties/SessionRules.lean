import Lamseryn.Properties.HandlerRules

/-!
# Rules for what sessions keep

The rules for the handlers, extended to whole events: how a completion arrives in a connection at rest,
and how the connection comes to rest again.  `SessionRules.step` is the step lemma of every result
about sessions; the places where results differ are its hypotheses: a completed send or write poll,
received bytes that do not fit the stash, the second decrypted read of one event, and an expired request
deadline.
-/

namespace Lamseryn

open ByteText IoView

variable {L : Llhttp}

/-- Handler rules with what holds at rest. -/
structure SessionRules (w : Worker L) (Rest Fresh : IoView → Prop)
    (Completed : IoRes → IoView → Prop) (Ready Waiting Settled : IoView → Prop) : Prop extends
    HandlerRules w Fresh Completed Ready Waiting Settled where
  readArrives {v : IoView} : Rest v → 0 < v.recvOps → v.fdOpen = true → v.closing = false →
    Fresh v.readDone.disarmRead
  readDropped {v : IoView} : Rest v → 0 < v.recvOps → v.fdOpen = false ∨ v.closing = true →
    Settled v.readDone
  sendDropped {v : IoView} (res : IoRes) : Rest v → 0 < sendsInFlight v.history → v.fdOpen = false →
    Settled (v.emit [.sendDone res])
  handshakePoll {v : IoView} : Rest v → 0 < pollsInFlight v.history → v.fdOpen = true →
    Waiting (v.emit [.pollDone]).disarmPoll
  pollDropped {v : IoView} : Rest v → 0 < pollsInFlight v.history →
    v.fdOpen = false ∨ (v.closing = true ∧ v.tx.respKind = .none) → Settled (v.emit [.pollDone])
  closeArrives {v : IoView} : Rest v → 0 < closesInFlight v.history →
    Rest ({ v with fdOpen := false }.emit [.closeDone, .put])
  put {v : IoView} : Settled v → Rest (v.emit [.put])
  expire {v : IoView} (sync armed : Bool) : Rest v → v.fdOpen = true → Rest (v.close sync armed)

/-- The view of a connection as `conn_init` leaves it. -/
def IoView.initial (tls : Bool) : IoView :=
  ⟨{}, false, true, false, tls, false, 0, []⟩

/-- The loop in which an event of the session is handled. -/
def Session.entered (s : Session L) (env : Env) : Loop L :=
  { s.loop with env := { env with io := s.loop.env.io } }

/-- The loop in which received data are handled. -/
def Session.receiving (s : Session L) (env : Env) : Loop L :=
  { (s.entered env).emit [.readDone] with
    recvOps := s.loop.recvOps - 1
    conn := { s.loop.conn with tx := { s.loop.conn.tx with recvArmed := false } } }

/-- What is left over of received data fits the stash, and there is a block for it. -/
def Session.stashFits (s : Session L) (buf : Bytes) (env : Env) : Prop :=
  (connRxStashAppend (takeBytes (s.receiving env).heard buf).1
    (buf.drop (takeBytes (s.receiving env).heard buf).2)).1 = true

instance (s : Session L) (buf : Bytes) (env : Env) : Decidable (s.stashFits buf env) :=
  inferInstanceAs (Decidable (_ = _))

/-- A response staged after the descriptor of a plain connection was detached is tolerated. -/
def ToleratesLate (w : Worker L) (Waiting Settled : IoView → Prop) : Prop :=
  ∀ (v : IoView) (sync armed : Bool) (tx : TxState) (closing draining : Bool), Waiting v →
    v.fdOpen = true → v.tls = false → Places w (v.close sync armed) tx closing →
    Settled (((v.close sync armed).respond tx closing draining).post tx.writeBuf)

section Walk

variable {w : Worker L} {Rest Fresh : IoView → Prop} {Completed : IoRes → IoView → Prop}
  {Ready Waiting Settled : IoView → Prop}

/-- An action applied to a plain connection that was just detached only stages a late response. -/
lemma applies_late {v : IoView} {sync armed : Bool} (hlate : ToleratesLate w Waiting Settled)
    (h : Waiting v) (hopen : v.fdOpen = true) (hsettled : Settled (v.close sync armed))
    (hplain : v.tls = false)
    (stash : Loop L → Loop L × Bool) {l : Loop L} (hview : l.view = v.close sync armed)
    (a : HttpAction) : Settled (httpApplyAction w stash l a).view := by
  have hfd : l.conn.fdOpen = false := congrArg IoView.fdOpen hview
  have htls : l.conn.tlsEnabled = false := (congrArg IoView.tls hview).trans hplain
  rw [← hview] at hsettled
  rcases httpApplyAction_applied w stash l a with
    ⟨-, -, -, heq | heq⟩ | ⟨-, -, e, he, heq⟩ |
      ⟨want, tx, closing, draining, env, tail, hresp, hoff, hrecv, hfile, hio, heq⟩
  · rw [heq]
    exact hsettled
  · rw [heq, postRecvPtr_of_deaf (by simp [Conn.deaf, hfd])]
    exact hsettled
  · rw [heq, scheduleOrSyncClose_of_detached (by exact hfd), view_env _ (by exact he)]
    exact hsettled
  · have hclosing : closing = l.conn.closing ∨ (closing = true ∧ tx.keepalive = false) := by
      rcases hresp with ⟨-, hclosing, hka, -⟩ | ⟨-, -, hclosing, -⟩ | ⟨-, -, -, -, hclosing, -⟩
      · exact Or.inr ⟨hclosing, hka⟩
      · exact Or.inl hclosing
      · exact Or.inl hclosing
    have hplaces : Places w l.view tx closing := ⟨hoff, hrecv.1, hrecv.2, hfile, hclosing⟩
    rw [hview] at hplaces
    have hplaced := hlate v sync armed tx closing draining h hopen hplain hplaces
    rw [← hview] at hplaced
    rw [heq]
    unfold startSend
    rw [if_neg (by simp [Loop.withResponse, htls])]
    unfold Loop.view Loop.emit Loop.withResponse
    dsimp only
    rw [hio]
    exact hplaced

lemma postResponse_cases (w : Worker L) (l : Loop L) (plan : ResponsePlan)
    (hclose : plan.closeAfterSend = true) (hka : plan.keepalive = false) :
    (∃ e : Env, e.io = l.env.io ∧ postResponse w l plan = scheduleOrSyncClose { l with env := e }) ∨
      ∃ tx, Places w l.view tx true ∧ tx.keepalive = false ∧ tx.file = l.conn.tx.file ∧
        (postResponse w l plan).view =
          (l.view.respond tx true l.conn.draining).post tx.writeBuf := by
  unfold postResponse
  obtain ⟨b, e, hb, he⟩ := getSqe_cases l
  rw [hb]
  cases b with
  | false => exact Or.inl ⟨e, he, rfl⟩
  | true =>
    refine Or.inr ⟨headerTx w { l with env := e } plan, ⟨rfl, rfl, rfl, Or.inl rfl, Or.inr ⟨rfl, hka⟩⟩, hka,
      rfl, ?_⟩
    dsimp only
    rw [placeHeaderResponse_eq, hclose, Bool.or_true]
    simp [Loop.view, Loop.emit, Loop.withResponse, IoView.respond, IoView.post, IoView.emit, he]

lemma tlsHandshakeProgress_done {s : Session L} {hs : HsStatus}
    (h : (tlsHandshakeProgress s hs).handshakeDone = true) : s.handshakeDone = true ∨ hs = .done := by
  unfold tlsHandshakeProgress at h
  split_ifs at h with hpending
  · cases hs with
    | done => exact Or.inr rfl
    | wantRead => exact Or.inl h
    | wantWrite => exact Or.inl h
    | error => exact Or.inl h
  · exact Or.inl h

namespace HandlerRules

variable (R : HandlerRules w Fresh Completed Ready Waiting Settled)

include R

lemma progressesHandshake {s : Session L} (h : Waiting s.loop.view) (hs : HsStatus) :
    Waiting (tlsHandshakeProgress s hs).loop.view ∨
      (Settled (tlsHandshakeProgress s hs).loop.view ∧
        (tlsHandshakeProgress s hs).loop.conn.fdOpen = false) := by
  unfold tlsHandshakeProgress
  split_ifs with hpending
  · have htls : s.loop.conn.tlsEnabled = true := by
      unfold Session.handshakePending at hpending
      simp only [Bool.and_eq_true] at hpending
      exact hpending.1
    cases hs with
    | done => exact Or.inl (R.postsRecv h)
    | wantRead => exact Or.inl (R.postsRecv h)
    | wantWrite =>
      have hpolled := R.postsTlsPollout h htls
      dsimp only
      split_ifs
      · exact Or.inl hpolled
      · exact Or.inr ⟨R.closes hpolled, scheduleOrSyncClose_detached _⟩
    | error => exact Or.inr ⟨R.closes h, scheduleOrSyncClose_detached _⟩
  · exact Or.inl h

lemma settlesHandshake {s : Session L} (h : Waiting s.loop.view) (hs : HsStatus) :
    Settled (tlsHandshakeProgress s hs).loop.view :=
  (R.progressesHandshake h hs).elim R.settled And.left

lemma acceptsRead {l : Loop L} (h : Waiting l.view)
    (hrefuse : ∀ v tx, Waiting v → v.tls = l.conn.tlsEnabled → v.fdOpen = true → v.closing = false →
      v.tx.recvArmed = false → Places w v tx true → tx.keepalive = false →
      Settled ((v.respond tx true v.draining).post tx.writeBuf)) :
    Settled (acceptRead w l).view := by
  have hposted := R.postsRecv h
  have htls : (postRecvPtr l).view.tls = l.conn.tlsEnabled :=
    ((growRules w l.view).postsRecv (.refl l.view)).tls
  unfold acceptRead
  dsimp only
  split_ifs with hrefused
  · simp only [Bool.and_eq_true, Bool.not_eq_true'] at hrefused
    obtain ⟨e, he, heq⟩ | ⟨tx, hplaces, hka, -, hview⟩ :=
      postResponse_cases w (postRecvPtr l) ⟨.k503, false, false, true⟩ rfl rfl
    · rw [heq]
      refine R.closes ?_
      rw [view_env _ he]
      exact hposted
    · rw [hview]
      exact hrefuse _ tx hposted htls hrefused.2 hrefused.1.2 hrefused.1.1 hplaces hka
  · exact R.settled hposted

/-- **An accepted connection.**  The refusal is reached on a plain connection, or when the first
handshake step completes the handshake. -/
lemma accepts (vhost : Option Vhost) (tls : Bool) (arena : List Bool) (hs : HsStatus) (env : Env)
    (h : Waiting (IoView.initial tls))
    (hrefuse : (tls = true → hs = .done) → ∀ v tx, Waiting v → v.tls = tls → v.fdOpen = true →
      v.closing = false → v.tx.recvArmed = false → Places w v tx true → tx.keepalive = false →
      Settled ((v.respond tx true v.draining).post tx.writeBuf)) :
    Settled (acceptSession w vhost tls arena hs env).loop.view := by
  unfold acceptSession
  dsimp only
  split_ifs with hvhost hstop
  · exact R.closes (l := { conn := connInit w vhost tls arena, env := { env with io := [] } }) h
  · refine R.settlesHandshake ?_ hs
    exact h
  · simp only [Bool.or_eq_true, Bool.not_eq_true', not_or, Bool.not_eq_false,
      Bool.not_eq_true] at hstop
    have hprogress := R.progressesHandshake (s := { loop :=
      { conn := connInit w vhost tls arena, env := { env with io := [] } } }) h hs
    have htls := ((growRules w (IoView.initial tls)).settlesHandshake (s := { loop :=
      { conn := connInit w vhost tls arena, env := { env with io := [] } } }) (.refl _) hs).tls
    refine R.acceptsRead (hprogress.resolve_right fun hclosed => ?_) ?_
    · exact absurd (hstop.1.symm.trans hclosed.2) (by decide)
    have hdone : tls = true → hs = .done := by
      intro htrue
      subst htrue
      have hpending := hstop.2
      unfold Session.handshakePending at hpending
      rw [show (tlsHandshakeProgress _ hs).loop.conn.tlsEnabled = true from htls, Bool.true_and,
        Bool.not_eq_false'] at hpending
      exact (tlsHandshakeProgress_done hpending).resolve_left (by simp)
    intro v tx hv hvtls
    exact hrefuse hdone v tx hv (hvtls.trans htls)

end HandlerRules

namespace SessionRules

variable (R : SessionRules w Rest Fresh Completed Ready Waiting Settled)

include R

lemma receivesData {l : Loop L} (h : Fresh l.view) (hplain : l.conn.tlsEnabled = false)
    (hfd : l.conn.fdOpen = true) (buf : Bytes)
    (hfits : (connRxStashAppend (takeBytes l.heard buf).1
      (buf.drop (takeBytes l.heard buf).2)).1 = true ∨ ToleratesLate w Waiting Settled) :
    Settled (readData w l buf).view := by
  by_cases hok : (connRxStashAppend (takeBytes l.heard buf).1
      (buf.drop (takeBytes l.heard buf).2)).1 = true
  · exact R.readsData h buf hok
  · have hlate := hfits.resolve_left hok
    have htaken : Fresh (takeBytes l.heard buf).1.view := by
      rw [takeBytes_view]
      exact R.parsed _ h
    have hparse := rxStages_parse l.heard.conn buf
    have hplain' : (takeBytes l.heard buf).1.conn.tlsEnabled = false :=
      hparse.tlsEnabled.trans hplain
    have hfd' : (takeBytes l.heard buf).1.conn.fdOpen = true := hparse.fdOpen.trans hfd
    rw [readData_eq]
    unfold stashRest
    rw [if_neg hok]
    generalize takeBytes l.heard buf = r at htaken hok hplain' hfd'
    obtain ⟨e, he, hr | hr⟩ := connRxStashAppend_cases r.1 (buf.drop r.2)
    · simp [hr] at hok
    · rw [hr]
      obtain ⟨sync, armed, hview⟩ := scheduleOrSyncClose_view (l := { r.1 with env := e }) hfd'
      rw [view_env _ he] at hview
      have hclosed : Settled (r.1.view.close sync armed) := R.close sync armed (R.idle htaken) hfd'
      exact applies_late hlate (R.idle htaken) hfd' hclosed hplain' _ hview _

/-- **A completed `recv`.** -/
lemma handlesRecv {s : Session L} (h : Rest s.loop.view) (hreads : 0 < s.loop.recvOps)
    (hplain : s.loop.conn.tlsEnabled = false) (r : RecvResult) (env : Env)
    (hfits : ∀ buf, r = .data buf → s.loop.conn.fdOpen = true → s.loop.conn.closing = false →
      s.stashFits buf env ∨ ToleratesLate w Waiting Settled) :
    Settled (handleEvent w ((s.entered env).emit [.readDone]) (.recv r)).view := by
  show Settled (readHandleCqe w { (s.entered env).emit [.readDone] with
    recvOps := s.loop.recvOps - 1 } r).view
  unfold readHandleCqe
  split_ifs with hskip
  · refine R.readDropped h hreads ?_
    simp only [Bool.or_eq_true, Bool.not_eq_true'] at hskip
    exact hskip
  · simp only [Bool.or_eq_true, Bool.not_eq_true', not_or, Bool.not_eq_false,
      Bool.not_eq_true] at hskip
    have hfresh : Fresh (s.receiving env).view := R.readArrives h hreads hskip.1 hskip.2
    dsimp only
    cases r with
    | data buf =>
      exact R.receivesData (l := s.receiving env) hfresh hplain hskip.1 buf
        (hfits buf rfl hskip.1 hskip.2)
    | noBuffer =>
      dsimp only
      split_ifs
      · exact R.closes (R.idle hfresh)
      · exact R.settled (R.idle hfresh)
      · exact R.settled (R.postsRecv (R.idle hfresh))
    | again =>
      dsimp only
      split_ifs
      · exact R.settled (R.idle hfresh)
      · exact R.settled (R.postsRecv (R.idle hfresh))
    | closed => exact R.closes (R.idle hfresh)

/-- **A completed read poll** on a TLS connection. -/
lemma handlesTlsRead {s : Session L} (h : Rest s.loop.view) (hreads : 0 < s.loop.recvOps)
    (htls : s.loop.conn.tlsEnabled = true) (rs : List TlsRecv) (env : Env)
    (hnext : (∀ v, Settled v → v.closing = false → Fresh v) ∨
      ((∀ v, Settled v → Waiting v) ∧ ∀ buf, .data buf ∉ rs.tail)) :
    Settled (handleEvent w ((s.entered env).emit [.readDone]) (.tlsRead rs)).view := by
  show Settled (tlsReadHandleCqe w { (s.entered env).emit [.readDone] with
    recvOps := s.loop.recvOps - 1 } rs).view
  unfold tlsReadHandleCqe
  split_ifs with hskip
  · refine R.readDropped h hreads ?_
    simp only [Bool.or_eq_true, Bool.not_eq_true'] at hskip
    exact hskip
  · simp only [Bool.or_eq_true, Bool.not_eq_true', not_or, Bool.not_eq_false,
      Bool.not_eq_true] at hskip
    have hfresh : Fresh (s.receiving env).view := R.readArrives h hreads hskip.1 hskip.2
    show Settled (if (tlsReadLoop w 8 rs (s.receiving env)).conn.closing = true then
      tlsReadLoop w 8 rs (s.receiving env) else postRecvPtr (tlsReadLoop w 8 rs (s.receiving env))).view
    -- the loop ends settled, and waiting unless the connection is closing
    have hloop : Settled (tlsReadLoop w 8 rs (s.receiving env)).view := by
      rcases hnext with hnext | ⟨hwait, hdata⟩
      · exact R.loopsTlsRead hnext 8 rs (R.settled (R.idle hfresh)) htls
      · rcases rs with _ | ⟨r, rs⟩
        · exact R.settled (R.idle hfresh)
        · cases r with
          | data buf =>
            unfold tlsReadLoop
            split_ifs
            · exact R.settled (R.idle hfresh)
            · refine R.endsTlsRead (hwait _ (R.processesRxBytes hfresh buf)) ?_ 7 rs hdata
              exact (processRxBytes_tlsEnabled w _ buf).trans htls
          | again wantRead wantWrite =>
            refine R.endsTlsRead (R.idle hfresh) htls 8 _ fun buf hmem => ?_
            exact hdata buf ((List.mem_cons.mp hmem).resolve_left (by simp))
          | eof =>
            refine R.endsTlsRead (R.idle hfresh) htls 8 _ fun buf hmem => ?_
            exact hdata buf ((List.mem_cons.mp hmem).resolve_left (by simp))
          | failed =>
            refine R.endsTlsRead (R.idle hfresh) htls 8 _ fun buf hmem => ?_
            exact hdata buf ((List.mem_cons.mp hmem).resolve_left (by simp))
    split_ifs with hclosing
    · exact hloop
    · refine R.settled (R.postsRecv ?_)
      rcases hnext with hnext | ⟨hwait, -⟩
      · exact R.idle (hnext _ hloop (by simpa [Loop.view] using hclosing))
      · exact hwait _ hloop

/-- **A completed send.** -/
lemma handlesSend {s : Session L} (h : Rest s.loop.view) (hsends : 0 < sendsInFlight s.history)
    (res : IoRes) (env : Env)
    (hsend : s.loop.conn.fdOpen = true → Completed res (s.loop.view.emit [.sendDone res])) :
    Settled (handleEvent w ((s.entered env).emit [.sendDone res]) (.write res)).view := by
  show Settled (handleWrite w ((s.entered env).emit [.sendDone res]) res).view
  unfold handleWrite
  split_ifs with hfd
  · exact R.handlesWrite R.stash (hsend hfd)
  · exact R.sendDropped res h hsends (Bool.eq_false_iff.mpr hfd)

/-- **A completed write poll** after the handshake. -/
lemma handlesPoll {s : Session L} (h : Rest s.loop.view) (hpolls : 0 < pollsInFlight s.history)
    (env : Env) (hpoll : s.loop.conn.fdOpen = true → Ready (s.loop.view.emit [.pollDone]).disarmPoll) :
    Settled (handleEvent w ((s.entered env).emit [.pollDone]) .writeReady).view := by
  show Settled (handleWriteReady w ((s.entered env).emit [.pollDone])).view
  unfold handleWriteReady
  split_ifs with hfd hidle htls
  · refine R.pollDropped h hpolls (Or.inr ?_)
    simp only [Bool.and_eq_true, beq_iff_eq] at hidle
    exact hidle
  · exact R.triesSend R.stash (hpoll hfd) htls
  · exact R.handlesWriteReady R.stash (hpoll hfd) (by simpa using htls)
  · exact R.pollDropped h hpolls (Or.inl (Bool.eq_false_iff.mpr hfd))

lemma handlesHandshakeRead {s : Session L} (h : Rest s.loop.view) (hreads : 0 < s.loop.recvOps)
    (failed : Bool) (hs : HsStatus) :
    Settled (handshakeRead { s with loop := { s.loop.emit [.readDone] with
      recvOps := s.loop.recvOps - 1 } } failed hs).loop.view := by
  unfold handshakeRead
  split_ifs with hskip hfailed
  · refine R.readDropped h hreads ?_
    simp only [Bool.or_eq_true, Bool.not_eq_true'] at hskip
    exact hskip
  all_goals
    simp only [Bool.or_eq_true, Bool.not_eq_true', not_or, Bool.not_eq_false,
      Bool.not_eq_true] at hskip
    have hready := R.idle (R.readArrives h hreads hskip.1 hskip.2)
  · exact R.closes (l := { s.loop.emit [.readDone] with
      recvOps := s.loop.recvOps - 1
      conn := { s.loop.conn with tx := { s.loop.conn.tx with recvArmed := false } } }) hready
  · exact R.settlesHandshake (s := { s with loop := { s.loop.emit [.readDone] with
      recvOps := s.loop.recvOps - 1
      conn := { s.loop.conn with tx := { s.loop.conn.tx with recvArmed := false } } } }) hready hs

lemma handlesHandshakeReady {s : Session L} (h : Rest s.loop.view)
    (hpolls : 0 < pollsInFlight s.history) (hs : HsStatus) :
    Settled (handshakeReady (s.emit [.pollDone]) hs).loop.view := by
  unfold handshakeReady
  split_ifs with hskip
  · simp only [Bool.and_eq_true, Bool.not_eq_true'] at hskip
    refine R.settlesHandshake ?_ hs
    exact R.handshakePoll h hpolls hskip.1
  · refine R.pollDropped h hpolls ?_
    by_cases hfd : s.loop.conn.fdOpen = true
    · refine Or.inr ?_
      simp only [Bool.and_eq_true, Bool.not_eq_true', not_and, Bool.not_eq_false] at hskip
      simpa [Session.emit, Loop.emit, Loop.view] using hskip hfd
    · exact Or.inl (Bool.eq_false_iff.mpr hfd)

lemma expires {l : Loop L} (h : Rest l.view) : Rest (scheduleOrSyncClose l).view := by
  by_cases hfd : l.conn.fdOpen = true
  · obtain ⟨sync, armed, hview⟩ := scheduleOrSyncClose_view hfd
    rw [hview]
    exact R.expire sync armed h hfd
  · rw [scheduleOrSyncClose_of_detached (by simpa using hfd)]
    exact h

lemma timesOut {l : Loop L} (h : Rest l.view)
    (hpost : ∀ tx, Places w l.view tx true → tx.keepalive = false →
      Rest ((l.view.respond tx true l.conn.draining).post tx.writeBuf)) :
    Rest (requestTimeout w l).view := by
  unfold requestTimeout
  obtain ⟨e, he, heq⟩ | ⟨tx, hplaces, hka, -, hview⟩ := postResponse_cases w l
    ⟨if w.handlers.policyFails l.log.length l.conn .k408 then .k500 else .k408, false, false, true⟩
    rfl rfl
  · rw [heq]
    refine R.expires ?_
    rw [view_env l he]
    exact h
  · rw [hview]
    exact hpost tx hplaces hka

/-- **A step of a session keeps what holds at rest**: one case per event. -/
theorem step {s : Session L} (h : Rest s.loop.view) (e : SessionEvent × Env)
    (hen : s.enabled e = true)
    (hsend : ∀ res, e.1 = .io (.write res) → 0 < sendsInFlight s.history →
      s.loop.conn.fdOpen = true → Completed res (s.loop.view.emit [.sendDone res]))
    (hpoll : e.1 = .io .writeReady → 0 < pollsInFlight s.history →
      s.loop.conn.fdOpen = true → Ready (s.loop.view.emit [.pollDone]).disarmPoll)
    (hfits : ∀ buf, e.1 = .io (.recv (.data buf)) → s.loop.conn.fdOpen = true →
      s.loop.conn.closing = false → s.stashFits buf e.2 ∨ ToleratesLate w Waiting Settled)
    (hnext : ∀ rs, e.1 = .io (.tlsRead rs) → (∀ v, Settled v → v.closing = false → Fresh v) ∨
      ((∀ v, Settled v → Waiting v) ∧ ∀ buf, .data buf ∉ rs.tail))
    (htimeout : e.1 = .timeout → s.requestInProgress = true →
      Rest (requestTimeout w (s.entered e.2)).view) :
    Rest (s.step w e).loop.view := by
  obtain ⟨ev, env⟩ := e
  unfold Session.enabled at hen
  have hentered : Rest (s.entered env).view := h
  cases ev with
  | io e =>
    cases e with
    | recv r =>
      simp only [Bool.and_eq_true, Bool.not_eq_true', decide_eq_true_eq] at hen
      exact R.put (R.handlesRecv h hen.1.2 hen.1.1 r env fun buf hr => hfits buf (hr ▸ rfl))
    | tlsRead rs =>
      simp only [Bool.and_eq_true, decide_eq_true_eq] at hen
      exact R.put (R.handlesTlsRead h hen.1.2 hen.1.1.1 rs env (hnext rs rfl))
    | write res =>
      have hsends := of_decide_eq_true hen
      exact R.put (R.handlesSend h hsends res env (hsend res rfl hsends))
    | writeReady =>
      simp only [Bool.and_eq_true, decide_eq_true_eq] at hen
      exact R.put (R.handlesPoll h hen.2 env (hpoll rfl hen.2))
    | shutdown =>
      have hshut : Rest ({ (s.entered env).emit [] with isDraining := true }.emit []).view := by
        simpa [Loop.view, Loop.emit] using hentered
      exact hshut
    | expire =>
      have hopen : Rest ((s.entered env).emit []).view := by
        simpa [Loop.view, Loop.emit] using hentered
      have hclosed := R.expires hopen
      show Rest ((scheduleOrSyncClose ((s.entered env).emit [])).emit []).view
      simpa [Loop.view, Loop.emit] using hclosed
  | handshakeRead failed hs =>
    simp only [Bool.and_eq_true, decide_eq_true_eq] at hen
    exact R.put (R.handlesHandshakeRead (s := { s with loop := s.entered env }) h hen.2 failed hs)
  | handshakeReady hs =>
    simp only [Bool.and_eq_true, decide_eq_true_eq] at hen
    exact R.put (R.handlesHandshakeReady (s := { s with loop := s.entered env }) h hen.2 hs)
  | closed => exact R.closeArrives h (of_decide_eq_true hen)
  | timeout => exact htimeout rfl hen

end SessionRules

lemma growSessionRules (w : Worker L) (v₀ : IoView) :
    SessionRules w v₀.Grows v₀.Grows (fun _ => v₀.Grows) v₀.Grows v₀.Grows v₀.Grows where
  toHandlerRules := growRules w v₀
  readArrives h _ _ _ := h.emit [.readDone] rfl rfl id
  readDropped h _ _ := h.emit [.readDone] rfl rfl id
  sendDropped _ h _ _ := h.emit _ rfl rfl id
  handshakePoll h _ _ := h.emit [.pollDone] rfl rfl id
  pollDropped h _ _ := h.emit _ rfl rfl id
  closeArrives h _ := h.emit [.closeDone, .put] rfl rfl fun _ => rfl
  put h := h.emit _ rfl rfl id
  expire sync _ h _ := h.emit (closeOps sync) rfl rfl fun _ => rfl

/-- **A step only adds** to the history of a session. -/
theorem Session.step_grows (s : Session L) {e : SessionEvent × Env} (hen : s.enabled e = true) :
    s.loop.view.Grows (s.step w e).loop.view := by
  have hstart := IoView.Grows.refl s.loop.view
  have hlate : ∀ (v : IoView) (tx : TxState) (closing draining : Bool), s.loop.view.Grows v →
      s.loop.view.Grows ((v.respond tx closing draining).post tx.writeBuf) := by
    intro v tx closing draining h
    have hplaced : s.loop.view.Grows (v.respond tx closing draining) :=
      h.emit [.respond tx.writeBuf tx.file] rfl rfl id
    exact hplaced.emit _ rfl rfl id
  refine (growSessionRules w s.loop.view).step hstart e hen (fun _ _ _ _ => hstart.emit _ rfl rfl id)
    (fun _ _ _ => hstart.emit [.pollDone] rfl rfl id) (fun _ _ _ _ => Or.inr ?_) (fun _ _ => Or.inl fun _ h _ => h)
    (fun _ _ => (growSessionRules w s.loop.view).timesOut hstart fun tx _ _ => hlate _ tx true _ hstart)
  intro v sync armed tx closing draining h _ _ _
  exact hlate _ tx closing draining (h.emit (closeOps sync) rfl rfl fun _ => rfl)

end Walk

end Lamseryn
