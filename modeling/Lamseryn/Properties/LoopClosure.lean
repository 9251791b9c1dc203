import Lamseryn.Model.Session
import Lamseryn.Properties.LoopFrames

/-!
# An induction rule for the handlers

Whatever the handlers do to a connection is composed of a few changes: of the transmit state and the flags
of the connection, of what surrounds it, of `want_keepalive`, of the parsing state by received bytes, and
the reset of the request.  A property that each of them keeps (`LoopClosed`) is kept by every handler and
every step of a session.
-/

namespace Lamseryn

open ByteText

variable {L : Llhttp}

/-- A property of the loop that every change keeps which the handlers are made of. -/
structure LoopClosed (w : Worker L) (P : Loop L → Prop) : Prop where
  conn : ∀ (l : Loop L) (rxStash : Bytes) (tx : TxState) (closing draining : Bool)
    (noselectStreak : ℕ) (fdOpen : Bool), P l →
    P { l with
        conn :=
          { l.conn with
            rxStash := rxStash
            tx := tx
            closing := closing
            draining := draining
            noselectStreak := noselectStreak
            fdOpen := fdOpen } }
  outer : ∀ (l : Loop L) (isDraining crashed : Bool) (recvOps : ℕ) (env : Env) (log : List LogEntry),
    P l →
    P { l with isDraining := isDraining, crashed := crashed, recvOps := recvOps, env := env, log := log }
  want : ∀ (l : Loop L) (want : Bool), P l → P (l.setWant want)
  take : ∀ (l : Loop L) (buf : Bytes), P l → P (takeBytes l buf).1
  reset : ∀ l : Loop L, P l → P (connResetRequest w l)

namespace LoopClosed

variable {w : Worker L} {P : Loop L → Prop} {l l' : Loop L} {stash : Loop L → Loop L × Bool}

/-! ## Input and output -/

lemma io (R : LoopClosed w P) {b : Bool} (hio : IoStep b l l') (h : P l) : P l' := by
  rw [hio.eq]
  exact R.outer _ _ _ _ _ _ (R.conn l l.conn.rxStash _ _ l.conn.draining l.conn.noselectStreak _ h)

lemma setTx (R : LoopClosed w P) (tx : TxState) (h : P l) : P (l.setTx tx) :=
  R.conn l l.conn.rxStash tx l.conn.closing l.conn.draining l.conn.noselectStreak l.conn.fdOpen h

lemma emit (R : LoopClosed w P) (ops : List Io) (h : P l) : P (l.emit ops) :=
  R.outer l l.isDraining l.crashed l.recvOps _ l.log h

lemma record (R : LoopClosed w P) (e : LogEntry) (h : P l) : P (l.record e) :=
  R.outer l l.isDraining l.crashed l.recvOps l.env _ h

lemma env (R : LoopClosed w P) (e : Env) (h : P l) : P { l with env := e } :=
  R.outer l l.isDraining l.crashed l.recvOps e l.log h

lemma scheduleOrSyncClose (R : LoopClosed w P) (h : P l) : P (scheduleOrSyncClose l) :=
  R.io (scheduleOrSyncClose_io l) h

lemma postRecvPtr (R : LoopClosed w P) (h : P l) : P (postRecvPtr l) :=
  R.io (postRecvPtr_io l) h

/-- `get_sqe_batching` and what follows either answer. -/
lemma getSqe (R : LoopClosed w P) {f g : Loop L → Loop L} (hf : ∀ {l}, P l → P (f l))
    (hg : ∀ {l}, P l → P (g l)) (h : P l) :
    P (match l.getSqe with
      | (false, l) => f l
      | (true, l) => g l) := by
  obtain ⟨b, e, hb, -⟩ := getSqe_cases l
  rw [hb]
  cases b with
  | false => exact hf (R.env e h)
  | true => exact hg (R.env e h)

/-! ## Responses -/

lemma sendOutcome (R : LoopClosed w P) (hstash : ∀ {l}, P l → P (stash l).1)
    (hout : SendOutcome w stash l l') (h : P l) : P l' := by
  cases hout with
  | io hio => exact R.io hio h
  | done l1 _ hio _ heq =>
    have hnext := hstash (R.reset l1 (R.io hio h))
    rw [heq]
    unfold nextRequest
    dsimp only
    split_ifs
    · exact hnext
    · exact R.postRecvPtr hnext

/-! ## Requests -/

lemma placeHeaderResponse (R : LoopClosed w P) (plan : ResponsePlan) (h : P l) :
    P (placeHeaderResponse w l plan) :=
  R.emit _ (R.record _ (R.conn l l.conn.rxStash _ _ l.conn.draining l.conn.noselectStreak l.conn.fdOpen h))

lemma startSend (R : LoopClosed w P) (hstash : ∀ {l}, P l → P (stash l).1) (h : P l) :
    P (startSend w stash l) := by
  unfold Lamseryn.startSend
  split_ifs
  · exact R.sendOutcome hstash (tlsTrySendPending_outcome w stash l) h
  · exact R.emit _ h

lemma stageHeaderResponseSend (R : LoopClosed w P) (hstash : ∀ {l}, P l → P (stash l).1)
    (plan : ResponsePlan) (h : P l) : P (stageHeaderResponseSend w stash l plan) :=
  R.startSend hstash (R.placeHeaderResponse _ h)

lemma dispatchRequest (R : LoopClosed w P) (hstash : ∀ {l}, P l → P (stash l).1) (plan : HttpOkPlan)
    (h : P l) : P (dispatchRequest w stash l plan) := by
  set asked := l.setWant (l.conn.h1.wantKeepalive && !l.isDraining)
  have hcalled : P (asked.record (.dispatched asked.reqNo asked.taken asked.conn.h1)) :=
    R.record _ (R.want l _ h)
  unfold Lamseryn.dispatchRequest
  dsimp only
  split
  · exact R.startSend hstash (R.emit _ (R.record _ (R.setTx _ hcalled)))
  · exact R.stageHeaderResponseSend hstash _ (R.want _ false hcalled)

lemma sendSqe (R : LoopClosed w P) {f g : Loop L → Loop L} (hf : ∀ {l}, P l → P (f l))
    (hg : ∀ {l}, P l → P (g l)) (h : P l) :
    P (match sendSqe l with
      | (false, l) => f l
      | (true, l) => g l) := by
  unfold Lamseryn.sendSqe
  split_ifs
  · exact hg h
  · exact R.getSqe hf hg h

lemma httpApplyAction (R : LoopClosed w P) (hstash : ∀ {l}, P l → P (stash l).1) (action : HttpAction)
    (h : P l) : P (httpApplyAction w stash l action) := by
  have happlied := R.record (.applied l.reqNo action) h
  unfold Lamseryn.httpApplyAction
  dsimp only
  cases httpPipelineBuildApplyPlan (l.record (.applied l.reqNo action)).conn action with
  | «continue» =>
    dsimp only
    split_ifs
    · exact happlied
    · exact R.postRecvPtr happlied
  | internalError plan =>
    exact R.sendSqe R.scheduleOrSyncClose (R.stageHeaderResponseSend hstash plan) happlied
  | error plan =>
    refine R.sendSqe R.scheduleOrSyncClose (fun {l} hl => ?_) happlied
    exact R.stageHeaderResponseSend hstash plan
      (R.conn l l.conn.rxStash l.conn.tx l.conn.closing _ l.conn.noselectStreak l.conn.fdOpen hl)
  | ok plan => exact R.sendSqe R.scheduleOrSyncClose (R.dispatchRequest hstash plan) happlied

/-! ## Received bytes -/

lemma stash_consume (R : LoopClosed w P) (n : ℕ) (h : P l) :
    P { l with conn := connRxStashConsume l.conn n } :=
  R.conn l _ l.conn.tx l.conn.closing l.conn.draining l.conn.noselectStreak l.conn.fdOpen h

lemma connTryProcessStash (R : LoopClosed w P) (depth : ℕ) (h : P l) :
    P (connTryProcessStash w depth l).1 := by
  induction depth generalizing l with
  | zero =>
    unfold Lamseryn.connTryProcessStash
    split_ifs
    · exact h
    · exact R.outer l l.isDraining true l.recvOps l.env l.log h
  | succ depth ih =>
    unfold Lamseryn.connTryProcessStash
    split_ifs
    · exact h
    · exact R.stash_consume _ (R.httpApplyAction ih _ (R.take l _ h))

lemma stashProcessor (R : LoopClosed w P) (h : P l) : P (stashProcessor w l).1 :=
  R.connTryProcessStash _ h

lemma connRxStashAppend (R : LoopClosed w P) (data : Bytes) (h : P l) :
    P (connRxStashAppend l data).2 := by
  have hput : ∀ {l : Loop L} (data : Bytes), P l →
      P { l with conn := { l.conn with rxStash := data } } := fun {l} data hl =>
    R.conn l data l.conn.tx l.conn.closing l.conn.draining l.conn.noselectStreak l.conn.fdOpen hl
  unfold Lamseryn.connRxStashAppend Loop.stashAlloc
  split_ifs
  · exact h
  · exact h
  · cases l.env.stashBlocks with
    | nil => exact hput data h
    | cons ok rest =>
      cases ok with
      | false => exact R.env _ h
      | true => exact hput data (R.env _ h)
  · exact hput _ h

lemma received (R : LoopClosed w P) (buf : Bytes) (h : P l) :
    P (Lamseryn.connRxStashAppend
      (takeBytes { l with conn := { l.conn with noselectStreak := 0 } } buf).1
      (buf.drop (takeBytes { l with conn := { l.conn with noselectStreak := 0 } } buf).2)).2 :=
  R.connRxStashAppend _
    (R.take _ buf (R.conn l l.conn.rxStash l.conn.tx l.conn.closing l.conn.draining 0 l.conn.fdOpen h))

lemma readHandleCqe (R : LoopClosed w P) (r : RecvResult) (h : P l) : P (readHandleCqe w l r) := by
  have hdisarmed : P (l.setTx { l.conn.tx with recvArmed := false }) := R.setTx _ h
  unfold Lamseryn.readHandleCqe
  split_ifs
  · exact h
  · cases r with
    | closed => exact R.scheduleOrSyncClose hdisarmed
    | again =>
      dsimp only
      split_ifs
      · exact hdisarmed
      · exact R.postRecvPtr hdisarmed
    | noBuffer =>
      have hstreak := R.conn _ l.conn.rxStash { l.conn.tx with recvArmed := false } l.conn.closing
        l.conn.draining (l.conn.noselectStreak + 1) l.conn.fdOpen h
      dsimp only
      split_ifs
      · exact R.scheduleOrSyncClose hstreak
      · exact hstreak
      · exact R.postRecvPtr hstreak
    | data buf =>
      have hreceived := R.received buf hdisarmed
      show P (readData w _ buf)
      unfold readData
      dsimp only
      refine R.httpApplyAction R.stashProcessor _ ?_
      split_ifs
      · exact hreceived
      · exact R.scheduleOrSyncClose hreceived

lemma processRxBytes (R : LoopClosed w P) (buf : Bytes) (h : P l) : P (processRxBytes w l buf) := by
  have hreceived := R.received buf h
  unfold Lamseryn.processRxBytes
  split_ifs
  · exact h
  · dsimp only
    split
    · rename_i happend
      rw [happend] at hreceived
      exact R.scheduleOrSyncClose hreceived
    · rename_i happend
      rw [happend] at hreceived
      exact R.httpApplyAction R.stashProcessor _ hreceived

lemma tlsReadLoop (R : LoopClosed w P) (spins : ℕ) (rs : List TlsRecv) (h : P l) :
    P (tlsReadLoop w spins rs l) := by
  induction spins generalizing rs l with
  | zero => exact h
  | succ spins ih =>
    cases rs with
    | nil => exact h
    | cons r rs =>
      unfold Lamseryn.tlsReadLoop
      split_ifs
      · exact h
      · cases r with
        | data buf => exact ih rs (R.processRxBytes buf h)
        | eof => exact R.scheduleOrSyncClose h
        | failed => exact R.scheduleOrSyncClose h
        | again wantRead wantWrite => exact R.io (wantPolls_io l wantRead wantWrite) h

lemma tlsReadHandleCqe (R : LoopClosed w P) (rs : List TlsRecv) (h : P l) :
    P (tlsReadHandleCqe w l rs) := by
  have hread := R.tlsReadLoop 8 rs (R.setTx { l.conn.tx with recvArmed := false } h)
  unfold Lamseryn.tlsReadHandleCqe
  split_ifs
  · exact h
  · dsimp only
    split_ifs
    · exact hread
    · exact R.postRecvPtr hread

lemma handleEvent (R : LoopClosed w P) (e : Event) (h : P l) : P (handleEvent w l e) := by
  cases e with
  | recv r => exact R.readHandleCqe r (R.outer l l.isDraining l.crashed _ l.env l.log h)
  | tlsRead rs => exact R.tlsReadHandleCqe rs (R.outer l l.isDraining l.crashed _ l.env l.log h)
  | write res => exact R.sendOutcome R.stashProcessor (handleWrite_outcome w l res) h
  | writeReady => exact R.sendOutcome R.stashProcessor (handleWriteReady_outcome w l) h
  | shutdown => exact R.outer l true l.crashed l.recvOps l.env l.log h
  | expire => exact R.scheduleOrSyncClose h

/-! ## Sessions -/

lemma tlsHandshakeProgress (R : LoopClosed w P) {s : Session L} (hs : HsStatus) (h : P s.loop) :
    P (tlsHandshakeProgress s hs).loop := by
  unfold Lamseryn.tlsHandshakeProgress
  split_ifs
  · cases hs with
    | done => exact R.postRecvPtr h
    | wantRead => exact R.postRecvPtr h
    | wantWrite =>
      have hpoll : P (postTlsPollout s.loop).2 := R.io (postTlsPollout_io s.loop) h
      dsimp only
      split_ifs
      · exact hpoll
      · exact R.scheduleOrSyncClose hpoll
    | error => exact R.scheduleOrSyncClose h
  · exact h

lemma postResponse (R : LoopClosed w P) (plan : ResponsePlan) (h : P l) : P (postResponse w l plan) :=
  R.getSqe (g := fun l => (Lamseryn.placeHeaderResponse w l plan).emit
      [.ref, .postSend (Lamseryn.placeHeaderResponse w l plan).conn.tx.writeBuf])
    R.scheduleOrSyncClose (fun hl => R.emit _ (R.placeHeaderResponse plan hl)) h

lemma acceptSession (R : LoopClosed w P) (vhost : Option Vhost) (tls : Bool) (arena : List Bool)
    (hs : HsStatus) (env : Env)
    (h : P { conn := connInit w vhost tls arena, env := { env with io := [] } }) :
    P (acceptSession w vhost tls arena hs env).loop := by
  have hprogress := R.tlsHandshakeProgress
    (s := { loop := { conn := connInit w vhost tls arena, env := { env with io := [] } } }) hs h
  unfold Lamseryn.acceptSession
  dsimp only
  split_ifs
  · exact R.scheduleOrSyncClose h
  · exact hprogress
  · have hread := R.postRecvPtr hprogress
    show P (acceptRead w _)
    unfold acceptRead
    dsimp only
    split_ifs
    · exact R.postResponse _ hread
    · exact hread

lemma step (R : LoopClosed w P) {s : Session L} (e : SessionEvent × Env) (h : P s.loop) :
    P (s.step w e).loop := by
  obtain ⟨ev, env⟩ := e
  have henv : P { s.loop with env := { env with io := s.loop.env.io } } := R.env _ h
  unfold Session.step
  cases ev with
  | io e => exact R.emit _ (R.handleEvent e (R.emit _ henv))
  | handshakeRead failed hs =>
    have harrived := R.outer _ s.loop.isDraining s.loop.crashed (s.loop.recvOps - 1)
      { env with io := s.loop.env.io ++ [.readDone] } s.loop.log h
    refine R.emit _ ?_
    unfold Lamseryn.handshakeRead
    dsimp only
    split_ifs
    · exact harrived
    · exact R.scheduleOrSyncClose (R.setTx _ harrived)
    · exact R.tlsHandshakeProgress hs (R.setTx _ harrived)
  | handshakeReady hs =>
    refine R.emit _ ?_
    unfold Lamseryn.handshakeReady
    split_ifs
    · exact R.tlsHandshakeProgress hs (R.setTx _ (R.emit _ henv))
    · exact R.emit _ henv
  | closed =>
    exact R.emit _ (R.conn _ s.loop.conn.rxStash s.loop.conn.tx s.loop.conn.closing s.loop.conn.draining
      s.loop.conn.noselectStreak false henv)
  | timeout => exact R.postResponse _ henv

end LoopClosed

end Lamseryn
