import Lamseryn.Properties.LoopFrames
import Lamseryn.Model.Session

/-!
# Rules for what the handlers keep

Which operations are posted, when the descriptor is touched and how references are counted depends on
a small part of the loop, its `IoView`: the transmit state, the flags of the connection, the posted
reads and the history.  A property of views that every single operation keeps is kept by the handlers; the walk
through them is done once here (`HandlerRules`), and each result about operations instantiates it.

Five predicates describe where a handler stands.  `Fresh` holds when a response may be placed,
`Completed res` when a send has completed and its result is not yet accounted for, `Ready` while
something may be posted, `Waiting` when only a read may still be posted, and `Settled` when the handler
is done.
-/

namespace Lamseryn

open ByteText

variable {L : Llhttp}

/-! ## Views -/

/-- The part of the loop that operations depend on; `done` says that the current message is complete. -/
structure IoView where
  tx : TxState
  closing : Bool
  fdOpen : Bool
  draining : Bool
  tls : Bool
  done : Bool
  recvOps : ℕ
  history : List Io

/-- The view of a loop. -/
def Loop.view (l : Loop L) : IoView :=
  ⟨l.conn.tx, l.conn.closing, l.conn.fdOpen, l.conn.draining, l.conn.tlsEnabled,
    l.conn.h1.messageDone, l.recvOps, l.env.io⟩

namespace IoView

/-- More operations in the history. -/
def emit (v : IoView) (ops : List Io) : IoView :=
  { v with history := v.history ++ ops }

/-- Another transmit state. -/
def setTx (v : IoView) (tx : TxState) : IoView :=
  { v with tx := tx }

/-- A posted read. -/
def armRead (v : IoView) : IoView :=
  { (v.setTx { v.tx with recvArmed := true }).emit [.ref, .postRead] with recvOps := v.recvOps + 1 }

/-- A posted write poll. -/
def armPoll (v : IoView) : IoView :=
  (v.setTx { v.tx with writePollArmed := true }).emit [.ref, .postPollOut]

/-- A posted send. -/
def post (v : IoView) (buf : Bytes) : IoView :=
  v.emit [.ref, .postSend buf]

/-- What a close leaves in the history. -/
def closeOps (sync : Bool) : List Io :=
  if sync then [.ref, .closeFd, .storeDel, .put, .put] else [.ref, .postClose, .storeDel, .put]

/-- A closed connection; `armed` says whether a write poll could not be cancelled. -/
def close (v : IoView) (sync armed : Bool) : IoView :=
  { v with
    closing := true
    fdOpen := false
    tx := { v.tx with file := none, writePollArmed := armed }
    history := v.history ++ closeOps sync }

/-- `conn_reset_request`. -/
def reset (v : IoView) : IoView :=
  { v with
    tx := {}
    closing := false
    draining := false
    done := false
    history := v.history ++ [.reset] }

/-- Bytes were parsed. -/
def parsed (v : IoView) (done : Bool) : IoView :=
  { v with done := done }

/-- A response placed in the transmit state. -/
def respond (v : IoView) (tx : TxState) (closing draining : Bool) : IoView :=
  { v with
    tx := tx
    closing := closing
    draining := draining
    history := v.history ++ [.respond tx.writeBuf tx.file] }

/-- A completed read. -/
def readDone (v : IoView) : IoView :=
  { v.emit [.readDone] with recvOps := v.recvOps - 1 }

/-- The connection takes note of a completed read. -/
def disarmRead (v : IoView) : IoView :=
  v.setTx { v.tx with recvArmed := false }

/-- The connection takes note of a completed or cancelled write poll. -/
def disarmPoll (v : IoView) : IoView :=
  v.setTx { v.tx with writePollArmed := false }

/-- The results of a `sendfile`. -/
def sendfile (v : IoView) (r : IoRes) : IoView :=
  (v.emit [.sendfile (v.tx.file.getD []) r]).setTx (txOnSendfileResult v.tx r).1

/-- The result of a `send` accounted for. -/
def advance (v : IoView) (res : IoRes) : IoView :=
  v.setTx (txOnHeadersResult v.tx res).1

end IoView

open IoView

lemma view_env (l : Loop L) {e : Env} (h : e.io = l.env.io) :
    ({ l with env := e } : Loop L).view = l.view := by
  unfold Loop.view
  rw [h]

lemma cancelWritePollIfArmed_view (l : Loop L) :
    (cancelWritePollIfArmed l).view = l.view ∨
      (cancelWritePollIfArmed l).view = l.view.disarmPoll := by
  unfold cancelWritePollIfArmed
  split_ifs
  · obtain ⟨b, e, hb, he⟩ := getSqe_cases l
    rw [hb]
    cases b with
    | false => exact Or.inl (view_env l he)
    | true => exact Or.inr (congrArg disarmPoll (view_env l he))
  · exact Or.inl rfl

lemma cancelWritePollIfArmed_armed (l : Loop L) :
    ∃ armed, (cancelWritePollIfArmed l).view =
      l.view.setTx { l.view.tx with writePollArmed := armed } := by
  rcases cancelWritePollIfArmed_view l with h | h
  · exact ⟨l.view.tx.writePollArmed, h⟩
  · exact ⟨false, h⟩

/-- **What closing does to the view**, synchronously or not. -/
lemma scheduleOrSyncClose_view {l : Loop L} (h : l.conn.fdOpen = true) :
    ∃ sync armed, (scheduleOrSyncClose l).view = l.view.close sync armed := by
  unfold scheduleOrSyncClose
  rw [if_pos h]
  dsimp only
  split_ifs
  · obtain ⟨armed, harmed⟩ := cancelWritePollIfArmed_armed (l.detach.emit [.ref])
    refine ⟨true, armed, (congrArg (IoView.emit · _) harmed).trans ?_⟩
    simp [IoView.emit, IoView.setTx, IoView.close, closeOps, Loop.view, Loop.emit, Loop.detach,
      txCloseAttachedFile]
  · obtain ⟨b, e, hb, he⟩ := getSqe_cases (l.detach.emit [.ref])
    rw [hb]
    cases b with
    | false =>
      refine ⟨true, l.conn.tx.writePollArmed,
        (congrArg (IoView.emit · _) (view_env _ he)).trans ?_⟩
      simp [IoView.emit, IoView.close, closeOps, Loop.view, Loop.emit, Loop.detach,
        txCloseAttachedFile]
    | true =>
      obtain ⟨armed, harmed⟩ := cancelWritePollIfArmed_armed
        (({ l.detach.emit [.ref] with env := e } : Loop L).emit [.postClose])
      refine ⟨false, armed, (congrArg (IoView.emit · _) harmed).trans ?_⟩
      simp [IoView.emit, IoView.setTx, IoView.close, closeOps, Loop.view, Loop.emit, Loop.detach,
        txCloseAttachedFile, he]

/-! ## The rules -/

/-- A response that `http_apply_action` may place on a connection with this view. -/
structure Places (w : Worker L) (v : IoView) (tx : TxState) (closing : Bool) : Prop where
  off : tx.writeOff = 0
  recv : tx.recvArmed = v.tx.recvArmed
  poll : tx.writePollArmed = v.tx.writePollArmed
  file : tx.file = v.tx.file ∨ w.Attaches v.tls tx.file
  closing : closing = v.closing ∨ (closing = true ∧ tx.keepalive = false)

/-- Predicates on views that the single operations of the handlers keep. -/
structure HandlerRules (w : Worker L) (Fresh : IoView → Prop) (Completed : IoRes → IoView → Prop)
    (Ready Waiting Settled : IoView → Prop) : Prop where
  idle {v : IoView} : Fresh v → Waiting v
  parsed {v : IoView} (done : Bool) : Fresh v → Fresh (v.parsed done)
  waiting {v : IoView} : Ready v → Waiting v
  settled {v : IoView} : Waiting v → Settled v
  disarmPoll {v : IoView} : Ready v → Ready v.disarmPoll
  refPut {v : IoView} : Ready v → Ready (v.emit [.ref, .put])
  close {v : IoView} (sync armed : Bool) : Waiting v → v.fdOpen = true → Settled (v.close sync armed)
  read {v : IoView} : Waiting v → v.fdOpen = true → (v.closing && !v.draining) = false →
    v.tx.recvArmed = false → Waiting v.armRead
  poll {v : IoView} : Ready v → Settled v.armPoll
  tlsPoll {v : IoView} : Waiting v → v.tls = true → v.fdOpen = true → Waiting v.armPoll
  advance {v : IoView} {res : IoRes} : Completed res v → Ready (v.advance res)
  more {v : IoView} {res : IoRes} : Completed res v → txPendingHeaders (v.advance res).tx = true →
    Settled ((v.advance res).post (v.advance res).tx.pending)
  resend {v : IoView} : Ready v → v.tls = false → txPendingHeaders v.tx = true →
    Settled (v.post v.tx.pending)
  sendfile {v : IoView} (r : IoRes) : Ready v → txSendfileIsActive v.tx = true →
    txPendingHeaders v.tx = false → Ready (v.sendfile r)
  dropFile {v : IoView} : Ready v → txSendfileIsActive v.tx = false →
    Ready (v.setTx (txCloseAttachedFile v.tx))
  discard {v : IoView} : Ready v → txPendingHeaders v.tx = false → Ready (v.setTx (txDiscard v.tx))
  reset {v : IoView} : Ready v → txPendingHeaders v.tx = false → txSendfileIsActive v.tx = false →
    v.tx.keepalive = true → Fresh v.reset
  tlsSent {v : IoView} (n : ℕ) : Ready v → v.tls = true → txPendingHeaders v.tx = true →
    Completed (.sent n) (v.emit [.tlsSend v.tx.pending (.sent n)])
  tlsWait {v : IoView} (r : TlsSend) : Ready v → v.tls = true → txPendingHeaders v.tx = true →
    (∀ n, r ≠ .sent (n + 1)) → Ready (v.emit [.tlsSend v.tx.pending r])
  respond {v : IoView} {tx : TxState} {closing : Bool} (draining : Bool) : Fresh v →
    Places w v tx closing → v.done = true ∨ closing = true ∨ draining = true →
    Ready (v.respond tx closing draining)
  start {v : IoView} : Ready v → v.tls = false → v.tx.writeOff = 0 → Settled (v.post v.tx.writeBuf)

/-! ## Decisions -/

/-- What the decision after a `send` says about the transmit state. -/
lemma txOnHeadersResult_decision (tx : TxState) (res : IoRes) :
    (txOnHeadersResult tx res).2 ≠ .resumeSendfile ∧ (txOnHeadersResult tx res).2 ≠ .noop ∧
      ((txOnHeadersResult tx res).2 = .startSendfile →
        txPendingHeaders (txOnHeadersResult tx res).1 = false) ∧
      ((txOnHeadersResult tx res).2 = .doneKeepalive ∨ (txOnHeadersResult tx res).2 = .doneClose →
        txPendingHeaders (txOnHeadersResult tx res).1 = false ∧
          txSendfileIsActive (txOnHeadersResult tx res).1 = false) := by
  unfold txOnHeadersResult
  split
  · simp
  · simp
  · simp
  · simp
  · rename_i n
    dsimp only
    split_ifs with hbuf hmore hdrain hactive
    · simp
    · simp
    · simp
    · refine ⟨by simp, by simp, fun _ => ?_, by simp⟩
      exact decide_eq_false hmore
    · refine ⟨?_, ?_, ?_, fun _ => ⟨decide_eq_false hmore, by simpa using hactive⟩⟩ <;>
      · unfold txDone
        split_ifs <;> simp

/-- What the decision after a `sendfile` says about the transmit state. -/
lemma txOnSendfileResult_decision (tx : TxState) (r : IoRes) :
    txPendingHeaders (txOnSendfileResult tx r).1 = txPendingHeaders tx ∧
      ((txOnSendfileResult tx r).2 = .resumeSendfile ∨ (txOnSendfileResult tx r).2 = .noop ∨
        (txOnSendfileResult tx r).2 = .armPollout ∨ (txOnSendfileResult tx r).2 = .errorClose ∨
        (((txOnSendfileResult tx r).2 = .doneKeepalive ∨ (txOnSendfileResult tx r).2 = .doneClose) ∧
          txSendfileIsActive (txOnSendfileResult tx r).1 = false)) := by
  have hdone : ∀ tx : TxState, txDone tx = .doneKeepalive ∨ txDone tx = .doneClose := by
    intro tx
    unfold txDone
    split_ifs <;> simp
  unfold txOnSendfileResult
  split
  · simp
  · simp
  · simp
  · simp
  · rename_i n
    dsimp only
    split_ifs with hrest hmore
    · refine ⟨rfl, Or.inr (Or.inr (Or.inr (Or.inr ⟨hdone _, ?_⟩)))⟩
      rcases hfile : tx.file with _ | rest
      · simp [txSendfileIsActive, hfile]
      · rw [hfile, Option.getD_some] at hrest
        simp [txSendfileIsActive, hfile, hrest]
    · exact ⟨rfl, Or.inl rfl⟩
    · refine ⟨rfl, Or.inr (Or.inr (Or.inr (Or.inr ⟨hdone _, ?_⟩)))⟩
      have hnil : (tx.file.getD []).drop (n + 1) = [] := by simpa using hmore
      simp [txSendfileIsActive, hnil]

lemma txOnHeadersResult_frame (tx : TxState) (res : IoRes) :
    (txOnHeadersResult tx res).1.file = tx.file ∧
      (txOnHeadersResult tx res).1.keepalive = tx.keepalive ∧
      (txOnHeadersResult tx res).1.recvArmed = tx.recvArmed := by
  unfold txOnHeadersResult
  split
  · simp
  · simp
  · simp
  · simp
  · dsimp only
    split_ifs <;> simp

lemma txOnSendfileResult_frame (tx : TxState) (res : IoRes) :
    (txOnSendfileResult tx res).1.pending = tx.pending ∧
      (txOnSendfileResult tx res).1.keepalive = tx.keepalive ∧
      (txOnSendfileResult tx res).1.recvArmed = tx.recvArmed := by
  unfold txOnSendfileResult
  split
  · simp
  · simp
  · simp
  · simp
  · dsimp only
    split_ifs <;> simp [TxState.pending]

lemma pending_eq_nil {tx : TxState} (h : txPendingHeaders tx = false) : tx.pending = [] :=
  List.drop_eq_nil_of_le (not_lt.mp (of_decide_eq_false h))

lemma file_eq_nil {tx : TxState} (h : txSendfileIsActive tx = false) : tx.file.getD [] = [] := by
  rcases hfile : tx.file with _ | rest
  · rfl
  · simpa [txSendfileIsActive, hfile] using h

/-! ## The walk through the write side -/

section Walk

variable {w : Worker L} {Fresh : IoView → Prop} {Completed : IoRes → IoView → Prop}
  {Ready Waiting Settled : IoView → Prop}

/-- A connection on which no read is posted: it is detached, or closing without a deadline. -/
def Conn.deaf (c : Conn L) : Bool :=
  !c.fdOpen || connIsClosingNoDeadline c

lemma postRecvPtr_of_deaf {l : Loop L} (h : l.conn.deaf = true) : postRecvPtr l = l := by
  unfold postRecvPtr
  unfold Conn.deaf at h
  rw [if_pos (by simp [h])]

/-- A stash processor that goes from fresh to settled, and waits if it has staged nothing. -/
def StashKeeps (Fresh Waiting Settled : IoView → Prop) (stash : Loop L → Loop L × Bool) : Prop :=
  ∀ l, Fresh l.view → Settled (stash l).1.view ∧
    ((stash l).2 = false → Waiting (stash l).1.view ∨ (stash l).1.conn.deaf = true)

namespace HandlerRules

variable (R : HandlerRules w Fresh Completed Ready Waiting Settled)

include R

lemma closes {l : Loop L} (h : Waiting l.view) : Settled (scheduleOrSyncClose l).view := by
  by_cases hfd : l.conn.fdOpen = true
  · obtain ⟨sync, armed, hview⟩ := scheduleOrSyncClose_view hfd
    rw [hview]
    exact R.close sync armed h hfd
  · rw [scheduleOrSyncClose_of_detached (by simpa using hfd)]
    exact R.settled h

lemma closesUnlessClosing {l : Loop L} (h : Waiting l.view) :
    Settled (closeUnlessClosing l).view := by
  unfold closeUnlessClosing
  split_ifs
  · exact R.settled h
  · exact R.closes h

lemma cancels {l : Loop L} (h : Ready l.view) : Ready (cancelWritePollIfArmed l).view := by
  rcases cancelWritePollIfArmed_view l with hview | hview
  · rw [hview]
    exact h
  · rw [hview]
    exact R.disarmPoll h

lemma postsRecv {l : Loop L} (h : Waiting l.view) : Waiting (postRecvPtr l).view := by
  unfold postRecvPtr
  split_ifs with hskip
  · exact h
  · obtain ⟨b, e, hb, he⟩ := getSqe_cases l
    rw [hb]
    cases b with
    | false =>
      rw [view_env l he]
      exact h
    | true =>
      simp only [Bool.or_eq_true, Bool.not_eq_true', not_or, Bool.not_eq_false,
        Bool.not_eq_true] at hskip
      show Waiting ({ l with env := e } : Loop L).view.armRead
      rw [view_env l he]
      exact R.read h hskip.1.1 hskip.1.2 hskip.2

lemma postsTlsPollout {l : Loop L} (h : Waiting l.view) (htls : l.conn.tlsEnabled = true) :
    Waiting (postTlsPollout l).2.view := by
  unfold postTlsPollout
  split_ifs with hskip
  · exact h
  · exact h
  · obtain ⟨b, e, hb, he⟩ := getSqe_cases l
    rw [hb]
    cases b with
    | false =>
      rw [view_env l he]
      exact h
    | true =>
      simp only [Bool.or_eq_true, Bool.not_eq_true', not_or, Bool.not_eq_false,
        Bool.not_eq_true] at hskip
      show Waiting ({ l with env := e } : Loop L).view.armPoll
      rw [view_env l he]
      exact R.tlsPoll h htls hskip.1

lemma armsPollout {l : Loop L} (h : Ready l.view) : Settled (writeArmPollout l).view := by
  unfold writeArmPollout
  split_ifs
  · exact R.settled (R.waiting h)
  · obtain ⟨b, e, hb, he⟩ := getSqe_cases l
    have henv : Ready ({ l with env := e } : Loop L).view := by
      rw [view_env l he]
      exact h
    rw [hb]
    cases b with
    | false => exact R.closesUnlessClosing (R.waiting henv)
    | true =>
      obtain ⟨b', e', hb', he'⟩ := getSqe_cases { l with env := e }
      have henv' : Ready ({ l with env := e' } : Loop L).view := by
        rw [view_env l (he'.trans he)]
        exact h
      dsimp only
      rw [hb']
      cases b' with
      | false =>
        refine R.closesUnlessClosing (R.waiting ?_)
        exact R.refPut henv'
      | true => exact R.poll henv'

/-- Posting the rest of the write buffer; `hpost` says why the post itself is allowed. -/
lemma postsRemaining {l : Loop L} (h : Ready l.view) (g : Bool)
    (hpost : txPendingHeaders l.conn.tx = true → Settled (l.view.post l.conn.tx.pending)) :
    Settled (writePostRemaining l g).view := by
  unfold writePostRemaining
  by_cases hpending : txPendingHeaders l.conn.tx = true
  · rw [if_pos hpending]
    obtain ⟨b, e, hb, he⟩ := getSqe_cases l
    have henv : Ready ({ l with env := e } : Loop L).view := by
      rw [view_env l he]
      exact h
    rw [hb]
    cases b with
    | false =>
      cases g with
      | false => exact R.closes (R.waiting henv)
      | true => exact R.closesUnlessClosing (R.waiting henv)
    | true =>
      show Settled (({ l with env := e } : Loop L).view.post l.conn.tx.pending)
      rw [view_env l he]
      exact hpost hpending
  · rw [if_neg hpending]
    exact R.settled (R.waiting h)

/-- Asking for readiness after `EAGAIN`. -/
lemma wantsPolls {l : Loop L} (h : Waiting l.view) (htls : l.conn.tlsEnabled = true)
    (wantRead wantWrite : Bool) :
    Settled (let polled := if wantWrite then postTlsPollout l else (true, l)
      if polled.1 then if wantRead then postRecvPtr polled.2 else polled.2
      else scheduleOrSyncClose polled.2).view := by
  have hpoll : Waiting (if wantWrite then postTlsPollout l else (true, l)).2.view := by
    split_ifs
    · exact R.postsTlsPollout h htls
    · exact h
  dsimp only
  generalize (if wantWrite then postTlsPollout l else (true, l)) = polled at hpoll ⊢
  split_ifs
  · exact R.settled (R.postsRecv hpoll)
  · exact R.settled hpoll
  · exact R.closes hpoll

variable {stash : Loop L → Loop L × Bool} (hstash : StashKeeps Fresh Waiting Settled stash)

include hstash

lemma fullResponse {l : Loop L} (h : Ready l.view) (hpending : txPendingHeaders l.conn.tx = false)
    (hactive : txSendfileIsActive l.conn.tx = false) :
    Settled (writeOnFullResponse w stash l).view := by
  unfold writeOnFullResponse txAfterFullResponse
  split_ifs with hdrain h503 hka
  · exact R.settled (R.postsRecv (R.waiting h))
  · exact R.closes (R.waiting h)
  · have hreset : Fresh (connResetRequest w l).view := R.reset h hpending hactive hka
    obtain ⟨hsettled, hwait⟩ := hstash _ hreset
    dsimp only
    split_ifs with hstaged
    · exact hsettled
    · rcases hwait (by simpa using hstaged) with hwait | hdeaf
      · exact R.settled (R.postsRecv hwait)
      · rw [postRecvPtr_of_deaf hdeaf]
        exact hsettled
  · exact R.closes (R.waiting h)

lemma finishesSendfile {l : Loop L} (h : Ready l.view)
    (hpending : txPendingHeaders l.conn.tx = false)
    (hactive : txSendfileIsActive l.conn.tx = false) : Settled (finishSendfile w stash l).view := by
  unfold finishSendfile
  have hdrop : Ready (l.setTx (txCloseAttachedFile l.conn.tx)).view := R.dropFile h hactive
  have hio := cancelWritePollIfArmed_armed (l.setTx (txCloseAttachedFile l.conn.tx))
  obtain ⟨armed, harmed⟩ := hio
  have htx := congrArg IoView.tx harmed
  refine R.fullResponse hstash (R.cancels hdrop) ?_ ?_
  · show txPendingHeaders (Loop.view _).tx = false
    rw [htx]
    exact hpending
  · show txSendfileIsActive (Loop.view _).tx = false
    rw [htx]
    rfl

lemma sendsFile (rs : List IoRes) {l : Loop L} (h : Ready l.view)
    (hpending : txPendingHeaders l.conn.tx = false) : Settled (sendfileLoop w stash rs l).view := by
  induction rs generalizing l with
  | nil =>
    unfold sendfileLoop
    split_ifs with hactive
    · refine R.closes (R.waiting ?_)
      exact R.sendfile .failed h hactive hpending
    · exact R.finishesSendfile hstash h hpending (by simpa using hactive)
  | cons r rs ih =>
    unfold sendfileLoop
    split_ifs with hactive
    · have hsent : Ready ((l.callSendfile r rs).setTx (txOnSendfileResult l.conn.tx r).1).view :=
        R.sendfile r h hactive hpending
      obtain ⟨hstill, hd⟩ := txOnSendfileResult_decision l.conn.tx r
      have hpending' := hstill.trans hpending
      rcases hd with hd | hd | hd | hd | ⟨hd | hd, hdone⟩ <;> simp only [hd]
      · exact ih hsent hpending'
      · exact ih hsent hpending'
      · exact R.armsPollout hsent
      · exact R.closes (R.waiting hsent)
      · exact R.finishesSendfile hstash hsent hpending' hdone
      · exact R.finishesSendfile hstash hsent hpending' hdone
    · exact R.finishesSendfile hstash h hpending (by simpa using hactive)

lemma progressesSendfile {l : Loop L} (h : Ready l.view)
    (hpending : txPendingHeaders l.conn.tx = false) :
    Settled (txSendfileProgress w stash l).view := by
  unfold txSendfileProgress
  split_ifs with hactive
  · exact R.sendsFile hstash _ h hpending
  · have hinactive : txSendfileIsActive l.conn.tx = false := by simpa using hactive
    have hdrop : Ready (l.setTx (txCloseAttachedFile l.conn.tx)).view := R.dropFile h hinactive
    exact R.fullResponse hstash hdrop hpending rfl

/-- **A completed send.** -/
lemma handlesWrite {l : Loop L} {res : IoRes} (h : Completed res l.view) :
    Settled (writeHandleCqe w stash l res).view := by
  have hready : Ready (l.setTx (txOnHeadersResult l.conn.tx res).1).view := R.advance h
  obtain ⟨hresume, hnoop, hstart, hdone⟩ := txOnHeadersResult_decision l.conn.tx res
  have hcancel := cancelWritePollIfArmed_armed (l.setTx (txOnHeadersResult l.conn.tx res).1)
  obtain ⟨armed, harmed⟩ := hcancel
  have htx := congrArg IoView.tx harmed
  have hfull : (txOnHeadersResult l.conn.tx res).2 = .doneKeepalive ∨
      (txOnHeadersResult l.conn.tx res).2 = .doneClose →
      Settled (writeOnFullResponse w stash
        (cancelWritePollIfArmed (l.setTx (txOnHeadersResult l.conn.tx res).1))).view := by
    intro hd
    refine R.fullResponse hstash (R.cancels hready) ?_ ?_
    · show txPendingHeaders (Loop.view _).tx = false
      rw [htx]
      exact (hdone hd).1
    · show txSendfileIsActive (Loop.view _).tx = false
      rw [htx]
      exact (hdone hd).2
  unfold writeHandleCqe
  dsimp only
  rcases hd : (txOnHeadersResult l.conn.tx res).2 with _ | _ | _ | _ | _ | _ | _ | _ | _
  · exact absurd hd hnoop
  · exact R.postsRemaining hready true (R.more h)
  · refine R.progressesSendfile hstash ?_ (by simp [Loop.setTx, txDiscard, txPendingHeaders])
    refine R.discard (R.cancels hready) ?_
    rw [htx]
    exact hstart hd
  · exact absurd hd hresume
  · exact R.armsPollout hready
  · exact R.settled (R.postsRecv (R.waiting (R.cancels hready)))
  · exact hfull (Or.inl hd)
  · exact hfull (Or.inr hd)
  · exact R.closes (R.waiting hready)

/-- **A completed write poll** on a plain connection. -/
lemma handlesWriteReady {l : Loop L} (h : Ready l.view.disarmPoll)
    (hplain : l.conn.tlsEnabled = false) : Settled (writeReadyHandleCqe w stash l).view := by
  unfold writeReadyHandleCqe
  have hready : Ready (l.setTx { l.conn.tx with writePollArmed := false }).view := h
  dsimp only
  generalize hl : l.setTx { l.conn.tx with writePollArmed := false } = l1 at hready
  have hplain' : l1.conn.tlsEnabled = false := by
    subst hl
    exact hplain
  unfold txOnPollout
  split_ifs with hresume hsend
  · exact R.progressesSendfile hstash hready (by simpa using hresume.2)
  · exact R.postsRemaining hready false (R.resend hready hplain')
  · exact R.settled (R.waiting hready)

/-- **A send on a TLS connection.** -/
lemma triesSend {l : Loop L} (h : Ready l.view) (htls : l.conn.tlsEnabled = true) :
    Settled (tlsTrySendPending w stash l).view := by
  unfold tlsTrySendPending
  by_cases hpending : txPendingHeaders l.conn.tx = true
  · rw [if_pos hpending]
    rcases l.env.tlsSends with _ | ⟨r, rest⟩
    · exact R.closes (R.waiting (R.tlsWait .failed h htls hpending (by simp)))
    · have hwait : (∀ n, r ≠ .sent (n + 1)) → Ready (l.callTlsSend r rest).view :=
        R.tlsWait r h htls hpending
      cases r with
      | sent n =>
        dsimp only
        split_ifs with hzero
        · exact R.closes (R.waiting (hwait (by simp [hzero])))
        · exact R.handlesWrite hstash (R.tlsSent n h htls hpending)
      | again wantRead wantWrite =>
        exact R.wantsPolls (R.waiting (hwait (by simp))) htls wantRead wantWrite
      | failed => exact R.closes (R.waiting (hwait (by simp)))
  · rw [if_neg hpending]
    exact R.settled (R.waiting h)

lemma startsSend {l : Loop L} (h : Ready l.view) (hoff : l.conn.tx.writeOff = 0) :
    Settled (startSend w stash l).view := by
  unfold startSend
  split_ifs with htls
  · exact R.triesSend hstash h htls
  · exact R.start h (by simpa [Loop.view] using htls) hoff

/-! ## The walk through the read side -/

/-- **Applying an action.** -/
lemma applies {l : Loop L} (h : Fresh l.view) (a : HttpAction)
    (ha : a = .respOk → l.conn.h1.messageDone = true) :
    Settled (httpApplyAction w stash l a).view := by
  rcases httpApplyAction_applied w stash l a with
    ⟨-, -, -, heq | heq⟩ | ⟨-, -, e, he, heq⟩ |
      ⟨want, tx, closing, draining, env, tail, hresp, hoff, hrecv, hfile, hio, heq⟩
  · rw [heq]
    exact R.settled (R.idle h)
  · rw [heq]
    exact R.settled (R.postsRecv (l := l.record (.applied l.reqNo a)) (R.idle h))
  · rw [heq]
    refine R.closes (R.idle ?_)
    rw [view_env _ (by exact he)]
    exact h
  · have hclosing : closing = l.conn.closing ∨ (closing = true ∧ tx.keepalive = false) := by
      rcases hresp with ⟨-, hclosing, hka, -⟩ | ⟨-, -, hclosing, -⟩ | ⟨-, -, -, -, hclosing, -⟩
      · exact Or.inr ⟨hclosing, hka⟩
      · exact Or.inl hclosing
      · exact Or.inl hclosing
    have hlive : l.conn.h1.messageDone = true ∨ closing = true ∨ draining = true := by
      rcases hresp with ⟨-, hclosing, -, -⟩ | ⟨-, -, -, hdraining, -⟩ | ⟨-, -, hok, -⟩
      · exact Or.inr (Or.inl hclosing)
      · exact Or.inr (Or.inr hdraining)
      · exact Or.inl (ha hok)
    have hplaced := R.respond (v := l.view) draining h ⟨hoff, hrecv.1, hrecv.2, hfile, hclosing⟩ hlive
    rw [heq]
    refine R.startsSend hstash ?_ hoff
    unfold Loop.view Loop.withResponse
    dsimp only
    rw [hio]
    exact hplaced

omit hstash in
lemma applies_continue {l : Loop L} (h : Fresh l.view) (herr : l.conn.h1.internalError = false) :
    Waiting (httpApplyAction w stash l .continue).view := by
  have hplan : httpPipelineBuildApplyPlan l.conn .continue = .continue := by
    simp [httpPipelineBuildApplyPlan, httpPipelineErrorPlan, herr]
  unfold httpApplyAction
  dsimp only
  rw [record_conn, hplan]
  dsimp only
  split_ifs
  · exact R.idle h
  · exact R.postsRecv (l := l.record (.applied l.reqNo .continue)) (R.idle h)

end HandlerRules

/-- An internal error leaves a connection that posts no read. -/
lemma httpApplyAction_deaf (w : Worker L) (stash : Loop L → Loop L × Bool) {l : Loop L}
    (herr : l.conn.h1.internalError = true) (hdraining : l.conn.draining = false) (a : HttpAction) :
    (httpApplyAction w stash l a).conn.deaf = true := by
  have hdeaf : ∀ {b : Bool} {l1 l2 : Loop L}, l1.conn.closing = true → l1.conn.draining = false →
      IoStep b l1 l2 → l2.conn.deaf = true := by
    intro b l1 l2 hclosing hdr hio
    simp [Conn.deaf, connIsClosingNoDeadline, hio.closing hclosing, hio.draining.trans hdr]
  unfold httpApplyAction httpPipelineBuildApplyPlan
  dsimp only
  rw [if_pos (by exact herr)]
  dsimp only
  obtain ⟨b, e, hb, -⟩ := sendSqe_cases (l.record (.applied l.reqNo a))
  rw [hb]
  cases b with
  | false => simp [Conn.deaf, scheduleOrSyncClose_detached]
  | true =>
    dsimp only
    unfold stageHeaderResponseSend
    generalize hl1 : ({ (l.record (.applied l.reqNo a)) with env := e } : Loop L) = l1
    have hdr1 : l1.conn.draining = false := by
      subst hl1
      exact hdraining
    have hclose : (effectivePlan w l1 httpPipelineInternalErrorPlan).closeAfterSend = true := by
      rcases effectivePlan_cases w l1 httpPipelineInternalErrorPlan with h | h
      · rw [h]
        rfl
      · exact h
    have hka := effectivePlan_keepalive w l1 httpPipelineInternalErrorPlan rfl
    generalize effectivePlan w l1 httpPipelineInternalErrorPlan = plan at hclose hka
    rw [placeHeaderResponse_eq, hclose, Bool.or_true]
    generalize hl2 : l1.withResponse _ (headerTx w l1 plan) true l1.conn.draining _ _ = l2
    have hclosing2 : l2.conn.closing = true := by
      subst hl2
      rfl
    have hdr2 : l2.conn.draining = false := by
      subst hl2
      exact hdr1
    have hka2 : l2.conn.tx.keepalive = false := by
      subst hl2
      exact hka
    unfold startSend
    split_ifs
    · rcases tlsTrySendPending_outcome w stash l2 with hio | ⟨l3, hka3, -, -, -⟩
      · exact hdeaf hclosing2 hdr2 hio
      · exact absurd (hka3.symm.trans hka2) (by decide)
    · exact hdeaf hclosing2 hdr2 (ioStep_emit l2 _)

lemma takeBytes_view (l : Loop L) (buf : Bytes) :
    (takeBytes l buf).1.view = l.view.parsed (takeBytes l buf).1.conn.h1.messageDone := by
  have hp := rxStages_parse l.conn buf
  unfold Loop.view takeBytes IoView.parsed
  dsimp only
  rw [hp.tx, hp.closing, hp.fdOpen, hp.draining, hp.tlsEnabled]

namespace HandlerRules

variable (R : HandlerRules w Fresh Completed Ready Waiting Settled)

include R

/-- **The stash processor** at every depth of its recursion. -/
lemma processesStash (depth : ℕ) :
    StashKeeps Fresh Waiting Settled (connTryProcessStash w depth) := by
  induction depth with
  | zero =>
    intro l h
    unfold connTryProcessStash
    split_ifs
    · exact ⟨R.settled (R.idle h), fun _ => Or.inl (R.idle h)⟩
    · exact ⟨R.settled (R.idle h), fun hstaged => absurd hstaged (by decide)⟩
  | succ depth ih =>
    intro l h
    unfold connTryProcessStash
    split_ifs with hskip
    · exact ⟨R.settled (R.idle h), fun _ => Or.inl (R.idle h)⟩
    · simp only [not_or, Bool.not_eq_true] at hskip
      have htaken : Fresh (takeBytes l l.conn.rxStash).1.view := by
        rw [takeBytes_view]
        exact R.parsed _ h
      have hdr : (takeBytes l l.conn.rxStash).1.conn.draining = false :=
        (rxStages_parse l.conn l.conn.rxStash).draining.trans hskip.2.2
      dsimp only
      generalize takeBytes l l.conn.rxStash = r at htaken hdr
      refine ⟨R.applies ih htaken _ classify_respOk, fun hstaged => ?_⟩
      have ha : httpPipelineClassifyAction r.1.conn = .continue := by simpa using hstaged
      rw [ha]
      by_cases herr : r.1.conn.h1.internalError = true
      · exact Or.inr (httpApplyAction_deaf w _ herr hdr .continue)
      · exact Or.inl (R.applies_continue htaken (by simpa using herr))

lemma stash : StashKeeps Fresh Waiting Settled (stashProcessor w) :=
  R.processesStash w.stackDepth

/-- **Decrypted bytes.** -/
lemma processesRxBytes {l : Loop L} (h : Fresh l.view) (buf : Bytes) :
    Settled (processRxBytes w l buf).view := by
  unfold processRxBytes
  split_ifs
  · exact R.settled (R.idle h)
  · have htaken : Fresh (takeBytes { l with
        conn := { l.conn with noselectStreak := 0 } } buf).1.view := by
      rw [takeBytes_view]
      exact R.parsed _ h
    dsimp only
    generalize takeBytes { l with conn := { l.conn with noselectStreak := 0 } } buf = r at htaken
    obtain ⟨e, he, hr | hr⟩ := connRxStashAppend_cases r.1 (buf.drop r.2)
    · rw [hr]
      refine R.applies R.stash ?_ _ classify_respOk
      show Fresh (({ r.1 with env := e } : Loop L)).view
      rw [view_env _ he]
      exact htaken
    · rw [hr]
      refine R.closes (R.idle ?_)
      rw [view_env _ he]
      exact htaken

lemma readsData {l : Loop L} (h : Fresh l.view) (buf : Bytes)
    (hfits : (connRxStashAppend (takeBytes l.heard buf).1
      (buf.drop (takeBytes l.heard buf).2)).1 = true) :
    Settled (readData w l buf).view := by
  have htaken : Fresh (takeBytes l.heard buf).1.view := by
    rw [takeBytes_view]
    exact R.parsed _ h
  rw [readData_eq]
  refine R.applies R.stash ?_ _ classify_respOk
  unfold stashRest
  rw [if_pos hfits]
  generalize takeBytes l.heard buf = r at htaken hfits
  obtain ⟨e, he, hr | hr⟩ := connRxStashAppend_cases r.1 (buf.drop r.2)
  · rw [hr]
    show Fresh (({ r.1 with env := e } : Loop L)).view
    rw [view_env _ he]
    exact htaken
  · simp [hr] at hfits

end HandlerRules

/-- What no operation undoes: the history only grows, a detached descriptor stays detached, and a
connection uses TLS or not. -/
structure IoView.Grows (v₀ v : IoView) : Prop where
  tls : v.tls = v₀.tls
  history : v₀.history <+: v.history
  detached : v₀.fdOpen = false → v.fdOpen = false

lemma IoView.Grows.refl (v : IoView) : v.Grows v :=
  ⟨rfl, List.prefix_refl _, id⟩

lemma IoView.Grows.emit {v₀ v : IoView} (h : v₀.Grows v) (ops : List Io) {v' : IoView}
    (htls : v'.tls = v.tls) (hhistory : v'.history = v.history ++ ops)
    (hfd : v.fdOpen = false → v'.fdOpen = false) : v₀.Grows v' := by
  refine ⟨htls.trans h.tls, ?_, fun hclosed => hfd (h.detached hclosed)⟩
  rw [hhistory]
  exact h.history.trans (List.prefix_append _ _)

lemma growRules (w : Worker L) (v₀ : IoView) :
    HandlerRules w v₀.Grows (fun _ => v₀.Grows) v₀.Grows v₀.Grows v₀.Grows where
  idle h := h
  parsed _ h := ⟨h.tls, h.history, h.detached⟩
  waiting h := h
  settled h := h
  disarmPoll h := ⟨h.tls, h.history, h.detached⟩
  refPut h := h.emit _ rfl rfl id
  close sync _ h _ := h.emit (closeOps sync) rfl rfl fun _ => rfl
  read h _ _ _ := h.emit [.ref, .postRead] rfl rfl id
  poll h := h.emit [.ref, .postPollOut] rfl rfl id
  tlsPoll h _ _ := h.emit [.ref, .postPollOut] rfl rfl id
  advance h := ⟨h.tls, h.history, h.detached⟩
  more h _ := h.emit [.ref, .postSend _] rfl rfl id
  resend h _ _ := h.emit _ rfl rfl id
  sendfile r h _ _ := h.emit [.sendfile _ r] rfl rfl id
  dropFile h _ := ⟨h.tls, h.history, h.detached⟩
  discard h _ := ⟨h.tls, h.history, h.detached⟩
  reset h _ _ _ := h.emit [.reset] rfl rfl id
  tlsSent _ h _ _ := h.emit _ rfl rfl id
  tlsWait _ h _ _ _ := h.emit _ rfl rfl id
  respond _ h _ _ := h.emit [.respond _ _] rfl rfl id
  start h _ _ := h.emit _ rfl rfl id

lemma processRxBytes_tlsEnabled (w : Worker L) (l : Loop L) (buf : Bytes) :
    (processRxBytes w l buf).conn.tlsEnabled = l.conn.tlsEnabled :=
  ((growRules w l.view).processesRxBytes (.refl l.view) buf).tls

namespace HandlerRules

variable (R : HandlerRules w Fresh Completed Ready Waiting Settled)

include R

lemma endsTlsRead {l : Loop L} (h : Waiting l.view) (htls : l.conn.tlsEnabled = true) (spins : ℕ)
    (rs : List TlsRecv) (hdata : ∀ buf, .data buf ∉ rs) :
    Settled (tlsReadLoop w spins rs l).view := by
  rcases spins with _ | spins
  · exact R.settled h
  · rcases rs with _ | ⟨r, rs⟩
    · exact R.settled h
    · unfold tlsReadLoop
      split_ifs
      · exact R.settled h
      · cases r with
        | data buf => exact absurd List.mem_cons_self (hdata buf)
        | again wantRead wantWrite => exact R.wantsPolls h htls wantRead wantWrite
        | eof => exact R.closes h
        | failed => exact R.closes h

lemma loopsTlsRead (hnext : ∀ v, Settled v → v.closing = false → Fresh v) (spins : ℕ)
    (rs : List TlsRecv) {l : Loop L} (h : Settled l.view) (htls : l.conn.tlsEnabled = true) :
    Settled (tlsReadLoop w spins rs l).view := by
  induction spins generalizing rs l with
  | zero => exact h
  | succ spins ih =>
    rcases rs with _ | ⟨r, rs⟩
    · exact h
    · unfold tlsReadLoop
      split_ifs with hclosing
      · exact h
      · have hfresh := hnext l.view h (by simpa [Loop.view] using hclosing)
        cases r with
        | data buf =>
          refine ih rs (R.processesRxBytes hfresh buf) ?_
          exact (processRxBytes_tlsEnabled w l buf).trans htls
        | again wantRead wantWrite =>
          exact R.wantsPolls (R.idle hfresh) htls wantRead wantWrite
        | eof => exact R.closes (R.idle hfresh)
        | failed => exact R.closes (R.idle hfresh)

end HandlerRules

end Walk

end Lamseryn
