import Lamseryn.Properties.LoopFrames
import Lamseryn.Properties.Scripted

/-!
# One dispatch while a TLS response is pending

On a TLS connection the read poll stays armed while a response waits for a writable socket.  The
classification does not look at the transmit state, so what keeps a dispatched request from being
dispatched again is only that no decrypted bytes reach it.

`ServeInv` is the invariant: the requests dispatched so far were dispatched once, and the current
one, if it has been dispatched, is complete.  It holds at every re-entry of the stash processor,
because the request number has moved on there.  The one step that can break it is a decrypted read
while the current request is dispatched, unless the bytes overflow the stash
(`dispatchedOnce_of_overflow`).
-/

namespace Lamseryn

open ByteText GuardedRun

variable {L : Llhttp}

/-! ## Dispatches in the log -/

/-- The entry is a call of `request_dispatch_ok`. -/
def LogEntry.isDispatch : LogEntry → Bool
  | .dispatched _ _ _ => true
  | _ => false

/-- The entry dispatches its request or stages a response for it. -/
def LogEntry.isResponse : LogEntry → Bool
  | .applied _ _ => false
  | _ => true

/-- After a dispatch and the response staged for it, the request is neither dispatched again nor
given another response. -/
def DispatchedOnce : List LogEntry → Prop
  | [] => True
  | .dispatched n _ _ :: rest =>
    (∀ e ∈ rest.tail, e.isResponse = true → e.reqNo ≠ n) ∧ DispatchedOnce rest
  | .applied _ _ :: rest => DispatchedOnce rest
  | .staged _ _ :: rest => DispatchedOnce rest

instance DispatchedOnce.decidable : (log : List LogEntry) → Decidable (DispatchedOnce log)
  | [] => .isTrue trivial
  | .dispatched _ _ _ :: rest =>
    haveI := DispatchedOnce.decidable rest
    inferInstanceAs (Decidable (_ ∧ DispatchedOnce rest))
  | .applied _ _ :: rest => DispatchedOnce.decidable rest
  | .staged _ _ :: rest => DispatchedOnce.decidable rest

/-- The request has been dispatched. -/
def Served (log : List LogEntry) (n : ℕ) : Prop :=
  ∃ e ∈ log, e.isDispatch = true ∧ e.reqNo = n

instance (log : List LogEntry) (n : ℕ) : Decidable (Served log n) :=
  inferInstanceAs (Decidable (∃ e ∈ log, _))

lemma DispatchedOnce.append {log tail : List LogEntry} {n : ℕ} (h : DispatchedOnce log)
    (htail : DispatchedOnce tail) (hreq : ∀ e ∈ tail, e.reqNo = n) (hn : ¬ Served log n) :
    DispatchedOnce (log ++ tail) := by
  induction log with
  | nil => exact htail
  | cons e log ih =>
    have hn' : ¬ Served log n := fun ⟨e', he', h'⟩ => hn ⟨e', List.mem_cons_of_mem e he', h'⟩
    cases e with
    | applied m a => exact ih h hn'
    | staged m kind => exact ih h hn'
    | dispatched m taken h1 =>
      refine ⟨fun e' he' hresp => ?_, ih h.2 hn'⟩
      -- the entries behind the response are old ones, or they are about `n`
      have hmem : e' ∈ log.tail ∨ e' ∈ tail := by
        cases log with
        | nil => exact Or.inr (List.mem_of_mem_tail he')
        | cons e1 log => exact List.mem_append.mp he'
      rcases hmem with hold | hnew
      · exact h.1 e' hold hresp
      · rw [hreq e' hnew]
        exact fun hm => hn ⟨_, List.mem_cons_self, rfl, hm.symm⟩

lemma ActionTail.dispatchedOnce {n : ℕ} {tail : List LogEntry} (h : ActionTail n tail)
    (a : HttpAction) : DispatchedOnce (.applied n a :: tail) := by
  rcases h with rfl | ⟨kind, rfl⟩ | ⟨kind, taken, h1, rfl⟩ <;> simp [DispatchedOnce]

/-! ## The invariant -/

/-- The log of a TLS connection is in order, and if the connection is not closing, a dispatched
current request is a complete one. -/
structure ServeInv (l : Loop L) : Prop where
  tls : l.conn.tlsEnabled = true
  once : DispatchedOnce l.log
  bounded : ∀ e ∈ l.log, e.reqNo ≤ l.reqNo
  live : l.conn.closing = false → Served l.log l.reqNo → l.conn.h1.messageDone = true

lemma ServeInv.io {b : Bool} {l l' : Loop L} (h : ServeInv l) (hio : IoStep b l l') :
    ServeInv l' := by
  refine ⟨hio.tlsEnabled.trans h.tls, hio.log ▸ h.once, ?_, ?_⟩
  · rw [hio.log, hio.reqNo]
    exact h.bounded
  · rw [hio.log, hio.reqNo, hio.h1]
    intro hclosing
    refine h.live (Bool.eq_false_iff.mpr fun hbefore => ?_)
    exact absurd (hclosing.symm.trans (hio.closing hbefore)) (by decide)

lemma ServeInv.reset (w : Worker L) {l : Loop L} (h : ServeInv l) :
    ServeInv (connResetRequest w l) ∧
      ¬ Served (connResetRequest w l).log (connResetRequest w l).reqNo := by
  have hun : ¬ Served l.log (l.reqNo + 1) := by
    rintro ⟨e, he, -, hreq⟩
    have hle := h.bounded e he
    omega
  refine ⟨⟨h.tls, h.once, fun e he => ?_, fun _ hs => absurd hs hun⟩, hun⟩
  exact (h.bounded e he).trans (Nat.le_succ _)

/-- A stash processor that keeps the invariant when it is entered for a new request. -/
def KeepsServing (stash : Loop L → Loop L × Bool) : Prop :=
  ∀ l, ServeInv l → ¬ Served l.log l.reqNo → ServeInv (stash l).1

lemma SendOutcome.serveInv {w : Worker L} {stash : Loop L → Loop L × Bool} {l l' : Loop L}
    (hout : SendOutcome w stash l l') (hstash : KeepsServing stash) (h : ServeInv l) :
    ServeInv l' := by
  rcases hout with hio | ⟨l1, -, hio, -, rfl⟩
  · exact h.io hio
  · obtain ⟨hreset, hun⟩ := (h.io hio).reset w
    have hnext := hstash _ hreset hun
    unfold nextRequest
    dsimp only
    split_ifs
    · exact hnext
    · exact hnext.io (postRecvPtr_io _)

/-- Applying the classified action for a request that has not been dispatched. -/
lemma httpApplyAction_serveInv (w : Worker L) {stash : Loop L → Loop L × Bool}
    (hstash : KeepsServing stash) {l : Loop L} (h : ServeInv l) (hn : ¬ Served l.log l.reqNo)
    {a : HttpAction} (ha : httpPipelineClassifyAction l.conn = a) :
    ServeInv (httpApplyAction w stash l a) := by
  have hlog : ∀ tail, ActionTail l.reqNo tail →
      DispatchedOnce (l.log ++ .applied l.reqNo a :: tail) ∧
        ∀ e ∈ l.log ++ .applied l.reqNo a :: tail, e.reqNo ≤ l.reqNo := by
    intro tail htail
    refine ⟨h.once.append (htail.dispatchedOnce a) (htail.reqNo a) hn, fun e he => ?_⟩
    rcases List.mem_append.mp he with he | he
    · exact h.bounded e he
    · exact (htail.reqNo a e he).le
  -- an entry that is no dispatch leaves the request undispatched
  have hstill : ∀ tail, (∀ e ∈ tail, e.isDispatch = false) →
      ¬ Served (l.log ++ .applied l.reqNo a :: tail) l.reqNo := by
    rintro tail htail ⟨e, he, hdisp, hreq⟩
    rcases List.mem_append.mp he with he | he
    · exact hn ⟨e, he, hdisp, hreq⟩
    · rcases List.mem_cons.mp he with rfl | he
      · exact absurd hdisp (by simp [LogEntry.isDispatch])
      · exact absurd hdisp (by simp [htail e he])
  have happlied : ServeInv (l.record (.applied l.reqNo a)) := by
    obtain ⟨honce, hbounded'⟩ := hlog [] (Or.inl rfl)
    exact ⟨h.tls, honce, hbounded', fun _ hs => absurd hs (hstill [] (by simp))⟩
  rcases httpApplyAction_applied w stash l a with
    ⟨-, -, hio, -⟩ | ⟨hio, -, -⟩ | ⟨want, tx, closing, draining, env, tail, hresp, -, -, -, -, heq⟩
  · exact happlied.io hio
  · exact happlied.io hio
  · obtain ⟨honce, hbounded'⟩ := hlog tail hresp.actionTail
    have hplaced : ServeInv (l.withResponse want tx closing draining env
        (l.log ++ .applied l.reqNo a :: tail)) := by
      refine ⟨h.tls, honce, hbounded', fun hopen hs => ?_⟩
      rcases hresp with ⟨kind, hclosed, -⟩ | ⟨-, -, -, -, -, -, -, -, htail⟩ | ⟨kind, h1, hok, -⟩
      · exact absurd (hopen.symm.trans hclosed) (by decide)
      · exact absurd hs (hstill tail (by simp [htail, LogEntry.isDispatch]))
      · exact classify_respOk (c := l.conn) (ha.trans hok)
    rw [heq]
    unfold startSend
    split_ifs
    · exact (tlsTrySendPending_outcome w stash _).serveInv hstash hplaced
    · exact hplaced.io (ioStep_emit _ _)

/-! ## Stashed and received bytes -/

lemma ServeInv.takeBytes {l : Loop L} (h : ServeInv l) (hn : ¬ Served l.log l.reqNo)
    (buf : Bytes) : ServeInv (takeBytes l buf).1 :=
  ⟨(rxStages_parse l.conn buf).tlsEnabled.trans h.tls, h.once, h.bounded,
    fun _ hs => absurd hs hn⟩

lemma connTryProcessStash_keepsServing (w : Worker L) (depth : ℕ) :
    KeepsServing (connTryProcessStash w depth) := by
  induction depth with
  | zero =>
    intro l h _
    unfold connTryProcessStash
    split_ifs
    · exact h
    · exact ⟨h.tls, h.once, h.bounded, h.live⟩
  | succ depth ih =>
    intro l h hn
    unfold connTryProcessStash
    split_ifs
    · exact h
    · dsimp only
      have happly := httpApplyAction_serveInv w ih (h.takeBytes hn l.conn.rxStash) hn rfl
      exact ⟨happly.tls, happly.once, happly.bounded, happly.live⟩

/-- The stash has no room for the bytes, or no block for them. -/
def Overflows (l : Loop L) (buf : Bytes) : Prop :=
  rbufSz < l.conn.rxStash.length + buf.length ∨
    (l.conn.rxStash = [] ∧ l.env.stashBlocks.head? = some false)

instance (l : Loop L) (buf : Bytes) : Decidable (Overflows l buf) :=
  inferInstanceAs (Decidable (_ ∨ _))

lemma connRxStashAppend_of_overflows {l : Loop L} {buf : Bytes} (hne : buf ≠ [])
    (h : Overflows l buf) : (connRxStashAppend l buf).1 = false := by
  unfold connRxStashAppend
  rw [if_neg hne]
  split_ifs with hlong hempty
  · rfl
  · obtain ⟨-, hblock⟩ := h.resolve_left hlong
    unfold Loop.stashAlloc
    rcases hb : l.env.stashBlocks with _ | ⟨ok, rest⟩
    · simp [hb] at hblock
    · simp only [hb, List.head?_cons, Option.some.injEq] at hblock
      subst hblock
      rfl
  · exact absurd (h.resolve_left hlong).1 hempty

lemma rxStages_of_messageDone {c : Conn L} (hheaders : c.h1.headersDone = true)
    (hdone : c.h1.messageDone = true) (buf : Bytes) : rxStages c buf = (c, 0) := by
  simp [rxStages, feedHead, feedBody, hheaders, hdone]

/-- A decrypted read may reach a dispatched request only if its bytes overflow the stash. -/
def ReadAllowed (l : Loop L) (buf : Bytes) : Prop :=
  Served l.log l.reqNo → l.conn.h1.headersDone = true ∧ Overflows l buf

instance (l : Loop L) (buf : Bytes) : Decidable (ReadAllowed l buf) :=
  inferInstanceAs (Decidable (_ → _))

lemma processRxBytes_eq (w : Worker L) {l : Loop L} {buf : Bytes} (hne : buf ≠ [])
    (hclosing : l.conn.closing = false) :
    processRxBytes w l buf =
      match connRxStashAppend (takeBytes l.heard buf).1 (buf.drop (takeBytes l.heard buf).2) with
      | (false, l) => scheduleOrSyncClose l
      | (true, l) => httpApplyAction w (stashProcessor w) l (httpPipelineClassifyAction l.conn) :=
  if_neg (by simp [hne, hclosing])

lemma processRxBytes_of_overflows (w : Worker L) {l : Loop L} {buf : Bytes} (hne : buf ≠ [])
    (hclosing : l.conn.closing = false) (hheaders : l.conn.h1.headersDone = true)
    (hdone : l.conn.h1.messageDone = true) (hover : Overflows l buf) :
    ∃ e, processRxBytes w l buf =
      scheduleOrSyncClose { l.heard with taken := l.taken ++ buf.take 0, env := e } := by
  have hstages : takeBytes l.heard buf = ({ l.heard with taken := l.taken ++ buf.take 0 }, 0) := by
    unfold takeBytes
    rw [rxStages_of_messageDone (c := l.heard.conn) hheaders hdone]
    rfl
  have hfail := connRxStashAppend_of_overflows
    (l := { l.heard with taken := l.taken ++ buf.take 0 }) hne hover
  obtain ⟨e, -, hr | hr⟩ :=
    connRxStashAppend_cases { l.heard with taken := l.taken ++ buf.take 0 } buf
  · rw [hr] at hfail
    exact absurd hfail (by simp)
  · refine ⟨e, ?_⟩
    rw [processRxBytes_eq w hne hclosing, hstages, List.drop_zero, hr]

lemma processRxBytes_serveInv (w : Worker L) {l : Loop L} (h : ServeInv l) {buf : Bytes}
    (hread : ReadAllowed l buf) : ServeInv (processRxBytes w l buf) := by
  by_cases hskip : buf = [] ∨ l.conn.closing = true
  · unfold processRxBytes
    rw [if_pos hskip]
    exact h
  simp only [not_or, Bool.not_eq_true] at hskip
  obtain ⟨hne, hclosing⟩ := hskip
  by_cases hs : Served l.log l.reqNo
  · obtain ⟨hheaders, hover⟩ := hread hs
    have hdone := h.live hclosing hs
    obtain ⟨e, heq⟩ := processRxBytes_of_overflows w hne hclosing hheaders hdone hover
    have htaken : ServeInv { l.heard with taken := l.taken ++ buf.take 0, env := e } :=
      ⟨h.tls, h.once, h.bounded, h.live⟩
    rw [heq]
    exact htaken.io (scheduleOrSyncClose_io _)
  · have htaken : ServeInv (takeBytes l.heard buf).1 :=
      ServeInv.takeBytes (l := l.heard) ⟨h.tls, h.once, h.bounded, h.live⟩ hs buf
    have hn : ¬ Served (takeBytes l.heard buf).1.log (takeBytes l.heard buf).1.reqNo := hs
    rw [processRxBytes_eq w hne hclosing]
    generalize takeBytes l.heard buf = r at *
    obtain ⟨e, -, hr | hr⟩ := connRxStashAppend_cases r.1 (buf.drop r.2)
    · rw [hr]
      exact httpApplyAction_serveInv w (connTryProcessStash_keepsServing w _)
        (l := r.1.stashed (buf.drop r.2) e)
        ⟨htaken.tls, htaken.once, htaken.bounded, htaken.live⟩ hn rfl
    · rw [hr]
      exact htaken.io ((ioStep_env r.1 e).trans (scheduleOrSyncClose_io _))

/-! ## Runs -/

/-- Every decrypted read of a read poll is allowed in the state it meets. -/
def ReadsAllowed (w : Worker L) : ℕ → List TlsRecv → Loop L → Prop
  | 0, _, _ => True
  | _ + 1, [], _ => True
  | spins + 1, r :: rs, l =>
    match r with
    | .data buf =>
      l.conn.closing = false → ReadAllowed l buf ∧ ReadsAllowed w spins rs (processRxBytes w l buf)
    | _ => True

instance ReadsAllowed.decidable (w : Worker L) :
    (spins : ℕ) → (rs : List TlsRecv) → (l : Loop L) → Decidable (ReadsAllowed w spins rs l)
  | 0, _, _ => .isTrue trivial
  | _ + 1, [], _ => .isTrue trivial
  | spins + 1, .data buf :: rs, l =>
    haveI := ReadsAllowed.decidable w spins rs (processRxBytes w l buf)
    inferInstanceAs (Decidable (l.conn.closing = false →
      ReadAllowed l buf ∧ ReadsAllowed w spins rs (processRxBytes w l buf)))
  | _ + 1, .again _ _ :: _, _ => .isTrue trivial
  | _ + 1, .eof :: _, _ => .isTrue trivial
  | _ + 1, .failed :: _, _ => .isTrue trivial

lemma tlsReadLoop_serveInv (w : Worker L) (spins : ℕ) (rs : List TlsRecv) {l : Loop L}
    (h : ServeInv l) (hreads : ReadsAllowed w spins rs l) :
    ServeInv (tlsReadLoop w spins rs l) := by
  induction spins generalizing rs l with
  | zero => exact h
  | succ spins ih =>
    rcases rs with _ | ⟨r, rs⟩
    · exact h
    · unfold tlsReadLoop
      by_cases hclosing : l.conn.closing = true
      · rw [if_pos hclosing]
        exact h
      · rw [if_neg hclosing]
        cases r with
        | data buf =>
          obtain ⟨hread, hrest⟩ := hreads (by simpa using hclosing)
          exact ih rs (processRxBytes_serveInv w h hread) hrest
        | again wantRead wantWrite => exact h.io (wantPolls_io l wantRead wantWrite)
        | eof => exact h.io (scheduleOrSyncClose_io l)
        | failed => exact h.io (scheduleOrSyncClose_io l)

/-- The loop as the TLS read loop starts on it. -/
def Loop.polled (l : Loop L) (env : Env) : Loop L :=
  { l with
    env := env
    recvOps := l.recvOps - 1
    conn := { l.conn with tx := { l.conn.tx with recvArmed := false } } }

/-- The decrypted reads of a step leave a dispatched request alone, or overflow the stash. -/
def ReadsOverflow (w : Worker L) (l : Loop L) (e : Event × Env) : Prop :=
  match e.1 with
  | .tlsRead rs => ReadsAllowed w 8 rs (l.polled e.2)
  | _ => True

instance (w : Worker L) (l : Loop L) : DecidablePred (ReadsOverflow w l)
  | (.recv _, _) => .isTrue trivial
  | (.tlsRead rs, env) => inferInstanceAs (Decidable (ReadsAllowed w 8 rs (l.polled env)))
  | (.write _, _) => .isTrue trivial
  | (.writeReady, _) => .isTrue trivial
  | (.shutdown, _) => .isTrue trivial
  | (.expire, _) => .isTrue trivial

lemma ServeInv.tlsRead (w : Worker L) {l : Loop L} (h : ServeInv l) (rs : List TlsRecv) (env : Env)
    (hreads : ReadsAllowed w 8 rs (l.polled env)) : ServeInv (l.step w (.tlsRead rs, env)) := by
  have hpolled : ServeInv (l.polled env) := ⟨h.tls, h.once, h.bounded, h.live⟩
  have hloop := tlsReadLoop_serveInv w 8 rs hpolled hreads
  show ServeInv (tlsReadHandleCqe w { l with env := env, recvOps := l.recvOps - 1 } rs)
  unfold tlsReadHandleCqe
  split_ifs with hskip
  · exact ⟨h.tls, h.once, h.bounded, h.live⟩
  · show ServeInv (if (tlsReadLoop w 8 rs (l.polled env)).conn.closing = true then
      tlsReadLoop w 8 rs (l.polled env) else postRecvPtr (tlsReadLoop w 8 rs (l.polled env)))
    split_ifs
    · exact hloop
    · exact hloop.io (postRecvPtr_io _)

/-- **A step keeps the invariant** on a TLS connection: one case per event. -/
lemma ServeInv.step (w : Worker L) {l : Loop L} (h : ServeInv l) (e : Event × Env)
    (hen : l.enabled e = true) (hreads : ReadsOverflow w l e) : ServeInv (l.step w e) := by
  obtain ⟨ev, env⟩ := e
  have henv : ServeInv { l with env := env } := h.io (ioStep_env l env)
  have hstash := connTryProcessStash_keepsServing w w.stackDepth
  cases ev with
  | recv r => simp [Loop.enabled, h.tls] at hen
  | tlsRead rs => exact h.tlsRead w rs env hreads
  | write res => exact (handleWrite_outcome w _ res).serveInv hstash henv
  | writeReady => exact (handleWriteReady_outcome w _).serveInv hstash henv
  | shutdown => exact henv.io (ioStep_shutdown _)
  | expire => exact henv.io (scheduleOrSyncClose_io _)

lemma acceptConn_serveInv (w : Worker L) (vhost : Option Vhost) (arena : List Bool) :
    ServeInv (acceptConn w vhost true arena) := by
  have hfresh : ServeInv ({ conn := connInit w vhost true arena } : Loop L) := by
    refine ⟨rfl, trivial, by simp, ?_⟩
    rintro - ⟨e, he, -⟩
    exact absurd he (by simp)
  exact hfresh.io (postRecvPtr_io _)

/-- **No second dispatch while a TLS response is pending**: in every run of a TLS connection in
which the decrypted reads that meet a dispatched request overflow the stash, a request is
dispatched at most once and gets one response. -/
theorem dispatchedOnce_of_overflow (w : Worker L) (vhost : Option Vhost) (arena : List Bool)
    {es : List (Event × Env)} {l : Loop L}
    (hrun : Run (Loop.step w) (fun l e => l.enabled e = true ∧ ReadsOverflow w l e)
      (acceptConn w vhost true arena) es l) : DispatchedOnce l.log := by
  have hinv := Run.invariant (fun _ l => ServeInv l) (acceptConn_serveInv w vhost arena)
    (fun _ l e h hok => h.step w e hok.1 hok.2) hrun
  exact hinv.once

/-- Two requests, each of whose responses waits for a writable socket before it completes. -/
def waitingResponses : List (Event × Env) :=
  [(.tlsRead [.data (scriptBytes bareRequest), .again true false],
      { tlsSends := [.again false true] }),
   (.writeReady, { tlsSends := [.sent 1] }),
   (.tlsRead [.data (scriptBytes bareRequest)], { tlsSends := [.again false true] }),
   (.writeReady, { tlsSends := [.sent 1] })]

/-- Both requests are served. -/
def waitingResponsesScript :
    Script (Loop.step (sampleWorker (scripted bareRequest)))
      (fun l e => l.enabled e = true ∧ ReadsOverflow (sampleWorker (scripted bareRequest)) l e)
      (acceptConn (sampleWorker (scripted bareRequest)) none true [])
      fun l => (Served l.log 0 ∧ Served l.log 1) where
  events := waitingResponses
  allowed := by decide +kernel
  ends := by decide +kernel

/-- Both requests are dispatched, and once. -/
theorem dispatchedOnce_waiting_responses :
    ∃ l, Run (Loop.step (sampleWorker (scripted bareRequest)))
        (fun l e => l.enabled e = true ∧ ReadsOverflow (sampleWorker (scripted bareRequest)) l e)
        (acceptConn (sampleWorker (scripted bareRequest)) none true []) waitingResponses l ∧
      (Served l.log 0 ∧ Served l.log 1) ∧ DispatchedOnce l.log := by
  obtain ⟨l, hrun, hserved⟩ := waitingResponsesScript.exists_run
  exact ⟨l, hrun, hserved, dispatchedOnce_of_overflow _ _ _ hrun⟩

/-- The first byte of the next request is read while the response waits. -/
def earlyByteScript :
    Script (Loop.step (sampleWorker (scripted bareRequest)))
      (fun l e => l.enabled e = true)
      (acceptConn (sampleWorker (scripted bareRequest)) none true [])
      fun l => ¬ DispatchedOnce l.log where
  events := [(.tlsRead [.data (scriptBytes bareRequest), .data [71]],
      { tlsSends := [.again false true, .again false true] })]
  allowed := by decide +kernel
  ends := by decide +kernel

/-- The first byte of the next request, read while the response waits, dispatches the complete
request again. -/
theorem dispatchedOnce_fails_on_early_byte :
    ∃ l, Run (Loop.step (sampleWorker (scripted bareRequest))) (fun l e => l.enabled e = true)
        (acceptConn (sampleWorker (scripted bareRequest)) none true [])
        [(.tlsRead [.data (scriptBytes bareRequest), .data [71]],
          { tlsSends := [.again false true, .again false true] })] l ∧
      ¬ DispatchedOnce l.log :=
  earlyByteScript.exists_run

end Lamseryn
