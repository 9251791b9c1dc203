import Lamseryn.Framework.RingBuffer
import Lamseryn.Model.AccessLog

/-!
# The direct access log (`src/access_log.c`)

The log of a worker that writes its own lines: a ring of formatted lines, `access_log_direct_append`, and
`access_log_direct_flush_state`, which writes the ring out with `writev`.

One worker works on the ring, so its functions are state passing, and the log is in direct mode with its
slots allocated.  The results of `writev` are the list `writes`, in the order of the calls; after its end
every call writes all it is given.
-/

namespace Lamseryn

open ByteText CText RingBuffer

/-- `ACCESS_LOG_SW_RING_CAP`. -/
def accessLogSwRingCap : ℕ := 256

/-- `ACCESS_LOG_SW_FLUSH_LINES`. -/
def accessLogSwFlushLines : ℕ := 64

/-- `ACCESS_LOG_SW_FLUSH_BYTES`. -/
def accessLogSwFlushBytes : ℕ := 32 * 1024

/-- `ACCESS_LOG_SW_FLUSH_MAX_AGE_MS`. -/
def accessLogSwFlushMaxAgeMs : ℕ := 200

/-- `enum access_log_direct_flush_reason`; no caller has `AL_FLUSH_REASON_NON_KA`. -/
inductive FlushReason where
  | threshold
  | ringFull
  | age
  | shutdown
  deriving DecidableEq, Repr

/-- The result of `writev`: a number of bytes, `EINTR`, or another error. -/
inductive WritevResult where
  | wrote (n : ℕ)
  | interrupted
  | failed (errno : ℕ)
  deriving DecidableEq, Repr

/-- `struct access_log_direct_state`; a slot is the text of its line. -/
structure DirectState where
  slots : ℕ → Bytes := fun _ => []
  head : ℕ := 0
  tail : ℕ := 0
  count : ℕ := 0
  pendingBytes : ℕ := 0
  firstPendingTsMs : ℕ := 0

/-- The ring of a worker, the counters and the sink. -/
structure DirectLog where
  st : DirectState := {}
  writes : List WritevResult := []
  sink : Bytes := []
  emitted : ℕ := 0
  dropped : ℕ := 0
  writeErr : ℕ := 0
  /-- `g_access_log_direct_flush_count`, `_lines` and `_bytes`. -/
  flushCount : ℕ := 0
  flushLines : ℕ := 0
  flushBytes : ℕ := 0
  /-- The counters `g_access_log_direct_flush_reason_*`. -/
  flushReason : FlushReason → ℕ := fun _ => 0

/-! ## Writing -/

/-- What is left of the vectors behind `consumed` bytes of them. -/
def consumeIov : ℕ → List Bytes → List Bytes
  | _, [] => []
  | consumed, line :: rest =>
    if line.length ≤ consumed then consumeIov (consumed - line.length) rest
    else line.drop consumed :: rest

/-- The loop of `access_log_writev_all` on the vectors `cur`: the bytes that were written, the error
(`none` is the return value 0) and the results to come.  A call that writes nothing is an `EIO`. -/
def writevLoop : List WritevResult → List Bytes → Bytes × Option ℕ × List WritevResult
  | [], cur => (cur.flatten, none, [])
  | r :: rs, cur =>
    if cur = [] then ([], none, r :: rs)
    else
      match r with
      | .wrote 0 => ([], some 5, rs)
      | .wrote n =>
        let sent := cur.flatten.take n
        match writevLoop rs (consumeIov sent.length cur) with
        | (more, err, rs) => (sent ++ more, err, rs)
      | .interrupted => writevLoop rs cur
      | .failed errno => ([], some errno, rs)

/-- `access_log_writev_all`: at most `ACCESS_LOG_SW_FLUSH_LINES` vectors are copied. -/
def accessLogWritevAll (writes : List WritevResult) (iov : List Bytes) :
    Bytes × Option ℕ × List WritevResult :=
  writevLoop writes (iov.take accessLogSwFlushLines)

example : accessLogWritevAll [.wrote 4, .interrupted, .wrote 1, .failed 28] [ascii "abc", ascii "def"] =
    (ascii "abcde", some 28, []) := by
  decide

/-! ## Flushing -/

/-- One round of the loop of `access_log_direct_flush_state`. -/
def DirectLog.flushBatch (log : DirectLog) : DirectLog :=
  let st := log.st
  let nvec := min accessLogSwFlushLines st.count
  match accessLogWritevAll log.writes (gather accessLogSwRingCap st.slots st.tail nvec) with
  | (sent, err, writes) =>
    { log with
      writes
      sink := log.sink ++ sent
      emitted := if err.isNone then log.emitted + nvec else log.emitted
      dropped := if err.isNone then log.dropped else log.dropped + nvec
      writeErr := if err.getD 0 ≠ 0 then log.writeErr + nvec else log.writeErr
      st := { st with tail := (st.tail + nvec) % accessLogSwRingCap, count := st.count - nvec } }

/-- The loop `while (st->count > 0)`. -/
def DirectLog.flushLoop : ℕ → DirectLog → DirectLog
  | 0, log => log
  | fuel + 1, log => if log.st.count = 0 then log else DirectLog.flushLoop fuel log.flushBatch

/-- `access_log_direct_flush_state`; a round takes at least one line. -/
def DirectLog.flushState (log : DirectLog) (reason : FlushReason) : DirectLog :=
  if log.st.count = 0 then log
  else
    let counted : DirectLog :=
      { log with
        flushCount := log.flushCount + 1
        flushLines := log.flushLines + log.st.count
        flushBytes := log.flushBytes + log.st.pendingBytes
        flushReason := Function.update log.flushReason reason (log.flushReason reason + 1) }
    let log := counted.flushLoop log.st.count
    { log with st := { log.st with pendingBytes := 0, firstPendingTsMs := 0 } }

/-- Have lines been pending for `ACCESS_LOG_SW_FLUSH_MAX_AGE_MS`? -/
def DirectState.isOld (st : DirectState) (nowMs : ℕ) : Bool :=
  st.firstPendingTsMs ≠ 0 && st.firstPendingTsMs ≤ nowMs
    && accessLogSwFlushMaxAgeMs ≤ nowMs - st.firstPendingTsMs

/-- `access_log_direct_maybe_flush_shard`. -/
def DirectLog.maybeFlush (log : DirectLog) (nowMs : ℕ) : DirectLog :=
  if log.st.count = 0 then log
  else if log.st.isOld nowMs then log.flushState .age
  else log

/-! ## Appending -/

/-- The ring with a line put at its head. -/
def DirectState.push (st : DirectState) (line : Bytes) (tsMs : ℕ) : DirectState :=
  { st with
    slots := Function.update st.slots st.head line
    head := (st.head + 1) % accessLogSwRingCap
    count := st.count + 1
    pendingBytes := st.pendingBytes + line.length
    firstPendingTsMs := if st.firstPendingTsMs = 0 then tsMs else st.firstPendingTsMs }

/-- The end of `access_log_direct_append`: a ring that is full enough or old enough is flushed. -/
def DirectLog.flushIfDue (log : DirectLog) (tsMs : ℕ) : DirectLog :=
  let ageFlush := log.st.isOld tsMs
  if accessLogSwFlushLines ≤ log.st.count ∨ accessLogSwFlushBytes ≤ log.st.pendingBytes ∨ ageFlush then
    log.flushState (if ageFlush then .age else .threshold)
  else log

/-- `access_log_direct_append`: `true` is the return value 0.  A line that cannot be formatted spoils
its slot, which is outside the ring. -/
def DirectLog.append (log : DirectLog) (ev : AccessLogQentry) : Bool × DirectLog :=
  let log := if accessLogSwRingCap ≤ log.st.count then log.flushState .ringFull else log
  if accessLogSwRingCap ≤ log.st.count then (false, { log with dropped := log.dropped + 1 })
  else
    let line := accessLogFormatQentryLine accessLogLineMax ev
    if line = [] ∨ accessLogLineMax < line.length then
      (false, { log with dropped := log.dropped + 1 })
    else (true, { log with st := log.st.push line ev.tsMs }.flushIfDue ev.tsMs)

/-! ## Runs -/

/-- What a worker does with its ring. -/
inductive DirectOp where
  | append (ev : AccessLogQentry)
  /-- `access_log_runtime_poll`. -/
  | poll (nowMs : ℕ)
  /-- `access_log_direct_flush_all` at shutdown. -/
  | shutdown
  deriving DecidableEq, Repr

/-- One call, and the event that it appended. -/
def DirectLog.step (log : DirectLog) : DirectOp → Option AccessLogQentry × DirectLog
  | .append ev =>
    match log.append ev with
    | (true, log) => (some ev, log)
    | (false, log) => (none, log)
  | .poll nowMs => (none, log.maybeFlush nowMs)
  | .shutdown => (none, log.flushState .shutdown)

/-- A sequence of calls, and the events that they appended. -/
def DirectLog.run : DirectLog → List DirectOp → List AccessLogQentry × DirectLog
  | log, [] => ([], log)
  | log, op :: ops =>
    match log.step op with
    | (appended, log) =>
      match DirectLog.run log ops with
      | (more, log) => (appended.toList ++ more, log)

end Lamseryn
