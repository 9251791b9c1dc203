import Lamseryn.Framework.CText

/-!
# The asynchronous access log (`src/access_log.c`)

The text of a log line, and the queues between the workers and the writer thread.  Every shard is a ring
with one producer, the worker whose number it has; the writer drains the shards in turn and sleeps on an
eventfd when it finds nothing.

Producer and writer are programs over the shared memory, cut at every access to it: a step is one atomic
load or store, one write of a slot, one line formatted from a slot or one system call.  `LogSystem.step`
lets one of them go on, so a run is an interleaving, and the steps are sequentially consistent.  The
queue is that of `ACCESS_LOG_FORCE_ASYNC_WRITER`; both scratch buffers of the writer are there.
-/

namespace Lamseryn

open ByteText CText

/-! ## Lines -/

/-- `ACCESS_LOG_LINE_MAX`. -/
def accessLogLineMax : ℕ := 1024

/-- `ACCESS_LOG_TARGET_MAX_DEFAULT`. -/
def accessLogTargetMaxDefault : ℕ := 256

/-- `ACCESS_LOG_SHARD_CAP`. -/
def accessLogShardCap : ℕ := 1024

/-- `ACCESS_LOG_BATCH_MAX_LINES`. -/
def accessLogBatchMaxLines : ℕ := 64

/-- `ACCESS_LOG_BATCH_MAX_BYTES`. -/
def accessLogBatchMaxBytes : ℕ := 64 * 1024

/-- `struct access_log_qentry`; `target_len` is the length of the target. -/
structure AccessLogQentry where
  tsMs : ℕ := 0
  worker : ℕ := 0
  method : Bytes := []
  target : Bytes := []
  remoteIp : Bytes := []
  remotePort : ℕ := 0
  status : ℕ := 0
  bytes : ℕ := 0
  durUs : ℕ := 0
  keepalive : Bool := false
  tls : Bool := false
  deriving DecidableEq, Repr

/-- One byte of a target as it is logged: blanks, quotes and what is not printable are replaced. -/
def sanitizeByte (ch : UInt8) : UInt8 :=
  if ch = 32 ∨ ch = 9 ∨ ch = 34 ∨ ch = 92 then 95 else if ch < 32 ∨ 126 < ch then 63 else ch

/-- `access_log_sanitize_target` into `outCap` bytes, with the flag `truncated`. -/
def accessLogSanitizeTarget (outCap : ℕ) (target : Bytes) (targetMax : ℕ) : Bytes × Bool :=
  let srcLimit :=
    if 0 < targetMax ∧ targetMax < target.length then targetMax else target.length
  let kept := min srcLimit (outCap - 1)
  ((target.take kept).map sanitizeByte, decide (srcLimit < target.length ∨ kept < srcLimit))

/-- A text, or `-` in place of an empty one. -/
def orDash (s : Bytes) : Bytes :=
  if s = [] then ascii "-" else s

/-- One `key=value` field. -/
def logField (key : String) (value : Bytes) : Bytes :=
  ascii key ++ ascii "=" ++ value

/-- `access_log_format_text_line` through `access_log_format_qentry_line`; empty on a failure. -/
def accessLogFormatQentryLine (outCap : ℕ) (item : AccessLogQentry) : Bytes :=
  let (target, truncated) := accessLogSanitizeTarget 512 item.target accessLogTargetMaxDefault
  let flag := fun b : Bool => numeral b.toNat
  let line :=
    (ascii " ").intercalate
        [logField "ts_ms" (numeral item.tsMs), logField "worker" (numeral item.worker),
          logField "ip" (orDash item.remoteIp), logField "port" (numeral item.remotePort),
          logField "method" (orDash item.method), logField "target" (orDash target),
          logField "status" (numeral item.status), logField "bytes" (numeral item.bytes),
          logField "dur_us" (numeral item.durUs), logField "ka" (flag item.keepalive),
          logField "tls" (flag item.tls), logField "trunc" (flag truncated)]
      ++ ascii "\n"
  if outCap ≤ line.length then [] else line

example :
    accessLogFormatQentryLine accessLogLineMax
        { tsMs := 7, method := ascii "GET", target := ascii "/a b", status := 200, bytes := 5 } =
      ascii "ts_ms=7 worker=0 ip=- port=0 method=GET target=/a_b status=200"
        ++ ascii " bytes=5 dur_us=0 ka=0 tls=0 trunc=0\n" := by
  decide

/-! ## Programs -/

/-- Where `access_log_enqueue` and the end of `access_log_emit_from_conn` stand. -/
inductive ProducerPc where
  | idle
  | called (ev : AccessLogQentry)
  | gotHead (ev : AccessLogQentry) (head : ℕ)
  /-- The queue is not full. -/
  | gotTail (ev : AccessLogQentry) (head tail : ℕ)
  | wrote (ev : AccessLogQentry) (head tail : ℕ)
  /-- In `access_log_notify_writer`; then the entry was accepted, or the queue was full. -/
  | notify (accepted : Bool)
  /-- `access_log_enqueue` returned -1. -/
  | refused
  deriving DecidableEq, Repr

/-- Where `access_log_writer_thread` stands; `n` is the number of shards. -/
inductive WriterPc (n : ℕ) where
  /-- The head of the loop over the shards. -/
  | scan (i : ℕ)
  | gotTail (i : Fin n) (tail : ℕ)
  /-- The head of the loop `while (tail != head)`. -/
  | drain (i : Fin n) (tail head : ℕ)
  /-- The head of the loop that fills a batch with lines. -/
  | fill (i : Fin n) (head batchTail : ℕ) (batch : List Bytes)
  /-- Before `cons_tail` is stored. -/
  | advance (i : Fin n) (batchTail : ℕ) (batch : List Bytes)
  | write (i : Fin n) (tail : ℕ) (batch : List Bytes)
  /-- Before `prod_head` is loaded again. -/
  | reload (i : Fin n) (tail : ℕ)
  | checkStop
  /-- `access_log_q_all_empty`, for the test of `stop` or before sleeping. -/
  | allEmpty (stopping : Bool) (i : ℕ)
  | emptyHead (stopping : Bool) (i : Fin n) (head : ℕ)
  | readWake
  /-- Blocked in `poll`. -/
  | polling
  | exited
  deriving DecidableEq, Repr

/-- A shard with its producer, and the record of what was accepted, formatted and released. -/
structure LogShard where
  entries : ℕ → AccessLogQentry := fun _ => {}
  prodHead : ℕ := 0
  consTail : ℕ := 0
  producer : ProducerPc := .idle
  /-- The entries that were published. -/
  accepted : List AccessLogQentry := []
  /-- The entries that the writer formatted. -/
  formatted : List AccessLogQentry := []
  /-- How many of them `cons_tail` has passed. -/
  released : ℕ := 0

structure LogSystem (n : ℕ) where
  shards : Fin n → LogShard := fun _ => {}
  writer : WriterPc n := .scan 0
  didWork : Bool := false
  /-- The counter of the eventfd. -/
  wakeCount : ℕ := 0
  stop : Bool := false
  emitted : ℕ := 0
  dropped : ℕ := 0
  sink : Bytes := []
  /-- How often `access_log_enqueue` was called. -/
  attempted : ℕ := 0

/-- `access_log_notify_writer`: the write fails only at the greatest value of the counter. -/
def notifyWriter (wakeCount : ℕ) : ℕ :=
  if wakeCount < 2 ^ 64 - 2 then wakeCount + 1 else wakeCount

variable {n : ℕ}

def LogSystem.setShard (s : LogSystem n) (i : Fin n) (q : LogShard) : LogSystem n :=
  { s with shards := Function.update s.shards i q }

@[simp] lemma setShard_shards_self (s : LogSystem n) (i : Fin n) (q : LogShard) :
    (s.setShard i q).shards i = q :=
  Function.update_self ..

lemma setShard_shards_of_ne (s : LogSystem n) {i j : Fin n} (h : j ≠ i) (q : LogShard) :
    (s.setShard i q).shards j = s.shards j :=
  Function.update_of_ne h ..

/-! ## Steps -/

/-- A step of the producer of a shard. -/
def LogSystem.producerStep (s : LogSystem n) (i : Fin n) : LogSystem n :=
  let q := s.shards i
  match q.producer with
  | .idle => s
  | .called ev =>
    if accessLogTargetMaxDefault < ev.target.length then s.setShard i { q with producer := .refused }
    else s.setShard i { q with producer := .gotHead ev q.prodHead }
  | .gotHead ev head =>
    if (head + 1) % accessLogShardCap = q.consTail then
      s.setShard i { q with producer := .notify false }
    else s.setShard i { q with producer := .gotTail ev head q.consTail }
  | .gotTail ev head tail =>
    s.setShard i
      { q with
        entries := Function.update q.entries head ev
        producer := .wrote ev head tail }
  | .wrote ev head tail =>
    s.setShard i
      { q with
        prodHead := (head + 1) % accessLogShardCap
        accepted := q.accepted ++ [ev]
        producer := if head = tail then .notify true else .idle }
  | .notify accepted =>
    { s.setShard i { q with producer := if accepted then .idle else .refused } with
      wakeCount := notifyWriter s.wakeCount }
  | .refused => { s.setShard i { q with producer := .idle } with dropped := s.dropped + 1 }

/-- The result of a system call of the writer: what the state decides, `EINTR` (or another error of
`read`), or a `write` that fails after some bytes. -/
inductive WriterIo where
  | done
  | interrupted
  | writeFailed (written : ℕ)
  deriving DecidableEq, Repr

/-- One round of the loop that fills a batch. -/
def LogSystem.fillStep (s : LogSystem n) (i : Fin n) (head batchTail : ℕ) (batch : List Bytes) :
    LogSystem n :=
  let q := s.shards i
  if batchTail ≠ head ∧ batch.length < accessLogBatchMaxLines then
    let item := q.entries batchTail
    let line := accessLogFormatQentryLine accessLogLineMax item
    let next := (batchTail + 1) % accessLogShardCap
    let s := s.setShard i { q with formatted := q.formatted ++ [item] }
    if line = [] ∨ accessLogLineMax < line.length then
      { s with dropped := s.dropped + 1, writer := .fill i head next batch }
    else if batch ≠ [] ∧ accessLogBatchMaxBytes < batch.flatten.length + line.length then
      { s with writer := .advance i batchTail batch }
    else { s with writer := .fill i head next (batch ++ [line]) }
  else { s with writer := .advance i batchTail batch }

/-- A step of the writer. -/
def LogSystem.writerStep (s : LogSystem n) (io : WriterIo) : LogSystem n :=
  match s.writer with
  | .scan i =>
    if h : i < n then { s with writer := .gotTail ⟨i, h⟩ (s.shards ⟨i, h⟩).consTail }
    else if s.didWork then { s with writer := .scan 0, didWork := false }
    else { s with writer := .checkStop }
  | .gotTail i tail => { s with writer := .drain i tail (s.shards i).prodHead }
  | .drain i tail head =>
    if tail = head then { s with writer := .scan (i + 1) }
    else { s with writer := .fill i head tail [] }
  | .fill i head batchTail batch => s.fillStep i head batchTail batch
  | .advance i batchTail batch =>
    let q := s.shards i
    { s.setShard i { q with consTail := batchTail, released := q.formatted.length } with
      writer := if batch = [] then .reload i batchTail else .write i batchTail batch }
  | .write i tail batch =>
    match io with
    | .writeFailed written =>
      { s with
        dropped := s.dropped + batch.length
        sink := s.sink ++ batch.flatten.take written
        didWork := true
        writer := .reload i tail }
    | _ =>
      { s with
        emitted := s.emitted + batch.length
        sink := s.sink ++ batch.flatten
        didWork := true
        writer := .reload i tail }
  | .reload i tail => { s with writer := .drain i tail (s.shards i).prodHead }
  | .checkStop => { s with writer := .allEmpty s.stop 0 }
  | .allEmpty stopping i =>
    if h : i < n then { s with writer := .emptyHead stopping ⟨i, h⟩ (s.shards ⟨i, h⟩).prodHead }
    else { s with writer := if stopping then .exited else .readWake }
  | .emptyHead stopping i head =>
    if head ≠ (s.shards i).consTail then
      { s with writer := if stopping then .allEmpty false 0 else .scan 0 }
    else { s with writer := .allEmpty stopping (i + 1) }
  | .readWake =>
    if io = .interrupted then { s with writer := .scan 0 }
    else if 0 < s.wakeCount then { s with wakeCount := 0, writer := .scan 0 }
    else { s with writer := .polling }
  | .polling =>
    if io = .interrupted ∨ 0 < s.wakeCount then { s with writer := .scan 0 } else s
  | .exited => s

/-- Who goes on. -/
inductive LogAct (n : ℕ) where
  /-- A worker calls `access_log_enqueue`, unless it is still in it. -/
  | enqueue (i : Fin n) (ev : AccessLogQentry)
  | producer (i : Fin n)
  | writer (io : WriterIo)
  /-- `access_log_runtime_shutdown` stores `stop`, then notifies. -/
  | shutdown
  | shutdownNotify
  deriving DecidableEq, Repr

def LogSystem.step (s : LogSystem n) : LogAct n → LogSystem n
  | .enqueue i ev =>
    match (s.shards i).producer with
    | .idle =>
      { s.setShard i { s.shards i with producer := .called ev } with attempted := s.attempted + 1 }
    | _ => s
  | .producer i => s.producerStep i
  | .writer io => s.writerStep io
  | .shutdown => { s with stop := true }
  | .shutdownNotify => if s.stop then { s with wakeCount := notifyWriter s.wakeCount } else s

end Lamseryn
