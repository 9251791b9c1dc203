import Lamseryn.Model.AccessLogDirect

/-!
# The direct access log

What a flush writes, batch by batch: a batch is written as a whole, whatever the sequence of partial
writes and interruptions, unless `writev` fails, and then its lines are counted as dropped and the batch
is over.  The lines that were appended are those of the batches, in order, and behind them those that the
ring holds (`Accounts`).  Every call keeps this (`Accounts.step`), so it holds after any sequence of calls.
-/

namespace Lamseryn

open ByteText CText RingBuffer

/-! ## `writev` -/

/-- A partial write or an interruption. -/
def WritevResult.benign : WritevResult → Bool
  | .wrote n => n ≠ 0
  | .interrupted => true
  | .failed _ => false

lemma consumeIov_flatten (n : ℕ) (cur : List Bytes) :
    (consumeIov n cur).flatten = cur.flatten.drop n := by
  induction cur generalizing n with
  | nil => simp [consumeIov]
  | cons line rest ih =>
    unfold consumeIov
    split
    case isTrue hle =>
      rw [ih, List.flatten_cons, List.drop_append, List.drop_of_length_le hle, List.nil_append]
    case isFalse hlt =>
      rw [List.flatten_cons, List.flatten_cons, List.drop_append_of_le_length (by omega)]

/-- What a call of `access_log_writev_all` did: the results that it consumed, the bytes that it wrote,
and whether it succeeded. -/
structure Written (lines : List Bytes) (results : List WritevResult) (sent : Bytes) (ok : Bool) :
    Prop where
  sent_le : sent <+: lines.flatten
  whole : ok = true → sent = lines.flatten
  ok_iff : ok = true ↔ ∀ r ∈ results, r.benign = true

lemma Written.cons {cur rest : List Bytes} {results : List WritevResult} {sent more : Bytes} {ok : Bool}
    {r : WritevResult} (h : Written rest results more ok) (hr : r.benign = true)
    (hcut : cur.flatten = sent ++ rest.flatten) : Written cur (r :: results) (sent ++ more) ok where
  sent_le := by
    rw [hcut]
    exact (List.prefix_append_right_inj sent).mpr h.sent_le
  whole := fun hok => by rw [hcut, h.whole hok]
  ok_iff := by
    rw [h.ok_iff, List.forall_mem_cons]
    exact ⟨fun hall => ⟨hr, hall⟩, fun hall => hall.2⟩

lemma Written.error {cur : List Bytes} {r : WritevResult} (hr : r.benign = false) :
    Written cur [r] [] false where
  sent_le := List.nil_prefix
  whole := nofun
  ok_iff := by simp [hr]

lemma Written.done {cur : List Bytes} {sent : Bytes} (h : sent = cur.flatten) :
    Written cur [] sent true where
  sent_le := h ▸ List.prefix_rfl
  whole := fun _ => h
  ok_iff := by simp

lemma writevLoop_written (writes : List WritevResult) (cur : List Bytes) :
    ∃ results, writes = results ++ (writevLoop writes cur).2.2 ∧
      Written cur results (writevLoop writes cur).1 (writevLoop writes cur).2.1.isNone := by
  induction writes generalizing cur with
  | nil => exact ⟨[], rfl, .done rfl⟩
  | cons r rs ih =>
    unfold writevLoop
    split
    case isTrue hnil => exact ⟨[], rfl, .done (by rw [hnil]; rfl)⟩
    case isFalse hne =>
      cases r with
      | failed errno => exact ⟨[.failed errno], rfl, .error rfl⟩
      | interrupted =>
        obtain ⟨results, hrs, hwritten⟩ := ih cur
        exact ⟨.interrupted :: results, congrArg _ hrs,
          @Written.cons cur cur results [] _ _ _ hwritten rfl rfl⟩
      | wrote n =>
        cases n with
        | zero => exact ⟨[.wrote 0], rfl, .error rfl⟩
        | succ n =>
          obtain ⟨results, hrs, hwritten⟩ := ih (consumeIov (cur.flatten.take (n + 1)).length cur)
          refine ⟨.wrote (n + 1) :: results, congrArg _ hrs, hwritten.cons rfl ?_⟩
          rw [consumeIov_flatten, List.length_take]
          rcases le_total (n + 1) cur.flatten.length with hle | hge
          · rw [min_eq_left hle, List.take_append_drop]
          · rw [min_eq_right hge, List.take_of_length_le hge, List.drop_length, List.append_nil]

/-! ## Batches -/

/-- A batch of lines that was handed to `access_log_writev_all`. -/
structure Batch where
  lines : List Bytes
  results : List WritevResult
  sent : Bytes
  ok : Bool
  written : Written lines results sent ok

/-- The number of lines in the batches with a given outcome. -/
def lineCount (batches : List Batch) (ok : Bool) : ℕ :=
  ((batches.filter (·.ok == ok)).map (·.lines.length)).sum

lemma lineCount_concat (batches : List Batch) (b : Batch) (ok : Bool) :
    lineCount (batches ++ [b]) ok = lineCount batches ok + if b.ok = ok then b.lines.length else 0 := by
  unfold lineCount
  rw [List.filter_append, List.map_append, List.sum_append]
  by_cases hok : b.ok = ok
  · simp [hok]
  · simp [hok]

/-- The lines that were appended are in the batches, in order, or in the ring. -/
structure Accounts (writes : List WritevResult) (log : DirectLog) (appended : List Bytes) (refused : ℕ)
    (batches : List Batch) (pending : List Bytes) : Prop where
  ring : Counted accessLogSwRingCap log.st.slots log.st.head log.st.tail log.st.count pending
  appended_eq : appended = batches.flatMap Batch.lines ++ pending
  writes_eq : writes = batches.flatMap Batch.results ++ log.writes
  sink_eq : log.sink = batches.flatMap Batch.sent
  emitted_eq : log.emitted = lineCount batches true
  dropped_eq : log.dropped = refused + lineCount batches false

section Flush

variable {writes : List WritevResult} {log : DirectLog} {appended : List Bytes} {refused : ℕ}
  {batches : List Batch} {pending : List Bytes}

/-- One round of a flush is one batch. -/
lemma Accounts.flushBatch (h : Accounts writes log appended refused batches pending) :
    ∃ b, Accounts writes log.flushBatch appended refused (batches ++ [b])
      (pending.drop (min accessLogSwFlushLines pending.length)) := by
  have hcount := h.ring.count_eq
  have hgather := h.ring.gather_eq (min_le_right accessLogSwFlushLines pending.length)
  have hlen : (pending.take (min accessLogSwFlushLines pending.length)).length =
      min accessLogSwFlushLines pending.length := by
    rw [List.length_take]
    omega
  obtain ⟨results, hresults, hwritten⟩ := writevLoop_written log.writes
    (pending.take (min accessLogSwFlushLines pending.length))
  have hcall : accessLogWritevAll log.writes (gather accessLogSwRingCap log.st.slots log.st.tail
      (min accessLogSwFlushLines log.st.count)) = writevLoop log.writes
        (pending.take (min accessLogSwFlushLines pending.length)) := by
    rw [hcount, hgather, accessLogWritevAll, List.take_of_length_le (by omega)]
  unfold DirectLog.flushBatch
  dsimp only
  rw [hcall]
  generalize writevLoop log.writes (pending.take (min accessLogSwFlushLines pending.length)) = out
    at hresults hwritten ⊢
  obtain ⟨sent, err, rest⟩ := out
  dsimp only at *
  refine ⟨⟨_, results, sent, err.isNone, hwritten⟩, ?_, ?_, ?_, ?_, ?_, ?_⟩
  · have hring := h.ring.drop (min_le_right accessLogSwFlushLines pending.length)
    dsimp only
    rw [hcount] at hring ⊢
    exact hring
  · rw [List.flatMap_append, List.append_assoc, List.flatMap_singleton, List.take_append_drop]
    exact h.appended_eq
  · rw [List.flatMap_append, List.append_assoc, List.flatMap_singleton, h.writes_eq, hresults]
  · rw [List.flatMap_append, List.flatMap_singleton, h.sink_eq]
  · rw [lineCount_concat, h.emitted_eq]
    dsimp only
    rw [hlen, hcount]
    cases err with
    | none => rfl
    | some errno => rfl
  · rw [lineCount_concat, h.dropped_eq]
    dsimp only
    rw [hlen, hcount]
    cases err with
    | none => rfl
    | some errno => exact Nat.add_assoc _ _ _

lemma Accounts.flushLoop {fuel : ℕ} : ∀ {log : DirectLog} {batches : List Batch} {pending : List Bytes},
    Accounts writes log appended refused batches pending → pending.length ≤ fuel →
      ∃ batches', Accounts writes (log.flushLoop fuel) appended refused batches' [] := by
  induction fuel with
  | zero =>
    intro log batches pending h hfuel
    rw [List.length_eq_zero_iff.mp (Nat.le_zero.mp hfuel)] at h
    exact ⟨batches, h⟩
  | succ fuel ih =>
    intro log batches pending h hfuel
    unfold DirectLog.flushLoop
    split
    case isTrue hzero =>
      rw [List.length_eq_zero_iff.mp (h.ring.count_eq.symm.trans hzero)] at h
      exact ⟨batches, h⟩
    case isFalse hpos =>
      obtain ⟨b, hb⟩ := h.flushBatch
      refine ih hb ?_
      have hcount := h.ring.count_eq
      rw [List.length_drop, accessLogSwFlushLines]
      omega

end Flush

/-! ## Calls -/

/-- `count`, `pending_bytes` and the slots from tail to head describe the pending lines. -/
structure DirectState.Describes (st : DirectState) (lines : List Bytes) : Prop where
  ring : Counted accessLogSwRingCap st.slots st.head st.tail st.count lines
  bytes : st.pendingBytes = lines.flatten.length

/-- The accounts between two calls. -/
structure Settled (writes : List WritevResult) (log : DirectLog) (appended : List Bytes) (refused : ℕ)
    (batches : List Batch) (pending : List Bytes) : Prop extends
    Accounts writes log appended refused batches pending where
  bytes : log.st.pendingBytes = pending.flatten.length

section Calls

variable {writes : List WritevResult} {log : DirectLog} {appended : List Bytes} {refused : ℕ}
  {batches : List Batch} {pending : List Bytes}

lemma Settled.describes (h : Settled writes log appended refused batches pending) :
    log.st.Describes pending :=
  ⟨h.ring, h.bytes⟩

lemma Settled.init (writes : List WritevResult) : Settled writes { writes } [] 0 [] [] :=
  ⟨⟨Counted.init (by decide) _, rfl, rfl, rfl, rfl, rfl⟩, rfl⟩

lemma Settled.flushState (h : Settled writes log appended refused batches pending)
    (reason : FlushReason) :
    ∃ batches', Settled writes (log.flushState reason) appended refused batches' [] := by
  unfold DirectLog.flushState
  split
  case isTrue hzero =>
    rw [List.length_eq_zero_iff.mp (h.ring.count_eq.symm.trans hzero)] at h
    exact ⟨batches, h⟩
  case isFalse =>
    -- the counters of the flush are not part of the accounts
    have hcounted : Accounts writes
        { log with
          flushCount := log.flushCount + 1
          flushLines := log.flushLines + log.st.count
          flushBytes := log.flushBytes + log.st.pendingBytes
          flushReason := Function.update log.flushReason reason (log.flushReason reason + 1) }
        appended refused batches pending :=
      ⟨h.ring, h.appended_eq, h.writes_eq, h.sink_eq, h.emitted_eq, h.dropped_eq⟩
    obtain ⟨batches', h'⟩ := hcounted.flushLoop h.ring.count_eq.ge
    exact ⟨batches', ⟨h'.ring, h'.appended_eq, h'.writes_eq, h'.sink_eq, h'.emitted_eq,
      h'.dropped_eq⟩, rfl⟩

lemma Settled.flushIf {flush : Prop} [Decidable flush]
    (h : Settled writes log appended refused batches pending) (reason : FlushReason) :
    ∃ batches' pending', Settled writes (if flush then log.flushState reason else log) appended
      refused batches' pending' := by
  split
  · obtain ⟨batches', h'⟩ := h.flushState reason
    exact ⟨batches', [], h'⟩
  · exact ⟨batches, pending, h⟩

lemma Settled.maybeFlush (h : Settled writes log appended refused batches pending) (nowMs : ℕ) :
    ∃ batches' pending', Settled writes (log.maybeFlush nowMs) appended refused batches' pending' := by
  unfold DirectLog.maybeFlush
  split
  · exact ⟨batches, pending, h⟩
  · exact h.flushIf .age

lemma Settled.push (h : Settled writes log appended refused batches pending)
    (hroom : log.st.count < accessLogSwRingCap) (line : Bytes) (tsMs : ℕ) :
    Settled writes { log with st := log.st.push line tsMs } (appended ++ [line]) refused batches
      (pending ++ [line]) := by
  refine ⟨⟨h.ring.push hroom line, ?_, h.writes_eq, h.sink_eq, h.emitted_eq, h.dropped_eq⟩, ?_⟩
  · rw [h.appended_eq, List.append_assoc]
  · show log.st.pendingBytes + line.length = _
    rw [h.bytes, List.flatten_concat, List.length_append]

lemma Settled.refuse (h : Settled writes log appended refused batches pending) :
    Settled writes { log with dropped := log.dropped + 1 } appended (refused + 1) batches pending := by
  refine ⟨⟨h.ring, h.appended_eq, h.writes_eq, h.sink_eq, h.emitted_eq, ?_⟩, h.bytes⟩
  show log.dropped + 1 = _
  rw [h.dropped_eq]
  omega

/-- The line that is logged for an event. -/
def logLine (ev : AccessLogQentry) : Bytes :=
  accessLogFormatQentryLine accessLogLineMax ev

lemma Settled.append (h : Settled writes log appended refused batches pending) (ev : AccessLogQentry) :
    ∃ batches' pending', Settled writes (log.append ev).2
      (if (log.append ev).1 then appended ++ [logLine ev] else appended)
      (if (log.append ev).1 then refused else refused + 1) batches' pending' := by
  obtain ⟨batches1, pending1, h1⟩ :=
    @Settled.flushIf _ _ _ _ _ _ (accessLogSwRingCap ≤ log.st.count) _ h .ringFull
  have hroom : ¬ accessLogSwRingCap ≤
      (if accessLogSwRingCap ≤ log.st.count then log.flushState .ringFull else log).st.count := by
    split
    case isTrue hfull =>
      obtain ⟨batches2, h2⟩ := h.flushState .ringFull
      rw [h2.ring.count_eq]
      decide
    case isFalse hfree => exact hfree
  unfold DirectLog.append
  dsimp only
  generalize (if accessLogSwRingCap ≤ log.st.count then log.flushState .ringFull else log) = log1
    at h1 hroom ⊢
  rw [if_neg hroom]
  split
  · exact ⟨batches1, pending1, h1.refuse⟩
  · exact (h1.push (not_le.mp hroom) (logLine ev) ev.tsMs).flushIf _

lemma Accounts.sink_of_benign (h : Accounts writes log appended refused batches pending)
    (hbenign : ∀ r ∈ writes, r.benign = true) :
    log.sink = (batches.flatMap Batch.lines).flatten := by
  have hsent : ∀ b ∈ batches, b.sent = b.lines.flatten := by
    intro b hb
    apply b.written.whole
    rw [b.written.ok_iff]
    intro r hr
    apply hbenign r
    rw [h.writes_eq]
    exact List.mem_append_left _ (List.mem_flatMap.mpr ⟨b, hb, hr⟩)
  rw [h.sink_eq, List.flatten_eq_flatMap, List.flatMap_assoc]
  apply List.flatMap_congr
  intro b hb
  rw [hsent b hb, List.flatten_eq_flatMap]

/-! ## Runs -/

/-- Is the call one of `access_log_direct_append`? -/
def DirectOp.isAppend : DirectOp → Bool
  | .append _ => true
  | _ => false

lemma Settled.step (h : Settled writes log appended refused batches pending) (op : DirectOp) :
    ∃ batches' pending' refused', Settled writes (log.step op).2
        (appended ++ ((log.step op).1.map logLine).toList) refused' batches' pending' ∧
      refused' + (log.step op).1.toList.length = refused + op.isAppend.toNat := by
  cases op with
  | append ev =>
    obtain ⟨batches', pending', h'⟩ := h.append ev
    unfold DirectLog.step
    dsimp only
    generalize log.append ev = out at h' ⊢
    obtain ⟨ok, log'⟩ := out
    cases ok with
    | true => exact ⟨batches', pending', refused, h', rfl⟩
    | false =>
      refine ⟨batches', pending', refused + 1, ?_, rfl⟩
      dsimp only [Option.map_none, Option.toList_none]
      rw [List.append_nil]
      exact h'
  | poll nowMs =>
    obtain ⟨batches', pending', h'⟩ := h.maybeFlush nowMs
    refine ⟨batches', pending', refused, ?_, rfl⟩
    dsimp only [DirectLog.step, Option.map_none, Option.toList_none]
    rw [List.append_nil]
    exact h'
  | shutdown =>
    obtain ⟨batches', h'⟩ := h.flushState .shutdown
    refine ⟨batches', [], refused, ?_, rfl⟩
    dsimp only [DirectLog.step, Option.map_none, Option.toList_none]
    rw [List.append_nil]
    exact h'

lemma Settled.run {ops : List DirectOp} : ∀ {log : DirectLog} {appended : List Bytes} {refused : ℕ}
    {batches : List Batch} {pending : List Bytes},
    Settled writes log appended refused batches pending →
      ∃ batches' pending' refused', Settled writes (log.run ops).2
          (appended ++ (log.run ops).1.map logLine) refused' batches' pending' ∧
        refused' + (log.run ops).1.length = refused + ops.countP DirectOp.isAppend := by
  induction ops with
  | nil =>
    intro log appended refused batches pending h
    refine ⟨batches, pending, refused, ?_, rfl⟩
    rw [DirectLog.run, List.map_nil, List.append_nil]
    exact h
  | cons op ops ih =>
    intro log appended refused batches pending h
    obtain ⟨batches1, pending1, refused1, h1, hcount1⟩ := h.step op
    obtain ⟨batches2, pending2, refused2, h2, hcount2⟩ := ih h1
    refine ⟨batches2, pending2, refused2, ?_, ?_⟩
    · rw [List.append_assoc] at h2
      unfold DirectLog.run
      dsimp only
      rw [List.map_append, ← Option.toList_map]
      exact h2
    · unfold DirectLog.run
      dsimp only
      rw [List.length_append, List.countP_cons]
      cases op <;> simp_all [DirectOp.isAppend] <;> omega

end Calls

/-- **The direct access log.**  After any sequence of calls the lines that were appended are those of the
batches, in order, and then the pending ones, which the ring describes.  The sink has the bytes of the
batches: all of a batch that succeeded, the beginning of one that failed, and the lines of a failed batch
are counted as dropped.  If there is no error but `EINTR`, the next flush leaves all lines in the sink. -/
theorem directLog_exact (writes : List WritevResult) (ops : List DirectOp) :
    ∃ (batches : List Batch) (pending : List Bytes),
      (({ writes } : DirectLog).run ops).1.map logLine = batches.flatMap Batch.lines ++ pending ∧
      (({ writes } : DirectLog).run ops).2.st.Describes pending ∧
      (({ writes } : DirectLog).run ops).2.sink = batches.flatMap Batch.sent ∧
      writes = batches.flatMap Batch.results ++ (({ writes } : DirectLog).run ops).2.writes ∧
      (({ writes } : DirectLog).run ops).2.emitted = lineCount batches true ∧
      (({ writes } : DirectLog).run ops).2.dropped + (({ writes } : DirectLog).run ops).1.length =
        ops.countP DirectOp.isAppend + lineCount batches false ∧
      ((∀ r ∈ writes, r.benign = true) → ∀ reason,
        ((({ writes } : DirectLog).run ops).2.flushState reason).sink =
            ((({ writes } : DirectLog).run ops).1.map logLine).flatten ∧
          ((({ writes } : DirectLog).run ops).2.flushState reason).st.Describes []) := by
  obtain ⟨batches, pending, refused, h, hcount⟩ := @Settled.run writes ops _ _ _ _ _ (Settled.init writes)
  rw [List.nil_append] at h
  refine ⟨batches, pending, h.appended_eq, h.describes, h.sink_eq, h.writes_eq, h.emitted_eq, ?_, ?_⟩
  · rw [h.dropped_eq]
    omega
  · intro hbenign reason
    obtain ⟨batches', h'⟩ := h.flushState reason
    refine ⟨?_, h'.describes⟩
    rw [h'.sink_of_benign hbenign, h'.appended_eq, List.append_nil]

end Lamseryn
