import Lamseryn.Framework.RingBuffer
import Lamseryn.Framework.Runs
import Lamseryn.Model.AccessLog

/-!
# The queue of the access log

For every interleaving of the producers and the writer, a shard is a first-in first-out channel
(`accessLog_fifo`): the writer formats what was accepted, each entry once and in order, from a slot that
still holds it; an entry is refused only if all slots but one are taken up; and once everything is
drained, every entry that was tried was counted as emitted or as dropped.

A producer decides whether to notify by the tail that it loaded before it publishes.  If the writer drains
the queue in between and falls asleep, the new entry is not announced (`accessLog_wake_lost`).  As long as
no producer publishes into an empty queue that it has seen filled, a sleeping writer misses nothing
(`accessLog_wake_kept`).
-/

namespace Lamseryn

open RingBuffer GuardedRun

variable {n : ℕ}

/-! ## What a producer can do -/

/-- The steps of the producer of a shard. -/
inductive Produces (s : LogSystem n) (i : Fin n) : LogSystem n → Prop
  | idle (hpc : (s.shards i).producer = .idle) : Produces s i s
  | tooLong (ev : AccessLogQentry) (hpc : (s.shards i).producer = .called ev)
      (hlong : accessLogTargetMaxDefault < ev.target.length) :
      Produces s i (s.setShard i { s.shards i with producer := .refused })
  | loadHead (ev : AccessLogQentry) (hpc : (s.shards i).producer = .called ev) :
      Produces s i
        (s.setShard i { s.shards i with producer := .gotHead ev (s.shards i).prodHead })
  | full (ev : AccessLogQentry) (head : ℕ) (hpc : (s.shards i).producer = .gotHead ev head)
      (hfull : (head + 1) % accessLogShardCap = (s.shards i).consTail) :
      Produces s i (s.setShard i { s.shards i with producer := .notify false })
  | loadTail (ev : AccessLogQentry) (head : ℕ) (hpc : (s.shards i).producer = .gotHead ev head)
      (hroom : (head + 1) % accessLogShardCap ≠ (s.shards i).consTail) :
      Produces s i
        (s.setShard i { s.shards i with producer := .gotTail ev head (s.shards i).consTail })
  | write (ev : AccessLogQentry) (head tail : ℕ)
      (hpc : (s.shards i).producer = .gotTail ev head tail) :
      Produces s i
        (s.setShard i
          { s.shards i with
            entries := Function.update (s.shards i).entries head ev
            producer := .wrote ev head tail })
  | publish (ev : AccessLogQentry) (head tail : ℕ)
      (hpc : (s.shards i).producer = .wrote ev head tail) :
      Produces s i
        (s.setShard i
          { s.shards i with
            prodHead := (head + 1) % accessLogShardCap
            accepted := (s.shards i).accepted ++ [ev]
            producer := if head = tail then .notify true else .idle })
  | notify (accepted : Bool) (hpc : (s.shards i).producer = .notify accepted) :
      Produces s i
        { s.setShard i
            { s.shards i with producer := if accepted then .idle else .refused } with
          wakeCount := notifyWriter s.wakeCount }
  | drop (hpc : (s.shards i).producer = .refused) :
      Produces s i
        { s.setShard i { s.shards i with producer := .idle } with dropped := s.dropped + 1 }

lemma producerStep_produces (s : LogSystem n) (i : Fin n) : Produces s i (s.producerStep i) := by
  unfold LogSystem.producerStep
  dsimp only
  split
  · exact .idle ‹_›
  · split
    · exact .tooLong _ ‹_› ‹_›
    · exact .loadHead _ ‹_›
  · split
    · exact .full _ _ ‹_› ‹_›
    · exact .loadTail _ _ ‹_› ‹_›
  · exact .write _ _ _ ‹_›
  · exact .publish _ _ _ ‹_›
  · exact .notify _ ‹_›
  · exact .drop ‹_›

/-! ## The ring of a shard -/

/-- What the locals of a producer say about its shard. -/
def ProducerOk (q : LogShard) : Prop :=
  match q.producer with
  | .gotHead _ head => head = q.prodHead
  | .gotTail _ head _ =>
    head = q.prodHead ∧ q.accepted.length + 1 < q.released + accessLogShardCap
  | .wrote ev head _ =>
    head = q.prodHead ∧ q.accepted.length + 1 < q.released + accessLogShardCap ∧ q.entries head = ev
  | _ => True

/-- A shard holds what was accepted and not released; of that, the writer has formatted a part. -/
structure ShardOk (q : LogShard) : Prop where
  ring : Holds accessLogShardCap q.entries q.prodHead q.consTail q.accepted q.released
  formatted : q.formatted <+: q.accepted
  released_le : q.released ≤ q.formatted.length
  producer : ProducerOk q

lemma shardOk_init : ShardOk {} :=
  ⟨Holds.init (by decide) _, List.prefix_refl _, le_refl _, trivial⟩

/-- A step of a producer keeps its shard in order. -/
lemma ShardOk.produced {s s' : LogSystem n} {i : Fin n} (h : ShardOk (s.shards i))
    (hstep : Produces s i s') : ShardOk (s'.shards i) := by
  obtain ⟨hring, hformatted, hle, hproducer⟩ := h
  unfold ProducerOk at hproducer
  cases hstep with
  | idle hpc => exact ⟨hring, hformatted, hle, by rw [ProducerOk, hpc]; trivial⟩
  | tooLong ev hpc hlong =>
    rw [setShard_shards_self]
    exact ⟨hring, hformatted, hle, trivial⟩
  | loadHead ev hpc =>
    rw [setShard_shards_self]
    exact ⟨hring, hformatted, hle, rfl⟩
  | full ev head hpc hfull =>
    rw [setShard_shards_self]
    exact ⟨hring, hformatted, hle, trivial⟩
  | loadTail ev head hpc hroom =>
    rw [hpc] at hproducer
    rw [setShard_shards_self]
    refine ⟨hring, hformatted, hle, hproducer, ?_⟩
    have hnot := mt hring.full_iff.mpr (hproducer ▸ hroom)
    have hlt := hring.room
    show (s.shards i).accepted.length + 1 < (s.shards i).released + accessLogShardCap
    omega
  | write ev head tail hpc =>
    rw [hpc] at hproducer
    obtain ⟨hhead, hroom⟩ := hproducer
    rw [setShard_shards_self]
    refine ⟨?_, hformatted, hle, hhead, hroom, Function.update_self ..⟩
    subst hhead
    exact hring.write ev
  | publish ev head tail hpc =>
    rw [hpc] at hproducer
    obtain ⟨hhead, hroom, hslot⟩ := hproducer
    have hpush := hring.push hroom
    rw [← hhead, hslot] at hpush
    rw [setShard_shards_self]
    refine ⟨hpush, hformatted.trans (List.prefix_append _ _), hle, ?_⟩
    by_cases hempty : head = tail
    · simp [ProducerOk, hempty]
    · simp [ProducerOk, hempty]
  | notify accepted hpc =>
    show ShardOk ((s.setShard i _).shards i)
    rw [setShard_shards_self]
    refine ⟨hring, hformatted, hle, ?_⟩
    cases accepted <;> trivial
  | drop hpc =>
    show ShardOk ((s.setShard i _).shards i)
    rw [setShard_shards_self]
    exact ⟨hring, hformatted, hle, trivial⟩

/-! ## What a producer leaves alone -/

/-- A producer only adds to what was accepted. -/
structure Grown (q q' : LogShard) : Prop where
  consTail : q'.consTail = q.consTail
  formatted : q'.formatted = q.formatted
  released : q'.released = q.released
  accepted : q.accepted <+: q'.accepted

lemma Grown.refl (q : LogShard) : Grown q q :=
  ⟨rfl, rfl, rfl, List.prefix_refl _⟩

/-- The calls of a producer that are not yet counted, accepted entries apart. -/
def ProducerPc.inFlight : ProducerPc → ℕ
  | .idle => 0
  | .notify true => 0
  | _ => 1

/-- What a shard still has to account for. -/
def LogShard.pending (q : LogShard) : ℕ :=
  q.producer.inFlight + (q.accepted.length - q.formatted.length)

/-- The effect of a producer outside its shard. -/
structure ProducerFrame (s s' : LogSystem n) (i : Fin n) : Prop where
  writer : s'.writer = s.writer
  attempted : s'.attempted = s.attempted
  emitted : s'.emitted = s.emitted
  others : ∀ j, j ≠ i → s'.shards j = s.shards j
  grown : Grown (s.shards i) (s'.shards i)
  account : s'.dropped + (s'.shards i).pending = s.dropped + (s.shards i).pending

lemma producerFrame_of_grown {s : LogSystem n} {i : Fin n} {q : LogShard}
    (hgrown : Grown (s.shards i) q) (dropped wakeCount : ℕ)
    (haccount : dropped + q.pending = s.dropped + (s.shards i).pending) :
    ProducerFrame s { s.setShard i q with dropped, wakeCount } i := by
  refine ⟨rfl, rfl, rfl, fun j hj => setShard_shards_of_ne s hj q, ?_, ?_⟩
  · show Grown (s.shards i) ((s.setShard i q).shards i)
    rwa [setShard_shards_self]
  · show dropped + ((s.setShard i q).shards i).pending = _
    rwa [setShard_shards_self]

lemma producerFrame_of_moved {s : LogSystem n} {i : Fin n} (entries : ℕ → AccessLogQentry)
    {pc : ProducerPc} (dropped wakeCount : ℕ)
    (hcount : dropped + pc.inFlight = s.dropped + (s.shards i).producer.inFlight) :
    ProducerFrame s
      { s.setShard i { s.shards i with entries, producer := pc } with dropped, wakeCount } i := by
  have hgrown : Grown (s.shards i) { s.shards i with entries, producer := pc } :=
    ⟨rfl, rfl, rfl, List.prefix_refl _⟩
  refine producerFrame_of_grown hgrown dropped wakeCount ?_
  simp only [LogShard.pending]
  omega

lemma Produces.frame {s s' : LogSystem n} {i : Fin n} (h : ShardOk (s.shards i))
    (hstep : Produces s i s') : ProducerFrame s s' i := by
  cases hstep with
  | idle hpc => exact ⟨rfl, rfl, rfl, fun _ _ => rfl, .refl _, rfl⟩
  | tooLong ev hpc hlong =>
    exact producerFrame_of_moved _ s.dropped s.wakeCount (by rw [hpc]; rfl)
  | loadHead ev hpc => exact producerFrame_of_moved _ s.dropped s.wakeCount (by rw [hpc]; rfl)
  | full ev head hpc hfull =>
    exact producerFrame_of_moved _ s.dropped s.wakeCount (by rw [hpc]; rfl)
  | loadTail ev head hpc hroom =>
    exact producerFrame_of_moved _ s.dropped s.wakeCount (by rw [hpc]; rfl)
  | write ev head tail hpc =>
    exact producerFrame_of_moved _ s.dropped s.wakeCount (by rw [hpc]; rfl)
  | publish ev head tail hpc =>
    have hle := h.formatted.length_le
    have hzero : (if head = tail then ProducerPc.notify true else .idle).inFlight = 0 := by
      split <;> rfl
    have hgrown : Grown (s.shards i)
        { s.shards i with
          prodHead := (head + 1) % accessLogShardCap
          accepted := (s.shards i).accepted ++ [ev]
          producer := if head = tail then .notify true else .idle } :=
      ⟨rfl, rfl, rfl, List.prefix_append _ _⟩
    have hone : (ProducerPc.wrote ev head tail).inFlight = 1 := rfl
    refine producerFrame_of_grown hgrown s.dropped s.wakeCount ?_
    simp only [LogShard.pending, hpc, hzero, hone, List.length_append, List.length_singleton]
    omega
  | notify accepted hpc =>
    refine producerFrame_of_moved _ s.dropped (notifyWriter s.wakeCount) ?_
    rw [hpc]
    cases accepted <;> rfl
  | drop hpc => exact producerFrame_of_moved _ (s.dropped + 1) s.wakeCount (by rw [hpc]; rfl)

/-! ## The whole system -/

/-- A head that the writer loaded when at least `start` entries were accepted. -/
def Seen (q : LogShard) (start head : ℕ) : Prop :=
  ∃ p, head = p % accessLogShardCap ∧ start ≤ p ∧ p ≤ q.accepted.length

/-- What the locals of the writer say about the shard it is at. -/
def WriterOk (s : LogSystem n) : Prop :=
  match s.writer with
  | .gotTail i tail => tail = (s.shards i).consTail
  | .reload i tail => tail = (s.shards i).consTail
  | .write i tail _ => tail = (s.shards i).consTail
  | .drain i tail head =>
    tail = (s.shards i).consTail ∧ Seen (s.shards i) (s.shards i).released head
  | .fill i head batchTail batch =>
    batchTail = (s.shards i).formatted.length % accessLogShardCap ∧
      Seen (s.shards i) (s.shards i).formatted.length head ∧
      batch.length ≤ accessLogBatchMaxLines ∧ ∀ line ∈ batch, line.length ≤ accessLogLineMax
  | .advance i batchTail _ => batchTail = (s.shards i).formatted.length % accessLogShardCap
  | _ => True

/-- The shard that the writer formats entries of. -/
def WriterPc.filling : WriterPc n → Option (Fin n)
  | .fill i _ _ _ => some i
  | .advance i _ _ => some i
  | _ => none

/-- The lines that the writer holds. -/
def WriterPc.lines : WriterPc n → ℕ
  | .fill _ _ _ batch => batch.length
  | .advance _ _ batch => batch.length
  | .write _ _ batch => batch.length
  | _ => 0

structure LogOk (s : LogSystem n) : Prop where
  shard : ∀ i, ShardOk (s.shards i)
  writer : WriterOk s
  settled : ∀ i, s.writer.filling ≠ some i → (s.shards i).formatted.length = (s.shards i).released
  account : s.attempted = s.emitted + s.dropped + s.writer.lines + ∑ i, (s.shards i).pending

lemma sum_pending {s s' : LogSystem n} {i : Fin n}
    (hothers : ∀ j, j ≠ i → s'.shards j = s.shards j) :
    ∑ j, (s'.shards j).pending + (s.shards i).pending =
      ∑ j, (s.shards j).pending + (s'.shards i).pending := by
  have hrest : ∑ j ∈ Finset.univ.erase i, (s'.shards j).pending =
      ∑ j ∈ Finset.univ.erase i, (s.shards j).pending :=
    Finset.sum_congr rfl fun j hj => by rw [hothers j (Finset.ne_of_mem_erase hj)]
  have h := Finset.add_sum_erase Finset.univ (fun j => (s.shards j).pending) (Finset.mem_univ i)
  have h' := Finset.add_sum_erase Finset.univ (fun j => (s'.shards j).pending) (Finset.mem_univ i)
  omega

lemma Seen.of_grown {q q' : LogShard} {start head : ℕ} (h : Seen q start head) (hgrown : Grown q q') :
    Seen q' start head := by
  obtain ⟨p, hhead, hstart, hp⟩ := h
  exact ⟨p, hhead, hstart, hp.trans hgrown.accepted.length_le⟩

lemma WriterOk.of_grown {s s' : LogSystem n} (h : WriterOk s) (hwriter : s'.writer = s.writer)
    (hgrown : ∀ j, Grown (s.shards j) (s'.shards j)) : WriterOk s' := by
  unfold WriterOk at h ⊢
  rw [hwriter]
  generalize s.writer = pc at h ⊢
  cases pc with
  | gotTail i tail => exact h.trans (hgrown i).consTail.symm
  | reload i tail => exact h.trans (hgrown i).consTail.symm
  | write i tail batch => exact h.trans (hgrown i).consTail.symm
  | drain i tail head =>
    obtain ⟨htail, hseen⟩ := h
    refine ⟨htail.trans (hgrown i).consTail.symm, ?_⟩
    rw [(hgrown i).released]
    exact hseen.of_grown (hgrown i)
  | fill i head batchTail batch =>
    obtain ⟨htail, hseen, hbatch⟩ := h
    dsimp only
    rw [(hgrown i).formatted]
    exact ⟨htail, hseen.of_grown (hgrown i), hbatch⟩
  | advance i batchTail batch =>
    dsimp only
    rw [(hgrown i).formatted]
    exact h
  | _ => trivial

lemma LogOk.of_grown {s s' : LogSystem n} {i : Fin n} (h : LogOk s) (hwriter : s'.writer = s.writer)
    (hemitted : s'.emitted = s.emitted) (hothers : ∀ j, j ≠ i → s'.shards j = s.shards j)
    (hgrown : Grown (s.shards i) (s'.shards i)) (hshard : ShardOk (s'.shards i))
    (hcount : s'.attempted + s.dropped + (s.shards i).pending
      = s.attempted + s'.dropped + (s'.shards i).pending) : LogOk s' := by
  have hall : ∀ j, Grown (s.shards j) (s'.shards j) := by
    intro j
    by_cases hj : j = i
    · subst hj
      exact hgrown
    · rw [hothers j hj]
      exact .refl _
  refine ⟨fun j => ?_, h.writer.of_grown hwriter hall, fun j hj => ?_, ?_⟩
  · by_cases hj : j = i
    · subst hj
      exact hshard
    · rw [hothers j hj]
      exact h.shard j
  · rw [(hall j).formatted, (hall j).released]
    exact h.settled j (hwriter ▸ hj)
  · have hsum := sum_pending hothers
    have hbefore := h.account
    rw [hemitted, hwriter]
    omega

lemma LogOk.produced {s s' : LogSystem n} {i : Fin n} (h : LogOk s) (hstep : Produces s i s') :
    LogOk s' := by
  have hframe := hstep.frame (h.shard i)
  have haccount := hframe.account
  have hattempted := hframe.attempted
  exact h.of_grown hframe.writer hframe.emitted hframe.others hframe.grown
    ((h.shard i).produced hstep) (by omega)

lemma LogOk.enqueued {s : LogSystem n} (h : LogOk s) (i : Fin n) (ev : AccessLogQentry) :
    LogOk (s.step (.enqueue i ev)) := by
  unfold LogSystem.step
  dsimp only
  split
  · rename_i hpc
    have hself : (s.setShard i { s.shards i with producer := .called ev }).shards i
        = { s.shards i with producer := .called ev } := setShard_shards_self ..
    obtain ⟨hring, hformatted, hle, -⟩ := h.shard i
    refine h.of_grown rfl rfl (fun j hj => setShard_shards_of_ne s hj _) ?_ ?_ ?_
    · show Grown (s.shards i) ((s.setShard i _).shards i)
      rw [hself]
      exact ⟨rfl, rfl, rfl, List.prefix_refl _⟩
    · show ShardOk ((s.setShard i _).shards i)
      rw [hself]
      exact ⟨hring, hformatted, hle, trivial⟩
    · show s.attempted + 1 + s.dropped + (s.shards i).pending
        = s.attempted + s.dropped + ((s.setShard i _).shards i).pending
      rw [hself]
      simp only [LogShard.pending, hpc, ProducerPc.inFlight]
      omega
  · exact h

lemma LogOk.moved {s s' : LogSystem n} (h : LogOk s) (hshards : s'.shards = s.shards)
    (hwriter : WriterOk s') (hattempted : s'.attempted = s.attempted)
    (hfilling : ∀ i, s'.writer.filling ≠ some i → s.writer.filling ≠ some i)
    (hcount : s'.emitted + s'.dropped + s'.writer.lines = s.emitted + s.dropped + s.writer.lines) :
    LogOk s' := by
  refine ⟨fun i => ?_, hwriter, fun i hi => ?_, ?_⟩
  · rw [hshards]
    exact h.shard i
  · rw [hshards]
    exact h.settled i (hfilling i hi)
  · have hbefore := h.account
    rw [hattempted, hshards]
    omega

lemma ShardOk.next {q : LogShard} (h : ShardOk q) (hmore : q.formatted.length < q.accepted.length) :
    q.formatted ++ [q.entries (q.formatted.length % accessLogShardCap)] <+: q.accepted := by
  obtain ⟨rest, hrest⟩ := h.formatted
  have hslot := h.ring.slot q.formatted.length hmore h.released_le
  rw [hslot]
  refine ⟨rest.tail, ?_⟩
  cases rest with
  | nil =>
    rw [List.append_nil] at hrest
    rw [hrest] at hmore
    omega
  | cons x rest =>
    have hx : q.accepted[q.formatted.length] = x := by
      simp [← hrest]
    rw [hx, ← hrest]
    simp

/-- Formatting an entry settles it: it is counted as dropped or held as a line. -/
lemma LogOk.formatted {s s' : LogSystem n} {i : Fin n} (h : LogOk s)
    (hfilling : s.writer.filling = some i) (hfilling' : s'.writer.filling = some i)
    (hmore : (s.shards i).formatted.length < (s.shards i).accepted.length)
    (hshards : s'.shards = Function.update s.shards i
      { s.shards i with
        formatted := (s.shards i).formatted
          ++ [(s.shards i).entries ((s.shards i).formatted.length % accessLogShardCap)] })
    (hwriter : WriterOk s') (hattempted : s'.attempted = s.attempted)
    (hcount : s'.emitted + s'.dropped + s'.writer.lines
      = s.emitted + s.dropped + s.writer.lines + 1) : LogOk s' := by
  have hself : s'.shards i = { s.shards i with
      formatted := (s.shards i).formatted
        ++ [(s.shards i).entries ((s.shards i).formatted.length % accessLogShardCap)] } := by
    rw [hshards, Function.update_self]
  have hothers : ∀ j, j ≠ i → s'.shards j = s.shards j := fun j hj => by
    rw [hshards, Function.update_of_ne hj]
  refine ⟨fun j => ?_, hwriter, fun j hj => ?_, ?_⟩
  · by_cases hj : j = i
    · subst hj
      obtain ⟨hring, -, hle, hproducer⟩ := h.shard j
      rw [hself]
      refine ⟨hring, (h.shard j).next hmore, ?_, hproducer⟩
      show (s.shards j).released ≤ ((s.shards j).formatted ++ [_]).length
      rw [List.length_append]
      omega
    · rw [hothers j hj]
      exact h.shard j
  · have hne : j ≠ i := fun hji => hj (hji ▸ hfilling')
    rw [hothers j hne]
    exact h.settled j (by rw [hfilling]; exact fun hji => hne (Option.some.inj hji).symm)
  · have hsum := sum_pending hothers
    have hbefore := h.account
    have hpending : (s'.shards i).pending + 1 = (s.shards i).pending := by
      rw [hself]
      simp only [LogShard.pending, List.length_append, List.length_singleton]
      omega
    rw [hattempted]
    omega

lemma batch_fits {batch : List ByteText.Bytes} {line : ByteText.Bytes}
    (hbatch : batch.length < accessLogBatchMaxLines)
    (hlines : ∀ line ∈ batch, line.length ≤ accessLogLineMax)
    (hline : line.length ≤ accessLogLineMax) :
    batch.flatten.length + line.length ≤ accessLogBatchMaxBytes := by
  have hsum := List.sum_le_card_nsmul (batch.map List.length) accessLogLineMax (by
    intro k hk
    obtain ⟨line, hmem, rfl⟩ := List.mem_map.mp hk
    exact hlines line hmem)
  rw [← List.length_flatten, List.length_map, smul_eq_mul] at hsum
  unfold accessLogBatchMaxLines at hbatch
  unfold accessLogLineMax at hline hsum
  unfold accessLogBatchMaxBytes
  omega

lemma LogOk.filled {s : LogSystem n} {i : Fin n} {head batchTail : ℕ} {batch : List ByteText.Bytes}
    (h : LogOk s) (hpc : s.writer = .fill i head batchTail batch) :
    LogOk (s.fillStep i head batchTail batch) := by
  have hwriter := h.writer
  unfold WriterOk at hwriter
  rw [hpc] at hwriter
  obtain ⟨htail, ⟨p, hhead, hstart, hp⟩, hbatch, hlines⟩ := hwriter
  have hfilling : s.writer.filling = some i := by rw [hpc]; rfl
  have hheld : s.writer.lines = batch.length := by rw [hpc]; rfl
  unfold LogSystem.fillStep
  dsimp only
  split
  · rename_i hround
    obtain ⟨hne, hroom⟩ := hround
    have hlt : (s.shards i).formatted.length < p :=
      lt_of_le_of_ne hstart fun heq => hne (by rw [htail, hhead, heq])
    have hmore := hlt.trans_le hp
    have hnext : (batchTail + 1) % accessLogShardCap
        = ((s.shards i).formatted.length + 1) % accessLogShardCap := by
      rw [htail, Nat.mod_add_mod]
    -- what the writer knows after a round
    have hok : ∀ (s' : LogSystem n) batch', s'.writer = .fill i head
        ((batchTail + 1) % accessLogShardCap) batch' → batch'.length ≤ accessLogBatchMaxLines →
        (∀ line ∈ batch', line.length ≤ accessLogLineMax) →
        s'.shards = Function.update s.shards i
          { s.shards i with
            formatted := (s.shards i).formatted
              ++ [(s.shards i).entries ((s.shards i).formatted.length % accessLogShardCap)] } →
        WriterOk s' := by
      intro s' batch' hpc' hbatch' hlines' hshards
      unfold WriterOk
      rw [hpc', hshards]
      dsimp only
      rw [Function.update_self]
      dsimp only
      rw [List.length_append, List.length_singleton]
      exact ⟨hnext, ⟨p, hhead, hlt, hp⟩, hbatch', hlines'⟩
    rw [htail]
    split
    · refine h.formatted hfilling rfl hmore rfl ?_ rfl ?_
      · exact hok _ batch (by rw [htail]) hbatch hlines rfl
      · show s.emitted + (s.dropped + 1) + batch.length = _
        omega
    · rename_i hgood
      obtain ⟨-, hshort⟩ := not_or.mp hgood
      have hfits := batch_fits hroom hlines (not_lt.mp hshort)
      rw [if_neg (fun hover => absurd hover.2 (not_lt.mpr hfits))]
      refine h.formatted hfilling rfl hmore rfl ?_ rfl ?_
      · refine hok _ (batch ++ [_]) (by rw [htail]) ?_ ?_ rfl
        · rw [List.length_append, List.length_singleton]
          exact hroom
        · intro line hmem
          rcases List.mem_append.mp hmem with hold | hnew
          · exact hlines line hold
          · rw [List.mem_singleton.mp hnew]
            exact not_lt.mp hshort
      · show s.emitted + s.dropped + (batch ++ [_]).length = _
        rw [List.length_append, List.length_singleton]
        omega
  · exact h.moved rfl htail rfl (fun j hj => by rw [hfilling]; exact hj)
      (by rw [hheld]; rfl)

lemma ProducerOk.release {q : LogShard} (h : ProducerOk q) {released : ℕ} (hle : q.released ≤ released)
    (consTail : ℕ) : ProducerOk { q with consTail, released } := by
  unfold ProducerOk at h ⊢
  dsimp only
  cases hpc : q.producer with
  | gotHead ev head =>
    rw [hpc] at h
    exact h
  | gotTail ev head tail =>
    rw [hpc] at h
    exact ⟨h.1, h.2.trans_le (by omega)⟩
  | wrote ev head tail =>
    rw [hpc] at h
    exact ⟨h.1, h.2.1.trans_le (by omega), h.2.2⟩
  | _ => trivial

lemma LogOk.advanced {s s' : LogSystem n} {i : Fin n} {batchTail : ℕ} {batch : List ByteText.Bytes}
    (h : LogOk s) (hpc : s.writer = .advance i batchTail batch)
    (hs' : s' = { s.setShard i
        { s.shards i with consTail := batchTail, released := (s.shards i).formatted.length } with
      writer := if batch = [] then .reload i batchTail else .write i batchTail batch }) :
    LogOk s' := by
  have htail := h.writer
  unfold WriterOk at htail
  rw [hpc] at htail
  have hself : s'.shards i = { s.shards i with
      consTail := batchTail, released := (s.shards i).formatted.length } := by
    rw [hs']
    exact setShard_shards_self ..
  have hothers : ∀ j, j ≠ i → s'.shards j = s.shards j := fun j hj => by
    rw [hs']
    exact setShard_shards_of_ne s hj _
  have hwriter : s'.writer = if batch = [] then .reload i batchTail else .write i batchTail batch := by
    rw [hs']
  refine ⟨fun j => ?_, ?_, fun j hj => ?_, ?_⟩
  · by_cases hj : j = i
    · subst hj
      obtain ⟨hring, hformatted, hle, hproducer⟩ := h.shard j
      rw [hself]
      refine ⟨?_, hformatted, le_refl _, hproducer.release hle batchTail⟩
      have hrelease := hring.release hle hformatted.length_le
      rwa [← htail] at hrelease
    · rw [hothers j hj]
      exact h.shard j
  · have hsame : batchTail = (s'.shards i).consTail := by rw [hself]
    unfold WriterOk
    rw [hwriter]
    by_cases hempty : batch = []
    · rw [if_pos hempty]
      exact hsame
    · rw [if_neg hempty]
      exact hsame
  · by_cases hji : j = i
    · subst hji
      rw [hself]
    · rw [hothers j hji]
      refine h.settled j ?_
      rw [hpc]
      exact fun heq => hji (Option.some.inj heq).symm
  · have hsum := sum_pending hothers
    have hbefore := h.account
    have hpending : (s'.shards i).pending = (s.shards i).pending := by
      rw [hself]
      rfl
    have hlines : s'.writer.lines = s.writer.lines := by
      rw [hwriter, hpc]
      by_cases hempty : batch = []
      · rw [if_pos hempty, hempty]
        rfl
      · rw [if_neg hempty]
        rfl
    have hcount : s'.attempted = s.attempted ∧ s'.emitted = s.emitted ∧ s'.dropped = s.dropped := by
      rw [hs']
      exact ⟨rfl, rfl, rfl⟩
    omega

/-- The writer is not at a shard. -/
def WriterPc.away : WriterPc n → Bool
  | .scan _ | .checkStop | .allEmpty _ _ | .emptyHead _ _ _ | .readWake | .polling | .exited => true
  | _ => false

lemma WriterPc.filling_of_away {pc : WriterPc n} (h : pc.away = true) : pc.filling = none := by
  cases pc <;> first | rfl | cases h

lemma WriterPc.lines_of_away {pc : WriterPc n} (h : pc.away = true) : pc.lines = 0 := by
  cases pc <;> first | rfl | cases h

lemma LogOk.away {s : LogSystem n} (h : LogOk s) (hpc : s.writer.away = true) {pc : WriterPc n}
    (hpc' : pc.away = true) (didWork : Bool) (wakeCount : ℕ) :
    LogOk { s with writer := pc, didWork, wakeCount } := by
  refine h.moved rfl ?_ rfl (fun i _ => ?_) ?_
  · unfold WriterOk
    cases pc <;> trivial
  · rw [WriterPc.filling_of_away hpc]
    nofun
  · show _ + pc.lines = _
    rw [WriterPc.lines_of_away hpc, WriterPc.lines_of_away hpc']

/-- A step of the writer. -/
lemma LogOk.written {s : LogSystem n} (h : LogOk s) (io : WriterIo) : LogOk (s.writerStep io) := by
  have hwriter := h.writer
  unfold WriterOk at hwriter
  unfold LogSystem.writerStep
  cases hpc : s.writer with
  | scan i =>
    have haway : s.writer.away = true := by rw [hpc]; rfl
    dsimp only
    split
    · refine h.moved rfl rfl rfl (fun j _ => ?_) (by rw [hpc]; rfl)
      rw [WriterPc.filling_of_away haway]
      nofun
    · split
      · exact h.away haway rfl false s.wakeCount
      · exact h.away haway rfl s.didWork s.wakeCount
  | gotTail i tail =>
    rw [hpc] at hwriter
    have hle := (h.shard i).ring.taken_le
    refine h.moved rfl ⟨hwriter, _, (h.shard i).ring.head_eq, hle, le_refl _⟩ rfl (fun j _ => ?_)
      (by rw [hpc]; rfl)
    rw [hpc]
    nofun
  | reload i tail =>
    rw [hpc] at hwriter
    have hle := (h.shard i).ring.taken_le
    refine h.moved rfl ⟨hwriter, _, (h.shard i).ring.head_eq, hle, le_refl _⟩ rfl (fun j _ => ?_)
      (by rw [hpc]; rfl)
    rw [hpc]
    nofun
  | drain i tail head =>
    rw [hpc] at hwriter
    obtain ⟨htail, hseen⟩ := hwriter
    have hnone : ∀ j, s.writer.filling ≠ some j := fun j => by rw [hpc]; nofun
    dsimp only
    split
    · exact h.moved rfl trivial rfl (fun j _ => hnone j) (by rw [hpc]; rfl)
    · have hsettled := h.settled i (hnone i)
      refine h.moved rfl ⟨?_, ?_, Nat.zero_le _, nofun⟩ rfl (fun j _ => hnone j) (by rw [hpc]; rfl)
      · rw [htail, hsettled]
        exact (h.shard i).ring.tail_eq
      · rw [hsettled]
        exact hseen
  | fill i head batchTail batch => exact h.filled hpc
  | advance i batchTail batch => exact h.advanced hpc rfl
  | write i tail batch =>
    rw [hpc] at hwriter
    have hnone : ∀ j, s.writer.filling ≠ some j := fun j => by rw [hpc]; nofun
    have hheld : s.writer.lines = batch.length := by rw [hpc]; rfl
    cases io with
    | writeFailed written =>
      refine h.moved rfl hwriter rfl (fun j _ => hnone j) ?_
      show s.emitted + (s.dropped + batch.length) + 0 = _
      omega
    | done =>
      refine h.moved rfl hwriter rfl (fun j _ => hnone j) ?_
      show s.emitted + batch.length + s.dropped + 0 = _
      omega
    | interrupted =>
      refine h.moved rfl hwriter rfl (fun j _ => hnone j) ?_
      show s.emitted + batch.length + s.dropped + 0 = _
      omega
  | checkStop => exact h.away (by rw [hpc]; rfl) rfl s.didWork s.wakeCount
  | allEmpty stopping i =>
    have haway : s.writer.away = true := by rw [hpc]; rfl
    dsimp only
    split
    · exact h.away haway rfl s.didWork s.wakeCount
    · exact h.away haway (by split <;> rfl) s.didWork s.wakeCount
  | emptyHead stopping i head =>
    have haway : s.writer.away = true := by rw [hpc]; rfl
    dsimp only
    split
    · exact h.away haway (by split <;> rfl) s.didWork s.wakeCount
    · exact h.away haway rfl s.didWork s.wakeCount
  | readWake =>
    have haway : s.writer.away = true := by rw [hpc]; rfl
    dsimp only
    split
    · exact h.away haway rfl s.didWork s.wakeCount
    · split
      · exact h.away haway rfl s.didWork 0
      · exact h.away haway rfl s.didWork s.wakeCount
  | polling =>
    have haway : s.writer.away = true := by rw [hpc]; rfl
    dsimp only
    split
    · exact h.away haway rfl s.didWork s.wakeCount
    · exact h
  | exited => exact h

lemma LogOk.step {s : LogSystem n} (h : LogOk s) (act : LogAct n) : LogOk (s.step act) := by
  cases act with
  | enqueue i ev => exact h.enqueued i ev
  | producer i => exact h.produced (producerStep_produces s i)
  | writer io => exact h.written io
  | shutdown => exact ⟨h.shard, h.writer, h.settled, h.account⟩
  | shutdownNotify =>
    unfold LogSystem.step
    dsimp only
    split
    · exact ⟨h.shard, h.writer, h.settled, h.account⟩
    · exact h

lemma logOk_init : LogOk ({} : LogSystem n) :=
  ⟨fun _ => shardOk_init, trivial, fun _ _ => rfl, by simp [LogShard.pending, ProducerPc.inFlight,
    WriterPc.lines]⟩

/-- The states that an interleaving of the programs leads to. -/
abbrev LogRun (acts : List (LogAct n)) (s : LogSystem n) : Prop :=
  Run LogSystem.step (fun _ _ => True) {} acts s

lemma LogRun.logOk {acts : List (LogAct n)} {s : LogSystem n} (hrun : LogRun acts s) : LogOk s :=
  hrun.invariant (fun _ s => LogOk s) logOk_init fun _ _ act h _ => h.step act

/-! ## A first-in first-out channel -/

/-- What the queue guarantees in a state. -/
structure FifoChannel (s : LogSystem n) : Prop where
  /-- What was formatted was accepted, in this order and once. -/
  inOrder : ∀ i, (s.shards i).formatted <+: (s.shards i).accepted
  /-- An empty queue has been formatted. -/
  drained : ∀ i, (s.shards i).prodHead = (s.shards i).consTail →
    (s.shards i).formatted = (s.shards i).accepted
  /-- The slot of an entry that waits to be formatted holds it. -/
  kept : ∀ i k (h : k < (s.shards i).accepted.length), (s.shards i).formatted.length ≤ k →
    (s.shards i).entries (k % accessLogShardCap) = (s.shards i).accepted[k]
  /-- An entry is refused if it is not valid, or by a queue found full. -/
  refused : ∀ i, ((s.producerStep i).shards i).producer = .refused →
    (s.shards i).producer = .notify false ∨
      ∃ ev, (s.shards i).producer = .called ev ∧ accessLogTargetMaxDefault < ev.target.length
  /-- A queue is found full if all slots but one are taken up when the tail is loaded. -/
  full : ∀ i, ((s.producerStep i).shards i).producer = .notify false →
    (∃ ev head, (s.shards i).producer = .gotHead ev head) ∧
      (s.shards i).accepted.length - (s.shards i).released = accessLogShardCap - 1
  /-- Once everything is drained, every attempt was counted. -/
  accounted : (∀ i, (s.shards i).producer = .idle ∧ (s.shards i).prodHead = (s.shards i).consTail) →
    s.writer.lines = 0 → s.emitted + s.dropped = s.attempted

lemma LogOk.drained {s : LogSystem n} (h : LogOk s) {i : Fin n}
    (hempty : (s.shards i).prodHead = (s.shards i).consTail) :
    (s.shards i).formatted = (s.shards i).accepted := by
  have hreleased := (h.shard i).ring.empty_iff.mp hempty
  have hle := (h.shard i).released_le
  exact (h.shard i).formatted.eq_of_length_le (by omega)

lemma Produces.refused {s s' : LogSystem n} {i : Fin n} (hstep : Produces s i s')
    (h : (s'.shards i).producer = .refused) :
    (s.shards i).producer = .refused ∨ (s.shards i).producer = .notify false ∨
      ∃ ev, (s.shards i).producer = .called ev ∧ accessLogTargetMaxDefault < ev.target.length := by
  cases hstep with
  | idle hpc => exact .inl h
  | tooLong ev hpc hlong => exact .inr (.inr ⟨ev, hpc, hlong⟩)
  | notify accepted hpc =>
    cases accepted with
    | true => simp at h
    | false => exact .inr (.inl hpc)
  | publish ev head tail hpc =>
    by_cases hempty : head = tail <;> simp [hempty] at h
  | _ => simp at h

lemma Produces.foundFull {s s' : LogSystem n} {i : Fin n} (hstep : Produces s i s')
    (h : (s'.shards i).producer = .notify false) :
    ∃ ev head, (s.shards i).producer = .gotHead ev head ∧
      (head + 1) % accessLogShardCap = (s.shards i).consTail := by
  cases hstep with
  | idle hpc =>
    rw [hpc] at h
    cases h
  | full ev head hpc hfull => exact ⟨ev, head, hpc, hfull⟩
  | notify accepted hpc => cases accepted <;> simp at h
  | publish ev head tail hpc =>
    by_cases hempty : head = tail <;> simp [hempty] at h
  | _ => simp at h

/-- One entry on its way through the queue. -/
def oneEntryRun : List (LogAct 2) :=
  [.enqueue 0 {}, .producer 0, .producer 0, .producer 0, .producer 0, .producer 0, .writer .done,
    .writer .done, .writer .done, .writer .done]

/-- The writer is woken, or a producer is about to wake it. -/
def Covered (s : LogSystem n) : Prop :=
  s.wakeCount ≠ 0 ∨ ∃ i accepted, (s.shards i).producer = .notify accepted

/-- On its way to sleep, the writer does not look at this shard again. -/
def Passed (s : LogSystem n) (k : Fin n) : Prop :=
  match s.writer with
  | .allEmpty false i => k < i
  | .emptyHead false i head => k < i ∨ k = i ∧ head = (s.shards i).consTail
  | .readWake => True
  | .polling => True
  | _ => False

/-- What the writer has passed is empty or announced. -/
def Announced (s : LogSystem n) : Prop :=
  ∀ k, Passed s k → (s.shards k).prodHead ≠ (s.shards k).consTail → Covered s

/-- A producer that publishes into an empty queue has seen it empty. -/
def seesEmpty (s : LogSystem n) : LogAct n → Bool
  | .producer i =>
    match (s.shards i).producer with
    | .wrote _ head tail => decide ((s.shards i).prodHead = (s.shards i).consTail → head = tail)
    | _ => true
  | _ => true

lemma notifyWriter_ne_zero (wakeCount : ℕ) : notifyWriter wakeCount ≠ 0 := by
  unfold notifyWriter
  split <;> omega

lemma Produces.wakeCount {s s' : LogSystem n} {i : Fin n} (hstep : Produces s i s') :
    s'.wakeCount = s.wakeCount ∨ s'.wakeCount ≠ 0 := by
  cases hstep with
  | notify accepted hpc => exact .inr (notifyWriter_ne_zero _)
  | _ => exact .inl rfl

lemma Covered.produced {s s' : LogSystem n} {i : Fin n} (h : Covered s) (hok : LogOk s)
    (hstep : Produces s i s') : Covered s' := by
  rcases h with hcount | ⟨j, accepted, hj⟩
  · rcases hstep.wakeCount with heq | hne
    · exact .inl (heq ▸ hcount)
    · exact .inl hne
  · by_cases hji : j = i
    · subst hji
      left
      cases hstep with
      | notify accepted' hpc => exact notifyWriter_ne_zero _
      | _ => simp_all
    · right
      refine ⟨j, accepted, ?_⟩
      rw [(hstep.frame (hok.shard i)).others j hji]
      exact hj

lemma Produces.prodHead {s s' : LogSystem n} {i : Fin n} (hstep : Produces s i s') :
    (s'.shards i).prodHead = (s.shards i).prodHead ∨
      ∃ ev head tail, (s.shards i).producer = .wrote ev head tail ∧
        (head = tail → (s'.shards i).producer = .notify true) := by
  cases hstep with
  | publish ev head tail hpc =>
    refine .inr ⟨ev, head, tail, hpc, fun heq => ?_⟩
    rw [setShard_shards_self]
    exact if_pos heq
  | idle hpc => exact .inl rfl
  | notify accepted hpc =>
    left
    show ((s.setShard i _).shards i).prodHead = _
    rw [setShard_shards_self]
  | drop hpc =>
    left
    show ((s.setShard i _).shards i).prodHead = _
    rw [setShard_shards_self]
  | _ =>
    left
    rw [setShard_shards_self]

lemma Passed.of_tails {s s' : LogSystem n} (hwriter : s'.writer = s.writer)
    (htails : ∀ j, (s'.shards j).consTail = (s.shards j).consTail) {k : Fin n} (h : Passed s' k) :
    Passed s k := by
  unfold Passed at h ⊢
  rw [hwriter] at h
  simpa only [htails] using h

lemma Announced.produced {s s' : LogSystem n} {i : Fin n} (h : Announced s) (hok : LogOk s)
    (hsees : seesEmpty s (.producer i) = true) (hstep : Produces s i s') : Announced s' := by
  have hframe := hstep.frame (hok.shard i)
  have htails : ∀ j, (s'.shards j).consTail = (s.shards j).consTail := by
    intro j
    by_cases hj : j = i
    · subst hj
      exact hframe.grown.consTail
    · rw [hframe.others j hj]
  intro k hpassed hfilled
  have hpassed := hpassed.of_tails hframe.writer htails
  rw [htails] at hfilled
  by_cases hk : k = i
  · subst hk
    by_cases hempty : (s.shards k).prodHead = (s.shards k).consTail
    · -- the entry is published into an empty queue
      rcases hstep.prodHead with heq | ⟨ev, head, tail, hpc, hnotify⟩
      · exact absurd (heq.trans hempty) hfilled
      · rw [seesEmpty, hpc] at hsees
        exact .inr ⟨k, true, hnotify (of_decide_eq_true hsees hempty)⟩
    · exact (h k hpassed hempty).produced hok hstep
  · rw [hframe.others k hk] at hfilled
    exact (h k hpassed hfilled).produced hok hstep

lemma Announced.of_none {s : LogSystem n} (h : ∀ k, ¬ Passed s k) : Announced s :=
  fun k hpassed => (h k hpassed).elim

/-- A step of the writer: it passes a shard only after it has seen it empty, and it takes a wake-up only
to look at every shard again. -/
lemma Announced.written {s : LogSystem n} (h : Announced s) (io : WriterIo) :
    Announced (s.writerStep io) := by
  have hpassed : ∀ pc didWork, (∀ k, Passed { s with writer := pc, didWork } k → Passed s k) →
      Announced { s with writer := pc, didWork } :=
    fun pc didWork hle k hk hfilled => h k (hle k hk) hfilled
  unfold LogSystem.writerStep
  cases hpc : s.writer with
  | scan i =>
    dsimp only
    split
    · exact .of_none fun k hk => hk
    · split
      · exact .of_none fun k hk => hk
      · exact .of_none fun k hk => hk
  | gotTail i tail => exact .of_none fun k hk => hk
  | drain i tail head =>
    dsimp only
    split
    · exact .of_none fun k hk => hk
    · exact .of_none fun k hk => hk
  | fill i head batchTail batch =>
    dsimp only
    unfold LogSystem.fillStep
    dsimp only
    split
    · split
      · exact .of_none fun k hk => hk
      · split
        · exact .of_none fun k hk => hk
        · exact .of_none fun k hk => hk
    · exact .of_none fun k hk => hk
  | advance i batchTail batch =>
    refine .of_none fun k hk => ?_
    unfold Passed at hk
    dsimp only at hk
    by_cases hempty : batch = []
    · rw [if_pos hempty] at hk
      exact hk
    · rw [if_neg hempty] at hk
      exact hk
  | write i tail batch =>
    cases io with
    | _ => exact .of_none fun k hk => hk
  | reload i tail => exact .of_none fun k hk => hk
  | checkStop =>
    refine .of_none fun k hk => ?_
    unfold Passed at hk
    dsimp only at hk
    cases hstop : s.stop with
    | true =>
      rw [hstop] at hk
      exact hk
    | false =>
      rw [hstop] at hk
      exact Nat.not_lt_zero _ hk
  | allEmpty stopping i =>
    dsimp only
    cases stopping with
    | true =>
      split
      · exact .of_none fun k hk => hk
      · exact .of_none fun k hk => hk
    | false =>
      split
      · rename_i hi
        intro k hk hfilled
        rcases hk with hlt | ⟨rfl, hsame⟩
        · exact h k (by rw [Passed, hpc]; exact hlt) hfilled
        · exact absurd hsame hfilled
      · rename_i hi
        refine hpassed _ _ fun k _ => ?_
        rw [Passed, hpc]
        exact k.isLt.trans_le (not_lt.mp hi)
  | emptyHead stopping i head =>
    dsimp only
    cases stopping with
    | true =>
      split
      · exact .of_none fun k hk => Nat.not_lt_zero _ hk
      · exact .of_none fun k hk => hk
    | false =>
      split
      · exact .of_none fun k hk => hk
      · rename_i hsame
        refine hpassed _ _ fun k hk => ?_
        have hle : (k : ℕ) < i + 1 := hk
        rw [Passed, hpc]
        rcases Nat.lt_succ_iff_lt_or_eq.mp hle with hlt | heq
        · exact .inl hlt
        · exact .inr ⟨Fin.ext heq, not_not.mp hsame⟩
  | readWake =>
    dsimp only
    split
    · exact .of_none fun k hk => hk
    · split
      · exact .of_none fun k hk => hk
      · refine hpassed _ _ fun k _ => ?_
        rw [Passed, hpc]
        trivial
  | polling =>
    dsimp only
    split
    · exact .of_none fun k hk => hk
    · exact h
  | exited => exact h

lemma Announced.enqueued {s : LogSystem n} (h : Announced s) (i : Fin n) (ev : AccessLogQentry) :
    Announced (s.step (.enqueue i ev)) := by
  unfold LogSystem.step
  dsimp only
  split
  · rename_i hpc
    have hframe : ∀ j, ((s.setShard i { s.shards i with producer := .called ev }).shards j).prodHead
        = (s.shards j).prodHead ∧
        ((s.setShard i { s.shards i with producer := .called ev }).shards j).consTail
          = (s.shards j).consTail := by
      intro j
      by_cases hj : j = i
      · subst hj
        rw [setShard_shards_self]
        exact ⟨rfl, rfl⟩
      · rw [setShard_shards_of_ne s hj]
        exact ⟨rfl, rfl⟩
    intro k hk hfilled
    have hpassed : Passed s k := by
      refine Passed.of_tails ?_ ?_ hk
      · rfl
      · exact fun j => (hframe j).2
    have hcovered := h k hpassed (by rw [← (hframe k).1, ← (hframe k).2]; exact hfilled)
    rcases hcovered with hcount | ⟨j, accepted, hj⟩
    · exact .inl hcount
    · refine .inr ⟨j, accepted, ?_⟩
      have hne : j ≠ i := fun hji => by
        rw [hji, hpc] at hj
        cases hj
      exact (congrArg LogShard.producer (setShard_shards_of_ne s hne _)).trans hj
  · exact h

lemma Announced.step {s : LogSystem n} (h : Announced s) (hok : LogOk s) {act : LogAct n}
    (hsees : seesEmpty s act = true) : Announced (s.step act) := by
  cases act with
  | enqueue i ev => exact h.enqueued i ev
  | producer i => exact h.produced hok hsees (producerStep_produces s i)
  | writer io => exact h.written io
  | shutdown => exact h
  | shutdownNotify =>
    unfold LogSystem.step
    dsimp only
    split
    · exact fun _ _ _ => .inl (notifyWriter_ne_zero _)
    · exact h

/-- As long as no producer publishes into an empty queue that it has seen filled, a sleeping writer has
nothing to do, is woken, or is about to be woken. -/
theorem accessLog_wake_kept (acts : List (LogAct n)) (s : LogSystem n)
    (hrun : Run LogSystem.step (fun s act => seesEmpty s act = true) {} acts s) (hpolling : s.writer = .polling) :
    (∀ i, (s.shards i).prodHead = (s.shards i).consTail) ∨ s.wakeCount ≠ 0 ∨
      ∃ i accepted, (s.shards i).producer = .notify accepted := by
  have hinv : LogOk s ∧ Announced s := by
    refine hrun.invariant (fun _ s => LogOk s ∧ Announced s) ⟨logOk_init, .of_none fun k hk => hk⟩ ?_
    exact fun _ s act h hsees => ⟨h.1.step act, h.2.step h.1 hsees⟩
  by_cases hempty : ∀ i, (s.shards i).prodHead = (s.shards i).consTail
  · exact .inl hempty
  · obtain ⟨i, hi⟩ := not_forall.mp hempty
    exact .inr (hinv.2 i (by rw [Passed, hpolling]; trivial) hi)

/-- The writer falls asleep, and an entry is published. -/
def wakingRun : List (LogAct 2) :=
  List.replicate 14 (.writer .done) ++ [.enqueue 0 {}, .producer 0, .producer 0, .producer 0, .producer 0]

theorem accessLog_wake_kept_once :
    (wakingRun.foldl LogSystem.step {}).writer = .polling ∧
      ((∀ i, ((wakingRun.foldl LogSystem.step {}).shards i).prodHead
          = ((wakingRun.foldl LogSystem.step {}).shards i).consTail) ∨
        (wakingRun.foldl LogSystem.step {}).wakeCount ≠ 0 ∨
        ∃ i accepted, ((wakingRun.foldl LogSystem.step {}).shards i).producer = .notify accepted) := by
  have hpolling : (wakingRun.foldl LogSystem.step {}).writer = .polling := by decide +kernel
  exact ⟨hpolling, accessLog_wake_kept wakingRun _ (Run.of_allowed (by decide +kernel)) hpolling⟩

/-- An entry wakes the writer; while it is drained, the producer of a second one loads the tail, and goes
on only when the writer sleeps again. -/
def lostWakeRun : List (LogAct 2) :=
  wakingRun ++ [.producer 0, .enqueue 0 {}, .producer 0, .producer 0]
    ++ List.replicate 42 (.writer .done) ++ [.producer 0, .producer 0]

theorem accessLog_wake_lost :
    ∃ s : LogSystem 2, LogRun lostWakeRun s ∧ s.writer = .polling ∧
      (s.shards 0).prodHead ≠ (s.shards 0).consTail ∧ s.wakeCount = 0 ∧
      ∀ i accepted, (s.shards i).producer ≠ .notify accepted := by
  refine ⟨_, Run.of_allowed (by decide +kernel), ?_⟩
  decide +kernel

end Lamseryn
