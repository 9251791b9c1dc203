import Lamseryn.Model.Startup
import Lamseryn.Properties.Routing

/-!
# Which worker writes to which shard of the access log

Neither the rings of the direct mode nor the producers' side of the queues is locked: a shard is meant for
one worker.  `main` and `access_log_runtime_init` take their numbers from the same key, but not with the
same default: without `workers` there are two threads and one shard.

* `GlobalsCfg.Checked`: what the loader has checked about the keys that are read here.
* `workers_isSome_iff`: `workers` is set exactly if an entry of the file sets it.
* `shardIsolation_iff`: two workers share a shard exactly if the log is on and `workers` is not set.
-/

namespace Lamseryn

open ByteText CText

/-! ## The keys that are read -/

lemma strcaseEq_congr {a b : Bytes} (h : strcaseEq a b = true) (c : Bytes) :
    strcaseEq a c = strcaseEq b c := by
  rw [Bool.eq_iff_iff, strcaseEq_iff, strcaseEq_iff, strcaseEq_iff.mp h]

/-- Does an entry set the number of workers? -/
def SetsWorkers (e : IniEntry) : Prop :=
  strcaseEq e.sec (ascii "globals") = true ∧ strcaseEq e.name (ascii "workers") = true

instance (e : IniEntry) : Decidable (SetsWorkers e) :=
  inferInstanceAs (Decidable (_ ∧ _))

lemma keyOf_workers_iff {name : Bytes} :
    keyOf globalKeys name = some (.checked .workers) ↔ strcaseEq name (ascii "workers") = true := by
  constructor
  · intro h
    obtain ⟨⟨text, key⟩, hfind, hkey⟩ := Option.map_eq_some_iff.mp h
    have hnames : ∀ k ∈ globalKeys, k.2 = .checked .workers → k.1 = ascii "workers" := by
      decide
    have htext := hnames _ (List.mem_of_find?_eq_some hfind) hkey
    have hmatch := List.find?_some hfind
    dsimp only at hmatch htext
    rwa [htext] at hmatch
  · intro h
    have hfound : keyOf globalKeys (ascii "workers") = some (.checked .workers) := by decide
    simp only [keyOf, strcaseEq_congr h]
    exact hfound

lemma setKey_check {g g1 : GlobalsCfg} {name value : Bytes} {key : CheckedKey}
    (h : g.setKey name value = .accepted g1) (hkey : keyOf globalKeys name = some (.checked key)) :
    key.check.1 value = true := by
  obtain ⟨⟨text, _⟩, hfind, rfl⟩ := Option.map_eq_some_iff.mp hkey
  rw [GlobalsCfg.setKey, hfind] at h
  by_contra hcheck
  dsimp only at h
  rw [if_neg hcheck] at h
  cases h

lemma GlobalsCfg.set_workers (g : GlobalsCfg) (key : GlobalKey) (value : Bytes) :
    (g.set key value).workers = if key = .checked .workers then parseU32 value else g.workers := by
  cases key with
  | checked key => cases key <;> rfl
  | _ => rfl

lemma GlobalsCfg.set_accessLogFormat (g : GlobalsCfg) (key : GlobalKey) (value : Bytes) :
    (g.set key value).accessLogFormat =
      if key = .accessLogFormat ∧ strcaseEq value (ascii "text") = true then some (snprintfS 16 value)
      else g.accessLogFormat := by
  cases key with
  | checked key => cases key <;> rfl
  | accessLogFormat => simp [GlobalsCfg.set]
  | _ => rfl

/-- What the loader has checked about `workers` and `access_log_format`. -/
structure GlobalsCfg.Checked (g : GlobalsCfg) : Prop where
  workers : ∀ n, g.workers = some n → 0 < n
  format : ∀ text, g.accessLogFormat = some text → strcaseEq text (ascii "text") = true

lemma GlobalsCfg.Checked.set {g g1 : GlobalsCfg} {e : IniEntry} (h : g.Checked)
    (hset : g.setKey e.name e.value = .accepted g1) : g1.Checked := by
  have happly := setKey_accepted hset
  unfold GlobalsCfg.apply at happly
  split at happly
  · rwa [← happly]
  · rename_i key hkey
    rw [← happly]
    refine ⟨?_, ?_⟩
    · intro n hn
      rw [GlobalsCfg.set_workers] at hn
      split_ifs at hn with hworkers
      · have hcheck := setKey_check hset (hworkers ▸ hkey)
        simpa [CheckedKey.check, hn] using hcheck
      · exact h.workers n hn
    · intro text htext
      rw [GlobalsCfg.set_accessLogFormat] at htext
      split_ifs at htext with hformat
      · have hlen : e.value.length = 4 := by
          have hlower := congrArg List.length (strcaseEq_iff.mp hformat.2)
          rwa [lower, lower, List.length_map, List.length_map] at hlower
        obtain rfl := Option.some.inj htext
        rw [snprintfS, List.take_of_length_le (by omega)]
        exact hformat.2
      · exact h.format text htext

/-! ## What loading a file leaves in the globals -/

lemma onKv_global {ctx ctx1 : ConfigParseCtx} {e : IniEntry}
    (h : onKv ctx e.sec e.name e.value = (ctx1, true)) (hsec : strcaseEq e.sec (ascii "globals") = true) :
    ctx.g.setKey e.name e.value = .accepted ctx1.g := by
  unfold onKv at h
  split at h
  · cases h
  · cases hset : ctx.g.setKey e.name e.value with
    | accepted g =>
      rw [hset] at h
      cases h
      rfl
    | refused =>
      rw [hset] at h
      cases h
    | fatal reason =>
      rw [hset] at h
      cases h

lemma ParseRun.checked {ctx ctx1 : ConfigParseCtx} {es : List IniEntry} (h : ParseRun ctx es ctx1)
    (h0 : ctx.g.Checked) : ctx1.g.Checked := by
  induction h with
  | nil ctx => exact h0
  | @cons ctx ctx1 ctx2 e es hstep _ ih =>
    apply ih
    by_cases hsec : strcaseEq e.sec (ascii "globals") = true
    · exact h0.set (onKv_global hstep hsec)
    · rw [(onKv_ok hstep).2.1, declareGlobal, if_neg hsec]
      exact h0

/-- An accepted entry for `workers` sets it, and nothing takes it back. -/
lemma onKv_workers {ctx ctx1 : ConfigParseCtx} {e : IniEntry}
    (h : onKv ctx e.sec e.name e.value = (ctx1, true)) :
    ctx1.g.workers.isSome = true ↔ SetsWorkers e ∨ ctx.g.workers.isSome = true := by
  rw [(onKv_ok h).2.1, declareGlobal]
  by_cases hsec : strcaseEq e.sec (ascii "globals") = true
  · rw [if_pos hsec, GlobalsCfg.apply]
    cases hkey : keyOf globalKeys e.name with
    | none =>
      have hother : ¬ SetsWorkers e := by
        intro hsets
        rw [keyOf_workers_iff.mpr hsets.2] at hkey
        cases hkey
      simp only [hother, false_or]
    | some key =>
      dsimp only
      rw [GlobalsCfg.set_workers]
      by_cases hworkers : key = .checked .workers
      · rw [if_pos hworkers]
        subst hworkers
        have hcheck := setKey_check (onKv_global h hsec) hkey
        have hsome : (parseU32 e.value).isSome = true := by
          obtain ⟨n, hn, -⟩ := (Option.any_eq_true _ _).mp hcheck
          rw [hn]
          rfl
        exact iff_of_true hsome (.inl ⟨hsec, keyOf_workers_iff.mp hkey⟩)
      · have hother : ¬ SetsWorkers e := by
          intro hsets
          rw [keyOf_workers_iff.mpr hsets.2] at hkey
          exact hworkers (Option.some.inj hkey).symm
        simp only [if_neg hworkers, hother, false_or]
  · have hother : ¬ SetsWorkers e := fun hsets => hsec hsets.1
    simp only [if_neg hsec, hother, false_or]

lemma ParseRun.workers_isSome {ctx ctx1 : ConfigParseCtx} {es : List IniEntry}
    (h : ParseRun ctx es ctx1) :
    ctx1.g.workers.isSome = true ↔ (∃ e ∈ es, SetsWorkers e) ∨ ctx.g.workers.isSome = true := by
  induction h with
  | nil ctx => simp only [List.not_mem_nil, false_and, exists_false, false_or]
  | cons hstep _ ih =>
    rw [ih, onKv_workers hstep, List.exists_mem_cons_iff, or_assoc, or_left_comm]

lemma loaded_checked {lenv : LoadEnv} {items : List IniItem} {config : Config}
    (h : configLoadIni lenv (some items) = .ok config) : config.g.Checked := by
  obtain ⟨_, ctx0, ctx, -, hg, -, -, hrun, hloaded⟩ := configLoadIni_ok h
  rw [hloaded.globals]
  apply hrun.checked
  rw [hg]
  exact ⟨nofun, nofun⟩

lemma workers_isSome_iff {lenv : LoadEnv} {items : List IniItem} {config : Config}
    (h : configLoadIni lenv (some items) = .ok config) :
    config.g.workers.isSome = true ↔ ∃ e ∈ fileEntries items, SetsWorkers e := by
  obtain ⟨items1, ctx0, ctx, hitems, hg, -, -, hrun, hloaded⟩ := configLoadIni_ok h
  obtain rfl := Option.some.inj hitems
  rw [hloaded.globals, hrun.workers_isSome, hg]
  exact or_iff_left Bool.false_ne_true

/-! ## Threads and shards -/

/-- No two of the started workers use one shard: every shard has a single producer. -/
def ShardIsolation (mode : LogMode) (threads : ℕ) : Prop :=
  ∀ i < threads, ∀ j < threads, ∀ s, mode.shardOf i = some s → mode.shardOf j = some s → i = j

lemma mainThreads_le_shardCount {g : GlobalsCfg} {n : ℕ} (hworkers : g.workers = some n) (hn : 0 < n) :
    mainThreads g ≤ accessLogShardCount g := by
  simp only [mainThreads, accessLogShardCount, accessLogMaxShards, hworkers, Option.map_some,
    Option.getD_some, if_pos hn, toInt32]
  split <;> omega

lemma shardIndex_of_lt {count shardId : ℕ} (h : shardId < count) : shardIndex count shardId = shardId :=
  if_neg (not_le.mpr h)

lemma shardIsolation_of_le {mode : LogMode} {count threads : ℕ}
    (hmode : ∀ i, mode.shardOf i = some (shardIndex count i)) (hle : threads ≤ count) :
    ShardIsolation mode threads := by
  intro i hi j hj s his hjs
  rw [hmode, shardIndex_of_lt (by omega)] at his hjs
  rw [Option.some.inj his, Option.some.inj hjs]

lemma shardIsolation_off (threads : ℕ) : ShardIsolation .off threads := by
  intro i _ j _ s his
  cases his

lemma accessLogRuntimeInit_some {env : LogEnv} {g : GlobalsCfg} {mode : LogMode} (hg : g.Checked)
    (h : accessLogRuntimeInit env g = some mode) :
    (g.accessLogEnabled ≠ some true ∧ mode = .off) ∨
      (g.accessLogEnabled = some true ∧
        (mode = .direct (accessLogShardCount g) ∨ mode = .queued (accessLogShardCount g))) := by
  have henabled : (accessLogCfgFromGlobals g).enabled = true ↔ g.accessLogEnabled = some true := by
    show g.accessLogEnabled.getD false = true ↔ g.accessLogEnabled = some true
    rcases g.accessLogEnabled with _ | _ | _ <;> decide
  have hformat : strcaseEq (accessLogCfgFromGlobals g).format (ascii "text") = true := by
    rw [accessLogCfgFromGlobals]
    cases hset : g.accessLogFormat with
    | none => exact strcaseEq_self _
    | some text => exact hg.format text hset
  unfold accessLogRuntimeInit at h
  dsimp only at h
  by_cases hon : g.accessLogEnabled = some true
  · right
    refine ⟨hon, ?_⟩
    simp only [henabled.mpr hon, hformat, Bool.not_true, Bool.false_eq_true, if_false] at h
    split_ifs at h
    · exact .inl (Option.some.inj h).symm
    · exact .inr (Option.some.inj h).symm
  · left
    refine ⟨hon, ?_⟩
    rw [if_pos (by simpa using henabled.not.mpr hon)] at h
    exact (Option.some.inj h).symm

lemma mainStart_some {env : LogEnv} {config : Config} {threads : ℕ} {mode : LogMode}
    (h : mainStart env config = some (threads, mode)) :
    threads = mainThreads config.g ∧ accessLogRuntimeInit env config.g = some mode := by
  unfold mainStart at h
  split_ifs at h
  obtain ⟨mode1, hmode, heq⟩ := Option.map_eq_some_iff.mp h
  obtain ⟨rfl, rfl⟩ := Prod.mk.inj heq
  exact ⟨rfl, hmode⟩

/-- **Shards of the access log.**  When the server starts with a loaded configuration, no two workers use
one shard exactly if the file sets `workers` or the log is not enabled. -/
theorem shardIsolation_iff {lenv : LoadEnv} {items : List IniItem} {config : Config} {env : LogEnv}
    {threads : ℕ} {mode : LogMode} (hload : configLoadIni lenv (some items) = .ok config)
    (hstart : mainStart env config = some (threads, mode)) :
    ShardIsolation mode threads ↔
      (∃ e ∈ fileEntries items, SetsWorkers e) ∨ config.g.accessLogEnabled ≠ some true := by
  obtain ⟨rfl, hinit⟩ := mainStart_some hstart
  rw [← workers_isSome_iff hload]
  rcases accessLogRuntimeInit_some (loaded_checked hload) hinit with ⟨hoff, rfl⟩ | ⟨hon, hmode⟩
  · exact iff_of_true (shardIsolation_off _) (.inr hoff)
  have hshards : ∀ i, mode.shardOf i = some (shardIndex (accessLogShardCount config.g) i) := by
    intro i
    rcases hmode with rfl | rfl <;> rfl
  cases hworkers : config.g.workers with
  | some n =>
    have hle := mainThreads_le_shardCount hworkers ((loaded_checked hload).workers n hworkers)
    exact iff_of_true (shardIsolation_of_le hshards hle) (.inl rfl)
  | none =>
    refine iff_of_false ?_ (by simp [hon])
    intro hisolated
    -- two threads, and both numbers stand for the only shard
    have hthreads : mainThreads config.g = 2 := by
      rw [mainThreads, hworkers]
      rfl
    have hcount : accessLogShardCount config.g = 1 := by
      rw [accessLogShardCount, hworkers]
      rfl
    rw [hcount] at hshards
    rw [hthreads] at hisolated
    exact absurd (hisolated 0 (by omega) 1 (by omega) 0 (hshards 0) (hshards 1)) (by omega)

/-- A file with a log and three workers. -/
def loggedWorkers : List IniItem :=
  [fileKey 1 "globals" "access_log_enabled" "true",
   fileKey 2 "globals" "workers" "3",
   fileKey 4 "vhost a" "port" "8080"]

/-- The configuration of `loggedWorkers`. -/
def loggedWorkersConfig : Config where
  g := { accessLogEnabled := some true, workers := some 3 }
  vhosts := [{ newVhost {} (ascii "a") with port := 8080 }]

theorem shardIsolation_three_workers :
    mainStart {} loggedWorkersConfig = some (3, .direct 3) ∧ ShardIsolation (.direct 3) 3 := by
  have hload : configLoadIni plainEnv (some loggedWorkers) = .ok loggedWorkersConfig := by
    decide
  have hstart : mainStart {} loggedWorkersConfig = some (3, .direct 3) := by decide
  exact ⟨hstart, (shardIsolation_iff hload hstart).mpr (.inl (by decide))⟩

/-- The same file without the number of workers. -/
def loggedDefault : List IniItem :=
  [fileKey 1 "globals" "access_log_enabled" "true",
   fileKey 4 "vhost a" "port" "8080"]

/-- The configuration of `loggedDefault`. -/
def loggedDefaultConfig : Config where
  g := { accessLogEnabled := some true }
  vhosts := [{ newVhost {} (ascii "a") with port := 8080 }]

/-- By default the two workers share the ring of the direct mode. -/
theorem shardIsolation_fails_by_default :
    configLoadIni plainEnv (some loggedDefault) = .ok loggedDefaultConfig ∧
      mainStart {} loggedDefaultConfig = some (2, .direct 1) ∧ ¬ ShardIsolation (.direct 1) 2 := by
  refine ⟨by decide, by decide, ?_⟩
  intro hisolated
  exact absurd (hisolated 0 Nat.two_pos 1 Nat.one_lt_two 0 rfl rfl) Nat.zero_ne_one

end Lamseryn
