import Lamseryn.Model.AccessLogDirect
import Lamseryn.Model.ConfigIni

/-!
# Starting the workers and the access log (`lamseryn.c`, `src/access_log.c`)

How many worker threads `main` starts, how many shards `access_log_runtime_init` makes, and the shard that
a worker uses.  The two numbers are taken from the configuration separately.

The calls of `access_log_runtime_init` that can fail are parameters (`LogEnv`).  Of `main` the part between
the configuration and the threads is here, without TLS and the wake pipes.
-/

namespace Lamseryn

open ByteText CText

/-- `threads` in `main`. -/
def mainThreads (g : GlobalsCfg) : ℕ :=
  let threads : ℤ := (g.workers.map toInt32).getD 2
  (min (max threads 1) 128).toNat

/-- `ACCESS_LOG_MAX_SHARDS`. -/
def accessLogMaxShards : ℕ := 128

/-- `struct access_log_cfg`. -/
structure AccessLogCfg where
  enabled : Bool := false
  path : Bytes := []
  format : Bytes := ascii "text"
  sample : ℕ := 1
  minStatus : ℕ := 100
  deriving DecidableEq, Repr

/-- `access_log_cfg_from_globals`. -/
def accessLogCfgFromGlobals (g : GlobalsCfg) : AccessLogCfg where
  enabled := g.accessLogEnabled.getD false
  path := g.accessLogPath.getD []
  format := g.accessLogFormat.getD (ascii "text")
  sample := g.accessLogSample.getD 1
  minStatus := g.accessLogMinStatus.getD 100

/-- What `access_log_runtime_init` asks of the system. -/
structure LogEnv where
  /-- `ACCESS_LOG_DIRECT_PER_WORKER` and `ACCESS_LOG_FORCE_ASYNC_WRITER`. -/
  forceDirectPerWorker : Bool := false
  forceAsyncWriter : Bool := false
  openLog : Bytes → Bool := fun _ => true
  /-- The arrays of states or shards, and of their slots. -/
  allocStates : Bool := true
  allocSlots : ℕ → Bool := fun _ => true
  eventfd : Bool := true
  pthreadCreate : Bool := true

/-- How the log runs: not at all, with a ring for each shard, or with a queue for each. -/
inductive LogMode where
  | off
  | direct (stateCount : ℕ)
  | queued (shardCount : ℕ)
  deriving DecidableEq, Repr

/-- `shard_count` in `access_log_runtime_init`; a key that was not given is 0. -/
def accessLogShardCount (g : GlobalsCfg) : ℕ :=
  let workers := g.workers.getD 0
  min (if 0 < workers then workers else 1) accessLogMaxShards

/-- Is the log written to a file of its own? -/
def AccessLogCfg.toFile (cfg : AccessLogCfg) : Bool :=
  !(cfg.path == [] || strcaseEq cfg.path (ascii "stderr") || strcaseEq cfg.path (ascii "stdout"))

/-- `access_log_runtime_init`; `none` is the return value -1, on which `main` returns. -/
def accessLogRuntimeInit (env : LogEnv) (g : GlobalsCfg) : Option LogMode :=
  let cfg := accessLogCfgFromGlobals g
  if !cfg.enabled then some .off
  else if !strcaseEq cfg.format (ascii "text") then some .off
  else if cfg.toFile && !env.openLog cfg.path then none
  else
    let shardCount := accessLogShardCount g
    let slotsOk := env.allocStates && (List.range shardCount).all env.allocSlots
    if shardCount = 1 ∨ env.forceDirectPerWorker ∨ !env.forceAsyncWriter then
      if slotsOk then some (.direct shardCount) else none
    else if slotsOk && env.eventfd && env.pthreadCreate then some (.queued shardCount)
    else none

/-- The start of `main` with a loaded configuration: the number of worker threads and the mode of the log.
`none` is a `return 1`, here without a port or without the log. -/
def mainStart (env : LogEnv) (config : Config) : Option (ℕ × LogMode) :=
  if config.vhosts.all fun vh => vh.port = 0 then none
  else (accessLogRuntimeInit env config.g).map fun mode => (mainThreads config.g, mode)

/-- The shard of a worker, in `access_log_direct_append`, `access_log_direct_maybe_flush_shard` and
`access_log_enqueue`: a number that is out of range stands for the first shard. -/
def shardIndex (count shardId : ℕ) : ℕ :=
  if count ≤ shardId then 0 else shardId

/-- The shard that `access_log_emit_from_conn` and `access_log_runtime_poll` use in the worker with the
number `threadId`. -/
def LogMode.shardOf : LogMode → ℕ → Option ℕ
  | .off, _ => none
  | .direct stateCount, threadId => some (shardIndex stateCount threadId)
  | .queued shardCount, threadId => some (shardIndex shardCount threadId)

end Lamseryn
