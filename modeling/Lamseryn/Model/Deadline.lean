import Mathlib

/-!
# The deadline of a connection (`src/timing_wheel.c`, `include/conn_deadline.h`)

How the one deadline of a connection is computed: the classification of the connection
(`tw_conn_get_state`) and the time that belongs to its class (`tw_compute_conn_deadline`).

Both read fields of several parts of `struct conn`; `DeadlineView` collects them.  Times are milliseconds
of the monotonic clock.  They are `uint64_t` in the source; a sum of such a time and a 32-bit timeout does
not wrap, so that they are natural numbers here.
-/

namespace Lamseryn

/-- `enum deadline_kind`. -/
inductive DeadlineKind where
  | none
  | drain
  | kaIdle
  | initialIdle
  | headerTimeout
  | bodyTimeout
  | writeTimeout
  deriving DecidableEq, Repr

/-- `enum tw_conn_state`. -/
inductive TwConnState where
  | none
  | kaIdle
  | initialIdle
  | headerInProgress
  | bodyInProgress
  | writeInProgress
  | draining
  | closingNoDeadline
  deriving DecidableEq, Repr

/-- The timeouts of `struct globals_cfg`, each with its `GF_*` presence bit. -/
structure TimeoutCfg where
  keepaliveIdleCloseMs : Option ℕ := none
  initialIdleTimeoutMs : Option ℕ := none
  headerTimeoutMs : Option ℕ := none
  bodyTimeoutMs : Option ℕ := none
  writeTimeoutMs : Option ℕ := none
  drainTimeoutMs : Option ℕ := none
  deriving DecidableEq, Repr

/-- The timeouts in force: the configured ones, else `DEFAULT_*_MS`. -/
def TimeoutCfg.keepaliveIdle (cfg : TimeoutCfg) : ℕ := cfg.keepaliveIdleCloseMs.getD 5000

@[inherit_doc TimeoutCfg.keepaliveIdle]
def TimeoutCfg.initialIdle (cfg : TimeoutCfg) : ℕ := cfg.initialIdleTimeoutMs.getD 1000

@[inherit_doc TimeoutCfg.keepaliveIdle]
def TimeoutCfg.header (cfg : TimeoutCfg) : ℕ := cfg.headerTimeoutMs.getD 30000

@[inherit_doc TimeoutCfg.keepaliveIdle]
def TimeoutCfg.body (cfg : TimeoutCfg) : ℕ := cfg.bodyTimeoutMs.getD 30000

@[inherit_doc TimeoutCfg.keepaliveIdle]
def TimeoutCfg.write (cfg : TimeoutCfg) : ℕ := cfg.writeTimeoutMs.getD 10000

@[inherit_doc TimeoutCfg.keepaliveIdle]
def TimeoutCfg.drain (cfg : TimeoutCfg) : ℕ := cfg.drainTimeoutMs.getD 2000

/-- What the deadline of a connection is computed from: fields of `struct deadline_state`, the progress of
the request and of the handshake, and whether there is something to send: unsent bytes of the write buffer,
or an active `sendfile`. -/
structure DeadlineView where
  lastActiveMs : ℕ := 0
  headerStartMs : ℕ := 0
  writeStartMs : ℕ := 0
  kaIdle : Bool := false
  closing : Bool := false
  draining : Bool := false
  drainDeadlineMs : ℕ := 0
  tlsHandshakePending : Bool := false
  headersDone : Bool := false
  messageDone : Bool := false
  parserBytes : ℕ := 0
  writePending : Bool := false
  sendfileActive : Bool := false
  deriving DecidableEq, Repr

namespace DeadlineView

/-- `conn_is_closing_no_deadline`. -/
def isClosingNoDeadline (v : DeadlineView) : Bool := v.closing && !v.draining

/-- `conn_is_keepalive_idle`. -/
def isKeepaliveIdle (v : DeadlineView) : Bool := v.kaIdle && v.parserBytes == 0

/-- `conn_is_initial_idle`. -/
def isInitialIdle (v : DeadlineView) : Bool := !v.kaIdle && !v.headersDone && v.parserBytes == 0

/-- `conn_is_header_in_progress`. -/
def isHeaderInProgress (v : DeadlineView) : Bool :=
  !v.kaIdle && !v.headersDone && decide (0 < v.parserBytes)

/-- `tw_conn_is_body_in_progress`. -/
def isBodyInProgress (v : DeadlineView) : Bool := !v.kaIdle && v.headersDone && !v.messageDone

/-- `tw_conn_is_write_in_progress`. -/
def isWriteInProgress (v : DeadlineView) : Bool :=
  v.writeStartMs != 0 && (v.writePending || v.sendfileActive)

end DeadlineView

/-- `tw_conn_get_state`. -/
def twConnGetState (fdOpen : Bool) (v : DeadlineView) : TwConnState :=
  if !fdOpen then .none
  else if v.draining then .draining
  else if v.tlsHandshakePending then .initialIdle
  else if v.isClosingNoDeadline then
    if v.isWriteInProgress then .writeInProgress else .closingNoDeadline
  else if v.isKeepaliveIdle then .kaIdle
  else if v.isInitialIdle then .initialIdle
  else if v.isHeaderInProgress then .headerInProgress
  else if v.isBodyInProgress then .bodyInProgress
  else if v.isWriteInProgress then .writeInProgress
  else .none

/-- `tw_compute_conn_deadline`: the kind that it stores and the deadline that it returns, zero for none. -/
def twComputeConnDeadline (cfg : TimeoutCfg) (fdOpen : Bool) (v : DeadlineView) : DeadlineKind × ℕ :=
  match twConnGetState fdOpen v with
  | .draining => (.drain, v.drainDeadlineMs)
  | .kaIdle => (.kaIdle, v.lastActiveMs + cfg.keepaliveIdle)
  | .initialIdle => (.initialIdle, v.lastActiveMs + cfg.initialIdle)
  | .headerInProgress => (.headerTimeout, v.headerStartMs + cfg.header)
  | .bodyInProgress => (.bodyTimeout, v.lastActiveMs + cfg.body)
  | .writeInProgress =>
    (.writeTimeout,
      if v.writeStartMs ≠ 0 then v.writeStartMs + cfg.write else v.lastActiveMs + cfg.write)
  | .closingNoDeadline => (.none, 0)
  | .none => (.none, 0)

end Lamseryn
