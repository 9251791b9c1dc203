import Lamseryn.Model.ConnStore
import Lamseryn.Model.ConnTable

/-!
# The accept hook (`worker_accept_success` in `lamseryn.c`)

What happens to an accepted descriptor, with every outcome of what the hook calls: the allocation of the
connection, the insertion into the descriptor store, the choice of the virtual host, the start of TLS, the
first step of the handshake and the submission entries.  The store is the hash table of
`Model/ConnStore.lean`; a connection in it is its address.

`acceptSession` in `Model/Session.lean` is the part of the hook behind a successful `conn_init`, for the
build with `ENABLE_OVERLOAD_503`.
-/

namespace Lamseryn

variable {L : Llhttp}

/-- The outcomes of the calls of the hook: `conn_alloc` returns a connection, the allocations of
`fm_resize` succeed, what `vhost_for_fd` finds, `tls_vhost_effective_enabled`, `tls_conn_init` succeeds,
the first handshake step, the allocations of the arena, and the environment of the rest. -/
structure AcceptOutcome where
  allocated : Bool := true
  storeGrows : Bool := true
  vhost : Option Vhost := none
  tls : Bool := false
  tlsInit : Bool := true
  hs : HsStatus := .wantRead
  arena : List Bool := []
  env : Env := {}

/-- What the hook leaves: the store, the new connection if there is one, and the connection that
`schedule_or_sync_close` found in the store after a failed `conn_init`. -/
structure Accepted (L : Llhttp) where
  store : FdStore ℕ
  session : Option (Session L)
  found : Option ℕ := none

/-- The end of the hook: the first read, and what happens if it could not be posted. -/
def acceptFirstRead (w : Worker L) (overload503 : Bool) (l : Loop L) : Loop L :=
  if overload503 then acceptRead w l
  else
    let l := postRecvPtr l
    if !l.conn.tx.recvArmed && !l.conn.closing && l.conn.fdOpen then scheduleOrSyncClose l else l

/-- The hook behind a successful `conn_init`. -/
def acceptStored (w : Worker L) (overload503 : Bool) (o : AcceptOutcome) : Session L :=
  let s : Session L :=
    { loop :=
        { conn := connInit w o.vhost (o.tls && o.tlsInit) o.arena, env := { o.env with io := [] } } }
  if o.vhost = none then { s with loop := scheduleOrSyncClose s.loop }
  else if o.tls && !o.tlsInit then { s with loop := scheduleOrSyncClose s.loop }
  else
    let s := tlsHandshakeProgress s o.hs
    if !s.loop.conn.fdOpen || s.handshakePending then s
    else { s with loop := acceptFirstRead w overload503 s.loop }

/-- A failed `conn_init`: `schedule_or_sync_close` looks the descriptor up. -/
def acceptFailed (store : FdStore ℕ) (fd : ℕ) (session : Option (Session L)) : Option (Accepted L) :=
  (connStoreGet store fd).map fun found => ⟨store, session, found⟩

/-- `worker_accept_success` for the descriptor `fd`; `c` is the address that `conn_alloc` returns.  The
calls of `conn_store_del` behind a successful `conn_init` are those in the history of the connection. -/
def workerAcceptSuccess (w : Worker L) (overload503 : Bool) (store : FdStore ℕ) (fd c : ℕ)
    (o : AcceptOutcome) : Option (Accepted L) :=
  if !o.allocated then acceptFailed store fd none
  else
    match connStorePut store fd (some c) o.storeGrows with
    | none => none
    | some (store, false) =>
      acceptFailed store fd (some (unstoredSession w o.vhost o.tls o.arena o.env))
    | some (store, true) =>
      let s := acceptStored w overload503 o
      if inStore s.history then some { store := store, session := some s }
      else (connStoreDel store fd).map fun store => { store := store, session := some s }

/-- The descriptor is registered to a connection that has it. -/
def Accepted.registered (a : Accepted L) (fd c : ℕ) : Prop :=
  connStoreGet a.store fd = some (some c) ∧ ∃ s ∈ a.session, s.loop.conn.fdOpen = true

/-- The descriptor was closed, or a close of it is staged. -/
def Accepted.closes (a : Accepted L) : Prop :=
  a.found.isSome ∨ ∃ s ∈ a.session, Io.closeFd ∈ s.history ∨ Io.postClose ∈ s.history

end Lamseryn
