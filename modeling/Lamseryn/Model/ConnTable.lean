import Lamseryn.Model.Session

/-!
# The connections of a worker (`src/conn_store.c`, `src/conn_lifecycle.c`)

All connections of one worker thread.  A connection is in use from `conn_alloc` until the last reference
to it is dropped, when `conn_recycle` puts it on the freelist; while it has its descriptor, the store finds
it by that number.  The kernel hands out a descriptor only if it is not open, and a descriptor stays open
until its close completes.

Here the store is a map from descriptors to connections; `Properties/ConnStore.lean` shows that its
hash table is one.
-/

namespace Lamseryn

variable {L : Llhttp}

/-- `refcnt` of a connection, which `conn_init` sets to one. -/
def refcnt (h : List Io) : ℕ := 1 + h.count .ref - h.count .put

/-- The connection is in the descriptor store. -/
def inStore (h : List Io) : Bool := !h.contains .storeDel

/-- A connection with the descriptor it was accepted on. -/
structure Slot (L : Llhttp) where
  fd : ℕ
  session : Session L

/-- The history of a connection. -/
def Slot.history (slot : Slot L) : List Io :=
  slot.session.history

/-- The connections in use, and those that were recycled. -/
structure ConnTable (L : Llhttp) where
  live : List (Slot L) := []
  recycled : List (Slot L) := []

/-- `conn_store_get`. -/
def ConnTable.connGet (t : ConnTable L) (fd : ℕ) : Option (Slot L) :=
  t.live.find? fun slot => inStore slot.history && slot.fd == fd

/-- `conn_put` at the end of an event: a connection without references is recycled. -/
def ConnTable.keep (t : ConnTable L) (slot : Slot L) : ConnTable L :=
  if refcnt slot.history = 0 then { t with recycled := t.recycled ++ [slot] }
  else { t with live := t.live ++ [slot] }

/-- What happens to a worker: a connection is accepted, with the outcome of `conn_store_put`, or an event
occurs at one of the connections in use. -/
inductive TableEvent where
  | accept (fd : ℕ) (stored : Bool) (vhost : Option Vhost) (tls : Bool) (arena : List Bool)
      (hs : HsStatus)
  | conn (i : ℕ) (e : SessionEvent)

/-- The connection that `conn_init` recycles when `conn_store_put` fails.  The call of
`schedule_or_sync_close` that follows in `worker_accept_success` does not find it. -/
def unstoredSession (w : Worker L) (vhost : Option Vhost) (tls : Bool) (arena : List Bool) (env : Env) :
    Session L :=
  { loop :=
      { conn := { connInit w vhost tls arena with fdOpen := false }
        env := { env with io := [.put] } } }

/-- One step of a worker. -/
def ConnTable.step (w : Worker L) (t : ConnTable L) (e : TableEvent × Env) : ConnTable L :=
  match e.1 with
  | .accept fd true vhost tls arena hs => t.keep ⟨fd, acceptSession w vhost tls arena hs e.2⟩
  | .accept fd false vhost tls arena _ => t.keep ⟨fd, unstoredSession w vhost tls arena e.2⟩
  | .conn i ev =>
    match t.live[i]? with
    | none => t
    | some slot =>
      { t with live := t.live.eraseIdx i }.keep
        { slot with session := slot.session.step w (ev, e.2) }

/-- The descriptor of the connection is open in the kernel. -/
def Slot.holdsFd (slot : Slot L) : Bool :=
  inStore slot.history || decide (0 < closesInFlight slot.history)

/-- The events that can occur. -/
def ConnTable.enabled (t : ConnTable L) (e : TableEvent × Env) : Bool :=
  match e.1 with
  | .accept fd _ _ _ _ _ => t.live.all fun slot => !slot.holdsFd || slot.fd != fd
  | .conn i ev => (t.live[i]?).any fun slot => slot.session.enabled (ev, e.2)

end Lamseryn
