import Lamseryn.Model.ConnTable

/-!
# Provided receive buffers (`src/buffer_pool.c`, `src/rx_buffers.c`)

A worker gives the kernel a ring of receive buffers.  The completion of a `recv` names the buffer that
the kernel took for it, and `rx_buf_return` puts that buffer back.  Handling a completion of a read is
modelled here together with the buffers that it puts back; what it does to the connection is what
`Session.handle` does.

Which connection a completion belongs to is settled when it is handled, so the identifiers in completions
that wait to be handled are a list of their own.
-/

namespace Lamseryn

open ByteText

variable {L : Llhttp}

/-- The pool after `buffer_pool_init`: `bp_entries`, and which entries of `bp_pool` could be allocated. -/
structure BufferPool where
  entries : ℕ
  allocated : ℕ → Bool

/-- `buffer_pool_get` finds a buffer. -/
def BufferPool.get (p : BufferPool) (bid : ℕ) : Bool :=
  decide (bid < p.entries) && p.allocated bid

/-- The buffers that `buffer_pool_init` adds to the ring. -/
def BufferPool.ids (p : BufferPool) : List ℕ :=
  (List.range p.entries).filter p.allocated

/-- `buffer_pool_return`, called by `rx_buf_return`: what is added to the ring. -/
def rxBufReturn (p : BufferPool) (bid : ℕ) : List ℕ :=
  if p.get bid then [bid] else []

/-- The result of an `OP_READ`. -/
inductive ReadRes where
  | bytes (buf : Bytes)
  | again
  | interrupted
  | eof
  | failed
  deriving DecidableEq, Repr

/-- A completion of an `OP_READ`: the buffer it carries, its result, and what the TLS layer answers if it
is asked. -/
structure ReadCqe where
  bid : Option ℕ
  res : ReadRes
  hs : HsStatus := .wantRead
  tlsReads : List TlsRecv := []
  deriving DecidableEq, Repr

/-- `struct rx_buf_view`; `buf_ptr` is set exactly if `valid_bid` is. -/
structure RxBufView where
  haveBuf : Bool := false
  bid : ℕ := 0
  validBid : Bool := false

/-- `rx_buf_from_cqe`. -/
def rxBufFromCqe (p : BufferPool) (cqe : ReadCqe) : RxBufView :=
  match cqe.bid with
  | none => {}
  | some bid => ⟨true, bid, p.get bid⟩

/-- `worker_loop_read_handle_cqe` with the buffers that it puts back. -/
def workerLoopReadHandleCqe (w : Worker L) (p : BufferPool) (l : Loop L) (cqe : ReadCqe) :
    Loop L × List ℕ :=
  let rxb := rxBufFromCqe p cqe
  if !l.conn.fdOpen || l.conn.closing then
    (l.setTx { l.conn.tx with recvArmed := false },
      if rxb.haveBuf then rxBufReturn p rxb.bid else [])
  else if !rxb.haveBuf then (readHandleCqe w l .noBuffer, [])
  else if !rxb.validBid then (readHandleCqe w l .again, rxBufReturn p rxb.bid)
  else
    match cqe.res with
    | .again => (readHandleCqe w l .again, rxBufReturn p rxb.bid)
    | .interrupted => (readHandleCqe w l .again, rxBufReturn p rxb.bid)
    | .eof => (readHandleCqe w l .closed, rxBufReturn p rxb.bid)
    | .failed => (readHandleCqe w l .closed, rxBufReturn p rxb.bid)
    | .bytes buf => (readHandleCqe w l (.data buf), rxBufReturn p rxb.bid)

/-- `read_handle_cqe` with the buffers that it puts back.  The guard at its start, the handshake and the
TLS reads do not look at the buffer of the completion. -/
def Session.readHandle (w : Worker L) (p : BufferPool) (s : Session L) (cqe : ReadCqe) :
    Session L × List ℕ :=
  let arrived : Loop L := { s.loop.emit [.readDone] with recvOps := s.loop.recvOps - 1 }
  if !s.loop.conn.fdOpen || s.loop.conn.closing then ({ s with loop := arrived.emit [.put] }, [])
  else if s.handshakePending then
    ((handshakeRead { s with loop := arrived } (cqe.res == .failed) cqe.hs).emit [.put], [])
  else if s.loop.conn.tlsEnabled then
    ({ s with loop := (tlsReadHandleCqe w arrived cqe.tlsReads).emit [.put] }, [])
  else
    let r := workerLoopReadHandleCqe w p arrived cqe
    ({ s with loop := r.1.emit [.put] }, r.2)

/-! ## A worker with its ring -/

/-- What a completion on a plain connection is to the handlers that do not track buffers. -/
def ReadCqe.recvResult (p : BufferPool) (cqe : ReadCqe) : RecvResult :=
  match cqe.bid with
  | none => .noBuffer
  | some bid =>
    if !p.get bid then .again
    else
      match cqe.res with
      | .again => .again
      | .interrupted => .again
      | .eof => .closed
      | .failed => .closed
      | .bytes buf => .data buf

/-- What a completion is to a session. -/
def ReadCqe.event (p : BufferPool) (s : Session L) (cqe : ReadCqe) : SessionEvent :=
  if s.handshakePending then .handshakeRead (cqe.res == .failed) cqe.hs
  else if s.loop.conn.tlsEnabled then .io (.tlsRead cqe.tlsReads)
  else .io (.recv (cqe.recvResult p))

/-- A worker: its connections, the buffers in the ring, and those that completions carry which were not
handled yet. -/
structure RxWorker (L : Llhttp) where
  table : ConnTable L := {}
  ring : List ℕ
  carried : List ℕ := []

/-- A worker after `buffer_pool_init`. -/
def RxWorker.start (p : BufferPool) : RxWorker L where
  ring := p.ids

/-- The kernel takes a buffer for a completion, the worker handles a completion of a read, or something
else happens. -/
inductive RxEvent where
  | select (bid : ℕ)
  | read (i : ℕ) (cqe : ReadCqe)
  | other (e : TableEvent)

/-- One step of a worker with its ring. -/
def RxWorker.step (w : Worker L) (p : BufferPool) (s : RxWorker L) (e : RxEvent × Env) : RxWorker L :=
  match e.1 with
  | .select bid => { s with ring := s.ring.erase bid, carried := s.carried ++ [bid] }
  | .read i cqe =>
    match s.table.live[i]? with
    | none => s
    | some slot =>
      let session := { slot.session with loop :=
        { slot.session.loop with env := { e.2 with io := slot.session.loop.env.io } } }
      let r := session.readHandle w p cqe
      { table := { s.table with live := s.table.live.eraseIdx i }.keep { slot with session := r.1 }
        ring := s.ring ++ r.2
        carried := s.carried.diff cqe.bid.toList }
  | .other ev => { s with table := s.table.step w (ev, e.2) }

/-- A completion of a read. -/
def TableEvent.isRead : TableEvent → Bool
  | .conn _ (.io (.recv _)) => true
  | .conn _ (.io (.tlsRead _)) => true
  | .conn _ (.handshakeRead _ _) => true
  | _ => false

/-- The events that can occur: the kernel takes buffers from the ring, and completions of reads carry
buffers that it took. -/
def RxWorker.enabled (p : BufferPool) (s : RxWorker L) (e : RxEvent × Env) : Bool :=
  match e.1 with
  | .select bid => s.ring.contains bid
  | .read i cqe =>
    ((s.table.live[i]?).any fun slot => slot.session.enabled (cqe.event p slot.session, e.2)) &&
      cqe.bid.all s.carried.contains
  | .other ev => !ev.isRead && s.table.enabled (ev, e.2)

end Lamseryn
