import Lamseryn.Model.Session

/-!
# Reads from the TLS layer

`tls_conn_recv` reads from a TLS layer between the worker and the socket.  The layer decrypts a record at
a time: a read returns at most 8192 bytes of the current record, what is left of it stays in the layer, and
the socket reports only records that were not decrypted.

The read loop of `worker_loop_tls_read_handle_cqe` is given over such a layer, with the outcome of its
last read.  To the connection it is `tlsReadHandleCqe` on the outcomes that the layer produces
(`tlsReadHandleOn_loop` in `Properties/TlsDrain.lean`).
-/

namespace Lamseryn

open ByteText

variable {L : Llhttp}

/-- The size of the buffer that `worker_loop_tls_read_handle_cqe` reads into. -/
def tlsReadSize : ℕ := 8192

/-- The TLS layer of a connection: decrypted bytes that were not read, records in the socket, and what a
read reports when there are neither. -/
structure TlsLayer where
  buffered : Bytes := []
  records : List Bytes := []
  idle : TlsRecv := .again true false
  idle_noData : ∀ buf, idle ≠ .data buf := by simp

/-- Decrypt the next record with application data if nothing is left of the current one. -/
def TlsLayer.load (t : TlsLayer) : TlsLayer :=
  if t.buffered = [] then
    match t.records.dropWhile List.isEmpty with
    | [] => { t with records := [] }
    | r :: rs => { t with buffered := r, records := rs }
  else t

/-- `tls_conn_recv` with a buffer of `tlsReadSize` bytes. -/
def TlsLayer.recv (t : TlsLayer) : TlsRecv × TlsLayer :=
  let t := t.load
  if t.buffered = [] then (t.idle, t)
  else (.data (t.buffered.take tlsReadSize), { t with buffered := t.buffered.drop tlsReadSize })

/-- `POLLIN` is reported: the socket has bytes that were not decrypted. -/
def TlsLayer.pollin (t : TlsLayer) : Bool :=
  !t.records.isEmpty

/-- What the read loop leaves: the connection, the layer, and the outcome of the last read. -/
structure TlsReadEnd (L : Llhttp) where
  loop : Loop L
  layer : TlsLayer
  last : Option TlsRecv

/-- The read loop of `worker_loop_tls_read_handle_cqe`. -/
def tlsReadLoopOn (w : Worker L) : ℕ → TlsReadEnd L → TlsReadEnd L
  | 0, x => x
  | spins + 1, x =>
    if x.loop.conn.closing then x
    else
      let r := x.layer.recv
      match r.1 with
      | .data buf => tlsReadLoopOn w spins ⟨processRxBytes w x.loop buf, r.2, some r.1⟩
      | .eof => ⟨scheduleOrSyncClose x.loop, r.2, some r.1⟩
      | .failed => ⟨scheduleOrSyncClose x.loop, r.2, some r.1⟩
      | .again wantRead wantWrite =>
        let polled := if wantWrite then postTlsPollout x.loop else (true, x.loop)
        let loop :=
          if polled.1 then if wantRead then postRecvPtr polled.2 else polled.2
          else scheduleOrSyncClose polled.2
        ⟨loop, r.2, some r.1⟩

/-- `worker_loop_tls_read_handle_cqe` over a TLS layer, behind the guard of `read_handle_cqe`. -/
def tlsReadHandleOn (w : Worker L) (l : Loop L) (t : TlsLayer) : TlsReadEnd L :=
  if !l.conn.fdOpen || l.conn.closing then ⟨l, t, none⟩
  else
    let x := tlsReadLoopOn w 8 ⟨l.setTx { l.conn.tx with recvArmed := false }, t, none⟩
    if x.loop.conn.closing then x else { x with loop := postRecvPtr x.loop }

/-- The connection is open, no response is pending, and no write poll is armed. -/
def Loop.awaitsInput (l : Loop L) : Bool :=
  l.conn.fdOpen && !l.conn.closing && l.conn.tx.respKind == .none && !l.conn.tx.writePollArmed

end Lamseryn
