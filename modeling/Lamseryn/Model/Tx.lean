import Lamseryn.Model.Types

/-!
# The transmit state (`src/tx.c`)

The per-connection write buffer with its offset, the attached file range, and the decisions that
the results of `send` and `sendfile` lead to.  `write_buf` is `NULL` exactly while `write_len` is
zero, so both are one byte string; the attached file is the bytes that are still to be sent.
-/

namespace Lamseryn

open ByteText

/-- `struct tx_state_t`; `file` is `none` while `file_fd` is negative. -/
structure TxState where
  writeBuf : Bytes := []
  writeOff : ℕ := 0
  respKind : RespKind := .none
  keepalive : Bool := false
  drainAfterHeaders : Bool := false
  writePollArmed : Bool := false
  recvArmed : Bool := false
  file : Option Bytes := none
  deriving DecidableEq, Repr

/-- The result of a `send` or `sendfile`: a number of bytes or an error. -/
inductive IoRes where
  | sent (n : ℕ)
  | again
  | interrupted
  | failed
  deriving DecidableEq, Repr

/-- `enum tx_decision`. -/
inductive TxDecision where
  | noop
  | sendHeaders
  | startSendfile
  | resumeSendfile
  | armPollout
  | shutWrAndRead
  | doneKeepalive
  | doneClose
  | errorClose
  deriving DecidableEq, Repr

/-- `enum tx_after_action`. -/
inductive TxAfterAction where
  | close
  | shutWrAndRead
  | keepaliveReset
  deriving DecidableEq, Repr

/-- `tx_close_attached_file`. -/
def txCloseAttachedFile (tx : TxState) : TxState :=
  { tx with file := none }

/-- `tx_reset`. -/
def txReset (_ : TxState) : TxState := {}

/-- `tx_begin_headers`; without a buffer nothing happens. -/
def txBeginHeaders (tx : TxState) (rk : RespKind) (buf : Bytes) (keepalive drain : Bool) :
    TxState :=
  if buf = [] then tx
  else
    { tx with
      respKind := rk
      writeBuf := buf
      writeOff := 0
      keepalive := keepalive
      drainAfterHeaders := drain }

/-- `tx_pending_headers`. -/
def txPendingHeaders (tx : TxState) : Bool :=
  decide (tx.writeOff < tx.writeBuf.length)

/-- `tx_sendfile_is_active`. -/
def txSendfileIsActive (tx : TxState) : Bool :=
  tx.file.any fun rest => !rest.isEmpty

/-- `tx_discard`. -/
def txDiscard (tx : TxState) : TxState :=
  { tx with writeBuf := [], writeOff := 0 }

/-- The end of a response. -/
def txDone (tx : TxState) : TxDecision :=
  if tx.keepalive then .doneKeepalive else .doneClose

/-- `tx_on_io_result` for `TX_IO_HEADERS`. -/
def txOnHeadersResult (tx : TxState) : IoRes → TxState × TxDecision
  | .again => (tx, .armPollout)
  | .interrupted => (tx, .errorClose)
  | .failed => (tx, .errorClose)
  | .sent 0 => (tx, .errorClose)
  | .sent (n + 1) =>
    if tx.writeBuf = [] then (tx, .errorClose)
    else
      let tx := { tx with writeOff := tx.writeOff + (n + 1) }
      if tx.writeOff < tx.writeBuf.length then (tx, .sendHeaders)
      else if tx.drainAfterHeaders then (tx, .shutWrAndRead)
      else if txSendfileIsActive tx then (tx, .startSendfile)
      else (tx, txDone tx)

/-- `tx_on_io_result` for `TX_IO_SENDFILE`. -/
def txOnSendfileResult (tx : TxState) : IoRes → TxState × TxDecision
  | .again => (tx, .armPollout)
  | .interrupted => (tx, .noop)
  | .failed => (tx, .errorClose)
  | .sent 0 => (tx, .errorClose)
  | .sent (n + 1) =>
    let rest := tx.file.getD []
    if rest = [] then (tx, txDone tx)
    else
      let tx := { tx with file := some (rest.drop (n + 1)) }
      if rest.drop (n + 1) ≠ [] then (tx, .resumeSendfile) else (tx, txDone tx)

/-- `tx_on_pollout`. -/
def txOnPollout (tx : TxState) : TxDecision :=
  if txSendfileIsActive tx ∧ !txPendingHeaders tx then .resumeSendfile
  else if tx.respKind ≠ .none ∧ txPendingHeaders tx then .sendHeaders
  else .noop

/-- `tx_after_full_response`. -/
def txAfterFullResponse (tx : TxState) (draining : Bool) : TxAfterAction :=
  if draining ∧ tx.respKind = .k431 then .shutWrAndRead
  else if tx.respKind = .k503 then .close
  else if tx.keepalive then .keepaliveReset
  else .close

end Lamseryn
