import Lamseryn.Model.TlsLayer
import Lamseryn.Properties.LoopFrames
import Lamseryn.Properties.Scripted

/-!
# What a read completion leaves in the TLS layer

The read loop stops behind eight reads.  A connection that it leaves waiting for input has read until the
layer had nothing more exactly if the records of the layer are read in fewer than eight reads
(`tlsReadHandleOn_drains_iff`).  Behind eight reads part of a record can stay in the layer, where no
`POLLIN` reports it.
-/

namespace Lamseryn

open ByteText GuardedRun

variable {L : Llhttp} {t : TlsLayer}

/-! ## The layer -/

/-- The reads that a number of bytes takes. -/
def readsOf (n : ℕ) : ℕ := (n + (tlsReadSize - 1)) / tlsReadSize

/-- The reads that return data until the layer has none. -/
def TlsLayer.readsNeeded (t : TlsLayer) : ℕ :=
  readsOf t.buffered.length + (t.records.map fun r => readsOf r.length).sum

lemma readsOf_zero : readsOf 0 = 0 := by decide

lemma readsOf_pos {n : ℕ} (h : 0 < n) : readsOf n = readsOf (n - tlsReadSize) + 1 := by
  unfold readsOf tlsReadSize
  omega

lemma sum_readsOf_dropWhile (rs : List Bytes) :
    ((rs.dropWhile List.isEmpty).map fun r => readsOf r.length).sum =
      (rs.map fun r => readsOf r.length).sum := by
  induction rs with
  | nil => rfl
  | cons r rs ih =>
    cases r with
    | nil => simpa [readsOf_zero] using ih
    | cons b r => rfl

lemma TlsLayer.load_spec (t : TlsLayer) :
    t.load.readsNeeded = t.readsNeeded ∧ (t.load.buffered = [] → t.readsNeeded = 0) := by
  unfold TlsLayer.load TlsLayer.readsNeeded
  by_cases hempty : t.buffered = []
  · rw [if_pos hempty, hempty, ← sum_readsOf_dropWhile t.records]
    cases hdrop : t.records.dropWhile List.isEmpty with
    | nil => exact ⟨by simp, fun _ => rfl⟩
    | cons r rs =>
      have hr : r ≠ [] := by
        intro hnil
        have hhead := List.head?_dropWhile_not List.isEmpty t.records
        rw [hdrop, hnil] at hhead
        simp at hhead
      exact ⟨by simp [readsOf_zero], fun h => absurd h hr⟩
  · rw [if_neg hempty]
    exact ⟨rfl, fun h => absurd h hempty⟩

lemma TlsLayer.recv_cases (t : TlsLayer) :
    (∃ buf t', t.recv = (.data buf, t') ∧ t.readsNeeded = t'.readsNeeded + 1) ∨
      (t.recv = (t.load.idle, t.load) ∧ t.load.buffered = [] ∧ t.readsNeeded = 0) := by
  obtain ⟨hneeded, hnone⟩ := t.load_spec
  unfold TlsLayer.recv
  by_cases hempty : t.load.buffered = []
  · exact .inr ⟨if_pos hempty, hempty, hnone hempty⟩
  · refine .inl ⟨_, _, if_neg hempty, ?_⟩
    rw [← hneeded]
    unfold TlsLayer.readsNeeded
    rw [readsOf_pos (List.length_pos_of_ne_nil hempty), List.length_drop, add_right_comm]

/-! ## The read loop -/

/-- The last read found the layer without data, and nothing decrypted is left in it. -/
def TlsReadEnd.drained (x : TlsReadEnd L) : Prop :=
  (∃ wantRead wantWrite, x.last = some (.again wantRead wantWrite)) ∧ x.layer.buffered = []

/-- One turn of a loop that leaves the connection open: it takes one of the reads needed, or it finds that
none is. -/
lemma tlsReadLoopOn_turn (w : Worker L) (spins : ℕ) (x : TlsReadEnd L)
    (hfd : (tlsReadLoopOn w (spins + 1) x).loop.conn.fdOpen = true)
    (hclosing : (tlsReadLoopOn w (spins + 1) x).loop.conn.closing = false) :
    (∃ x' buf, tlsReadLoopOn w (spins + 1) x = tlsReadLoopOn w spins x' ∧ x'.last = some (.data buf) ∧
        x.layer.readsNeeded = x'.layer.readsNeeded + 1) ∨
      ((tlsReadLoopOn w (spins + 1) x).drained ∧ x.layer.readsNeeded = 0) := by
  rw [tlsReadLoopOn] at hfd hclosing ⊢
  by_cases hopen : x.loop.conn.closing = true
  · rw [if_pos hopen] at hclosing
    exact absurd (hopen.symm.trans hclosing) (by decide)
  · rw [if_neg hopen] at hfd ⊢
    obtain ⟨buf, t', hrecv, hneeded⟩ | ⟨hrecv, hempty, hneeded⟩ := x.layer.recv_cases
    · rw [hrecv] at hfd ⊢
      exact .inl ⟨⟨processRxBytes w x.loop buf, t', some (.data buf)⟩, buf, rfl, rfl, hneeded⟩
    · rw [hrecv] at hfd ⊢
      refine .inr ⟨?_, hneeded⟩
      cases hidle : x.layer.load.idle with
      | data buf => exact absurd hidle (x.layer.load.idle_noData buf)
      | eof =>
        simp only [hidle, scheduleOrSyncClose_detached] at hfd
        exact absurd hfd (by decide)
      | failed =>
        simp only [hidle, scheduleOrSyncClose_detached] at hfd
        exact absurd hfd (by decide)
      | again wantRead wantWrite => exact ⟨⟨wantRead, wantWrite, rfl⟩, hempty⟩

/-- If the loop leaves the connection open, it read until there was nothing more exactly if it had a read
more than those needed. -/
lemma tlsReadLoopOn_drained_iff (w : Worker L) (spins : ℕ) (x : TlsReadEnd L)
    (hfd : (tlsReadLoopOn w (spins + 1) x).loop.conn.fdOpen = true)
    (hclosing : (tlsReadLoopOn w (spins + 1) x).loop.conn.closing = false) :
    (tlsReadLoopOn w (spins + 1) x).drained ↔ x.layer.readsNeeded < spins + 1 := by
  induction spins generalizing x with
  | zero =>
    obtain ⟨x', buf, hturn, hlast, hneeded⟩ | ⟨hdrained, hneeded⟩ :=
      tlsReadLoopOn_turn w 0 x hfd hclosing
    · rw [hturn]
      refine iff_of_false ?_ (by omega)
      rintro ⟨⟨_, _, hagain⟩, -⟩
      exact absurd (hlast.symm.trans hagain) (by simp)
    · exact iff_of_true hdrained (by omega)
  | succ spins ih =>
    obtain ⟨x', buf, hturn, -, hneeded⟩ | ⟨hdrained, hneeded⟩ :=
      tlsReadLoopOn_turn w (spins + 1) x hfd hclosing
    · rw [hturn] at hfd hclosing ⊢
      rw [ih x' hfd hclosing, hneeded]
      omega
    · exact iff_of_true hdrained (by omega)

/-! ## The handler -/

/-- The outcomes of the next reads. -/
def TlsLayer.recvs : ℕ → TlsLayer → List TlsRecv
  | 0, _ => []
  | n + 1, t => t.recv.1 :: t.recv.2.recvs n

lemma tlsReadLoopOn_loop (w : Worker L) (spins : ℕ) (x : TlsReadEnd L) :
    (tlsReadLoopOn w spins x).loop = tlsReadLoop w spins (x.layer.recvs spins) x.loop := by
  induction spins generalizing x with
  | zero => rfl
  | succ spins ih =>
    rw [TlsLayer.recvs]
    unfold tlsReadLoopOn tlsReadLoop
    by_cases hclosing : x.loop.conn.closing = true
    · rw [if_pos hclosing, if_pos hclosing]
    · rw [if_neg hclosing, if_neg hclosing]
      dsimp only
      cases x.layer.recv.1 with
      | data buf => exact ih _
      | eof => rfl
      | failed => rfl
      | again wantRead wantWrite => rfl

/-- **Input in the TLS layer.**  For every connection and every TLS layer: if the handler leaves the
connection waiting for input, its last read found the layer without data, and nothing decrypted is left in
it, exactly if the data of the layer takes fewer than eight reads. -/
theorem tlsReadHandleOn_drains_iff (w : Worker L) (l : Loop L) (t : TlsLayer)
    (hawaits : (tlsReadHandleOn w l t).loop.awaitsInput = true) :
    (tlsReadHandleOn w l t).drained ↔ t.readsNeeded < 8 := by
  unfold Loop.awaitsInput at hawaits
  simp only [Bool.and_eq_true, Bool.not_eq_true'] at hawaits
  obtain ⟨⟨⟨hfd, hclosing⟩, -⟩, -⟩ := hawaits
  unfold tlsReadHandleOn at hfd hclosing ⊢
  by_cases hguard : (!l.conn.fdOpen || l.conn.closing) = true
  · -- the guard lets no closed or closing connection through
    rw [if_pos hguard] at hfd hclosing
    dsimp only at hfd hclosing
    rw [hfd, hclosing] at hguard
    exact absurd hguard (by decide)
  · rw [if_neg hguard] at hfd hclosing ⊢
    have hloop := tlsReadLoopOn_drained_iff w 7 ⟨l.setTx { l.conn.tx with recvArmed := false }, t, none⟩
    dsimp only at hfd hclosing ⊢
    split_ifs at hfd hclosing ⊢ with hend
    · exact hloop hfd hclosing
    · refine hloop ?_ (by simpa using hend)
      by_contra hdetached
      have hstays := (postRecvPtr_io _).detached (Bool.eq_false_iff.mpr hdetached)
      exact absurd (hfd.symm.trans hstays) (by decide)

/-- The layer with one request. -/
def oneRequest : TlsLayer := { records := [scriptBytes bareRequest] }

/-- Behind the handshake the request leaves the connection waiting for input. -/
def oneRequestScript :
    Script (Session.step (sampleWorker (scripted bareRequest)))
      (fun s e => s.enabled e = true)
      (acceptSession (sampleWorker (scripted bareRequest)) (some {}) true [] .wantRead {})
      fun s => (tlsReadHandleOn (sampleWorker (scripted bareRequest)) s.loop oneRequest).loop.awaitsInput =
      true where
  events := [(.handshakeRead false .done, { tlsSends := [.sent 1] })]
  allowed := by decide +kernel
  ends := by decide +kernel

/-- A request in one record: it is answered, and the layer is empty. -/
theorem tlsReadHandleOn_drains_one_request :
    ∃ s, Run (Session.step (sampleWorker (scripted bareRequest))) (fun s e => s.enabled e = true)
        (acceptSession (sampleWorker (scripted bareRequest)) (some {}) true [] .wantRead {})
        [(.handshakeRead false .done, { tlsSends := [.sent 1] })] s ∧
      (tlsReadHandleOn (sampleWorker (scripted bareRequest)) s.loop oneRequest).loop.awaitsInput = true ∧
      (tlsReadHandleOn (sampleWorker (scripted bareRequest)) s.loop oneRequest).drained := by
  obtain ⟨s, hrun, hawaits⟩ := oneRequestScript.exists_run
  have hneeded : oneRequest.readsNeeded < 8 := by decide +kernel
  exact ⟨s, hrun, hawaits, (tlsReadHandleOn_drains_iff _ _ _ hawaits).mpr hneeded⟩

/-- The header section of a request with a body of 20000 bytes. -/
def lengthHead : List (String × List Callback) :=
  [("GET /", [.url (ascii "/")]),
   (" HTTP/1.1\r\nContent-Length", [.headerField (ascii "Content-Length")]),
   (": 20000", [.headerValue (ascii "20000")]),
   ("\r\n\r\n", [.headersComplete .get true])]

/-- The header section in seven records, and an eighth with the first 8193 bytes of the body. -/
def longRecord : TlsLayer where
  records :=
    ["G", "E", "T", " ", "/", " HTTP/1.1\r\nContent-Length", ": 20000\r\n\r\n"].map ascii ++
      [List.replicate 8193 120]

/-- Behind the handshake the long record leaves a byte in the layer. -/
def longRecordScript :
    Script (Session.step (sampleWorker (scriptedBody lengthHead 20000)))
      (fun s e => s.enabled e = true)
      (acceptSession (sampleWorker (scriptedBody lengthHead 20000)) (some {}) true [] .wantRead {})
      fun s => let x := tlsReadHandleOn (sampleWorker (scriptedBody lengthHead 20000)) s.loop longRecord
      (x.loop.awaitsInput = true ∧ x.loop.conn.tx.recvArmed = true) ∧
      x.last.map TlsRecv.isData = some true ∧ x.layer.buffered = [120] ∧ x.layer.pollin = false where
  events := [(.handshakeRead false .done, {})]
  allowed := by decide +kernel
  ends := by decide +kernel

/-- The last byte of the eighth record stays in the layer, while the connection waits for a `POLLIN` that
the empty socket does not report. -/
theorem tlsReadHandleOn_drains_fails_on_long_record :
    ∃ s, Run (Session.step (sampleWorker (scriptedBody lengthHead 20000))) (fun s e => s.enabled e = true)
        (acceptSession (sampleWorker (scriptedBody lengthHead 20000)) (some {}) true [] .wantRead {})
        [(.handshakeRead false .done, {})] s ∧
      let x := tlsReadHandleOn (sampleWorker (scriptedBody lengthHead 20000)) s.loop longRecord
      (x.loop.awaitsInput = true ∧ x.loop.conn.tx.recvArmed = true) ∧
        x.last.map TlsRecv.isData = some true ∧ x.layer.buffered = [120] ∧ x.layer.pollin = false :=
  longRecordScript.exists_run

end Lamseryn
