import Lamseryn.Model.AcceptHook
import Lamseryn.Properties.ConnStore
import Lamseryn.Properties.Scripted
import Lamseryn.Properties.SessionRules

/-!
# Accepted descriptors are registered or closed

When the accept hook returns, the accepted descriptor is in the store with a connection that has it, or it
was closed, exactly if `conn_init` could allocate the connection and store it.  Behind a successful
`conn_init` every path keeps one of the two (`OwnsFd`).  A failed one leaves a descriptor that the store
does not know, and `schedule_or_sync_close` does nothing about it.
-/

namespace Lamseryn

open ByteText IoView

variable {L : Llhttp}

/-! ## Behind a successful `conn_init` -/

/-- The connection has its descriptor and is in the store, or it was closed and left the store. -/
def OwnsFd (v : IoView) : Prop :=
  (v.fdOpen = true ∧ .storeDel ∉ v.history) ∨
    (v.fdOpen = false ∧ .storeDel ∈ v.history ∧ (.closeFd ∈ v.history ∨ .postClose ∈ v.history))

variable {v v' : IoView}

lemma OwnsFd.emit (h : OwnsFd v) (ops : List Io) (hfd : v'.fdOpen = v.fdOpen)
    (hhistory : v'.history = v.history ++ ops) (hops : .storeDel ∉ ops) : OwnsFd v' := by
  rcases h with ⟨hopen, hdel⟩ | ⟨hclosed, hdel, hclose⟩
  · exact Or.inl ⟨hfd.trans hopen, by simp [hhistory, hdel, hops]⟩
  · refine Or.inr ⟨hfd.trans hclosed, by simp [hhistory, hdel], ?_⟩
    rw [hhistory]
    exact hclose.imp (List.mem_append_left _) (List.mem_append_left _)

lemma OwnsFd.congr (h : OwnsFd v) (hfd : v'.fdOpen = v.fdOpen) (hhistory : v'.history = v.history) :
    OwnsFd v' :=
  h.emit [] hfd (by rw [hhistory, List.append_nil]) (by simp)

lemma OwnsFd.close (sync armed : Bool) : OwnsFd (v.close sync armed) := by
  refine Or.inr ⟨rfl, ?_, ?_⟩
  · cases sync <;> simp [IoView.close, closeOps]
  · cases sync <;> simp [IoView.close, closeOps]

lemma OwnsFd.respond (h : OwnsFd v) (tx : TxState) (closing draining : Bool) :
    OwnsFd (v.respond tx closing draining) :=
  h.emit [.respond tx.writeBuf tx.file] rfl rfl (by simp)

lemma OwnsFd.post (h : OwnsFd v) (buf : Bytes) : OwnsFd (v.post buf) :=
  h.emit [.ref, .postSend buf] rfl rfl (by simp)

lemma ownRules (w : Worker L) :
    HandlerRules w OwnsFd (fun _ => OwnsFd) OwnsFd OwnsFd OwnsFd where
  idle h := h
  parsed _ h := h.congr rfl rfl
  waiting h := h
  settled h := h
  disarmPoll h := h.congr rfl rfl
  refPut h := h.emit [.ref, .put] rfl rfl (by simp)
  close sync armed _ _ := .close sync armed
  read h _ _ _ := h.emit [.ref, .postRead] rfl rfl (by simp)
  poll h := h.emit [.ref, .postPollOut] rfl rfl (by simp)
  tlsPoll h _ _ := h.emit [.ref, .postPollOut] rfl rfl (by simp)
  advance h := h.congr rfl rfl
  more h _ := OwnsFd.post (h.congr rfl rfl) _
  resend h _ _ := h.post _
  sendfile r h _ _ := h.emit [.sendfile _ r] rfl rfl (by simp)
  dropFile h _ := h.congr rfl rfl
  discard h _ := h.congr rfl rfl
  reset h _ _ _ := h.emit [.reset] rfl rfl (by simp)
  tlsSent n h _ _ := h.emit [.tlsSend _ (.sent n)] rfl rfl (by simp)
  tlsWait r h _ _ _ := h.emit [.tlsSend _ r] rfl rfl (by simp)
  respond draining h _ _ := h.respond _ _ draining
  start h _ _ := h.post _

lemma ownsFd_initial (tls : Bool) : OwnsFd (IoView.initial tls) :=
  Or.inl ⟨rfl, by simp [IoView.initial]⟩

lemma acceptFirstRead_owns (w : Worker L) (overload503 : Bool) {l : Loop L} (h : OwnsFd l.view) :
    OwnsFd (acceptFirstRead w overload503 l).view := by
  unfold acceptFirstRead
  split_ifs with hoverload
  · apply (ownRules w).acceptsRead h
    intro v tx hv _ _ _ _ _ _
    exact (hv.respond tx true v.draining).post tx.writeBuf
  · dsimp only
    split_ifs
    · exact (ownRules w).closes ((ownRules w).postsRecv h)
    · exact (ownRules w).postsRecv h

/-- **Behind a successful `conn_init`** the descriptor stays owned, whatever the hook meets. -/
lemma acceptStored_owns (w : Worker L) (overload503 : Bool) (o : AcceptOutcome) :
    OwnsFd (acceptStored w overload503 o).loop.view := by
  have hinit : OwnsFd (Loop.view (L := L)
      { conn := connInit w o.vhost (o.tls && o.tlsInit) o.arena, env := { o.env with io := [] } }) :=
    ownsFd_initial (o.tls && o.tlsInit)
  unfold acceptStored
  dsimp only
  split_ifs
  · exact (ownRules w).closes hinit
  · exact (ownRules w).closes hinit
  · exact (ownRules w).settlesHandshake hinit o.hs
  · exact acceptFirstRead_owns w overload503 ((ownRules w).settlesHandshake hinit o.hs)

/-! ## The hook -/

/-- A failed `conn_init` without a connection that has the descriptor: it is closed only if the store
already knew it. -/
lemma acceptFailed_owned {store : FdStore ℕ} {m : ℕ → Option (Option ℕ)} (h : StoreInv store m)
    (fd c : ℕ) (session : Option (Session L))
    (hunowned : ∀ s ∈ session, s.loop.conn.fdOpen = false ∧ s.history = [.put]) :
    ∃ a, acceptFailed store fd session = some a ∧
      (a.registered fd c ∨ a.closes ↔ connStoreGet store fd ≠ some none) := by
  refine ⟨⟨store, session, (m fd).join⟩, by simp [acceptFailed, h.get fd], ?_⟩
  have hnew : ¬ ∃ s ∈ session, s.loop.conn.fdOpen = true := by
    rintro ⟨s, hs, hopen⟩
    rw [(hunowned s hs).1] at hopen
    cases hopen
  have hkept : ¬ ∃ s ∈ session, Io.closeFd ∈ s.history ∨ Io.postClose ∈ s.history := by
    rintro ⟨s, hs, hclose⟩
    rw [(hunowned s hs).2] at hclose
    simp at hclose
  unfold Accepted.registered Accepted.closes
  simp only [hnew, hkept, and_false, or_false, false_or, h.get fd]
  cases (m fd).join <;> simp

/-- A successful `conn_init`: the descriptor is registered or closed. -/
lemma acceptStored_owned (w : Worker L) (overload503 : Bool) {store : FdStore ℕ}
    {m : ℕ → Option (Option ℕ)} {fd c : ℕ} (h : StoreInv store (Function.update m fd (some (some c))))
    (o : AcceptOutcome) :
    ∃ a : Accepted L,
      (if inStore (acceptStored w overload503 o).history then
          some { store := store, session := some (acceptStored w overload503 o) }
        else (connStoreDel store fd).map fun store =>
          { store := store, session := some (acceptStored w overload503 o) }) = some a ∧
      (a.registered fd c ∨ a.closes) := by
  rcases acceptStored_owns w overload503 o with ⟨hopen, hdel⟩ | ⟨-, hdel, hclose⟩
  · have hin : inStore (acceptStored w overload503 o).history = true := by
      simpa [inStore, Session.history, Loop.view] using hdel
    rw [if_pos hin]
    refine ⟨_, rfl, Or.inl ⟨?_, _, rfl, hopen⟩⟩
    rw [h.get fd, Function.update_self, Option.join_some]
  · have hout : inStore (acceptStored w overload503 o).history ≠ true := by
      simpa [inStore, Session.history, Loop.view] using hdel
    obtain ⟨store', hstore', -⟩ := h.del fd
    rw [if_neg hout, hstore']
    exact ⟨_, rfl, Or.inr (Or.inr ⟨_, rfl, hclose⟩)⟩

/-- For a store after any calls, any descriptor and every outcome of what the hook calls, it returns and
leaves the descriptor registered to a connection that has it, or closed, exactly if `conn_init` can
allocate and store the connection or the store already knows the descriptor. -/
theorem accept_owned_iff (w : Worker L) (overload503 : Bool) {capHint : ℕ} {ops : List (StoreOp ℕ)}
    {store : FdStore ℕ} {calls : List (StoreCall ℕ)}
    (hstore : (connStoreInit capHint).calls ops = some (store, calls)) (fd c : ℕ) (o : AcceptOutcome) :
    ∃ a, workerAcceptSuccess w overload503 store fd c o = some a ∧
      (a.registered fd c ∨ a.closes ↔
        (o.allocated = true ∧ (store.mustGrow → o.storeGrows = true)) ∨
          connStoreGet store fd ≠ some none) := by
  obtain ⟨s, cs, m, hcalls, hinv, -⟩ := connStoreInit_calls capHint ops
  rw [hstore] at hcalls
  cases hcalls
  unfold workerAcceptSuccess
  by_cases halloc : o.allocated = true
  · rw [if_neg (by simp [halloc])]
    obtain ⟨store', ok, hput, hsame, hok, hinv'⟩ := hinv.put fd (some c) o.storeGrows
    rw [hput]
    cases ok with
    | false =>
      have hgrow : ¬ (store.mustGrow → o.storeGrows = true) := fun hgrow => by
        simpa using hok.mpr hgrow
      cases hsame rfl
      obtain ⟨a, ha, howned⟩ := acceptFailed_owned hinv fd c
        (some (unstoredSession w o.vhost o.tls o.arena o.env)) (by simp [unstoredSession, Session.history])
      refine ⟨a, ha, howned.trans ?_⟩
      simp only [hgrow, and_false, false_or]
    | true =>
      obtain ⟨a, ha, howned⟩ := acceptStored_owned w overload503 hinv' o
      exact ⟨a, ha, iff_of_true howned (Or.inl ⟨halloc, hok.mp rfl⟩)⟩
  · rw [if_pos (by simp [halloc])]
    obtain ⟨a, ha, howned⟩ := acceptFailed_owned (L := L) hinv fd c none (by simp)
    refine ⟨a, ha, howned.trans ?_⟩
    simp only [halloc, Bool.false_eq_true, false_and, false_or]

/-- The first connection of a worker. -/
theorem accept_owned_first :
    ∃ a, workerAcceptSuccess (sampleWorker (scripted bareRequest)) true (connStoreInit 0) 5 1
        { vhost := some {} } = some a ∧ (a.registered 5 1 ∨ a.closes) := by
  have hstore : (connStoreInit 0).calls ([] : List (StoreOp ℕ)) = some (connStoreInit 0, []) := rfl
  obtain ⟨a, ha, howned⟩ :=
    accept_owned_iff (sampleWorker (scripted bareRequest)) true hstore 5 1 { vhost := some {} }
  exact ⟨a, ha, howned.mpr (Or.inl ⟨rfl, fun _ => rfl⟩)⟩

/-- Without memory for a connection the descriptor stays open and nobody knows it. -/
theorem accept_unowned_without_memory :
    ∃ a, workerAcceptSuccess (sampleWorker (scripted bareRequest)) true (connStoreInit 0) 5 1
        { allocated := false, vhost := some {} } = some a ∧ ¬ a.registered 5 1 ∧ ¬ a.closes := by
  have hinit : StoreInv (connStoreInit 0 : FdStore ℕ) fun _ => none := storeInv_connStoreInit 0
  obtain ⟨a, ha, howned⟩ := acceptFailed_owned hinit 5 1 none (by simp)
  refine ⟨a, ha, ?_⟩
  rw [← not_or, howned, hinit.get 5]
  simp

end Lamseryn
