/-
  Subject:   THE TUN'S TCP BRIDGE (`local/tun/tcp.rs` of the service), one connection of it. Ring buffers and the
  queues of the TCP stack are lists; wakers are left out.
-/
import Shadowsocks.Lib.Bytes
import Shadowsocks.Lib.Machine

namespace Shadowsocks.Local.Tun

open Lib List

inductive TcpSocketState where
  | normal
  | close
  | closing
  | closed
  deriving DecidableEq

/-- The states of the TCP stack's socket (`TcpState`). -/
inductive TcpState where
  | closed
  | listen
  | synSent
  | synReceived
  | established
  | finWait1
  | finWait2
  | closeWait
  | closing
  | lastAck
  | timeWait
  deriving DecidableEq

/-- The peer may still send. -/
def TcpState.receiving : TcpState → Bool
  | .listen | .synReceived | .established | .finWait1 | .finWait2 => true
  | _ => false

/-- **What the manager asks of the TCP stack**, and what is assumed of it. -/
structure Stack where
  /-- `Socket::close` -/
  close : TcpState → TcpState
  /-- `Socket::may_recv`, by the state and the bytes that wait in the socket. -/
  mayRecv : TcpState → Bytes → Bool
  /-- `Socket::may_send` -/
  maySend : TcpState → Bool
  /-- Closing the writing half does not open the reading half. -/
  close_receiving : ∀ {state}, state.receiving = false → (close state).receiving = false
  /-- Bytes that wait may be received in every state. -/
  mayRecv_waiting : ∀ state rx, rx ≠ [] → mayRecv state rx = true

/-- The transitions of TCP. -/
def Stack.standard : Stack where
  close
    | .listen | .synSent => .closed
    | .synReceived | .established => .finWait1
    | .closeWait => .lastAck
    | state => state
  mayRecv state rx := state = .established ∨ state = .finWait1 ∨ state = .finWait2 ∨ rx ≠ []
  maySend state := state = .established ∨ state = .closeWait
  close_receiving {state} h := by cases state <;> first | rfl | cases h
  mayRecv_waiting state rx h := by simp [h]

structure Conn where
  (sendBuffer recvBuffer : Bytes)
  (recvState sendState : TcpSocketState)
  state : TcpState
  (rx tx received read accepted handed : Bytes)
  /-- `poll_shutdown` has closed the writing half. -/
  shutdown : Bool
  deriving DecidableEq

def Conn.new : Conn := ⟨[], [], .normal, .normal, .listen, [], [], [], [], [], [], false⟩

inductive Event where
  /-- Bytes arrive, sent ones are acknowledged, the state changes. -/
  | net (bytes : Bytes) (acked : Nat) (state : TcpState)
  /-- What `recv` and `send` answer: the lengths of the slices less one, or a failure. -/
  | iterate (recvs sends : List (Option Nat))
  | pollRead (len : Nat)
  | pollWrite (buf : Bytes)
  | pollShutdown
  | drop

inductive Answer where
  | pending
  | eof
  | read (bytes : Bytes)
  | wrote (len : Nat)
  | brokenPipe
  | done
  deriving DecidableEq

variable (S : Stack) (sendCap recvCap txCap : Nat)

/-! ## 1. The manager -/

structure Moved where
  (moved rest : Bytes)
  failed : Bool

/-- The loops of `recv` and `send`. -/
def transfer (room : Nat) (src : Bytes) : List (Option Nat) → Moved
  | [] => ⟨src.take room, src.drop room, false⟩
  | answer :: answers =>
    if src = [] ∨ room = 0 then ⟨[], src, false⟩
    else
      match answer with
      | none => ⟨[], src, true⟩
      | some n =>
        let t := transfer (room - (n + 1)) (src.drop (min (n + 1) room)) answers
        { t with moved := src.take (min (n + 1) room) ++ t.moved }

def Conn.shutWr (c : Conn) : Conn :=
  if c.sendState = .close ∧ c.tx = [] ∧ c.sendBuffer = [] then
    { c with state := S.close c.state, sendState := .closing }
  else c

def Conn.recv (answers : List (Option Nat)) (c : Conn) : Conn :=
  let t := transfer (recvCap - c.recvBuffer.length) c.rx answers
  { c with
    recvBuffer := c.recvBuffer ++ t.moved
    rx := t.rest
    -- after a failure the socket is aborted
    state := if t.failed then .closed else c.state
    recvState := if t.failed ∧ c.recvState = .normal then .closed else c.recvState }

def Conn.closeRead (c : Conn) : Conn :=
  if c.recvState = .normal ∧ !S.mayRecv c.state c.rx ∧ !c.state.receiving then { c with recvState := .closed } else c

def Conn.send (answers : List (Option Nat)) (c : Conn) : Conn :=
  if S.maySend c.state then
    let t := transfer (txCap - c.tx.length) c.sendBuffer answers
    { c with
      sendBuffer := t.rest
      tx := c.tx ++ t.moved
      handed := c.handed ++ t.moved
      state := if t.failed then .closed else c.state
      sendState := if t.failed ∧ c.sendState = .normal then .closed else c.sendState }
  else c

def Conn.iterate (recvs sends : List (Option Nat)) (c : Conn) : Conn :=
  if c.state = .closed then { c with sendState := .closed, recvState := .closed }
  else (((c.shutWr S).recv recvCap recvs).closeRead S).send S txCap sends

/-! ## 2. The stream -/

def Conn.pollRead (len : Nat) (c : Conn) : Conn × Answer :=
  if c.recvBuffer = [] then (c, if c.recvState = .closed then .eof else .pending)
  else
    ({ c with recvBuffer := c.recvBuffer.drop len, read := c.read ++ c.recvBuffer.take len },
      .read (c.recvBuffer.take len))

def Conn.pollWrite (buf : Bytes) (c : Conn) : Conn × Answer :=
  if c.sendState ≠ .normal then (c, .brokenPipe)
  else if sendCap ≤ c.sendBuffer.length then (c, .pending)
  else
    let bytes := buf.take (sendCap - c.sendBuffer.length)
    ({ c with sendBuffer := c.sendBuffer ++ bytes, accepted := c.accepted ++ bytes }, .wrote bytes.length)

def Conn.pollShutdown (c : Conn) : Conn × Answer :=
  if c.sendState = .closed then (c, .done)
  else if c.sendState = .normal then ({ c with sendState := .close, shutdown := true }, .pending)
  else (c, .pending)

/-- `Drop` -/
def Conn.drop (c : Conn) : Conn :=
  { c with
    recvState := if c.recvState = .normal then .close else c.recvState
    sendState := if c.sendState = .normal then .close else c.sendState }

/-- The peer sends nothing after its end of the stream, and a closed socket stays closed. -/
def Conn.net (bytes : Bytes) (acked : Nat) (state : TcpState) (c : Conn) : Conn :=
  let bytes := if c.state.receiving then bytes else []
  { c with
    rx := c.rx ++ bytes
    received := c.received ++ bytes
    tx := c.tx.drop acked
    state := if c.state = .closed ∨ (state.receiving ∧ !c.state.receiving) then c.state else state }

def Conn.step (c : Conn) : Event → Conn × List Answer
  | .net bytes acked state => (c.net bytes acked state, [])
  | .iterate recvs sends => (c.iterate S recvCap txCap recvs sends, [])
  | .pollRead len => ((c.pollRead len).1, [(c.pollRead len).2])
  | .pollWrite buf => ((c.pollWrite sendCap buf).1, [(c.pollWrite sendCap buf).2])
  | .pollShutdown => (c.pollShutdown.1, [c.pollShutdown.2])
  | .drop => (c.drop, [])

/-! ## 3. No byte is lost in between -/

/-- The bytes on their way, in order. -/
structure Conn.Queued (c : Conn) : Prop where
  read : c.read ++ c.recvBuffer ++ c.rx = c.received
  handed : c.handed ++ c.sendBuffer = c.accepted
  ended : c.recvState = .closed → c.state.receiving = false
  closing : c.sendState = .closing → c.sendBuffer = []
  shut : c.shutdown = true → c.sendState ≠ .normal

variable {S sendCap recvCap txCap}

theorem transfer_append (room : Nat) (src : Bytes) (answers : List (Option Nat)) :
    (transfer room src answers).moved ++ (transfer room src answers).rest = src := by
  induction answers generalizing room src with
  | nil => exact take_append_drop room src
  | cons answer answers ih =>
    unfold transfer
    split
    · rfl
    · cases answer with
      | none => rfl
      | some n => simp only [append_assoc, ih, take_append_drop]

theorem transfer_nil (room : Nat) (answers : List (Option Nat)) : (transfer room [] answers).rest = [] :=
  (append_eq_nil_iff.mp (transfer_append room [] answers)).2

theorem transfer_failed {room : Nat} {src : Bytes} {answers : List (Option Nat)}
    (h : (transfer room src answers).failed = true) : (transfer room src answers).rest ≠ [] := by
  induction answers generalizing room src with
  | nil => cases h
  | cons answer answers ih =>
    unfold transfer at h ⊢
    split
    · simp_all
    · cases answer with
      | none => simp_all
      | some n => simp_all

variable {c : Conn}

theorem Conn.Queued.recv (h : c.Queued) (answers : List (Option Nat)) : (c.recv recvCap answers).Queued := by
  have happend := transfer_append (recvCap - c.recvBuffer.length) c.rx answers
  refine ⟨?_, h.handed, ?_, h.closing, h.shut⟩
  · simp only [Conn.recv, append_assoc, happend]
    simpa using h.read
  · have := h.ended
    simp only [Conn.recv]
    grind [TcpState.receiving]

theorem Conn.Queued.send (h : c.Queued) (answers : List (Option Nat)) : (c.send S txCap answers).Queued := by
  have happend := transfer_append (txCap - c.tx.length) c.sendBuffer answers
  unfold Conn.send
  split
  · refine ⟨h.read, ?_, ?_, ?_, ?_⟩
    · simp only [append_assoc, happend, h.handed]
    · have := h.ended
      grind [TcpState.receiving]
    · have := h.closing
      grind [transfer_nil]
    · have := h.shut
      grind
  · exact h

theorem Conn.Queued.iterate (h : c.Queued) (recvs sends : List (Option Nat)) :
    (c.iterate S recvCap txCap recvs sends).Queued := by
  unfold Conn.iterate
  split
  · rename_i hclosed
    exact ⟨h.read, h.handed, fun _ => by rw [hclosed]; rfl, nofun, fun _ => nofun⟩
  · refine .send (?_ : Conn.Queued _) sends
    have hshut : (c.shutWr S).Queued := by
      unfold Conn.shutWr
      split
      · rename_i hshut
        exact ⟨h.read, h.handed, fun hr => S.close_receiving (h.ended hr), fun _ => hshut.2.2, fun _ => nofun⟩
      · exact h
    obtain ⟨hread, hhanded, hended, hclosing, hshut⟩ : ((c.shutWr S).recv recvCap recvs).Queued := hshut.recv recvs
    unfold Conn.closeRead
    split
    · rename_i hclose
      exact ⟨hread, hhanded, fun _ => by simpa using hclose.2.2, hclosing, hshut⟩
    · exact ⟨hread, hhanded, hended, hclosing, hshut⟩

theorem Conn.Queued.step (h : c.Queued) (e : Event) : (c.step S sendCap recvCap txCap e).1.Queued := by
  have ⟨hread, hhanded, hended, hclosing, hshut⟩ := h
  cases e with
  | net bytes acked state =>
    refine ⟨?_, hhanded, ?_, hclosing, hshut⟩
    · simp [Conn.step, Conn.net, ← hread]
    · simp only [Conn.step, Conn.net]
      intro hr
      split <;> simp_all
  | iterate recvs sends => exact h.iterate recvs sends
  | pollRead len =>
    simp only [Conn.step, Conn.pollRead]
    split
    · exact h
    · exact ⟨by simpa using hread, hhanded, hended, hclosing, hshut⟩
  | pollWrite buf =>
    simp only [Conn.step, Conn.pollWrite]
    split_ifs with hnormal
    · exact h
    · exact h
    · exact ⟨hread, by simp [← hhanded], hended, by simp_all, hshut⟩
  | pollShutdown =>
    simp only [Conn.step, Conn.pollShutdown]
    split_ifs
    · exact h
    · exact ⟨hread, hhanded, hended, nofun, fun _ => nofun⟩
    · exact h
  | drop =>
    refine ⟨hread, hhanded, ?_, ?_, ?_⟩ <;> simp only [Conn.step, Conn.drop] <;> split <;> simp_all

theorem queued_new : Conn.new.Queued := ⟨rfl, rfl, nofun, nofun, nofun⟩

theorem queued_run (events : List Event) : (run (Conn.step S sendCap recvCap txCap) .new events).1.Queued :=
  run_inv_always (I := fun (c : Conn) _ => c.Queued) queued_new (fun _ _ e h => h.step e) events

/-! ## 4. What closing loses -/

structure Conn.Delivers (c : Conn) : Prop where
  read : c.recvState = .closed → c.read ++ c.recvBuffer = c.received
  handed : c.shutdown = true → c.sendState = .closing ∨ c.sendState = .closed → c.handed = c.accepted

/-- No iteration finds the socket closed with bytes still to be moved, and no `recv` fails. -/
def Conn.Spares (recvCap : Nat) (c : Conn) : Event → Prop
  | .iterate recvs _ =>
    if c.state = .closed then c.rx = [] ∧ (c.shutdown = true → c.sendBuffer = [])
    else c.recvState = .normal → (transfer (recvCap - c.recvBuffer.length) c.rx recvs).failed = false
  | _ => True

structure Conn.Drained (c : Conn) : Prop where
  rx : c.recvState = .closed → c.rx = []
  sendBuffer : c.shutdown = true → c.sendState = .closed → c.sendBuffer = []

theorem Conn.Queued.delivers_iff (h : c.Queued) : c.Delivers ↔ c.Drained := by
  have hread : c.read ++ c.recvBuffer = c.received ↔ c.rx = [] := by simp [← h.read]
  have hhanded : c.handed = c.accepted ↔ c.sendBuffer = [] := by simp [← h.handed]
  have hclosing := h.closing
  constructor
  · intro ⟨hr, hw⟩
    exact ⟨fun hc => hread.mp (hr hc), fun hs hc => hhanded.mp (hw hs (.inr hc))⟩
  · intro ⟨hr, hw⟩
    exact ⟨fun hc => hread.mpr (hr hc), fun hs hc => hhanded.mpr (hc.elim hclosing (hw hs))⟩

theorem recv_rx_iff (h : c.recvState = .closed → c.rx = []) (answers : List (Option Nat)) :
    ((c.recv recvCap answers).recvState = .closed → (c.recv recvCap answers).rx = []) ↔
      (c.recvState = .normal → (transfer (recvCap - c.recvBuffer.length) c.rx answers).failed = false) := by
  simp only [Conn.recv]
  constructor
  · intro hrest hnormal
    refine Bool.eq_false_iff.mpr fun hfailed => ?_
    exact transfer_failed hfailed (hrest (if_pos ⟨hfailed, hnormal⟩))
  · intro hkept hclosed
    split at hclosed
    · rename_i hfailed
      simp [hkept hfailed.2] at hfailed
    · rw [h hclosed, transfer_nil]

theorem send_drained_iff
    (hw : c.shutdown = true → c.sendState ≠ .normal ∧ (c.sendState = .closed → c.sendBuffer = []))
    (answers : List (Option Nat)) : ((c.closeRead S).send S txCap answers).Drained ↔ (c.recvState = .closed → c.rx = []) := by
  have hrx : ((c.closeRead S).recvState = .closed → (c.closeRead S).rx = []) ↔ (c.recvState = .closed → c.rx = []) := by
    have hwaiting := S.mayRecv_waiting c.state c.rx
    unfold Conn.closeRead
    grind
  have hwrite : (c.closeRead S).sendState = c.sendState ∧ (c.closeRead S).sendBuffer = c.sendBuffer ∧
      (c.closeRead S).shutdown = c.shutdown := by
    unfold Conn.closeRead
    split <;> exact ⟨rfl, rfl, rfl⟩
  rw [← hrx]
  generalize c.closeRead S = c' at *
  unfold Conn.send
  split
  · refine ⟨fun h => h.rx, fun h => ⟨h, ?_⟩⟩
    grind [transfer_nil]
  · exact ⟨fun h => h.rx, fun h => ⟨h, by grind⟩⟩

theorem iterate_drained_iff (h : c.Queued) (hd : c.Drained) (recvs sends : List (Option Nat)) :
    (c.iterate S recvCap txCap recvs sends).Drained ↔ c.Spares recvCap (.iterate recvs sends) := by
  simp only [Conn.Spares, Conn.iterate]
  split
  · exact ⟨fun ⟨hr, hw⟩ => ⟨hr rfl, fun hs => hw hs rfl⟩, fun ⟨hr, hw⟩ => ⟨fun _ => hr, fun hs _ => hw hs⟩⟩
  · have hw : (c.shutWr S).shutdown = true →
        (c.shutWr S).sendState ≠ .normal ∧ ((c.shutWr S).sendState = .closed → (c.shutWr S).sendBuffer = []) := by
      have hsend := hd.sendBuffer
      have hshut := h.shut
      unfold Conn.shutWr
      grind
    refine (send_drained_iff (c := (c.shutWr S).recv recvCap recvs) hw sends).trans ((recv_rx_iff ?_ recvs).trans ?_)
    · unfold Conn.shutWr
      split <;> exact hd.rx
    · unfold Conn.shutWr
      split <;> rfl

theorem step_drained_iff (h : c.Queued) (hd : c.Drained) (e : Event) :
    (c.step S sendCap recvCap txCap e).1.Drained ↔ c.Spares recvCap e := by
  have ⟨hr, hw⟩ := hd
  cases e with
  | iterate recvs sends => exact iterate_drained_iff h hd recvs sends
  | net bytes acked state =>
    refine iff_of_true ⟨fun hc => ?_, hw⟩ trivial
    simp [Conn.step, Conn.net, hr hc, h.ended hc]
  | pollRead len =>
    refine iff_of_true ?_ trivial
    simp only [Conn.step, Conn.pollRead]
    split
    · exact hd
    · exact ⟨hr, hw⟩
  | pollWrite buf =>
    refine iff_of_true ?_ trivial
    simp only [Conn.step, Conn.pollWrite]
    split_ifs with hnormal
    · exact hd
    · exact hd
    · exact ⟨hr, fun hs => absurd (not_not.mp hnormal) (h.shut hs)⟩
  | pollShutdown =>
    refine iff_of_true ?_ trivial
    simp only [Conn.step, Conn.pollShutdown]
    split_ifs
    · exact hd
    · exact ⟨hr, nofun⟩
    · exact hd
  | drop =>
    refine iff_of_true ⟨?_, ?_⟩ trivial <;> simp only [Conn.step, Conn.drop] <;> split <;> simp_all

/-- **The bridge.** Bytes go through in order; a half that is closed has delivered all of its bytes at every point of a
run exactly if the run spares them, and then the reader meets the end of file behind the last byte. -/
theorem bridge_delivers_iff (events : List Event) :
    let c := (run (Conn.step S sendCap recvCap txCap) .new events).1
    (c.read <+: c.received ∧ c.handed <+: c.accepted) ∧
      ((∀ front, front <+: events → (run (Conn.step S sendCap recvCap txCap) .new front).1.Delivers) ↔
        Along (Conn.step S sendCap recvCap txCap) (Conn.Spares recvCap) .new events) ∧
      ∀ (c : Conn) len, c.Delivers → (c.pollRead len).2 = .eof → c.read = c.received := by
  intro c
  have hqueued : c.Queued := queued_run events
  refine ⟨⟨⟨_, by rw [← append_assoc]; exact hqueued.read⟩, ⟨_, hqueued.handed⟩⟩, ?_, ?_⟩
  · rw [← always_iff (J := fun c : Conn => c.Queued ∧ c.Drained)
      (fun c e h => ⟨fun h' => (step_drained_iff h.1 h.2 e).mp h'.2,
        fun hs => ⟨h.1.step e, (step_drained_iff h.1 h.2 e).mpr hs⟩⟩)
      ⟨queued_new, ⟨nofun, nofun⟩⟩]
    exact forall_congr' fun front => forall_congr' fun _ =>
      ((queued_run front).delivers_iff).trans (and_iff_right (queued_run front)).symm
  · intro c len hc
    unfold Conn.pollRead
    split
    · rename_i hempty
      intro heof
      split at heof
      · rename_i hclosed
        simpa [hempty] using hc.read hclosed
      · cases heof
    · nofun

/-- The peer's last byte waits in the socket while the buffer of one byte is full, and the socket closes. -/
theorem last_byte_lost :
    let r := run (Conn.step .standard 1 1 1) .new [.net [] 0 .established, .net [1, 2] 0 .closeWait, .iterate [] [], .pollShutdown,
      .iterate [] [], .net [] 0 .closed, .iterate [] [], .pollRead 9, .pollRead 9]
    r.1.received = [1, 2] ∧ r.1.read = [1] ∧ r.2 = [.pending, .read [1], .eof] := by
  decide

end Shadowsocks.Local.Tun
