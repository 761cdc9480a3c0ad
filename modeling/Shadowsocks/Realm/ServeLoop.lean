/-
  Subject:   THE SERVING OF A CARRIER FROM ITS FIRST STREAM TO ITS END (`RealmServer::serve` of
  `crates/shadowsocks/src/realm.rs`). The accept loop is at the handshake of one stream until that is complete. A
  stream comes in with all that will ever arrive on it, and an event says when the loop gets that far.
-/
import Shadowsocks.Realm.Serve

namespace Shadowsocks.Realm.ServeLoop

open Lib Udp List
open Tcp (Incoming handshake)

/-! ## 1. The loops on a carrier -/

structure Loops where
  (streams datagrams : Bool)

/-- A carrier being served: streams that wait or were taken, the relay, and what is closed. -/
structure Carrier where
  backlog : List Incoming
  accepted : Nat
  relay : Relay
  closed : Bool

def Carrier.new : Carrier := ⟨[], 0, .new, false⟩

inductive Event where
  | opened (c : Incoming)
  | accept
  | datagram (now : Nat) (datagram : Bytes) (dial : Dial)
  | closed

inductive Output where
  | dialled (stream : Nat) (target : Address)
  | forward (target : Address) (payload : Bytes)
  deriving DecidableEq

def acceptNext (e : Entry) (s : Carrier) : Carrier × List Output :=
  match s.backlog with
  | [] => (s, [])
  | c :: rest =>
    match serveQuicOnly e s.relay c with
    | (relay, .dialled target) =>
      ({ s with backlog := rest, accepted := s.accepted + 1, relay := relay }, [.dialled s.accepted target])
    | (relay, _) => ({ s with relay := relay }, [])

/-- **One step of the serving.** `select!` ends both loops when one of them returns. -/
def step (e : Entry) (loops : Loops) (s : Carrier) : Event → Carrier × List Output
  | .opened c => ({ s with backlog := s.backlog ++ [c] }, [])
  | .accept => if loops.streams then acceptNext e s else (s, [])
  | .datagram now datagram dial =>
    if loops.datagrams then
      let (relay, forwarded) := serveUdpRelay e.relay now s.relay datagram 0 dial
      ({ s with relay := relay }, forwarded.toList.map fun x => .forward x.1 x.2)
    else (s, [])
  | .closed => ({ s with relay := { s.relay with running := false }, closed := true }, [])

def Loops.serve : Loops := ⟨true, true⟩

inductive Upgrade where
  | unbound
  | unaddressed
  | unmapped
  | mapped
  deriving DecidableEq

/-- **`RealmServer::serve_with_upgrade`**. -/
def Loops.serveWithUpgrade : Upgrade → Loops
  | .unbound => ⟨false, false⟩
  | .unaddressed => ⟨false, false⟩
  | .unmapped => ⟨true, false⟩
  | .mapped => ⟨true, true⟩

/-! ## 2. Served to the end -/

def Asks (e : Entry) (c : Incoming) (target : Address) : Prop :=
  handshake e.method e.config.key none c = .done target

/-- **The carrier is served** as long as it lives; a waiting stream is dialled in its turn, a datagram at once. -/
structure Serving (e : Entry) (s : Carrier) : Prop where
  running : s.closed = false → s.relay.running = true
  stream : s.closed = false → ∀ i c target, s.backlog[i]? = some c → Asks e c target →
    .dialled (s.accepted + i) target ∈ (run (step e .serve) s (replicate (i + 1) .accept)).2
  datagram : s.closed = false → ∀ now datagram dial target payload, datagram.length ≤ bufferSize →
    opened e now datagram = some (target, payload) → Reaches e.relay s.relay dial target →
      (step e .serve s (.datagram now datagram dial)).2 = [.forward target payload]

/-- What the loops can do with an event: a handshake is completed, a datagram gets a socket. -/
def Manageable (e : Entry) : Event → Prop
  | .opened c => ∃ target, Asks e c target
  | .datagram now datagram dial => (opened e now (datagram.take bufferSize)).isSome = true ∧ dial.bound = true
  | .accept => True
  | .closed => True

def Clear (e : Entry) (s : Carrier) : Prop :=
  s.closed = false → s.relay.running = true ∧ ∀ c ∈ s.backlog, ∃ target, Asks e c target

variable {e : Entry} {c : Incoming} {target : Address} {r : Relay}

theorem serveQuicOnly_asks (hrunning : r.running = true) (h : Asks e c target) :
    serveQuicOnly e r c = (r, .dialled target) := by
  rw [serveQuicOnly, if_pos hrunning, show handshake e.method e.config.key none c = .done target from h]

variable {s : Carrier}

theorem acceptNext_nil (e : Entry) (hbacklog : s.backlog = []) : acceptNext e s = (s, []) := by
  rw [acceptNext, hbacklog]

theorem acceptNext_closed (e : Entry) (s : Carrier) : (acceptNext e s).1.closed = s.closed := by
  unfold acceptNext
  split
  · rfl
  · split <;> rfl

variable {rest : List Incoming}

theorem acceptNext_asks (hrunning : s.relay.running = true) (hbacklog : s.backlog = c :: rest)
    (h : Asks e c target) :
    acceptNext e s = ({ s with backlog := rest, accepted := s.accepted + 1 }, [.dialled s.accepted target]) := by
  rw [acceptNext, hbacklog]
  dsimp only
  rw [serveQuicOnly_asks hrunning h]

theorem serveUdpRelay_running (hrunning : r.running = true) {now : Nat} {datagram : Bytes}
    (hopened : (opened e now (datagram.take bufferSize)).isSome = true) (sender : Nat) {dial : Dial}
    (hdial : dial.bound = true) : (serveUdpRelay e.relay now r datagram sender dial).1.running = true := by
  have hsame : decryptClientPayload e.relay.kind (Server.wallClock now) e.relay.key
        (datagram.take bufferSize) e.relay.users =
      decryptClientPayload e.config.kind (Server.wallClock now) e.config.key (datagram.take bufferSize)
        e.config.users := rfl
  unfold opened at hopened
  rw [serveUdpRelay, if_pos hrunning, hsame]
  cases hdecrypted : decryptClientPayload e.config.kind (Server.wallClock now) e.config.key
      (datagram.take bufferSize) e.config.users with
  | err err | panic => simp [hdecrypted] at hopened
  | ok x =>
    dsimp only
    cases r.pump (e.relay.showAddress x.2.1) with
    | some p => exact hrunning
    | none =>
      cases resolveTarget dial x.2.1 with
      | none => exact hrunning
      | some addr =>
        simp only [hdial, Bool.not_true, Bool.false_eq_true, if_false]
        split <;> exact hrunning

theorem step_datagram (e : Entry) (s : Carrier) (now : Nat) (datagram : Bytes) (dial : Dial) :
    step e .serve s (.datagram now datagram dial) =
      ({ s with relay := (serveUdpRelay e.relay now s.relay datagram 0 dial).1 },
        (serveUdpRelay e.relay now s.relay datagram 0 dial).2.toList.map fun x => .forward x.1 x.2) := rfl

theorem step_clear (h : Clear e s) {event : Event} (hevent : Manageable e event) :
    Clear e (step e .serve s event).1 := by
  intro hclosed
  cases event with
  | opened c =>
    obtain ⟨hrunning, hall⟩ := h hclosed
    refine ⟨hrunning, fun d hd => ?_⟩
    rcases mem_concat.mp hd with hd | rfl
    · exact hall d hd
    · exact hevent
  | accept =>
    obtain ⟨hrunning, hall⟩ := h (acceptNext_closed e s ▸ hclosed)
    change (acceptNext e s).1.relay.running = true ∧ ∀ c ∈ (acceptNext e s).1.backlog, _
    cases hbacklog : s.backlog with
    | nil =>
      rw [acceptNext_nil e hbacklog]
      exact ⟨hrunning, hall⟩
    | cons c rest =>
      rw [hbacklog] at hall
      obtain ⟨target, hasks⟩ := hall c (mem_cons_self ..)
      rw [acceptNext_asks hrunning hbacklog hasks]
      exact ⟨hrunning, fun d hd => hall d (mem_cons_of_mem c hd)⟩
  | datagram now datagram dial =>
    obtain ⟨hrunning, hall⟩ := h hclosed
    exact ⟨serveUdpRelay_running hrunning hevent.1 0 hevent.2, hall⟩
  | closed => cases hclosed

theorem run_clear {events : List Event} (h : ∀ event ∈ events, Manageable e event) :
    Clear e (run (step e .serve) .new events).1 :=
  run_inv_inputs (I := fun _ s _ => Clear e s) (fun _ => ⟨rfl, forall_mem_nil _⟩) events
    fun front event hfront _ _ hclear =>
      step_clear hclear (h event (hfront.subset (mem_append_right front (mem_singleton_self event))))

theorem accepts_dial (hasks : Asks e c target) {i : Nat} (hrunning : s.relay.running = true)
    (hall : ∀ d ∈ s.backlog, ∃ target, Asks e d target) (hget : s.backlog[i]? = some c) :
    .dialled (s.accepted + i) target ∈ (run (step e .serve) s (replicate (i + 1) .accept)).2 := by
  -- by induction on the streams before it: each of them is taken by one round
  induction i generalizing s with
  | zero =>
    cases hbacklog : s.backlog with
    | nil => simp [hbacklog] at hget
    | cons d rest =>
      obtain rfl : d = c := by simpa [hbacklog] using hget
      have hstep := acceptNext_asks hrunning hbacklog hasks
      simp only [replicate, run, step, Loops.serve, if_true, hstep, append_nil, add_zero, mem_singleton]
  | succ i ih =>
    cases hbacklog : s.backlog with
    | nil => simp [hbacklog] at hget
    | cons d rest =>
      rw [hbacklog] at hall hget
      obtain ⟨first, hfirst⟩ := hall d (mem_cons_self ..)
      have hstep := acceptNext_asks hrunning hbacklog hfirst
      have hlater := ih (s := { s with backlog := rest, accepted := s.accepted + 1 }) hrunning
        (fun d' hd => hall d' (mem_cons_of_mem d hd)) hget
      refine mem_append_right _ ?_
      have hnext : (step e .serve s .accept).1 =
          { s with backlog := rest, accepted := s.accepted + 1 } := congrArg Prod.fst hstep
      rwa [hnext, show s.accepted + (i + 1) = s.accepted + 1 + i by omega]

/-- **A carrier whose handshakes are completed and whose datagrams decrypt and get a socket is
served to its end.** -/
theorem serve_keeps_serving (e : Entry) (events : List Event)
    (h : ∀ event ∈ events, Manageable e event) : Serving e (run (step e .serve) .new events).1 where
  running hclosed := (run_clear h hclosed).1
  stream hclosed i c target hget hasks :=
    accepts_dial hasks (run_clear h hclosed).1 (run_clear h hclosed).2 hget
  datagram hclosed now datagram dial target payload hlen hopened hreaches := by
    have hforwarded := (serveUdpRelay_forwards e (run_clear h hclosed).1 now hlen 0 dial target payload).mpr
      ⟨hopened, hreaches⟩
    rw [step_datagram, hforwarded]
    rfl

theorem firstPacket_asks : Asks (strictEntry none) (firstPacket (keyOf 9) []) someTarget := by
  show handshake (strictEntry none).method (strictEntry none).config.key none (firstPacket (keyOf 9) []) =
    .done someTarget
  decide +kernel

def goodEvents : List Event :=
  [.opened (firstPacket (keyOf 9) []), .datagram (100 * nanos) (someRequest (keyOf 9) [] 3 1) .connected]

theorem goodEvents_manageable : ∀ event ∈ goodEvents, Manageable (strictEntry none) event := by
  intro event hmem
  rcases mem_cons.mp hmem with rfl | hmem
  · exact ⟨someTarget, firstPacket_asks⟩
  · rw [mem_singleton.mp hmem]
    exact ⟨by decide +kernel, rfl⟩

theorem serve_keeps_serving_good : (∀ event ∈ goodEvents, Manageable (strictEntry none) event) ∧
      Serving (strictEntry none) (run (step (strictEntry none) .serve) .new goodEvents).1 :=
  ⟨goodEvents_manageable, serve_keeps_serving (strictEntry none) goodEvents goodEvents_manageable⟩

def stream (sock : ReadSock) : Incoming :=
  ⟨keyOf 3, sock, Tcp.V2.emptyContext, replicate 8 ⟨0, 0, Tcp.V2.emptyContext⟩⟩

def silence : ReadSock := replicate 8 .pending

theorem accepts_stall (hbacklog : s.backlog = c :: rest)
    (hwaiting : handshake e.method e.config.key none c = .waiting) (n : Nat) :
    run (step e .serve) s (replicate n .accept) = (s, []) := by
  have hround : step e .serve s .accept = (s, []) := by
    show acceptNext e s = (s, [])
    unfold acceptNext serveQuicOnly
    rw [hbacklog]
    dsimp only
    rw [hwaiting]
    by_cases hrunning : s.relay.running = true
    · rw [if_pos hrunning, ← hbacklog]
    · rw [if_neg hrunning, ← hbacklog]
  induction n with
  | zero => rfl
  | succ n ih => rw [replicate_succ, run, hround, ih, append_nil]

/-- **One bad or silent stream or one bad datagram is enough**: the serving ends, or the next stream
is never taken. -/
theorem serve_gives_up : ¬ Serving (strictEntry none) (run (step (strictEntry none) .serve) .new
        [.opened (stream [.data (replicate 60 1)]), .opened (firstPacket (keyOf 9) []), .accept]).1 ∧
      (∀ n, (run (step (strictEntry none) .serve) .new
        (.opened (stream silence) :: .opened (firstPacket (keyOf 9) []) :: replicate n .accept)).2 = []) ∧
      ¬ Serving (strictEntry none) (run (step (strictEntry none) .serve) .new
        [.opened (stream silence), .opened (firstPacket (keyOf 9) [])]).1 ∧
      ¬ Serving (strictEntry none) (run (step (strictEntry none) .serve) .new
        [.datagram (100 * nanos) [1, 2, 3] .connected]).1 := by
  refine ⟨fun h => ?_, fun n => ?_, fun h => ?_, fun h => ?_⟩
  · exact absurd (h.running (by decide +kernel)) (by decide +kernel)
  · exact congrArg Prod.snd (accepts_stall (s := ⟨[stream silence, firstPacket (keyOf 9) []], 0, .new, false⟩) rfl
      (by decide +kernel) n)
  · exact absurd (h.stream rfl 1 (firstPacket (keyOf 9) []) someTarget rfl firstPacket_asks)
      (by decide +kernel)
  · exact absurd (h.running (by decide +kernel)) (by decide +kernel)

/-! ## 3. Staying on QUIC -/

def Carrier.Receives (s : Carrier) : Event → Prop
  | .datagram _ _ _ => s.relay.running = true
  | _ => False

instance (s : Carrier) (event : Event) : Decidable (s.Receives event) :=
  match event with
  | .datagram _ _ _ => inferInstanceAs (Decidable (s.relay.running = true))
  | .opened _ => isFalse not_false
  | .accept => isFalse not_false
  | .closed => isFalse not_false

theorem serveUdpRelay_stopped (cfg : Config) (now : Nat) (h : r.running = false) (datagram : Bytes)
    (sender : Nat) (dial : Dial) : serveUdpRelay cfg now r datagram sender dial = (r, none) := by
  rw [serveUdpRelay, h]
  rfl

theorem step_unmapped (e : Entry) {event : Event} (h : ¬ s.Receives event) :
    step e (.serveWithUpgrade .unmapped) s event = step e .serve s event := by
  cases event with
  | opened c | accept | closed => rfl
  | datagram now datagram dial =>
    have hstopped : s.relay.running = false := Bool.eq_false_iff.mpr h
    rw [step_datagram, serveUdpRelay_stopped e.relay now hstopped]
    rfl

/-- **Without a port mapping the client is served as by `serve`, while the listener is bound and no datagram
arrives.** -/
theorem upgrade_falls_back (e : Entry) (u : Upgrade) (hfailed : u ≠ .mapped)
    (hbound : u ≠ .unbound ∧ u ≠ .unaddressed) (events : List Event)
    (h : Along (step e (.serveWithUpgrade u)) (fun s event => ¬ s.Receives event) .new events) :
    run (step e (.serveWithUpgrade u)) .new events = run (step e .serve) .new events := by
  obtain rfl : u = .unmapped := by
    cases u with
    | unbound => exact absurd rfl hbound.1
    | unaddressed => exact absurd rfl hbound.2
    | unmapped => rfl
    | mapped => exact absurd rfl hfailed
  generalize Carrier.new = s at h ⊢
  induction events generalizing s with
  | nil => rfl
  | cons event events ih =>
    rw [run, run, ← step_unmapped e h.1]
    rw [ih _ h.2]

def oneStream : List Event := [.opened (firstPacket (keyOf 9) []), .accept]

theorem upgrade_falls_back_stream :
    Along (step (strictEntry none) (.serveWithUpgrade .unmapped)) (fun s event => ¬ s.Receives event) .new oneStream ∧
      run (step (strictEntry none) (.serveWithUpgrade .unmapped)) .new oneStream =
        run (step (strictEntry none) .serve) .new oneStream ∧
      (run (step (strictEntry none) .serve) .new oneStream).2 = [.dialled 0 someTarget] :=
  have h : Along (step (strictEntry none) (.serveWithUpgrade .unmapped)) (fun s event => ¬ s.Receives event)
      .new oneStream := ⟨not_false, not_false, trivial⟩
  ⟨h, upgrade_falls_back (strictEntry none) .unmapped (by decide) (by decide) oneStream h, by decide +kernel⟩

/-- **Without a port mapping no datagram is relayed, and without a listener nothing is served**: `serve`
    relays both. -/
theorem upgrade_drops : (run (step (strictEntry none) (.serveWithUpgrade .unmapped)) .new
        [.datagram (100 * nanos) (someRequest (keyOf 9) [] 3 1) .connected]).2 = [] ∧
      (run (step (strictEntry none) .serve) .new
        [.datagram (100 * nanos) (someRequest (keyOf 9) [] 3 1) .connected]).2 = [.forward someTarget [7]] ∧
      (run (step (strictEntry none) (.serveWithUpgrade .unbound)) .new oneStream).2 = [] ∧
      (run (step (strictEntry none) .serve) .new oneStream).2 = [.dialled 0 someTarget] := by
  refine ⟨?_, ?_, ?_, ?_⟩ <;> decide +kernel

end Shadowsocks.Realm.ServeLoop
