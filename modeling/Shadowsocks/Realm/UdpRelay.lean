/-
  Subject:   UDP OVER A REALM, THE SERVER'S SIDE (`serve_udp_relay` of `crates/shadowsocks/src/realm.rs`): a loop
  that forwards the client's datagrams through one socket for each target, and for each socket a pump that sends the
  replies back. Which request a reply answers is kept for the statements.
-/
import Shadowsocks.Server.UdpRelay

namespace Shadowsocks.Realm

open Lib Udp List
open Server (wallClock)

/-! ## 1. One carrier -/

structure Config where
  kind : CipherKind
  key : Bytes
  users : Option ServerUserManager
  showSocketAddr : SocketAddr → String

def Config.showAddress (cfg : Config) : Address → String
  | .socketAddress addr => cfg.showSocketAddr addr
  | .domainNameAddress name port => name ++ ":" ++ toString port.toNat

structure Request where
  control : Option UdpSocketControlData
  sender : Nat
  deriving DecidableEq

structure Pump where
  replyAddr : Address
  running : Bool
  forwarded : List Request
  deriving DecidableEq

structure Relay where
  assoc : List (String × Pump)
  running : Bool
  deriving DecidableEq

def Relay.new : Relay := ⟨[], true⟩

def Relay.pump (r : Relay) (key : String) : Option Pump := r.assoc.lookup key

def Relay.modify (r : Relay) (key : String) (f : Pump → Pump) : Relay :=
  { r with assoc := r.assoc.map fun x => if x.1 = key then (x.1, f x.2) else x }

/-- What the system answers to a dial. -/
structure Dial where
  lookup : Option SocketAddr
  (bound connects : Bool)

def Dial.connected : Dial := ⟨some (.v4 ⟨9, 53⟩), true, true⟩

def resolveTarget (dial : Dial) : Address → Option SocketAddr
  | .socketAddress addr => some addr
  | .domainNameAddress _ _ => dial.lookup

/-- The socket is an IPv4 one: it connects to no IPv6 address. -/
def Dial.connect (dial : Dial) (addr : SocketAddr) : Bool := Server.SocketAddr.isV4 addr && dial.connects

def bufferSize : Nat := 64 * 1024

/-- **A round of `serve_udp_relay`**. What cannot be decrypted or bound ends the loop. -/
def serveUdpRelay (cfg : Config) (now : Nat) (r : Relay) (datagram : Bytes) (sender : Nat) (dial : Dial) :
    Relay × Option (Address × Bytes) :=
  if r.running then
    match decryptClientPayload cfg.kind (wallClock now) cfg.key (datagram.take bufferSize) cfg.users with
    | .err _ => ({ r with running := false }, none)
    | .panic => ({ r with running := false }, none)
    | .ok (payload, target, control) =>
      let key := cfg.showAddress target
      match r.pump key, resolveTarget dial target with
      | some _, _ =>
        (r.modify key fun p => { p with forwarded := p.forwarded ++ [⟨control, sender⟩] }, some (target, payload))
      | none, none => (r, none)
      | none, some addr =>
        if !dial.bound then ({ r with running := false }, none)
        else if dial.connect addr then
          ({ r with assoc := (key, ⟨target, true, [⟨control, sender⟩]⟩) :: r.assoc }, some (target, payload))
        else (r, none)
  else (r, none)

def defaultSocketControl : UdpSocketControlData := ⟨0, 0, 0, none⟩

/-- A datagram for the client, and the request it answers, if any. -/
structure Datagram where
  key : Bytes
  control : UdpSocketControlData
  packet : Bytes
  answers : Option Request

/-- **A round of a reply pump**: a packet of the target. One that cannot be sent ends it. -/
def replyPump (cfg : Config) (r : Relay) (key : String) (data : Bytes) (answers : Nat)
    (env : cfg.kind.Env) (sent : Bool) : Relay × Option Datagram :=
  match r.pump key with
  | none => (r, none)
  | some p =>
    if p.running then
      let control := defaultSocketControl
      match encryptServerPayload (ε := Empty) cfg.kind env (serverKeyFor cfg.key control) p.replyAddr control
          data, sent with
      | .ok packet, true =>
        (r, some ⟨serverKeyFor cfg.key control, control, packet, p.forwarded[answers]?⟩)
      | _, _ => (r.modify key fun p => { p with running := false }, none)
    else (r, none)

/-! ## 2. The server -/

structure RealmServer where
  now : Nat
  relays : List Relay
  sent : Nat

def RealmServer.start (now : Nat) : RealmServer := ⟨now, [], 0⟩

inductive Event (K : CipherKind) where
  | elapse (duration : Nat)
  | connected
  | datagram (carrier : Nat) (datagram : Bytes) (dial : Dial)
  | reply (carrier : Nat) (key : String) (data : Bytes) (answers : Nat) (env : K.Env) (sent : Bool)
  | targetError (carrier : Nat) (key : String)
  | ended (carrier : Nat)

inductive Output where
  | forward (carrier : Nat) (target : Address) (payload : Bytes)
  | datagram (carrier : Nat) (datagram : Datagram)

def step (cfg : Config) (s : RealmServer) (e : Event cfg.kind) : RealmServer × List Output :=
  match e with
  | .elapse duration => ({ s with now := s.now + duration }, [])
  | .connected => ({ s with relays := s.relays ++ [.new] }, [])
  | .datagram carrier datagram dial =>
    match s.relays[carrier]? with
    | none => (s, [])
    | some r =>
      let (r, forwarded) := serveUdpRelay cfg s.now r datagram carrier dial
      ({ s with relays := s.relays.set carrier r }, forwarded.toList.map fun x => .forward carrier x.1 x.2)
  | .reply carrier key data answers env sent =>
    match s.relays[carrier]? with
    | none => (s, [])
    | some r =>
      let (r, datagram) := replyPump cfg r key data answers env sent
      ({ s with relays := s.relays.set carrier r, sent := s.sent + datagram.toList.length },
        datagram.toList.map (.datagram carrier))
  | .targetError carrier key =>
    ({ s with relays := s.relays.modify carrier fun r => r.modify key fun p => { p with running := false } }, [])
  | .ended carrier =>
    ({ s with relays := s.relays.modify carrier fun r => { r with running := false } }, [])

def datagrams (log : List Output) : List Datagram :=
  log.filterMap fun
    | .datagram _ d => some d
    | _ => none

theorem datagrams_append (log log' : List Output) : datagrams (log ++ log') = datagrams log ++ datagrams log' :=
  filterMap_append

theorem datagrams_forward (carrier : Nat) (forwarded : Option (Address × Bytes)) :
    datagrams (forwarded.toList.map fun x => .forward carrier x.1 x.2) = [] := by
  cases forwarded with
  | none | some x => rfl

/-! ## 3. What a step can send -/

structure PumpAt (s : RealmServer) (carrier : Nat) (key : String) (p : Pump) : Prop where
  relay : ∃ r ∈ s.relays[carrier]?, r.pump key = some p
  running : p.running = true

def Pump.answer (cfg : Config) (p : Pump) (answers : Nat) (packet : Bytes) : Datagram :=
  ⟨cfg.key, defaultSocketControl, packet, p.forwarded[answers]?⟩

/-- **What a step sends**: nothing, or the one datagram of a running pump. -/
inductive Moved (cfg : Config) (s : RealmServer) (e : Event cfg.kind) (s' : RealmServer) :
    List Datagram → Prop
  | quiet (hsent : s'.sent = s.sent) : Moved cfg s e s' []
  | sent (carrier : Nat) (key : String) (data : Bytes) (answers : Nat) (env : cfg.kind.Env) (p : Pump)
      (packet : Bytes) (he : e = .reply carrier key data answers env true) (hp : PumpAt s carrier key p)
      (hpacket : encryptServerPayload (ε := Empty) cfg.kind env cfg.key p.replyAddr defaultSocketControl data
        = .ok packet)
      (hsent : s'.sent = s.sent + 1) : Moved cfg s e s' [p.answer cfg answers packet]

theorem replyPump_sends (cfg : Config) (r : Relay) (key : String) (data : Bytes) (answers : Nat)
    (env : cfg.kind.Env) (sent : Bool) : (replyPump cfg r key data answers env sent).2 = none ∨
      sent = true ∧ ∃ p packet, r.pump key = some p ∧ p.running = true ∧
        encryptServerPayload (ε := Empty) cfg.kind env cfg.key p.replyAddr defaultSocketControl data
          = .ok packet ∧
        (replyPump cfg r key data answers env sent).2 = some (p.answer cfg answers packet) := by
  unfold replyPump
  split
  · exact .inl rfl
  rename_i p hp
  split
  · rename_i hrun
    dsimp only
    split
    · rename_i packet hpacket
      exact .inr ⟨rfl, p, packet, hp, hrun, hpacket, rfl⟩
    · exact .inl rfl
  · exact .inl rfl

theorem step_moved (cfg : Config) (s : RealmServer) (e : Event cfg.kind) :
    Moved cfg s e (step cfg s e).1 (datagrams (step cfg s e).2) := by
  cases e with
  | elapse duration | connected | targetError carrier key | ended carrier => exact .quiet rfl
  | datagram carrier datagram dial =>
    unfold step
    dsimp only
    split
    · exact .quiet rfl
    · rw [datagrams_forward]
      exact .quiet rfl
  | reply carrier key data answers env sent =>
    unfold step
    dsimp only
    split
    · exact .quiet rfl
    rename_i r hr
    rcases replyPump_sends cfg r key data answers env sent with hnone |
      ⟨rfl, p, packet, hp, hrun, hpacket, hsome⟩
    · rw [hnone]
      exact .quiet rfl
    · rw [hsome]
      exact .sent carrier key data answers env p packet rfl ⟨⟨r, hr, hp⟩, hrun⟩ hpacket rfl

/-! ## 4. Whose requests a socket carries -/

def Relay.SentBy (P : Nat → Prop) (r : Relay) : Prop :=
  ∀ x ∈ r.assoc, ∀ q ∈ x.2.forwarded, P q.sender

section
variable {P : Nat → Prop} {r : Relay} {key : String}

theorem Relay.SentBy.mono {Q : Nat → Prop} (h : r.SentBy P) (hpq : ∀ i, P i → Q i) : r.SentBy Q :=
  fun x hx q hq => hpq _ (h x hx q hq)

theorem Relay.SentBy.pump {p : Pump} (h : r.SentBy P) (hp : r.pump key = some p) : ∀ q ∈ p.forwarded, P q.sender := by
  obtain ⟨front, rest, heq, -⟩ := lookup_eq_some_iff.mp hp
  exact h (key, p) (by rw [heq]; simp)

theorem Relay.SentBy.modify {f : Pump → Pump} (h : r.SentBy P)
    (hf : ∀ p, ∀ q ∈ (f p).forwarded, q ∈ p.forwarded ∨ P q.sender) : (r.modify key f).SentBy P := by
  intro x hx q hq
  obtain ⟨y, hy, rfl⟩ := mem_map.mp hx
  split at hq
  · rcases hf y.2 q hq with hold | hnew
    · exact h y hy q hold
    · exact hnew
  · exact h y hy q hq

theorem serveUdpRelay_sentBy (h : r.SentBy P) {sender : Nat} (hsender : P sender) (cfg : Config) (now : Nat)
    (datagram : Bytes) (dial : Dial) : (serveUdpRelay cfg now r datagram sender dial).1.SentBy P := by
  unfold serveUdpRelay
  split
  · split
    · exact h
    · exact h
    dsimp only
    split
    · refine h.modify fun p q hq => ?_
      rcases mem_concat.mp hq with hold | rfl
      · exact .inl hold
      · exact .inr hsender
    · exact h
    split
    · exact h
    split
    · intro x hx q hq
      rcases mem_cons.mp hx with rfl | hx
      · obtain rfl := mem_singleton.mp hq
        exact hsender
      · exact h x hx q hq
    · exact h
  · exact h

theorem replyPump_sentBy (h : r.SentBy P) (cfg : Config) (data : Bytes) (answers : Nat)
    (env : cfg.kind.Env) (sent : Bool) : (replyPump cfg r key data answers env sent).1.SentBy P := by
  unfold replyPump
  split
  · exact h
  split
  · dsimp only
    split
    · exact h
    · exact h.modify fun p q hq => .inl hq
  · exact h

end

/-! ## 5. The ids of the replies -/

def SameIds (d d' : Datagram) : Prop :=
  d.key = d'.key ∧ d.control.serverSessionId = d'.control.serverSessionId ∧ d.control.packetId = d'.control.packetId

/-- A datagram fits the request it answers: it names its session and is encrypted for its user. -/
structure FitsRequest (cfg : Config) (d : Datagram) (request : UdpSocketControlData) : Prop where
  session : d.control.clientSessionId = request.clientSessionId
  user : d.key = serverKeyFor cfg.key request

/-- **The datagrams as they should be**: no two with the same ids under one key, and each fits its
request. -/
structure RepliesFit (cfg : Config) (ds : List Datagram) : Prop where
  unique : ds.Pairwise fun d d' => ¬ SameIds d d'
  fits : ∀ d ∈ ds, ∀ r ∈ d.answers, ∀ request ∈ r.control, FitsRequest cfg d request

structure Nameless (cfg : Config) (request : UdpSocketControlData) : Prop where
  session : request.clientSessionId = 0
  user : serverKeyFor cfg.key request = cfg.key

structure Defaulted (cfg : Config) (d : Datagram) : Prop where
  key : d.key = cfg.key
  control : d.control = defaultSocketControl
  sealed : ∃ env addr data, encryptServerPayload (ε := Empty) cfg.kind env d.key addr d.control data = .ok d.packet

variable {cfg : Config}

theorem Defaulted.fitsRequest_iff {d : Datagram} (h : Defaulted cfg d) (request : UdpSocketControlData) :
    FitsRequest cfg d request ↔ Nameless cfg request := by
  constructor
  · rintro ⟨hsession, huser⟩
    rw [h.control] at hsession
    rw [h.key] at huser
    exact ⟨hsession.symm, huser.symm⟩
  rintro ⟨hsession, huser⟩
  refine ⟨?_, ?_⟩
  · rw [h.control]
    exact hsession.symm
  · rw [h.key]
    exact huser.symm

theorem Defaulted.sameIds {d d' : Datagram} (h : Defaulted cfg d) (h' : Defaulted cfg d') : SameIds d d' := by
  refine ⟨?_, ?_, ?_⟩
  · rw [h.key, h'.key]
  · rw [h.control, h'.control]
  · rw [h.control, h'.control]

theorem step_defaulted (cfg : Config) (s : RealmServer) (e : Event cfg.kind) :
    ∀ d ∈ datagrams (step cfg s e).2, Defaulted cfg d := by
  intro d hd
  have hmoved := step_moved cfg s e
  revert hmoved hd
  generalize datagrams (step cfg s e).2 = ds
  intro hd hmoved
  cases hmoved with
  | quiet hsent => cases hd
  | sent carrier key data answers env p packet he hp hpacket hsent =>
    obtain rfl := mem_singleton.mp hd
    exact ⟨rfl, rfl, env, p.replyAddr, data, hpacket⟩

theorem run_defaulted (cfg : Config) (s : RealmServer) (es : List (Event cfg.kind)) :
    ∀ d ∈ datagrams (run (step cfg) s es).2, Defaulted cfg d := by
  refine run_inv_always (I := fun _ log => ∀ d ∈ datagrams log, Defaulted cfg d) nofun ?_ es
  intro s log e ih d hd
  rw [datagrams_append, mem_append] at hd
  rcases hd with hd | hd
  · exact ih d hd
  · exact step_defaulted cfg s e d hd

def AnswersNameless (cfg : Config) (ds : List Datagram) : Prop :=
  ∀ d ∈ ds, ∀ r ∈ d.answers, ∀ request ∈ r.control, Nameless cfg request

variable {ds : List Datagram}

theorem repliesFit_iff (h : ∀ d ∈ ds, Defaulted cfg d) :
    RepliesFit cfg ds ↔ ds.length ≤ 1 ∧ AnswersNameless cfg ds := by
  have hfits : (∀ d ∈ ds, ∀ r ∈ d.answers, ∀ request ∈ r.control, FitsRequest cfg d request) ↔
      AnswersNameless cfg ds :=
    forall₂_congr fun d hd => forall₄_congr fun _ _ request _ => (h d hd).fitsRequest_iff request
  constructor
  · rintro ⟨hunique, hall⟩
    refine ⟨?_, hfits.mp hall⟩
    match ds, h, hunique with
    | [], _, _ => exact Nat.zero_le 1
    | [d], _, _ => exact Nat.le_refl 1
    | d :: d' :: rest, h, hunique =>
      have hsame : SameIds d d' := (h d (by simp)).sameIds (h d' (by simp))
      exact absurd hsame ((pairwise_cons.mp hunique).1 d' (by simp))
  rintro ⟨hone, hall⟩
  refine ⟨?_, hfits.mpr hall⟩
  match ds, hone with
  | [], _ => exact .nil
  | [d], _ => exact pairwise_singleton _ d

/-- A reply sent is the server's first, for a request without a session and a user with a key of its own. -/
def Lone (cfg : Config) (s : RealmServer) : Event cfg.kind → Prop
  | .reply carrier key _ answers _ true =>
    ∀ p, PumpAt s carrier key p →
      s.sent = 0 ∧ ∀ r ∈ p.forwarded[answers]?, ∀ request ∈ r.control, Nameless cfg request
  | _ => True

structure Sparing (cfg : Config) (s : RealmServer) (ds : List Datagram) : Prop where
  count : ds.length = s.sent
  one : s.sent ≤ 1
  nameless : AnswersNameless cfg ds

theorem Sparing.step {s : RealmServer} (h : Sparing cfg s ds) (e : Event cfg.kind)
    (hlone : Lone cfg s e) : Sparing cfg (step cfg s e).1 (ds ++ datagrams (Realm.step cfg s e).2) := by
  have hmoved := step_moved cfg s e
  revert hmoved
  generalize datagrams (Realm.step cfg s e).2 = sent
  intro hmoved
  cases hmoved with
  | quiet hsent =>
    rw [append_nil]
    exact ⟨h.count.trans hsent.symm, hsent ▸ h.one, h.nameless⟩
  | sent carrier key data answers env p packet he hp hpacket hsent =>
    subst he
    obtain ⟨hfirst, hnameless⟩ := hlone p hp
    have hnone : ds = [] := length_eq_zero_iff.mp (h.count.trans hfirst)
    subst hnone
    refine ⟨?_, ?_, ?_⟩
    · rw [hsent, hfirst]
      rfl
    · rw [hsent, hfirst]
    · intro d hd
      obtain rfl := mem_singleton.mp hd
      exact hnameless

/-- **As long as the server sends one reply at most, for a request without session and user**, ids are unique and
replies fit. -/
theorem replies_fit (cfg : Config) (now : Nat) (es : List (Event cfg.kind))
    (h : Along (step cfg) (Lone cfg) (.start now) es) :
    RepliesFit cfg (datagrams (run (step cfg) (.start now) es).2) := by
  have hsparing := run_inv (I := fun s log => Sparing cfg s (datagrams log)) (s := .start now)
    ⟨rfl, Nat.zero_le 1, nofun⟩ (fun s log e ih hlone => by
      rw [datagrams_append]
      exact ih.step e hlone) h
  refine (repliesFit_iff (run_defaulted cfg (.start now) es)).mpr ⟨?_, hsparing.nameless⟩
  exact hsparing.count ▸ hsparing.one

def someEntry (users : Option ServerUserManager) : Config :=
  ⟨.aead2022 taggedMethod, keyOf 9, users, fun _ => "address"⟩

def someTarget : Address := .domainNameAddress "t" 53

def someRequest (key : Bytes) (identityKeys : List Bytes) (clientSessionId packetId : UInt64) : Bytes :=
  match encryptClientPayload (ε := Empty) (.aead2022 taggedMethod) env₀ key someTarget
      ⟨clientSessionId, 0, packetId, none⟩ identityKeys [7] with
  | .ok packet => packet
  | _ => []

def oneReply : List (Event (.aead2022 taggedMethod)) :=
  [.connected, .datagram 0 (someRequest (keyOf 9) [] 0 1) .connected, .reply 0 "t:53" [8] 0 env₀ true]

theorem replies_fit_one : Along (step (someEntry none)) (Lone (someEntry none)) (.start (100 * nanos)) oneReply ∧
      RepliesFit (someEntry none) (datagrams (run (step (someEntry none)) (.start (100 * nanos)) oneReply).2) := by
  have halong : Along (step (someEntry none)) (Lone (someEntry none)) (.start (100 * nanos))
      oneReply := by
    refine ⟨trivial, trivial, ?_, trivial⟩
    rintro p ⟨⟨r, hr, hp⟩, hrun⟩
    refine ⟨by decide +kernel, fun q hq request hrequest => ?_⟩
    have hat : (run (step (someEntry none)) (.start (100 * nanos)) (oneReply.take 2)).1.relays[0]? =
        some ⟨[("t:53", ⟨someTarget, true, [⟨some ⟨0, 0, 1, none⟩, 0⟩]⟩)], true⟩ := by decide +kernel
    obtain rfl := Option.some.inj (hat.symm.trans hr)
    obtain rfl := Option.some.inj hp
    obtain rfl := Option.some.inj hq
    obtain rfl := Option.some.inj hrequest
    exact ⟨rfl, rfl⟩
  exact ⟨halong, replies_fit (someEntry none) (100 * nanos) oneReply halong⟩

def twoReplies : List (Event (.aead2022 taggedMethod)) :=
  [.connected, .datagram 0 (someRequest (keyOf 1) [keyOf 9] 3 1) .connected,
    .datagram 0 (someRequest (keyOf 1) [keyOf 9] 3 2) .connected, .reply 0 "t:53" [8] 0 env₀ true,
    .reply 0 "t:53" [9] 1 env₀ true]

def sentToUser : List Datagram :=
  datagrams (run (step (someEntry (some ⟨[someUser]⟩))) (.start (100 * nanos)) twoReplies).2

/-- **A user's replies** both carry the ids 0 and 0 under the server's key and name session 0, for
requests of session 3. -/
theorem replies_unfit : sentToUser.map (fun d => (d.key, d.control, d.answers.bind Request.control)) =
      [(keyOf 9, ⟨0, 0, 0, none⟩, some ⟨3, 0, 1, some someUser⟩),
        (keyOf 9, ⟨0, 0, 0, none⟩, some ⟨3, 0, 2, some someUser⟩)] ∧
    ¬ RepliesFit (someEntry (some ⟨[someUser]⟩)) sentToUser := by
  have hids : sentToUser.map (fun d => (d.key, d.control, d.answers.bind Request.control)) =
      [(keyOf 9, ⟨0, 0, 0, none⟩, some ⟨3, 0, 1, some someUser⟩),
        (keyOf 9, ⟨0, 0, 0, none⟩, some ⟨3, 0, 2, some someUser⟩)] := by decide +kernel
  refine ⟨hids, fun h => ?_⟩
  have hdefaulted : ∀ d ∈ sentToUser, Defaulted (someEntry (some ⟨[someUser]⟩)) d :=
    run_defaulted (someEntry (some ⟨[someUser]⟩)) (.start (100 * nanos)) twoReplies
  have hone : sentToUser.length ≤ 1 := ((repliesFit_iff hdefaulted).mp h).1
  have htwo : sentToUser.length = 2 := by
    rfl
  omega

/-! ## 6. The pumps of the targets in the map -/

def Relay.PumpsRun (r : Relay) : Prop := ∀ x ∈ r.assoc, x.2.running = true

/-- The reply cannot be sent, or the socket of a target fails. -/
def EndsPump (cfg : Config) (s : RealmServer) : Event cfg.kind → Prop
  | .reply carrier key data _ env sent =>
    ∃ r ∈ s.relays[carrier]?, ∃ p ∈ r.pump key, (sent = false ∨ ∀ packet, encryptServerPayload (ε := Empty) cfg.kind env
      (serverKeyFor cfg.key defaultSocketControl) p.replyAddr defaultSocketControl data ≠ .ok packet)
  | .targetError carrier key => ∃ r ∈ s.relays[carrier]?, r.pump key ≠ none
  | _ => False

section

variable {r : Relay} {key : String} {s : RealmServer}

theorem Relay.PumpsRun.modify {f : Pump → Pump} (h : r.PumpsRun) (hf : ∀ p, p.running = true → (f p).running = true) :
    (r.modify key f).PumpsRun := by
  intro x hx
  obtain ⟨y, hy, rfl⟩ := mem_map.mp hx
  split
  · exact hf _ (h y hy)
  · exact h y hy

theorem Relay.PumpsRun.pump {p : Pump} (h : r.PumpsRun) (hp : r.pump key = some p) : p.running = true := by
  obtain ⟨front, rest, heq, -⟩ := lookup_eq_some_iff.mp hp
  exact h (key, p) (by rw [heq]; simp)

theorem Relay.PumpsRun.stop_iff (h : r.PumpsRun) :
    (r.modify key fun p => { p with running := false }).PumpsRun ↔ r.pump key = none := by
  rw [Relay.PumpsRun, Relay.modify, Relay.pump, lookup_eq_none_iff]
  constructor
  · intro hall x hx
    by_contra heq
    have hstopped := hall _ (mem_map_of_mem hx)
    rw [if_pos (by simpa using Eq.symm (by simpa using heq))] at hstopped
    cases hstopped
  · intro hnone x hx
    obtain ⟨y, hy, rfl⟩ := mem_map.mp hx
    rw [if_neg (by simpa using fun h => by simpa [h] using hnone y hy)]
    exact h y hy

theorem serveUdpRelay_pumpsRun (h : r.PumpsRun) (now : Nat) (datagram : Bytes) (sender : Nat) (dial : Dial) :
    (serveUdpRelay cfg now r datagram sender dial).1.PumpsRun := by
  unfold serveUdpRelay
  split
  · split
    · exact h
    · exact h
    dsimp only
    split
    · exact h.modify fun p hp => hp
    · exact h
    split
    · exact h
    split
    · exact forall_mem_cons.mpr ⟨rfl, h⟩
    · exact h
  · exact h

theorem replyPump_pumpsRun_iff (h : r.PumpsRun) (data : Bytes) (answers : Nat) (env : cfg.kind.Env) (sent : Bool) :
    (replyPump cfg r key data answers env sent).1.PumpsRun ↔ ¬∃ p ∈ r.pump key, (sent = false ∨ ∀ packet,
      encryptServerPayload (ε := Empty) cfg.kind env (serverKeyFor cfg.key defaultSocketControl) p.replyAddr
        defaultSocketControl data ≠ .ok packet) := by
  unfold replyPump
  cases hp : r.pump key with
  | none => exact iff_of_true h (by simp)
  | some p =>
    simp only [h.pump hp, if_true]
    split
    · rename_i packet hpacket
      exact iff_of_true h (by simp [hpacket])
    rename_i sent _ _ hno
    rw [h.stop_iff, hp]
    refine iff_of_false nofun fun hends => hends ⟨p, rfl, ?_⟩
    by_cases hsent : sent = true
    · exact .inr fun packet hpacket => hno packet hpacket hsent
    · exact .inl (by simpa using hsent)

theorem set_pumpsRun_iff (h : ∀ r ∈ s.relays, r.PumpsRun) {carrier : Nat} {old : Relay}
    (hold : s.relays[carrier]? = some old) (r : Relay) :
    (∀ q ∈ s.relays.set carrier r, q.PumpsRun) ↔ r.PumpsRun := by
  obtain ⟨hlt, -⟩ := List.getElem?_eq_some_iff.mp hold
  refine ⟨fun hall => hall r (mem_set hlt r), fun hr q hq => ?_⟩
  rcases mem_or_eq_of_mem_set hq with hq | rfl
  · exact h q hq
  · exact hr

theorem step_pumpsRun_iff (h : ∀ r ∈ s.relays, r.PumpsRun) (e : Event cfg.kind) :
    (∀ r ∈ (step cfg s e).1.relays, r.PumpsRun) ↔ ¬EndsPump cfg s e := by
  cases e with
  | elapse duration => exact iff_of_true h id
  | connected => exact iff_of_true (forall_mem_append.mpr ⟨h, by simp [Relay.PumpsRun, Relay.new]⟩) id
  | datagram carrier datagram dial =>
    cases hr : s.relays[carrier]? with
    | none => exact iff_of_true (by simpa only [step, hr] using h) id
    | some r =>
      simp only [step, hr]
      refine iff_of_true ((set_pumpsRun_iff h hr _).mpr ?_) id
      exact serveUdpRelay_pumpsRun (h r (mem_of_getElem? hr)) s.now datagram carrier dial
  | reply carrier key data answers env sent =>
    cases hr : s.relays[carrier]? with
    | none => exact iff_of_true (by simpa only [step, hr] using h) (by simp [EndsPump, hr])
    | some r =>
      simp only [step, EndsPump, hr]
      rw [set_pumpsRun_iff h hr, replyPump_pumpsRun_iff (h r (mem_of_getElem? hr))]
      simp
  | targetError carrier key =>
    simp only [step, EndsPump]
    cases hr : s.relays[carrier]? with
    | none =>
      rw [modify_eq_self (getElem?_eq_none_iff.mp hr)]
      exact iff_of_true h (by simp)
    | some r =>
      rw [modify_eq_set_getElem?, hr]
      exact (set_pumpsRun_iff h hr _).trans ((h r (mem_of_getElem? hr)).stop_iff.trans (by simp))
  | ended carrier =>
    simp only [step]
    cases hr : s.relays[carrier]? with
    | none =>
      rw [modify_eq_self (getElem?_eq_none_iff.mp hr)]
      exact iff_of_true h id
    | some r =>
      rw [modify_eq_set_getElem?, hr]
      exact iff_of_true ((set_pumpsRun_iff h hr _).mpr (h r (mem_of_getElem? hr))) id

theorem Relay.PumpsRun.reply_sent (h : r.PumpsRun) {carrier : Nat} (hr : s.relays[carrier]? = some r)
    (hp : r.pump key ≠ none) {data : Bytes} {answers : Nat} {env : cfg.kind.Env} {sent : Bool}
    (hends : ¬EndsPump cfg s (.reply carrier key data answers env sent)) :
    (datagrams (step cfg s (.reply carrier key data answers env sent)).2).length = 1 := by
  obtain ⟨p, hp⟩ := Option.ne_none_iff_exists'.mp hp
  simp only [EndsPump, hr, hp, Option.mem_some_iff, exists_eq_left', not_or, not_forall, not_not] at hends
  obtain ⟨hsent, packet, hpacket⟩ := hends
  simp only [step, hr, replyPump, hp, h.pump hp, if_true, hpacket, Bool.eq_true_of_not_eq_false hsent]
  rfl

end

/-- **When every target has its pump**: exactly as long as every reply can be sent and no socket fails; what a target
then sends is forwarded. -/
theorem pumps_run_iff (cfg : Config) (now : Nat) : (∀ es : List (Event cfg.kind),
      (∀ front, front <+: es → ∀ r ∈ (run (step cfg) (.start now) front).1.relays, r.PumpsRun) ↔
        Along (step cfg) (fun s e => ¬EndsPump cfg s e) (.start now) es) ∧
      ∀ s carrier key data answers env sent, ∀ r ∈ s.relays[carrier]?, r.PumpsRun → r.pump key ≠ none →
        ¬EndsPump cfg s (.reply carrier key data answers env sent) →
        (datagrams (step cfg s (.reply carrier key data answers env sent)).2).length = 1 := by
  refine ⟨fun es => ?_, fun s carrier key data answers env sent r hr h hp hends => h.reply_sent hr hp hends⟩
  exact always_iff (J := fun s : RealmServer => ∀ r ∈ s.relays, r.PumpsRun) (fun _ e h => step_pumpsRun_iff h e) nofun

def lateReply (fits : Bool) : List (Event (.aead2022 taggedMethod)) :=
  [.connected, .datagram 0 (someRequest (keyOf 9) [] 0 1) .connected, .reply 0 "t:53" [8] 0 env₀ fits,
    .datagram 0 (someRequest (keyOf 9) [] 0 2) .connected, .reply 0 "t:53" [9] 1 env₀ true]

theorem late_reply_lost :
    (datagrams (run (step (someEntry none)) (.start (100 * nanos)) (lateReply true)).2).length = 2 ∧
      datagrams (run (step (someEntry none)) (.start (100 * nanos)) (lateReply false)).2 = [] ∧
      (run (step (someEntry none)) (.start (100 * nanos)) (lateReply false)).1.relays.map
        (fun r => r.assoc.map fun x => (x.1, x.2.running)) = [[("t:53", false)]] :=
  ⟨by decide +kernel, by rfl, by decide +kernel⟩

end Shadowsocks.Realm
