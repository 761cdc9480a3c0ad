/-
  Subject:   THE ASSOCIATIONS OF A CLIENT ON ONE CARRIER (`RealmClient::proxy_udp` and `QuicDatagramSocket` of
  `crates/shadowsocks/src/realm.rs`, `create_proxied_socket` of the service). Every association has a task that
  takes datagrams off the carrier; which one gets the next comes in with the events.
-/
import Shadowsocks.Local.UdpAssociation
import Shadowsocks.Realm.UdpRelay

namespace Shadowsocks.Realm.Routing

open Lib Udp List
open Local (UdpAssociation ProxyServer)
open Server (IpStack wallClock)

/-! ## 1. The model -/

structure Link where
  ip : IpStack
  dualStack : Bool
  servers : Nat → ProxyServer
  realm : Nat
  key : Bytes
  identityKeys : List Bytes
  entry : Config

def Link.local (l : Link) : Local.Config where
  ip := l.ip
  dualStack := l.dualStack
  server n := if n = l.realm then ⟨l.entry.kind, l.key, l.identityKeys⟩ else l.servers n

structure Reply where
  packet : Bytes
  origin : Option Nat

structure QuicDatagramSocket where
  owner : Nat
  rx : List Reply
  pumping : Bool

structure Member where
  association : UdpAssociation
  socket : Option Nat

structure Carrier where
  members : List Member
  sockets : List QuicDatagramSocket
  upward : List (Bytes × Nat)
  downward : List Reply
  relay : Relay
  now : Nat

def Carrier.start (now : Nat) : Carrier := ⟨[], [], [], [], .new, now⟩

inductive Event (K : CipherKind) where
  | elapse (duration : Nat)
  | create (peerAddr : SocketAddr) (clientSessionId : UInt64) (expireDuration now : Nat)
  | wake (member : Nat) (event : Local.Event) (env : K.Env)
  | arrive (place : Nat) (dial : Dial)
  | reply (key : String) (data : Bytes) (answers : Nat) (env : K.Env) (sent : Bool)
  | targetError (key : String)
  | ended
  | readDatagram (socket place : Nat)
  | receive (member : Nat)

inductive Output where
  | forward (sender : Nat) (target : Address) (payload : Bytes)
  | queued (member : Nat) (origin : Option Nat)
  | lost (origin : Option Nat)
  | handed (member : Nat) (origin : Option Nat) (addr : Address) (data : Bytes)
  | refused (member : Nat) (origin : Option Nat)
  deriving DecidableEq

def opens (l : Link) (m : Member) : Local.Event → Bool
  | .proxied _ _ env =>
    m.association.running && ((m.association.context.advance env.newSessionId).proxiedSocket).isNone &&
      env.connected && env.server == l.realm
  | _ => false

def elsewhere (m : Member) : Local.Event → Bool
  | .proxiedReply _ => m.socket.isNone
  | _ => true

def sentPacket (l : Link) (env : l.entry.kind.Env) (sent : Bool) : Local.Output → Option Bytes
  | .request server control target data =>
    if server = l.realm && sent then
      match encryptClientPayload (ε := Empty) l.entry.kind env l.key target control l.identityKeys data with
      | .ok packet => some packet
      | _ => none
    else none
  | _ => none

def wasSent : Local.Event → Bool
  | .proxied _ _ env => env.sent
  | _ => false

def Member.settle (l : Link) (association : UdpAssociation) (socket : Option Nat) : Member :=
  ⟨association, if association.running && association.context.proxiedSocket == some l.realm then socket else none⟩

def wake (l : Link) (s : Carrier) (member : Nat) (m : Member) (event : Local.Event)
    (env : l.entry.kind.Env) : Carrier :=
  let (association, outputs) := Local.step l.local m.association event
  let socket := if opens l m event then some s.sockets.length else m.socket
  let sockets := if opens l m event then s.sockets ++ [⟨member, [], true⟩] else s.sockets
  let packets := if socket.isSome then outputs.filterMap (sentPacket l env (wasSent event)) else []
  { s with
    members := s.members.set member (.settle l association socket)
    sockets := sockets
    upward := s.upward ++ packets.map fun packet => (packet, member) }

def Carrier.isOpen (s : Carrier) (socket : Nat) (q : QuicDatagramSocket) : Bool :=
  s.members[q.owner]?.bind Member.socket == some socket

def readDatagram (s : Carrier) (socket place : Nat) : Carrier × List Output :=
  match s.sockets[socket]?, s.downward[place]? with
  | some q, some d =>
    if q.pumping then
      if s.isOpen socket q then
        ({ s with
           sockets := s.sockets.set socket { q with rx := q.rx ++ [d] }
           downward := s.downward.eraseIdx place }, [.queued q.owner d.origin])
      else
        ({ s with
           sockets := s.sockets.set socket { q with pumping := false }
           downward := s.downward.eraseIdx place }, [.lost d.origin])
    else (s, [])
  | _, _ => (s, [])

def disposed (member : Nat) (origin : Option Nat) : List Local.Output → Output
  | .respond _ addr data _ :: _ => .handed member origin addr data
  | _ => .refused member origin

def receive (l : Link) (s : Carrier) (member : Nat) (m : Member) : Carrier × List Output :=
  match m.socket with
  | none => (s, [])
  | some socket =>
    match s.sockets[socket]? with
    | none => (s, [])
    | some q =>
      match q.rx with
      | [] => (s, [])
      | d :: rx =>
        let (association, outputs) := Local.step l.local m.association (.proxiedReply d.packet)
        ({ s with
           members := s.members.set member (.settle l association m.socket)
           sockets := s.sockets.set socket { q with rx := rx } },
          [disposed member d.origin outputs])

def step (l : Link) (s : Carrier) (e : Event l.entry.kind) : Carrier × List Output :=
  match e with
  | .elapse duration => ({ s with now := s.now + duration }, [])
  | .create peerAddr clientSessionId expireDuration now =>
    ({ s with members := s.members ++ [⟨.create peerAddr clientSessionId expireDuration now, none⟩] }, [])
  | .wake member event env =>
    match s.members[member]? with
    | some m => if elsewhere m event then (wake l s member m event env, []) else (s, [])
    | none => (s, [])
  | .arrive place dial =>
    match s.upward[place]? with
    | some (packet, sender) =>
      let (relay, forwarded) := serveUdpRelay l.entry s.now s.relay packet sender dial
      ({ s with relay := relay, upward := s.upward.eraseIdx place },
        forwarded.toList.map fun x => .forward sender x.1 x.2)
    | none => (s, [])
  | .reply key data answers env sent =>
    let (relay, datagram) := replyPump l.entry s.relay key data answers env sent
    ({ s with
       relay := relay
       downward := s.downward ++ datagram.toList.map fun d => ⟨d.packet, d.answers.map Request.sender⟩ }, [])
  | .targetError key =>
    ({ s with relay := s.relay.modify key fun p => { p with running := false } }, [])
  | .ended => ({ s with relay := { s.relay with running := false } }, [])
  | .readDatagram socket place => readDatagram s socket place
  | .receive member =>
    match s.members[member]? with
    | some m => receive l s member m
    | none => (s, [])

/-! ## 2. Who uses the carrier -/

def owners (sockets : List QuicDatagramSocket) : List Nat := sockets.map QuicDatagramSocket.owner

theorem owners_append (sockets sockets' : List QuicDatagramSocket) :
    owners (sockets ++ sockets') = owners sockets ++ owners sockets' :=
  map_append

variable {p : Nat} {sockets : List QuicDatagramSocket} {q q' : QuicDatagramSocket}

theorem owners_set (hq : sockets[p]? = some q) (howner : q'.owner = q.owner) :
    owners (sockets.set p q') = owners sockets := by
  obtain ⟨hlt, rfl⟩ := List.getElem?_eq_some_iff.mp hq
  unfold owners
  rw [map_set, howner, ← getElem_map QuicDatagramSocket.owner (h := by simpa using hlt), set_getElem_self]

theorem owners_getElem? {q : QuicDatagramSocket} (hq : sockets[p]? = some q) :
    (owners sockets)[p]? = some q.owner := by
  rw [owners, getElem?_map, hq]
  rfl

/-- **While one association uses the carrier**: senders and receivers have opened a socket, queues hold replies of
their owners, open sockets are the association's. -/
structure Tracked (l : Link) (s : Carrier) : Prop where
  upward : ∀ x ∈ s.upward, x.2 ∈ owners s.sockets
  relay : s.relay.SentBy (· ∈ owners s.sockets)
  downward : ∀ d ∈ s.downward, ∀ i ∈ d.origin, i ∈ owners s.sockets
  queues : ∀ q ∈ s.sockets, ∀ d ∈ q.rx, ∀ i ∈ d.origin, i = q.owner
  own : ∀ (member : Nat) (m : Member), s.members[member]? = some m → ∀ p ∈ m.socket,
    (owners s.sockets)[p]? = some member
  attached : ∀ m ∈ s.members, ∀ p ∈ m.socket,
    m.association.running = true ∧ m.association.context.proxiedSocket = some l.realm

theorem Tracked.start (l : Link) (now : Nat) : Tracked l (.start now) := by
  refine ⟨?_, ?_, ?_, ?_, ?_, ?_⟩
  · intro x hx
    cases hx
  · intro x hx
    cases hx
  · intro d hd
    cases hd
  · intro q hq
    cases hq
  · intro member m hm
    cases hm
  · intro m hm
    cases hm

variable {a : UdpAssociation} {l : Link} {socket : Option Nat}

theorem settle_socket (h : p ∈ (Member.settle l a socket).socket) :
    socket = some p ∧ a.running = true ∧ a.context.proxiedSocket = some l.realm := by
  unfold Member.settle at h
  split at h
  · rename_i hkept
    rw [Bool.and_eq_true, beq_iff_eq] at hkept
    exact ⟨h, hkept⟩
  · cases h

section
variable {l : Link} {s : Carrier} {member : Nat} {m : Member}

theorem Tracked.members_set (h : Tracked l s) (hm : s.members[member]? = some m)
    (hmore : ∃ new, owners sockets = owners s.sockets ++ new)
    (hsocket : ∀ p ∈ socket, (owners sockets)[p]? = some member) :
    (∀ (member' : Nat) (m' : Member), (s.members.set member (.settle l a socket))[member']? = some m' →
      ∀ p ∈ m'.socket, (owners sockets)[p]? = some member') ∧
    ∀ m' ∈ s.members.set member (.settle l a socket), ∀ p ∈ m'.socket,
      m'.association.running = true ∧ m'.association.context.proxiedSocket = some l.realm := by
  refine ⟨fun member' m' hm' p hp => ?_, fun m' hm' p hp => ?_⟩
  · by_cases hsame : member = member'
    · subst hsame
      rw [List.getElem?_set_self (List.getElem?_eq_some_iff.mp hm).1] at hm'
      obtain rfl := Option.some.inj hm'
      exact hsocket p (settle_socket hp).1
    · rw [List.getElem?_set_ne hsame] at hm'
      obtain ⟨new, hnew⟩ := hmore
      have hold := h.own member' m' hm' p hp
      rwa [hnew, List.getElem?_append_left (List.getElem?_eq_some_iff.mp hold).1]
  · rcases mem_or_eq_of_mem_set hm' with hold | rfl
    · exact h.attached m' hold p hp
    · exact (settle_socket hp).2

theorem Tracked.used (h : Tracked l s) (hm : s.members[member]? = some m) (opened : Bool) :
    ∀ p ∈ (if opened then some s.sockets.length else m.socket),
      (owners (if opened then s.sockets ++ [⟨member, [], true⟩] else s.sockets))[p]? = some member := by
  intro p hp
  cases opened with
  | true =>
    obtain rfl := Option.some.inj hp
    simp [owners]
  | false => exact h.own member m hm p hp

theorem Tracked.wake (h : Tracked l s) (hm : s.members[member]? = some m) (event : Local.Event)
    (env : l.entry.kind.Env) : Tracked l (wake l s member m event env) := by
  unfold Routing.wake
  generalize opens l m event = opened
  have hused := h.used hm opened
  have hmore : ∃ new, owners (if opened then s.sockets ++ [⟨member, [], true⟩] else s.sockets) =
      owners s.sockets ++ new := by
    cases opened with
    | true => exact ⟨_, owners_append _ _⟩
    | false => exact ⟨[], (append_nil _).symm⟩
  obtain ⟨hown, hattached⟩ := h.members_set (a := (Local.step l.local m.association event).1) hm hmore hused
  have hkeep : ∀ i ∈ owners s.sockets,
      i ∈ owners (if opened then s.sockets ++ [⟨member, [], true⟩] else s.sockets) := by
    obtain ⟨new, hnew⟩ := hmore
    intro i hi
    rw [hnew]
    exact mem_append_left _ hi
  refine ⟨?_, h.relay.mono hkeep, fun d hd i hi => hkeep i (h.downward d hd i hi), ?_, hown, hattached⟩
  · intro x hx
    rcases mem_append.mp hx with hold | hnew
    · exact hkeep _ (h.upward x hold)
    obtain ⟨packet, hpacket, rfl⟩ := mem_map.mp hnew
    -- a datagram was sent, so a socket was open
    generalize (if opened then some s.sockets.length else m.socket) = socket at hused hpacket
    cases socket with
    | none => cases hpacket
    | some p => exact mem_of_getElem? (hused p rfl)
  intro q hq
  cases opened with
  | true =>
    rcases mem_concat.mp hq with hold | rfl
    · exact h.queues q hold
    · exact nofun
  | false => exact h.queues q hq

theorem Tracked.create (h : Tracked l s) (association : UdpAssociation) :
    Tracked l { s with members := s.members ++ [⟨association, none⟩] } := by
  refine { h with own := fun member m hm p hp => ?_, attached := fun m hm p hp => ?_ }
  · rw [getElem?_append] at hm
    split at hm
    · exact h.own member m hm p hp
    · obtain rfl := mem_singleton.mp (mem_of_getElem? hm)
      cases hp
  · rcases mem_concat.mp hm with hold | rfl
    · exact h.attached m hold p hp
    · cases hp

theorem Tracked.arrive (h : Tracked l s) {place sender : Nat} {packet : Bytes}
    (hplace : s.upward[place]? = some (packet, sender)) (dial : Dial) : Tracked l { s with
      relay := (serveUdpRelay l.entry s.now s.relay packet sender dial).1
      upward := s.upward.eraseIdx place } := by
  have hsender : sender ∈ owners s.sockets := h.upward _ (mem_of_getElem? hplace)
  exact { h with
    upward := fun x hx => h.upward x (mem_of_mem_eraseIdx hx)
    relay := serveUdpRelay_sentBy h.relay hsender l.entry s.now packet dial }

theorem Tracked.reply (h : Tracked l s) (key : String) (data : Bytes) (answers : Nat)
    (env : l.entry.kind.Env) (sent : Bool) : Tracked l { s with
      relay := (replyPump l.entry s.relay key data answers env sent).1
      downward := s.downward ++ (replyPump l.entry s.relay key data answers env sent).2.toList.map
        fun d => ⟨d.packet, d.answers.map Request.sender⟩ } := by
  refine { h with relay := replyPump_sentBy h.relay l.entry data answers env sent, downward := ?_ }
  intro d hd i hi
  rcases mem_append.mp hd with hold | hnew
  · exact h.downward d hold i hi
  rcases replyPump_sends l.entry s.relay key data answers env sent with hnone |
    ⟨-, p, packet, hp, -, -, hsome⟩
  · rw [hnone] at hnew
    cases hnew
  · rw [hsome] at hnew
    obtain rfl := mem_singleton.mp hnew
    obtain ⟨r, hr, rfl⟩ := Option.map_eq_some_iff.mp hi
    exact h.relay.pump hp r (mem_of_getElem? hr)

theorem Tracked.socket_set (h : Tracked l s) (hq : s.sockets[p]? = some q)
    (howner : q'.owner = q.owner) (hrx : ∀ d ∈ q'.rx, ∀ i ∈ d.origin, i = q.owner) :
    Tracked l { s with sockets := s.sockets.set p q' } := by
  have hsame : owners (s.sockets.set p q') = owners s.sockets := owners_set hq howner
  refine ⟨?_, ?_, ?_, ?_, ?_, h.attached⟩
  · rw [hsame]
    exact h.upward
  · rw [hsame]
    exact h.relay
  · rw [hsame]
    exact h.downward
  · intro r hr
    rcases mem_or_eq_of_mem_set hr with hold | rfl
    · exact h.queues r hold
    · rw [howner]
      exact hrx
  · rw [hsame]
    exact h.own

theorem Tracked.erase (h : Tracked l s) (place : Nat) :
    Tracked l { s with downward := s.downward.eraseIdx place } :=
  { h with downward := fun d hd => h.downward d (mem_of_mem_eraseIdx hd) }

end

/-! ## 3. Routing -/

def Output.Right : Output → Prop
  | .forward _ _ _ => True
  | .queued member origin => ∀ i ∈ origin, i = member
  | .handed member origin _ _ => ∀ i ∈ origin, i = member
  | .lost origin => origin = none
  | .refused _ origin => origin = none

def acceptable (l : Link) (a : UdpAssociation) (packet : Bytes) : Bool :=
  match decryptServerPayload l.entry.kind (wallClock a.now) l.key packet with
  | .ok (_, _, none) => true
  | .ok (_, _, some control) => decide (Local.InWindow a control)
  | _ => false

def Sole (l : Link) (s : Carrier) : Event l.entry.kind → Prop
  | .readDatagram socket _ =>
    ∀ q ∈ s.sockets[socket]?, q.pumping = true → s.isOpen socket q = true ∧ ∀ i ∈ owners s.sockets, i = q.owner
  | .receive member =>
    ∀ m ∈ s.members[member]?, ∀ p ∈ m.socket, ∀ q ∈ s.sockets[p]?, ∀ d ∈ q.rx.head?,
      acceptable l m.association d.packet = true
  | _ => True

instance (l : Link) (s : Carrier) : (e : Event l.entry.kind) → Decidable (Sole l s e)
  | .readDatagram socket _ =>
    inferInstanceAs (Decidable (∀ q ∈ s.sockets[socket]?, q.pumping = true →
      s.isOpen socket q = true ∧ ∀ i ∈ owners s.sockets, i = q.owner))
  | .receive member =>
    inferInstanceAs (Decidable (∀ m ∈ s.members[member]?, ∀ p ∈ m.socket, ∀ q ∈ s.sockets[p]?,
      ∀ d ∈ q.rx.head?, acceptable l m.association d.packet = true))
  | .elapse _ | .create _ _ _ _ | .wake _ _ _ | .arrive _ _ | .reply _ _ _ _ _ | .targetError _ | .ended =>
    .isTrue trivial

theorem receiveReply_acceptable {packet : Bytes} (h : acceptable l a packet = true) :
    ∃ addr data control, (Local.receiveReply a ⟨l.entry.kind, l.key, l.identityKeys⟩ packet).2 =
      [.respond a.context.peerAddr addr data control] := by
  unfold acceptable at h
  unfold Local.receiveReply
  cases hdecrypt : decryptServerPayload l.entry.kind (wallClock a.now) l.key packet with
  | err e | panic => simp [hdecrypt] at h
  | ok x =>
    obtain ⟨data, addr, control⟩ := x
    rw [hdecrypt] at h
    cases control with
    | none => exact ⟨addr, data, none, rfl⟩
    | some c =>
      have htake : (a.context.acceptReply a.now c).1 = true := (Local.acceptReply_fst a c).trans h
      refine ⟨addr, data, some c, ?_⟩
      dsimp only
      rcases haccept : a.context.acceptReply a.now c with ⟨ok, a'⟩
      obtain rfl : ok = true := by simpa [haccept] using htake
      have ha : a' = _ :=
        (congrArg Prod.snd haccept).symm.trans (Local.acceptReply_quiet a.context a.now c)
      rw [ha]

theorem disposed_acceptable {packet : Bytes} (h : acceptable l a packet = true)
    (hrunning : a.running = true) (hsocket : a.context.proxiedSocket = some l.realm) (member : Nat)
    (origin : Option Nat) :
    ∃ addr data, disposed member origin (Local.step l.local a (.proxiedReply packet)).2 =
      .handed member origin addr data := by
  have hstep : Local.step l.local a (.proxiedReply packet) =
      Local.receiveReply a ⟨l.entry.kind, l.key, l.identityKeys⟩ packet := by
    unfold Local.step
    rw [hrunning]
    rw [hsocket]
    dsimp only [Link.local]
    rw [if_pos rfl]
  obtain ⟨addr, data, control, hout⟩ := receiveReply_acceptable h
  exact ⟨addr, data, by rw [hstep, hout]; rfl⟩

section
variable {l : Link} {s : Carrier}

theorem Tracked.readDatagram (h : Tracked l s) {socket place : Nat} (hsole : Sole l s (.readDatagram socket place)) :
    Tracked l (readDatagram s socket place).1 ∧ ∀ o ∈ (Routing.readDatagram s socket place).2, o.Right := by
  unfold Routing.readDatagram
  split
  · rename_i q d hq hd
    split
    · rename_i hpumping
      obtain ⟨hopen, halone⟩ := hsole q hq hpumping
      rw [if_pos hopen]
      -- whoever the reply is for has opened a socket, and all of them are this association's
      have horigin : ∀ i ∈ d.origin, i = q.owner :=
        fun i hi => halone i (h.downward d (mem_of_getElem? hd) i hi)
      have hlonger : Tracked l { s with sockets := s.sockets.set socket { q with rx := q.rx ++ [d] } } := by
        refine h.socket_set hq rfl fun d' hd' => ?_
        rcases mem_concat.mp hd' with hold | rfl
        · exact h.queues q (mem_of_getElem? hq) d' hold
        · exact horigin
      refine ⟨hlonger.erase place, fun o ho => ?_⟩
      obtain rfl := mem_singleton.mp ho
      exact horigin
    · exact ⟨h, forall_mem_nil _⟩
  · exact ⟨h, forall_mem_nil _⟩

theorem Tracked.receive (h : Tracked l s) {member : Nat} {m : Member} (hm : s.members[member]? = some m)
    (hsole : Sole l s (.receive member)) :
    Tracked l (receive l s member m).1 ∧ ∀ o ∈ (Routing.receive l s member m).2, o.Right := by
  unfold Routing.receive
  split
  · exact ⟨h, forall_mem_nil _⟩
  rename_i p hp
  split
  · exact ⟨h, forall_mem_nil _⟩
  rename_i q hq
  split
  · exact ⟨h, forall_mem_nil _⟩
  · rename_i d rx hrx
    have hqueue := h.queues q (mem_of_getElem? hq)
    have howner : q.owner = member :=
      Option.some.inj ((owners_getElem? hq).symm.trans (h.own member m hm p hp))
    obtain ⟨hrunning, hsocket⟩ := h.attached m (mem_of_getElem? hm) p hp
    have hacceptable : acceptable l m.association d.packet = true := hsole m hm p hp q hq d (by rw [hrx]; rfl)
    have hshorter : Tracked l { s with sockets := s.sockets.set p { q with rx := rx } } :=
      h.socket_set hq rfl fun d' hd' => hqueue d' (by rw [hrx]; exact mem_cons_of_mem d hd')
    obtain ⟨hown, hattached⟩ := hshorter.members_set
      (a := (Local.step l.local m.association (.proxiedReply d.packet)).1) hm ⟨[], (append_nil _).symm⟩
      (hshorter.own member m hm)
    refine ⟨{ hshorter with own := hown, attached := hattached }, ?_⟩
    intro o ho
    obtain rfl := mem_singleton.mp ho
    obtain ⟨addr, data, hhanded⟩ :=
      disposed_acceptable hacceptable hrunning hsocket member d.origin
    rw [hhanded]
    intro i hi
    rw [← howner]
    exact hqueue d (by rw [hrx]; exact mem_cons_self) i hi

theorem Tracked.step (h : Tracked l s) (e : Event l.entry.kind) (hsole : Sole l s e) :
    Tracked l (step l s e).1 ∧ ∀ o ∈ (Routing.step l s e).2, o.Right := by
  cases e with
  | elapse duration => exact ⟨{ h with }, forall_mem_nil _⟩
  | create peerAddr clientSessionId expireDuration now => exact ⟨h.create _, forall_mem_nil _⟩
  | wake member event env =>
    unfold Routing.step
    dsimp only
    split
    · rename_i m hm
      split
      · exact ⟨h.wake hm event env, forall_mem_nil _⟩
      · exact ⟨h, forall_mem_nil _⟩
    · exact ⟨h, forall_mem_nil _⟩
  | arrive place dial =>
    unfold Routing.step
    dsimp only
    split
    · rename_i packet sender hplace
      refine ⟨h.arrive hplace dial, fun o ho => ?_⟩
      obtain ⟨x, -, rfl⟩ := mem_map.mp ho
      trivial
    · exact ⟨h, forall_mem_nil _⟩
  | reply key data answers env sent => exact ⟨h.reply key data answers env sent, forall_mem_nil _⟩
  | targetError key => exact ⟨{ h with relay := h.relay.modify fun p q hq => .inl hq }, forall_mem_nil _⟩
  | ended => exact ⟨{ h with relay := h.relay }, forall_mem_nil _⟩
  | readDatagram socket place => exact h.readDatagram hsole
  | receive member =>
    unfold Routing.step
    dsimp only
    split
    · rename_i m hm
      exact h.receive hm hsole
    · exact ⟨h, forall_mem_nil _⟩

end

/-- **As long as one association alone uses the carrier** and accepts its replies, each reaches the one it answers. -/
theorem replies_routed (l : Link) (now : Nat) (es : List (Event l.entry.kind))
    (h : Along (step l) (Sole l) (.start now) es) : ∀ o ∈ (run (step l) (.start now) es).2, o.Right := by
  have hinv := run_inv (I := fun s log => Tracked l s ∧ ∀ o ∈ log, o.Right) (s := .start now)
    ⟨.start l now, nofun⟩ (fun s log e ih hsole => by
      obtain ⟨htracked, hright⟩ := ih.1.step e hsole
      refine ⟨htracked, fun o ho => ?_⟩
      rcases mem_append.mp ho with hold | hnew
      · exact ih.2 o hold
      · exact hright o hnew) h
  exact hinv.2

def someLink : Link where
  ip := ⟨true, true, false⟩
  dualStack := false
  servers _ := ⟨.none, [], []⟩
  realm := 0
  key := keyOf 9
  identityKeys := []
  entry := someEntry none

def created (port : UInt16) (clientSessionId : UInt64) : Event someLink.entry.kind :=
  .create (.v4 ⟨1, port⟩) clientSessionId (60 * nanos) (100 * nanos)

def asked (member : Nat) : List (Event someLink.entry.kind) :=
  [.wake member (.proxied someTarget [7] ⟨0, 0, true, true⟩) env₀, .arrive 0 .connected]

def alone : List (Event someLink.entry.kind) :=
  created 1000 3 :: asked 0 ++ [.reply "t:53" [8] 0 env₀ true, .readDatagram 0 0, .receive 0]

theorem replies_routed_alone : Along (step someLink) (Sole someLink) (.start (100 * nanos)) alone ∧
      .handed 0 (some 0) someTarget [8] ∈ (run (step someLink) (.start (100 * nanos)) alone).2 ∧
      ∀ o ∈ (run (step someLink) (.start (100 * nanos)) alone).2, o.Right := by
  have halone : Along (step someLink) (Sole someLink) (.start (100 * nanos)) alone := by decide +kernel
  exact ⟨halone, by decide +kernel, replies_routed someLink (100 * nanos) alone halone⟩

def together : List (Event someLink.entry.kind) :=
  created 1000 3 :: created 2000 4 :: asked 0 ++ asked 1 ++
    [.reply "t:53" [8] 0 env₀ true, .readDatagram 1 0, .receive 1]

/-- **The reply goes astray**: the client of the second association gets what the first one asked for. -/
theorem replies_astray : .handed 1 (some 0) someTarget [8] ∈ (run (step someLink) (.start (100 * nanos)) together).2 ∧
      ¬ ∀ o ∈ (run (step someLink) (.start (100 * nanos)) together).2, o.Right := by
  have hhanded : .handed 1 (some 0) someTarget [8] ∈
      (run (step someLink) (.start (100 * nanos)) together).2 := by decide +kernel
  exact ⟨hhanded, fun h => absurd (h _ hhanded 0 rfl) (by decide)⟩

end Shadowsocks.Realm.Routing
