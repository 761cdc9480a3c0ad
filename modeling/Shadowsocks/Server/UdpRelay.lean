/-
  Subject:   THE UDP SERVER (`server/udprelay.rs` of the service) as a machine: the manager with its table, the
  extra receivers, and a task for each association, in any interleaving. An association that leaves the table may
  run on until it is cancelled.
-/
import Shadowsocks.Server.Association

namespace Shadowsocks.Server

open Lib Udp PacketWindow

/-! ## 1. The tasks -/

def udpAssociationSendChannelSize : Nat := 1024

def udpAssociationKeepAliveChannelSize : Nat := 64

inductive NatKey where
  | peerAddr (addr : SocketAddr)
  | sessionId (id : UInt64)

inductive Status where
  | running
  | aborted
  | finished
  deriving DecidableEq

structure Task where
  context : UdpAssociationContext
  queue : List Message
  status : Status

def Task.create (peerAddr : SocketAddr) (clientSessionId : Option UInt64) (serverSessionId : UInt64) :
    Task :=
  ⟨.create peerAddr clientSessionId serverSessionId, [], .running⟩

def Task.trySend (t : Task) (m : Message) : Option Task :=
  if t.status ≠ .finished ∧ t.queue.length < udpAssociationSendChannelSize then
    some { t with queue := t.queue ++ [m] }
  else none

def Task.abort (t : Task) : Task := if t.status = .running then { t with status := .aborted } else t

inductive TaskEvent where
  | receive (env : DispatchEnv)
  | outbound (v4 : Bool) (source : SocketAddr) (data : Bytes)
  | socketError (v4 : Bool)
  | keepaliveTick
  | cancelled

inductive TaskOutput where
  | forward (m : Message) (target : SocketAddr)
  | reply (r : Reply)
  | keepalive (key : NatKey)

variable (a : UdpAssociationContext)

def UdpAssociationContext.socket (v4 : Bool) : Bool :=
  if v4 then a.outboundIpv4Socket else a.outboundIpv6Socket

def UdpAssociationContext.closeSocket (v4 : Bool) : UdpAssociationContext :=
  if v4 then { a with outboundIpv4Socket := false } else { a with outboundIpv6Socket := false }

def UdpAssociationContext.natKey : NatKey :=
  match a.clientSession with
  | none => .peerAddr a.peerAddr
  | some session => .sessionId session.clientSessionId

/-- One round of `dispatch_packet`. -/
def Task.step (ip : IpStack) (room : Bool) (t : Task) (e : TaskEvent) : Task × List TaskOutput :=
  match t.status, e with
  | .finished, _ => (t, [])
  | _, .receive env =>
    match t.queue with
    | [] => (t, [])
    | m :: queue =>
      match dispatchReceivedPacket ip t.context m env with
      | .ok (a, sent) => ({ t with context := a, queue := queue }, sent.toList.map (.forward m))
      | .err e => e.elim
      | .panic => ({ t with queue := [], status := .finished }, [])
  | _, .outbound v4 source data =>
    if t.context.socket v4 then
      match sendReceivedRespondPacket t.context source data with
      | (a, reply) => ({ t with context := a }, reply.toList.map .reply)
    else (t, [])
  | _, .socketError v4 => ({ t with context := t.context.closeSocket v4 }, [])
  | _, .keepaliveTick =>
    if t.context.keepaliveFlag && room then
      ({ t with context := { t.context with keepaliveFlag := false } }, [.keepalive t.context.natKey])
    else (t, [])
  | .aborted, .cancelled => ({ t with queue := [], status := .finished }, [])
  | .running, .cancelled => (t, [])

/-! ## 2. The table -/

inductive NatMap where
  | association (m : LruCache SocketAddr Nat)
  | session (m : LruCache UInt64 Nat)

def NatMap.values : NatMap → List Nat
  | .association m => m.values
  | .session m => m.values

def createAssocMap {K V : Type} (timeToLive : Nat) (capacity : Option Nat) : LruCache K V :=
  match capacity with
  | some capacity => .withExpiryDurationAndCapacity timeToLive capacity
  | none => .withExpiryDuration timeToLive

def NatMap.cleanupExpired (now : Nat) : NatMap → NatMap
  | .association m => .association (m.sweep now)
  | .session m => .session (m.sweep now)

def NatMap.keepAlive (now : Nat) : NatMap → NatKey → Outcome Empty NatMap
  | .association m, .peerAddr addr => .ok (.association (m.get now addr).2)
  | .session m, .sessionId id => .ok (.session (m.get now id).2)
  | _, _ => .panic

def dropAssociations (before after : List Nat) (tasks : List Task) : List Task :=
  tasks.mapIdx fun i t => if i ∈ before ∧ i ∉ after then t.abort else t

/-- `send_packet` on a table with keys `K`. -/
def sendVia {K : Type} [DecidableEq K] (now : Nat) (key : K) (fresh : Task) (m : Message)
    (table : LruCache K Nat) (tasks : List Task) : LruCache K Nat × List Task × Option Nat :=
  match table.get now key with
  | (some i, table) =>
    match tasks[i]?.bind (·.trySend m) with
    | some t => (table, tasks.set i t, some i)
    | none => (table, tasks, none)
  | (none, table) =>
    match fresh.trySend m with
    | some t => (table.insert now key tasks.length, tasks ++ [t], some tasks.length)
    | none => (table, tasks, none)

/-! ## 3. The server -/

/-- What `UdpServer::new` is given; durations in nanoseconds. -/
structure Config where
  kind : CipherKind
  key : Bytes
  users : Option ServerUserManager
  (timeToLive capacity : Option Nat)
  ip : IpStack
  workers : Nat

def defaultUdpExpiryDuration : Nat := 5 * 60 * nanos

variable (cfg : Config)

def Config.ttl : Nat := cfg.timeToLive.getD defaultUdpExpiryDuration

structure UdpServer where
  assocMap : NatMap
  tasks : List Task
  keepalive : List NatKey
  received : List Message
  now : Nat
  running : Bool

def start (now : Nat) : UdpServer where
  assocMap :=
    match cfg.kind with
    | .aead2022 _ => .session (createAssocMap cfg.ttl cfg.capacity)
    | _ => .association (createAssocMap cfg.ttl cfg.capacity)
  tasks := []
  keepalive := []
  received := []
  now := now
  running := true

structure RecvEnv where
  (clientBlocked outboundBlocked : Bool)
  serverSessionId : UInt64

inductive Event where
  | elapse (duration : Nat)
  | cleanup
  | keepAlive
  | recv (datagram : Bytes) (peerAddr : SocketAddr) (env : RecvEnv)
  | workerRecv (datagram : Bytes) (peerAddr : SocketAddr) (env : RecvEnv)
  | takeReceived (serverSessionId : UInt64)
  | task (i : Nat) (e : TaskEvent)

inductive Output where
  | queued (i : Nat) (m : Message) (time : Nat)
  | forward (i : Nat) (m : Message) (target : SocketAddr)
  | reply (i : Nat) (r : Reply)

def wallClock (now : Nat) : UInt64 := UInt64.ofNat (now / nanos)

def recvOnePacket (now : Nat) (datagram : Bytes) (peerAddr : SocketAddr)
    (env : RecvEnv) : Outcome Unit Message := do
  let (data, targetAddr, control) ←
    (decryptClientPayload cfg.kind (wallClock now) cfg.key datagram cfg.users).mapErr fun _ => ()
  if data.length = 0 ∨ env.clientBlocked = true ∨ env.outboundBlocked = true then .err ()
  else return ⟨peerAddr, targetAddr, data, control, ⟨datagram, now⟩⟩

def UdpServer.sendPacket (s : UdpServer) (m : Message) (serverSessionId : UInt64) :
    UdpServer × List Output :=
  match s.assocMap with
  | .association table =>
    let (table', tasks, i) :=
      sendVia s.now m.peerAddr (.create m.peerAddr none serverSessionId) m table s.tasks
    ({ s with assocMap := .association table'
              tasks := dropAssociations table.values table'.values tasks },
      i.toList.map fun i => .queued i m s.now)
  | .session table =>
    match m.control with
    | none => (s, [])
    | some control =>
      let id := control.clientSessionId
      let (table', tasks, i) :=
        sendVia s.now id (.create m.peerAddr (some id) serverSessionId) m table s.tasks
      ({ s with assocMap := .session table'
                tasks := dropAssociations table.values table'.values tasks },
        i.toList.map fun i => .queued i m s.now)

/-- A panic. A release build (`panic = "abort"`) ends the process here; with unwinding the associations
are cancelled, each after what it still does. -/
def UdpServer.crash (s : UdpServer) : UdpServer :=
  { s with tasks := s.tasks.map Task.abort, running := false }

def UdpServer.setMap (s : UdpServer) (map : NatMap) : UdpServer :=
  { s with assocMap := map, tasks := dropAssociations s.assocMap.values map.values s.tasks }

def keepaliveKeys (os : List TaskOutput) : List NatKey :=
  os.filterMap fun
    | .keepalive key => some key
    | _ => none

def taskLog (i : Nat) (os : List TaskOutput) : List Output :=
  os.filterMap fun
    | .forward m target => some (.forward i m target)
    | .reply r => some (.reply i r)
    | .keepalive _ => none

/-- **One step** of `run`, of an extra receiver or of a task; the channel holds 16 packets for each receiver. -/
def step (s : UdpServer) : Event → UdpServer × List Output
  | .elapse duration => ({ s with now := s.now + duration }, [])
  | .cleanup => if s.running then (s.setMap (s.assocMap.cleanupExpired s.now), []) else (s, [])
  | .keepAlive =>
    match s.running, s.keepalive with
    | true, key :: keys =>
      match s.assocMap.keepAlive s.now key with
      | .ok map => ({ s with keepalive := keys }.setMap map, [])
      | .err e => e.elim
      | .panic => (s.crash, [])
    | _, _ => (s, [])
  | .recv datagram peerAddr env =>
    if s.running then
      match recvOnePacket cfg s.now datagram peerAddr env with
      | .ok m => s.sendPacket m env.serverSessionId
      | .err _ => (s, [])
      | .panic => (s.crash, [])
    else (s, [])
  | .workerRecv datagram peerAddr env =>
    if s.running ∧ s.received.length < cfg.workers * 17 then
      match recvOnePacket cfg s.now datagram peerAddr env with
      | .ok m => ({ s with received := s.received ++ [m] }, [])
      | .err _ => (s, [])
      | .panic => (s.crash, [])
    else (s, [])
  | .takeReceived serverSessionId =>
    match s.running, s.received with
    | true, m :: received => { s with received := received }.sendPacket m serverSessionId
    | _, _ => (s, [])
  | .task i e =>
    match s.tasks[i]? with
    | none => (s, [])
    | some t =>
      let room := decide (s.running = true ∧ s.keepalive.length < udpAssociationKeepAliveChannelSize)
      let (t, os) := t.step cfg.ip room e
      ({ s with tasks := s.tasks.set i t, keepalive := s.keepalive ++ keepaliveKeys os }, taskLog i os)

end Shadowsocks.Server
