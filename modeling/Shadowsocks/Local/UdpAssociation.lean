/-
  Subject:   ONE ASSOCIATION OF THE LOCAL UDP RELAY (`local/net/udp/association.rs` of the service) as a machine.
  The number of a proxied socket and the answers of the environment come in with the packet.
-/
import Shadowsocks.Server.UdpRelay

namespace Shadowsocks.Local

open Lib Udp PacketWindow List
open Server (Attempt IpStack lookupOrder toIpv6Mapped u64Max wallClock)

/-! ## 1. The association as the source has it -/

structure ProxyServer where
  kind : CipherKind
  key : Bytes
  identityKeys : List Bytes

structure UdpAssociationContext where
  peerAddr : SocketAddr
  (bypassedIpv4Socket bypassedIpv6Socket : Bool)
  proxiedSocket : Option Nat
  keepaliveFlag : Bool
  (clientSessionId clientPacketId : UInt64)
  serverSession : Option (LruCache UInt64 PacketWindowFilter)
  serverSessionExpireDuration : Nat

def UdpAssociationContext.create (peerAddr : SocketAddr) (clientSessionId : UInt64)
    (serverSessionExpireDuration : Nat) : UdpAssociationContext where
  peerAddr := peerAddr
  bypassedIpv4Socket := false
  bypassedIpv6Socket := false
  proxiedSocket := none
  keepaliveFlag := false
  clientSessionId := clientSessionId
  clientPacketId := 0
  serverSession := none
  serverSessionExpireDuration := serverSessionExpireDuration

structure Config where
  ip : IpStack
  dualStack : Bool
  server : Nat → ProxyServer

def sendReceivedBypassedPacket (cfg : Config) (a : UdpAssociationContext) (target : SocketAddr)
    (env : Attempt) : UdpAssociationContext × Option SocketAddr :=
  let sent := if env.sent then some target else none
  match cfg.dualStack, target with
  | true, target =>
    let mapped : SocketAddr :=
      match target with
      | .v4 a => .v6 ⟨toIpv6Mapped a.ip, a.port, 0, 0⟩
      | .v6 a => .v6 a
    let sent := if env.sent then some mapped else none
    if a.bypassedIpv6Socket then (a, sent)
    else if env.connected then ({ a with bypassedIpv6Socket := true }, sent)
    else (a, none)
  | false, .v4 _ =>
    if a.bypassedIpv4Socket then (a, sent)
    else if env.connected then ({ a with bypassedIpv4Socket := true }, sent)
    else (a, none)
  | false, .v6 _ =>
    if a.bypassedIpv6Socket then (a, sent)
    else if env.connected then ({ a with bypassedIpv6Socket := true }, sent)
    else (a, none)

def sendToFirst (cfg : Config) (a : UdpAssociationContext) :
    List (SocketAddr × Attempt) → UdpAssociationContext × Option SocketAddr
  | [] => (a, none)
  | (target, env) :: rest =>
    match sendReceivedBypassedPacket cfg a target env with
    | (a, some sent) => (a, some sent)
    | (a, none) => sendToFirst cfg a rest

structure BypassEnv where
  direct : Attempt
  resolved : Option (List (SocketAddr × Attempt))

variable (cfg : Config) (a : UdpAssociationContext)

def dispatchReceivedBypassedPacket (target : Address)
    (env : BypassEnv) : Outcome Empty (UdpAssociationContext × Option SocketAddr) :=
  match target with
  | .socketAddress sa => .ok (sendReceivedBypassedPacket cfg a sa env.direct)
  | .domainNameAddress _ _ =>
    match env.resolved with
    | none => .ok (a, none)
    | some [] => .panic
    | some addrs => .ok (sendToFirst cfg a (lookupOrder cfg.ip addrs))

structure ProxyEnv where
  newSessionId : UInt64
  server : Nat
  (connected sent : Bool)

def UdpAssociationContext.advance (a : UdpAssociationContext) (newSessionId : UInt64) :
    UdpAssociationContext :=
  if a.clientPacketId = u64Max then
    { a with proxiedSocket := none, clientPacketId := 1, clientSessionId := newSessionId }
  else { a with clientPacketId := a.clientPacketId + 1 }

def UdpAssociationContext.control (a : UdpAssociationContext) : UdpSocketControlData :=
  ⟨a.clientSessionId, 0, a.clientPacketId, none⟩

def dispatchReceivedProxiedPacket (a : UdpAssociationContext) (env : ProxyEnv) :
    UdpAssociationContext × Option (Nat × UdpSocketControlData) :=
  let a := a.advance env.newSessionId
  match a.proxiedSocket, env.connected with
  | none, false => (a, none)
  | none, true =>
    ({ a with proxiedSocket := if env.sent then some env.server else none }, some (env.server, a.control))
  | some server, _ =>
    ({ a with proxiedSocket := if env.sent then some server else none }, some (server, a.control))

def UdpAssociationContext.sessions (a : UdpAssociationContext) : LruCache UInt64 PacketWindowFilter :=
  a.serverSession.getD (.withExpiryDuration a.serverSessionExpireDuration)

def UdpAssociationContext.window (a : UdpAssociationContext) (now : Nat) (serverSessionId : UInt64) :
    PacketWindowFilter :=
  (a.sessions.lookup now serverSessionId).getD .new

def UdpAssociationContext.acceptReply (a : UdpAssociationContext) (now : Nat)
    (control : UdpSocketControlData) : Bool × UdpAssociationContext :=
  let (ok, filter) := (a.window now control.serverSessionId).validatePacketId control.packetId u64Max
  (ok, { a with serverSession := some (a.sessions.insert now control.serverSessionId filter) })

/-! ## 2. The machine -/

structure UdpAssociation where
  context : UdpAssociationContext
  now : Nat
  running : Bool

def UdpAssociation.create (peerAddr : SocketAddr) (clientSessionId : UInt64) (expireDuration now : Nat) :
    UdpAssociation :=
  ⟨.create peerAddr clientSessionId expireDuration, now, true⟩

inductive Event where
  | elapse (duration : Nat)
  | bypassed (target : Address) (data : Bytes) (env : BypassEnv)
  | proxied (target : Address) (data : Bytes) (env : ProxyEnv)
  | bypassedReply (v4 : Bool) (source : SocketAddr) (data : Bytes)
  | bypassedError (v4 : Bool)
  | proxiedReply (datagram : Bytes)
  | proxiedError
  | keepaliveTick (room : Bool)
  | closed

inductive Output where
  | direct (target : SocketAddr) (data : Bytes)
  | renewed (clientSessionId : UInt64)
  | request (server : Nat) (control : UdpSocketControlData) (target : Address) (data : Bytes)
  | respondBypassed (peerAddr : SocketAddr) (addr : Address) (data : Bytes)
  | respond (peerAddr : SocketAddr) (addr : Address) (data : Bytes) (control : Option UdpSocketControlData)
  | keepalive (peerAddr : SocketAddr)
  deriving DecidableEq

def UdpAssociationContext.bypassedSocket (a : UdpAssociationContext) (v4 : Bool) : Bool :=
  if v4 then a.bypassedIpv4Socket else a.bypassedIpv6Socket

def UdpAssociationContext.closeBypassed (a : UdpAssociationContext) (v4 : Bool) : UdpAssociationContext :=
  if v4 then { a with bypassedIpv4Socket := false } else { a with bypassedIpv6Socket := false }

def renewal (a : UdpAssociationContext) (env : ProxyEnv) : List Output :=
  if a.clientPacketId = u64Max then [.renewed env.newSessionId] else []

variable (s : UdpAssociation) (server : ProxyServer) (datagram : Bytes)

def receiveReply :
    UdpAssociation × List Output :=
  let a := s.context
  match decryptServerPayload server.kind (wallClock s.now) server.key datagram with
  | .ok (data, addr, none) =>
    ({ s with context := { a with keepaliveFlag := true } }, [.respond a.peerAddr addr data none])
  | .ok (data, addr, some control) =>
    match a.acceptReply s.now control with
    | (true, a) =>
      ({ s with context := { a with keepaliveFlag := true } }, [.respond a.peerAddr addr data (some control)])
    | (false, a) => ({ s with context := a }, [])
  | .err _ => ({ s with context := { a with proxiedSocket := none } }, [])
  | .panic => ({ s with running := false }, [])

def step (cfg : Config) (s : UdpAssociation) (e : Event) : UdpAssociation × List Output :=
  match s.running, e with
  | _, .elapse duration => ({ s with now := s.now + duration }, [])
  | false, _ => (s, [])
  | true, .bypassed target data env =>
    match dispatchReceivedBypassedPacket cfg s.context target env with
    | .ok (a, sent) => ({ s with context := a }, sent.toList.map (.direct · data))
    | .err e => e.elim
    | .panic => ({ s with running := false }, [])
  | true, .proxied target data env =>
    let (a, sent) := dispatchReceivedProxiedPacket s.context env
    ({ s with context := a }, renewal s.context env ++ sent.toList.map fun x => .request x.1 x.2 target data)
  | true, .bypassedReply v4 source data =>
    if s.context.bypassedSocket v4 then
      ({ s with context := { s.context with keepaliveFlag := true } },
        [.respondBypassed s.context.peerAddr (.socketAddress source) data])
    else (s, [])
  | true, .bypassedError v4 => ({ s with context := s.context.closeBypassed v4 }, [])
  | true, .proxiedReply datagram =>
    match s.context.proxiedSocket with
    | none => (s, [])
    | some server => receiveReply s (cfg.server server) datagram
  | true, .proxiedError => ({ s with context := { s.context with proxiedSocket := none } }, [])
  | true, .keepaliveTick room =>
    if s.context.keepaliveFlag && room then
      ({ s with context := { s.context with keepaliveFlag := false } }, [.keepalive s.context.peerAddr])
    else (s, [])
  | true, .closed => ({ s with running := false }, [])

/-! ## 3. What a round can do -/

def requests (log : List Output) : List UdpSocketControlData :=
  log.filterMap fun
    | .request _ control _ _ => some control
    | _ => none

def renewals (log : List Output) : List UInt64 :=
  log.filterMap fun
    | .renewed id => some id
    | _ => none

def forwarded (log : List Output) : List UdpSocketControlData :=
  log.filterMap fun
    | .respond _ _ _ control => control
    | _ => none

theorem requests_append (log log' : List Output) : requests (log ++ log') = requests log ++ requests log' :=
  filterMap_append

theorem renewals_append (log log' : List Output) : renewals (log ++ log') = renewals log ++ renewals log' :=
  filterMap_append

structure Proxied (a : UdpAssociationContext) (env : ProxyEnv) (a' : UdpAssociationContext)
    (sent : Option (Nat × UdpSocketControlData)) : Prop where
  session : a'.clientSessionId = (a.advance env.newSessionId).clientSessionId
  packet : a'.clientPacketId = (a.advance env.newSessionId).clientPacketId
  control : ∀ x ∈ sent, x.2 = a'.control
  closed : sent = none → a'.proxiedSocket = none

theorem dispatch_proxied (a : UdpAssociationContext) (env : ProxyEnv) :
    Proxied a env (dispatchReceivedProxiedPacket a env).1 (dispatchReceivedProxiedPacket a env).2 := by
  unfold dispatchReceivedProxiedPacket
  dsimp only
  split
  · rename_i hnone _
    exact ⟨rfl, rfl, nofun, fun _ => hnone⟩
  · refine ⟨rfl, rfl, ?_, nofun⟩
    rintro x ⟨⟩
    rfl
  · refine ⟨rfl, rfl, ?_, nofun⟩
    rintro x ⟨⟩
    rfl

def requested (a : UdpAssociationContext) (env : ProxyEnv) (target : Address) (data : Bytes)
    (sent : Option (Nat × UdpSocketControlData)) : List Output :=
  renewal a env ++ sent.toList.map fun x => .request x.1 x.2 target data

structure Quiet (a a' : UdpAssociationContext) (os : List Output) : Prop where
  session : a'.clientSessionId = a.clientSessionId
  packet : a'.clientPacketId = a.clientPacketId
  socket : a'.proxiedSocket = none ∨ a'.proxiedSocket = a.proxiedSocket
  requests : requests os = []
  renewals : renewals os = []

/-- **Everything a round does to the session.** -/
inductive Ran (s s' : UdpAssociation) : List Output → Prop
  | quiet (os : List Output) (h : Quiet s.context s'.context os) : Ran s s' os
  | proxied (env : ProxyEnv) (target : Address) (data : Bytes) (sent : Option (Nat × UdpSocketControlData))
      (h : Proxied s.context env s'.context sent) : Ran s s' (requested s.context env target data sent)

theorem Quiet.silent (a : UdpAssociationContext) : Quiet a a [] := ⟨rfl, rfl, .inr rfl, rfl, rfl⟩

def OnlyBypassed (a a' : UdpAssociationContext) : Prop :=
  a' = { a with bypassedIpv4Socket := a'.bypassedIpv4Socket
                bypassedIpv6Socket := a'.bypassedIpv6Socket }

theorem OnlyBypassed.trans {a b c : UdpAssociationContext} (h : OnlyBypassed a b)
    (h' : OnlyBypassed b c) : OnlyBypassed a c := by
  unfold OnlyBypassed at *
  rw [h'] at *
  rw [h]

theorem sendReceivedBypassedPacket_sockets
    (target : SocketAddr) (env : Attempt) : OnlyBypassed a (sendReceivedBypassedPacket cfg a target env).1 := by
  unfold sendReceivedBypassedPacket
  dsimp only
  split
  all_goals
    split
    · rfl
    · split
      · rfl
      · rfl

theorem sendToFirst_bypassed
    (addrs : List (SocketAddr × Attempt)) : OnlyBypassed a (sendToFirst cfg a addrs).1 := by
  induction addrs generalizing a with
  | nil => rfl
  | cons x rest ih =>
    obtain ⟨target, env⟩ := x
    have hone := sendReceivedBypassedPacket_sockets cfg a target env
    simp only [sendToFirst]
    split
    · rename_i b sent heq
      rwa [heq] at hone
    · rename_i b heq
      rw [heq] at hone
      exact hone.trans (ih b)

variable {a a' : UdpAssociationContext}

theorem dispatch_bypassed {cfg : Config} {target : Address} {env : BypassEnv} {sent : Option SocketAddr}
    (h : dispatchReceivedBypassedPacket cfg a target env = .ok (a', sent)) : OnlyBypassed a a' := by
  unfold dispatchReceivedBypassedPacket at h
  split at h
  · rename_i sa
    injection h with h
    have hone := sendReceivedBypassedPacket_sockets cfg a sa env.direct
    rwa [h] at hone
  split at h
  · cases h
    rfl
  · cases h
  · rename_i addrs _ _
    injection h with h
    have hall := sendToFirst_bypassed cfg a (lookupOrder cfg.ip addrs)
    rwa [h] at hall

theorem OnlyBypassed.quiet (h : OnlyBypassed a a') (sent : Option SocketAddr) (data : Bytes) :
    Quiet a a' (sent.toList.map fun target => .direct target data) := by
  rw [h]
  refine ⟨rfl, rfl, .inr rfl, ?_, ?_⟩
  · cases sent <;> rfl
  · cases sent <;> rfl

theorem acceptReply_quiet (a : UdpAssociationContext) (now : Nat) (control : UdpSocketControlData) :
    (a.acceptReply now control).2 = { a with serverSession := (a.acceptReply now control).2.serverSession } := rfl

theorem receiveReply_quiet :
    Quiet s.context (receiveReply s server datagram).1.context (receiveReply s server datagram).2 := by
  unfold receiveReply
  dsimp only
  split
  · exact ⟨rfl, rfl, .inr rfl, rfl, rfl⟩
  · rename_i control _
    split <;> rename_i a' heq
    · have ha : a' = _ := (congrArg Prod.snd heq).symm.trans (acceptReply_quiet s.context s.now control)
      rw [ha]
      exact ⟨rfl, rfl, .inr rfl, rfl, rfl⟩
    · have ha : a' = _ := (congrArg Prod.snd heq).symm.trans (acceptReply_quiet s.context s.now control)
      rw [ha]
      exact ⟨rfl, rfl, .inr rfl, rfl, rfl⟩
  · exact ⟨rfl, rfl, .inl rfl, rfl, rfl⟩
  · exact .silent s.context

variable (cfg : Config)

theorem step_ran (s : UdpAssociation) (e : Event) : Ran s (step cfg s e).1 (step cfg s e).2 := by
  unfold step
  split
  · exact .quiet _ (.silent s.context)
  · exact .quiet _ (.silent s.context)
  · split
    · rename_i hok
      exact .quiet _ ((dispatch_bypassed hok).quiet _ _)
    · rename_i e _
      exact e.elim
    · exact .quiet _ (.silent s.context)
  · exact .proxied _ _ _ _ (dispatch_proxied s.context _)
  · split
    · exact .quiet _ ⟨rfl, rfl, .inr rfl, rfl, rfl⟩
    · exact .quiet _ (.silent s.context)
  · refine .quiet _ ?_
    unfold UdpAssociationContext.closeBypassed
    split
    · exact ⟨rfl, rfl, .inr rfl, rfl, rfl⟩
    · exact ⟨rfl, rfl, .inr rfl, rfl, rfl⟩
  · split
    · exact .quiet _ (.silent s.context)
    · exact .quiet _ (receiveReply_quiet s _ _)
  · exact .quiet _ ⟨rfl, rfl, .inl rfl, rfl, rfl⟩
  · split
    · exact .quiet _ ⟨rfl, rfl, .inr rfl, rfl, rfl⟩
    · exact .quiet _ (.silent s.context)
  · exact .quiet _ (.silent s.context)

/-! ## 4. Whose replies the client gets -/

def requestSession (log : List Output) : Option UInt64 :=
  (requests log).getLast?.map UdpSocketControlData.clientSessionId

def controlOf (x : Outcome ProtocolError (Bytes × Address × Option UdpSocketControlData)) :
    Option UdpSocketControlData :=
  match x with
  | .ok (_, _, control) => control
  | _ => none

def replyControl (s : UdpAssociation) : Event → Option UdpSocketControlData
  | .proxiedReply datagram =>
    if s.running then
      s.context.proxiedSocket.bind fun server =>
        controlOf (decryptServerPayload (cfg.server server).kind (wallClock s.now)
          (cfg.server server).key datagram)
    else none
  | _ => none

def InWindow (s : UdpAssociation) (control : UdpSocketControlData) : Prop :=
  ((s.context.window s.now control.serverSessionId).validatePacketId control.packetId u64Max).1 = true

instance (s : UdpAssociation) (control : UdpSocketControlData) : Decidable (InWindow s control) :=
  inferInstanceAs (Decidable (_ = true))

theorem forwarded_direct (sent : Option SocketAddr) (data : Bytes) :
    forwarded (sent.toList.map fun target => .direct target data) = [] := by
  cases sent with
  | none | some target => rfl

theorem forwarded_requested (a : UdpAssociationContext) (env : ProxyEnv) (target : Address)
    (data : Bytes) (sent : Option (Nat × UdpSocketControlData)) :
    forwarded (requested a env target data sent) = [] := by
  unfold requested renewal
  cases sent with
  | none | some x => split <;> rfl

theorem acceptReply_fst (s : UdpAssociation) (control : UdpSocketControlData) :
    (s.context.acceptReply s.now control).1 = decide (InWindow s control) :=
  Bool.decide_eq_true.symm

theorem receiveReply_forwards :
    forwarded (receiveReply s server datagram).2 =
      ((controlOf (decryptServerPayload server.kind (wallClock s.now) server.key datagram)).filter
        (InWindow s ·)).toList := by
  unfold receiveReply
  cases decryptServerPayload server.kind (wallClock s.now) server.key datagram with
  | err e | panic => rfl
  | ok x =>
    obtain ⟨data, addr, control⟩ := x
    cases control with
    | none => rfl
    | some control =>
      simp only [controlOf, Option.filter, ← acceptReply_fst]
      rcases s.context.acceptReply s.now control with ⟨ok, a⟩
      cases ok with
      | true | false => rfl

theorem step_forwards (s : UdpAssociation) (e : Event) :
    forwarded (step cfg s e).2 = ((replyControl cfg s e).filter (InWindow s ·)).toList := by
  unfold step
  split
  · rfl
  · rename_i hdown _
    unfold replyControl
    split
    · rw [hdown]
      rfl
    · rfl
  · split
    · exact forwarded_direct _ _
    · rename_i e _
      exact e.elim
    · rfl
  · exact forwarded_requested s.context _ _ _ _
  · split
    · rfl
    · rfl
  · rfl
  · rename_i datagram hup
    simp only [replyControl, hup, if_true]
    cases s.context.proxiedSocket with
    | none => rfl
    | some server => exact receiveReply_forwards s (cfg.server server) datagram
  · rfl
  · split
    · rfl
    · rfl
  · rfl

variable {s : UdpAssociation}

theorem open_requestSession (hnew : s.context.proxiedSocket = none)
    (es : List Event) (hopen : (run (step cfg) s es).1.context.proxiedSocket ≠ none) :
    requestSession (run (step cfg) s es).2 = some (run (step cfg) s es).1.context.clientSessionId := by
  revert hopen
  refine run_inv_always (I := fun (s : UdpAssociation) log =>
    s.context.proxiedSocket ≠ none → requestSession log = some s.context.clientSessionId)
    (fun h => absurd hnew h) ?_ es
  intro s log e ih hopen
  have hran := step_ran cfg s e
  revert hran hopen
  generalize (step cfg s e).1 = s'
  generalize (step cfg s e).2 = os
  intro hopen hran
  cases hran with
  | quiet _ h =>
    have hsame : s'.context.proxiedSocket = s.context.proxiedSocket := h.socket.resolve_left hopen
    rw [requestSession, requests_append, h.requests, append_nil, h.session]
    exact ih (hsame ▸ hopen)
  | proxied env target data sent h =>
    cases sent with
    | none => exact absurd (h.closed rfl) hopen
    | some x =>
      have hlast : requests (requested s.context env target data (some x)) = [x.2] := by
        unfold requested renewal
        split <;> rfl
      rw [requestSession, requests_append, hlast, getLast?_concat, h.control x rfl]
      rfl

def Stray (s : UdpAssociation) (e : Event) : Prop :=
  ∃ control ∈ replyControl cfg s e, control.clientSessionId ≠ s.context.clientSessionId ∧ InWindow s control

variable {control : UdpSocketControlData}

theorem replyControl_open {cfg : Config} {e : Event}
    (h : control ∈ replyControl cfg s e) : s.context.proxiedSocket ≠ none := by
  intro hclosed
  unfold replyControl at h
  split at h
  · rw [hclosed] at h
    split at h
    · cases h
    · cases h
  · cases h

/-- **The replies of a run are for the session of its requests exactly as long as no stray reply
    comes.** -/
theorem replies_own_iff (cfg : Config) (peerAddr : SocketAddr) (clientSessionId : UInt64)
    (expireDuration now : Nat) (es : List Event) : (∀ front e rest, es = front ++ e :: rest →
      let (s, log) := run (step cfg) (.create peerAddr clientSessionId expireDuration now) front
      ∀ control ∈ forwarded (step cfg s e).2, requestSession log = some control.clientSessionId) ↔
      Along (step cfg) (fun s e => ¬ Stray cfg s e)
        (.create peerAddr clientSessionId expireDuration now) es := by
  rw [along_iff]
  refine forall₃_congr fun front e rest => imp_congr_right fun _ => ?_
  have hopen := open_requestSession cfg
    (s := .create peerAddr clientSessionId expireDuration now) rfl front
  generalize run (step cfg) _ front = r at hopen ⊢
  simp only [step_forwards]
  constructor
  · rintro hown ⟨control, hreply, hother, hwindow⟩
    have hsession := hown control (by simp [Option.mem_def.mp hreply, hwindow])
    rw [hopen (replyControl_open hreply)] at hsession
    exact hother (Option.some.inj hsession).symm
  intro hno control hmem
  obtain ⟨hreply, hwindow⟩ : control ∈ replyControl cfg r.1 e ∧ InWindow r.1 control := by
    simpa [Option.mem_toList, Option.filter_eq_some_iff] using hmem
  rw [hopen (replyControl_open hreply)]
  by_contra hother
  exact hno ⟨control, hreply, fun heq => hother (congrArg some heq.symm), hwindow⟩

def someConfig : Config := ⟨⟨true, true, false⟩, true, fun _ => ⟨.aead2022 taggedMethod, keyOf 1, []⟩⟩

def replyTo (clientSessionId : UInt64) : Bytes :=
  match encryptServerPayload (ε := Empty) (.aead2022 taggedMethod) env₀ (keyOf 1)
    (.socketAddress (.v4 ⟨1, 53⟩)) ⟨clientSessionId, 5, 1, none⟩ [7, 8] with
  | .ok datagram => datagram
  | _ => []

/-- **A reply for another session is handed on**: the association of session 3 gets the reply to
session 4. -/
theorem reply_stray :
    let (_, log) := run (step someConfig) (.create (.v4 ⟨0, 9⟩) 3 60 (100 * nanos))
      [.proxied (.socketAddress (.v4 ⟨1, 53⟩)) [1] ⟨0, 0, true, true⟩, .proxiedReply (replyTo 4)]
    requestSession log = some 3 ∧ forwarded log = [⟨4, 5, 1, none⟩] ∧ log.getLast? =
        some (.respond (.v4 ⟨0, 9⟩) (.socketAddress (.v4 ⟨1, 53⟩)) [7, 8] (some ⟨4, 5, 1, none⟩)) := by
  decide +kernel

/-! ## 5. Datagrams that are no replies -/

def WindowsOk (a : UdpAssociationContext) : Prop :=
  a.sessions.capacity = none ∧ ∀ e ∈ a.sessions.entries, ∃ acc, WindowInv e.value acc

section

variable {a : UdpAssociationContext}

theorem WindowsOk.window (h : WindowsOk a) (now : Nat) (serverSessionId : UInt64) :
    ∃ acc, WindowInv (a.window now serverSessionId) acc := by
  unfold UdpAssociationContext.window
  cases hl : a.sessions.lookup now serverSessionId with
  | none => exact ⟨[], windowInv_new⟩
  | some filter =>
    obtain ⟨e, he, -, rfl⟩ := LruCache.mem_of_lookup hl
    exact h.2 e he

theorem WindowsOk.acceptReply (h : WindowsOk a) (now : Nat) (control : UdpSocketControlData) :
    WindowsOk (a.acceptReply now control).2 := by
  obtain ⟨acc, hacc⟩ := h.window now control.serverSessionId
  show (a.sessions.insert now _ _).capacity = none ∧ ∀ e ∈ (a.sessions.insert now _ _).entries, _
  refine ⟨by rw [LruCache.insert_unbounded h.1]; exact h.1, fun e he => ?_⟩
  rcases LruCache.mem_of_insert he with hold | rfl
  · exact h.2 e hold
  · exact ⟨_, (validatePacketId_step hacc control.packetId u64Max).2⟩

theorem receiveReply_windowsOk (h : WindowsOk s.context) (server : ProxyServer) (datagram : Bytes) :
    WindowsOk (receiveReply s server datagram).1.context := by
  unfold receiveReply
  dsimp only
  split
  · exact h
  · rename_i control _
    have hreply := h.acceptReply s.now control
    split
    all_goals
      rename_i heq
      rwa [heq] at hreply
  · exact h
  · exact h

theorem step_windowsOk (h : WindowsOk s.context) (e : Event) :
    WindowsOk (step cfg s e).1.context := by
  unfold step
  split
  · exact h
  · exact h
  · split
    · rename_i hok
      rwa [dispatch_bypassed hok]
    · rename_i e _
      exact e.elim
    · exact h
  · unfold dispatchReceivedProxiedPacket UdpAssociationContext.advance
    dsimp only
    split <;> split <;> exact h
  · split <;> exact h
  · unfold UdpAssociationContext.closeBypassed
    split <;> exact h
  · split
    · exact h
    · exact receiveReply_windowsOk h _ _
  · exact h
  · split <;> exact h
  · exact h

theorem window_refused (h : WindowsOk a) {now : Nat}
    (href : (a.acceptReply now control).1 = false) (serverSessionId : UInt64) :
    (a.acceptReply now control).2.window now serverSessionId = a.window now serverSessionId := by
  obtain ⟨acc, hacc⟩ := h.window now control.serverSessionId
  have hsame := validatePacketId_refused hacc href
  show ((a.sessions.insert now control.serverSessionId
    ((a.window now control.serverSessionId).validatePacketId control.packetId u64Max).2).lookup now
      serverSessionId).getD .new = _
  rw [hsame, LruCache.insert_unbounded h.1, LruCache.lookup_touch]
  split
  · rename_i heq
    rw [heq]
    rfl
  · rfl

end

def SameSession (s s' : UdpAssociation) : Prop :=
  s'.running = s.running ∧ s'.now = s.now ∧ s'.context.proxiedSocket = s.context.proxiedSocket ∧
    s'.context.clientSessionId = s.context.clientSessionId ∧ s'.context.clientPacketId = s.context.clientPacketId

def Opens (s : UdpAssociation) (datagram : Bytes) : Prop :=
  ∀ server ∈ s.context.proxiedSocket, ∃ x,
    decryptServerPayload (cfg.server server).kind (wallClock s.now) (cfg.server server).key datagram = .ok x

def Deaf (s : UdpAssociation) : Prop := s.running = false ∨ s.context.proxiedSocket = none

section

variable {cfg : Config} {s : UdpAssociation}

theorem step_deaf (h : Deaf s) (datagram : Bytes) : (step cfg s (.proxiedReply datagram)).1 = s := by
  unfold step
  rcases h with h | h
  · rw [h]
  · rw [h]
    cases s.running <;> rfl

theorem step_reply (hrun : s.running = true) (datagram : Bytes) :
    (Opens cfg s datagram → SameSession s (step cfg s (.proxiedReply datagram)).1) ∧
      (¬Opens cfg s datagram → ¬Deaf s ∧ Deaf (step cfg s (.proxiedReply datagram)).1) := by
  unfold Opens Deaf step
  rw [hrun]
  cases hsock : s.context.proxiedSocket with
  | none => exact ⟨fun _ => ⟨rfl, rfl, rfl, rfl, rfl⟩, fun h => absurd nofun h⟩
  | some server =>
    dsimp only
    unfold receiveReply
    cases hd : decryptServerPayload (cfg.server server).kind (wallClock s.now) (cfg.server server).key datagram with
    | ok x =>
      obtain ⟨data, addr, control⟩ := x
      refine ⟨fun _ => ?_, fun h => absurd ?_ h⟩
      · cases control with
        | none => exact ⟨rfl, rfl, rfl, rfl, rfl⟩
        | some control =>
          dsimp only
          rw [show s.context.acceptReply s.now control = ((s.context.acceptReply s.now control).1, _) from rfl]
          cases (s.context.acceptReply s.now control).1 <;> exact ⟨rfl, rfl, rfl, rfl, rfl⟩
      · rintro server' ⟨⟩
        exact ⟨_, hd⟩
    | err e =>
      refine ⟨fun h => ?_, fun _ => ⟨by simp, .inr rfl⟩⟩
      obtain ⟨x, hx⟩ := h server rfl
      cases hd.symm.trans hx
    | panic =>
      refine ⟨fun h => ?_, fun _ => ⟨by simp, .inl rfl⟩⟩
      obtain ⟨x, hx⟩ := h server rfl
      cases hd.symm.trans hx

theorem run_deaf (h : Deaf s) (datagrams : List Bytes) : (run (step cfg) s (datagrams.map .proxiedReply)).1 = s := by
  induction datagrams with
  | nil => rfl
  | cons d ds ih =>
    rwa [map_cons, Lib.run, step_deaf h]

theorem run_reply_iff (hrun : s.running = true) (datagrams : List Bytes) :
    SameSession s (run (step cfg) s (datagrams.map .proxiedReply)).1 ↔ ∀ d ∈ datagrams, Opens cfg s d := by
  induction datagrams generalizing s with
  | nil => exact ⟨fun _ => nofun, fun _ => ⟨rfl, rfl, rfl, rfl, rfl⟩⟩
  | cons d ds ih =>
    rw [map_cons, Lib.run, forall_mem_cons]
    by_cases hopen : Opens cfg s d
    · obtain ⟨hr, hnow, hsock, hid, hpacket⟩ := (step_reply hrun d).1 hopen
      have hrest := ih (hr.trans hrun)
      simp only [SameSession, Opens, hr, hnow, hsock, hid, hpacket] at hrest ⊢
      rw [hrest]
      exact ⟨fun h => ⟨hopen, h⟩, fun h => h.2⟩
    obtain ⟨hears, hgone⟩ := (step_reply hrun d).2 hopen
    rw [run_deaf hgone]
    refine iff_of_false (fun h => hears ?_) fun h => hopen h.1
    unfold Deaf at hgone ⊢
    rwa [h.1, h.2.2.1] at hgone

end

/-- **Datagrams that are no replies**: the task outlives them exactly if all can be opened; one that is refused leaves
the windows. -/
theorem replies_survive_iff (cfg : Config) (peerAddr : SocketAddr) (clientSessionId : UInt64) (expireDuration now : Nat)
    (events : List Event) (datagrams : List Bytes) :
    let s := (run (step cfg) (.create peerAddr clientSessionId expireDuration now) events).1
    (SameSession s (run (step cfg) s (datagrams.map .proxiedReply)).1 ↔
        (s.running = true → ∀ d ∈ datagrams, Opens cfg s d)) ∧
      ∀ control, (s.context.acceptReply s.now control).1 = false → ∀ serverSessionId,
        (s.context.acceptReply s.now control).2.window s.now serverSessionId =
          s.context.window s.now serverSessionId := by
  intro s
  constructor
  · cases hrun : s.running with
    | true => exact (run_reply_iff hrun datagrams).trans ⟨fun h _ => h, fun h => h rfl⟩
    | false =>
      rw [run_deaf (.inl hrun)]
      exact iff_of_true ⟨rfl, rfl, rfl, rfl, rfl⟩ nofun
  · have hok : WindowsOk s.context :=
      run_inv_always (I := fun (s : UdpAssociation) _ => WindowsOk s.context)
        ⟨rfl, fun e he => absurd he not_mem_nil⟩ (fun s _ e h => step_windowsOk cfg h e) events
    exact fun control href => window_refused hok href

/-- Three bytes from anybody, and the server's reply is not delivered any more. -/
theorem garbage_closes_socket :
    let request : Event := .proxied (.socketAddress (.v4 ⟨1, 53⟩)) [1] ⟨0, 0, true, true⟩
    let start : UdpAssociation := .create (.v4 ⟨0, 9⟩) 3 60 (100 * nanos)
    forwarded (run (step someConfig) start [request, .proxiedReply (replyTo 3)]).2 = [⟨3, 5, 1, none⟩] ∧
      forwarded (run (step someConfig) start [request, .proxiedReply [1, 2, 3], .proxiedReply (replyTo 3)]).2 = [] := by
  decide +kernel

end Shadowsocks.Local
