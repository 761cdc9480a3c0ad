/-
  Subject:   ONE ASSOCIATION OF THE UDP SERVER (`UdpAssociationContext` of `server/udprelay.rs` of the service).
  What the environment answers comes in with the packet (`DispatchEnv`).
-/
import Shadowsocks.Net.PacketWindow
import Shadowsocks.Udp.CryptoIo

namespace Shadowsocks.Server

open Lib Udp PacketWindow

/-! ## 1. The association as the source has it -/

structure Origin where
  datagram : Bytes
  receivedAt : Nat

structure Message where
  peerAddr : SocketAddr
  targetAddr : Address
  data : Bytes
  control : Option UdpSocketControlData
  origin : Origin

structure ClientSessionContext where
  clientSessionId : UInt64
  packetWindowFilter : PacketWindowFilter
  clientUser : Option ServerUser

def ClientSessionContext.new (clientSessionId : UInt64) : ClientSessionContext :=
  ⟨clientSessionId, .new, none⟩

structure UdpAssociationContext where
  peerAddr : SocketAddr
  (outboundIpv4Socket outboundIpv6Socket keepaliveFlag : Bool)
  clientSession : Option ClientSessionContext
  (serverSessionId serverPacketId : UInt64)

def UdpAssociationContext.create (peerAddr : SocketAddr) (clientSessionId : Option UInt64)
    (serverSessionId : UInt64) : UdpAssociationContext where
  peerAddr := peerAddr
  outboundIpv4Socket := false
  outboundIpv6Socket := false
  keepaliveFlag := false
  clientSession := clientSessionId.map .new
  serverSessionId := serverSessionId
  serverPacketId := 0

structure IpStack where
  (supportIpv6 supportIpv4MappedIpv6 ipv6First : Bool)

def u64Max : UInt64 := 0xffffffffffffffff

def toIpv6Mapped (ip : UInt32) : BitVec 128 := 0xffff00000000#128 ||| BitVec.ofNat 128 ip.toNat

def toIpv4Mapped (ip : BitVec 128) : Option UInt32 :=
  if ip >>> 32 = 0xffff#128 then some (UInt32.ofNat ip.toNat) else none

structure Attempt where
  (connected sent : Bool)

structure DispatchEnv where
  outboundBlocked : Bool
  direct : Attempt
  resolved : Option (List (SocketAddr × Attempt))

def mappedTarget (ip : IpStack) : SocketAddr → SocketAddr
  | .v4 a => if ip.supportIpv4MappedIpv6 then .v6 ⟨toIpv6Mapped a.ip, a.port, 0, 0⟩ else .v4 a
  | .v6 a =>
    if !ip.supportIpv6 || !ip.supportIpv4MappedIpv6 then
      match toIpv4Mapped a.ip with
      | some v4 => .v4 ⟨v4, a.port⟩
      | none => .v6 a
    else .v6 a

def sendReceivedOutboundPacket (ip : IpStack) (a : UdpAssociationContext) (target : SocketAddr)
    (env : Attempt) : UdpAssociationContext × Option SocketAddr :=
  let sent := if env.sent then some (mappedTarget ip target) else none
  match mappedTarget ip target with
  | .v4 _ =>
    if a.outboundIpv4Socket then (a, sent)
    else if env.connected then ({ a with outboundIpv4Socket := true }, sent)
    else (a, none)
  | .v6 _ =>
    if a.outboundIpv6Socket then (a, sent)
    else if env.connected then ({ a with outboundIpv6Socket := true }, sent)
    else (a, none)

def sendToFirst (ip : IpStack) (a : UdpAssociationContext) :
    List (SocketAddr × Attempt) → UdpAssociationContext × Option SocketAddr
  | [] => (a, none)
  | (target, env) :: rest =>
    match sendReceivedOutboundPacket ip a target env with
    | (a, some sent) => (a, some sent)
    | (a, none) => sendToFirst ip a rest

def SocketAddr.isV4 : SocketAddr → Bool
  | .v4 _ => true
  | .v6 _ => false

def lookupOrder (ip : IpStack) (addrs : List (SocketAddr × Attempt)) : List (SocketAddr × Attempt) :=
  let v4Addrs := addrs.filter fun x => SocketAddr.isV4 x.1
  let v6Addrs := addrs.filter fun x => !SocketAddr.isV4 x.1
  if ip.ipv6First then v6Addrs ++ v4Addrs else v4Addrs ++ v6Addrs

def dispatchReceivedOutboundPacket (ip : IpStack) (a : UdpAssociationContext) (target : Address)
    (env : DispatchEnv) : Outcome Empty (UdpAssociationContext × Option SocketAddr) :=
  match target with
  | .socketAddress sa => .ok (sendReceivedOutboundPacket ip a sa env.direct)
  | .domainNameAddress _ _ =>
    match env.resolved with
    | none => .ok (a, none)
    | some [] => .panic
    | some addrs => .ok (sendToFirst ip a (lookupOrder ip addrs))

def UdpAssociationContext.followPeer (a : UdpAssociationContext) (peerAddr : SocketAddr) :
    UdpAssociationContext :=
  if a.clientSession.isSome ∧ peerAddr ≠ a.peerAddr then { a with peerAddr := peerAddr } else a

def UdpAssociationContext.validateControl (a : UdpAssociationContext) (control : UdpSocketControlData) :
    Bool × UdpAssociationContext :=
  let session := a.clientSession.getD (.new control.clientSessionId)
  match session.packetWindowFilter.validatePacketId control.packetId u64Max with
  | (false, f) => (false, { a with clientSession := some { session with packetWindowFilter := f } })
  | (true, f) =>
    let session := { session with packetWindowFilter := f, clientUser := control.user }
    (true, { a with clientSession := some session })

def UdpAssociationContext.checkPacket (a : UdpAssociationContext) (m : Message) (outboundBlocked : Bool) :
    Bool × UdpAssociationContext :=
  let a := a.followPeer m.peerAddr
  if outboundBlocked then (false, a)
  else
    match m.control with
    | none => (true, a)
    | some control => a.validateControl control

def dispatchReceivedPacket (ip : IpStack) (a : UdpAssociationContext) (m : Message)
    (env : DispatchEnv) : Outcome Empty (UdpAssociationContext × Option SocketAddr) :=
  match a.checkPacket m env.outboundBlocked with
  | (false, a) => .ok (a, none)
  | (true, a) => dispatchReceivedOutboundPacket ip a m.targetAddr env

structure Reply where
  peerAddr : SocketAddr
  addr : Address
  control : Option UdpSocketControlData
  data : Bytes

def replyAddr : SocketAddr → Address
  | .v4 a => .socketAddress (.v4 a)
  | .v6 a =>
    match toIpv4Mapped a.ip with
    | some v4 => .socketAddress (.v4 ⟨v4, a.port⟩)
    | none => .socketAddress (.v6 a)

def sendReceivedRespondPacket (a : UdpAssociationContext) (source : SocketAddr) (data : Bytes) :
    UdpAssociationContext × Option Reply :=
  let a := { a with keepaliveFlag := true }
  match a.clientSession with
  | none => (a, some ⟨a.peerAddr, replyAddr source, none, data⟩)
  | some session =>
    if a.serverPacketId = u64Max then (a, none)
    else
      let a := { a with serverPacketId := a.serverPacketId + 1 }
      (a, some ⟨a.peerAddr, replyAddr source,
        some ⟨session.clientSessionId, a.serverSessionId, a.serverPacketId, session.clientUser⟩, data⟩)

/-! ## 2. Steps that leave the session alone -/

def OnlySockets (a a' : UdpAssociationContext) : Prop :=
  a' = { a with outboundIpv4Socket := a'.outboundIpv4Socket
                outboundIpv6Socket := a'.outboundIpv6Socket }

theorem OnlySockets.refl (a : UdpAssociationContext) : OnlySockets a a := rfl

variable {a : UdpAssociationContext}

theorem OnlySockets.trans {b c : UdpAssociationContext} (h : OnlySockets a b) (h' : OnlySockets b c) :
    OnlySockets a c := by
  unfold OnlySockets at *
  rw [h'] at *
  rw [h]

theorem sendReceivedOutboundPacket_sockets (ip : IpStack) (a : UdpAssociationContext)
    (target : SocketAddr) (env : Attempt) : OnlySockets a (sendReceivedOutboundPacket ip a target env).1 := by
  unfold sendReceivedOutboundPacket
  dsimp only
  split
  all_goals
    split
    · exact .refl a
    · split
      · rfl
      · exact .refl a

theorem sendToFirst_sockets (ip : IpStack) (a : UdpAssociationContext)
    (addrs : List (SocketAddr × Attempt)) : OnlySockets a (sendToFirst ip a addrs).1 := by
  induction addrs generalizing a with
  | nil => exact .refl a
  | cons x rest ih =>
    obtain ⟨target, env⟩ := x
    have hone := sendReceivedOutboundPacket_sockets ip a target env
    simp only [sendToFirst]
    split
    · rename_i b sent heq
      rwa [heq] at hone
    · rename_i b heq
      rw [heq] at hone
      exact hone.trans (ih b)

variable {a' : UdpAssociationContext} {env : DispatchEnv} {sent : Option SocketAddr} {ip : IpStack}

theorem dispatchReceivedOutboundPacket_sockets {target : Address}
    (h : dispatchReceivedOutboundPacket ip a target env = .ok (a', sent)) : OnlySockets a a' := by
  unfold dispatchReceivedOutboundPacket at h
  split at h
  · rename_i sa
    injection h with h
    have hone := sendReceivedOutboundPacket_sockets ip a sa env.direct
    rwa [h] at hone
  split at h
  · cases h
    exact .refl a
  · cases h
  · rename_i addrs _ _
    injection h with h
    have hall := sendToFirst_sockets ip a (lookupOrder ip addrs)
    rwa [h] at hall

theorem OnlySockets.peerAddr (h : OnlySockets a a') : a'.peerAddr = a.peerAddr := by
  rw [h]

theorem OnlySockets.clientSession (h : OnlySockets a a') : a'.clientSession = a.clientSession := by
  rw [h]

theorem followPeer_session (a : UdpAssociationContext) (peerAddr : SocketAddr) :
    (a.followPeer peerAddr).clientSession = a.clientSession := by
  unfold UdpAssociationContext.followPeer
  split
  · rfl
  · rfl

theorem followPeer_peerAddr (h : a.clientSession ≠ none) (peerAddr : SocketAddr) :
    (a.followPeer peerAddr).peerAddr = peerAddr := by
  unfold UdpAssociationContext.followPeer
  split
  · rfl
  · rename_i hno
    by_contra hne
    exact hno ⟨Option.isSome_iff_ne_none.mpr h, fun e => hne e.symm⟩

theorem followPeer_eq_iff (a : UdpAssociationContext) (peerAddr : SocketAddr) :
    (a.followPeer peerAddr).peerAddr = a.peerAddr ↔ a.clientSession = none ∨ peerAddr = a.peerAddr := by
  unfold UdpAssociationContext.followPeer
  split
  · rename_i h
    have hsome : a.clientSession ≠ none := fun hn => by simp [hn] at h
    simp [hsome]
  rename_i h
  simp only [true_iff]
  by_cases hp : peerAddr = a.peerAddr
  · exact .inr hp
  · left
    cases hs : a.clientSession with
    | none => rfl
    | some session => exact absurd ⟨by rw [hs]; rfl, hp⟩ h

/-! ## 3. The session and its window -/

/-- **The association of a session** has the session id it was made for, and its window has accepted exactly `acc`. -/
structure WellFormed (sid : Option UInt64) (acc : List UInt64) (a : UdpAssociationContext) : Prop where
  session : a.clientSession.map (·.clientSessionId) = sid
  window : ∀ session, a.clientSession = some session → WindowInv session.packetWindowFilter acc
  nodup : acc.Nodup

theorem wellFormed_create (peerAddr : SocketAddr) (sid : Option UInt64) (serverSessionId : UInt64) :
    WellFormed sid [] (.create peerAddr sid serverSessionId) where
  session := by cases sid <;> rfl
  window session h := by
    obtain ⟨id, -, rfl⟩ := Option.map_eq_some_iff.mp h
    exact windowInv_new
  nodup := List.nodup_nil

variable {acc : List UInt64} {sid : Option UInt64}

theorem WellFormed.congr (h : WellFormed sid acc a) (hs : a'.clientSession = a.clientSession) :
    WellFormed sid acc a' where
  session := by rw [hs]; exact h.session
  window := by rw [hs]; exact h.window
  nodup := h.nodup

variable {control : UdpSocketControlData}

theorem validateControl_refused {sid : UInt64} (h : WellFormed (some sid) acc a)
    (href : (a.validateControl control).1 = false) : (a.validateControl control).2 = a := by
  obtain ⟨session, hs, -⟩ := Option.map_eq_some_iff.mp h.session
  unfold UdpAssociationContext.validateControl at href ⊢
  simp only [hs, Option.getD_some] at href ⊢
  split at href
  · rename_i f heq
    have hsame := validatePacketId_refused (h.window session hs)
      (show (session.packetWindowFilter.validatePacketId control.packetId u64Max).1 = false by rw [heq])
    cases a
    simp_all
  · cases href

theorem validateControl_accepted {sid : UInt64} (h : WellFormed (some sid) acc a)
    (hacc : (a.validateControl control).1 = true) :
    control.packetId ∉ acc ∧ WellFormed (some sid) (control.packetId :: acc) (a.validateControl control).2 ∧
      (a.validateControl control).2.peerAddr = a.peerAddr ∧
      ∃ session, (a.validateControl control).2.clientSession = some session ∧ session.clientUser = control.user := by
  obtain ⟨session, hs, hid⟩ := Option.map_eq_some_iff.mp h.session
  obtain ⟨hans, hinv⟩ := validatePacketId_step (h.window session hs) control.packetId u64Max
  unfold UdpAssociationContext.validateControl at hacc ⊢
  simp only [hs, Option.getD_some] at hacc ⊢
  split at hacc
  · cases hacc
  rename_i f heq
  rw [heq] at hans hinv
  have hnew : control.packetId ∉ acc := (hans.mp rfl).2.1
  refine ⟨hnew, ⟨by simp [hid], ?_, List.nodup_cons.mpr ⟨hnew, h.nodup⟩⟩, rfl, _, rfl, rfl⟩
  intro session' hs'
  cases hs'
  exact hinv

def UdpAssociationContext.recorded (a : UdpAssociationContext) :
    SocketAddr × Option ServerUser × Option PacketWindowFilter :=
  (a.peerAddr, a.clientSession.bind (·.clientUser), a.clientSession.map (·.packetWindowFilter))

/-! ## 4. A packet of the client -/

def Message.For (m : Message) (sid : Option UInt64) : Prop := m.control.map (·.clientSessionId) = sid

variable {m : Message}

theorem Message.for_some (h : m.control = some control) {k : UInt64} :
    m.For (some k) ↔ k = control.clientSessionId := by
  rw [Message.For, h, Option.map_some, Option.some.injEq]
  exact eq_comm

def Rejected (a : UdpAssociationContext) (m : Message) (env : DispatchEnv) : Prop :=
  env.outboundBlocked = true ∨ ∃ control, m.control = some control ∧ (a.validateControl control).1 = false

theorem validateControl_followPeer (a : UdpAssociationContext) (peerAddr : SocketAddr)
    (control : UdpSocketControlData) :
    ((a.followPeer peerAddr).validateControl control).1 = (a.validateControl control).1 := by
  unfold UdpAssociationContext.validateControl
  rw [followPeer_session]
  dsimp only
  split
  · rfl
  · rfl

theorem checkPacket_iff (a : UdpAssociationContext) (m : Message) (env : DispatchEnv) :
    (a.checkPacket m env.outboundBlocked).1 = false ↔ Rejected a m env := by
  unfold UdpAssociationContext.checkPacket Rejected
  split
  · rename_i h
    simp [h]
  rename_i h
  split
  · rename_i hc
    simp [h, hc]
  · rename_i control hc
    rw [validateControl_followPeer]
    simp [h, hc]

instance (a : UdpAssociationContext) (m : Message) (env : DispatchEnv) : Decidable (Rejected a m env) :=
  decidable_of_iff _ (checkPacket_iff a m env)

theorem checkPacket_rejected (h : WellFormed sid acc a) (hm : m.For sid) {blocked : Bool}
    (hrej : (a.checkPacket m blocked).1 = false) : (a.checkPacket m blocked).2 = a.followPeer m.peerAddr := by
  unfold UdpAssociationContext.checkPacket at hrej ⊢
  split
  · rfl
  rename_i hb
  rw [if_neg hb] at hrej
  split
  · rfl
  · rename_i control hc
    simp only [hc] at hrej
    obtain rfl : some control.clientSessionId = sid := by rw [← hm, hc]; rfl
    exact validateControl_refused (h.congr (followPeer_session a _)) hrej

theorem checkPacket_accepted (h : WellFormed sid acc a) (hm : m.For sid) {blocked : Bool}
    (hacc : (a.checkPacket m blocked).1 = true) :
    (m.control = none ∧ (a.checkPacket m blocked).2 = a.followPeer m.peerAddr) ∨
      ∃ control session, m.control = some control ∧ control.packetId ∉ acc ∧
        WellFormed sid (control.packetId :: acc) (a.checkPacket m blocked).2 ∧
        (a.checkPacket m blocked).2.peerAddr = (a.followPeer m.peerAddr).peerAddr ∧
        (a.checkPacket m blocked).2.clientSession = some session ∧ session.clientUser = control.user := by
  unfold UdpAssociationContext.checkPacket at hacc ⊢
  split at hacc
  · cases hacc
  rename_i hb
  rw [if_neg hb]
  split at hacc
  · rename_i hc
    exact .inl ⟨hc, rfl⟩
  rename_i control hc
  obtain rfl : some control.clientSessionId = sid := by rw [← hm, hc]; rfl
  obtain ⟨hnew, hwf, hpeer, session, hs, hu⟩ :=
    validateControl_accepted (h.congr (followPeer_session a m.peerAddr)) hacc
  exact .inr ⟨control, session, hc, hnew, hwf, hpeer, hs, hu⟩

/-- **Everything a packet of the client can do** to an association that has accepted `acc`. -/
inductive Dispatched (sid : Option UInt64) (acc : List UInt64) (a : UdpAssociationContext) (m : Message)
    (env : DispatchEnv) : UdpAssociationContext → Option SocketAddr → Prop where
  | rejected (hrej : Rejected a m env) : Dispatched sid acc a m env (a.followPeer m.peerAddr) none
  | unchecked (hacc : ¬ Rejected a m env) (hc : m.control = none) {a' : UdpAssociationContext}
      (hs : OnlySockets (a.followPeer m.peerAddr) a') (sent : Option SocketAddr) :
      Dispatched sid acc a m env a' sent
  | accepted (hacc : ¬ Rejected a m env) {control : UdpSocketControlData} (hc : m.control = some control)
      (hnew : control.packetId ∉ acc) {a' : UdpAssociationContext} {session : ClientSessionContext}
      (hwf : WellFormed sid (control.packetId :: acc) a') (hpeer : a'.peerAddr = m.peerAddr)
      (hs : a'.clientSession = some session) (huser : session.clientUser = control.user)
      (sent : Option SocketAddr) : Dispatched sid acc a m env a' sent

theorem dispatch_cases (h : WellFormed sid acc a) (hm : m.For sid)
    (hd : dispatchReceivedPacket ip a m env = .ok (a', sent)) : Dispatched sid acc a m env a' sent := by
  have hiff := checkPacket_iff a m env
  unfold dispatchReceivedPacket at hd
  split at hd
  · rename_i b heq
    have hb := checkPacket_rejected h hm (show (a.checkPacket m env.outboundBlocked).1 = false by rw [heq])
    rw [heq] at hb hiff
    cases hd
    rw [show a' = a.followPeer m.peerAddr from hb]
    exact .rejected (hiff.mp rfl)
  rename_i b heq
  have hsock := dispatchReceivedOutboundPacket_sockets hd
  rcases checkPacket_accepted h hm (show (a.checkPacket m env.outboundBlocked).1 = true by rw [heq]) with
    ⟨hc, hb⟩ | ⟨control, session, hc, hnew, hwf, hpeer, hs, hu⟩
  · rw [heq] at hb hiff
    rw [show b = _ from hb] at hsock
    exact .unchecked (fun hr => Bool.noConfusion (hiff.mpr hr)) hc hsock sent
  rw [heq] at hwf hpeer hs hiff
  have hsome : a.clientSession ≠ none := by
    obtain rfl : some control.clientSessionId = sid := by rw [← hm, hc]; rfl
    intro hn
    have := h.session
    rw [hn] at this
    cases this
  exact .accepted (fun hr => Bool.noConfusion (hiff.mpr hr)) hc hnew (hwf.congr hsock.clientSession)
    (by rw [hsock.peerAddr, hpeer, followPeer_peerAddr hsome]) (by rw [hsock.clientSession, hs]) hu sent

theorem dispatch_rejected (ip : IpStack) (h : WellFormed sid acc a) (hm : m.For sid) (hrej : Rejected a m env) :
    dispatchReceivedPacket ip a m env = .ok (a.followPeer m.peerAddr, none) ∧
      ((a.followPeer m.peerAddr).recorded = a.recorded ↔ a.clientSession = none ∨ m.peerAddr = a.peerAddr) := by
  have hfalse := (checkPacket_iff a m env).mpr hrej
  constructor
  · unfold dispatchReceivedPacket
    rw [show a.checkPacket m env.outboundBlocked = (false, a.followPeer m.peerAddr) from
      Prod.ext hfalse (checkPacket_rejected h hm hfalse)]
  · rw [← followPeer_eq_iff]
    unfold UdpAssociationContext.recorded
    rw [followPeer_session]
    simp

end Shadowsocks.Server
