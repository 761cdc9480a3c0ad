/-
  Subject:   WHICH ADDRESSES A SERVER CONTACTS FOR A NAME (`server/tcprelay.rs` and `server/udprelay.rs` of the
  service). Each check resolves the name anew, and so does the connection; the answers may differ.
-/
import Shadowsocks.Acl.Check
import Shadowsocks.Net.Connect

namespace Shadowsocks.Acl

open Lib Net List
open Server (IpStack Message UdpAssociationContext Attempt mappedTarget sendToFirst lookupOrder
  sendReceivedOutboundPacket dispatchReceivedOutboundPacket dispatchReceivedPacket)

def tcpOutbound (acl : AccessControl) (atCheck atUse : Context) (target : Address) (ipv6First : Bool)
    (ticks : List Tick) : List SocketAddr :=
  if acl.checkOutboundBlocked atCheck target then []
  else
    match target with
    | .socketAddress addr => [addr]
    | .domainNameAddress host port =>
      match atUse.dnsResolve host port with
      | none => []
      | some addrs => attempts ipv6First addrs ticks

def udpOutbound (acl : AccessControl) (atRecv atCheck : Context) (m : Message) (ip : IpStack)
    (a : UdpAssociationContext) (direct : Attempt) (resolved : Option (List (SocketAddr × Attempt))) :
    Option SocketAddr :=
  if acl.checkOutboundBlocked atRecv m.targetAddr then none
  else
    match dispatchReceivedPacket ip a m ⟨acl.checkOutboundBlocked atCheck m.targetAddr, direct, resolved⟩ with
    | .ok (_, sent) => sent
    | _ => none

/-! ## 1. What is contacted -/

def Refused (acl : AccessControl) (ctx : Context) (host : String) (port : UInt16) : Prop :=
  match acl.outboundMode with
  | .blackList => ∃ a ∈ (ctx.dnsResolve host port).getD [], acl.outboundBlock.checkIpMatched (ipOf a) = true
  | .whiteList => ∀ a ∈ (ctx.dnsResolve host port).getD [], acl.outboundAllow.checkIpMatched (ipOf a) = false

variable {acl : AccessControl} {host : String}

theorem checkOutboundBlocked_iff {ctx : Context} (h : acl.OutboundUndecided ctx host) (port : UInt16) :
    acl.checkOutboundBlocked ctx (.domainNameAddress host port) = true ↔ Refused acl ctx host port := by
  rw [checkOutboundBlocked_undecided h, checkResolved_iff]
  rfl

def Blocked (acl : AccessControl) (addr : SocketAddr) : Prop := acl.checkOutboundIpBlocked (ipOf addr) = true

theorem checkIpMatched_mappedTarget (r : Rules) (ip : IpStack) (addr : SocketAddr) :
    r.checkIpMatched (ipOf (mappedTarget ip addr)) = r.checkIpMatched (ipOf addr) := by
  cases addr with
  | v4 a =>
    unfold mappedTarget
    dsimp only
    split
    · exact r.checkIpMatched_mapped a.ip
    · rfl
  | v6 a =>
    unfold mappedTarget
    dsimp only
    split
    · cases hmapped : Server.toIpv4Mapped a.ip with
      | none => rfl
      | some v4 =>
        show r.checkIpMatched (.v4 v4) = r.checkIpMatched (.v6 a.ip)
        rw [← toIpv6Mapped_of_toIpv4Mapped hmapped, r.checkIpMatched_mapped]
    · rfl

theorem blocked_mappedTarget (acl : AccessControl) (ip : IpStack) (addr : SocketAddr) :
    Blocked acl (mappedTarget ip addr) ↔ Blocked acl addr := by
  unfold Blocked AccessControl.checkOutboundIpBlocked checkListed
  rw [checkIpMatched_mappedTarget, checkIpMatched_mappedTarget]

theorem sendReceivedOutboundPacket_sent (ip : IpStack) (a : UdpAssociationContext) (target : SocketAddr)
    (env : Attempt) :
    ∃ socket : Bool, (env.connected = true → socket = true) ∧ (sendReceivedOutboundPacket ip a target env).2 =
        if socket && env.sent then some (mappedTarget ip target) else none := by
  unfold sendReceivedOutboundPacket
  dsimp only
  split
  · refine ⟨a.outboundIpv4Socket || env.connected, fun h => by rw [h, Bool.or_true], ?_⟩
    cases a.outboundIpv4Socket <;> cases env.connected <;> rfl
  · refine ⟨a.outboundIpv6Socket || env.connected, fun h => by rw [h, Bool.or_true], ?_⟩
    cases a.outboundIpv6Socket <;> cases env.connected <;> rfl

variable {addrs : List (SocketAddr × Attempt)} {a : UdpAssociationContext} {ip : IpStack}

theorem sendToFirst_mem {sent : SocketAddr} (h : (sendToFirst ip a addrs).2 = some sent) :
    ∃ x ∈ addrs, sent = mappedTarget ip x.1 := by
  induction addrs generalizing a with
  | nil => cases h
  | cons x rest ih =>
    obtain ⟨target, env⟩ := x
    obtain ⟨socket, -, hone⟩ := sendReceivedOutboundPacket_sent ip a target env
    rw [sendToFirst] at h
    split at h
    · rename_i b sent' heq
      cases h
      rw [heq] at hone
      refine ⟨(target, env), mem_cons_self .., ?_⟩
      split at hone
      · exact Option.some.inj hone
      · cases hone
    · obtain ⟨y, hy, hsent⟩ := ih h
      exact ⟨y, mem_cons_of_mem _ hy, hsent⟩

variable {only : SocketAddr}

theorem sendToFirst_only (ip : IpStack) (a : UdpAssociationContext)
    (hall : ∀ x ∈ addrs, x.2 = ⟨true, decide (x.1 = only)⟩)
    (hmem : ∃ x ∈ addrs, x.1 = only) : (sendToFirst ip a addrs).2 = some (mappedTarget ip only) := by
  induction addrs generalizing a with
  | nil =>
    obtain ⟨x, hx, -⟩ := hmem
    cases hx
  | cons x rest ih =>
    obtain ⟨target, env⟩ := x
    obtain rfl : env = ⟨true, decide (target = only)⟩ := hall _ (mem_cons_self ..)
    obtain ⟨socket, hsocket, hone⟩ :=
      sendReceivedOutboundPacket_sent ip a target ⟨true, decide (target = only)⟩
    rw [hsocket rfl, Bool.true_and] at hone
    rw [sendToFirst]
    by_cases htarget : target = only
    · rw [if_pos (decide_eq_true htarget)] at hone
      split
      · rename_i b sent heq
        rw [heq] at hone
        rwa [← htarget]
      · rename_i b heq
        rw [heq] at hone
        cases hone
    rw [if_neg (by simpa using htarget)] at hone
    split
    · rename_i b sent heq
      rw [heq] at hone
      cases hone
    refine ih _ (fun y hy => hall y (mem_cons_of_mem _ hy)) ?_
    obtain ⟨y, hy, hyonly⟩ := hmem
    rcases mem_cons.mp hy with rfl | hy
    · exact absurd hyonly htarget
    · exact ⟨y, hy, hyonly⟩

theorem mem_lookupOrder_iff (ip : IpStack) (addrs : List (SocketAddr × Attempt)) (x : SocketAddr × Attempt) :
    x ∈ lookupOrder ip addrs ↔ x ∈ addrs := by
  unfold lookupOrder
  split <;> simp only [mem_append, mem_filter] <;> cases Server.SocketAddr.isV4 x.1 <;> simp

variable {atCheck : Context} {atRecv : Context} {port : UInt16}

theorem udpOutbound_mem {m : Message} {direct : Attempt} {resolved : Option (List (SocketAddr × Attempt))}
    (htarget : m.targetAddr = .domainNameAddress host port) {addr : SocketAddr}
    (h : udpOutbound acl atRecv atCheck m ip a direct resolved = some addr) :
    acl.checkOutboundBlocked atRecv (.domainNameAddress host port) = false ∧
      acl.checkOutboundBlocked atCheck (.domainNameAddress host port) = false ∧
      ∃ x ∈ resolved.getD [], addr = mappedTarget ip x.1 := by
  unfold udpOutbound at h
  rw [htarget] at h
  split at h
  · cases h
  rename_i hrecv
  refine ⟨Bool.eq_false_iff.mpr hrecv, ?_⟩
  cases hcheck : acl.checkOutboundBlocked atCheck (.domainNameAddress host port) with
  | true => simp [dispatchReceivedPacket, UdpAssociationContext.checkPacket, hcheck] at h
  | false =>
    refine ⟨rfl, ?_⟩
    rw [hcheck, dispatchReceivedPacket] at h
    split at h
    · rename_i a' sent hdispatched
      cases h
      split at hdispatched
      · cases hdispatched
      rw [htarget] at hdispatched
      cases resolved with
      | none => cases hdispatched
      | some addrs =>
        cases addrs with
        | nil => cases hdispatched
        | cons x rest =>
          injection hdispatched with hsent
          obtain ⟨y, hy, haddr⟩ := sendToFirst_mem (congrArg Prod.snd hsent)
          exact ⟨y, (mem_lookupOrder_iff ip (x :: rest) y).mp hy, haddr⟩
    · cases h

/-! ## 2. What is guarded -/

def TcpGuarded (acl : AccessControl) (atCheck atUse : Context) (host : String) (port : UInt16) : Prop :=
  ∀ ipv6First ticks, ∀ addr ∈ tcpOutbound acl atCheck atUse (.domainNameAddress host port) ipv6First ticks,
    ¬ Blocked acl addr

def UdpGuarded (acl : AccessControl) (atRecv atCheck atUse : Context) (host : String) (port : UInt16) : Prop :=
  ∀ m : Message, m.targetAddr = .domainNameAddress host port → ∀ ip a direct resolved,
    resolved.map (map Prod.fst) = atUse.dnsResolve host port →
      ∀ addr ∈ udpOutbound acl atRecv atCheck m ip a direct resolved, ¬ Blocked acl addr

theorem tcpGuarded_iff (atUse : Context) (h : acl.OutboundUndecided atCheck host) (port : UInt16) :
    TcpGuarded acl atCheck atUse host port ↔
      Refused acl atCheck host port ∨ ∀ addr ∈ (atUse.dnsResolve host port).getD [], ¬ Blocked acl addr := by
  by_cases hrefused : Refused acl atCheck host port
  · have hblocked := (checkOutboundBlocked_iff h port).mpr hrefused
    refine iff_of_true (fun ipv6First ticks addr haddr => ?_) (.inl hrefused)
    rw [tcpOutbound, if_pos hblocked] at haddr
    cases haddr
  have hallowed := mt (checkOutboundBlocked_iff h port).mp hrefused
  have hconnect : ∀ ipv6First ticks, tcpOutbound acl atCheck atUse (.domainNameAddress host port) ipv6First ticks =
        match atUse.dnsResolve host port with
        | none => []
        | some addrs => attempts ipv6First addrs ticks := by
    intro ipv6First ticks
    rw [tcpOutbound, if_neg hallowed]
  refine Iff.trans ?_ (or_iff_right hrefused).symm
  unfold TcpGuarded
  simp only [hconnect]
  cases atUse.dnsResolve host port with
  | none => exact iff_of_true (fun _ _ => forall_mem_nil _) (forall_mem_nil _)
  | some addrs =>
    constructor
    · intro hguarded addr haddr
      obtain ⟨ticks, hall⟩ := exists_attempts_all true addrs
      exact hguarded true ticks addr (hall addr haddr)
    · intro hall ipv6First ticks addr haddr
      exact hall addr (attempts_subset haddr)

def messageFor (host : String) (port : UInt16) : Message :=
  ⟨.v4 ⟨1, 1000⟩, .domainNameAddress host port, [7], none, ⟨[], 0⟩⟩

theorem udpOutbound_only (hrecv : acl.checkOutboundBlocked atRecv (.domainNameAddress host port) = false)
    (hcheck : acl.checkOutboundBlocked atCheck (.domainNameAddress host port) = false) (ip : IpStack)
    {addrs : List SocketAddr} (hmem : only ∈ addrs) :
    udpOutbound acl atRecv atCheck (messageFor host port) ip (.create (.v4 ⟨1, 1000⟩) none 0) ⟨true, true⟩
        (some (addrs.map fun x => (x, ⟨true, decide (x = only)⟩))) = some (mappedTarget ip only) := by
  have htarget : (messageFor host port).targetAddr = .domainNameAddress host port := rfl
  have hne : addrs.map (fun x => (x, (⟨true, decide (x = only)⟩ : Attempt))) ≠ [] := by
    rw [Ne, map_eq_nil_iff]
    exact ne_nil_of_mem hmem
  have hall : ∀ x ∈ lookupOrder ip (addrs.map fun x => (x, ⟨true, decide (x = only)⟩)),
      x.2 = ⟨true, decide (x.1 = only)⟩ := by
    intro x hx
    obtain ⟨y, -, rfl⟩ := mem_map.mp ((mem_lookupOrder_iff ip _ x).mp hx)
    rfl
  have hsent := sendToFirst_only ip (.create (.v4 ⟨1, 1000⟩) none 0) hall
    ⟨(only, ⟨true, decide (only = only)⟩), (mem_lookupOrder_iff ip _ _).mpr (mem_map_of_mem hmem), rfl⟩
  unfold udpOutbound dispatchReceivedPacket dispatchReceivedOutboundPacket
  rw [htarget, hrecv, hcheck, if_neg (by decide)]
  generalize addrs.map (fun x => (x, (⟨true, decide (x = only)⟩ : Attempt))) = resolved at hne hsent ⊢
  cases resolved with
  | nil => exact absurd rfl hne
  | cons x rest => exact hsent

theorem udpGuarded_iff (atUse : Context) (hrecv : acl.OutboundUndecided atRecv host) (hcheck : acl.OutboundUndecided atCheck host)
    (port : UInt16) :
    UdpGuarded acl atRecv atCheck atUse host port ↔ Refused acl atRecv host port ∨ Refused acl atCheck host port ∨
        ∀ addr ∈ (atUse.dnsResolve host port).getD [], ¬ Blocked acl addr := by
  have hrefusedRecv := checkOutboundBlocked_iff hrecv port
  have hrefusedCheck := checkOutboundBlocked_iff hcheck port
  constructor
  · intro hguarded
    by_cases hr : Refused acl atRecv host port
    · exact .inl hr
    by_cases hc : Refused acl atCheck host port
    · exact .inr (.inl hc)
    refine .inr (.inr fun addr haddr hblocked => ?_)
    cases hdns : atUse.dnsResolve host port with
    | none => simp [hdns] at haddr
    | some addrs =>
      have hsent := udpOutbound_only (Bool.eq_false_iff.mpr (mt hrefusedRecv.mp hr))
        (Bool.eq_false_iff.mpr (mt hrefusedCheck.mp hc)) ⟨true, true, false⟩ haddr
      refine hguarded (messageFor host port) rfl _ _ _ _ ?_ _ hsent ((blocked_mappedTarget ..).mpr hblocked)
      simp [hdns, Function.comp_def]
  rintro hcondition m htarget ip a direct resolved hresolved addr haddr
  obtain ⟨hr, hc, x, hx, rfl⟩ := udpOutbound_mem htarget haddr
  rw [blocked_mappedTarget]
  rcases hcondition with hrefused | hrefused | hall
  · rw [hrefusedRecv.mpr hrefused] at hr
    cases hr
  · rw [hrefusedCheck.mpr hrefused] at hc
    cases hc
  refine hall x.1 ?_
  rw [← hresolved]
  cases resolved with
  | none => cases hx
  | some addrs => exact mem_map_of_mem hx

/-- **A name no host rule decides leads to no blocked address exactly if a check refuses it or none it resolves to is
blocked.** -/
theorem outbound_guarded (acl : AccessControl) (atRecv atCheck atUse : Context) (host : String) (port : UInt16)
    (hrecv : acl.OutboundUndecided atRecv host) (hcheck : acl.OutboundUndecided atCheck host) :
    (TcpGuarded acl atCheck atUse host port ↔
      Refused acl atCheck host port ∨ ∀ addr ∈ (atUse.dnsResolve host port).getD [], ¬ Blocked acl addr) ∧
    (UdpGuarded acl atRecv atCheck atUse host port ↔ Refused acl atRecv host port ∨ Refused acl atCheck host port ∨
        ∀ addr ∈ (atUse.dnsResolve host port).getD [], ¬ Blocked acl addr) :=
  ⟨tcpGuarded_iff atUse hcheck port, udpGuarded_iff atUse hrecv hcheck port⟩

def outboundAcl : Mode → AccessControl
  | .blackList =>
    ⟨.networks [⟨0x7f000000, 8⟩], .networks [], .networks [], .networks [], .blackList, .blackList⟩
  | .whiteList =>
    ⟨.networks [], .networks [⟨0x0a000000, 8⟩], .networks [], .networks [], .blackList, .whiteList⟩

def resolvesTo (ips : List UInt32) : Context :=
  ⟨fun _ => none, fun _ port => some (ips.map fun ip => .v4 ⟨ip, port⟩)⟩

theorem outbound_guarded_black : (outboundAcl .blackList).OutboundUndecided (resolvesTo [0x0a010203]) "host" ∧
      ((TcpGuarded (outboundAcl .blackList) (resolvesTo [0x0a010203]) (resolvesTo [0x0a010203]) "host" 80 ↔
        Refused (outboundAcl .blackList) (resolvesTo [0x0a010203]) "host" 80 ∨
          ∀ addr ∈ ((resolvesTo [0x0a010203]).dnsResolve "host" 80).getD [],
            ¬ Blocked (outboundAcl .blackList) addr)) :=
  have h : (outboundAcl .blackList).OutboundUndecided (resolvesTo [0x0a010203]) "host" := by decide
  ⟨h, (outbound_guarded (outboundAcl .blackList) (resolvesTo [0x0a010203]) (resolvesTo [0x0a010203])
    (resolvesTo [0x0a010203]) "host" 80 h h).1⟩

/-- **A second answer of the resolver, or a second address, leads to a blocked address**, over TCP
and UDP. -/
theorem outbound_unguarded : Blocked (outboundAcl .blackList) (.v4 ⟨0x7f000001, 80⟩) ∧
      Blocked (outboundAcl .whiteList) (.v4 ⟨0x7f000001, 80⟩) ∧
      tcpOutbound (outboundAcl .blackList) (resolvesTo [0x0a010203]) (resolvesTo [0x7f000001])
        (.domainNameAddress "host" 80) false [] = [.v4 ⟨0x7f000001, 80⟩] ∧
      tcpOutbound (outboundAcl .whiteList) (resolvesTo [0x0a010203, 0x7f000001])
        (resolvesTo [0x0a010203, 0x7f000001]) (.domainNameAddress "host" 80) false [.preferred false] =
          [.v4 ⟨0x0a010203, 80⟩, .v4 ⟨0x7f000001, 80⟩] ∧
      udpOutbound (outboundAcl .blackList) (resolvesTo [0x0a010203]) (resolvesTo [0x0a010203])
        (messageFor "host" 80) ⟨true, false, false⟩ (.create (.v4 ⟨1, 1000⟩) none 0) ⟨true, true⟩
        (some [(.v4 ⟨0x7f000001, 80⟩, ⟨true, true⟩)]) = some (.v4 ⟨0x7f000001, 80⟩) := by
  refine ⟨?_, ?_, ?_, ?_, ?_⟩
  · show (outboundAcl .blackList).checkOutboundIpBlocked (.v4 0x7f000001) = true
    decide
  · show (outboundAcl .whiteList).checkOutboundIpBlocked (.v4 0x7f000001) = true
    decide
  all_goals decide

end Shadowsocks.Acl
