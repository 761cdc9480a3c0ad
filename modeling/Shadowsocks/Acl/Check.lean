/-
  Subject:   THE DECISIONS OF AN ACCESS CONTROL LIST (`acl/mod.rs` of the service). A name is decided by its host
  rules, and if none matches by the addresses it resolves to. Resolver and IDNA are parameters.
-/
import Shadowsocks.Acl.Rules

namespace Shadowsocks.Acl

inductive Mode where
  | blackList
  | whiteList
  deriving DecidableEq

structure AccessControl where
  (outboundBlock outboundAllow blackList whiteList : Rules)
  (mode outboundMode : Mode)

structure Context where
  domainToAscii : String → Option String
  dnsResolve : String → UInt16 → Option (List SocketAddr)

def Context.convertToAscii (ctx : Context) (host : String) : Text :=
  ((ctx.domainToAscii host).getD host).toList

variable (black white : Rules) (mode : Mode)

def checkListed (ip : IpAddr) : Bool :=
  if black.checkIpMatched ip then true
  else if white.checkIpMatched ip then false
  else mode == .whiteList

def checkResolved (resolved : Option (List SocketAddr)) : Bool :=
  let (checkList, ifMatched) :=
    match mode with
    | .blackList => (black, true)
    | .whiteList => (white, false)
  if checkList.isIpEmpty then mode == .whiteList
  else
    match resolved with
    | some addrs => if addrs.any fun addr => checkList.checkIpMatched (ipOf addr) then ifMatched else mode == .whiteList
    | none => mode == .whiteList

namespace AccessControl

variable (acl : AccessControl)

def checkAsciiHostInProxyList (host : Text) : Option Bool :=
  if acl.whiteList.checkHostMatched host then some true
  else if acl.blackList.checkHostMatched host then some false
  else none

def checkHostInProxyList (ctx : Context) (host : String) : Option Bool :=
  acl.checkAsciiHostInProxyList (ctx.convertToAscii host)

def checkIpInProxyList (ip : IpAddr) : Bool :=
  !checkListed acl.blackList acl.whiteList acl.mode ip

def isDefaultInProxyList : Bool := acl.mode == .blackList

def isIpEmpty : Bool := acl.blackList.isIpEmpty && acl.whiteList.isIpEmpty

def isHostEmpty : Bool := acl.blackList.isHostEmpty && acl.whiteList.isHostEmpty

def checkTargetBypassed (ctx : Context) : Address → Bool
  | .socketAddress addr => !acl.checkIpInProxyList (ipOf addr)
  | .domainNameAddress host port =>
    match acl.checkHostInProxyList ctx host with
    | some value => !value
    | none => checkResolved acl.blackList acl.whiteList acl.mode (ctx.dnsResolve host port)

def checkClientBlocked (addr : SocketAddr) : Bool :=
  match acl.mode with
  | .blackList => acl.blackList.checkIpMatched (ipOf addr)
  | .whiteList => !acl.whiteList.checkIpMatched (ipOf addr)

def checkOutboundIpBlocked (ip : IpAddr) : Bool :=
  checkListed acl.outboundBlock acl.outboundAllow acl.outboundMode ip

def checkOutboundBlocked (ctx : Context) : Address → Bool
  | .socketAddress addr => acl.checkOutboundIpBlocked (ipOf addr)
  | .domainNameAddress host port =>
    if acl.outboundBlock.checkHostMatched (ctx.convertToAscii host) then true
    else if acl.outboundAllow.checkHostMatched (ctx.convertToAscii host) then false
    else checkResolved acl.outboundBlock acl.outboundAllow acl.outboundMode (ctx.dnsResolve host port)

end AccessControl

/-! ## A name and its only address -/

theorem checkIpMatched_empty {r : Rules} (h : r.isIpEmpty = true) (ip : IpAddr) : r.checkIpMatched ip = false := by
  obtain ⟨h4, h6⟩ := Bool.and_eq_true_iff.mp h
  have hv4 : r.ipv4 = [] := List.isEmpty_iff.mp h4
  have hv6 : r.ipv6 = [] := List.isEmpty_iff.mp h6
  cases ip with
  | v4 ip => simp [Rules.checkIpMatched, hv4, hv6]
  | v6 ip =>
    simp only [Rules.checkIpMatched, hv4, hv6, List.any_nil, Bool.false_or]
    cases Server.toIpv4Mapped ip <;> rfl

theorem checkResolved_iff (resolved : Option (List SocketAddr)) :
    checkResolved black white mode resolved = true ↔ match mode with
      | .blackList => ∃ a ∈ resolved.getD [], black.checkIpMatched (ipOf a) = true
      | .whiteList => ∀ a ∈ resolved.getD [], white.checkIpMatched (ipOf a) = false := by
  unfold checkResolved
  cases mode with
  | blackList =>
    by_cases hempty : black.isIpEmpty = true
    · simp [hempty, checkIpMatched_empty hempty]
    · cases resolved with
      | none | some addrs => simp [hempty]
  | whiteList =>
    dsimp only
    by_cases hempty : white.isIpEmpty = true
    · simp [hempty, checkIpMatched_empty hempty]
    · cases resolved with
      | none | some addrs => simp [hempty]

theorem checkResolved_listed_iff (addr : SocketAddr) :
    checkResolved black white mode (some [addr]) = checkListed black white mode (ipOf addr) ↔
      ¬ (mode = .whiteList ∧ black.checkIpMatched (ipOf addr) = true ∧ white.checkIpMatched (ipOf addr) = true) := by
  rw [Bool.eq_iff_iff, checkResolved_iff]
  unfold checkListed
  cases mode <;> cases hblack : black.checkIpMatched (ipOf addr) <;>
    cases hwhite : white.checkIpMatched (ipOf addr) <;> simp [hblack, hwhite]

def Unmatched (rules : List Rules) (ctx : Context) (host : String) : Prop :=
  ∀ r ∈ rules, r.checkHostMatched (ctx.convertToAscii host) = false

instance (rules : List Rules) (ctx : Context) (host : String) : Decidable (Unmatched rules ctx host) :=
  inferInstanceAs (Decidable (∀ r ∈ rules, r.checkHostMatched (ctx.convertToAscii host) = false))

abbrev AccessControl.Undecided (acl : AccessControl) : Context → String → Prop :=
  Unmatched [acl.outboundBlock, acl.outboundAllow, acl.blackList, acl.whiteList]

abbrev AccessControl.OutboundUndecided (acl : AccessControl) : Context → String → Prop :=
  Unmatched [acl.outboundBlock, acl.outboundAllow]

variable {acl : AccessControl}

theorem checkTargetBypassed_undecided {ctx : Context} {host : String}
    (h : acl.Undecided ctx host) (port : UInt16) : acl.checkTargetBypassed ctx (.domainNameAddress host port) =
      checkResolved acl.blackList acl.whiteList acl.mode (ctx.dnsResolve host port) := by
  have hblack := h acl.blackList (by simp)
  have hwhite := h acl.whiteList (by simp)
  simp [AccessControl.checkTargetBypassed, AccessControl.checkHostInProxyList,
    AccessControl.checkAsciiHostInProxyList, hblack, hwhite]

theorem checkOutboundBlocked_undecided {ctx : Context} {host : String}
    (h : acl.OutboundUndecided ctx host) (port : UInt16) : acl.checkOutboundBlocked ctx (.domainNameAddress host port) =
      checkResolved acl.outboundBlock acl.outboundAllow acl.outboundMode (ctx.dnsResolve host port) := by
  have hblock := h acl.outboundBlock (by simp)
  have hallow := h acl.outboundAllow (by simp)
  simp [AccessControl.checkOutboundBlocked, hblock, hallow]

/-- **A name no host rule matches is decided like its only address by both checks, unless under a white list it is in
both lists.** -/
theorem decisions_agree (acl : AccessControl) (ctx : Context) (host : String) (port : UInt16)
    (hhost : acl.Undecided ctx host) (answer addr : SocketAddr) (hip : ipOf answer = ipOf addr)
    (hdns : ctx.dnsResolve host port = some [answer]) :
    (acl.checkTargetBypassed ctx (.domainNameAddress host port) = acl.checkTargetBypassed ctx (.socketAddress addr) ↔
      ¬ (acl.mode = .whiteList ∧ acl.blackList.checkIpMatched (ipOf addr) = true ∧
        acl.whiteList.checkIpMatched (ipOf addr) = true)) ∧
    (acl.checkOutboundBlocked ctx (.domainNameAddress host port) =
        acl.checkOutboundBlocked ctx (.socketAddress addr) ↔
      ¬ (acl.outboundMode = .whiteList ∧ acl.outboundBlock.checkIpMatched (ipOf addr) = true ∧
        acl.outboundAllow.checkIpMatched (ipOf addr) = true)) := by
  have htarget : acl.checkTargetBypassed ctx (.socketAddress addr) =
      checkListed acl.blackList acl.whiteList acl.mode (ipOf answer) := by
    simp [AccessControl.checkTargetBypassed, AccessControl.checkIpInProxyList, hip]
  have houtbound : acl.checkOutboundBlocked ctx (.socketAddress addr) =
      checkListed acl.outboundBlock acl.outboundAllow acl.outboundMode (ipOf answer) := by
    simp [AccessControl.checkOutboundBlocked, AccessControl.checkOutboundIpBlocked, hip]
  have hhost' : acl.OutboundUndecided ctx host := fun r hr => hhost r (List.mem_append_left _ hr)
  rw [checkTargetBypassed_undecided hhost, checkOutboundBlocked_undecided hhost', hdns, htarget, houtbound, ← hip]
  exact ⟨checkResolved_listed_iff .., checkResolved_listed_iff ..⟩

def Rules.networks (ipv4 : List IpNet) : Rules := ⟨ipv4, [], [], [], []⟩

def whiteAcl (black : List IpNet) : AccessControl :=
  ⟨.networks black, .networks [⟨0x0a000000, 8⟩], .networks black, .networks [⟨0x0a000000, 8⟩], .whiteList, .whiteList⟩

def oneAddress : Context := ⟨fun _ => none, fun _ port => some [.v4 ⟨0x0a010203, port⟩]⟩

theorem decisions_agree_white : (whiteAcl []).Undecided oneAddress "host" ∧
      ((whiteAcl []).checkTargetBypassed oneAddress (.domainNameAddress "host" 80) =
          (whiteAcl []).checkTargetBypassed oneAddress (.socketAddress (.v4 ⟨0x0a010203, 80⟩)) ↔
        ¬ ((whiteAcl []).mode = .whiteList ∧ (whiteAcl []).blackList.checkIpMatched (.v4 0x0a010203) = true ∧
          (whiteAcl []).whiteList.checkIpMatched (.v4 0x0a010203) = true)) :=
  have h : (whiteAcl []).Undecided oneAddress "host" := by decide
  ⟨h, (decisions_agree (whiteAcl []) oneAddress "host" 80 h (.v4 ⟨0x0a010203, 80⟩) (.v4 ⟨0x0a010203, 80⟩) rfl
    rfl).1⟩

/-- **An address in both lists**: by a white list the name is let through, and the address is not. -/
theorem decisions_differ : (whiteAcl [⟨0x0a010203, 32⟩]).Undecided oneAddress "host" ∧
      (whiteAcl [⟨0x0a010203, 32⟩]).checkTargetBypassed oneAddress (.domainNameAddress "host" 80) = false ∧
      (whiteAcl [⟨0x0a010203, 32⟩]).checkTargetBypassed oneAddress (.socketAddress (.v4 ⟨0x0a010203, 80⟩)) = true ∧
      (whiteAcl [⟨0x0a010203, 32⟩]).checkOutboundBlocked oneAddress (.domainNameAddress "host" 80) = false ∧
      (whiteAcl [⟨0x0a010203, 32⟩]).checkOutboundBlocked oneAddress (.socketAddress (.v4 ⟨0x0a010203, 80⟩)) = true := by
  decide

end Shadowsocks.Acl
