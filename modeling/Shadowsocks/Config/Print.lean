/-
  Subject:   PRINTING A CONFIGURATION AND LOADING IT AGAIN (`impl Display for Config` of the service's `config.rs`).
  The standard fields hold one basic server or local and have less room than `servers` and `locals`; in `servers`
  timeouts are printed but not read.
-/
import Shadowsocks.Config.Load

namespace Shadowsocks.Config

open Lib Shadowsocks.Acl List Outcome Base64

variable {Kind Auth Resolver : Type} (H : Host Kind Auth Resolver)

/-! ## 1. The printed file -/

def printPlugin : Option PluginConfig → SSPlugin
  | none => .none
  | some p =>
    { plugin := some p.plugin
      pluginOpts := p.pluginOpts
      pluginArgs := if p.pluginArgs = [] then none else some p.pluginArgs
      pluginMode := if p.pluginMode = .tcpOnly then none else some p.pluginMode.asStr }

def printManagerPlugin : Option PluginConfig → SSPlugin
  | none => .none
  | some p =>
    { plugin := some p.plugin
      pluginOpts := p.pluginOpts
      pluginArgs := if p.pluginArgs = [] then none else some p.pluginArgs
      pluginMode := none }

variable (svr : ServerConfig Kind)

def printPassword : Option Text :=
  if H.ciphers.family svr.method = .none then none else some svr.exportPassword

def printUsers (m : Option ServerUserManager) : Option (List SSServerUserConfig) :=
  m.map fun m => m.users.map fun u => ⟨u.name, encode standard true u.key⟩

def printWeight (w : Rat) : Option F32 := if f32Epsilon < |w - 1| then some (.finite w) else none

def printServer (inst : ServerInstanceConfig Kind) : SSServerExtConfig where
  server := inst.config.addr.host H.ip
  serverPort := inst.config.addr.port
  password := printPassword H inst.config
  method := H.ciphers.name inst.config.method
  users := printUsers inst.config.userManager
  disabled := none
  plugin := printPlugin inst.config.plugin
  timeout := inst.config.timeout
  remarks := inst.config.remarks
  id := inst.config.id
  mode := some inst.config.mode.asStr
  tcpWeight := printWeight inst.config.weight.tcpWeight
  udpWeight := printWeight inst.config.weight.udpWeight
  acl := inst.acl
  outboundFwmark := inst.outboundFwmark
  outboundBindAddr := inst.outboundBindAddr
  outboundBindInterface := inst.outboundBindInterface
  outboundUdpAllowFragmentation := inst.outboundUdpAllowFragmentation
  outboundProxy := SSOutboundProxyConfig.fromProxies inst.outboundProxy
  realm := inst.realm.map .fromRealmConfig

def printLocal (inst : LocalInstanceConfig Auth) : SSLocalExtConfig where
  localAddress := inst.config.addr.map (·.host H.ip)
  localPort := inst.config.addr.map (·.port)
  disabled := none
  mode := some inst.config.mode.asStr
  localUdpAddress := inst.config.udpAddr.map (·.host H.ip)
  localUdpPort := inst.config.udpAddr.map (·.port)
  protocol := if inst.config.protocol = .socks then none else some inst.config.protocol.asStr
  tcpRedir := if inst.config.tcpRedir ≠ .tcpDefault then some inst.config.tcpRedir.name else none
  udpRedir := if inst.config.udpRedir ≠ .udpDefault then some inst.config.udpRedir.name else none
  localDnsAddress := inst.config.localDnsAddr.map (·.host H.ip)
  localDnsPort := inst.config.localDnsAddr.bind (·.port)
  remoteDnsAddress := inst.config.remoteDnsAddr.map (·.host H.ip)
  remoteDnsPort := inst.config.remoteDnsAddr.map (·.port)
  clientCacheSize := inst.config.clientCacheSize
  forwardAddress := inst.config.forwardAddr.map (·.host H.ip)
  forwardPort := inst.config.forwardAddr.map (·.port)
  tunInterfaceName := inst.config.tunInterfaceName
  tunInterfaceAddress := inst.config.tunInterfaceAddress
  tunInterfaceDestination := inst.config.tunInterfaceDestination
  tunDeviceFdFromPath := inst.config.tunDeviceFdFromPath
  socks5AuthConfigPath := none
  httpAuthConfigPath := none
  fakeDnsRecordExpireDuration := inst.config.fakeDnsRecordExpireDuration
  fakeDnsIpv4Network := inst.config.fakeDnsIpv4Network
  fakeDnsIpv6Network := inst.config.fakeDnsIpv6Network
  fakeDnsDatabasePath := inst.config.fakeDnsDatabasePath
  acl := inst.acl

def basicLocal (c : Config Kind Auth Resolver) : Option (LocalInstanceConfig Auth) :=
  match c.locals with
  | [inst] => if inst.config.isBasic then some inst else none
  | _ => none

def basicServer (c : Config Kind Auth Resolver) : Option (ServerInstanceConfig Kind) :=
  match c.server with
  | [inst] => if inst.config.isBasic then some inst else none
  | _ => none

def printOptions (o : Options) : SSOptions where
  udpTimeout := o.udpTimeout
  udpMaxAssociations := o.udpMaxAssociations
  udpMtu := o.udpMtu
  dnsCacheSize := none
  noDelay := if o.noDelay then some true else none
  keepAlive := o.keepAlive
  nofile := o.nofile
  ipv6Only := if o.ipv6Only then some true else none
  fastOpen := if o.fastOpen then some true else none
  mptcp := if o.mptcp then some true else none
  outboundFwmark := o.outboundFwmark
  outboundBindInterface := o.outboundBindInterface
  outboundUdpAllowFragmentation := some o.outboundUdpAllowFragmentation
  balancer := if o.balancer.maxServerRtt.isSome ∨ o.balancer.checkInterval.isSome then some o.balancer else none
  onlineConfig := o.onlineConfig

def printDns : DnsConfig Resolver → Option (SSDnsConfig Resolver)
  | .system => none
  | .hickoryDns config => some (.hickoryDns config)
  | .localDns path => some (.simple path)

def ManagerAddr.host (I : IpText) : ManagerAddr → Text
  | .inet addr => addr.host I
  | .unixSocketAddr path => path

def ManagerAddr.port : ManagerAddr → Option UInt16
  | .inet addr => some addr.port
  | .unixSocketAddr _ => none

def display (c : Config Kind Auth Resolver) : SSConfig Resolver where
  server := (basicServer c).map (·.config.addr.host H.ip)
  serverPort := (basicServer c).map (·.config.addr.port)
  localAddress := (basicLocal c).bind fun inst => inst.config.addr.map (·.host H.ip)
  localPort := (basicLocal c).bind fun inst => inst.config.addr.map (·.port)
  -- the protocol of a basic local is SOCKS
  protocol := (basicLocal c).bind fun inst =>
    if inst.config.protocol ≠ .socks then some inst.config.protocol.asStr else none
  managerAddress := c.manager.map (·.addr.host H.ip)
  managerPort := c.manager.bind (·.addr.port)
  password := (basicServer c).bind fun inst => printPassword H inst.config
  method :=
    ((basicServer c).map fun inst => H.ciphers.name inst.config.method) <|>
      (c.manager.bind fun m => m.method.map H.ciphers.name)
  plugin :=
    match (basicServer c).bind (·.config.plugin) with
    | some p => printPlugin (some p)
    | none => printManagerPlugin (c.manager.bind (·.plugin))
  timeout := (basicServer c).bind (·.config.timeout)
  servers := if c.server = [] ∨ (basicServer c).isSome then none else some (c.server.map (printServer H))
  locals := if c.locals = [] ∨ (basicLocal c).isSome then none else some (c.locals.map (printLocal H))
  dns := printDns c.dns
  mode := ((basicServer c).map (·.config.mode.asStr)) <|> (c.manager.map (·.mode.asStr))
  ipv6First := if c.ipv6First then some true else none
  outboundBindAddr := c.outboundBindAddr.map H.ip.print
  outboundProxy :=
    ((basicServer c).bind fun inst => SSOutboundProxyConfig.fromProxies inst.outboundProxy) <|>
      SSOutboundProxyConfig.fromProxies c.outboundProxy
  realm := (basicServer c).bind fun inst => inst.realm.map .fromRealmConfig
  replayAttackPolicy := if c.replayAttackPolicy ≠ .default then some (policyText c.replayAttackPolicy) else none
  acl := c.acl <|> (basicServer c).bind (·.acl) <|> (basicLocal c).bind (·.acl)
  version := none
  options := printOptions c.options

def printConfig {Doc : Type} (J : Json Doc Resolver) (c : Config Kind Auth Resolver) : Doc := J.print (display H c)

/-! ## 2. Parts that read back -/

variable {o : Option PluginConfig}

theorem loadPlugin_name {p : SSPlugin} (h : loadPlugin p = .ok o) : ∀ plugin, o = some plugin → plugin.plugin ≠ [] := by
  rintro plugin rfl
  unfold loadPlugin at h
  split at h
  · cases h
  split at h
  · cases h
  · obtain ⟨mode, -, hmode⟩ := except_map_ok_iff.mp h
    cases hmode
    assumption

theorem loadPlugin_printPlugin (h : ∀ plugin, o = some plugin → plugin.plugin ≠ []) :
    loadPlugin (printPlugin o) = .ok o := by
  cases o with
  | none => rfl
  | some plugin =>
    have hname := h plugin rfl
    obtain ⟨name, opts, args, mode⟩ := plugin
    cases mode <;> cases args <;> simp [loadPlugin, printPlugin, hname, readField, Except.map, Mode.fromStr_asStr]

theorem loadPlugin_printManagerPlugin {p : SSPlugin} (h : loadPlugin p = .ok o) :
    ∃ o', loadPlugin (printManagerPlugin o) = .ok o' ∧ (o' = none ↔ o = none) := by
  cases o with
  | none => exact ⟨none, rfl, Iff.rfl⟩
  | some plugin => exact ⟨_, if_neg (loadPlugin_name h plugin rfl), by simp⟩

theorem loadAcl_self {o r : Option Text} (h : loadAcl H o = .ok r) : loadAcl H r = .ok r := by
  cases o with
  | none =>
    cases h
    rfl
  | some path =>
    have h' := h
    unfold loadAcl at h
    dsimp only at h
    split at h
    · cases h
      exact h'
    · cases h

theorem loadProxies_fromProxies (hlaw : H.Lawful) {o : Option SSOutboundProxyConfig} {ps : List OutboundProxy}
    (h : loadProxies H o = .ok ps) : loadProxies H (SSOutboundProxyConfig.fromProxies ps) = .ok ps := by
  cases o with
  | none =>
    cases h
    rfl
  | some c =>
    have hps : c.intoProxies H = .ok ps := by
      cases hc : c.intoProxies H with
      | error e =>
        rw [loadProxies, hc] at h
        cases h
      | ok ps' =>
        rw [loadProxies, hc] at h
        cases h
        rfl
    rcases intoProxies_reread H hlaw hps with ⟨hnone, rfl⟩ | ⟨c', hc', hps'⟩
    · rfl
    · rw [hc', loadProxies, hps']
      rfl

theorem realm_reread (o : Option SSRealmConfig) :
    ((o.map (·.intoRealmConfig)).map SSRealmConfig.fromRealmConfig).map (·.intoRealmConfig) =
      o.map (·.intoRealmConfig) := by
  cases o with
  | none => rfl
  | some c => exact congrArg some (intoRealmConfig_reread c)

def UsersOk (m : ServerUserManager) : Prop :=
  (∀ u ∈ m.users, u = ServerUser.new H.primitives u.name u.key) ∧ m.users.Pairwise (·.identityHash ≠ ·.identityHash)

variable {m : ServerUserManager}

theorem UsersOk.addUser (h : UsersOk H m) (name : String) (key : Bytes) :
    UsersOk H (m.addUser (.new H.primitives name key)) := by
  refine ⟨?_, ?_⟩
  · intro u hu
    rcases mem_append.mp hu with hu | hu
    · exact h.1 u (mem_of_mem_filter hu)
    · rw [mem_singleton.mp hu]
      rfl
  · refine pairwise_append.mpr ⟨h.2.filter _, pairwise_singleton _ _, ?_⟩
    intro u hu v hv
    rw [mem_singleton.mp hv]
    simpa using (mem_filter.mp hu).2

theorem addUsers_ok {users : List SSServerUserConfig} {m' : ServerUserManager} (hm : UsersOk H m)
    (h : addUsers H m users = .ok m') : UsersOk H m' := by
  induction users generalizing m with
  | nil =>
    cases h
    exact hm
  | cons user users ih =>
    rw [addUsers] at h
    split at h
    · rename_i u hu
      obtain ⟨key, -, rfl⟩ := Option.map_eq_some_iff.mp hu
      exact ih (hm.addUser H user.name key) h
    · cases h

theorem addUsers_print {us : List ServerUser} (h : UsersOk H ⟨m.users ++ us⟩) :
    addUsers H m (us.map fun u => ⟨u.name, encode standard true u.key⟩) = .ok ⟨m.users ++ us⟩ := by
  induction us generalizing m with
  | nil => rw [append_nil, map_nil, addUsers]
  | cons u us ih =>
    have hu : withEncodedKey H u.name (encode standard true u.key) = some u := by
      rw [withEncodedKey, decode_encode, Option.map_some]
      exact congrArg some (h.1 u (mem_append_right _ mem_cons_self)).symm
    have hfresh : m.users.filter (fun v => v.identityHash ≠ u.identityHash) = m.users := by
      refine filter_eq_self.mpr fun v hv => ?_
      simpa using (pairwise_append.mp h.2).2.2 v hv u mem_cons_self
    have hadd : m.addUser u = ⟨m.users ++ [u]⟩ := by rw [ServerUserManager.addUser, hfresh]
    rw [map_cons, addUsers, hu]
    simp only [hadd]
    rw [ih (by rwa [append_assoc, singleton_append]), append_assoc, singleton_append]

theorem loadUsers_printUsers {o : Option (List SSServerUserConfig)} {m : Option ServerUserManager}
    (h : loadUsers H o = .ok m) : loadUsers H (printUsers m) = .ok m := by
  cases o with
  | none =>
    cases h
    rfl
  | some users =>
    obtain ⟨m, hm, rfl⟩ := except_map_ok_iff.mp h
    have hok : UsersOk H ⟨[] ++ m.users⟩ := addUsers_ok H ⟨fun u hu => absurd hu not_mem_nil, .nil⟩ hm
    rw [printUsers, Option.map_some, loadUsers, addUsers_print H hok]
    rfl

/-! ## 3. Servers -/

structure ServerReads (inst : ServerInstanceConfig Kind) : Prop where
  addr : inst.config.addr.Rereads H.ip
  users : loadUsers H (printUsers inst.config.userManager) = .ok inst.config.userManager
  plugin : loadPlugin (printPlugin inst.config.plugin) = .ok inst.config.plugin
  acl : loadAcl H inst.acl = .ok inst.acl
  proxies : loadProxies H (SSOutboundProxyConfig.fromProxies inst.outboundProxy) = .ok inst.outboundProxy
  realm : (inst.realm.map SSRealmConfig.fromRealmConfig).map (·.intoRealmConfig) = inst.realm

def freshServer (addr : ServerAddr) (method : Kind) (keys : Text × Bytes × List Bytes) : ServerConfig Kind :=
  { addr, password := keys.1, method, encKey := keys.2.1, timeout := none, identityKeys := keys.2.2,
    userManager := none, plugin := none, remarks := none, id := none, mode := .tcpAndUdp, weight := .new,
    source := .default }

variable {nsvr : ServerConfig Kind} {password : Option Text} {port : UInt16} {method : Text} {address : Text}

theorem newServer_ok_iff :
    newServer H address port method password = .ok nsvr ↔
      ∃ m pwd keys, H.ciphers.parse method = some m ∧ loadPassword H m password = .ok pwd ∧
        passwordToKeys H.ciphers m pwd = .ok keys ∧ nsvr = freshServer (hostAddr H.ip address port) m keys := by
  have hmethod : ∀ m, loadMethod H method = .ok m ↔ H.ciphers.parse method = some m := by
    intro m
    unfold loadMethod
    cases H.ciphers.parse method <;> simp
  simp only [newServer, except_bind_ok_iff, hmethod]
  refine exists_congr fun m => ?_
  rw [← exists_and_left]
  refine exists_congr fun pwd => ?_
  unfold ServerConfig.new
  cases passwordToKeys H.ciphers m pwd with
  | error e => simp [Except.map, Except.mapError]
  | ok keys => simp [Except.map, Except.mapError, freshServer, eq_comm]

theorem newServer_addr (h : newServer H address port method password = .ok nsvr) : nsvr.addr.Rereads H.ip := by
  obtain ⟨m, pwd, keys, -, -, -, rfl⟩ := (newServer_ok_iff H).mp h
  exact rereads_hostAddr H.ip address port

variable {inst : ServerInstanceConfig Kind} {configType : ConfigType} {source : ServerSource} {mode : Mode}
  {timeout : Option Nat}

theorem extServer_reads (hlaw : H.Lawful) {svr : SSServerExtConfig}
    (h : extServer H configType mode source timeout svr = .ok inst) : ServerReads H inst := by
  simp only [extServer, bind_ok_iff, ofExcept_ok_iff, pure_eq, ok.injEq] at h
  obtain ⟨nsvr, hnsvr, users, husers, m, -, plugin, hplugin, weight, -, acl, hacl, proxies, hproxies, rfl⟩ := h
  have haddr := newServer_addr H hnsvr
  exact {
    addr := haddr
    users := loadUsers_printUsers H husers
    plugin := loadPlugin_printPlugin (loadPlugin_name hplugin)
    acl := loadAcl_self H hacl
    proxies := loadProxies_fromProxies H hlaw hproxies
    realm := realm_reread _ }

variable {standard : List (ServerInstanceConfig Kind)}

theorem standardServer_reads {c : SSConfig Resolver} (h : standardServer H c configType mode source = .ok standard)
    (hinst : inst ∈ standard) : ServerReads H inst := by
  unfold standardServer at h
  split at h
  · simp only [except_bind_ok_iff] at h
    obtain ⟨nsvr, hnsvr, plugin, hplugin, h⟩ := h
    cases h
    rw [mem_singleton.mp hinst]
    have haddr := newServer_addr H hnsvr
    obtain ⟨m, pwd, keys, -, -, -, rfl⟩ := (newServer_ok_iff H).mp hnsvr
    exact {
      addr := haddr
      users := rfl
      plugin := loadPlugin_printPlugin (loadPlugin_name hplugin)
      acl := rfl
      proxies := rfl
      realm := realm_reread _ }
  · split at h <;> cases h
    cases hinst
  · cases h
    cases hinst
  · cases h

theorem ServerReads.setTimeout (h : ServerReads H inst) (timeout : Option Nat) :
    ServerReads H (setTimeout timeout inst) := by
  unfold Config.setTimeout
  split
  · exact h
  · split
    · exact ⟨h.addr, h.users, h.plugin, h.acl, h.proxies, h.realm⟩
    · exact h

variable (w : ServerWeight)

def rereadWeight : ServerWeight where
  tcpWeight := if f32Epsilon < |w.tcpWeight - 1| then w.tcpWeight else 1
  udpWeight := if f32Epsilon < |w.udpWeight - 1| then w.udpWeight else 1
  tcp_unit := by
    split
    · exact w.tcp_unit
    · exact ⟨zero_le_one, le_refl 1⟩
  udp_unit := by
    split
    · exact w.udp_unit
    · exact ⟨zero_le_one, le_refl 1⟩

theorem printWeight_unit {q : Rat} (h : 0 ≤ q ∧ q ≤ 1) :
    ((printWeight q).getD (.finite 1)).unit.map Subtype.val = some (if f32Epsilon < |q - 1| then q else 1) := by
  unfold printWeight
  split
  · simp [F32.unit, h]
  · simp [F32.unit]

theorem loadWeight_printWeight :
    loadWeight (printWeight w.tcpWeight) (printWeight w.udpWeight) = .ok (rereadWeight w) := by
  obtain ⟨t, ht, htcp⟩ := Option.map_eq_some_iff.mp (printWeight_unit w.tcp_unit)
  obtain ⟨u, hu, hudp⟩ := Option.map_eq_some_iff.mp (printWeight_unit w.udp_unit)
  unfold loadWeight
  split
  · simp only [ht, hu, Option.isNone_some, Bool.false_eq_true, if_false, setTcpWeight, setUdpWeight, ok_bind,
      htcp, hudp]
    rfl
  · -- neither weight was printed
    rename_i hnone
    simp only [printWeight, not_or, Option.isSome_ite] at hnone
    simp [rereadWeight, hnone, ServerWeight.new]

def WeightKept (w : Rat) : Prop := w = 1 ∨ f32Epsilon < |w - 1|

theorem rereadWeight_eq_iff : rereadWeight w = w ↔ WeightKept w.tcpWeight ∧ WeightKept w.udpWeight := by
  have hone : ∀ q : Rat, (if f32Epsilon < |q - 1| then q else 1) = q ↔ WeightKept q := by
    intro q
    unfold WeightKept
    split <;> simp_all [eq_comm]
  obtain ⟨t, u, ht, hu⟩ := w
  simp only [rereadWeight, ServerWeight.mk.injEq, hone]

structure ServerView (Kind : Type) where
  addr : ServerAddr
  method : Kind
  encKey : Bytes
  identityKeys : List Bytes
  userManager : Option ServerUserManager
  plugin : Option PluginConfig
  mode : Mode
  timeout : Option Nat
  weight : ServerWeight
  acl : Option Text
  outboundProxy : List OutboundProxy
  realm : Option RealmConfig

def ServerInstanceConfig.view (inst : ServerInstanceConfig Kind) : ServerView Kind where
  addr := inst.config.addr
  method := inst.config.method
  encKey := inst.config.encKey
  identityKeys := inst.config.identityKeys
  userManager := inst.config.userManager
  plugin := inst.config.plugin
  mode := inst.config.mode
  timeout := inst.config.timeout
  weight := inst.config.weight
  acl := inst.acl
  outboundProxy := inst.outboundProxy
  realm := inst.realm

def rereadPassword : Text :=
  if H.ciphers.family svr.method = .none then [] else readVariableFieldValue H svr.exportPassword

def KeysKept : Prop :=
  ∃ upsk, passwordToKeys H.ciphers svr.method (rereadPassword H svr) = .ok (upsk, svr.encKey, svr.identityKeys)

theorem newServer_print_iff {svr : ServerConfig Kind} :
    newServer H (svr.addr.host H.ip) svr.addr.port (H.ciphers.name svr.method) (printPassword H svr) = .ok nsvr ↔
      ∃ keys, passwordToKeys H.ciphers svr.method (rereadPassword H svr) = .ok keys ∧
        nsvr = freshServer (hostAddr H.ip (svr.addr.host H.ip) svr.addr.port) svr.method keys := by
  have hpwd : loadPassword H svr.method (printPassword H svr) = .ok (rereadPassword H svr) := by
    unfold printPassword rereadPassword
    split
    · rw [loadPassword, if_pos (by assumption)]
    · rfl
  rw [newServer_ok_iff, H.ciphers.parse_name]
  constructor
  · rintro ⟨m, pwd, keys, ⟨⟩, hread, hkeys, rfl⟩
    rw [hpwd] at hread
    cases hread
    exact ⟨keys, hkeys, rfl⟩
  · rintro ⟨keys, hkeys, rfl⟩
    exact ⟨_, _, keys, rfl, hpwd, hkeys, rfl⟩

def rereadExt (inst : ServerInstanceConfig Kind) (source : ServerSource) (timeout : Option Nat)
    (keys : Text × Bytes × List Bytes) : ServerInstanceConfig Kind :=
  { inst with
    config :=
      { inst.config with
        password := keys.1
        encKey := keys.2.1
        identityKeys := keys.2.2
        weight := rereadWeight inst.config.weight
        source, timeout } }

theorem extServer_printServer (h : ServerReads H inst) (configType : ConfigType) (mode : Mode) (source : ServerSource)
    (timeout : Option Nat) {inst' : ServerInstanceConfig Kind} :
    extServer H configType mode source timeout (printServer H inst) = .ok inst' ↔
      ∃ keys, passwordToKeys H.ciphers inst.config.method (rereadPassword H inst.config) = .ok keys ∧
        inst' = rereadExt inst source timeout keys := by
  have hmode : ∀ e, readField Mode.fromStr e (some inst.config.mode.asStr) = .ok (some inst.config.mode) :=
    fun e => readField_map (o := some inst.config.mode) fun m _ => Mode.fromStr_asStr m
  have haddr : hostAddr H.ip (inst.config.addr.host H.ip) inst.config.addr.port = inst.config.addr := h.addr
  simp only [extServer, printServer, bind_ok_iff, ofExcept_ok_iff, newServer_print_iff H, haddr,
    h.users, hmode, h.plugin, loadWeight_printWeight, h.acl, h.proxies, h.realm, pure_eq, ok.injEq,
    Except.ok.injEq, exists_eq_left', Option.getD_some]
  constructor
  · rintro ⟨nsvr, ⟨keys, hkeys, rfl⟩, rfl⟩
    exact ⟨keys, hkeys, rfl⟩
  · rintro ⟨keys, hkeys, rfl⟩
    exact ⟨_, ⟨keys, hkeys, rfl⟩, rfl⟩

def ExtKept (inst : ServerInstanceConfig Kind) : Prop :=
  inst.config.timeout = none ∧ (WeightKept inst.config.weight.tcpWeight ∧ WeightKept inst.config.weight.udpWeight) ∧
    KeysKept H inst.config

variable {keys : Text × Bytes × List Bytes}

theorem rereadExt_view_iff : (rereadExt inst source none keys).view = inst.view ↔
      inst.config.timeout = none ∧ rereadWeight inst.config.weight = inst.config.weight ∧
        keys.2 = (inst.config.encKey, inst.config.identityKeys) := by
  simp only [ServerInstanceConfig.view, rereadExt, ServerView.mk.injEq, true_and, and_true, Prod.ext_iff]
  constructor
  · intro ⟨hkey, hids, htimeout, hweight⟩
    exact ⟨htimeout.symm, hweight, hkey, hids⟩
  · intro ⟨htimeout, hweight, hkey, hids⟩
    exact ⟨hkey, hids, htimeout.symm, hweight⟩

theorem extServer_view_iff (h : ServerReads H inst) (configType : ConfigType) (mode : Mode) (source : ServerSource) :
    (∃ inst', extServer H configType mode source none (printServer H inst) = .ok inst' ∧ inst'.view = inst.view) ↔
      ExtKept H inst := by
  simp only [extServer_printServer H h]
  constructor
  · rintro ⟨inst', ⟨keys, hkeys, rfl⟩, hview⟩
    obtain ⟨htimeout, hweight, hsame⟩ := rereadExt_view_iff.mp hview
    refine ⟨htimeout, (rereadWeight_eq_iff _).mp hweight, keys.1, ?_⟩
    rw [hkeys, ← hsame]
  · intro ⟨htimeout, hweight, upsk, hkeys⟩
    exact ⟨_, ⟨_, hkeys, rfl⟩, rereadExt_view_iff.mpr ⟨htimeout, (rereadWeight_eq_iff _).mpr hweight, rfl⟩⟩

theorem exists_forall₂_map_iff {α β γ : Type} {R : β → α → Prop} {p : α → β} {v : α → γ} {as : List α} :
    (∃ bs, Forall₂ R (as.map p) bs ∧ bs.map v = as.map v) ↔ ∀ a ∈ as, ∃ b, R (p a) b ∧ v b = v a := by
  induction as with
  | nil => simp
  | cons a as ih =>
    rw [forall_mem_cons, ← ih]
    constructor
    · intro ⟨bs, hbs, hv⟩
      obtain ⟨b, rest, hb, hrest, rfl⟩ := forall₂_cons_left_iff.mp hbs
      obtain ⟨hvb, hvrest⟩ := cons.inj hv
      exact ⟨⟨b, hb, hvb⟩, rest, hrest, hvrest⟩
    · intro ⟨⟨b, hb, hvb⟩, rest, hrest, hvrest⟩
      exact ⟨b :: rest, .cons hb hrest, by rw [map_cons, map_cons, hvb, hvrest]⟩

variable {c : Config Kind Auth Resolver}

theorem basicServer_eq_some (h : basicServer c = some inst) : c.server = [inst] := by
  unfold basicServer at h
  split at h
  · rename_i i hserver
    split at h
    · cases h
      exact hserver
    · cases h
  · cases h

theorem basicLocal_eq_some {inst : LocalInstanceConfig Auth} (h : basicLocal c = some inst) :
    c.locals = [inst] ∧ inst.config.isBasic = true := by
  unfold basicLocal at h
  split at h
  · rename_i i hlocals
    split at h
    · cases h
      exact ⟨hlocals, by assumption⟩
    · cases h
  · cases h

theorem setTimeout_self (h : inst.config.timeout = timeout) : setTimeout timeout inst = inst := by
  subst h
  unfold setTimeout
  split
  · rfl
  · rename_i t ht
    exact if_neg (by simp [ht])

def rereadStandard (inst : ServerInstanceConfig Kind) (source : ServerSource) (plugin : Option PluginConfig)
    (keys : Text × Bytes × List Bytes) : ServerInstanceConfig Kind :=
  { ServerInstanceConfig.withServerConfig
      { freshServer (hostAddr H.ip (inst.config.addr.host H.ip) inst.config.addr.port) inst.config.method keys with
        source, plugin, mode := inst.config.mode, timeout := inst.config.timeout } with
    realm := inst.realm }

theorem standardServer_display (hbasic : basicServer c = some inst)
    (hrealm : (inst.realm.map SSRealmConfig.fromRealmConfig).map (·.intoRealmConfig) = inst.realm)
    (configType : ConfigType) (source : ServerSource) :
    standardServer H (display H c) configType inst.config.mode source = .ok standard ↔
      ∃ keys plugin, passwordToKeys H.ciphers inst.config.method (rereadPassword H inst.config) = .ok keys ∧
        loadPlugin (display H c).plugin = .ok plugin ∧ standard = [rereadStandard H inst source plugin keys] := by
  simp only [standardServer, display, hbasic, Option.map_some, Option.bind_some, Option.orElse_eq_orElse,
    Option.orElse_eq_or, Option.some_or, hrealm, except_bind_ok_iff, newServer_print_iff H]
  constructor
  · rintro ⟨nsvr, ⟨keys, hkeys, rfl⟩, plugin, hplugin, hstandard⟩
    cases hstandard
    exact ⟨keys, plugin, hkeys, hplugin, rfl⟩
  · rintro ⟨keys, plugin, hkeys, hplugin, rfl⟩
    exact ⟨_, ⟨keys, hkeys, rfl⟩, plugin, hplugin, rfl⟩

def StandardKept (c : Config Kind Auth Resolver) (inst : ServerInstanceConfig Kind) : Prop :=
  inst.config.userManager = none ∧ inst.config.weight = .new ∧ inst.acl = none ∧ inst.outboundProxy = [] ∧
    KeysKept H inst.config ∧ (inst.config.plugin = none → ∀ m, c.manager = some m → m.plugin = none)

theorem rereadStandard_view_iff {plugin : Option PluginConfig} :
    (rereadStandard H inst source plugin keys).view = inst.view ↔ inst.config.addr.Rereads H.ip ∧
      (inst.config.userManager = none ∧ inst.config.weight = .new ∧ inst.acl = none ∧ inst.outboundProxy = []) ∧
        keys.2 = (inst.config.encKey, inst.config.identityKeys) ∧ plugin = inst.config.plugin := by
  simp only [ServerInstanceConfig.view, rereadStandard, ServerInstanceConfig.withServerConfig, freshServer,
    ServerView.mk.injEq, true_and, and_true, Prod.ext_iff]
  constructor
  · rintro ⟨haddr, hkey, hids, husers, hplugin, hweight, hacl, hproxies⟩
    exact ⟨haddr, ⟨husers.symm, hweight.symm, hacl.symm, hproxies.symm⟩, ⟨hkey, hids⟩, hplugin⟩
  · rintro ⟨haddr, ⟨husers, hweight, hacl, hproxies⟩, ⟨hkey, hids⟩, hplugin⟩
    exact ⟨haddr, hkey, hids, husers.symm, hplugin, hweight.symm, hacl.symm, hproxies.symm⟩

theorem loadPlugin_display
    (hserver : ∀ inst ∈ c.server, loadPlugin (printPlugin inst.config.plugin) = .ok inst.config.plugin)
    (hmanager : ∀ m, c.manager = some m → ∃ p, loadPlugin p = .ok m.plugin) :
    ∃ plugin, loadPlugin (display H c).plugin = .ok plugin ∧ ∀ inst, basicServer c = some inst →
      (plugin = inst.config.plugin ↔ (inst.config.plugin = none → ∀ m, c.manager = some m → m.plugin = none)) := by
  cases hplugin : (basicServer c).bind (·.config.plugin) with
  | some p =>
    obtain ⟨inst, hbasic, hp⟩ := Option.bind_eq_some_iff.mp hplugin
    refine ⟨some p, ?_, ?_⟩
    · rw [show (display H c).plugin = printPlugin (some p) by simp [display, hplugin], ← hp]
      exact hserver inst (by rw [basicServer_eq_some hbasic]; exact mem_cons_self)
    · intro inst' hbasic'
      cases hbasic.symm.trans hbasic'
      simp [hp]
  | none =>
    have hfields : (display H c).plugin = printManagerPlugin (c.manager.bind (·.plugin)) := by
      simp [display, hplugin]
    have hload : ∃ p, loadPlugin p = .ok (c.manager.bind (·.plugin)) := by
      cases hm : c.manager with
      | none => exact ⟨.none, rfl⟩
      | some m => exact hmanager m hm
    obtain ⟨p, hp⟩ := hload
    obtain ⟨plugin, hread, hnone⟩ := loadPlugin_printManagerPlugin hp
    refine ⟨plugin, hfields ▸ hread, ?_⟩
    intro inst hbasic
    have hinst : inst.config.plugin = none := by simpa [hbasic] using hplugin
    rw [hinst, hnone, Option.bind_eq_none_iff]
    simp

theorem standardServer_view_iff (hbasic : basicServer c = some inst) (h : ServerReads H inst)
    (configType : ConfigType) (source : ServerSource)
    (hmanager : ∀ m, c.manager = some m → ∃ p, loadPlugin p = .ok m.plugin) :
    (∃ standard, standardServer H (display H c) configType inst.config.mode source = .ok standard ∧
        (standard.map (setTimeout inst.config.timeout)).map (·.view) = [inst.view]) ↔ StandardKept H c inst := by
  have hserver : ∀ i ∈ c.server, loadPlugin (printPlugin i.config.plugin) = .ok i.config.plugin := by
    intro i hi
    rw [basicServer_eq_some hbasic, mem_singleton] at hi
    exact hi ▸ h.plugin
  obtain ⟨plugin, hplugin, hsame⟩ := loadPlugin_display H hserver hmanager
  have hview : ∀ keys, (([rereadStandard H inst source plugin keys].map (setTimeout inst.config.timeout)).map (·.view) =
      [inst.view]) ↔ (rereadStandard H inst source plugin keys).view = inst.view := by
    intro keys
    have hset : setTimeout inst.config.timeout (rereadStandard H inst source plugin keys) =
        rereadStandard H inst source plugin keys := setTimeout_self rfl
    rw [map_singleton, hset, map_singleton, cons.injEq, and_iff_left rfl]
  simp only [standardServer_display H hbasic h.realm]
  constructor
  · rintro ⟨standard, ⟨keys, plugin', hkeys, hplugin', rfl⟩, heq⟩
    cases hplugin.symm.trans hplugin'
    obtain ⟨-, ⟨husers, hweight, hacl, hproxies⟩, hkeep, hp⟩ := (rereadStandard_view_iff H).mp ((hview keys).mp heq)
    refine ⟨husers, hweight, hacl, hproxies, ⟨keys.1, ?_⟩, (hsame inst hbasic).mp hp⟩
    rw [hkeys, ← hkeep]
  · intro ⟨husers, hweight, hacl, hproxies, ⟨upsk, hkeys⟩, hp⟩
    refine ⟨_, ⟨_, plugin, hkeys, hplugin, rfl⟩, (hview _).mpr ((rereadStandard_view_iff H).mpr ?_)⟩
    exact ⟨h.addr, ⟨husers, hweight, hacl, hproxies⟩, rfl, (hsame inst hbasic).mpr hp⟩

def printedMode (c : Config Kind Auth Resolver) : Mode :=
  (((basicServer c).map (·.config.mode)) <|> (c.manager.map (·.mode))).getD .tcpOnly

theorem globalMode_display (c : Config Kind Auth Resolver) : globalMode (display H c) = .ok (printedMode c) := by
  have hmode : (display H c).mode =
      (((basicServer c).map (·.config.mode)) <|> (c.manager.map (·.mode))).map Mode.asStr := by
    cases hb : basicServer c <;> cases hm : c.manager <;> simp [display, hb, hm]
  rw [globalMode, hmode, readField_map fun m _ => Mode.fromStr_asStr m]
  rfl

theorem standardServer_display_none (hbasic : basicServer c = none) (configType : ConfigType) (mode : Mode)
    (source : ServerSource) : standardServer H (display H c) configType mode source = .ok standard ↔
      standard = [] ∧ (configType = .manager ∨ ∀ m, c.manager = some m → m.method = none) := by
  have hnone : (∀ m, c.manager = some m → m.method = none) ↔
      (c.manager.bind fun m => m.method.map H.ciphers.name) = none := by
    simp
  rw [hnone]
  simp only [standardServer, display, hbasic, Option.map_none, Option.bind_none, Option.orElse_eq_orElse,
    Option.orElse_eq_or, Option.none_or]
  cases c.manager.bind fun m => m.method.map H.ciphers.name with
  | none => simp [eq_comm]
  | some m => by_cases hT : configType = .manager <;> simp [hT, eq_comm]

theorem enabled_print {α β : Type} (disabled : β → Option Bool) {print : α → β} (h : ∀ a, disabled (print a) = none)
    (as : List α) (basic : Bool) :
    ((if as = [] ∨ basic then none else some (as.map print)).getD []).filter (fun b => !(disabled b).getD false) =
      if basic then [] else as.map print := by
  have hall : (as.map print).filter (fun b => !(disabled b).getD false) = as.map print := by
    refine filter_eq_self.mpr fun b hb => ?_
    obtain ⟨a, -, rfl⟩ := mem_map.mp hb
    rw [h a]
    rfl
  cases basic with
  | true => simp
  | false =>
    cases as with
    | nil => rfl
    | cons a as => simpa using hall

theorem enabledServers_display (c : Config Kind Auth Resolver) :
    enabledServers (display H c) = if (basicServer c).isSome then [] else c.server.map (printServer H) :=
  enabled_print SSServerExtConfig.disabled (fun _ => rfl) c.server _

def ServersKept (c : Config Kind Auth Resolver) : Prop :=
  match basicServer c with
  | some inst => StandardKept H c inst
  | none =>
    (∀ inst ∈ c.server, ExtKept H inst) ∧ (c.configType = .manager ∨ ∀ m, c.manager = some m → m.method = none)

theorem servers_display_iff (hreads : ∀ inst ∈ c.server, ServerReads H inst)
    (hmanager : ∀ m, c.manager = some m → ∃ p, loadPlugin p = .ok m.plugin) (source : ServerSource) :
    (∃ standard ext, standardServer H (display H c) c.configType (printedMode c) source = .ok standard ∧
        Forall₂ (fun svr inst =>
            extServer H c.configType (printedMode c) source (display H c).timeout svr = .ok inst)
          (enabledServers (display H c)) ext ∧
        ((standard ++ ext).map (setTimeout (display H c).timeout)).map (·.view) = c.server.map (·.view)) ↔
      ServersKept H c := by
  rw [enabledServers_display, ServersKept]
  cases hb : basicServer c with
  | some inst =>
    have hserver := basicServer_eq_some hb
    have hmode : printedMode c = inst.config.mode := by simp [printedMode, hb]
    have htimeout : (display H c).timeout = inst.config.timeout := by simp [display, hb]
    simp only [hmode, htimeout, hserver, Option.isSome_some, if_true, forall₂_nil_left_iff, map_cons, map_nil]
    rw [← standardServer_view_iff H hb (hreads inst (hserver ▸ mem_cons_self)) c.configType source hmanager]
    refine exists_congr fun standard => ?_
    simp
  | none =>
    have htimeout : (display H c).timeout = none := by simp [display, hb]
    have hid : (setTimeout none : ServerInstanceConfig Kind → _) = id := rfl
    simp only [htimeout, hid, standardServer_display_none H hb, Option.isSome_none, Bool.false_eq_true, if_false,
      map_id]
    have hkept : (∃ ext, Forall₂ (fun svr inst =>
          extServer H c.configType (printedMode c) source none svr = .ok inst) (c.server.map (printServer H)) ext ∧
        ext.map (·.view) = c.server.map (·.view)) ↔ ∀ inst ∈ c.server, ExtKept H inst :=
      exists_forall₂_map_iff.trans <| forall₂_congr fun inst hinst =>
        extServer_view_iff H (hreads inst hinst) c.configType (printedMode c) source
    rw [← hkept]
    constructor
    · rintro ⟨standard, ext, ⟨rfl, hmethod⟩, hext, hview⟩
      exact ⟨⟨ext, hext, hview⟩, hmethod⟩
    · intro ⟨⟨ext, hext, hview⟩, hmethod⟩
      exact ⟨[], ext, ⟨rfl, hmethod⟩, hext, hview⟩

/-! ## 4. Locals -/

def RedirReads (r default : RedirType) : Prop := r = default ∨ RedirType.fromStr r.name = some r

structure LocalReads (inst : LocalInstanceConfig Auth) : Prop where
  addr : ∀ a, inst.config.addr = some a → a.Rereads H.ip ∧ a.port ≠ 0
  udpAddr : ∀ a, inst.config.udpAddr = some a → a.Rereads H.ip ∧ a.port ≠ 0
  forwardAddr : ∀ a, inst.config.forwardAddr = some a → a.Rereads H.ip ∧ a.port ≠ 0
  remoteDnsAddr : ∀ a, inst.config.remoteDnsAddr = some a → a.Rereads H.ip
  localDnsAddr : ∀ a, inst.config.localDnsAddr = some a → nameServerAddr H.ip (a.host H.ip) a.port = a
  tcpRedir : RedirReads inst.config.tcpRedir .tcpDefault
  udpRedir : RedirReads inst.config.udpRedir .udpDefault
  tunInterfaceAddress : ∀ n, inst.config.tunInterfaceAddress = some n → H.ipNet n = some n
  tunInterfaceDestination : ∀ n, inst.config.tunInterfaceDestination = some n → H.ipNet n = some n
  fakeDnsIpv4Network : ∀ n, inst.config.fakeDnsIpv4Network = some n → H.ipv4Net n = some n
  fakeDnsIpv6Network : ∀ n, inst.config.fakeDnsIpv6Network = some n → H.ipv6Net n = some n
  acl : loadAcl H inst.acl = .ok inst.acl

theorem getLocalAddress_reads (address : Option Text) (port : UInt16) (ipv6First : Bool) :
    (getLocalAddress H address port ipv6First).Rereads H.ip ∧ (getLocalAddress H address port ipv6First).port = port := by
  cases address with
  | some addr => exact ⟨rereads_hostAddr H.ip addr port, hostAddr_port H.ip addr port⟩
  | none =>
    refine ⟨rereads_socketAddr H.ip _ port, ?_⟩
    cases ipv6First <;> rfl

variable {o : Option ServerAddr}

theorem nonzero_reads {a : ServerAddr} (hreads : a.Rereads H.ip) (hport : a.port = port) {e : Error}
    (h : (if port = 0 then .error e else .ok (some a) : Except Error _) = .ok o) :
    ∀ b, o = some b → b.Rereads H.ip ∧ b.port ≠ 0 := by
  intro b hb
  split at h
  · cases h
  · rename_i hzero
    cases h
    cases hb
    exact ⟨hreads, hport ▸ hzero⟩

variable {address : Option Text} {port : Option UInt16} {ipv6First : Bool}

theorem extLocalAddr_reads (h : extLocalAddr H ipv6First address port = .ok o) :
    ∀ a, o = some a → a.Rereads H.ip ∧ a.port ≠ 0 := by
  unfold extLocalAddr at h
  split at h
  · rename_i port
    obtain ⟨hreads, hport⟩ := getLocalAddress_reads H address port ipv6First
    exact nonzero_reads H hreads hport h
  · split at h <;> cases h
    exact nofun

theorem extLocalUdpAddr_reads (h : extLocalUdpAddr H ipv6First address port = .ok o) :
    ∀ a, o = some a → a.Rereads H.ip ∧ a.port ≠ 0 := by
  unfold extLocalUdpAddr at h
  split at h
  · rename_i port
    obtain ⟨hreads, hport⟩ := getLocalAddress_reads H address port ipv6First
    exact nonzero_reads H hreads hport h
  · cases h
    exact nofun

theorem extForwardAddr_reads (h : extForwardAddr H address port = .ok o) :
    ∀ a, o = some a → a.Rereads H.ip ∧ a.port ≠ 0 := by
  unfold extForwardAddr at h
  split at h
  · cases h
    exact nofun
  · split at h
    · cases h
    · exact nonzero_reads H (rereads_hostAddr H.ip _ _) (hostAddr_port H.ip _ _) h

variable {e : Text → Error}

theorem redirReads_of_readField {o : Option Text} {r : Option RedirType} (default : RedirType)
    (h : readField RedirType.fromStr e o = .ok r) : RedirReads (r.getD default) default := by
  cases r with
  | none => exact .inl rfl
  | some r =>
    obtain ⟨s, -, hs⟩ := readField_ok h rfl
    exact .inr (RedirType.fromStr_name hs)

variable {parse : Text → Option Text} {inst : LocalInstanceConfig Auth}

theorem net_of_readField (hlaw : ∀ s n, parse s = some n → parse n = some n)
    {o r : Option Text} (h : readField parse e o = .ok r) : ∀ n, r = some n → parse n = some n := by
  intro n hn
  obtain ⟨s, -, hs⟩ := readField_ok h hn
  exact hlaw s n hs

theorem extLocal_reads (hlaw : H.Lawful) {l : SSLocalExtConfig}
    (h : extLocal H ipv6First mode l = .ok inst) : LocalReads H inst := by
  simp only [extLocal, except_bind_ok_iff] at h
  obtain ⟨protocol, -, addr, haddr, udpAddr, hudpAddr, m, -, forwardAddr, hforward, tcpRedir, htcp, udpRedir, hudp,
    tunAddress, htunAddress, tunDestination, htunDestination, socks5Auth, -, httpAuth, -, net4, hnet4, net6, hnet6,
    acl, hacl, h⟩ := h
  cases h
  exact {
    addr := extLocalAddr_reads H haddr
    udpAddr := extLocalUdpAddr_reads H hudpAddr
    forwardAddr := extForwardAddr_reads H hforward
    remoteDnsAddr := by
      intro a ha
      obtain ⟨host, -, rfl⟩ := Option.map_eq_some_iff.mp ha
      exact rereads_hostAddr H.ip host _
    localDnsAddr := by
      intro a ha
      obtain ⟨host, -, rfl⟩ := Option.map_eq_some_iff.mp ha
      exact nameServerAddr_reread H.ip host _
    tcpRedir := redirReads_of_readField _ htcp
    udpRedir := redirReads_of_readField _ hudp
    tunInterfaceAddress := net_of_readField hlaw.ipNet htunAddress
    tunInterfaceDestination := net_of_readField hlaw.ipNet htunDestination
    fakeDnsIpv4Network := net_of_readField hlaw.ipv4Net hnet4
    fakeDnsIpv6Network := net_of_readField hlaw.ipv6Net hnet6
    acl := loadAcl_self H hacl }

theorem standardLocal_reads {c : SSConfig Resolver} {standard : List (LocalInstanceConfig Auth)}
    (h : standardLocal H c mode = .ok standard) : ∀ inst ∈ standard, LocalReads H inst := by
  unfold standardLocal at h
  split at h
  · cases h
  split at h
  · cases h
    exact fun inst hinst => absurd hinst not_mem_nil
  split at h
  · cases h
  · rename_i port _ hport
    simp only [bind_ok_iff, pure_eq, ok.injEq] at h
    obtain ⟨protocol, -, rfl⟩ := h
    intro inst hinst
    rw [mem_singleton.mp hinst]
    obtain ⟨hreads, hsame⟩ := getLocalAddress_reads H c.localAddress port (c.ipv6First.getD false)
    exact {
      addr := by
        rintro a ⟨⟩
        exact ⟨hreads, by rwa [hsame]⟩
      udpAddr := nofun
      forwardAddr := nofun
      remoteDnsAddr := nofun
      localDnsAddr := nofun
      tcpRedir := .inl rfl
      udpRedir := .inl rfl
      tunInterfaceAddress := nofun
      tunInterfaceDestination := nofun
      fakeDnsIpv4Network := nofun
      fakeDnsIpv6Network := nofun
      acl := rfl }

theorem loadProtocol_print (p : ProtocolType) :
    loadProtocol (if p = .socks then none else some p.asStr) = .ok p := by
  cases p <;> rfl

theorem readField_redir {r default : RedirType} (h : RedirReads r default) (e : Text → Error) :
    readField RedirType.fromStr e (if r ≠ default then some r.name else none) =
      .ok (if r ≠ default then some r else none) := by
  split
  · rename_i hne
    rw [readField, h.resolve_left hne]
  · rfl

theorem getD_redir (r default : RedirType) : (if r ≠ default then some r else none).getD default = r := by
  split
  · rfl
  · rename_i heq
    exact (not_not.mp heq).symm

theorem readField_net {o : Option Text} (h : ∀ n, o = some n → parse n = some n)
    (e : Text → Error) : readField parse e o = .ok o := by
  have hread : readField parse e (o.map id) = .ok o := readField_map h
  rwa [Option.map_id] at hread

theorem addr_print {f : Option Text → Option UInt16 → Except Error (Option ServerAddr)} {e : Error}
    (hnone : f none none = .ok none) (hsome : ∀ host port, f (some host) (some port) =
      if port = 0 then .error e else .ok (some (hostAddr H.ip host port)))
    (h : ∀ a, o = some a → a.Rereads H.ip ∧ a.port ≠ 0) : f (o.map (·.host H.ip)) (o.map (·.port)) = .ok o := by
  cases o with
  | none => exact hnone
  | some a =>
    obtain ⟨hreads, hport⟩ := h a rfl
    exact (hsome _ _).trans ((if_neg hport).trans (congrArg (fun a => Except.ok (some a)) hreads))

theorem remoteDns_print (h : ∀ a, o = some a → a.Rereads H.ip) :
    (o.map (·.host H.ip)).map (hostAddr H.ip · ((o.map (·.port)).getD 53)) = o := by
  cases o with
  | none => rfl
  | some a => exact congrArg some (h a rfl)

theorem localDns_print {o : Option NameServerAddr}
    (h : ∀ a, o = some a → nameServerAddr H.ip (a.host H.ip) a.port = a) :
    (o.map (·.host H.ip)).map (nameServerAddr H.ip · (o.bind (·.port))) = o := by
  cases o with
  | none => rfl
  | some a => exact congrArg some (h a rfl)

def rereadLocal (inst : LocalInstanceConfig Auth) : LocalInstanceConfig Auth :=
  { inst with config := { inst.config with socks5Auth := H.noAuth, httpAuth := H.noAuth } }

theorem extLocal_printLocal (h : LocalReads H inst) (ipv6First : Bool) (mode : Mode) :
    extLocal H ipv6First mode (printLocal H inst) = .ok (rereadLocal H inst) := by
  have hmode : ∀ e, readField Mode.fromStr e (some inst.config.mode.asStr) = .ok (some inst.config.mode) :=
    fun e => readField_map (o := some inst.config.mode) fun m _ => Mode.fromStr_asStr m
  have hok : ∀ {α β : Type} (a : α) (f : α → Except Error β), (Except.ok a >>= f) = f a := fun a f => rfl
  simp only [extLocal, printLocal, loadProtocol_print, hmode,
    addr_print (f := extLocalAddr H ipv6First) H rfl (fun _ _ => rfl) h.addr,
    addr_print (f := extLocalUdpAddr H ipv6First) H rfl (fun _ _ => rfl) h.udpAddr,
    addr_print (f := extForwardAddr H) H rfl (fun _ _ => rfl) h.forwardAddr, readField_redir h.tcpRedir,
    readField_redir h.udpRedir, readField_net h.tunInterfaceAddress, readField_net h.tunInterfaceDestination,
    readField_net h.fakeDnsIpv4Network, readField_net h.fakeDnsIpv6Network, loadAuth, h.acl, hok, getD_redir, remoteDns_print H h.remoteDnsAddr,
    localDns_print H h.localDnsAddr, Option.getD_some]
  rfl

theorem rereadLocal_eq_iff (inst : LocalInstanceConfig Auth) :
    rereadLocal H inst = inst ↔ inst.config.socks5Auth = H.noAuth ∧ inst.config.httpAuth = H.noAuth := by
  obtain ⟨config, acl⟩ := inst
  obtain ⟨⟩ := config
  simp [rereadLocal, eq_comm]

theorem enabledLocals_display (c : Config Kind Auth Resolver) :
    enabledLocals (display H c) = if (basicLocal c).isSome then [] else c.locals.map (printLocal H) :=
  enabled_print SSLocalExtConfig.disabled (fun _ => rfl) c.locals _

def bareLocal (addr : ServerAddr) (mode : Mode) : LocalInstanceConfig Auth :=
  ⟨{ LocalConfig.new H.noAuth .socks with addr := some addr, mode }, none⟩

def LocalsKept (c : Config Kind Auth Resolver) : Prop :=
  match basicLocal c with
  | some inst => ∃ addr, inst = bareLocal H addr (printedMode c)
  | none => ∀ inst ∈ c.locals, inst.config.socks5Auth = H.noAuth ∧ inst.config.httpAuth = H.noAuth

theorem isBasic_protocol {config : LocalConfig Auth} (h : config.isBasic = true) : config.protocol = .socks := by
  simp only [LocalConfig.isBasic, Bool.and_eq_true, Bool.not_eq_true', Bool.or_eq_false_iff,
    decide_eq_false_iff_not, not_not] at h
  exact h.1.1.1.1

theorem standardLocal_display_basic (hbasic : basicLocal c = some inst)
    (h : LocalReads H inst) (mode : Mode) :
    standardLocal H (display H c) mode = .ok (inst.config.addr.toList.map (bareLocal H · mode)) := by
  have hprotocol : (display H c).protocol = none := by
    simp [display, hbasic, isBasic_protocol (basicLocal_eq_some hbasic).2]
  cases ha : inst.config.addr with
  | none =>
    simp [standardLocal, display, hbasic, ha]
  | some a =>
    have haddress : (display H c).localAddress = some (a.host H.ip) := by simp [display, hbasic, ha]
    have hport : (display H c).localPort = some a.port := by simp [display, hbasic, ha]
    obtain ⟨hreads, hzero⟩ := h.addr a ha
    simp [standardLocal, haddress, hport, hprotocol, hzero, loadProtocol, readField, Except.map, getLocalAddress,
      show hostAddr H.ip (a.host H.ip) a.port = a from hreads]
    rfl

theorem loadLocals_display (hlocal : c.configType ≠ .local → c.locals = [])
    (hreads : ∀ inst ∈ c.locals, LocalReads H inst) :
    ∃ locals, loadLocals H (display H c) c.configType (printedMode c) = .ok locals ∧
      (locals = c.locals ↔ LocalsKept H c) := by
  by_cases hT : c.configType = .local
  · rw [hT, LocalsKept]
    simp only [loadLocals, enabledLocals_display]
    cases hb : basicLocal c with
    | some inst =>
      obtain ⟨hlocals, -⟩ := basicLocal_eq_some hb
      refine ⟨_, by
        rw [standardLocal_display_basic H hb (hreads inst (hlocals ▸ mem_cons_self))]
        rfl, ?_⟩
      rw [hlocals, append_nil]
      cases ha : inst.config.addr with
      | none =>
        refine iff_of_false (cons_ne_nil _ _).symm ?_
        rintro ⟨a, rfl⟩
        cases ha
      | some a =>
        rw [Option.toList_some, map_singleton, cons.injEq, and_iff_left rfl]
        refine ⟨fun heq => ⟨a, heq.symm⟩, ?_⟩
        rintro ⟨a', rfl⟩
        cases ha
        rfl
    | none =>
      have hstandard : standardLocal H (display H c) (printedMode c) = .ok [] := by
        simp [standardLocal, display, hb]
      have hext : each (fun l => .ofExcept (extLocal H ((display H c).ipv6First.getD false) (printedMode c) l))
          (c.locals.map (printLocal H)) = .ok (c.locals.map (rereadLocal H)) := by
        refine each_ok_iff.mpr (forall₂_map_left_iff.mpr (forall₂_map_right_iff.mpr ?_))
        refine forall₂_same.mpr fun inst hinst => ?_
        rw [extLocal_printLocal H (hreads inst hinst), ofExcept_ok]
      refine ⟨c.locals.map (rereadLocal H), ?_, ?_⟩
      · rw [hstandard, Option.isSome_none, if_neg Bool.false_ne_true, hext]
        rfl
      · have hid : c.locals.map (rereadLocal H) = c.locals ↔ ∀ inst ∈ c.locals, rereadLocal H inst = inst := by
          conv_lhs => rw [← map_id c.locals, map_map]
          exact map_inj_left
        simp only [hid, rereadLocal_eq_iff]
  -- a server and a manager have no locals
  have hnil := hlocal hT
  have hbasic : basicLocal c = none := by rw [basicLocal, hnil]
  refine ⟨[], ?_, by simp [LocalsKept, hbasic, hnil]⟩
  cases hc : c.configType with
  | «local» => exact absurd hc hT
  | server | manager | onlineConfig => rfl

/-! ## 5. The whole configuration -/

structure Loaded (c : Config Kind Auth Resolver) : Prop where
  locals : c.configType ≠ .local → c.locals = []
  localReads : ∀ inst ∈ c.locals, LocalReads H inst
  serverReads : ∀ inst ∈ c.server, ServerReads H inst
  managerPlugin : ∀ m, c.manager = some m → ∃ p, loadPlugin p = .ok m.plugin
  proxies : loadProxies H (SSOutboundProxyConfig.fromProxies c.outboundProxy) = .ok c.outboundProxy
  acl : loadAcl H c.acl = .ok c.acl

variable {locals : List (LocalInstanceConfig Auth)}

theorem loadLocals_reads (hlaw : H.Lawful) {c : SSConfig Resolver}
    (h : loadLocals H c configType mode = .ok locals) :
    (configType ≠ .local → locals = []) ∧ ∀ inst ∈ locals, LocalReads H inst := by
  unfold loadLocals at h
  cases configType with
  | «local» =>
    refine ⟨fun hT => absurd rfl hT, ?_⟩
    simp only [bind_ok_iff, each_ok_iff, ofExcept_ok_iff, pure_eq, ok.injEq] at h
    obtain ⟨standard, hstandard, ext, hext, rfl⟩ := h
    intro inst hinst
    rcases mem_append.mp hinst with hinst | hinst
    · exact standardLocal_reads H hstandard inst hinst
    · obtain ⟨l, -, hl⟩ := forall₂_mem_right hext hinst
      exact extLocal_reads H hlaw hl
  | server | manager =>
    cases h
    exact ⟨fun _ => rfl, fun inst hinst => absurd hinst not_mem_nil⟩
  | onlineConfig =>
    have hnil : locals = [] := by
      dsimp only at h
      split at h
      · cases h
        rfl
      · split at h <;> cases h
        rfl
    subst hnil
    exact ⟨fun _ => rfl, fun inst hinst => absurd hinst not_mem_nil⟩

theorem loadManager_plugin {c : SSConfig Resolver} {manager : Option (ManagerConfig Kind)}
    (h : loadManager H c mode = .ok manager) : ∀ m, manager = some m → ∃ p, loadPlugin p = .ok m.plugin := by
  rintro m rfl
  unfold loadManager at h
  split at h
  · cases h
  · simp only [except_bind_ok_iff] at h
    obtain ⟨method, -, plugin, hplugin, h⟩ := h
    cases h
    exact ⟨c.plugin, hplugin⟩

theorem loaded_of_load (hlaw : H.Lawful) {file : SSConfig Resolver} (h : loadFromSsconfig H file configType = .ok c) :
    Loaded H c ∧ c.configType = configType := by
  simp only [loadFromSsconfig, bind_ok_iff, ofExcept_ok_iff, each_ok_iff, pure_eq, ok.injEq] at h
  obtain ⟨mode, -, locals, hlocals, standard, hstandard, ext, hext, manager, hmanager, dns, -, bind, -, proxies,
    hproxies, policy, -, acl, hacl, rfl⟩ := h
  obtain ⟨hnone, hlocalReads⟩ := loadLocals_reads H hlaw hlocals
  refine ⟨⟨hnone, hlocalReads, ?_, loadManager_plugin H hmanager, loadProxies_fromProxies H hlaw hproxies,
    loadAcl_self H hacl⟩, rfl⟩
  intro inst hinst
  obtain ⟨inst', hmem, rfl⟩ := mem_map.mp hinst
  refine ServerReads.setTimeout H ?_ _
  rcases mem_append.mp hmem with hinst | hinst
  · exact standardServer_reads H hstandard hinst
  · obtain ⟨svr, -, hsvr⟩ := forall₂_mem_right hext hinst
    exact extServer_reads H hlaw hsvr

theorem loadManager_display (h : Loaded H c) :
    ∃ manager, loadManager H (display H c) (printedMode c) = .ok manager := by
  obtain ⟨plugin, hplugin, -⟩ := loadPlugin_display H (fun inst hinst => (h.serverReads inst hinst).plugin) h.managerPlugin
  have hmethod : (display H c).method =
      (((basicServer c).map (·.config.method)) <|> (c.manager.bind (·.method))).map H.ciphers.name := by
    cases hb : basicServer c with
    | some inst => simp [display, hb]
    | none => cases hm : c.manager <;> simp [display, hb, hm]
  unfold loadManager
  split
  · exact ⟨none, rfl⟩
  · rw [hmethod, readField_map fun k _ => H.ciphers.parse_name k, hplugin]
    exact ⟨_, rfl⟩

theorem loadAcl_orElse {a b : Option Text} (ha : loadAcl H a = .ok a) (hb : loadAcl H b = .ok b) :
    loadAcl H (a <|> b) = .ok (a <|> b) := by
  cases a with
  | none => exact hb
  | some path => exact ha

theorem loadAcl_display (h : Loaded H c) : loadAcl H (display H c).acl = .ok (display H c).acl := by
  have hserver : loadAcl H ((basicServer c).bind (·.acl)) = .ok ((basicServer c).bind (·.acl)) := by
    cases hb : basicServer c with
    | none => rfl
    | some inst => exact (h.serverReads inst (by rw [basicServer_eq_some hb]; exact mem_cons_self)).acl
  have hlocal : loadAcl H ((basicLocal c).bind (·.acl)) = .ok ((basicLocal c).bind (·.acl)) := by
    cases hb : basicLocal c with
    | none => rfl
    | some inst => exact (h.localReads inst (by rw [(basicLocal_eq_some hb).1]; exact mem_cons_self)).acl
  exact loadAcl_orElse H h.acl (loadAcl_orElse H hserver hlocal)

theorem loadProxies_display (h : Loaded H c) :
    ∃ proxies, loadProxies H (display H c).outboundProxy = .ok proxies := by
  cases hb : (basicServer c).bind fun inst => SSOutboundProxyConfig.fromProxies inst.outboundProxy with
  | none =>
    rw [show (display H c).outboundProxy = SSOutboundProxyConfig.fromProxies c.outboundProxy by simp [display, hb]]
    exact ⟨_, h.proxies⟩
  | some proxies =>
    obtain ⟨inst, hbasic, hproxies⟩ := Option.bind_eq_some_iff.mp hb
    rw [show (display H c).outboundProxy = SSOutboundProxyConfig.fromProxies inst.outboundProxy by
      simp [display, hbasic, hproxies]]
    exact ⟨_, (h.serverReads inst (by rw [basicServer_eq_some hbasic]; exact mem_cons_self)).proxies⟩

theorem readPolicy_display (c : Config Kind Auth Resolver) (e : Text → Error) :
    ∃ policy, readField policyFromStr e (display H c).replayAttackPolicy = .ok policy := by
  by_cases hdefault : c.replayAttackPolicy = .default
  · exact ⟨none, by simp [display, hdefault, readField]⟩
  · refine ⟨some c.replayAttackPolicy, ?_⟩
    rw [show (display H c).replayAttackPolicy = some (policyText c.replayAttackPolicy) by simp [display, hdefault],
      readField, policyFromStr_text]

def DnsKept (c : Config Kind Auth Resolver) : Prop :=
  ∀ path, c.dns = .localDns path → ∃ dns, setDnsFormatted H path = .ok dns

theorem loadDns_display_iff (c : Config Kind Auth Resolver) :
    (∃ dns, loadDns H (display H c).dns = .ok dns) ↔ DnsKept H c := by
  unfold DnsKept
  cases hdns : c.dns with
  | system | hickoryDns config | localDns path => simp [display, hdns, printDns, loadDns]

structure Kept (c : Config Kind Auth Resolver) : Prop where
  dns : DnsKept H c
  servers : ServersKept H c
  locals : LocalsKept H c

theorem reload_iff (h : Loaded H c) {servers : List (ServerView Kind)} :
    (∃ c', loadFromSsconfig H (display H c) c.configType = .ok c' ∧ c'.server.map (·.view) = servers ∧
        c'.locals = locals) ↔
      DnsKept H c ∧ loadLocals H (display H c) c.configType (printedMode c) = .ok locals ∧ ∃ standard ext,
          standardServer H (display H c) c.configType (printedMode c) (serverSource c.configType) = .ok standard ∧
          Forall₂ (fun svr inst => extServer H c.configType (printedMode c) (serverSource c.configType)
            (display H c).timeout svr = .ok inst) (enabledServers (display H c)) ext ∧
          ((standard ++ ext).map (setTimeout (display H c).timeout)).map (·.view) = servers := by
  obtain ⟨manager, hmanager⟩ := loadManager_display H h
  obtain ⟨proxies, hproxies⟩ := loadProxies_display H h
  have hbind : ∀ e, readField H.ip.parse e (display H c).outboundBindAddr = .ok c.outboundBindAddr :=
    fun e => readField_map fun ip _ => H.ip.parse_print ip
  simp only [loadFromSsconfig, bind_ok_iff, ofExcept_ok_iff, each_ok_iff, pure_eq, ok.injEq]
  constructor
  · rintro ⟨c', ⟨mode, hmode, ls, hlocals, standard, hstandard, ext, hext, m, -, dns, hdns, _, -, _, -, _, -, _, -, rfl⟩,
      hview, rfl⟩
    cases (globalMode_display H c).symm.trans hmode
    exact ⟨(loadDns_display_iff H c).mp ⟨dns, hdns⟩, hlocals, standard, ext, hstandard, hext, hview⟩
  rintro ⟨hdns, hlocals, standard, ext, hstandard, hext, hview⟩
  obtain ⟨dns, hdns⟩ := (loadDns_display_iff H c).mpr hdns
  obtain ⟨policy, hpolicy⟩ := readPolicy_display H c fun _ => ⟨.invalid, "invalid replay attack policy", none⟩
  exact ⟨_, ⟨_, globalMode_display H c, _, hlocals, _, hstandard, _, hext, _, hmanager, _, hdns, _, hbind _, _,
    hproxies, _, hpolicy, _, loadAcl_display H h, rfl⟩, hview, rfl⟩

/-- **When a configuration survives printing and loading**, for every document that loads. -/
theorem reload_same_iff (hlaw : H.Lawful) {Doc : Type} (J : Json Doc Resolver) {s : Doc} {configType : ConfigType}
    {c : Config Kind Auth Resolver} (hload : loadFromStr H J s configType = .ok c) :
    (∃ c', loadFromStr H J (printConfig H J c) configType = .ok c' ∧
        c'.server.map (·.view) = c.server.map (·.view) ∧ c'.locals = c.locals) ↔ Kept H c := by
  have hfile : ∃ file, loadFromSsconfig H file configType = .ok c := by
    unfold loadFromStr at hload
    split at hload
    · exact ⟨_, hload⟩
    · cases hload
  obtain ⟨file, hfile⟩ := hfile
  obtain ⟨hloaded, rfl⟩ := loaded_of_load H hlaw hfile
  have hprint : loadFromStr H J (printConfig H J c) c.configType = loadFromSsconfig H (display H c) c.configType := by
    simp only [loadFromStr, printConfig, J.parse_print]
  obtain ⟨locals, hlocals, hkept⟩ := loadLocals_display H hloaded.locals hloaded.localReads
  rw [hprint, reload_iff H hloaded, hlocals, ok.injEq, hkept,
    servers_display_iff H hloaded.serverReads hloaded.managerPlugin]
  constructor
  · intro ⟨hdns, hlocals, hservers⟩
    exact ⟨hdns, hservers, hlocals⟩
  · intro ⟨hdns, hservers, hlocals⟩
    exact ⟨hdns, hlocals, hservers⟩

theorem Host.sample_lawful : sample.Lawful where
  ipNet _ _ _ := rfl
  ipv4Net _ _ _ := rfl
  ipv6Net _ _ _ := rfl
  urlHost s u h := by
    dsimp only [sample] at h
    split at h <;> cases h
    rintro host ⟨⟩
    exact ⟨by decide, .inr ⟨"::1".toList, by decide⟩⟩
  urlText s u h := by
    dsimp only [sample] at h
    split at h <;> cases h
    rintro host ⟨⟩ port ⟨⟩
    rw [show sampleProxyUrl.text "[::1]".toList 1080 = "socks5://a:b@[::1]:1080".toList by decide]
    rfl

def standardFile : SSConfig Unit :=
  { SSConfig.default Unit with
    server := some "example.com".toList, serverPort := some 8388, method := some "none".toList
    mode := some "tcp_and_udp".toList, timeout := some 60 }

def aroundReload {α : Type} (view : Config SampleMethod Unit Unit → α) (file : SSConfig Unit) (configType : ConfigType) :
    Option (α × α) :=
  match loadFromStr Host.sample Json.sample file configType with
  | .ok c =>
    match loadFromStr Host.sample Json.sample (printConfig Host.sample Json.sample c) configType with
    | .ok c' => some (view c, view c')
    | _ => none
  | _ => none

def standardConfig : Config SampleMethod Unit Unit where
  server :=
    [.withServerConfig
      { freshServer (.domainName "example.com".toList 8388) SampleMethod.none ([], [], []) with
        timeout := some 60, source := .configuration }]
  locals := []
  dns := .system
  ipv6First := false
  outboundBindAddr := none
  outboundProxy := []
  manager := none
  configType := .server
  acl := none
  replayAttackPolicy := .default
  options := loadOptions .none

theorem reload_same_standard : loadFromStr Host.sample Json.sample standardFile .server = .ok standardConfig ∧
      ∃ c', loadFromStr Host.sample Json.sample (printConfig Host.sample Json.sample standardConfig) .server = .ok c' ∧
        c'.server.map (·.view) = standardConfig.server.map (·.view) ∧ c'.locals = standardConfig.locals := by
  have hload : loadFromStr Host.sample Json.sample standardFile .server = .ok standardConfig := by decide +kernel
  refine ⟨hload, (reload_same_iff Host.sample Host.sample_lawful Json.sample hload).mpr ⟨nofun, ?_, ?_⟩⟩
  · exact ⟨rfl, rfl, rfl, rfl, ⟨[], rfl⟩, nofun⟩
  · exact fun inst hinst => absurd hinst not_mem_nil

/-- The users of a server, the timeouts of two and the mode of a local do not come back. -/
theorem reload_broken : aroundReload (·.server.map (·.config.userManager.isSome))
        { SSConfig.default Unit with servers := some [{ sampleEntry none with users := some [⟨"user", "AAAA".toList⟩] }] }
        .server = some ([true], [false]) ∧
      aroundReload (·.server.map (·.config.timeout))
        { SSConfig.default Unit with timeout := some 60, servers := some [sampleEntry none, sampleEntry none] }
        .server = some ([some 60, some 60], [none, none]) ∧
      aroundReload (·.locals.map (·.config.mode))
        { SSConfig.default Unit with localPort := some 1080, mode := some "tcp_and_udp".toList }
        .local = some ([.tcpAndUdp], [.tcpOnly]) := by
  decide +kernel

end Shadowsocks.Config
