/-
  Subject:   LOADING A CONFIGURATION (`load_from_ssconfig` and `load_from_str` of the service's `config.rs`).
-/
import Shadowsocks.Config.File

namespace Shadowsocks.Config

open Lib Shadowsocks.Acl List Outcome

variable {Kind Auth Resolver : Type} (H : Host Kind Auth Resolver)

/-! ## 1. Fields -/

def readField {α : Type} (parse : Text → Option α) (e : Text → Error) : Option Text → Except Error (Option α)
  | none => .ok none
  | some s =>
    match parse s with
    | some a => .ok (some a)
    | none => .error (e s)

variable {e : Text → Error}

theorem readField_map {α : Type} {parse : Text → Option α} {print : α → Text} {o : Option α}
    (h : ∀ a, o = some a → parse (print a) = some a) : readField parse e (o.map print) = .ok o := by
  cases o with
  | none => rfl
  | some a => rw [Option.map_some, readField, h a rfl]

theorem readField_ok {α : Type} {parse : Text → Option α} {o : Option Text} {r : Option α}
    (h : readField parse e o = .ok r) {a : α} (ha : r = some a) : ∃ s, o = some s ∧ parse s = some a := by
  subst ha
  cases o with
  | none => cases h
  | some s =>
    rw [readField] at h
    split at h
    · rename_i hs
      cases h
      exact ⟨s, rfl, hs⟩
    · cases h

def readVariableFieldValue (value : Text) : Text :=
  match value with
  | '$' :: '{' :: leftOver =>
    match leftOver.reverse with
    | '}' :: name => (H.var name.reverse).getD value
    | _ => value
  | _ => value

def globalMode (c : SSConfig Resolver) : Except Error Mode :=
  (readField Mode.fromStr
    (fun _ => ⟨.malformed, "malformed `mode`, must be one of `tcp_only`, `udp_only` and `tcp_and_udp`", none⟩)
    c.mode).map (·.getD .tcpOnly)

def loadProtocol (o : Option Text) : Except Error ProtocolType :=
  (readField ProtocolType.fromStr
    (fun p => ⟨.malformed, "`protocol` invalid", some ("unrecognized protocol ".toList ++ p)⟩) o).map (·.getD .socks)

def loadPlugin (p : SSPlugin) : Except Error (Option PluginConfig) :=
  match p.plugin with
  | none => .ok none
  | some name =>
    if name = [] then .ok none
    else
      (readField Mode.fromStr
        (fun _ =>
          ⟨.malformed, "malformed `plugin_mode`, must be one of `tcp_only`, `udp_only` and `tcp_and_udp`", none⟩)
        p.pluginMode).map fun mode => some ⟨name, p.pluginOpts, p.pluginArgs.getD [], mode.getD .tcpOnly⟩

def loadAcl : Option Text → Except Error (Option Text)
  | none => .ok none
  | some path =>
    match H.aclFile path with
    | .ok () => .ok (some path)
    | .error e =>
      .error ⟨.invalid, "acl loading failed", some ("file ".toList ++ path ++ ", error: ".toList ++ e)⟩

def loadProxies : Option SSOutboundProxyConfig → Except Error (List OutboundProxy)
  | none => .ok []
  | some c => (c.intoProxies H).mapError fun e => ⟨.invalid, "invalid outbound_proxy", some e⟩

def loadAuth (file : Text → Except Text Auth) : Option Text → Except Error Auth
  | none => .ok H.noAuth
  | some path => (file path).mapError fun e => ⟨.ioError, "error while reading file", some e⟩

/-! ## 2. Locals -/

def getLocalAddress (localAddress : Option Text) (localPort : UInt16) (ipv6First : Bool) : ServerAddr :=
  match localAddress with
  | some addr => hostAddr H.ip addr localPort
  | none => .socketAddr (socketAddr (if ipv6First then .v6 1 else .v4 0x7f000001) localPort)

variable (c : SSConfig Resolver) (mode : Mode)

def standardLocal : Outcome Error (List (LocalInstanceConfig Auth)) :=
  if c.localAddress.isSome ∧ c.localPort.getD 0 = 0 then .err ⟨.missingField, "missing `local_port`", none⟩
  else
    match c.localPort with
    | none => .ok []
    | some localPort =>
      -- `assert_ne!(local_port, 0)`: "local_port won't be 0, it was checked above"
      if localPort = 0 then .panic
      else do
        let protocol ← ofExcept (loadProtocol c.protocol)
        let addr := getLocalAddress H c.localAddress localPort (c.ipv6First.getD false)
        pure [{ config := { LocalConfig.new H.noAuth .socks with addr := some addr, mode, protocol }, acl := none }]

variable (ipv6First : Bool)

variable (address : Option Text) (port : Option UInt16)

def extLocalAddr :
    Except Error (Option ServerAddr) :=
  match port with
  | some port =>
    if port = 0 then .error ⟨.malformed, "`local_port` cannot be 0", none⟩
    else .ok (some (getLocalAddress H address port ipv6First))
  | none => if address.isSome then .error ⟨.malformed, "missing `local_port`", none⟩ else .ok none

def extLocalUdpAddr :
    Except Error (Option ServerAddr) :=
  match port with
  | some port =>
    if port = 0 then .error ⟨.malformed, "`local_udp_port` cannot be 0", none⟩
    else .ok (some (getLocalAddress H address port ipv6First))
  | none => .ok none

def extForwardAddr : Except Error (Option ServerAddr) :=
  match address with
  | none => .ok none
  | some address =>
    match port with
    | none => .error ⟨.malformed, "`forward_port` cannot be missing or 0", none⟩
    | some port =>
      if port = 0 then .error ⟨.malformed, "`forward_port` cannot be missing or 0", none⟩
      else .ok (some (hostAddr H.ip address port))

def extLocal (globalMode : Mode) (l : SSLocalExtConfig) :
    Except Error (LocalInstanceConfig Auth) := do
  let protocol ← loadProtocol l.protocol
  let addr ← extLocalAddr H ipv6First l.localAddress l.localPort
  let udpAddr ← extLocalUdpAddr H ipv6First l.localUdpAddress l.localUdpPort
  let mode ← readField Mode.fromStr (fun _ => ⟨.malformed, "invalid `mode`", none⟩) l.mode
  let forwardAddr ← extForwardAddr H l.forwardAddress l.forwardPort
  let tcpRedir ← readField RedirType.fromStr (fun _ => ⟨.malformed, "`tcp_redir` invalid", none⟩) l.tcpRedir
  let udpRedir ← readField RedirType.fromStr (fun _ => ⟨.malformed, "`udp_redir` invalid", none⟩) l.udpRedir
  let tunInterfaceAddress ←
    readField H.ipNet (fun _ => ⟨.malformed, "`tun_interface_address` invalid", none⟩) l.tunInterfaceAddress
  let tunInterfaceDestination ←
    readField H.ipNet (fun _ => ⟨.malformed, "`tun_interface_destination` invalid", none⟩) l.tunInterfaceDestination
  let socks5Auth ← loadAuth H H.socks5AuthFile l.socks5AuthConfigPath
  let httpAuth ← loadAuth H H.httpAuthFile l.httpAuthConfigPath
  let fakeDnsIpv4Network ←
    readField H.ipv4Net (fun _ => ⟨.malformed, "invalid `fake_dns_ipv4_network`", none⟩) l.fakeDnsIpv4Network
  let fakeDnsIpv6Network ←
    readField H.ipv6Net (fun _ => ⟨.malformed, "invalid `fake_dns_ipv6_network`", none⟩) l.fakeDnsIpv6Network
  let acl ← loadAcl H l.acl
  pure
    { config :=
        { addr, protocol, udpAddr, forwardAddr, tunInterfaceAddress, tunInterfaceDestination, socks5Auth, httpAuth,
          fakeDnsIpv4Network, fakeDnsIpv6Network
          -- DNS server runs in `TcpAndUdp` mode by default to maintain backwards compatibility
          mode := mode.getD (if protocol = .dns then .tcpAndUdp else globalMode)
          tcpRedir := tcpRedir.getD .tcpDefault
          udpRedir := udpRedir.getD .udpDefault
          localDnsAddr := l.localDnsAddress.map (nameServerAddr H.ip · l.localDnsPort)
          clientCacheSize := l.clientCacheSize
          remoteDnsAddr := l.remoteDnsAddress.map (hostAddr H.ip · (l.remoteDnsPort.getD 53))
          tunInterfaceName := l.tunInterfaceName
          tunDeviceFdFromPath := l.tunDeviceFdFromPath
          fakeDnsRecordExpireDuration := l.fakeDnsRecordExpireDuration
          fakeDnsDatabasePath := l.fakeDnsDatabasePath }
      acl }

def enabledLocals (c : SSConfig Resolver) : List SSLocalExtConfig :=
  (c.locals.getD []).filter fun l => !l.disabled.getD false

variable (c : SSConfig Resolver) (configType : ConfigType) (mode : Mode)

def loadLocals :
    Outcome Error (List (LocalInstanceConfig Auth)) :=
  match configType with
  | .local => do
      let standard ← standardLocal H c mode
      let ext ← each (fun l => .ofExcept (extLocal H (c.ipv6First.getD false) mode l)) (enabledLocals c)
      pure (standard ++ ext)
  | .server | .manager => .ok []
  | .onlineConfig =>
    match c.version with
    | none => .ok []
    | some v =>
      if v = 1 then .ok []
      else .err ⟨.invalid, "invalid online config version", some ("version: ".toList ++ decimal v)⟩

/-! ## 3. Servers -/

def unsupportedMethod (m : Text) : Error :=
  ⟨.invalid, "unsupported method", some ('\x60' :: m ++ "` is not a supported method".toList)⟩

def loadMethod (m : Text) : Except Error Kind :=
  match H.ciphers.parse m with
  | some method => .ok method
  | none => .error (unsupportedMethod m)

def loadPassword (method : Kind) : Option Text → Except Error Text
  | some pwd => .ok (readVariableFieldValue H pwd)
  | none =>
    if H.ciphers.family method = .none then .ok []
    else
      .error ⟨.missingField, "`password` is required",
        some ("`password` is required for method ".toList ++ H.ciphers.name method)⟩

def newServer (address : Text) (port : UInt16) (method : Text) (password : Option Text) :
    Except Error (ServerConfig Kind) := do
  let method ← loadMethod H method
  let password ← loadPassword H method password
  (ServerConfig.new H.ciphers (hostAddr H.ip address port) password method).mapError fun e =>
    ⟨.malformed, "server config create failed", some (H.serverError e)⟩

def standardServer (source : ServerSource) :
    Except Error (List (ServerInstanceConfig Kind)) :=
  match c.server, c.serverPort, c.password, c.method with
  | some address, some port, password, some method => do
      let nsvr ← newServer H address port method password
      let plugin ← loadPlugin c.plugin
      let nsvr := { nsvr with source, mode, plugin, timeout := c.timeout }
      pure [{ ServerInstanceConfig.withServerConfig nsvr with realm := c.realm.map (·.intoRealmConfig) }]
  | none, none, none, some _ =>
    if configType = .manager then .ok []
    else .error ⟨.malformed, "`server`, `server_port`, `method`, `password` must be provided together", none⟩
  | none, none, none, none => .ok []
  | _, _, _, _ =>
    .error ⟨.malformed, "`server`, `server_port`, `method`, `password` must be provided together", none⟩

def withEncodedKey (name : String) (key : Text) : Option ServerUser :=
  (Base64.decode Base64.standard key).map (ServerUser.new H.primitives name)

def addUsers (m : ServerUserManager) : List SSServerUserConfig → Except Error ServerUserManager
  | [] => .ok m
  | user :: users =>
    match withEncodedKey H user.name user.password with
    | some u => addUsers (m.addUser u) users
    | none => .error ⟨.malformed, "`users[].password` should be base64 encoded", none⟩

def loadUsers : Option (List SSServerUserConfig) → Except Error (Option ServerUserManager)
  | none => .ok none
  | some users => (addUsers H ⟨[]⟩ users).map some

def setTcpWeight (w : ServerWeight) (weight : F32) : Outcome Error ServerWeight :=
  match weight.unit with
  | some q => .ok { w with tcpWeight := q.1, tcp_unit := q.2 }
  | none => .panic

def setUdpWeight (w : ServerWeight) (weight : F32) : Outcome Error ServerWeight :=
  match weight.unit with
  | some q => .ok { w with udpWeight := q.1, udp_unit := q.2 }
  | none => .panic

def loadWeight (tcpWeight udpWeight : Option F32) : Outcome Error ServerWeight :=
  if tcpWeight.isSome ∨ udpWeight.isSome then
    let tcpWeight := tcpWeight.getD (.finite 1)
    if tcpWeight.unit.isNone then .err ⟨.invalid, "invalid `tcp_weight`, must be in [0, 1]", none⟩
    else
      let udpWeight := udpWeight.getD (.finite 1)
      if udpWeight.unit.isNone then .err ⟨.invalid, "invalid `udp_weight`, must be in [0, 1]", none⟩
      else do
        let weight ← setTcpWeight .new tcpWeight
        setUdpWeight weight udpWeight
  else .ok .new

def extServer (configType : ConfigType) (globalMode : Mode) (source : ServerSource) (timeout : Option Nat)
    (svr : SSServerExtConfig) : Outcome Error (ServerInstanceConfig Kind) := do
  let nsvr ← .ofExcept (newServer H svr.server svr.serverPort svr.method svr.password)
  let userManager ← .ofExcept (loadUsers H svr.users)
  let mode ← .ofExcept (readField Mode.fromStr (fun _ => ⟨.invalid, "invalid `mode`", none⟩) svr.mode)
  let plugin ← .ofExcept (loadPlugin svr.plugin)
  let weight ← loadWeight svr.tcpWeight svr.udpWeight
  let acl ← .ofExcept (loadAcl H svr.acl)
  let outboundProxy ← .ofExcept (loadProxies H svr.outboundProxy)
  pure
    { config :=
        { nsvr with
          source, userManager, plugin, timeout, weight
          remarks := svr.remarks
          id := svr.id
          -- Server will derive mode from the global scope
          mode := mode.getD (if configType = .server ∨ configType = .manager then globalMode else nsvr.mode) }
      acl, outboundProxy
      outboundFwmark := svr.outboundFwmark
      outboundBindAddr := svr.outboundBindAddr
      outboundBindInterface := svr.outboundBindInterface
      outboundUdpAllowFragmentation := svr.outboundUdpAllowFragmentation
      realm := svr.realm.map (·.intoRealmConfig) }

def enabledServers (c : SSConfig Resolver) : List SSServerExtConfig :=
  (c.servers.getD []).filter fun svr => !svr.disabled.getD false

variable (timeout : Option Nat)

def setTimeout (inst : ServerInstanceConfig Kind) : ServerInstanceConfig Kind :=
  match timeout with
  | none => inst
  | some t => if inst.config.timeout = none then { inst with config := { inst.config with timeout := some t } } else inst

def serverSource : ConfigType → ServerSource
  | .local | .server | .manager => .configuration
  | .onlineConfig => .onlineConfig

/-! ## 4. The rest of the file -/

def loadManager : Except Error (Option (ManagerConfig Kind)) :=
  match c.managerAddress with
  | none => .ok none
  | some ma => do
      let addr : ManagerAddr :=
        match c.managerPort with
        | some port => .inet (hostAddr H.ip ma port)
        | none => .unixSocketAddr ma
      let method ← readField H.ciphers.parse unsupportedMethod c.method
      let plugin ← loadPlugin c.plugin
      pure (some ⟨addr, method, plugin, mode⟩)

def parseNameServers (parts : List Text) : Option (List SocketAddr) :=
  parts.mapM fun part =>
    match parseSocketAddr H.ip part with
    | some addr => some addr
    | none => (H.ip.parse part).map (socketAddr · 53)

def parseDnsNameservers (nameservers : Text) : Except Error (DnsConfig Resolver) :=
  if "unix://".toList <+: nameservers then .ok (.localDns (nameservers.drop 7))
  else
    let (tcp, udp, rest) :=
      if "tcp://".toList <+: nameservers then (true, false, nameservers.drop 6)
      else if "udp://".toList <+: nameservers then (false, true, nameservers.drop 6)
      else (true, true, nameservers)
    match parseNameServers H (rest.splitOn ',') with
    | none =>
      .error ⟨.invalid, "invalid `dns` value, can only be [(tcp|udp)://]host[:port][,host[:port]]..., or " ++
        "unix:///path/to/dns, or predefined keys like \"google\", \"cloudflare\"", none⟩
    | some [] => .ok .system
    | some addrs => .ok (.hickoryDns (H.fromParts tcp udp addrs))

def setDnsFormatted (dns : Text) : Except Error (DnsConfig Resolver) :=
  if dns = "system".toList then .ok .system
  else
    match H.predefinedDns dns with
    | some config => .ok (.hickoryDns config)
    | none => parseDnsNameservers H dns

def loadDns : Option (SSDnsConfig Resolver) → Except Error (DnsConfig Resolver)
  | some (.simple ds) => setDnsFormatted H ds
  | some (.hickoryDns config) => .ok (.hickoryDns config)
  | none => .ok .system

def loadOptions (o : SSOptions) : Options where
  dnsCacheSize := o.dnsCacheSize
  ipv6Only := o.ipv6Only.getD false
  noDelay := o.noDelay.getD false
  fastOpen := o.fastOpen.getD false
  keepAlive := o.keepAlive
  mptcp := o.mptcp.getD false
  nofile := o.nofile
  outboundFwmark := o.outboundFwmark
  outboundBindInterface := o.outboundBindInterface
  outboundUdpAllowFragmentation := o.outboundUdpAllowFragmentation.getD false
  udpTimeout := o.udpTimeout
  udpMaxAssociations := o.udpMaxAssociations
  udpMtu := o.udpMtu
  balancer := o.balancer.getD ⟨none, none, none⟩
  onlineConfig := o.onlineConfig

def loadFromSsconfig (c : SSConfig Resolver) (configType : ConfigType) : Outcome Error (Config Kind Auth Resolver) := do
  let mode ← .ofExcept (globalMode c)
  let locals ← loadLocals H c configType mode
  let source := serverSource configType
  let standard ← .ofExcept (standardServer H c configType mode source)
  let ext ← each (extServer H configType mode source c.timeout) (enabledServers c)
  let manager ← .ofExcept (loadManager H c mode)
  let dns ← .ofExcept (loadDns H c.dns)
  let outboundBindAddr ←
    .ofExcept (readField H.ip.parse (fun _ => ⟨.invalid, "invalid outbound_bind_addr", none⟩) c.outboundBindAddr)
  let outboundProxy ← .ofExcept (loadProxies H c.outboundProxy)
  let policy ←
    .ofExcept (readField policyFromStr (fun _ => ⟨.invalid, "invalid replay attack policy", none⟩) c.replayAttackPolicy)
  let acl ← .ofExcept (loadAcl H c.acl)
  pure
    { server := (standard ++ ext).map (setTimeout c.timeout)
      locals, manager, dns, outboundBindAddr, outboundProxy, configType, acl
      ipv6First := c.ipv6First.getD false
      replayAttackPolicy := policy.getD .default
      options := loadOptions c.options }

def loadFromStr {Doc : Type} (J : Json Doc Resolver) (s : Doc) (configType : ConfigType) :
    Outcome Error (Config Kind Auth Resolver) :=
  match J.parse s with
  | .ok c => loadFromSsconfig H c configType
  | .error e => .err ⟨.jsonParsingError, "json parse error", some e⟩

/-! ## 5. When loading panics -/

theorem loadWeight_ne_panic (tcpWeight udpWeight : Option F32) : loadWeight tcpWeight udpWeight ≠ .panic := by
  unfold loadWeight
  split
  · dsimp only
    split
    · exact nofun
    split
    · exact nofun
    · rename_i htcp hudp
      obtain ⟨t, ht⟩ := Option.ne_none_iff_exists'.mp (mt Option.isNone_iff_eq_none.mpr htcp)
      obtain ⟨u, hu⟩ := Option.ne_none_iff_exists'.mp (mt Option.isNone_iff_eq_none.mpr hudp)
      simp [setTcpWeight, setUdpWeight, ht, hu]
  · exact nofun

theorem extServer_ne_panic (configType : ConfigType) (mode : Mode) (source : ServerSource) (timeout : Option Nat)
    (svr : SSServerExtConfig) : extServer H configType mode source timeout svr ≠ .panic := by
  simp [extServer, bind_panic_iff, ofExcept_ne_panic, loadWeight_ne_panic]

theorem standardLocal_panic_iff :
    standardLocal H c mode = .panic ↔ c.localPort = some 0 ∧ c.localAddress = none := by
  unfold standardLocal
  cases hport : c.localPort with
  | none => cases c.localAddress <;> simp
  | some port =>
    by_cases hzero : port = 0
    · cases c.localAddress <;> simp [hzero]
    · simp [hzero, bind_panic_iff, ofExcept_ne_panic]

theorem loadLocals_panic_iff :
    loadLocals H c configType mode = .panic ↔ configType = .local ∧ c.localPort = some 0 ∧ c.localAddress = none := by
  cases configType with
  | «local» =>
    have hext : each (fun l => .ofExcept (extLocal H (c.ipv6First.getD false) mode l)) (enabledLocals c) ≠
        .panic := each_ne_panic fun l => ofExcept_ne_panic _
    simp [loadLocals, bind_panic_iff, standardLocal_panic_iff, hext]
  | server | manager => simp [loadLocals]
  | onlineConfig =>
    unfold loadLocals
    cases c.version with
    | none => simp
    | some v => by_cases hv : v = 1 <;> simp [hv]

def ZeroLocalPort (c : SSConfig Resolver) (configType : ConfigType) : Prop :=
  configType = .local ∧ (∀ m, c.mode = some m → (Mode.fromStr m).isSome) ∧ c.localPort = some 0 ∧ c.localAddress = none

theorem globalMode_isOk (c : SSConfig Resolver) :
    (∃ mode, globalMode c = .ok mode) ↔ ∀ m, c.mode = some m → (Mode.fromStr m).isSome := by
  unfold globalMode readField
  cases c.mode with
  | none => simp [Except.map]
  | some m => cases h : Mode.fromStr m <;> simp [Except.map, h]

theorem loadFromSsconfig_panic_iff (c : SSConfig Resolver) (configType : ConfigType) :
    loadFromSsconfig H c configType = .panic ↔ ZeroLocalPort c configType := by
  have hext : ∀ mode, each (extServer H configType mode (serverSource configType) c.timeout)
      (enabledServers c) ≠ .panic :=
    fun mode => each_ne_panic fun svr => extServer_ne_panic H configType mode _ c.timeout svr
  simp only [loadFromSsconfig, bind_panic_iff, ofExcept_ne_panic, ofExcept_ok_iff,
    loadLocals_panic_iff, hext, pure_eq, reduceCtorEq, and_false, exists_false, false_or, or_false,
    exists_and_right, globalMode_isOk]
  exact and_left_comm

def sampleProxyUrl : ProxyUrl := ⟨"socks5".toList, some "[::1]".toList, some 1080, ['a'], some ['b']⟩

def Host.sample : Host SampleMethod Unit Unit where
  ciphers := .sample
  ip := .sample
  primitives := .transparent
  serverError _ := "invalid key".toList
  var _ := none
  aclFile _ := .ok ()
  socks5AuthFile _ := .ok ()
  httpAuthFile _ := .ok ()
  noAuth := ()
  url s :=
    if s = "socks5://a:b@[::1]:1080".toList then .ok sampleProxyUrl else .error "relative URL without a base".toList
  ipNet s := some s
  ipv4Net s := some s
  ipv6Net s := some s
  predefinedDns _ := none
  fromParts _ _ _ := ()

def Json.sample : Json (SSConfig Unit) Unit where
  parse := .ok
  print := id
  parse_print _ := rfl

/-- **When loading a text does not panic**, for every text and every type. -/
theorem loadFromStr_no_panic_iff {Doc : Type} (J : Json Doc Resolver) (s : Doc) (configType : ConfigType) :
    loadFromStr H J s configType ≠ .panic ↔ ∀ c, J.parse s = .ok c → ¬ ZeroLocalPort c configType := by
  unfold loadFromStr
  cases hparse : J.parse s with
  | error e => simp
  | ok c => simp [loadFromSsconfig_panic_iff]

theorem loadFromStr_empty : loadFromStr Host.sample Json.sample (.default Unit) .local ≠ .panic := by
  refine (loadFromStr_no_panic_iff Host.sample Json.sample _ _).mpr ?_
  rintro c ⟨⟩ ⟨-, -, hport, -⟩
  cases hport

/-- The file `{"local_port": 0}`. -/
theorem loadFromStr_zero_port :
    loadFromStr Host.sample Json.sample { SSConfig.default Unit with localPort := some 0 } .local = .panic := rfl

/-! ## 6. Timeouts -/

variable {configType : ConfigType} {source : ServerSource}

theorem extServer_timeout {mode : Mode} {timeout : Option Nat} {svr : SSServerExtConfig}
    {inst : ServerInstanceConfig Kind} (h : extServer H configType mode source timeout svr = .ok inst) :
    inst.config.timeout = timeout := by
  simp only [extServer, bind_ok_iff, pure_eq, ok.injEq] at h
  obtain ⟨nsvr, -, users, -, m, -, plugin, -, weight, -, acl, -, proxies, -, rfl⟩ := h
  rfl

variable {c : SSConfig Resolver}

theorem standardServer_timeout {mode : Mode} {standard : List (ServerInstanceConfig Kind)}
    (h : standardServer H c configType mode source = .ok standard) :
    standard.map (·.config.timeout) = if c.server.isSome then [c.timeout] else [] := by
  unfold standardServer at h
  split at h
  · rename_i hserver hport hmethod
    simp only [except_bind_ok_iff] at h
    obtain ⟨nsvr, -, plugin, -, h⟩ := h
    cases h
    simp [hserver, ServerInstanceConfig.withServerConfig]
  · rename_i hserver _ _ _
    split at h <;> cases h
    simp [hserver]
  · rename_i hserver _ _ _
    cases h
    simp [hserver]
  · cases h

theorem setTimeout_timeout (inst : ServerInstanceConfig Kind) :
    (setTimeout timeout inst).config.timeout = (inst.config.timeout <|> timeout) := by
  unfold setTimeout
  cases timeout with
  | none => simp
  | some t =>
    cases h : inst.config.timeout with
    | none => simp
    | some t' => simp [h]

variable {conf : Config Kind Auth Resolver}

theorem loadFromSsconfig_server (h : loadFromSsconfig H c configType = .ok conf) :
    ∃ mode standard ext, globalMode c = .ok mode ∧
      standardServer H c configType mode (serverSource configType) = .ok standard ∧
      Forall₂ (fun svr inst => extServer H configType mode (serverSource configType) c.timeout svr = .ok inst)
        (enabledServers c) ext ∧
      conf.server = (standard ++ ext).map (setTimeout c.timeout) := by
  simp only [loadFromSsconfig, bind_ok_iff, ofExcept_ok_iff, each_ok_iff, pure_eq, ok.injEq] at h
  obtain ⟨mode, hmode, locals, -, standard, hstandard, ext, hext, -, -, -, -, -, -, -, -, -, -, -, -, rfl⟩ := h
  exact ⟨mode, standard, ext, hmode, hstandard, hext, rfl⟩

theorem server_timeouts (h : loadFromSsconfig H c configType = .ok conf) : conf.server.map (·.config.timeout) =
      (if c.server.isSome then [c.timeout] else []) ++ (enabledServers c).map fun _ => c.timeout := by
  obtain ⟨mode, standard, ext, -, hstandard, hext, hserver⟩ := loadFromSsconfig_server H h
  have hext' : ext.map (·.config.timeout) = (enabledServers c).map fun _ => c.timeout := by
    clear hserver
    generalize enabledServers c = svrs at hext
    induction hext with
    | nil => rfl
    | cons hsvr _ ih => rw [map_cons, map_cons, ih, extServer_timeout H hsvr]
  have htwice : ∀ inst : ServerInstanceConfig Kind, inst.config.timeout = c.timeout →
      (setTimeout c.timeout inst).config.timeout = inst.config.timeout := by
    intro inst hinst
    rw [setTimeout_timeout, hinst]
    cases c.timeout <;> rfl
  rw [hserver, map_map, ← hext', ← standardServer_timeout H hstandard, ← map_append]
  refine map_congr_left fun inst hinst => htwice inst ?_
  rcases mem_append.mp hinst with hinst | hinst
  · have hmem := mem_map_of_mem (f := fun i => i.config.timeout) hinst
    rw [standardServer_timeout H hstandard] at hmem
    split at hmem
    · exact mem_singleton.mp hmem
    · cases hmem
  · obtain ⟨svr, -, hsvr⟩ := forall₂_mem_right hext hinst
    exact extServer_timeout H hsvr

def wantedTimeouts (c : SSConfig Resolver) : List (Option Nat) :=
  (if c.server.isSome then [c.timeout] else []) ++ (enabledServers c).map fun svr => svr.timeout <|> c.timeout

/-- **When every server has the timeout the file asks for.** -/
theorem server_timeouts_wanted_iff {c : SSConfig Resolver} {configType : ConfigType} {conf : Config Kind Auth Resolver}
    (h : loadFromSsconfig H c configType = .ok conf) : conf.server.map (·.config.timeout) = wantedTimeouts c ↔
      ∀ svr ∈ enabledServers c, ∀ t, svr.timeout = some t → c.timeout = some t := by
  rw [server_timeouts H h, wantedTimeouts, append_cancel_left_eq, map_inj_left]
  refine forall₂_congr fun svr _ => ?_
  cases svr.timeout with
  | none | some t => simp

def sampleEntry : SSServerExtConfig where
  server := "example.com".toList
  serverPort := 8388
  password := none
  method := "none".toList
  users := none
  disabled := none
  plugin := .none
  timeout := timeout
  remarks := none
  id := none
  mode := none
  tcpWeight := none
  udpWeight := none
  acl := none
  outboundFwmark := none
  outboundBindAddr := none
  outboundBindInterface := none
  outboundUdpAllowFragmentation := none
  outboundProxy := none
  realm := none

def loadedTimeouts (c : SSConfig Resolver) (configType : ConfigType) : Option (List (Option Nat)) :=
  match loadFromSsconfig H c configType with
  | .ok conf => some (conf.server.map (·.config.timeout))
  | _ => none

theorem loadedTimeouts_eq {ts : List (Option Nat)} (h : loadedTimeouts H c configType = some ts) :
    ∃ conf, loadFromSsconfig H c configType = .ok conf ∧ conf.server.map (·.config.timeout) = ts := by
  unfold loadedTimeouts at h
  split at h
  · rename_i conf hconf
    exact ⟨conf, hconf, Option.some.inj h⟩
  · cases h

def globalTimeoutFile : SSConfig Unit := { SSConfig.default Unit with timeout := some 60, servers := some [sampleEntry none] }

theorem server_timeouts_wanted_global : ∃ conf, loadFromSsconfig Host.sample globalTimeoutFile .server = .ok conf ∧
      conf.server.map (·.config.timeout) = wantedTimeouts globalTimeoutFile := by
  have hload : loadedTimeouts Host.sample globalTimeoutFile .server = some [some 60] := by decide +kernel
  obtain ⟨conf, hconf, -⟩ := loadedTimeouts_eq Host.sample hload
  refine ⟨conf, hconf, (server_timeouts_wanted_iff Host.sample hconf).mpr ?_⟩
  intro svr hsvr t ht
  rw [show enabledServers globalTimeoutFile = [sampleEntry none] from rfl, mem_singleton] at hsvr
  rw [hsvr] at ht
  cases ht

/-- A server with a timeout of its own gets the one of the file, or none. -/
theorem server_timeouts_unwanted :
    loadedTimeouts Host.sample { SSConfig.default Unit with timeout := some 60, servers := some [sampleEntry (some 300)] }
        .server = some [some 60] ∧
      loadedTimeouts Host.sample { SSConfig.default Unit with servers := some [sampleEntry (some 300)] } .server =
        some [none] := by
  decide +kernel

end Shadowsocks.Config
