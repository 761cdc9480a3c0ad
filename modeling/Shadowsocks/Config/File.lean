/-
  Subject:   A CONFIGURATION FILE AND WHAT IS LOADED FROM IT: the types of the service's `config.rs`. Fields of
  other platforms are left out; those that are only copied stand in `SSOptions` and `Options`.
-/
import Shadowsocks.Config.Server

namespace Shadowsocks.Config

open Lib Shadowsocks.Acl

/-! ## 1. Errors and numbers -/

inductive ErrorKind where
  | missingField
  | malformed
  | invalid
  | jsonParsingError
  | ioError
  deriving DecidableEq

structure Error where
  kind : ErrorKind
  desc : String
  detail : Option Text
  deriving DecidableEq

/-- An `f32`: JSON5 also has infinities and NaN. -/
inductive F32 where
  | finite (value : Rat)
  | other

def F32.unit : F32 → Option {q : Rat // 0 ≤ q ∧ q ≤ 1}
  | .finite q => if h : 0 ≤ q ∧ q ≤ 1 then some ⟨q, h⟩ else none
  | .other => none

def f32Epsilon : Rat := 1 / 2 ^ 23

/-! ## 2. Enumerations and their texts -/

inductive ConfigType where
  | local
  | server
  | manager
  | onlineConfig
  deriving DecidableEq

inductive ProtocolType where
  | socks
  | http
  | tunnel
  | redir
  | dns
  | tun
  | fakeDns
  deriving DecidableEq

def ProtocolType.asStr : ProtocolType → Text
  | .socks => "socks".toList
  | .http => "http".toList
  | .tunnel => "tunnel".toList
  | .redir => "redir".toList
  | .dns => "dns".toList
  | .tun => "tun".toList
  | .fakeDns => "fake-dns".toList

def ProtocolType.fromStr (s : Text) : Option ProtocolType :=
  if s = "socks".toList then some .socks
  else if s = "http".toList then some .http
  else if s = "tunnel".toList then some .tunnel
  else if s = "redir".toList then some .redir
  else if s = "dns".toList then some .dns
  else if s = "tun".toList then some .tun
  else if s = "fake-dns".toList then some .fakeDns
  else none

inductive RedirType where
  | notSupported
  | redirect
  | tProxy
  deriving DecidableEq

def RedirType.tcpDefault : RedirType := .redirect

def RedirType.udpDefault : RedirType := .tProxy

def RedirType.name : RedirType → Text
  | .notSupported => "not_supported".toList
  | .redirect => "redirect".toList
  | .tProxy => "tproxy".toList

def RedirType.fromStr (s : Text) : Option RedirType :=
  if s = "redirect".toList then some .redirect
  else if s = "tproxy".toList then some .tProxy
  else none

theorem RedirType.fromStr_name {s : Text} {r : RedirType} (h : fromStr s = some r) :
    fromStr r.name = some r := by
  cases r with
  | redirect | tProxy => rfl
  | notSupported =>
    unfold fromStr at h
    split at h
    · cases h
    · split at h <;> cases h

def policyText : ReplayAttackPolicy → Text
  | .default => "default".toList
  | .ignore => "ignore".toList
  | .detect => "detect".toList
  | .reject => "reject".toList

def policyFromStr (s : Text) : Option ReplayAttackPolicy :=
  if s = "default".toList then some .default
  else if s = "ignore".toList then some .ignore
  else if s = "detect".toList then some .detect
  else if s = "reject".toList then some .reject
  else none

@[simp] theorem policyFromStr_text (p : ReplayAttackPolicy) : policyFromStr (policyText p) = some p := by
  cases p <;> rfl

/-! ## 3. Addresses by host and port -/

def socketAddr (ip : IpAddr) (port : UInt16) : SocketAddr :=
  match ip with
  | .v4 ip => .v4 ⟨ip, port⟩
  | .v6 ip => .v6 ⟨ip, port, 0, 0⟩

def socketIp : SocketAddr → IpAddr
  | .v4 a => .v4 a.ip
  | .v6 a => .v6 a.ip

def socketPort : SocketAddr → UInt16
  | .v4 a => a.port
  | .v6 a => a.port

variable (I : IpText)

/-- A host and a port: an IP address, or else a domain name. -/
def hostAddr (host : Text) (port : UInt16) : ServerAddr :=
  match I.parse host with
  | some ip => .socketAddr (socketAddr ip port)
  | none => .domainName host port

def ServerAddr.host : ServerAddr → Text
  | .socketAddr addr => I.print (socketIp addr)
  | .domainName dn _ => dn

def ServerAddr.Rereads (a : ServerAddr) : Prop := hostAddr I (a.host I) a.port = a

theorem hostAddr_port (host : Text) (port : UInt16) : (hostAddr I host port).port = port := by
  unfold hostAddr
  split
  · rename_i ip _
    cases ip <;> rfl
  · rfl

theorem rereads_socketAddr (ip : IpAddr) (port : UInt16) :
    (ServerAddr.socketAddr (socketAddr ip port)).Rereads I := by
  cases ip <;> simp [ServerAddr.Rereads, hostAddr, ServerAddr.host, socketAddr, socketIp, ServerAddr.port, I.parse_print]

theorem rereads_hostAddr (host : Text) (port : UInt16) : (hostAddr I host port).Rereads I := by
  unfold hostAddr
  split
  · exact rereads_socketAddr I _ port
  · rename_i h
    simp [ServerAddr.Rereads, hostAddr, ServerAddr.host, ServerAddr.port, h]

inductive NameServerAddr where
  | socketAddr (addr : SocketAddr)
  | unixSocketAddr (path : Text)
  deriving DecidableEq

def nameServerAddr (host : Text) (port : Option UInt16) : NameServerAddr :=
  match I.parse host with
  | some ip => .socketAddr (socketAddr ip (port.getD 53))
  | none => .unixSocketAddr host

def NameServerAddr.host : NameServerAddr → Text
  | .socketAddr addr => I.print (socketIp addr)
  | .unixSocketAddr path => path

def NameServerAddr.port : NameServerAddr → Option UInt16
  | .socketAddr addr => some (socketPort addr)
  | .unixSocketAddr _ => none

theorem nameServerAddr_reread (host : Text) (port : Option UInt16) :
    nameServerAddr I ((nameServerAddr I host port).host I) (nameServerAddr I host port).port =
      nameServerAddr I host port := by
  cases h : I.parse host with
  | none => simp [nameServerAddr, h, NameServerAddr.host]
  | some ip =>
    cases ip <;>
      simp [nameServerAddr, h, NameServerAddr.host, NameServerAddr.port, socketAddr, socketIp, socketPort, I.parse_print]

inductive ManagerAddr where
  | inet (addr : ServerAddr)
  | unixSocketAddr (path : Text)
  deriving DecidableEq

/-! ## 4. Realm settings -/

structure SSRealmTlsConfig where
  selfSigned : Option Bool
  pinSha256 : Option Text
  insecure : Option Bool

structure SSRealmTcpUpgrade where
  enable : Option Bool
  methods : List Text
  externalPort : Option UInt16

structure SSRealmConfig where
  rendezvous : Text
  stunServers : List Text
  preferTcp : Option Bool
  lport : Option UInt16
  quicTls : Option SSRealmTlsConfig
  tcpUpgrade : Option SSRealmTcpUpgrade

structure RealmConfig where
  rendezvous : Text
  stunServers : List Text
  preferTcp : Bool
  lport : Option UInt16
  selfSigned : Bool
  pinSha256 : Option Text
  (insecure tcpUpgrade : Bool)
  tcpUpgradeMethods : List Text
  tcpUpgradeExternalPort : UInt16
  deriving DecidableEq

def defaultTcpUpgradeMethods : List Text := ["upnp".toList, "natpmp".toList]

def SSRealmConfig.intoRealmConfig (c : SSRealmConfig) : RealmConfig :=
  let (selfSigned, pinSha256, insecure) : Bool × Option Text × Bool :=
    match c.quicTls with
    | some t => (t.selfSigned.getD false, t.pinSha256, t.insecure.getD false)
    | none => (true, none, false)
  let (tcpUpgrade, methods, externalPort) : Bool × List Text × UInt16 :=
    match c.tcpUpgrade with
    | some u =>
      (u.enable.getD true, if u.methods = [] then defaultTcpUpgradeMethods else u.methods, u.externalPort.getD 0)
    | none => (true, defaultTcpUpgradeMethods, 0)
  { rendezvous := c.rendezvous, stunServers := c.stunServers, preferTcp := c.preferTcp.getD true, lport := c.lport,
    selfSigned, pinSha256, insecure, tcpUpgrade, tcpUpgradeMethods := methods, tcpUpgradeExternalPort := externalPort }

def SSRealmConfig.fromRealmConfig (r : RealmConfig) : SSRealmConfig where
  rendezvous := r.rendezvous
  stunServers := r.stunServers
  preferTcp := some r.preferTcp
  lport := r.lport
  quicTls := some ⟨some r.selfSigned, r.pinSha256, some r.insecure⟩
  tcpUpgrade := some ⟨some r.tcpUpgrade, r.tcpUpgradeMethods, some r.tcpUpgradeExternalPort⟩

theorem intoRealmConfig_reread (c : SSRealmConfig) :
    (SSRealmConfig.fromRealmConfig c.intoRealmConfig).intoRealmConfig = c.intoRealmConfig := by
  have hmethods : c.intoRealmConfig.tcpUpgradeMethods ≠ [] := by
    unfold SSRealmConfig.intoRealmConfig
    cases c.tcpUpgrade with
    | none => exact List.cons_ne_nil _ _
    | some u =>
      dsimp only
      split
      · exact List.cons_ne_nil _ _
      · assumption
  simp only [SSRealmConfig.fromRealmConfig]
  conv_lhs => rw [SSRealmConfig.intoRealmConfig]
  simp [hmethods]

/-! ## 5. The file -/

inductive SSOutboundProxyConfig where
  | single (url : Text)
  | chain (urls : List Text)

inductive SSDnsConfig (Resolver : Type) where
  | simple (dns : Text)
  | hickoryDns (config : Resolver)

structure SSPlugin where
  (plugin pluginOpts : Option Text)
  pluginArgs : Option (List Text)
  pluginMode : Option Text

def SSPlugin.none : SSPlugin := ⟨.none, .none, .none, .none⟩

structure SSServerUserConfig where
  name : String
  password : Text

structure SSServerExtConfig where
  server : Text
  serverPort : UInt16
  password : Option Text
  method : Text
  users : Option (List SSServerUserConfig)
  disabled : Option Bool
  plugin : SSPlugin
  timeout : Option Nat
  (remarks id mode : Option Text)
  (tcpWeight udpWeight : Option F32)
  acl : Option Text
  outboundFwmark : Option Nat
  outboundBindAddr : Option IpAddr
  outboundBindInterface : Option Text
  outboundUdpAllowFragmentation : Option Bool
  outboundProxy : Option SSOutboundProxyConfig
  realm : Option SSRealmConfig

structure SSLocalExtConfig where
  localAddress : Option Text
  localPort : Option UInt16
  disabled : Option Bool
  (mode localUdpAddress : Option Text)
  localUdpPort : Option UInt16
  (protocol tcpRedir udpRedir localDnsAddress : Option Text)
  localDnsPort : Option UInt16
  remoteDnsAddress : Option Text
  remoteDnsPort : Option UInt16
  clientCacheSize : Option Nat
  forwardAddress : Option Text
  forwardPort : Option UInt16
  (tunInterfaceName tunInterfaceAddress tunInterfaceDestination tunDeviceFdFromPath : Option Text)
  (socks5AuthConfigPath httpAuthConfigPath : Option Text)
  fakeDnsRecordExpireDuration : Option Nat
  (fakeDnsIpv4Network fakeDnsIpv6Network fakeDnsDatabasePath acl : Option Text)

structure BalancerConfig where
  (maxServerRtt checkInterval checkBestInterval : Option Nat)
  deriving DecidableEq

structure OnlineConfig where
  configUrl : Text
  updateInterval : Option Nat
  allowedPlugins : Option (List Text)
  deriving DecidableEq

structure SSOptions where
  (udpTimeout udpMaxAssociations udpMtu dnsCacheSize : Option Nat)
  noDelay : Option Bool
  (keepAlive nofile : Option Nat)
  (ipv6Only fastOpen mptcp : Option Bool)
  outboundFwmark : Option Nat
  outboundBindInterface : Option Text
  outboundUdpAllowFragmentation : Option Bool
  balancer : Option BalancerConfig
  onlineConfig : Option OnlineConfig

def SSOptions.none : SSOptions :=
  ⟨.none, .none, .none, .none, .none, .none, .none, .none, .none, .none, .none, .none, .none, .none, .none⟩

structure SSConfig (Resolver : Type) where
  server : Option Text
  serverPort : Option UInt16
  localAddress : Option Text
  localPort : Option UInt16
  (protocol managerAddress : Option Text)
  managerPort : Option UInt16
  (password method : Option Text)
  plugin : SSPlugin
  timeout : Option Nat
  servers : Option (List SSServerExtConfig)
  locals : Option (List SSLocalExtConfig)
  dns : Option (SSDnsConfig Resolver)
  mode : Option Text
  ipv6First : Option Bool
  outboundBindAddr : Option Text
  outboundProxy : Option SSOutboundProxyConfig
  realm : Option SSRealmConfig
  (replayAttackPolicy acl : Option Text)
  version : Option Nat
  options : SSOptions

def SSConfig.default (Resolver : Type) : SSConfig Resolver where
  server := none
  serverPort := none
  localAddress := none
  localPort := none
  protocol := none
  managerAddress := none
  managerPort := none
  password := none
  method := none
  plugin := .none
  timeout := none
  servers := none
  locals := none
  dns := none
  mode := none
  ipv6First := none
  outboundBindAddr := none
  outboundProxy := none
  realm := none
  replayAttackPolicy := none
  acl := none
  version := none
  options := .none

/-- The JSON library: what it reads an `SSConfig` from and prints one as. -/
structure Json (Doc Resolver : Type) where
  parse : Doc → Except Text (SSConfig Resolver)
  print : SSConfig Resolver → Doc
  parse_print : ∀ c, parse (print c) = .ok c

/-! ## 6. What is loaded -/

inductive OutboundProxyProtocol where
  | socks5
  | http
  | https
  deriving DecidableEq

structure OutboundProxyAuth where
  (username password : Text)
  deriving DecidableEq

structure OutboundProxy where
  protocol : OutboundProxyProtocol
  host : Text
  port : UInt16
  auth : Option OutboundProxyAuth
  deriving DecidableEq

structure ServerInstanceConfig (Kind : Type) where
  config : ServerConfig Kind
  acl : Option Text
  outboundFwmark : Option Nat
  outboundBindAddr : Option IpAddr
  outboundBindInterface : Option Text
  outboundUdpAllowFragmentation : Option Bool
  outboundProxy : List OutboundProxy
  realm : Option RealmConfig
  deriving DecidableEq

def ServerInstanceConfig.withServerConfig {Kind : Type} (config : ServerConfig Kind) : ServerInstanceConfig Kind :=
  ⟨config, none, none, none, none, none, [], none⟩

structure LocalConfig (Auth : Type) where
  addr : Option ServerAddr
  protocol : ProtocolType
  mode : Mode
  (udpAddr forwardAddr : Option ServerAddr)
  (tcpRedir udpRedir : RedirType)
  localDnsAddr : Option NameServerAddr
  remoteDnsAddr : Option ServerAddr
  clientCacheSize : Option Nat
  (tunInterfaceName tunInterfaceAddress tunInterfaceDestination tunDeviceFdFromPath : Option Text)
  (socks5Auth httpAuth : Auth)
  fakeDnsRecordExpireDuration : Option Nat
  (fakeDnsIpv4Network fakeDnsIpv6Network fakeDnsDatabasePath : Option Text)
  deriving DecidableEq

def LocalConfig.new {Auth : Type} (noAuth : Auth) (protocol : ProtocolType) : LocalConfig Auth where
  addr := none
  protocol := protocol
  -- DNS server runs in `TcpAndUdp` mode by default to maintain backwards compatibility
  mode := if protocol = .dns then .tcpAndUdp else .tcpOnly
  udpAddr := none
  forwardAddr := none
  tcpRedir := .tcpDefault
  udpRedir := .udpDefault
  localDnsAddr := none
  remoteDnsAddr := none
  clientCacheSize := none
  tunInterfaceName := none
  tunInterfaceAddress := none
  tunInterfaceDestination := none
  tunDeviceFdFromPath := none
  socks5Auth := noAuth
  httpAuth := noAuth
  fakeDnsRecordExpireDuration := none
  fakeDnsIpv4Network := none
  fakeDnsIpv6Network := none
  fakeDnsDatabasePath := none

def LocalConfig.isBasic {Auth : Type} (c : LocalConfig Auth) : Bool :=
  !(c.protocol ≠ .socks || c.udpAddr.isSome) && !c.forwardAddr.isSome &&
    !(c.tcpRedir ≠ .tcpDefault || c.udpRedir ≠ .udpDefault) && !(c.localDnsAddr.isSome || c.remoteDnsAddr.isSome)

structure LocalInstanceConfig (Auth : Type) where
  config : LocalConfig Auth
  acl : Option Text
  deriving DecidableEq

structure ManagerConfig (Kind : Type) where
  addr : ManagerAddr
  method : Option Kind
  plugin : Option PluginConfig
  mode : Mode
  deriving DecidableEq

inductive DnsConfig (Resolver : Type) where
  | system
  | hickoryDns (config : Resolver)
  | localDns (path : Text)
  deriving DecidableEq

structure Options where
  dnsCacheSize : Option Nat
  (ipv6Only noDelay fastOpen : Bool)
  keepAlive : Option Nat
  mptcp : Bool
  (nofile outboundFwmark : Option Nat)
  outboundBindInterface : Option Text
  outboundUdpAllowFragmentation : Bool
  (udpTimeout udpMaxAssociations udpMtu : Option Nat)
  balancer : BalancerConfig
  onlineConfig : Option OnlineConfig
  deriving DecidableEq

set_option linter.dupNamespace false in
structure Config (Kind Auth Resolver : Type) where
  server : List (ServerInstanceConfig Kind)
  locals : List (LocalInstanceConfig Auth)
  dns : DnsConfig Resolver
  ipv6First : Bool
  outboundBindAddr : Option IpAddr
  outboundProxy : List OutboundProxy
  manager : Option (ManagerConfig Kind)
  configType : ConfigType
  acl : Option Text
  replayAttackPolicy : ReplayAttackPolicy
  options : Options
  deriving DecidableEq

/-! ## 7. What loading reads besides the file -/

/-- What `Url::parse` gives of a proxy's URL. -/
structure ProxyUrl where
  scheme : Text
  hostStr : Option Text
  port : Option UInt16
  username : Text
  password : Option Text

/-- The URL without its path, as `Url` writes it. -/
def ProxyUrl.text (u : ProxyUrl) (host : Text) (port : UInt16) : Text :=
  let authority := host ++ ':' :: decimal port.toNat
  u.scheme ++ "://".toList ++ match u.password with
    | some password => u.username ++ ':' :: password ++ '@' :: authority
    | none => if u.username = [] then authority else u.username ++ '@' :: authority

/-- What `Url::host_str` can be: without brackets and colons, or a bracketed IPv6 address. -/
def IsUrlHost (host : Text) : Prop :=
  ('[' ∉ host ∧ ']' ∉ host ∧ ':' ∉ host) ∨ ∃ ip, host = '[' :: ip ++ [']'] ∧ '[' ∉ ip ∧ ']' ∉ ip ∧ ':' ∈ ip

/-- The parsers and printers of libraries, the environment and files. -/
structure Host (Kind Auth Resolver : Type) where
  ciphers : Ciphers Kind
  ip : IpText
  primitives : Primitives
  /-- `Display` of `ServerConfigError` -/
  serverError : ServerConfigError Kind → Text
  /-- `env::var` -/
  var : Text → Option Text
  /-- `AccessControl::load_from_file` -/
  aclFile : Text → Except Text Unit
  /-- `Socks5AuthConfig::load_from_file` -/
  socks5AuthFile : Text → Except Text Auth
  /-- `HttpAuthConfig::load_from_file` -/
  httpAuthFile : Text → Except Text Auth
  noAuth : Auth
  /-- `Url::parse` -/
  url : Text → Except Text ProxyUrl
  /-- `IpNet::from_str` -/
  ipNet : Text → Option Text
  /-- `Ipv4Net::from_str` -/
  ipv4Net : Text → Option Text
  /-- `Ipv6Net::from_str` -/
  ipv6Net : Text → Option Text
  /-- The resolvers with a name, such as `google`. -/
  predefinedDns : Text → Option Resolver
  /-- `ResolverConfig::from_parts`, with TCP, UDP or both for each name server. -/
  fromParts : (tcp udp : Bool) → List SocketAddr → Resolver

variable {Kind Auth Resolver : Type} (H : Host Kind Auth Resolver)

def OutboundProxyProtocol.fromScheme (scheme : Text) : Except Text OutboundProxyProtocol :=
  if scheme = "socks5".toList then .ok .socks5
  else if scheme = "http".toList then .ok .http
  else if scheme = "https".toList then .ok .https
  else .error ("unsupported proxy scheme, only socks5://, http:// and https:// are supported: ".toList ++ scheme ++
    "://".toList)

def OutboundProxyProtocol.asScheme : OutboundProxyProtocol → Text
  | .socks5 => "socks5".toList
  | .http => "http".toList
  | .https => "https".toList

def OutboundProxyAuth.fromUrl (url : Text) (parsed : ProxyUrl) : Except Text (Option OutboundProxyAuth) :=
  if parsed.username = [] ∧ parsed.password = none then .ok none
  else
    match parsed.password with
    | none => .error ("missing proxy password in ".toList ++ url)
    | some password =>
      if parsed.username = [] then .error ("missing proxy username in ".toList ++ url)
      else if 255 < (utf8 parsed.username).length then .error ("proxy username is too long in ".toList ++ url)
      else if password = [] then .error ("missing proxy password in ".toList ++ url)
      else if 255 < (utf8 password).length then .error ("proxy password is too long in ".toList ++ url)
      else .ok (some ⟨parsed.username, password⟩)

def OutboundProxy.fromUrl (url : Text) : Except Text OutboundProxy := do
  let parsed ← (H.url url).mapError fun e => "invalid proxy url ".toList ++ url ++ ": ".toList ++ e
  let protocol ← OutboundProxyProtocol.fromScheme parsed.scheme
  let host ←
    match parsed.hostStr with
    | some host => .ok ((host.dropWhile (· = '[')).rdropWhile (· = ']'))
    | none => .error ("missing proxy host in ".toList ++ url)
  let port ←
    match parsed.port with
    | some port => .ok port
    | none => .error ("missing proxy port in ".toList ++ url)
  let auth ← OutboundProxyAuth.fromUrl url parsed
  pure ⟨protocol, host, port, auth⟩

def OutboundProxy.toUrl (p : OutboundProxy) : Text :=
  let host := if ':' ∈ p.host then '[' :: p.host ++ [']'] else p.host
  let authority := host ++ ':' :: decimal p.port.toNat
  p.protocol.asScheme ++ "://".toList ++ match p.auth with
    | some auth => auth.username ++ ':' :: auth.password ++ '@' :: authority
    | none => authority

def SSOutboundProxyConfig.intoProxies : SSOutboundProxyConfig → Except Text (List OutboundProxy)
  | .single url => (OutboundProxy.fromUrl H url).map ([·])
  | .chain urls => urls.mapM (OutboundProxy.fromUrl H)

def SSOutboundProxyConfig.fromProxies : List OutboundProxy → Option SSOutboundProxyConfig
  | [] => none
  | [p] => some (.single p.toUrl)
  | ps => some (.chain (ps.map OutboundProxy.toUrl))

/-- The libraries read a network and a URL back from their own texts. -/
structure Host.Lawful : Prop where
  ipNet : ∀ s n, H.ipNet s = some n → H.ipNet n = some n
  ipv4Net : ∀ s n, H.ipv4Net s = some n → H.ipv4Net n = some n
  ipv6Net : ∀ s n, H.ipv6Net s = some n → H.ipv6Net n = some n
  urlHost : ∀ s u, H.url s = .ok u → ∀ host ∈ u.hostStr, host ≠ [] ∧ IsUrlHost host
  urlText : ∀ s u, H.url s = .ok u → ∀ host ∈ u.hostStr, ∀ port ∈ u.port, H.url (u.text host port) = .ok u

def unbracketed (host : Text) : Text := (host.dropWhile (· = '[')).rdropWhile (· = ']')

open List in
theorem unbracketed_eq {x : Text} (hne : x ≠ []) (hopen : '[' ∉ x) (hclose : ']' ∉ x) :
    unbracketed x = x ∧ unbracketed ('[' :: x ++ [']']) = x := by
  have hrdrop : x.rdropWhile (· = ']') = x :=
    rdropWhile_eq_self_iff.mpr fun hl he => hclose (of_decide_eq_true he ▸ getLast_mem hl)
  obtain ⟨c, x, rfl⟩ := exists_cons_of_ne_nil hne
  have hc : c ≠ '[' := fun he => hopen (he ▸ mem_cons_self)
  simp only [unbracketed, cons_append, dropWhile_cons, decide_true, if_true, hc, decide_false, Bool.false_eq_true,
    if_false]
  exact ⟨hrdrop, (rdropWhile_concat_pos _ (c :: x) _ rfl).trans hrdrop⟩

theorem rebracketed {host : Text} (hne : host ≠ []) (h : IsUrlHost host) :
    (if ':' ∈ unbracketed host then '[' :: unbracketed host ++ [']'] else unbracketed host) = host := by
  rcases h with ⟨hopen, hclose, hcolon⟩ | ⟨ip, rfl, hopen, hclose, hcolon⟩
  · rw [(unbracketed_eq hne hopen hclose).1, if_neg hcolon]
  · rw [(unbracketed_eq (List.ne_nil_of_mem hcolon) hopen hclose).2, if_pos hcolon]

theorem fromScheme_ok_iff {scheme : Text} {protocol : OutboundProxyProtocol} :
    OutboundProxyProtocol.fromScheme scheme = .ok protocol ↔ scheme = protocol.asScheme := by
  constructor
  · intro h
    unfold OutboundProxyProtocol.fromScheme at h
    split_ifs at h <;> cases h <;> assumption
  · rintro rfl
    cases protocol <;> decide

theorem auth_fromUrl_iff {url : Text} {u : ProxyUrl} {auth : Option OutboundProxyAuth} :
    OutboundProxyAuth.fromUrl url u = .ok auth ↔ u.username = (auth.map (·.username)).getD [] ∧
      u.password = auth.map (·.password) ∧ ∀ a ∈ auth, ∀ s ∈ [a.username, a.password], s ≠ [] ∧ (utf8 s).length ≤ 255 := by
  obtain ⟨scheme, host, port, username, password⟩ := u
  unfold OutboundProxyAuth.fromUrl
  cases password with
  | none => cases auth <;> by_cases hu : username = [] <;> simp [hu]
  | some password =>
    simp only [reduceCtorEq, and_false, if_false]
    constructor
    · intro h
      split_ifs at h with husername hlong hpassword hlong'
      cases h
      simp_all
    · rintro ⟨husername, hpassword, hsized⟩
      obtain ⟨a, rfl, rfl⟩ := Option.map_eq_some_iff.mp hpassword.symm
      obtain rfl : username = a.username := husername
      have h := hsized a rfl
      simp [h, Nat.not_lt.mpr]

theorem proxy_fromUrl_iff {H : Host Kind Auth Resolver} {url : Text} {q : OutboundProxy} :
    OutboundProxy.fromUrl H url = .ok q ↔ ∃ u, H.url url = .ok u ∧ u.scheme = q.protocol.asScheme ∧
      u.hostStr.map unbracketed = some q.host ∧ u.port = some q.port ∧ OutboundProxyAuth.fromUrl url u = .ok q.auth := by
  obtain ⟨protocol, host, port, auth⟩ := q
  unfold OutboundProxy.fromUrl
  cases H.url url with
  | error e => simp [Except.mapError, bind, Except.bind]
  | ok u =>
    simp only [Except.mapError, except_bind_ok_iff, Except.ok.injEq, exists_eq_left', fromScheme_ok_iff]
    cases u.hostStr <;> cases u.port <;>
      simp only [except_bind_ok_iff, Except.ok.injEq, exists_eq_left', pure, Except.pure, OutboundProxy.mk.injEq,
        reduceCtorEq, false_and, and_false, exists_false, Option.map_some, Option.map_none, Option.some.injEq]
    constructor
    · rintro ⟨_, hscheme, _, hauth, rfl, rfl, rfl, rfl⟩
      exact ⟨hscheme, rfl, rfl, hauth⟩
    · rintro ⟨hscheme, rfl, rfl, hauth⟩
      exact ⟨_, hscheme, _, hauth, rfl, rfl, rfl, rfl⟩

theorem Host.Lawful.proxy {H : Host Kind Auth Resolver} (hlaw : H.Lawful) {url : Text} {p : OutboundProxy}
    (h : OutboundProxy.fromUrl H url = .ok p) : OutboundProxy.fromUrl H p.toUrl = .ok p := by
  obtain ⟨u, hu, hscheme, hhost, hport, hauth⟩ := proxy_fromUrl_iff.mp h
  obtain ⟨host, hhost, hp⟩ := Option.map_eq_some_iff.mp hhost
  obtain ⟨husername, hpassword, hsized⟩ := auth_fromUrl_iff.mp hauth
  obtain ⟨hne, hform⟩ := hlaw.urlHost _ _ hu host hhost
  have htext : u.text host p.port = p.toUrl := by
    unfold ProxyUrl.text OutboundProxy.toUrl
    rw [hscheme, ← hp, rebracketed hne hform, hpassword, husername]
    cases p.auth <;> rfl
  refine proxy_fromUrl_iff.mpr ⟨u, htext ▸ hlaw.urlText _ _ hu host hhost _ hport, hscheme, ?_, hport,
    auth_fromUrl_iff.mpr ⟨husername, hpassword, hsized⟩⟩
  rw [hhost, Option.map_some, hp]

theorem intoProxies_reread (hlaw : H.Lawful) {c : SSOutboundProxyConfig} {ps : List OutboundProxy}
    (h : c.intoProxies H = .ok ps) : (SSOutboundProxyConfig.fromProxies ps = none ∧ ps = []) ∨
      ∃ c', SSOutboundProxyConfig.fromProxies ps = some c' ∧ c'.intoProxies H = .ok ps := by
  have hall : ∀ p ∈ ps, OutboundProxy.fromUrl H p.toUrl = .ok p := by
    intro p hp
    cases c with
    | single url =>
      obtain ⟨q, hq, rfl⟩ := except_map_ok_iff.mp h
      rw [List.mem_singleton.mp hp]
      exact hlaw.proxy hq
    | chain urls =>
      obtain ⟨url, -, hurl⟩ := forall₂_mem_right (except_mapM_ok_iff.mp h) hp
      exact hlaw.proxy hurl
  match ps, hall with
  | [], _ => exact .inl ⟨rfl, rfl⟩
  | [p], hall =>
    refine .inr ⟨_, rfl, ?_⟩
    rw [SSOutboundProxyConfig.intoProxies, hall p List.mem_cons_self]
    rfl
  | p :: q :: ps, hall =>
    refine .inr ⟨_, rfl, except_mapM_ok_iff.mpr ?_⟩
    exact List.forall₂_map_left_iff.mpr (List.forall₂_same.mpr hall)

end Shadowsocks.Config
