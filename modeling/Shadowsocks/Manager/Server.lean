/-
  Subject:   THE ADD COMMAND OF THE SERVER MANAGER (`manager/server.rs` of the service). A built-in server is a
  task, a standalone one the process that the port's pid file names.
-/
import Mathlib.Logic.Function.Basic
import Shadowsocks.Config.Print
import Shadowsocks.Manager.Protocol

namespace Shadowsocks.Manager

open Lib Config
open Acl (Text)

inductive ManagerServerHost where
  | domain (dname : Text)
  | ip (ip : Acl.IpAddr)

inductive ManagerServerMode where
  | builtin
  | standalone

/-- What `handle_add` reads of `ManagerConfig`. -/
structure ManagerConfig (Kind : Type) where
  serverHost : ManagerServerHost
  method : Option Kind
  plugin : Option PluginConfig
  mode : Mode
  serverMode : ManagerServerMode

/-- `AddResponse` and `ErrorResponse` -/
inductive Response where
  | add (text : Text)
  | error (text : Text)
  deriving DecidableEq

def Response.ok : Response := .add "ok".toList

structure Servers (Kind : Type) where
  registered : UInt16 → Option (Config.ServerConfig Kind)
  running : UInt16 → Option (ServerInstanceConfig Kind)

/-- What succeeds while a command is served. -/
structure System where
  /-- `ServerBuilder::build` -/
  build : Bool
  /-- The working directory exists or is created. -/
  workingDirectory : Bool
  /-- The configuration file is opened and written. -/
  configFile : Bool
  /-- The path of the access control list is a text. -/
  aclPath : Bool
  spawn : Bool
  /-- The task or process does not end at once. -/
  serves : Bool

/-! ## 1. The command -/

variable {Kind Auth Resolver : Type} (H : Host Kind Auth Resolver) (cfg : ManagerConfig Kind)
  (chacha20Poly1305 : Kind)

def ManagerServerHost.addr (port : UInt16) : ManagerServerHost → ServerAddr
  | .domain dname => .domainName dname port
  | .ip (.v4 a) => .socketAddr (.v4 ⟨a, port⟩)
  | .ip (.v6 a) => .socketAddr (.v6 ⟨a, port, 0, 0⟩)

def recognized {α : Type} (field : String) (parse : Text → Option α) : Option String → Except Response (Option α)
  | none => .ok none
  | some s =>
    match parse s.toList with
    | some a => .ok (some a)
    | none => .error (.add ("unrecognized ".toList ++ field.toList ++ " \"".toList ++ s.toList ++ "\"".toList))

def requestedPlugin (req : AddRequest) : Except Response (Option PluginConfig) :=
  match req.plugin with
  | none => .ok cfg.plugin
  | some plugin =>
    (recognized "plugin_mode" Mode.fromStr req.pluginMode).map fun mode =>
      some ⟨plugin.toList, req.pluginOpts.map (·.toList), [], mode.getD .tcpOnly⟩

def requestedUsers : Option (List ServerUserConfig) → Except Response (Option ServerUserManager)
  | none => .ok none
  | some users =>
    match addUsers H ⟨[]⟩ (users.map fun u => ⟨u.name, u.password.toList⟩) with
    | .ok m => .ok (some m)
    | .error _ => .error (.error "users[].password must be encoded with base64".toList)

/-- The configuration a request asks for, or the answer that refuses it. -/
def requested (req : AddRequest) : Except Response (Config.ServerConfig Kind) := do
  let method ← recognized "method" H.ciphers.parse req.method
  let method := method.getD (cfg.method.getD chacha20Poly1305)
  let svr ← (Config.ServerConfig.new H.ciphers (cfg.serverHost.addr req.serverPort) req.password.toList method).mapError
    fun _ => .add "invalid server".toList
  let plugin ← requestedPlugin cfg req
  let mode ← recognized "mode" Mode.fromStr req.mode
  let userManager ← requestedUsers H req.users
  pure { svr with plugin, userManager, mode := mode.getD cfg.mode }

variable {Doc : Type} (J : Config.Json Doc Resolver) (sys : System) (servers : Servers Kind)
  (svr : Config.ServerConfig Kind)

/-! ## 2. What a standalone server runs -/

/-- `Config::check_integrity` on one server of a file for servers. -/
def checkServer : Except Config.Error Unit := do
  if svr.plugin.any fun p => trim p.plugin = [] then
    throw ⟨.malformed, "`plugin` shouldn't be an empty string", none⟩
  match svr.addr with
  | .socketAddr _ => if svr.addr.port = 0 then throw ⟨.malformed, "`server_port` shouldn't be 0", none⟩
  | .domainName dn port =>
    if dn = [] ∨ port = 0 then
      throw ⟨.malformed, "`server` shouldn't be an empty string, `server_port` shouldn't be 0", none⟩
  match svr.userManager with
  | none => pure ()
  | some m =>
    if H.ciphers.family svr.method = .aead2022 false ∧ m.users ≠ [] then
      throw ⟨.invalid, "server method doesn't support Extended Identity Header (EIH), remove `users`",
        some ("method ".toList ++ H.ciphers.name svr.method)⟩
    if m.users.any fun u => u.key.length ≠ H.ciphers.keyLen svr.method then
      throw ⟨.malformed, "`users[].password` length must be exactly the same as method's key length", none⟩

/-- `Config::new(ConfigType::Server)` with the one server, as `add_server_standalone` prints it. -/
def standaloneConfig : Config.Config Kind Auth Resolver where
  server := [.withServerConfig svr]
  locals := []
  dns := .system
  ipv6First := false
  outboundBindAddr := none
  outboundProxy := []
  manager := none
  configType := .server
  acl := none
  replayAttackPolicy := .default
  options := loadOptions .none

/-- What the process runs that is started with the printed file. -/
def processServer : Option (ServerInstanceConfig Kind) :=
  match loadFromStr H J (printConfig H J (standaloneConfig svr)) .server with
  | .ok config => if config.server.all fun inst => (checkServer H inst.config).isOk then config.server.head? else none
  | _ => none

/-! ## 3. Starting a server -/

def Servers.put (registered : Option (Config.ServerConfig Kind)) (running : Option (ServerInstanceConfig Kind))
    (port : UInt16) : Servers Kind :=
  ⟨Function.update servers.registered port registered, Function.update servers.running port running⟩

/-- The server that is started comes up as `inst`, or ends at once. -/
def Servers.start (inst : Option (ServerInstanceConfig Kind)) : Servers Kind :=
  servers.put (some svr) (if sys.serves then inst else none) svr.addr.port

def addServerBuiltin : Servers Kind :=
  -- an instance that is dropped aborts its task
  let closed := servers.put none none svr.addr.port
  if sys.build then closed.start sys svr (some (.withServerConfig svr)) else closed

def addServerStandalone : Outcome Empty (Servers Kind) :=
  if !sys.workingDirectory then .panic
  else
    let killed := servers.put (servers.registered svr.addr.port) none svr.addr.port
    if !sys.configFile then .ok killed
    else if !sys.aclPath then .panic
    else if !sys.spawn then .ok killed
    else .ok (killed.start sys svr (processServer H J svr))

def addServer : Outcome Empty (Servers Kind) :=
  match cfg.serverMode with
  | .builtin => .ok (addServerBuiltin sys servers svr)
  | .standalone => addServerStandalone H J sys servers svr

def handleAdd (req : AddRequest) : Outcome Empty (Response × Servers Kind) :=
  match requested H cfg chacha20Poly1305 req with
  | .error response => .ok (response, servers)
  | .ok svr => (addServer H cfg J sys servers svr).map fun servers => (.ok, servers)

/-! ## 4. When the answer is right -/

/-- A server with this configuration is registered and runs, as far as its view tells. -/
def Servers.Serves (port : UInt16) : Prop :=
  servers.registered port = some svr ∧
    (servers.running port).map (·.view) = some (ServerInstanceConfig.withServerConfig svr).view

/-- The answer is ok exactly if the server asked for is in order and runs, and without it nothing has changed. -/
def Answered (req : AddRequest) : Prop :=
  ∃ response after, handleAdd H cfg chacha20Poly1305 J sys servers req = .ok (response, after) ∧
    (response = .ok ↔ ∃ svr, requested H cfg chacha20Poly1305 req = .ok svr ∧ checkServer H svr = .ok () ∧
      after.Serves svr svr.addr.port) ∧ (response ≠ .ok → after = servers)

/-- What the standard fields keep: no host written as a domain, no users, a password with the same keys. -/
def Written : Prop := svr.addr.Rereads H.ip ∧ svr.userManager = none ∧ KeysKept H svr

/-- Every step of starting the server succeeds, and the file of a standalone one holds all of it. -/
def System.Starts : ManagerServerMode → Prop
  | .builtin => sys.build ∧ sys.serves
  | .standalone => (sys.workingDirectory ∧ sys.configFile ∧ sys.aclPath ∧ sys.spawn ∧ sys.serves) ∧ Written H svr

variable {H cfg chacha20Poly1305 sys servers svr} {req : AddRequest} {response : Response}

theorem recognized_ne_ok {α : Type} {field : String} {parse : Text → Option α} {s : Option String}
    (h : recognized field parse s = .error response) : response ≠ .ok := by
  unfold recognized at h
  split at h
  · cases h
  split at h
  · cases h
  cases h
  simp [Response.ok]

theorem except_bind_error_iff {ε α β : Type} {x : Except ε α} {f : α → Except ε β} {e : ε} :
    (x >>= f) = .error e ↔ x = .error e ∨ ∃ a, x = .ok a ∧ f a = .error e := by
  cases x with
  | error e | ok a => simp [bind, Except.bind]

theorem requested_ne_ok (h : requested H cfg chacha20Poly1305 req = .error response) :
    response ≠ .ok := by
  simp only [requested, except_bind_error_iff] at h
  rcases h with h | ⟨method, -, h | ⟨new, -, h | ⟨plugin, -, h | ⟨mode, -, h | ⟨users, -, h⟩⟩⟩⟩⟩
  · exact recognized_ne_ok h
  · cases hnew : Config.ServerConfig.new H.ciphers (cfg.serverHost.addr req.serverPort) req.password.toList
      (method.getD (cfg.method.getD chacha20Poly1305)) with
    | ok new =>
      rw [hnew] at h
      cases h
    | error e =>
      rw [hnew] at h
      cases h
      simp [Response.ok]
  · unfold requestedPlugin at h
    split at h
    · cases h
    · cases hmode : recognized "plugin_mode" Mode.fromStr req.pluginMode with
      | ok mode =>
        rw [hmode] at h
        cases h
      | error e =>
        rw [hmode] at h
        cases h
        exact recognized_ne_ok hmode
  · exact recognized_ne_ok h
  · unfold requestedUsers at h
    split at h
    · cases h
    split at h <;> cases h
    nofun
  · cases h

theorem requested_basic (h : requested H cfg chacha20Poly1305 req = .ok svr) :
    svr.isBasic = true ∧ svr.weight = .new := by
  simp only [requested, except_bind_ok_iff] at h
  obtain ⟨method, -, new, hnew, plugin, -, mode, -, users, -, h⟩ := h
  cases h
  unfold Config.ServerConfig.new at hnew
  cases hkeys : passwordToKeys H.ciphers (method.getD (cfg.method.getD chacha20Poly1305)) req.password.toList with
  | error e =>
    rw [hkeys] at hnew
    cases hnew
  | ok keys =>
    rw [hkeys] at hnew
    cases hnew
    exact ⟨rfl, rfl⟩

theorem checkServer_plugin (h : checkServer H svr = .ok ()) : ∀ p, svr.plugin = some p → p.plugin ≠ [] := by
  intro p hp hempty
  have hany : (svr.plugin.any fun p => trim p.plugin = []) = true := by
    rw [hp, Option.any_some, hempty]
    rfl
  rw [checkServer, if_pos hany] at h
  cases h

theorem standardServer_standalone (hbasic : svr.isBasic = true) (hcheck : checkServer H svr = .ok ())
    {standard : List (ServerInstanceConfig Kind)} :
    standardServer H (display H (standaloneConfig svr)) .server svr.mode .configuration = .ok standard ↔
      ∃ keys, passwordToKeys H.ciphers svr.method (rereadPassword H svr) = .ok keys ∧
        standard = [rereadStandard H (.withServerConfig svr) .configuration svr.plugin keys] := by
  have hserver : basicServer (standaloneConfig svr : Config.Config Kind Auth Resolver) = some (.withServerConfig svr) :=
    if_pos hbasic
  have hplugin : loadPlugin (display H (standaloneConfig svr)).plugin = .ok svr.plugin := by
    rw [← loadPlugin_printPlugin (checkServer_plugin hcheck)]
    simp only [display, hserver, Option.bind_some, ServerInstanceConfig.withServerConfig]
    cases svr.plugin <;> rfl
  refine (standardServer_display H hserver rfl .server .configuration).trans (exists_congr fun keys => ?_)
  rw [hplugin]
  constructor
  · rintro ⟨plugin, hkeys, ⟨⟩, hstandard⟩
    exact ⟨hkeys, hstandard⟩
  · rintro ⟨hkeys, hstandard⟩
    exact ⟨_, hkeys, rfl, hstandard⟩

theorem load_standalone (hbasic : svr.isBasic = true) :
    loadFromStr H J (printConfig H J (standaloneConfig svr)) .server =
      (Outcome.ofExcept (standardServer H (display H (standaloneConfig svr)) .server svr.mode .configuration)).map
        fun standard => { standaloneConfig svr with server := standard.map (setTimeout svr.timeout) } := by
  have hserver : basicServer (standaloneConfig svr : Config.Config Kind Auth Resolver) = some (.withServerConfig svr) :=
    if_pos hbasic
  have hmode : globalMode (display H (standaloneConfig svr)) = .ok svr.mode := by
    rw [globalMode_display, printedMode, hserver]
    rfl
  have hlocals : loadLocals H (display H (standaloneConfig svr)) .server svr.mode = .ok [] := rfl
  have hservers : enabledServers (display H (standaloneConfig svr)) = [] := by
    rw [enabledServers_display, hserver]
    rfl
  have hrest : (display H (standaloneConfig svr)).timeout = svr.timeout ∧
      (display H (standaloneConfig svr)).outboundProxy = none ∧ (display H (standaloneConfig svr)).acl = none := by
    simp only [display, hserver]
    exact ⟨rfl, rfl, rfl⟩
  simp only [loadFromStr, printConfig, J.parse_print, loadFromSsconfig, hmode, hlocals, hservers, hrest,
    Outcome.ofExcept_ok, Outcome.ok_bind, serverSource]
  cases standardServer H (display H (standaloneConfig svr)) .server svr.mode .configuration with
  | error e => rfl
  | ok standard =>
    exact congrArg (fun servers => Outcome.ok { standaloneConfig svr with server := servers.map (setTimeout svr.timeout) })
      (List.append_nil standard)

theorem processServer_view_iff (hbasic : svr.isBasic = true) (hweight : svr.weight = .new)
    (hcheck : checkServer H svr = .ok ()) :
    (processServer H J svr).map (·.view) = some (ServerInstanceConfig.withServerConfig svr).view ↔ Written H svr := by
  have hset : ∀ keys, setTimeout svr.timeout (rereadStandard H (.withServerConfig svr) .configuration svr.plugin keys) =
      rereadStandard H (.withServerConfig svr) .configuration svr.plugin keys := fun keys => setTimeout_self rfl
  rw [processServer, load_standalone J hbasic]
  cases hstandard : standardServer H (display H (standaloneConfig svr)) .server svr.mode .configuration with
  | error e =>
    refine ⟨nofun, fun ⟨_, _, upsk, hkeys⟩ => ?_⟩
    cases hstandard.symm.trans ((standardServer_standalone hbasic hcheck).mpr ⟨_, hkeys, rfl⟩)
  | ok standard =>
    obtain ⟨keys, hkeys, rfl⟩ := (standardServer_standalone hbasic hcheck).mp hstandard
    simp only [Outcome.ofExcept_ok, Outcome.map, List.map_cons, List.map_nil, hset]
    constructor
    · intro h
      split at h
      · obtain ⟨haddr, ⟨husers, -⟩, hkeep, -⟩ := (rereadStandard_view_iff H).mp (Option.some.inj h)
        obtain ⟨upsk, _⟩ := keys
        obtain rfl := hkeep
        exact ⟨haddr, husers, upsk, hkeys⟩
      · cases h
    · intro ⟨haddr, husers, upsk, hkeep⟩
      cases hkeys.symm.trans hkeep
      have haddr' : hostAddr H.ip (svr.addr.host H.ip) svr.addr.port = svr.addr := haddr
      have hsame : ∀ keys, checkServer H (rereadStandard H (.withServerConfig svr) .configuration svr.plugin keys).config =
          checkServer H svr := by
        intro keys
        simp only [checkServer, rereadStandard, ServerInstanceConfig.withServerConfig, freshServer, haddr', husers]
      rw [if_pos (by simp [hsame, hcheck, Except.isOk, Except.toBool])]
      exact congrArg some ((rereadStandard_view_iff H).mpr ⟨haddr, ⟨husers, hweight, rfl, rfl⟩, rfl, rfl⟩)

theorem addServer_starts (hview : (processServer H J svr).map (·.view) =
      some (ServerInstanceConfig.withServerConfig svr).view ↔ Written H svr) :
    (∃ after, addServer H cfg J sys servers svr = .ok after ∧ after.Serves svr svr.addr.port) ↔
      sys.Starts H svr cfg.serverMode := by
  unfold addServer System.Starts addServerBuiltin addServerStandalone Servers.Serves Servers.start Servers.put
  cases cfg.serverMode with
  | builtin => cases sys.build <;> cases sys.serves <;> simp
  | standalone =>
    rw [← hview]
    cases sys.workingDirectory <;> cases sys.configFile <;> cases sys.aclPath <;> cases sys.spawn <;>
      cases sys.serves <;> simp

/-- **When an add command is answered right**, for every system it runs on: a configuration that is made must
pass the checks of a file and come up whole. -/
theorem handleAdd_answered_iff : Answered H cfg chacha20Poly1305 J sys servers req ↔
    ∀ svr, requested H cfg chacha20Poly1305 req = .ok svr →
      checkServer H svr = .ok () ∧ sys.Starts H svr cfg.serverMode := by
  unfold Answered handleAdd
  cases hreq : requested H cfg chacha20Poly1305 req with
  | error response => simp [requested_ne_ok hreq]
  | ok svr =>
    obtain ⟨hbasic, hweight⟩ := requested_basic hreq
    have hstarts : (checkServer H svr = .ok () ∧
          ∃ after, addServer H cfg J sys servers svr = .ok after ∧ after.Serves svr svr.addr.port) ↔
        checkServer H svr = .ok () ∧ sys.Starts H svr cfg.serverMode :=
      and_congr_right fun hcheck => addServer_starts J (processServer_view_iff J hbasic hweight hcheck)
    cases hadd : addServer H cfg J sys servers svr with
    | panic =>
      have hnot : ¬(checkServer H svr = .ok () ∧ sys.Starts H svr cfg.serverMode) := by simpa [hadd] using hstarts
      simp [Outcome.map, hadd, hnot]
    | err e => cases e
    | ok after => simp_all

def sampleManager (serverMode : ManagerServerMode) : ManagerConfig SampleMethod :=
  ⟨.domain "host".toList, some .none, none, .tcpAndUdp, serverMode⟩

def sampleServers : Servers SampleMethod := ⟨fun _ => some plainServer, fun _ => some (.withServerConfig plainServer)⟩

def sampleRequest (users : Option (List ServerUserConfig)) : AddRequest :=
  ⟨8388, "", none, none, none, none, none, none, users⟩

def sampleUser (key : Bytes) : Config.ServerConfig SampleMethod :=
  { plainServer with userManager := some ⟨[.new Host.sample.primitives "user" key]⟩ }

/-- The server that runs is asked for again and cannot be built; a user's key is too long; a process is started
without the users it is asked to have. -/
theorem add_wrongly_ok :
    (∃ after, handleAdd Host.sample (sampleManager .builtin) .none Json.sample ⟨false, true, true, true, true, true⟩
        sampleServers (sampleRequest none) = .ok (.ok, after) ∧ after.registered 8388 = none ∧ after.running 8388 = none) ∧
      (∃ after, handleAdd Host.sample (sampleManager .builtin) .none Json.sample ⟨true, true, true, true, true, true⟩
        sampleServers (sampleRequest (some [⟨"user", "AA=="⟩])) = .ok (.ok, after) ∧ after.Serves (sampleUser [0]) 8388 ∧
          checkServer Host.sample (sampleUser [0]) ≠ .ok ()) ∧
      ∃ after, handleAdd Host.sample (sampleManager .standalone) .none Json.sample ⟨true, true, true, true, true, true⟩
        sampleServers (sampleRequest (some [⟨"user", ""⟩])) = .ok (.ok, after) ∧
          checkServer Host.sample (sampleUser []) = .ok () ∧ after.registered 8388 = some (sampleUser []) ∧
          (after.running 8388).map (·.config.userManager) = some none := by
  have hrequested : ∀ mode, requested Host.sample (sampleManager mode) .none (sampleRequest none) = .ok plainServer ∧
      requested Host.sample (sampleManager mode) .none (sampleRequest (some [⟨"user", "AA=="⟩])) = .ok (sampleUser [0]) ∧
      requested Host.sample (sampleManager mode) .none (sampleRequest (some [⟨"user", ""⟩])) = .ok (sampleUser []) := by
    intro mode
    cases mode <;> decide +kernel
  obtain ⟨hsame, hlong, -⟩ := hrequested .builtin
  obtain ⟨-, -, husers⟩ := hrequested .standalone
  refine ⟨?_, ?_, ?_⟩
  · rw [handleAdd, hsame]
    exact ⟨_, rfl, rfl, rfl⟩
  · rw [handleAdd, hlong]
    exact ⟨_, rfl, ⟨rfl, rfl⟩, by decide +kernel⟩
  · rw [handleAdd, husers]
    exact ⟨_, rfl, by decide +kernel, rfl, by decide +kernel⟩

end Shadowsocks.Manager
