/-
  Subject:   THE LOCAL SOCKS SERVER (`local/socks/server` of the service): who may have connections opened. One
  client is a function of what has arrived (`handleTcpClient`), the listener a machine with any number of clients
  (`step`). What the HTTP handler connects to comes in with the poll.
-/
import Mathlib.Data.List.AList
import Mathlib.Logic.Function.Basic
import Shadowsocks.Config.Server
import Shadowsocks.Local.Socks4
import Shadowsocks.Relay.Socks5

namespace Shadowsocks.Local.Socks

open Lib ReadCode Socks5 List
open Config (Mode)

/-! ## 1. Users -/

structure Socks5AuthPasswdConfig where
  passwd : AList fun _ : String => String

def Socks5AuthPasswdConfig.new : Socks5AuthPasswdConfig := ⟨∅⟩

variable (c : Socks5AuthPasswdConfig) (userName password : String)

def Socks5AuthPasswdConfig.addUser :
    Socks5AuthPasswdConfig :=
  ⟨c.passwd.insert userName password⟩

def Socks5AuthPasswdConfig.checkUser : Bool :=
  match c.passwd.lookup userName with
  | some pwd => pwd = password
  | none => false

def Socks5AuthPasswdConfig.totalUsers (c : Socks5AuthPasswdConfig) : Nat := c.passwd.entries.length

structure Socks5AuthConfig where
  passwd : Socks5AuthPasswdConfig

def Socks5AuthConfig.authRequired (c : Socks5AuthConfig) : Bool := 0 < c.passwd.totalUsers

def Socks5AuthConfig.load (users : List (String × String)) : Socks5AuthConfig :=
  ⟨users.foldl (fun c user => c.addUser user.1 user.2) .new⟩

theorem addUser_totalUsers :
    0 < (c.addUser userName password).totalUsers :=
  Nat.succ_pos _

theorem load_concat (users : List (String × String)) (user : String × String) :
    Socks5AuthConfig.load (users ++ [user]) = ⟨(Socks5AuthConfig.load users).passwd.addUser user.1 user.2⟩ := by
  rw [Socks5AuthConfig.load, foldl_append]
  rfl

theorem authRequired_load (users : List (String × String)) :
    (Socks5AuthConfig.load users).authRequired = true ↔ users ≠ [] := by
  induction users using reverseRecOn with
  | nil => simp [Socks5AuthConfig.load, Socks5AuthConfig.authRequired, Socks5AuthPasswdConfig.totalUsers,
      Socks5AuthPasswdConfig.new]
  | append_singleton users user ih =>
    rw [load_concat]
    refine ⟨fun _ => by simp, fun _ => ?_⟩
    exact decide_eq_true (addUser_totalUsers _ _ _)

variable {users : List (String × String)} {userName password : String}

theorem mem_of_lookup
    (h : (Socks5AuthConfig.load users).passwd.passwd.lookup userName = some password) : (userName, password) ∈ users := by
  induction users using reverseRecOn with
  | nil => simp [Socks5AuthConfig.load, Socks5AuthPasswdConfig.new] at h
  | append_singleton users user ih =>
    rw [load_concat, Socks5AuthPasswdConfig.addUser] at h
    by_cases hname : userName = user.1
    · rw [hname, AList.lookup_insert] at h
      cases h
      rw [hname]
      exact mem_append_right _ (mem_singleton.mpr rfl)
    · rw [AList.lookup_insert_ne hname] at h
      exact mem_append_left _ (ih h)

theorem mem_of_checkUser
    (h : (Socks5AuthConfig.load users).passwd.checkUser userName password = true) : (userName, password) ∈ users := by
  rw [Socks5AuthPasswdConfig.checkUser] at h
  split at h
  · rename_i pwd hpwd
    rw [← of_decide_eq_true h]
    exact mem_of_lookup hpwd
  · cases h

/-! ## 2. The handler of one client -/

inductive HandlerError where
  /-- A message that could not be read. -/
  | message (e : MessageError)
  | socks4 (e : Socks4.Error)
  /-- "Username/Password Authentication Initial request failed", with the error of the request. -/
  | passwdRequest (e : MessageError)
  | unexpectedEof
  | other (text : String)

inductive Ending where
  /-- A message could not be read, and nothing was done about it yet. -/
  | unread (e : MessageError)
  /-- It returned, after it had written a last reply. -/
  | returned (reply : Bytes) (result : Except HandlerError Unit)
  | panicked

inductive Action where
  /-- A connection is opened for the client. -/
  | connect (target : Address)
  /-- A UDP association is granted: the connection is held until it is closed. -/
  | udpAssociate
  /-- The HTTP handler takes over. -/
  | http
  /-- The request was answered. -/
  | answered

def asReply : MessageError → Reply
  | .address (.ioError (.os 111)) => .connectionRefused
  | .address (.addressTypeNotSupported _) => .addressTypeNotSupported
  | .unsupportedCommand _ => .commandNotSupported
  | .reply r => r
  | _ => .generalFailure

def Ending.answer (reply : MessageError → Bytes) (error : MessageError → HandlerError) : Ending → Ending
  | .unread e => .returned (reply e) (.error (error e))
  | e => e

def Ending.handshake : Ending → Ending
  | .unread (.address (.ioError .unexpectedEof)) => .returned [] (.ok ())
  | e => e.answer (fun _ => []) .message

section

variable {β : Prop} (auth : Socks5AuthConfig)

def rejected (text : String) : Ending := .returned (PasswdAuthResponse.bytes ⟨255⟩) (.error (.other text))

def checkCredentials (userName password : String) : ReadCode β Ending Unit :=
  if auth.passwd.checkUser userName password then send (PasswdAuthResponse.bytes ⟨0⟩)
  else fail (rejected ("Username/Password Authentication failed, user: " ++ userName ++ ", password: " ++ password))

def checkAuthPassword : ReadCode β Ending Unit := do
  let req ← (PasswdAuthRequest.readFrom .unread).onError
    (.answer (fun e => PasswdAuthResponse.bytes ⟨(asReply e).asU8⟩) .passwdRequest)
  match fromUtf8 req.uname, fromUtf8 req.passwd with
  | none, _ =>
    fail (rejected "Username/Password Authentication Initial request uname contains invalid characters")
  | some _, none =>
    fail (rejected "Username/Password Authentication Initial request passwd contains invalid characters")
  | some userName, some password => checkCredentials auth userName password

def checkAuth : Bytes → ReadCode β Ending Unit
  | [] => fail (.returned (HandshakeResponse.bytes ⟨authMethodNotAcceptable⟩)
      (.error (.other "currently shadowsocks-rust does not support authentication")))
  | method :: methods =>
    if method = authMethodPassword then do
      send (HandshakeResponse.bytes ⟨authMethodPassword⟩)
      checkAuthPassword auth
    else if method = authMethodNone then
      if auth.authRequired then checkAuth methods
      else send (HandshakeResponse.bytes ⟨authMethodNone⟩)
    else checkAuth methods

variable (mode : Mode) (udpAssociateAddr : Address) (peerAddr : SocketAddr)

def respond (h : TcpResponseHeader) : ReadCode β Ending Unit :=
  match (h.writeToBuf : Outcome Empty Bytes) with
  | .ok bytes => send bytes
  | _ => fail .panicked

def handleTcpConnect (target : Address) : ReadCode β Ending Action :=
  if mode.enableTcp then pure (.connect target)
  else do
    respond ⟨.commandNotSupported, target⟩
    pure .answered

def handleUdpAssociate (client : Address) : ReadCode β Ending Action :=
  if mode.enableUdp then do
    respond ⟨.succeeded, udpAssociateAddr⟩
    pure .udpAssociate
  else do
    respond ⟨.commandNotSupported, client⟩
    pure .answered

def handleCommand (header : TcpRequestHeader) : ReadCode β Ending Action :=
  match header.command with
  | .tcpConnect => handleTcpConnect mode header.address
  | .udpAssociate => handleUdpAssociate mode udpAssociateAddr header.address
  | .tcpBind => do
      respond ⟨.commandNotSupported, header.address⟩
      pure .answered

def handleRequest : ReadCode β Ending Action := do
  let header ← (TcpRequestHeader.readFrom .unread).onError
    (.answer (fun e => [version, (asReply e).asU8, 0x00] ++ (Address.socketAddress peerAddr).bytes) .message)
  handleCommand mode udpAssociateAddr header

def handleSocks5Client : ReadCode β Ending Action := do
  let handshakeReq ← (HandshakeRequest.readFrom .unread).onError .handshake
  checkAuth auth handshakeReq.methods
  handleRequest mode udpAssociateAddr peerAddr

def socksEof : Ending := .unread messageEof

end

def socks4Rejected : Bytes := [0x00, 91, 0x00, 0x00, 0x00, 0x00, 0x00, 0x00]

def handleSocks4Request (mode : Mode) : Except Socks4.Error Socks4.HandshakeRequest → Except Ending Action
  | .error e => .error (.returned [] (if e = Socks4.eofError then .ok () else .error (.socks4 e)))
  | .ok r =>
    if r.cd = .connect ∧ mode.enableTcp then .ok (.connect r.dst.toSocks5)
    else .error (.returned socks4Rejected (.ok ()))

structure Listener where
  mode : Mode
  users : List (String × String)
  udpAssociateAddr : Address

def Listener.auth (L : Listener) : Socks5AuthConfig := .load L.users

def httpLetters : Bytes := "GgHhPpDdCcOoTt".toList.map fun c => UInt8.ofNat c.toNat

def unlessAuthRequired (L : Listener) (text : String) (r : Option (Except Ending Action)) :
    Option (Except Ending Action) :=
  if L.auth.authRequired then some (.error (.returned [] (.error (.other text)))) else r

def handleTcpClient (L : Listener) (peerAddr : SocketAddr) (closed : Bool) (received : Bytes) :
    Option (Except Ending Action) :=
  match received with
  | [] => if closed then some (.error (.returned [] (.error .unexpectedEof))) else none
  | first :: _ =>
    if first = 0x04 then
      unlessAuthRequired L "SOCKS4 unsupported"
        ((((Socks4.HandshakeRequest.readFrom trivial : ReadCode True _ _).parse Socks4.eofError received).soFar
          closed).map (handleSocks4Request L.mode))
    else if first = 0x05 then
      ((handleSocks5Client L.auth L.mode L.udpAssociateAddr peerAddr : ReadCode False _ _).parse socksEof
        received).soFar closed
    else if first ∈ httpLetters then unlessAuthRequired L "HTTP unsupported" (some (.ok .http))
    else some (.error (.returned [] (.error (.other "unsupported socks version"))))

/-! ## 3. The listener -/

def maximumUdpPayloadSize : Nat := 65536

def udpRelay (data : Bytes) : Option (Address × Bytes) :=
  match ((UdpAssociateHeader.readFrom id : ReadCode False _ _).parse messageEof
      (data.take maximumUdpPayloadSize)).outcome with
  | .ok (header, payload) => if header.frag ≠ 0 then none else some (header.address, payload)
  | .error _ => none

structure Connection where
  peerAddr : SocketAddr
  received : Bytes
  (closed handled : Bool)

inductive Input where
  | accept (id : Nat) (peerAddr : SocketAddr)
  | segment (id : Nat) (bytes : Bytes)
  | close (id : Nat)
  /-- The task of a connection is polled. An HTTP handler connects to these targets. -/
  | poll (id : Nat) (targets : List Address)
  | datagram (peerAddr : SocketAddr) (data : Bytes)

inductive Output where
  | connect (id : Nat) (target : Address)
  | relay (peerAddr : SocketAddr) (target : Address) (payload : Bytes)
  deriving DecidableEq

abbrev State := Nat → Option Connection

def perform (id : Nat) (targets : List Address) : Except Ending Action → List Output
  | .ok (.connect target) => [.connect id target]
  | .ok .http => targets.map (.connect id)
  | _ => []

def goesOn : Except Ending Action → Bool
  | .ok .http => true
  | _ => false

def pollTask (L : Listener) (s : State) (id : Nat) (targets : List Address) (c : Connection) : State × List Output :=
  if c.handled then (s, [])
  else
    match handleTcpClient L c.peerAddr c.closed c.received with
    | none => (s, [])
    | some r => (Function.update s id (some { c with handled := !goesOn r }), perform id targets r)

def step (L : Listener) (s : State) : Input → State × List Output
  | .accept id peerAddr =>
    if L.mode.enableTcp ∧ s id = none then (Function.update s id (some ⟨peerAddr, [], false, false⟩), [])
    else (s, [])
  | .segment id bytes =>
    match s id with
    | none => (s, [])
    | some c =>
      if c.closed then (s, []) else (Function.update s id (some { c with received := c.received ++ bytes }), [])
  | .close id =>
    match s id with
    | none => (s, [])
    | some c => (Function.update s id (some { c with closed := true }), [])
  | .poll id targets =>
    match s id with
    | none => (s, [])
    | some c => pollTask L s id targets c
  | .datagram peerAddr data =>
    if L.mode.enableUdp then (s, (udpRelay data).toList.map fun x => .relay peerAddr x.1 x.2) else (s, [])

/-! ## 4. The negotiation -/

section

variable {β : Prop} {auth : Socks5AuthConfig} {methods X Y : Bytes}

theorem checkAuthPassword_done (h : (checkAuthPassword auth : ReadCode β _ _).parse socksEof X = .done () Y) :
    ∃ userName password, auth.passwd.checkUser userName password = true ∧
      (⟨utf8Bytes userName, utf8Bytes password⟩ : PasswdAuthRequest).Valid ∧
      X = PasswdAuthRequest.bytes ⟨utf8Bytes userName, utf8Bytes password⟩ ++ Y := by
  rw [checkAuthPassword, parse_bind_done] at h
  obtain ⟨req, X', hreq, h⟩ := h
  obtain ⟨hvalid, rfl⟩ := PasswdAuthRequest.exact _ (parse_onError_done.mp hreq)
  split at h
  · cases h
  · cases h
  rename_i userName password huser hpassword
  rw [checkCredentials] at h
  split at h
  · rename_i hcheck
    cases h
    obtain ⟨uname, passwd⟩ := req
    obtain rfl := utf8Bytes_of_fromUtf8 huser
    obtain rfl := utf8Bytes_of_fromUtf8 hpassword
    exact ⟨userName, password, hcheck, hvalid, rfl⟩
  · cases h

theorem checkAuth_done (hreq : auth.authRequired = true)
    (h : (checkAuth auth methods : ReadCode β _ _).parse socksEof X = .done () Y) :
    authMethodPassword ∈ methods ∧ (checkAuthPassword auth : ReadCode β _ _).parse socksEof X = .done () Y := by
  induction methods with
  | nil => cases h
  | cons method methods ih =>
    rw [checkAuth] at h
    split at h
    · rename_i hmethod
      exact ⟨hmethod ▸ mem_cons_self, h⟩
    · -- NONE is passed over like an unknown method
      rw [ite_self] at h
      obtain ⟨hmem, hpassword⟩ := ih h
      exact ⟨mem_cons_of_mem _ hmem, hpassword⟩

def NoneFirst (methods : Bytes) : Prop :=
  ∃ front rest, methods = front ++ authMethodNone :: rest ∧ authMethodPassword ∉ front

theorem checkAuth_none (hreq : ¬auth.authRequired = true) (h : NoneFirst methods) :
    (checkAuth auth methods : ReadCode β _ _) = send (HandshakeResponse.bytes ⟨authMethodNone⟩) := by
  obtain ⟨front, rest, rfl, hfront⟩ := h
  induction front with
  | nil => rw [nil_append, checkAuth, if_neg (by decide), if_pos rfl, if_neg hreq]
  | cons method front ih =>
    have hmethod : method ≠ authMethodPassword := Ne.symm (ne_of_not_mem_cons hfront)
    rw [cons_append, checkAuth, if_neg hmethod, if_neg hreq, ih (not_mem_of_not_mem_cons hfront), ite_self]

theorem checkAuth_password {front rest : Bytes} (hfront : authMethodNone ∉ front) :
    (checkAuth auth (front ++ authMethodPassword :: rest) : ReadCode β _ _) =
      (do send (HandshakeResponse.bytes ⟨authMethodPassword⟩); checkAuthPassword auth) := by
  induction front with
  | nil => rw [nil_append, checkAuth, if_pos rfl]
  | cons method front ih =>
    have hmethod : method ≠ authMethodNone := Ne.symm (ne_of_not_mem_cons hfront)
    rw [cons_append, checkAuth, if_neg hmethod, ih (not_mem_of_not_mem_cons hfront), ite_self]

theorem checkAuthPassword_strict : (checkAuthPassword auth : ReadCode β _ _).Strict := by
  refine ((PasswdAuthRequest.strict _).onError _).bind fun req => ?_
  split
  · exact strict_fail _
  · exact strict_fail _
  · rw [checkCredentials]
    split
    · exact strict_send _
    · exact strict_fail _

theorem checkAuth_strict (methods : Bytes) : (checkAuth auth methods : ReadCode β _ _).Strict := by
  induction methods with
  | nil => exact strict_fail _
  | cons method methods ih =>
    rw [checkAuth]
    split
    · exact (strict_send _).bind fun _ => checkAuthPassword_strict
    split
    · split
      · exact ih
      · exact strict_send _
    · exact ih

theorem respond_strict (h : TcpResponseHeader) : (respond h : ReadCode β _ _).Strict := by
  rw [respond]
  split
  · exact strict_send _
  · exact strict_fail _

theorem handleCommand_strict (mode : Mode) (udpAssociateAddr : Address) (header : TcpRequestHeader) :
    (handleCommand mode udpAssociateAddr header : ReadCode β _ _).Strict := by
  have hanswer : ∀ (h : TcpResponseHeader) (a : Action), (do respond h; pure a : ReadCode β Ending Action).Strict :=
    fun h a => (respond_strict h).bind fun _ => strict_pure a
  rw [handleCommand]
  split
  · rw [handleTcpConnect]
    split
    · exact strict_pure _
    · exact hanswer _ _
  · rw [handleUdpAssociate]
    split
    · exact hanswer _ _
    · exact hanswer _ _
  · exact hanswer _ _

theorem handleSocks5Client_strict (mode : Mode) (udpAssociateAddr : Address) (peerAddr : SocketAddr) :
    (handleSocks5Client auth mode udpAssociateAddr peerAddr : ReadCode β _ _).Strict :=
  ((HandshakeRequest.strict _).onError _).bind fun r => (checkAuth_strict r.methods).bind fun _ =>
    ((TcpRequestHeader.strict _).onError _).bind fun header => handleCommand_strict mode udpAssociateAddr header

end

/-! ## 5. One client -/

def Presents (X : Bytes) (userName password : String) : Prop :=
  ∃ (n : UInt8) (methods rest : Bytes), methods.length = n.toNat ∧ authMethodPassword ∈ methods ∧
    (⟨utf8Bytes userName, utf8Bytes password⟩ : PasswdAuthRequest).Valid ∧
    X = [version, n] ++ methods ++ (PasswdAuthRequest.bytes ⟨utf8Bytes userName, utf8Bytes password⟩ ++ rest)

section

variable {L : Listener} {peerAddr : SocketAddr}

theorem authRequired_iff : L.auth.authRequired = true ↔ L.users ≠ [] := authRequired_load L.users

theorem unlessAuthRequired_of_users (h : L.users ≠ []) (text : String) (r : Option (Except Ending Action)) :
    unlessAuthRequired L text r = some (.error (.returned [] (.error (.other text)))) :=
  if_pos (authRequired_iff.mpr h)

theorem presents_of_action (husers : L.users ≠ []) {closed : Bool} {X : Bytes} {action : Action}
    (h : handleTcpClient L peerAddr closed X = some (.ok action)) : ∃ user ∈ L.users, Presents X user.1 user.2 := by
  cases X with
  | nil =>
    rw [handleTcpClient] at h
    split at h <;> cases h
  | cons first X =>
    rw [handleTcpClient, unlessAuthRequired_of_users husers, unlessAuthRequired_of_users husers] at h
    split at h
    · cases h
    split at h
    · obtain ⟨rest, hdone⟩ := (handleSocks5Client_strict _ _ _).soFar h
      rw [handleSocks5Client, parse_bind_done] at hdone
      obtain ⟨r, X', hr, hdone⟩ := hdone
      obtain ⟨n, hn, hX⟩ := HandshakeRequest.exact _ (parse_onError_done.mp hr)
      rw [parse_bind_done] at hdone
      obtain ⟨_, X'', hauth, -⟩ := hdone
      obtain ⟨hmethod, hpassword⟩ := checkAuth_done (authRequired_iff.mpr husers) hauth
      obtain ⟨userName, password, hcheck, hvalid, hX'⟩ := checkAuthPassword_done hpassword
      exact ⟨(userName, password), mem_of_checkUser hcheck, n, r.methods, X'', hn, hmethod, hvalid, hX' ▸ hX⟩
    split at h
    · cases h
    · cases h

theorem handleTcpClient_append {X : Bytes} {r : Except Ending Action}
    (h : handleTcpClient L peerAddr false X = some r) (closed : Bool) (Y : Bytes) :
    handleTcpClient L peerAddr closed (X ++ Y) = some r := by
  cases X with
  | nil => cases h
  | cons first X =>
    -- the first byte decides on the protocol, and it is there
    rw [handleTcpClient] at h
    rw [cons_append, handleTcpClient, ← cons_append]
    split at h
    · rename_i hfirst
      rw [if_pos hfirst]
      rw [unlessAuthRequired] at h ⊢
      split at h <;> rename_i hreq
      · rwa [if_pos hreq]
      · obtain ⟨r', hr', hr⟩ := Option.map_eq_some_iff.mp h
        rw [if_neg hreq, soFar_append hr', ← hr]
        rfl
    rename_i hfirst
    rw [if_neg hfirst]
    split at h <;> rename_i hfive
    · rw [if_pos hfive]
      exact soFar_append h closed Y
    · rwa [if_neg hfive]

theorem handleTcpClient_socks5 (closed : Bool) (X : Bytes) : handleTcpClient L peerAddr closed (version :: X) =
      ((handleSocks5Client L.auth L.mode L.udpAssociateAddr peerAddr : ReadCode False _ _).parse socksEof
        (version :: X)).soFar closed := by
  rw [handleTcpClient, if_neg (by decide), if_pos (by decide)]

theorem connect_of_none (husers : L.users = []) (htcp : L.mode.enableTcp = true) {n : UInt8} {methods : Bytes}
    (hn : methods.length = n.toNat) (hnone : NoneFirst methods) {a : Address} (ha : a.Fits) (closed : Bool)
    (rest : Bytes) : handleTcpClient L peerAddr closed
        ([version, n] ++ methods ++ ([version, Command.tcpConnect.asU8, 0x00] ++ a.bytes ++ rest)) =
      some (.ok (.connect a.asRead)) := by
  have hreq : ¬L.auth.authRequired = true := fun h => authRequired_iff.mp h husers
  have hhandshake : Reads socksEof ((HandshakeRequest.readFrom .unread : ReadCode False _ _).onError .handshake)
      ([version, n] ++ methods) ⟨methods⟩ := (HandshakeRequest.reads .unread n hn).onError _
  have hauth : Reads socksEof (checkAuth L.auth methods : ReadCode False _ _) [] () := by
    rw [checkAuth_none hreq hnone]
    exact reads_send _
  have hheader : Reads socksEof (TcpRequestHeader.readFrom .unread : ReadCode False _ _)
      ([version, Command.tcpConnect.asU8, 0x00] ++ a.bytes) ⟨.tcpConnect, a.asRead⟩ :=
    TcpRequestHeader.reads Ending.unread (h := TcpRequestHeader.mk .tcpConnect a) ha
  have hcommand : (handleCommand L.mode L.udpAssociateAddr ⟨.tcpConnect, a.asRead⟩ : ReadCode False _ _) =
      pure (.connect a.asRead) := by
    rw [handleCommand, handleTcpConnect, if_pos htcp]
  have hrequest : Reads socksEof (handleRequest L.mode L.udpAssociateAddr peerAddr : ReadCode False _ _)
      ([version, Command.tcpConnect.asU8, 0x00] ++ a.bytes) (.connect a.asRead) :=
    (hheader.onError _).last hcommand
  have hreads : Reads socksEof (handleSocks5Client L.auth L.mode L.udpAssociateAddr peerAddr : ReadCode False _ _)
      ([version, n] ++ methods ++ ([] ++ ([version, Command.tcpConnect.asU8, 0x00] ++ a.bytes))) (.connect a.asRead) :=
    hhandshake.bind (hauth.bind hrequest)
  have hdone := hreads rest
  rw [nil_append, append_assoc] at hdone
  exact (handleTcpClient_socks5 closed _).trans (congrArg (Parsed.soFar closed) hdone)

theorem password_first_refused (husers : L.users = []) {n : UInt8} (front rest : Bytes)
    (hn : (front ++ authMethodPassword :: rest).length = n.toNat) (hfront : authMethodNone ∉ front) (closed : Bool)
    (X : Bytes) (action : Action) :
    handleTcpClient L peerAddr closed ([version, n] ++ (front ++ authMethodPassword :: rest) ++ X) ≠
      some (.ok action) := by
  intro h
  have hhandshake : Reads socksEof ((HandshakeRequest.readFrom .unread : ReadCode False _ _).onError .handshake)
      ([version, n] ++ (front ++ authMethodPassword :: rest)) ⟨front ++ authMethodPassword :: rest⟩ :=
    (HandshakeRequest.reads .unread n hn).onError _
  obtain ⟨_, hdone⟩ := (handleSocks5Client_strict _ _ _).soFar ((handleTcpClient_socks5 closed _).symm.trans h)
  rw [handleSocks5Client, parse_bind_done] at hdone
  obtain ⟨r, X', hr, hdone⟩ := hdone
  cases (hhandshake X).symm.trans hr
  rw [parse_bind_done] at hdone
  obtain ⟨_, X', hauth, -⟩ := hdone
  rw [checkAuth_password hfront] at hauth
  obtain ⟨userName, password, hcheck, -, -⟩ := checkAuthPassword_done hauth
  have hmem : (userName, password) ∈ L.users := mem_of_checkUser hcheck
  rw [husers] at hmem
  cases hmem

end

/-! ## 6. Runs -/

def Connection.result (L : Listener) (c : Connection) : Option (Except Ending Action) :=
  handleTcpClient L c.peerAddr c.closed c.received

/-- **State and log belong together**: a handler has done what it came to, and opened its client's connections. -/
structure Consistent (L : Listener) (s : State) (log : List Output) : Prop where
  tcp : ∀ id c, s id = some c → L.mode.enableTcp = true
  handled : ∀ id c, s id = some c → c.handled = true →
    ∃ r, c.result L = some r ∧ ∀ target, r = .ok (.connect target) → .connect id target ∈ log
  connects : ∀ id target, .connect id target ∈ log → ∃ c action, s id = some c ∧ c.result L = some (.ok action)

section

variable {L : Listener} {s : State} {log : List Output} {id : Nat} {c c' : Connection} {more : List Output}

theorem Consistent.update (h : Consistent L s log) (hs : s id = some c)
    (hresult : ∀ r, c.result L = some r → c'.result L = some r)
    (hhandled : c'.handled = true → c.handled = true ∨
      ∃ r, c.result L = some r ∧ ∀ target, r = .ok (.connect target) → .connect id target ∈ more)
    (hmore : ∀ id' target, .connect id' target ∈ more → id' = id ∧ ∃ action, c.result L = some (.ok action)) :
    Consistent L (Function.update s id (some c')) (log ++ more) where
  tcp id' d hd := by
    by_cases hid : id' = id
    · exact h.tcp id c hs
    · rw [Function.update_of_ne hid] at hd
      exact h.tcp id' d hd
  handled id' d hd hh := by
    by_cases hid : id' = id
    · subst hid
      rw [Function.update_self] at hd
      cases hd
      rcases hhandled hh with hold | ⟨r, hr, hlog⟩
      · obtain ⟨r, hr, hlog⟩ := h.handled id' c hs hold
        exact ⟨r, hresult r hr, fun target ht => mem_append_left _ (hlog target ht)⟩
      · exact ⟨r, hresult r hr, fun target ht => mem_append_right _ (hlog target ht)⟩
    · rw [Function.update_of_ne hid] at hd
      obtain ⟨r, hr, hlog⟩ := h.handled id' d hd hh
      exact ⟨r, hr, fun target ht => mem_append_left _ (hlog target ht)⟩
  connects id' target hmem := by
    have hsource : ∃ d action, s id' = some d ∧ d.result L = some (.ok action) := by
      rcases mem_append.mp hmem with hold | hnew
      · exact h.connects id' target hold
      · obtain ⟨rfl, action, hr⟩ := hmore id' target hnew
        exact ⟨c, action, hs, hr⟩
    obtain ⟨d, action, hd, hr⟩ := hsource
    by_cases hid : id' = id
    · subst hid
      cases hs.symm.trans hd
      exact ⟨c', action, Function.update_self .., hresult _ hr⟩
    · exact ⟨d, action, by rw [Function.update_of_ne hid]; exact hd, hr⟩

theorem Consistent.accept (h : Consistent L s log) (htcp : L.mode.enableTcp = true) (hs : s id = none)
    (peerAddr : SocketAddr) : Consistent L (Function.update s id (some ⟨peerAddr, [], false, false⟩)) log where
  tcp _ _ _ := htcp
  handled id' d hd hh := by
    by_cases hid : id' = id
    · subst hid
      rw [Function.update_self] at hd
      cases hd
      cases hh
    · rw [Function.update_of_ne hid] at hd
      exact h.handled id' d hd hh
  connects id' target hmem := by
    obtain ⟨d, action, hd, hr⟩ := h.connects id' target hmem
    have hid : id' ≠ id := fun hid => by rw [hid, hs] at hd; cases hd
    exact ⟨d, action, by rw [Function.update_of_ne hid]; exact hd, hr⟩

theorem Consistent.relay (h : Consistent L s log)
    (hmore : ∀ id target, .connect id target ∉ more) : Consistent L s (log ++ more) where
  tcp := h.tcp
  handled id' d hd hh := by
    obtain ⟨r, hr, hlog⟩ := h.handled id' d hd hh
    exact ⟨r, hr, fun target ht => mem_append_left _ (hlog target ht)⟩
  connects id' target hmem := by
    rcases mem_append.mp hmem with hold | hnew
    · exact h.connects id' target hold
    · exact absurd hnew (hmore id' target)

variable {target : Address} {targets : List Address}

theorem perform_connect {r : Except Ending Action} {id' : Nat}
    (h : .connect id' target ∈ perform id targets r) : id' = id ∧ ∃ action, r = .ok action := by
  unfold perform at h
  split at h
  · rw [mem_singleton] at h
    cases h
    exact ⟨rfl, _, rfl⟩
  · obtain ⟨a, -, ha⟩ := mem_map.mp h
    cases ha
    exact ⟨rfl, _, rfl⟩
  · cases h

theorem Consistent.poll (h : Consistent L s log) (hs : s id = some c) (targets : List Address) :
    Consistent L (pollTask L s id targets c).1 (log ++ (pollTask L s id targets c).2) := by
  have hnothing : Consistent L s (log ++ []) := h.relay fun _ _ => not_mem_nil
  rw [pollTask]
  split
  · exact hnothing
  split
  · exact hnothing
  rename_i r hr
  have hkeeps : ∀ r', c.result L = some r' → Connection.result L { c with handled := !goesOn r } = some r' :=
    fun _ hr' => hr'
  refine h.update hs hkeeps (fun _ => .inr ⟨r, hr, fun target ht => ?_⟩) fun id' target hmem => ?_
  · rw [ht]
    exact mem_singleton.mpr rfl
  · obtain ⟨hid, action, hr'⟩ := perform_connect hmem
    exact ⟨hid, action, hr' ▸ hr⟩

theorem Consistent.step (h : Consistent L s log) (i : Input) :
    Consistent L (step L s i).1 (log ++ (step L s i).2) := by
  have hnothing : Consistent L s (log ++ []) := h.relay fun _ _ => not_mem_nil
  cases i with
  | accept id peerAddr =>
    rw [Socks.step]
    split
    · rename_i hnew
      rw [append_nil]
      exact h.accept hnew.1 hnew.2 peerAddr
    · exact hnothing
  | segment id bytes =>
    rw [Socks.step]
    split
    · exact hnothing
    rename_i c hs
    split
    · exact hnothing
    · rename_i hopen
      refine h.update hs (fun r hr => ?_) .inl nofun
      rw [Connection.result, Bool.eq_false_iff.mpr hopen] at hr
      exact handleTcpClient_append hr _ bytes
  | close id =>
    rw [Socks.step]
    split
    · exact hnothing
    rename_i c hs
    refine h.update hs (fun r hr => ?_) .inl nofun
    cases hclosed : c.closed with
    | true =>
      rwa [Connection.result, hclosed] at hr
    | false =>
      rw [Connection.result, hclosed] at hr
      have hlater := handleTcpClient_append hr true []
      rwa [append_nil] at hlater
  | poll id targets =>
    rw [Socks.step]
    split
    · exact hnothing
    · exact h.poll ‹_› targets
  | datagram peerAddr data =>
    rw [Socks.step]
    split
    · refine h.relay fun id target hmem => ?_
      obtain ⟨x, -, hx⟩ := mem_map.mp hmem
      cases hx
    · exact hnothing

def State.init : State := fun _ => none

def Listener.after (L : Listener) (is : List Input) : State × List Output := Lib.run (Socks.step L) .init is

theorem after_concat (L : Listener) (is : List Input) (i : Input) : L.after (is ++ [i]) =
      ((Socks.step L (L.after is).1 i).1, (L.after is).2 ++ (Socks.step L (L.after is).1 i).2) :=
  run_concat _ is i

theorem connects_from (L : Listener) (is : List Input) : Consistent L (L.after is).1 (L.after is).2 :=
  run_inv_always ⟨nofun, nofun, nofun⟩
    (fun _ _ i h => h.step i) is

variable {peerAddr : SocketAddr} {payload : Bytes}

theorem relay_not_polled :
    .relay peerAddr target payload ∉ (pollTask L s id targets c).2 := by
  intro h
  rw [pollTask] at h
  split at h
  · cases h
  split at h
  · cases h
  unfold perform at h
  split at h
  · cases mem_singleton.mp h
  · obtain ⟨_, -, he⟩ := mem_map.mp h
    cases he
  · cases h

theorem relay_of_step {i : Input} :
    .relay peerAddr target payload ∈ (Socks.step L s i).2 ↔
      L.mode.enableUdp = true ∧ ∃ data, i = .datagram peerAddr data ∧ udpRelay data = some (target, payload) := by
  cases i with
  | accept id peerAddr' | close id =>
    refine ⟨fun h => ?_, fun ⟨_, _, h, _⟩ => (by cases h)⟩
    rw [Socks.step] at h
    split at h <;> cases h
  | segment id bytes =>
    refine ⟨fun h => ?_, fun ⟨_, _, h, _⟩ => (by cases h)⟩
    rw [Socks.step] at h
    split at h
    · cases h
    · split at h <;> cases h
  | poll id targets =>
    refine ⟨fun h => ?_, fun ⟨_, _, h, _⟩ => (by cases h)⟩
    rw [Socks.step] at h
    split at h
    · cases h
    · exact absurd h relay_not_polled
  | datagram peerAddr' data =>
    rw [Socks.step]
    split <;> rename_i hudp
    · rw [mem_map]
      constructor
      · intro ⟨x, hx, he⟩
        cases he
        exact ⟨hudp, data, rfl, Option.mem_toList.mp hx⟩
      · intro ⟨_, data', he, hrelay⟩
        cases he
        exact ⟨(target, payload), Option.mem_toList.mpr hrelay, rfl⟩
    · exact ⟨fun h => (by cases h), fun h => absurd h.1 hudp⟩

theorem relays_from (L : Listener) (is : List Input) (peerAddr : SocketAddr) (target : Address) (payload : Bytes) :
    .relay peerAddr target payload ∈ (L.after is).2 ↔
      L.mode.enableUdp = true ∧ ∃ data, .datagram peerAddr data ∈ is ∧ udpRelay data = some (target, payload) := by
  induction is using reverseRecOn with
  | nil => exact ⟨fun h => (by cases h), fun ⟨_, _, h, _⟩ => (by cases h)⟩
  | append_singleton is i ih =>
    rw [after_concat, mem_append, ih, relay_of_step]
    constructor
    · rintro (⟨hudp, data, hmem, hrelay⟩ | ⟨hudp, data, rfl, hrelay⟩)
      · exact ⟨hudp, data, mem_append_left _ hmem, hrelay⟩
      · exact ⟨hudp, data, mem_append_right _ (mem_singleton.mpr rfl), hrelay⟩
    · intro ⟨hudp, data, hmem, hrelay⟩
      rcases mem_append.mp hmem with hold | hnew
      · exact .inl ⟨hudp, data, hold, hrelay⟩
      · exact .inr ⟨hudp, data, (mem_singleton.mp hnew).symm, hrelay⟩

theorem connect_of_poll (is : List Input) (hs : (L.after is).1 id = some c)
    (hresult : c.result L = some (.ok (.connect target))) (targets : List Address) :
    .connect id target ∈ (L.after (is ++ [.poll id targets])).2 := by
  rw [after_concat]
  cases hh : c.handled with
  | true =>
    obtain ⟨r, hr, hlog⟩ := (connects_from L is).handled id c hs hh
    cases hresult.symm.trans hr
    exact mem_append_left _ (hlog target rfl)
  | false =>
    refine mem_append_right _ ?_
    rw [Connection.result] at hresult
    simp only [Socks.step, hs, pollTask, hh, hresult]
    exact mem_singleton.mpr rfl

def Accepted (L : Listener) (is : List Input) (id : Nat) (methods rest : Bytes) : Prop :=
  (checkAuth L.auth methods : ReadCode False _ _) = send (HandshakeResponse.bytes ⟨authMethodNone⟩) ∧
    ∀ (target : Address) (more : Bytes), target.Fits →
      rest = [version, Command.tcpConnect.asU8, 0x00] ++ target.bytes ++ more →
        ∀ targets, .connect id target.asRead ∈ (L.after (is ++ [.poll id targets])).2

/-- **Authentication.** With users, each connection belongs to a client that presented one of them; datagrams are
relayed whoever sent them. Without, every client with NONE before every PASSWORD is accepted. -/
theorem socks_auth (L : Listener) (is : List Input) :
    (L.users ≠ [] → ∀ id target, .connect id target ∈ (L.after is).2 →
      ∃ c, (L.after is).1 id = some c ∧ ∃ user ∈ L.users, Presents c.received user.1 user.2) ∧
    (∀ peerAddr target payload, .relay peerAddr target payload ∈ (L.after is).2 ↔
      L.mode.enableUdp = true ∧ ∃ data, .datagram peerAddr data ∈ is ∧ udpRelay data = some (target, payload)) ∧
    (L.users = [] → ∀ id c (n : UInt8) (methods rest : Bytes), (L.after is).1 id = some c →
      c.received = [version, n] ++ methods ++ rest → methods.length = n.toNat → NoneFirst methods →
        Accepted L is id methods rest) := by
  refine ⟨fun husers id target hmem => ?_, relays_from L is, fun husers id c n methods rest hs hX hn hnone => ?_⟩
  · obtain ⟨c, action, hs, hr⟩ := (connects_from L is).connects id target hmem
    exact ⟨c, hs, presents_of_action husers hr⟩
  · have hreq : ¬L.auth.authRequired = true := fun h => authRequired_iff.mp h husers
    refine ⟨checkAuth_none hreq hnone, fun target more hfits hrest targets => connect_of_poll is hs ?_ targets⟩
    rw [Connection.result, hX, hrest]
    exact connect_of_none husers ((connects_from L is).tcp id c hs) hn hnone hfits _ _

end

def localhost (port : UInt16) : SocketAddr := .v4 ⟨0x7f000001, port⟩

def sampleListener (users : List (String × String)) : Listener :=
  ⟨.tcpAndUdp, users, .socketAddress (localhost 1080)⟩

def sampleClient (bytes : Bytes) : List Input :=
  [.accept 0 (localhost 4000), .segment 0 bytes, .poll 0 []]

def sampleRequest : Bytes := [5, 1, 0, 1, 127, 0, 0, 1, 0, 80]

/-- A client that presents `u` with `p` gets its connection. -/
theorem socks_auth_user : .connect 0 (.socketAddress (localhost 80)) ∈
        ((sampleListener [("u", "p")]).after (sampleClient ([5, 1, 2] ++ [1, 1, 117, 1, 112] ++ sampleRequest))).2 ∧
      ∃ c, ((sampleListener [("u", "p")]).after
          (sampleClient ([5, 1, 2] ++ [1, 1, 117, 1, 112] ++ sampleRequest))).1 0 = some c ∧
        ∃ user ∈ [("u", "p")], Presents c.received user.1 user.2 := by
  have hmem : Output.connect 0 (.socketAddress (localhost 80)) ∈
      ((sampleListener [("u", "p")]).after
        (sampleClient ([5, 1, 2] ++ [1, 1, 117, 1, 112] ++ sampleRequest))).2 := by decide +kernel
  exact ⟨hmem, (socks_auth _ _).1 (by decide) 0 _ hmem⟩

/-- With a user, a datagram of an unconnected sender is relayed; without, PASSWORD before NONE is refused. -/
theorem socks_auth_gaps :
    ((sampleListener [("u", "p")]).after [.datagram (localhost 4000) [0, 0, 0, 1, 127, 0, 0, 1, 0, 53, 9]]).2 =
        [.relay (localhost 4000) (.socketAddress (localhost 53)) [9]] ∧
      authMethodNone ∈ [authMethodPassword, authMethodNone] ∧
      (∀ closed X action, handleTcpClient (sampleListener []) (localhost 4000) closed
        ([version, 2] ++ [authMethodPassword, authMethodNone] ++ X) ≠ some (.ok action)) ∧
      ((sampleListener []).after (sampleClient ([5, 2, 2, 0] ++ sampleRequest))).2 = [] := by
  refine ⟨by decide +kernel, by decide, fun closed X action => ?_, by decide +kernel⟩
  exact password_first_refused rfl [] [authMethodNone] rfl not_mem_nil closed X action

end Shadowsocks.Local.Socks
