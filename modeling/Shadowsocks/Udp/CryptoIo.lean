/-
  Subject:   THE UDP CODEC OF ALL METHODS (`crates/shadowsocks/src/relay/udprelay/crypto_io.rs`, and the choice of
  the key in `proxy_socket.rs`).
-/
import Shadowsocks.Udp.Aead2022

namespace Shadowsocks.Udp

open Lib Outcome
open Tcp.V1 (AeadMethod)

inductive CipherKind where
  | none
  | stream (M : StreamMethod)
  | aead (M : AeadMethod)
  | aead2022 (M : Aead2022.Method)

inductive ProtocolError where
  | invalidAddress (e : Socks5.Error)
  | streamError (e : StreamError)
  | aeadError (e : AeadError)
  | aead2022Error (e : Aead2022.ProtocolError)
  deriving DecidableEq

def CipherKind.Env : CipherKind → Type
  | .none => Unit
  | .stream M => { iv : Bytes // iv.length = M.ivLen }
  | .aead M => { salt : Bytes // salt.length = M.saltLen }
  | .aead2022 M => Aead2022.PacketEnv M

variable {ε : Type}

def encryptPayloadNone (addr : Address) (payload : Bytes) : Outcome ε Bytes := do
  let bytes ← addr.writeToBuf
  return bytes ++ payload

def encryptClientPayload : (K : CipherKind) → K.Env → Bytes → Address → UdpSocketControlData →
    List Bytes → Bytes → Outcome ε Bytes
  | .none, _, _, addr, _, _, payload => encryptPayloadNone addr payload
  | .stream M, iv, key, addr, _, _, payload => encryptPayloadStream M iv.1 key addr payload
  | .aead M, salt, key, addr, _, _, payload => encryptPayloadAead M salt.1 key addr payload
  | .aead2022 M, env, key, addr, control, identityKeys, payload =>
    Aead2022.encryptClientPayload M env key addr control identityKeys payload

def encryptServerPayload : (K : CipherKind) → K.Env → Bytes → Address → UdpSocketControlData → Bytes → Outcome ε Bytes
  | .none, _, _, addr, _, payload => encryptPayloadNone addr payload
  | .stream M, iv, key, addr, _, payload => encryptPayloadStream M iv.1 key addr payload
  | .aead M, salt, key, addr, _, payload => encryptPayloadAead M salt.1 key addr payload
  | .aead2022 M, env, key, addr, control, payload =>
    Aead2022.encryptServerPayload M env key addr control payload

def plainPacket (x : Bytes × Address) : Bytes × Address × Option UdpSocketControlData := (x.1, x.2, none)

def sessionPacket (x : Bytes × Address × UdpSocketControlData) :
    Bytes × Address × Option UdpSocketControlData := (x.1, x.2.1, some x.2.2)

variable (K : CipherKind)

variable (now : UInt64) (key payload : Bytes)

def decryptClientPayload
    (users : Option ServerUserManager) :
    Outcome ProtocolError (Bytes × Address × Option UdpSocketControlData) :=
  match K with
  | .none => (unpack .invalidAddress [] payload []).map plainPacket
  | .stream M => ((decryptPayloadStream M key payload).mapErr .streamError).map plainPacket
  | .aead M => ((decryptPayloadAead M key payload).mapErr .aeadError).map plainPacket
  | .aead2022 M =>
    ((Aead2022.decryptClientPayload M now key payload users).mapErr .aead2022Error).map sessionPacket

def decryptServerPayload :
    Outcome ProtocolError (Bytes × Address × Option UdpSocketControlData) :=
  match K with
  | .none => (unpack .invalidAddress [] payload []).map plainPacket
  | .stream M => ((decryptPayloadStream M key payload).mapErr .streamError).map plainPacket
  | .aead M => ((decryptPayloadAead M key payload).mapErr .aeadError).map plainPacket
  | .aead2022 M =>
    ((Aead2022.decryptServerPayload M now key payload).mapErr .aead2022Error).map sessionPacket

def serverKeyFor (key : Bytes) (control : UdpSocketControlData) : Bytes :=
  match control.user with
  | some user => user.key
  | none => key

/-! ## 1. Round trip -/

def CipherKind.Inverts : CipherKind → Prop
  | .none => True
  | .stream M => M.Inverts
  | .aead M => M.aead.Inverts
  | .aead2022 M => M.Inverts

def CipherKind.Agree (key : Bytes) (identityKeys : List Bytes) (serverKey : Bytes)
    (users : Option ServerUserManager) (user : Option ServerUser) : Prop :=
  match K with
  | .aead2022 M => Aead2022.Agree M key identityKeys serverKey users user
  | _ => serverKey = key ∧ user = Option.none

def CipherKind.KeyFits (key : Bytes) : Prop :=
  match K with
  | .aead2022 M => key.length = M.kind.keyLen
  | _ => True

def CipherKind.InTime : (K : CipherKind) → K.Env → UInt64 → Prop
  | .aead2022 _, env, now => Aead2022.InTime now env.timestamp
  | _, _, _ => True

def CipherKind.received : CipherKind → UdpSocketControlData → Option UdpSocketControlData
  | .aead2022 _, control => some control
  | _, _ => Option.none

/-- **The round trip of a packet with the address `a`**: the other side reads payload, `a'` and control data. -/
structure RoundTrip (K : CipherKind) (key : Bytes) (identityKeys : List Bytes) (serverKey : Bytes)
    (users : Option ServerUserManager) (env : K.Env) (now : UInt64) (a a' : Address)
    (control atServer atClient : UdpSocketControlData) (payload : Bytes) : Prop where
  request : ∃ packet, encryptClientPayload (ε := Empty) K env key a control identityKeys payload = .ok packet ∧
    decryptClientPayload K now serverKey packet users = .ok (payload, a', K.received atServer)
  response : ∃ packet, encryptServerPayload (ε := Empty) K env (serverKeyFor serverKey control) a control
      payload = .ok packet ∧
    decryptServerPayload K now key packet = .ok (payload, a', K.received atClient)

theorem none_roundTrip {a : Address} (ha : a.Fits) (payload : Bytes) :
    ∃ packet, encryptPayloadNone (ε := ε) a payload = .ok packet ∧
      unpack (ε := ProtocolError) .invalidAddress [] packet [] = .ok (payload, a.asRead) := by
  refine ⟨a.bytes ++ payload, ?_, unpack_bytes _ _ _ _ ha⟩
  rw [encryptPayloadNone, Address.writeToBuf, if_pos ha, ok_bind, pure_eq]

variable {users : Option ServerUserManager} {identityKeys : List Bytes}

theorem serverKeyFor_agree {M : Aead2022.Method} {key serverKey : Bytes} {control : UdpSocketControlData}
    (h : Aead2022.Agree M key identityKeys serverKey users control.user) :
    serverKeyFor serverKey control = key := by
  unfold serverKeyFor
  generalize control.user = user at h
  cases h with
  | plain => rfl
  | user _ _ _ _ _ _ _ hsame => exact hsame

theorem CipherKind.Agree.server {K : CipherKind} {key serverKey : Bytes} {control : UdpSocketControlData}
    (h : K.Agree key identityKeys serverKey users control.user) : serverKeyFor serverKey control = key ∧ K.KeyFits key := by
  cases K with
  | none | stream M | aead M => exact ⟨by rw [serverKeyFor, h.2, h.1], trivial⟩
  | aead2022 M => exact ⟨serverKeyFor_agree h, Aead2022.Agree.keyLen h⟩

theorem responseRoundTrip {K : CipherKind} (hinv : K.Inverts) {key : Bytes} (hkey : K.KeyFits key) {a : Address} (ha : a.Fits)
    (control : UdpSocketControlData) (payload : Bytes) (env : K.Env) {now : UInt64} (htime : K.InTime env now) :
    ∃ packet, encryptServerPayload (ε := Empty) K env key a control payload = .ok packet ∧
      decryptServerPayload K now key packet = .ok (payload, a.asRead, K.received { control with user := none }) := by
  cases K with
  | none =>
    obtain ⟨packet, he, hd⟩ := none_roundTrip (ε := Empty) ha payload
    exact ⟨packet, he, congrArg (map plainPacket) hd⟩
  | stream M =>
    obtain ⟨packet, he, hd⟩ := stream_roundTrip (ε := Empty) hinv env.2 key ha payload
    exact ⟨packet, he, by rw [decryptServerPayload, hd]; rfl⟩
  | aead M =>
    obtain ⟨packet, he, hd⟩ := aead_roundTrip (ε := Empty) hinv env.2 key ha payload
    exact ⟨packet, he, by rw [decryptServerPayload, hd]; rfl⟩
  | aead2022 M =>
    obtain ⟨packet, he, hd⟩ := Aead2022.server_roundTrip (ε := Empty) hinv hkey ha control payload env htime
    exact ⟨packet, he, by rw [decryptServerPayload, hd]; rfl⟩

/-- **The codec round trip.** What either side encrypted the other decrypts: payload and address, without flow
information and scope, and the ids of AEAD-2022. -/
theorem codec_roundTrip (K : CipherKind) (hinv : K.Inverts) (key : Bytes) (identityKeys : List Bytes)
    (serverKey : Bytes) (users : Option ServerUserManager) (control : UdpSocketControlData)
    (hagree : K.Agree key identityKeys serverKey users control.user) (a : Address) (ha : a.Fits)
    (payload : Bytes) (env : K.Env) (now : UInt64) (htime : K.InTime env now) :
    RoundTrip K key identityKeys serverKey users env now a a.asRead control
      { control with serverSessionId := 0 } { control with user := none } payload := by
  obtain ⟨hserver, hfits⟩ := hagree.server
  refine ⟨?_, hserver ▸ responseRoundTrip hinv hfits ha control payload env htime⟩
  cases K with
  | none | stream M | aead M =>
    -- one function encrypts for both directions
    obtain ⟨rfl, -⟩ := hagree
    exact responseRoundTrip hinv hfits ha control payload env htime
  | aead2022 M =>
    obtain ⟨packet, he, hd⟩ := Aead2022.client_roundTrip (ε := Empty) hinv hagree ha control payload env htime
    exact ⟨packet, he, by rw [decryptClientPayload, hd]; rfl⟩

def taggedMethod : Aead2022.Method where
  kind := .blake3Aes128Gcm
  aead := .tagged
  newCipher key _ := Aead.byteSum key
  prim := .transparent

theorem taggedMethod_inverts : taggedMethod.Inverts :=
  ⟨PacketAead.tagged_inverts, fun _ _ _ => rfl, nofun⟩

def keyOf (b : UInt8) : Bytes := List.replicate 16 b

def someUser : ServerUser := .new .transparent "user" (keyOf 1)

def env₀ : Aead2022.PacketEnv taggedMethod := ⟨100, [], [], rfl, by decide⟩

def scopedAddress : Address := .socketAddress (.v6 ⟨1, 443, 0, 5⟩)

theorem codec_roundTrip_user :
    (CipherKind.aead2022 taggedMethod).Agree (keyOf 1) [keyOf 9] (keyOf 9) (some ⟨[someUser]⟩)
        (some someUser) ∧ scopedAddress.Fits ∧
      RoundTrip (.aead2022 taggedMethod) (keyOf 1) [keyOf 9] (keyOf 9) (some ⟨[someUser]⟩) env₀ 130
        scopedAddress scopedAddress.asRead ⟨3, 5, 1, some someUser⟩ ⟨3, 0, 1, some someUser⟩
        ⟨3, 5, 1, none⟩ [7, 8] := by
  have hagree : (CipherKind.aead2022 taggedMethod).Agree (keyOf 1) [keyOf 9] (keyOf 9)
      (some ⟨[someUser]⟩) (some someUser) := .user _ _ _ rfl rfl rfl rfl rfl
  exact ⟨hagree, trivial, codec_roundTrip (.aead2022 taggedMethod) taggedMethod_inverts (keyOf 1)
    [keyOf 9] (keyOf 9) (some ⟨[someUser]⟩) ⟨3, 5, 1, some someUser⟩ hagree scopedAddress trivial [7, 8]
    env₀ 130 (by decide : Aead2022.InTime 130 100)⟩

theorem RoundTrip.atServer {K : CipherKind} {key serverKey payload : Bytes}
    {env : K.Env} {now : UInt64} {a a' : Address} {control c c' : UdpSocketControlData}
    (h : RoundTrip K key identityKeys serverKey users env now a a' control c c' payload) :
    ((encryptClientPayload K env key a control identityKeys payload).mapErr Empty.elim >>= fun packet =>
      decryptClientPayload K now serverKey packet users) = .ok (payload, a', K.received c) := by
  obtain ⟨packet, he, hd⟩ := h.request
  rw [he, mapErr_ok, ok_bind, hd]

/-- **Not carried**: the scope of an address, a server session in a client's packet; and clocks 31
seconds apart refuse. -/
theorem codec_roundTrip_fails :
    ¬ RoundTrip .none [] [] [] none () 0 scopedAddress scopedAddress ⟨3, 5, 1, none⟩ ⟨3, 5, 1, none⟩
        ⟨3, 5, 1, none⟩ [7] ∧
      ¬ RoundTrip (.aead2022 taggedMethod) (keyOf 1) [] (keyOf 1) none env₀ 100 scopedAddress.asRead
        scopedAddress.asRead ⟨3, 5, 1, none⟩ ⟨3, 5, 1, none⟩ ⟨3, 5, 1, none⟩ [7] ∧
      ¬ RoundTrip (.aead2022 taggedMethod) (keyOf 1) [] (keyOf 1) none env₀ 131 scopedAddress.asRead
        scopedAddress.asRead ⟨3, 0, 1, none⟩ ⟨3, 0, 1, none⟩ ⟨3, 0, 1, none⟩ [7] := by
  refine ⟨fun h => ?_, fun h => ?_, fun h => ?_⟩ <;> have h := h.atServer <;> revert h <;> decide

/-! ## 2. Panics -/

def ClientPanics
    (users : Option ServerUserManager) : Prop :=
  match K with
  | .none => PortCut payload
  | .stream M => M.ivLen ≤ payload.length ∧
      ∃ p, M.decrypt key (payload.take M.ivLen) (payload.drop M.ivLen) = some p ∧ PortCut p
  | .aead M => M.saltLen ≤ payload.length ∧
      ∃ p, M.aead.decrypt (M.subkey key (payload.take M.saltLen)) 0 (payload.drop M.saltLen) = some p ∧ PortCut p
  | .aead2022 M => Aead2022.clientHeaderLen M users ≤ payload.length ∧
      ∃ user packet, Aead2022.decryptMessage M key payload users = .ok (user, packet) ∧
        Aead2022.HeaderOk Aead2022.clientSocketType now
          ((Aead2022.plain M packet).drop (16 + Aead2022.eihLen M users)) ∧
        PortCut (Aead2022.behindPadding
          ((Aead2022.plain M packet).drop (16 + Aead2022.eihLen M users + 9)))

def ServerPanics : Prop :=
  match K with
  | .aead2022 M => Aead2022.serverHeaderLen M ≤ payload.length ∧
      ∃ user packet, Aead2022.decryptMessage M key payload none = .ok (user, packet) ∧
        Aead2022.HeaderOk Aead2022.serverSocketType now ((Aead2022.plain M packet).drop 16) ∧
        ((Aead2022.plain M packet).length < 35 ∨ PortCut (Aead2022.behindPadding ((Aead2022.plain M packet).drop 33)))
  | K => ClientPanics K now key payload none

theorem decryptClientPayload_panic_iff (key : Bytes) (hkey : K.KeyFits key)
    (now : UInt64) (payload : Bytes) (users : Option ServerUserManager) :
    decryptClientPayload K now key payload users = .panic ↔ ClientPanics K now key payload users := by
  cases K with
  | none => exact map_panic_iff.trans (unpack_panic_iff _ _ _ _)
  | stream M =>
    exact map_panic_iff.trans (mapErr_panic_iff.trans (stream_panic_iff M key payload))
  | aead M =>
    exact map_panic_iff.trans (mapErr_panic_iff.trans (aead_panic_iff M key payload))
  | aead2022 M =>
    exact map_panic_iff.trans (mapErr_panic_iff.trans
      (Aead2022.client_panic_iff hkey now payload users))

theorem decryptServerPayload_panic_iff (key : Bytes) (hkey : K.KeyFits key) (now : UInt64) (payload : Bytes) :
    decryptServerPayload K now key payload = .panic ↔ ServerPanics K now key payload := by
  cases K with
  | none => exact decryptClientPayload_panic_iff .none key trivial now payload none
  | stream M => exact decryptClientPayload_panic_iff (.stream M) key trivial now payload none
  | aead M => exact decryptClientPayload_panic_iff (.aead M) key trivial now payload none
  | aead2022 M =>
    exact map_panic_iff.trans (mapErr_panic_iff.trans
      (Aead2022.server_panic_iff hkey now payload))

/-- **The datagrams that panic**: a decoder returns on all others. -/
theorem decrypt_panic_iff (K : CipherKind) (key : Bytes) (hkey : K.KeyFits key) (now : UInt64)
    (payload : Bytes) (users : Option ServerUserManager) :
    (decryptClientPayload K now key payload users = .panic ↔ ClientPanics K now key payload users) ∧
      (decryptServerPayload K now key payload = .panic ↔ ServerPanics K now key payload) :=
  ⟨decryptClientPayload_panic_iff K key hkey now payload users, decryptServerPayload_panic_iff K key hkey now payload⟩

def shortPacket : Bytes :=
  List.replicate 16 0 ++ ([1] ++ put64 100 ++ [0, 0]) ++ [16, 0]

theorem decrypt_panic_iff_tagged : (CipherKind.aead2022 taggedMethod).KeyFits (keyOf 1) ∧
      (decryptClientPayload (.aead2022 taggedMethod) 100 (keyOf 1) shortPacket none = .panic ↔
        ClientPanics (.aead2022 taggedMethod) 100 (keyOf 1) shortPacket none) ∧
      (decryptServerPayload (.aead2022 taggedMethod) 100 (keyOf 1) shortPacket = .panic ↔
        ServerPanics (.aead2022 taggedMethod) 100 (keyOf 1) shortPacket) :=
  ⟨rfl, decrypt_panic_iff (.aead2022 taggedMethod) (keyOf 1) rfl 100 shortPacket none⟩

/-- **Two bytes kill a server without a cipher**: an empty domain name without a port. -/
theorem decrypt_panics : decryptClientPayload .none 0 [] [3, 0] none = .panic ∧
      decryptServerPayload .none 0 [] [3, 0] = .panic ∧
      decryptServerPayload (.aead2022 taggedMethod) 100 (keyOf 1) shortPacket = .panic := by
  decide

end Shadowsocks.Udp
