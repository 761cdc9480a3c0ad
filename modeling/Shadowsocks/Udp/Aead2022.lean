/-
  Subject:   UDP PACKETS OF AEAD-2022 (`relay/udprelay/{aead_2022,options}.rs`). With AES the session and packet ids
  are a block of their own and serve as the nonce; with ChaCha the nonce is prepended. `get_cipher` is taken to give
  the cipher of its arguments; see `Udp/CipherCache.lean`.
-/
import Shadowsocks.Tcp.Aead2022
import Shadowsocks.Udp.Packet

namespace Shadowsocks.Udp

open Lib List Outcome Cursor

structure UdpSocketControlData where
  (clientSessionId serverSessionId packetId : UInt64)
  user : Option ServerUser
  deriving DecidableEq

namespace Aead2022

structure Method where
  kind : Aead2022Kind
  aead : PacketAead
  newCipher : Bytes → UInt64 → aead.Sub
  prim : Primitives

structure Method.Inverts (M : Method) : Prop where
  aead : M.aead.Inverts
  prim : M.prim.Inverts
  sessionFree : methodSupportEih M.kind = false → ∀ key sid sid', M.newCipher key sid = M.newCipher key sid'

def nonceLen : Aead2022Kind → Nat
  | .blake3Aes128Gcm | .blake3Aes256Gcm => 0
  | .blake3Chacha20Poly1305 | .blake3Chacha8Poly1305 => 24

def clientSocketType : UInt8 := 0

def serverSocketType : UInt8 := 1

def serverPacketTimestampMaxDiff : UInt64 := 30

def maxPaddingSize : Nat := 900

inductive ProtocolError where
  | packetTooShort (expected found : Nat)
  | invalidAddress (e : Socks5.Error)
  | decryptPayloadError
  | invalidClientUser (userHash : Bytes)
  | invalidSocketType (expected found : UInt8)
  | invalidTimestamp (timestamp now : UInt64)
  deriving DecidableEq

structure PacketEnv (M : Method) where
  timestamp : UInt64
  (nonce padding : Bytes)
  nonce_length : nonce.length = nonceLen M.kind
  padding_length : padding.length ≤ maxPaddingSize

variable {M : Method} {ε : Type}

/-! ## 1. The layouts -/

def Method.aesKey (M : Method) (key : Bytes) : Outcome ε Bytes :=
  if key.length = M.kind.keyLen then .ok key else .panic

def xorBytes (a b : Bytes) : Bytes := zipWith (fun x y => x ^^^ y) a b

def encryptMessage (M : Method) (ipsk key packet : Bytes) (sessionId : UInt64) (eihLen : Nat) :
    Outcome ε Bytes :=
  match M.kind with
  | .blake3Chacha20Poly1305 | .blake3Chacha8Poly1305 => do
      let (nonce, message) ← splitAt (nonceLen M.kind) packet
      return nonce ++ M.aead.encrypt (M.newCipher key sessionId) nonce message
  | .blake3Aes128Gcm | .blake3Aes256Gcm => do
      let (packetHeader, message) ← splitAt 16 packet
      let nonce ← slice 4 16 packetHeader
      let (eih, message) ← splitAt eihLen message
      let ipsk ← M.aesKey ipsk
      return M.prim.aesEncrypt ipsk packetHeader ++ (eih ++ M.aead.encrypt (M.newCipher key sessionId) nonce message)

def openMessage (M : Method) (key : Bytes) (sessionId : UInt64) (nonce front message : Bytes)
    (user : Option ServerUser) : Outcome ProtocolError (Option ServerUser × Bytes) :=
  match M.aead.decryptPacket (M.newCipher key sessionId) nonce message with
  | none => .err .decryptPayloadError
  | some message => .ok (user, front ++ message)

def decryptMessageChacha (M : Method) (key packet : Bytes) :
    Outcome ProtocolError (Option ServerUser × Bytes) := do
  let (nonce, message) ← splitAt (nonceLen M.kind) packet
  -- these bytes are still encrypted; the cipher does not depend on them
  let sessionIdBuf ← slice 0 8 message
  openMessage M key (get64 sessionIdBuf) nonce nonce message none

def decryptMessageAes (M : Method) (key packet : Bytes) (users : Option ServerUserManager) :
    Outcome ProtocolError (Option ServerUser × Bytes) := do
  let (packetHeader, message) ← splitAt 16 packet
  let key ← M.aesKey key
  let packetHeader := M.prim.aesDecrypt key packetHeader
  let sessionIdBuf ← slice 0 8 packetHeader
  let sessionId := get64 sessionIdBuf
  let nonce ← slice 4 16 packetHeader
  match users with
  | none => openMessage M key sessionId nonce packetHeader message none
  | some userManager =>
    let (eih, message) ← splitAt 16 message
    let eih := xorBytes (M.prim.aesDecrypt key eih) packetHeader
    match userManager.getUserByHash eih with
    | none => .err (.invalidClientUser eih)
    | some user => openMessage M user.key sessionId nonce (packetHeader ++ eih) message (some user)

def decryptMessage (M : Method) (key packet : Bytes) (users : Option ServerUserManager) :
    Outcome ProtocolError (Option ServerUser × Bytes) :=
  match M.kind with
  | .blake3Chacha20Poly1305 | .blake3Chacha8Poly1305 => decryptMessageChacha M key packet
  | .blake3Aes128Gcm | .blake3Aes256Gcm => decryptMessageAes M key packet users

/-! ## 2. Encoders -/

variable (sessionId packetId : UInt64)

def ids : Bytes := put64 sessionId ++ put64 packetId

def PacketEnv.paddingFor (env : PacketEnv M) (payload : Bytes) : Bytes :=
  if payload = [] then env.padding else []

def makeEih (M : Method) (ipsk ipskn sessionIdPacketId : Bytes) : Outcome ε Bytes := do
  let ipsk ← M.aesKey ipsk
  return M.prim.aesEncrypt ipsk (xorBytes (M.prim.identityHash ipskn) sessionIdPacketId)

def identityHeaders (M : Method) (key sessionIdPacketId : Bytes) : List Bytes → Outcome ε Bytes
  | [] => return []
  | [ipsk] => makeEih M ipsk key sessionIdPacketId
  | ipsk :: ipsk' :: rest => do
      let eih ← makeEih M ipsk ipsk' sessionIdPacketId
      let eihs ← identityHeaders M key sessionIdPacketId (ipsk' :: rest)
      return eih ++ eihs

def encryptClientPayload (M : Method) (env : PacketEnv M) (key : Bytes) (addr : Address)
    (control : UdpSocketControlData) (identityKeys : List Bytes) (payload : Bytes) :
    Outcome ε Bytes := do
  let padding := env.paddingFor payload
  let requireEih := methodSupportEih M.kind && !identityKeys.isEmpty
  let ids := ids control.clientSessionId control.packetId
  let eih ← if requireEih then identityHeaders M key ids identityKeys else pure []
  let bytes ← addr.writeToBuf
  let dst := env.nonce ++ (ids ++ (eih ++ ([clientSocketType] ++ put64 env.timestamp ++
    (put16 (UInt16.ofNat padding.length) ++ (padding ++ (bytes ++ payload))))))
  encryptMessage M (identityKeys.headD key) key dst control.clientSessionId
    (if requireEih then identityKeys.length * 16 else 0)

def encryptServerPayload (M : Method) (env : PacketEnv M) (key : Bytes) (addr : Address)
    (control : UdpSocketControlData) (payload : Bytes) : Outcome ε Bytes := do
  let padding := env.paddingFor payload
  let ids := ids control.serverSessionId control.packetId
  let bytes ← addr.writeToBuf
  let dst := env.nonce ++ (ids ++ ([serverSocketType] ++ put64 env.timestamp ++ (put64 control.clientSessionId ++
      (put16 (UInt16.ofNat padding.length) ++ (padding ++ (bytes ++ payload))))))
  encryptMessage M key key dst control.serverSessionId 0

/-! ## 3. Decoders -/

variable (expected : UInt8)

def checkSocketType (now : UInt64) (cursor : Cursor) :
    Outcome ProtocolError Cursor := do
  let (socketType, cursor) ← cursor.getU8
  if socketType ≠ expected then .err (.invalidSocketType expected socketType)
  else
    let (timestamp, cursor) ← cursor.getU64
    if serverPacketTimestampMaxDiff < Tcp.V2.absDiff now timestamp then
      .err (.invalidTimestamp timestamp now)
    else return cursor

def readPayload (front : Nat) (payload data : Bytes) (cursor : Cursor) :
    Outcome ProtocolError (Bytes × Address) := do
  let (paddingSize, cursor) ← cursor.getU16
  let cursor := cursor.advance paddingSize.toNat
  let (addr, cursor) ← (Address.readCursor cursor).mapErr .invalidAddress
  let payloadStart := cursor.pos
  let payloadLen := data.length - payloadStart
  let payload ← copyWithin (front + payloadStart) (front + payloadStart + payloadLen) payload
  return (payload.take payloadLen, addr)

def eihLen (M : Method) (users : Option ServerUserManager) : Nat :=
  if methodSupportEih M.kind && users.isSome then 16 else 0

def clientHeaderLen (M : Method) (users : Option ServerUserManager) : Nat :=
  nonceLen M.kind + M.aead.tagLen + 8 + 8 + eihLen M users + 1 + 8 + 2

def readClientPacket (M : Method) (now : UInt64) (users : Option ServerUserManager)
    (user : Option ServerUser) (payload data : Bytes) :
    Outcome ProtocolError (Bytes × Address × UdpSocketControlData) := do
  let (clientSessionId, cursor) ← (mk data 0).getU64
  let (packetId, cursor) ← cursor.getU64
  let (_, cursor) ← cursor.take (eihLen M users)
  let cursor ← checkSocketType clientSocketType now cursor
  let (payload, addr) ← readPayload (nonceLen M.kind) payload data cursor
  return (payload, addr, ⟨clientSessionId, 0, packetId, user⟩)

def decryptClientPayload (M : Method) (now : UInt64) (key payload : Bytes)
    (users : Option ServerUserManager) :
    Outcome ProtocolError (Bytes × Address × UdpSocketControlData) := do
  if payload.length < clientHeaderLen M users then
    .err (.packetTooShort (clientHeaderLen M users) payload.length)
  else
    let (user, payload) ← decryptMessage M key payload users
    let data ← slice (nonceLen M.kind) (payload.length - M.aead.tagLen) payload
    readClientPacket M now users user payload data

def serverHeaderLen (M : Method) : Nat := nonceLen M.kind + M.aead.tagLen + 8 + 8 + 1 + 8 + 2

def readServerPacket (M : Method) (now : UInt64) (payload data : Bytes) :
    Outcome ProtocolError (Bytes × Address × UdpSocketControlData) := do
  let (serverSessionId, cursor) ← (mk data 0).getU64
  let (packetId, cursor) ← cursor.getU64
  let cursor ← checkSocketType serverSocketType now cursor
  let (clientSessionId, cursor) ← cursor.getU64
  let (payload, addr) ← readPayload (nonceLen M.kind) payload data cursor
  return (payload, addr, ⟨clientSessionId, serverSessionId, packetId, none⟩)

def decryptServerPayload (M : Method) (now : UInt64) (key payload : Bytes) :
    Outcome ProtocolError (Bytes × Address × UdpSocketControlData) := do
  if payload.length < serverHeaderLen M then
    .err (.packetTooShort (serverHeaderLen M) payload.length)
  else
    let (_, payload) ← decryptMessage M key payload none
    let data ← slice (nonceLen M.kind) (payload.length - M.aead.tagLen) payload
    readServerPacket M now payload data

/-! ## 4. The layouts invert -/

theorem xorBytes_self {a b : Bytes} (h : a.length = b.length) : xorBytes (xorBytes a b) b = a := by
  induction a generalizing b with
  | nil => rfl
  | cons x a ih =>
    cases b with
    | nil => cases h
    | cons y b =>
      have hx : (x ^^^ y) ^^^ y = x := by rw [UInt8.xor_assoc, UInt8.xor_self, UInt8.xor_zero]
      simp only [xorBytes, zipWith_cons_cons, hx] at ih ⊢
      rw [ih (by simpa using h)]

theorem xorBytes_length {a b : Bytes} (h : a.length = b.length) : (xorBytes a b).length = a.length := by
  rw [xorBytes, length_zipWith, h, Nat.min_self]

variable {key : Bytes}

theorem aesKey_ok (h : key.length = M.kind.keyLen) : (M.aesKey key : Outcome ε Bytes) = .ok key := if_pos h

theorem openMessage_encrypt (hinv : M.Inverts) (key : Bytes) (sessionId : UInt64)
    (nonce front body : Bytes) (user : Option ServerUser) :
    ∃ tag, tag.length = M.aead.tagLen ∧
      openMessage M key sessionId nonce front (M.aead.encrypt (M.newCipher key sessionId) nonce body)
        user = .ok (user, front ++ (body ++ tag)) := by
  refine ⟨(M.aead.encrypt (M.newCipher key sessionId) nonce body).drop body.length, ?_, ?_⟩
  · rw [length_drop, M.aead.encrypt_length]
    omega
  · rw [openMessage, PacketAead.decryptPacket, hinv.aead]
    rfl

theorem ids_length : (ids sessionId packetId).length = 16 := by
  rw [ids, length_append, put64_length, put64_length]

theorem ids_session :
    (slice 0 8 (ids sessionId packetId) : Outcome ε Bytes) = .ok (put64 sessionId) :=
  slice_append [] (put64 sessionId) (put64 packetId) rfl (by rw [put64_length]; rfl)

theorem ids_nonce :
    (slice 4 16 (ids sessionId packetId) : Outcome ε Bytes) = .ok ((ids sessionId packetId).drop 4) := by
  rw [slice_ok (by decide) (le_of_eq (ids_length _ _).symm), take_of_length_le (le_of_eq (ids_length _ _))]

section

variable (sessionId packetId : UInt64) (key : Bytes) {ipsk : Bytes} (eih body : Bytes)

theorem nonceLen_aes (haes : methodSupportEih M.kind = true) : nonceLen M.kind = 0 := by
  cases hkind : M.kind <;> simp [hkind, methodSupportEih, nonceLen] at haes ⊢

theorem decryptMessage_aes (haes : methodSupportEih M.kind = true) (packet : Bytes)
    (users : Option ServerUserManager) :
    decryptMessage M key packet users = decryptMessageAes M key packet users := by
  unfold decryptMessage
  cases hkind : M.kind <;> simp [hkind, methodSupportEih] at haes ⊢

theorem decryptMessage_chacha (hchacha : methodSupportEih M.kind = false) (packet : Bytes)
    (users : Option ServerUserManager) :
    decryptMessage M key packet users = decryptMessageChacha M key packet := by
  unfold decryptMessage
  cases hkind : M.kind <;> simp [hkind, methodSupportEih] at hchacha ⊢

theorem encryptMessage_aes (haes : methodSupportEih M.kind = true) (hipsk : ipsk.length = M.kind.keyLen) :
    (encryptMessage M ipsk key (ids sessionId packetId ++ (eih ++ body)) sessionId eih.length : Outcome ε Bytes) =
      .ok (M.prim.aesEncrypt ipsk (ids sessionId packetId) ++ (eih ++ M.aead.encrypt
        (M.newCipher key sessionId) ((ids sessionId packetId).drop 4) body)) := by
  have hsplit : (splitAt 16 (ids sessionId packetId ++ (eih ++ body)) : Outcome ε _) = _ :=
    splitAt_append _ (ids_length _ _)
  have heih : (splitAt eih.length (eih ++ body) : Outcome ε _) = _ := splitAt_append _ rfl
  unfold encryptMessage
  cases hkind : M.kind <;> simp only [hkind, methodSupportEih, Bool.false_eq_true] at haes <;>
    simp only [hsplit, ids_nonce, heih, aesKey_ok hipsk, ok_bind, pure_eq]

theorem decryptMessageAes_encrypt (hinv : M.Inverts) (hkey : key.length = M.kind.keyLen) :
    ∃ tag, tag.length = M.aead.tagLen ∧ decryptMessageAes M key (M.prim.aesEncrypt key (ids sessionId packetId) ++
        M.aead.encrypt (M.newCipher key sessionId) ((ids sessionId packetId).drop 4) body) none =
        .ok (none, ids sessionId packetId ++ (body ++ tag)) := by
  have hblock := M.prim.aesEncrypt_length key _ (ids_length sessionId packetId)
  obtain ⟨tag, htag, hopen⟩ := openMessage_encrypt hinv key sessionId
    ((ids sessionId packetId).drop 4) (ids sessionId packetId) body none
  refine ⟨tag, htag, ?_⟩
  rw [decryptMessageAes, splitAt_append _ hblock, ok_bind]
  simp only [aesKey_ok hkey, ok_bind, hinv.prim key _ (ids_length sessionId packetId),
    ids_session, ids_nonce, get64_put64, hopen]

theorem decryptMessageAes_user (hinv : M.Inverts) (hkey : ipsk.length = M.kind.keyLen)
    {users : ServerUserManager} {user : ServerUser}
    (huser : users.getUserByHash (M.prim.identityHash key) = some user) (hsame : user.key = key) :
    ∃ tag, tag.length = M.aead.tagLen ∧ decryptMessageAes M ipsk (M.prim.aesEncrypt ipsk (ids sessionId packetId) ++
        (M.prim.aesEncrypt ipsk (xorBytes (M.prim.identityHash key) (ids sessionId packetId)) ++
          M.aead.encrypt (M.newCipher key sessionId) ((ids sessionId packetId).drop 4) body))
        (some users) =
        .ok (some user, ids sessionId packetId ++ (M.prim.identityHash key ++ (body ++ tag))) := by
  have hblock := M.prim.aesEncrypt_length ipsk _ (ids_length sessionId packetId)
  have hhash : (M.prim.identityHash key).length = (ids sessionId packetId).length :=
    (M.prim.identityHash_length key).trans (ids_length _ _).symm
  have hxor : (xorBytes (M.prim.identityHash key) (ids sessionId packetId)).length = 16 :=
    (xorBytes_length hhash).trans (M.prim.identityHash_length key)
  obtain ⟨tag, htag, hopen⟩ := openMessage_encrypt hinv key sessionId
    ((ids sessionId packetId).drop 4) (ids sessionId packetId ++ M.prim.identityHash key) body
    (some user)
  refine ⟨tag, htag, ?_⟩
  rw [decryptMessageAes, splitAt_append _ hblock, ok_bind]
  simp only [aesKey_ok hkey, ok_bind, hinv.prim ipsk _ (ids_length sessionId packetId),
    ids_session, ids_nonce, get64_put64]
  rw [splitAt_append _ (M.prim.aesEncrypt_length ipsk _ hxor), ok_bind]
  simp only [hinv.prim ipsk _ hxor, xorBytes_self hhash, huser, hsame, hopen, append_assoc]

theorem encryptMessage_chacha (hchacha : methodSupportEih M.kind = false) {nonce : Bytes}
    (hnonce : nonce.length = nonceLen M.kind) (eihLen : Nat) :
    (encryptMessage M ipsk key (nonce ++ body) sessionId eihLen : Outcome ε Bytes) =
      .ok (nonce ++ M.aead.encrypt (M.newCipher key sessionId) nonce body) := by
  have hsplit : (splitAt (nonceLen M.kind) (nonce ++ body) : Outcome ε _) = _ :=
    splitAt_append _ hnonce
  unfold encryptMessage
  cases hkind : M.kind <;> simp only [hkind, methodSupportEih, Bool.true_eq_false] at hchacha hsplit <;>
    simp only [hsplit, ok_bind, pure_eq]

theorem decryptMessageChacha_encrypt (hinv : M.Inverts) (hchacha : methodSupportEih M.kind = false)
    {nonce : Bytes} (hnonce : nonce.length = nonceLen M.kind) (hbody : 16 ≤ body.length) :
    ∃ tag, tag.length = M.aead.tagLen ∧ decryptMessageChacha M key
        (nonce ++ M.aead.encrypt (M.newCipher key sessionId) nonce body) =
        .ok (none, nonce ++ (body ++ tag)) := by
  obtain ⟨tag, htag, hopen⟩ := openMessage_encrypt hinv key sessionId nonce nonce body none
  refine ⟨tag, htag, ?_⟩
  rw [decryptMessageChacha, splitAt_append _ hnonce, ok_bind]
  simp only
  rw [slice_ok (by omega) (by rw [M.aead.encrypt_length]; omega), ok_bind]
  rw [openMessage] at hopen ⊢
  rwa [hinv.sessionFree hchacha key _ sessionId]

end

inductive Agree (M : Method) (key : Bytes) :
    List Bytes → Bytes → Option ServerUserManager → Option ServerUser → Prop where
  | plain (hkey : key.length = M.kind.keyLen) : Agree M key [] key none none
  | user (ipsk : Bytes) (users : ServerUserManager) (user : ServerUser)
      (haes : methodSupportEih M.kind = true) (hkey : key.length = M.kind.keyLen)
      (hipsk : ipsk.length = M.kind.keyLen)
      (huser : users.getUserByHash (M.prim.identityHash key) = some user) (hsame : user.key = key) :
      Agree M key [ipsk] ipsk (some users) (some user)

variable {users : Option ServerUserManager} {identityKeys : List Bytes} {user : Option ServerUser}

variable {serverKey : Bytes}

theorem Agree.keyLen (h : Agree M key identityKeys serverKey users user) : key.length = M.kind.keyLen := by
  cases h with
  | plain hkey | user _ _ _ _ hkey => exact hkey

/-- **A packet that opens**: the decoder finds its user and, behind nonce, ids and identity header,
    the body. -/
structure Sealed (M : Method) (key : Bytes) (users : Option ServerUserManager)
    (user : Option ServerUser) (nonce : Bytes) (sessionId packetId : UInt64) (body packet : Bytes) :
    Prop where
  length : packet.length = nonce.length + (16 + (eihLen M users + (body.length + M.aead.tagLen)))
  opens : ∃ eih tag, eih.length = eihLen M users ∧ tag.length = M.aead.tagLen ∧ decryptMessage M key packet users =
      .ok (user, nonce ++ ((ids sessionId packetId ++ (eih ++ body)) ++ tag))

theorem eihLen_none (M : Method) : eihLen M none = 0 := by
  rw [eihLen, Option.isSome_none, Bool.and_false]
  rfl

theorem sealed_plain (hinv : M.Inverts) (hkey : key.length = M.kind.keyLen) (env : PacketEnv M)
    (sessionId packetId : UInt64) (body : Bytes) :
    ∃ packet, (encryptMessage M key key (env.nonce ++ (ids sessionId packetId ++ body)) sessionId 0 :
        Outcome ε Bytes) = .ok packet ∧
      Sealed M key none none env.nonce sessionId packetId body packet := by
  have heih : eihLen M none = 0 := eihLen_none M
  have hids := ids_length sessionId packetId
  cases haes : methodSupportEih M.kind with
  | true =>
    have hnonce : env.nonce = [] := by
      rw [← length_eq_zero_iff, env.nonce_length, nonceLen_aes haes]
    obtain ⟨tag, htag, hopen⟩ := decryptMessageAes_encrypt sessionId packetId key body hinv hkey
    rw [hnonce]
    refine ⟨_, encryptMessage_aes sessionId packetId key [] body haes hkey, ⟨?_, [], tag, ?_, htag, ?_⟩⟩
    · simp only [length_append, length_nil, M.aead.encrypt_length, M.prim.aesEncrypt_length _ _ hids]
      omega
    · rw [heih]; rfl
    · rw [decryptMessage_aes key haes]
      exact hopen
  | false =>
    obtain ⟨tag, htag, hopen⟩ := decryptMessageChacha_encrypt sessionId key
      (ids sessionId packetId ++ body) hinv haes env.nonce_length (by rw [length_append]; omega)
    refine ⟨_, encryptMessage_chacha sessionId key _ haes env.nonce_length 0, ⟨?_, [], tag, ?_, htag, ?_⟩⟩
    · simp only [length_append, M.aead.encrypt_length, hids]
      omega
    · rw [heih]; rfl
    · rw [decryptMessage_chacha key haes]
      exact hopen

theorem sealed_user (hinv : M.Inverts) {ipsk : Bytes} {users : ServerUserManager} {user : ServerUser}
    (haes : methodSupportEih M.kind = true) (hipsk : ipsk.length = M.kind.keyLen)
    (huser : users.getUserByHash (M.prim.identityHash key) = some user) (hsame : user.key = key) (env : PacketEnv M)
    (sessionId packetId : UInt64) (body : Bytes) :
    ∃ packet, (encryptMessage M ipsk key (env.nonce ++ (ids sessionId packetId ++
        (M.prim.aesEncrypt ipsk (xorBytes (M.prim.identityHash key) (ids sessionId packetId)) ++ body)))
        sessionId 16 : Outcome ε Bytes) = .ok packet ∧
      Sealed M ipsk (some users) (some user) env.nonce sessionId packetId body packet := by
  have heih : eihLen M (some users) = 16 := by rw [eihLen, haes]; rfl
  have hids := ids_length sessionId packetId
  have hhash := M.prim.identityHash_length key
  have hblock : (M.prim.aesEncrypt ipsk
      (xorBytes (M.prim.identityHash key) (ids sessionId packetId))).length = 16 :=
    M.prim.aesEncrypt_length _ _ ((xorBytes_length (hhash.trans hids.symm)).trans hhash)
  have hnonce : env.nonce = [] := by
    rw [← length_eq_zero_iff, env.nonce_length, nonceLen_aes haes]
  obtain ⟨tag, htag, hopen⟩ := decryptMessageAes_user sessionId packetId key body hinv hipsk huser hsame
  have henc := encryptMessage_aes (ε := ε) sessionId packetId key (M.prim.aesEncrypt ipsk
    (xorBytes (M.prim.identityHash key) (ids sessionId packetId))) body haes hipsk
  rw [hblock] at henc
  rw [hnonce]
  refine ⟨_, henc, ⟨?_, M.prim.identityHash key, tag, ?_, htag, ?_⟩⟩
  · simp only [length_append, length_nil, M.aead.encrypt_length, hblock, M.prim.aesEncrypt_length _ _ hids]
    omega
  · rw [heih, hhash]
  · rw [decryptMessage_aes ipsk haes, hopen]
    simp only [nil_append, append_assoc]

/-! ## 5. The decoders read back -/

def InTime (now sent : UInt64) : Prop := ¬ serverPacketTimestampMaxDiff < Tcp.V2.absDiff now sent

instance (now sent : UInt64) : Decidable (InTime now sent) := inferInstanceAs (Decidable (¬ _))

variable {now : UInt64} {c : Cursor}

theorem checkSocketType_ok {expected : UInt8} {sent : UInt64} {tail : Bytes}
    (h : c.rest = [expected] ++ put64 sent ++ tail) (htime : InTime now sent) :
    checkSocketType expected now c = .ok (c.advance 9) ∧ (c.advance 9).rest = tail := by
  obtain ⟨htype, hr⟩ := getU8_of_rest (ε := ProtocolError) h
  obtain ⟨hsent, hr⟩ := getU64_of_rest (ε := ProtocolError) hr
  rw [advance_advance] at hsent hr
  refine ⟨?_, hr⟩
  rw [checkSocketType, htype, ok_bind]
  simp only [ne_eq, not_true_eq_false, if_false]
  rw [hsent, ok_bind]
  rw [if_neg htime, pure_eq]

variable {front data tail : Bytes} {a : Address}

theorem readPayload_bytes {front data tail padding payload : Bytes} (ha : a.Fits)
    (hpad : padding.length ≤ maxPaddingSize) (hbuf : c.buf = data)
    (h : c.rest = put16 (UInt16.ofNat padding.length) ++ (padding ++ (a.bytes ++ payload))) :
    readPayload front.length (front ++ (data ++ tail)) data c = .ok (payload, a.asRead) := by
  have hpad' : padding.length < 65536 := lt_of_le_of_lt hpad (by decide)
  have hsize : (UInt16.ofNat padding.length).toNat = padding.length := by
    rw [UInt16.toNat_ofNat', Nat.mod_eq_of_lt hpad']
  obtain ⟨hn, hr⟩ := getU16_of_rest (ε := ProtocolError) h
  have hr' : ((c.advance 2).advance padding.length).rest = a.bytes ++ payload := by
    rw [rest_advance, hr, drop_left]
  have hpos : c.pos ≤ c.buf.length := by
    have := congrArg length h
    rw [rest, length_drop, length_append, put16_length] at this
    omega
  have hall : c.rest = (put16 (UInt16.ofNat padding.length) ++ (padding ++ a.bytes)) ++ payload := by
    rw [h]
    simp only [append_assoc]
  obtain ⟨pre, hdata, hlen⟩ := buf_of_rest hpos hall
  rw [hbuf] at hdata
  rw [readPayload, hn, ok_bind]
  simp only [hsize]
  rw [readCursor_bytes ha hr', mapErr_ok, ok_bind]
  have hend : (((c.advance 2).advance padding.length).advance a.serializedLen).pos = pre.length := by
    rw [hlen]
    simp only [advance, length_append, put16_length, Address.bytes_length]
    omega
  have hlong : front ++ (data ++ tail) = (front ++ pre) ++ (payload ++ tail) := by
    rw [hdata]
    simp only [append_assoc]
  have hrest : data.length - pre.length = payload.length := by
    rw [hdata, length_append]
    omega
  obtain ⟨rest, hcopy⟩ := copyWithin_append (ε := ProtocolError) (i := front.length + pre.length)
    (j := front.length + pre.length + payload.length) (front ++ pre) payload tail
    length_append.symm (by rw [length_append])
  simp only [hend, hrest, hlong, hcopy, ok_bind, take_left, pure_eq]

def clientBody (timestamp : UInt64) (padding : Bytes) (addr : Address) (payload : Bytes) : Bytes :=
  [clientSocketType] ++ put64 timestamp ++
    (put16 (UInt16.ofNat padding.length) ++ (padding ++ (addr.bytes ++ payload)))

def serverBody (timestamp clientSessionId : UInt64) (padding : Bytes) (addr : Address)
    (payload : Bytes) : Bytes :=
  [serverSocketType] ++ put64 timestamp ++ (put64 clientSessionId ++
    (put16 (UInt16.ofNat padding.length) ++ (padding ++ (addr.bytes ++ payload))))

section

variable {key nonce padding payload packet : Bytes} {users : Option ServerUserManager}
  {user : Option ServerUser} {sessionId packetId now timestamp : UInt64} {a : Address}

theorem decryptClientPayload_sealed (hnonce : nonce.length = nonceLen M.kind) (ha : a.Fits)
    (hpad : padding.length ≤ maxPaddingSize) (htime : InTime now timestamp)
    (h : Sealed M key users user nonce sessionId packetId (clientBody timestamp padding a payload) packet) :
    decryptClientPayload M now key packet users = .ok (payload, a.asRead, ⟨sessionId, 0, packetId, user⟩) := by
  obtain ⟨hlen, eih, tag, heih, htag, hopen⟩ := h
  have hbody : 11 ≤ (clientBody timestamp padding a payload).length := by
    simp only [clientBody, length_append, length_singleton, put64_length, put16_length]
    omega
  unfold decryptClientPayload
  rw [if_neg (by rw [hlen, clientHeaderLen, hnonce]; omega), hopen, ok_bind]
  simp only
  rw [slice_append nonce _ tag hnonce.symm (by simp only [length_append]; omega), ok_bind]
  generalize hdata : ids sessionId packetId ++ (eih ++ clientBody timestamp padding a payload) = data
  have hrest : (Cursor.mk data 0).rest = put64 sessionId ++ (put64 packetId ++
      (eih ++ clientBody timestamp padding a payload)) := by
    rw [← hdata, ids, append_assoc]
    rfl
  obtain ⟨hsid, hr⟩ := getU64_of_rest (ε := ProtocolError) hrest
  obtain ⟨hpid, hr⟩ := getU64_of_rest (ε := ProtocolError) hr
  obtain ⟨heih', hr⟩ := get_of_rest (ε := ProtocolError) hr heih id
  obtain ⟨hcheck, hr⟩ := checkSocketType_ok hr htime
  have hread : readPayload nonce.length (nonce ++ (data ++ tag)) data _ = _ :=
    readPayload_bytes ha hpad rfl hr
  simp only [readClientPacket, hsid, hpid, Cursor.take, heih', hcheck, ok_bind, ← hnonce, hread, pure_eq]

theorem decryptServerPayload_sealed {clientSessionId : UInt64} (hnonce : nonce.length = nonceLen M.kind)
    (ha : a.Fits) (hpad : padding.length ≤ maxPaddingSize) (htime : InTime now timestamp)
    (h : Sealed M key none none nonce sessionId packetId
      (serverBody timestamp clientSessionId padding a payload) packet) : decryptServerPayload M now key packet =
      .ok (payload, a.asRead, ⟨clientSessionId, sessionId, packetId, none⟩) := by
  obtain ⟨hlen, eih, tag, heih, htag, hopen⟩ := h
  have hbody : 19 ≤ (serverBody timestamp clientSessionId padding a payload).length := by
    simp only [serverBody, length_append, length_singleton, put64_length, put16_length]
    omega
  have hnil : eih = [] := by
    rw [← length_eq_zero_iff, heih, eihLen_none]
  subst hnil
  unfold decryptServerPayload
  rw [if_neg (by rw [hlen, serverHeaderLen, hnonce]; omega), hopen, ok_bind]
  simp only
  rw [slice_append nonce _ tag hnonce.symm (by simp only [length_append]; omega), ok_bind]
  generalize hdata : ids sessionId packetId ++ ([] ++ serverBody timestamp clientSessionId padding a payload) = data
  have hrest : (mk data 0).rest = put64 sessionId ++ (put64 packetId ++
      serverBody timestamp clientSessionId padding a payload) := by
    rw [← hdata, ids, append_assoc]
    rfl
  obtain ⟨hsid, hr⟩ := getU64_of_rest (ε := ProtocolError) hrest
  obtain ⟨hpid, hr⟩ := getU64_of_rest (ε := ProtocolError) hr
  obtain ⟨hcheck, hr⟩ := checkSocketType_ok hr htime
  obtain ⟨hcsid, hr⟩ := getU64_of_rest (ε := ProtocolError) hr
  have hread : readPayload nonce.length (nonce ++ (data ++ tag)) data _ = _ :=
    readPayload_bytes ha hpad rfl hr
  simp only [readServerPacket, hsid, hpid, hcheck, hcsid, ok_bind, ← hnonce, hread, pure_eq]

end

theorem paddingFor_length (env : PacketEnv M) (payload : Bytes) :
    (env.paddingFor payload).length ≤ maxPaddingSize := by
  unfold PacketEnv.paddingFor
  split
  · exact env.padding_length
  · exact zero_le

theorem client_roundTrip (hinv : M.Inverts) (hagree : Agree M key identityKeys serverKey users user) (ha : a.Fits)
    (control : UdpSocketControlData) (payload : Bytes) (env : PacketEnv M) (htime : InTime now env.timestamp) :
    ∃ packet, (encryptClientPayload M env key a control identityKeys payload : Outcome ε Bytes) = .ok packet ∧
      decryptClientPayload M now serverKey packet users =
        .ok (payload, a.asRead, ⟨control.clientSessionId, 0, control.packetId, user⟩) := by
  have hpad := paddingFor_length env payload
  unfold encryptClientPayload
  cases hagree with
  | plain hkey =>
    obtain ⟨packet, he, hs⟩ := sealed_plain (ε := ε) hinv hkey env control.clientSessionId
      control.packetId (clientBody env.timestamp (env.paddingFor payload) a payload)
    refine ⟨packet, ?_, decryptClientPayload_sealed env.nonce_length ha hpad htime hs⟩
    simp only [isEmpty_nil, Bool.not_true, Bool.and_false, Bool.false_eq_true, if_false,
      pure_eq, ok_bind, Address.writeToBuf, if_pos ha, headD_nil,
      nil_append]
    exact he
  | user ipsk users user haes hkey hipsk huser hsame =>
    obtain ⟨packet, he, hs⟩ := sealed_user (ε := ε) hinv haes hipsk huser hsame env
      control.clientSessionId control.packetId
      (clientBody env.timestamp (env.paddingFor payload) a payload)
    refine ⟨packet, ?_, decryptClientPayload_sealed env.nonce_length ha hpad htime hs⟩
    simp only [haes, isEmpty_cons, Bool.not_false, Bool.and_true, if_true, identityHeaders,
      makeEih, aesKey_ok hipsk, pure_eq, ok_bind, Address.writeToBuf, if_pos ha,
      headD_cons, length_singleton, one_mul]
    exact he

theorem server_roundTrip (hinv : M.Inverts) (hkey : key.length = M.kind.keyLen) (ha : a.Fits)
    (control : UdpSocketControlData) (payload : Bytes) (env : PacketEnv M) (htime : InTime now env.timestamp) :
    ∃ packet, (encryptServerPayload M env key a control payload : Outcome ε Bytes) = .ok packet ∧
      decryptServerPayload M now key packet =
        .ok (payload, a.asRead, ⟨control.clientSessionId, control.serverSessionId, control.packetId, none⟩) := by
  obtain ⟨packet, he, hs⟩ := sealed_plain (ε := ε) hinv hkey env control.serverSessionId
    control.packetId
    (serverBody env.timestamp control.clientSessionId (env.paddingFor payload) a payload)
  refine ⟨packet, ?_, decryptServerPayload_sealed env.nonce_length ha (paddingFor_length env payload) htime hs⟩
  unfold encryptServerPayload
  simp only [Address.writeToBuf, if_pos ha, ok_bind]
  exact he

/-! ## 6. When the decoders panic -/

theorem openMessage_total (key : Bytes) (sessionId : UInt64) (nonce front message : Bytes)
    (user : Option ServerUser) : openMessage M key sessionId nonce front message user ≠ .panic ∧
      ∀ x, openMessage M key sessionId nonce front message user = .ok x →
        x.2.length = front.length + message.length := by
  unfold openMessage PacketAead.decryptPacket
  cases hd : M.aead.decrypt (M.newCipher key sessionId) nonce message with
  | none => exact ⟨nofun, nofun⟩
  | some p =>
    have hlen := M.aead.decrypt_length _ _ _ _ hd
    refine ⟨nofun, ?_⟩
    rintro x ⟨⟩
    simp only [length_append, length_drop]
    omega

theorem decryptMessageAes_total {packet : Bytes} (hkey : key.length = M.kind.keyLen)
    (hlen : 16 + (if users.isSome then 16 else 0) ≤ packet.length) :
    decryptMessageAes M key packet users ≠ .panic ∧
      ∀ x, decryptMessageAes M key packet users = .ok x → x.2.length = packet.length := by
  have htake : (packet.take 16).length = 16 := by rw [length_take]; omega
  have hheader := M.prim.aesDecrypt_length key _ htake
  have hdrop : (packet.drop 16).length = packet.length - 16 := length_drop
  rw [decryptMessageAes, splitAt_ok (by omega), ok_bind]
  simp only [aesKey_ok hkey, ok_bind]
  rw [slice_ok (by omega) (by rw [hheader]; omega), slice_ok (by omega) (le_of_eq hheader.symm)]
  simp only [ok_bind]
  cases users with
  | none =>
    obtain ⟨hne, hok⟩ := openMessage_total (M := M) key _ _ (M.prim.aesDecrypt key (packet.take 16))
      (packet.drop 16) none
    refine ⟨hne, fun x hx => ?_⟩
    rw [hok x hx, hheader, hdrop]
    omega
  | some users =>
    simp only [Option.isSome_some, if_true] at hlen
    have heih : ((packet.drop 16).take 16).length = 16 := by rw [length_take, hdrop]; omega
    have hxor : (xorBytes (M.prim.aesDecrypt key ((packet.drop 16).take 16))
        (M.prim.aesDecrypt key (packet.take 16))).length = 16 := by
      rw [xorBytes_length] <;> simp only [M.prim.aesDecrypt_length key _ heih, hheader]
    simp only
    rw [splitAt_ok (by omega), ok_bind]
    split
    · exact ⟨nofun, nofun⟩
    rename_i user _
    obtain ⟨hne, hok⟩ := openMessage_total (M := M) user.key _ _ (M.prim.aesDecrypt key (packet.take 16) ++
      xorBytes (M.prim.aesDecrypt key ((packet.drop 16).take 16))
        (M.prim.aesDecrypt key (packet.take 16))) ((packet.drop 16).drop 16) (some user)
    refine ⟨hne, fun x hx => ?_⟩
    rw [hok x hx, length_append, hheader, hxor, length_drop, hdrop]
    omega

theorem decryptMessage_total (hkey : key.length = M.kind.keyLen) (packet : Bytes) (users : Option ServerUserManager)
    (hlen : nonceLen M.kind + 16 + eihLen M users ≤ packet.length) :
    decryptMessage M key packet users ≠ .panic ∧
      ∀ x, decryptMessage M key packet users = .ok x → x.2.length = packet.length := by
  cases haes : methodSupportEih M.kind with
  | true =>
    rw [decryptMessage_aes key haes]
    refine decryptMessageAes_total hkey ?_
    rw [eihLen, haes, Bool.true_and] at hlen
    omega
  | false =>
    rw [decryptMessage_chacha key haes]
    rw [decryptMessageChacha, splitAt_ok (by omega), ok_bind]
    simp only
    rw [slice_ok (by omega) (by rw [length_drop]; omega), ok_bind]
    obtain ⟨hne, hok⟩ := openMessage_total (M := M) key
      (get64 (((packet.drop (nonceLen M.kind)).take 8).drop 0)) (packet.take (nonceLen M.kind))
      (packet.take (nonceLen M.kind)) (packet.drop (nonceLen M.kind)) none
    refine ⟨hne, fun x hx => ?_⟩
    rw [hok x hx, length_take, length_drop]
    omega

def HeaderOk (now : UInt64) (header : Bytes) : Prop :=
  UInt8.ofNat (beNat (header.take 1)) = expected ∧ InTime now (get64 ((header.drop 1).take 8))

theorem checkSocketType_cases (now : UInt64) (h : 9 ≤ c.remaining) :
    (HeaderOk expected now c.rest ∧ checkSocketType expected now c = .ok (c.advance 9)) ∨
      (¬ HeaderOk expected now c.rest ∧ ∃ e, checkSocketType expected now c = .err e) := by
  rw [checkSocketType, getU8, get_ok (by omega), ok_bind]
  by_cases htype : UInt8.ofNat (beNat (c.rest.take 1)) = expected
  · simp only [htype, ne_eq, not_true_eq_false, if_false]
    rw [getU64, get_ok (by rw [remaining_advance]; omega), ok_bind]
    simp only [rest_advance, advance_advance]
    by_cases htime : InTime now (get64 ((c.rest.drop 1).take 8))
    · rw [if_neg htime]
      exact .inl ⟨⟨htype, htime⟩, rfl⟩
    · rw [if_pos (not_not.mp htime)]
      exact .inr ⟨fun h => htime h.2, _, rfl⟩
  · simp only [ne_eq, htype, not_false_eq_true, if_true]
    exact .inr ⟨fun h => htype h.1, _, rfl⟩

def behindPadding (rest : Bytes) : Bytes := rest.drop (2 + (get16 (rest.take 2)).toNat)

theorem readPayload_panic_iff (hbuf : c.buf = data) :
    readPayload front.length (front ++ (data ++ tail)) data c = .panic ↔
      c.remaining < 2 ∨ PortCut (behindPadding c.rest) := by
  unfold readPayload
  by_cases hshort : c.remaining < 2
  · rw [getU16, get_panic_iff.mpr hshort]
    exact ⟨fun _ => .inl hshort, fun _ => rfl⟩
  rw [getU16, get_ok (by omega), ok_bind]
  simp only [advance_advance]
  generalize hc : c.advance (2 + (get16 (c.rest.take 2)).toNat) = c'
  have hrest : c'.rest = behindPadding c.rest := by rw [← hc, rest_advance, behindPadding]
  have hbuf' : c'.buf = data := by rw [← hc]; exact hbuf
  rw [bind_panic_iff, mapErr_panic_iff, readCursor_panic_iff, hrest, or_iff_right hshort]
  refine ⟨?_, .inl⟩
  rintro (h | ⟨⟨addr, c''⟩, hread, h⟩)
  · exact h
  · have hin : c''.pos ≤ data.length :=
      hbuf' ▸ (readCursor_within (mapErr_ok_iff.mp hread)).inside
    rw [copyWithin_ok (by omega) (by simp only [length_append]; omega)] at h
    cases h

def plain (M : Method) (packet : Bytes) : Bytes :=
  (packet.take (packet.length - M.aead.tagLen)).drop (nonceLen M.kind)

theorem plain_split (packet : Bytes) (h : nonceLen M.kind + M.aead.tagLen ≤ packet.length) :
    (slice (nonceLen M.kind) (packet.length - M.aead.tagLen) packet : Outcome ε Bytes) = .ok (plain M packet) ∧
      (plain M packet).length = packet.length - M.aead.tagLen - nonceLen M.kind ∧
      ∃ front tail, front.length = nonceLen M.kind ∧ packet = front ++ (plain M packet ++ tail) := by
  refine ⟨slice_ok (by omega) (by omega), ?_, packet.take (nonceLen M.kind),
    packet.drop (packet.length - M.aead.tagLen), ?_, ?_⟩
  · rw [plain, length_drop, length_take]
    omega
  · rw [length_take]
    omega
  · have htake : packet.take (nonceLen M.kind) =
        (packet.take (packet.length - M.aead.tagLen)).take (nonceLen M.kind) := by
      rw [take_take, min_eq_left (by omega)]
    rw [plain, ← append_assoc, htake, take_append_drop, take_append_drop]

theorem readClientPacket_panic_iff (now : UInt64) (users : Option ServerUserManager)
    (user : Option ServerUser) (hfront : front.length = nonceLen M.kind)
    (hlen : 16 + eihLen M users + 11 ≤ data.length) :
    readClientPacket M now users user (front ++ (data ++ tail)) data = .panic ↔
      HeaderOk clientSocketType now (data.drop (16 + eihLen M users)) ∧
        PortCut (behindPadding (data.drop (16 + eihLen M users + 9))) := by
  have hrem : (Cursor.mk data 0).remaining = data.length := rfl
  rw [readClientPacket, Cursor.getU64, get_ok (by omega), ok_bind]
  simp only
  rw [Cursor.getU64, get_ok (by rw [remaining_advance]; omega), ok_bind]
  simp only [advance_advance]
  rw [Cursor.take, get_ok (by rw [remaining_advance]; omega), ok_bind]
  simp only [advance_advance]
  generalize hc : (Cursor.mk data 0).advance (8 + 8 + eihLen M users) = c
  have hrest : data.drop (16 + eihLen M users) = c.rest := by rw [← hc, rest_advance]; rfl
  have hnext : data.drop (16 + eihLen M users + 9) = (c.advance 9).rest := by
    rw [rest_advance, ← hrest, drop_drop]
  have hrem' : c.remaining = data.length - (16 + eihLen M users) := by
    rw [Cursor.remaining, ← hrest, length_drop]
  have hread : readPayload (nonceLen M.kind) (front ++ (data ++ tail)) data (c.advance 9) = .panic ↔
      PortCut (behindPadding (c.advance 9).rest) := by
    rw [← hfront, readPayload_panic_iff (by rw [← hc]; rfl), remaining_advance, or_iff_right (by omega)]
  rw [hnext, hrest]
  rcases checkSocketType_cases clientSocketType now (by omega : 9 ≤ c.remaining) with
    ⟨hheader, hcheck⟩ | ⟨hbad, e, hcheck⟩
  · rw [hcheck, ok_bind, bind_panic_iff, hread]
    exact ⟨fun h => ⟨hheader, h.resolve_right (by rintro ⟨_, _, h⟩; cases h)⟩, fun h => .inl h.2⟩
  · rw [hcheck]
    exact ⟨fun h => (by cases h), fun h => absurd h.1 hbad⟩

theorem readServerPacket_panic_iff (now : UInt64)
    (hfront : front.length = nonceLen M.kind) (hlen : 27 ≤ data.length) :
    readServerPacket M now (front ++ (data ++ tail)) data = .panic ↔ HeaderOk serverSocketType now (data.drop 16) ∧
        (data.length < 35 ∨ PortCut (behindPadding (data.drop 33))) := by
  have hrem : (mk data 0).remaining = data.length := rfl
  rw [readServerPacket, getU64, get_ok (by omega), ok_bind]
  simp only
  rw [getU64, get_ok (by rw [remaining_advance]; omega), ok_bind]
  simp only [advance_advance]
  generalize hc : (mk data 0).advance (8 + 8) = c
  have hrest : data.drop 16 = c.rest := by rw [← hc, rest_advance]; rfl
  have hnext : data.drop 33 = ((c.advance 9).advance 8).rest := by
    rw [rest_advance, rest_advance, ← hrest, drop_drop, drop_drop]
  have hrem' : c.remaining = data.length - 16 := by rw [remaining, ← hrest, length_drop]
  have hread : readPayload (nonceLen M.kind) (front ++ (data ++ tail)) data ((c.advance 9).advance 8) =
      .panic ↔ data.length < 35 ∨ PortCut (behindPadding ((c.advance 9).advance 8).rest) := by
    rw [← hfront, readPayload_panic_iff (by rw [← hc]; rfl), remaining_advance,
      remaining_advance, hrem']
    exact or_congr (by omega) Iff.rfl
  rw [hnext, hrest]
  rcases checkSocketType_cases serverSocketType now (by omega : 9 ≤ c.remaining) with
    ⟨hheader, hcheck⟩ | ⟨hbad, e, hcheck⟩
  · rw [hcheck, ok_bind, and_iff_right hheader]
    -- the client's session id is not covered by the length check
    by_cases hshort : data.length < 33
    · rw [getU64, get_panic_iff.mpr (by rw [remaining_advance]; omega)]
      exact ⟨fun _ => .inl (by omega), fun _ => rfl⟩
    · rw [getU64, get_ok (by rw [remaining_advance]; omega), ok_bind]
      rw [bind_panic_iff, hread]
      exact ⟨fun h => h.resolve_right (by rintro ⟨_, _, h⟩; cases h), .inl⟩
  · rw [hcheck]
    exact ⟨fun h => (by cases h), fun h => absurd h.1 hbad⟩

theorem opened_panic_iff {β : Type} (hkey : key.length = M.kind.keyLen) (payload : Bytes)
    (users : Option ServerUserManager) {headerLen : Nat} {e : ProtocolError}
    (hheader : nonceLen M.kind + M.aead.tagLen + 16 + eihLen M users ≤ headerLen)
    {f : Option ServerUser → Bytes → Bytes → Outcome ProtocolError β} {P : Bytes → Prop}
    (hf : ∀ user front data tail, front.length = nonceLen M.kind →
      headerLen ≤ nonceLen M.kind + M.aead.tagLen + data.length →
      (f user (front ++ (data ++ tail)) data = .panic ↔ P data)) :
    (if payload.length < headerLen then .err e else do
        let (user, payload) ← decryptMessage M key payload users
        let data ← slice (nonceLen M.kind) (payload.length - M.aead.tagLen) payload
        f user payload data) = .panic ↔
      headerLen ≤ payload.length ∧
        ∃ user packet, decryptMessage M key payload users = .ok (user, packet) ∧ P (plain M packet) := by
  by_cases hlen : payload.length < headerLen
  · rw [if_pos hlen]
    exact ⟨nofun, fun h => absurd h.1 (not_le.mpr hlen)⟩
  rw [if_neg hlen]
  have hle := not_lt.mp hlen
  obtain ⟨hne, hok⟩ := decryptMessage_total hkey payload users (by omega)
  cases hd : decryptMessage M key payload users with
  | panic => exact absurd hd hne
  | err e => exact ⟨nofun, nofun⟩
  | ok x =>
    obtain ⟨user, packet⟩ := x
    have hsame : packet.length = payload.length := hok _ hd
    obtain ⟨hslice, hplain, front, tail, hfront, hbuf⟩ := plain_split (M := M) (ε := ProtocolError)
      packet (by omega)
    have hiff := hf user front (plain M packet) tail hfront (by omega)
    rw [← hbuf] at hiff
    simp only [hslice, ok_bind, hiff, ok.injEq, Prod.mk.injEq]
    exact ⟨fun h => ⟨hle, user, packet, ⟨rfl, rfl⟩, h⟩, fun ⟨_, _, _, ⟨_, rfl⟩, h⟩ => h⟩

theorem client_panic_iff (hkey : key.length = M.kind.keyLen) (now : UInt64) (payload : Bytes)
    (users : Option ServerUserManager) :
    decryptClientPayload M now key payload users = .panic ↔ clientHeaderLen M users ≤ payload.length ∧
        ∃ user packet, decryptMessage M key payload users = .ok (user, packet) ∧
          HeaderOk clientSocketType now ((plain M packet).drop (16 + eihLen M users)) ∧
          PortCut (behindPadding ((plain M packet).drop (16 + eihLen M users + 9))) :=
  (opened_panic_iff hkey payload users (by rw [clientHeaderLen]; omega) fun user _ _ _ hfront hlen =>
    readClientPacket_panic_iff now users user hfront (by rw [clientHeaderLen] at hlen; omega)).trans Iff.rfl

theorem server_panic_iff (hkey : key.length = M.kind.keyLen) (now : UInt64) (payload : Bytes) :
    decryptServerPayload M now key payload = .panic ↔ serverHeaderLen M ≤ payload.length ∧
        ∃ user packet, decryptMessage M key payload none = .ok (user, packet) ∧
          HeaderOk serverSocketType now ((plain M packet).drop 16) ∧
          ((plain M packet).length < 35 ∨ PortCut (behindPadding ((plain M packet).drop 33))) :=
  (opened_panic_iff hkey payload none (by rw [serverHeaderLen, eihLen_none]; omega) fun _ _ _ _ hfront hlen =>
    readServerPacket_panic_iff now hfront (by rw [serverHeaderLen] at hlen; omega)).trans Iff.rfl

/-! ## 7. The timestamp of an accepted packet -/

def clientTimestamp (M : Method) (key payload : Bytes) (users : Option ServerUserManager) : UInt64 :=
  match decryptMessage M key payload users with
  | .ok (_, packet) => get64 (((plain M packet).drop (16 + eihLen M users + 1)).take 8)
  | _ => 0

theorem headerOk_of_checkSocketType {expected : UInt8} {c' : Cursor} (h : checkSocketType expected now c = .ok c') :
    HeaderOk expected now c.rest := by
  have hnine : 9 ≤ c.remaining := by
    obtain ⟨⟨socketType, c₁⟩, h₁, h⟩ := bind_ok_iff.mp h
    obtain ⟨hone, heq⟩ := get_ok_iff.mp h₁
    cases heq
    dsimp only at h
    split at h
    · cases h
    · obtain ⟨⟨timestamp, c₂⟩, h₂, -⟩ := bind_ok_iff.mp h
      have height := (get_ok_iff.mp h₂).1
      rw [remaining_advance] at height
      omega
  rcases checkSocketType_cases expected now hnine with ⟨hheader, -⟩ | ⟨-, e, herr⟩
  · exact hheader
  · rw [herr] at h
    cases h

theorem decryptClientPayload_inTime {payload : Bytes} {r : Bytes × Address × UdpSocketControlData}
    (h : decryptClientPayload M now key payload users = .ok r) :
    InTime now (clientTimestamp M key payload users) := by
  unfold decryptClientPayload at h
  split at h
  · cases h
  obtain ⟨⟨user, packet⟩, hopen, h⟩ := bind_ok_iff.mp h
  obtain ⟨data, hslice, h⟩ := bind_ok_iff.mp h
  have hdata : data = plain M packet := by
    unfold slice at hslice
    split at hslice
    · cases hslice
      rfl
    · cases hslice
  subst hdata
  obtain ⟨⟨id, c₁⟩, h₁, h⟩ := bind_ok_iff.mp h
  obtain ⟨⟨packetId, c₂⟩, h₂, h⟩ := bind_ok_iff.mp h
  obtain ⟨⟨eih, c₃⟩, h₃, h⟩ := bind_ok_iff.mp h
  obtain ⟨c₄, h₄, -⟩ := bind_ok_iff.mp h
  cases (get_ok_iff.mp h₁).2
  cases (get_ok_iff.mp h₂).2
  cases (get_ok_iff.mp h₃).2
  have hheader := (headerOk_of_checkSocketType h₄).2
  simp only [advance_advance, rest_advance] at hheader
  rw [clientTimestamp, hopen]
  rwa [drop_drop] at hheader

end Aead2022

end Shadowsocks.Udp
