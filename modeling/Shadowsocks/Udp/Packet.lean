/-
  Subject:   UDP PACKETS WITHOUT SESSIONS: the methods none, stream and AEAD
  (`relay/udprelay/{crypto_io,stream,aead}.rs`). The decoders work in place and end with a `copy_within` to the
  front.
-/
import Shadowsocks.Relay.Address
import Shadowsocks.Tcp.Aead

namespace Shadowsocks.Udp

open Lib List Outcome

/-! ## 1. Address and payload -/

def parsePacket (buf : Bytes) : Outcome Socks5.Error (Nat × Address) := do
  let (address, cur) ← Address.readCursor ⟨buf, 0⟩
  return (cur.pos, address)

section

variable {ε : Type} (wrap : Socks5.Error → ε)

def unpack (front data tail : Bytes) : Outcome ε (Bytes × Address) := do
  let (dn, addr) ← (parsePacket data).mapErr wrap
  let dataStart := front.length + dn
  let dataEnd := front.length + data.length
  let payload ← copyWithin dataStart dataEnd (front ++ (data ++ tail))
  return (payload.take (dataEnd - dataStart), addr)

def PortCut (buf : Bytes) : Prop :=
  ∃ len tail, buf = Socks5.addrTypeDomainName :: len :: tail ∧ len.toNat ≤ tail.length ∧ tail.length < len.toNat + 2

theorem parsePacket_panic_iff (buf : Bytes) : parsePacket buf = .panic ↔ PortCut buf := by
  rw [parsePacket, bind_panic_iff, readCursor_panic_iff]
  constructor
  · rintro (h | ⟨_, _, h⟩)
    · exact h
    · cases h
  · exact .inl

theorem parsePacket_le {buf : Bytes} {dn : Nat} {addr : Address} (h : parsePacket buf = .ok (dn, addr)) :
    dn ≤ buf.length := by
  obtain ⟨x, hx, h⟩ := bind_ok_iff.mp h
  cases h
  exact (readCursor_within hx).inside

theorem parsePacket_bytes {a : Address} (ha : a.Fits) (payload : Bytes) :
    parsePacket (a.bytes ++ payload) = .ok (a.bytes.length, a.asRead) := by
  rw [parsePacket, readCursor_bytes ha rfl, ok_bind]
  simp only [Cursor.advance, zero_add, Address.bytes_length, pure_eq]

theorem unpack_panic_iff (front data tail : Bytes) : unpack wrap front data tail = .panic ↔ PortCut data := by
  rw [unpack, bind_panic_iff, mapErr_panic_iff, parsePacket_panic_iff]
  refine ⟨?_, .inl⟩
  rintro (h | ⟨⟨dn, addr⟩, hp, h⟩)
  · exact h
  · have hle := parsePacket_le (mapErr_ok_iff.mp hp)
    simp only at h
    rw [copyWithin_ok (by omega) (by simp only [length_append]; omega)] at h
    cases h

theorem unpack_bytes (front payload tail : Bytes) {a : Address}
    (ha : a.Fits) : unpack wrap front (a.bytes ++ payload) tail = .ok (payload, a.asRead) := by
  have hbuf : front ++ (a.bytes ++ payload ++ tail) = (front ++ a.bytes) ++ (payload ++ tail) := by
    simp only [append_assoc]
  have hlen : front.length + (a.bytes ++ payload).length - (front.length + a.bytes.length) = payload.length := by
    rw [length_append]
    omega
  obtain ⟨rest, hcopy⟩ := copyWithin_append (ε := ε) (i := front.length + a.bytes.length)
    (j := front.length + (a.bytes ++ payload).length) (front ++ a.bytes) payload tail
    length_append.symm (by simp only [length_append]; omega)
  rw [unpack, parsePacket_bytes ha, mapErr_ok, ok_bind]
  simp only [hbuf, hcopy, ok_bind, hlen, take_left, pure_eq]

end

/-! ## 2. Stream ciphers -/

structure StreamMethod where
  ivLen : Nat
  encrypt : Bytes → Bytes → Bytes → Bytes
  decrypt : Bytes → Bytes → Bytes → Option Bytes
  decrypt_isSome : ∀ key iv c, (decrypt key iv c).isSome

variable (M : StreamMethod)

def StreamMethod.Inverts : Prop :=
  ∀ key iv p, M.decrypt key iv (M.encrypt key iv p) = some p

def StreamMethod.masked : StreamMethod where
  ivLen := 8
  encrypt key iv p := p.map (· ^^^ Aead.byteSum (key ++ iv))
  decrypt key iv c := some (c.map (· ^^^ Aead.byteSum (key ++ iv)))
  decrypt_isSome _ _ _ := rfl

theorem StreamMethod.masked_inverts : masked.Inverts := by
  intro key iv p
  simp only [masked, map_map, Function.comp_def, UInt8.xor_assoc, UInt8.xor_self, UInt8.xor_zero, map_id']

inductive StreamError where
  | packetTooShort (expected found : Nat)
  | invalidAddress (e : Socks5.Error)
  deriving DecidableEq

def encryptPayloadStream {ε : Type} (M : StreamMethod) (iv key : Bytes) (addr : Address)
    (payload : Bytes) : Outcome ε Bytes := do
  let bytes ← addr.writeToBuf
  return iv ++ M.encrypt key iv (bytes ++ payload)

def decryptPayloadStream (key payload : Bytes) :
    Outcome StreamError (Bytes × Address) := do
  let plen := payload.length
  if plen < M.ivLen then .err (.packetTooShort M.ivLen plen)
  else
    let (iv, data) ← splitAt M.ivLen payload
    match M.decrypt key iv data with
    | none => .panic
    | some data => unpack .invalidAddress iv data []

theorem stream_roundTrip {ε : Type} {M : StreamMethod} (hinv : M.Inverts) {iv : Bytes}
    (hiv : iv.length = M.ivLen) (key : Bytes) {a : Address} (ha : a.Fits) (payload : Bytes) :
    ∃ packet, encryptPayloadStream (ε := ε) M iv key a payload = .ok packet ∧
      decryptPayloadStream M key packet = .ok (payload, a.asRead) := by
  refine ⟨iv ++ M.encrypt key iv (a.bytes ++ payload), ?_, ?_⟩
  · rw [encryptPayloadStream, Address.writeToBuf, if_pos ha, ok_bind, pure_eq]
  · unfold decryptPayloadStream
    rw [if_neg (by rw [length_append]; omega), splitAt_append _ hiv, ok_bind]
    simp only [hinv key iv (a.bytes ++ payload)]
    exact unpack_bytes _ _ _ _ ha

theorem stream_panic_iff (key packet : Bytes) :
    decryptPayloadStream M key packet = .panic ↔ M.ivLen ≤ packet.length ∧
      ∃ p, M.decrypt key (packet.take M.ivLen) (packet.drop M.ivLen) = some p ∧ PortCut p := by
  unfold decryptPayloadStream
  by_cases hlen : packet.length < M.ivLen
  · rw [if_pos hlen]
    exact ⟨nofun, fun h => absurd h.1 (not_le.mpr hlen)⟩
  have hle := not_lt.mp hlen
  obtain ⟨p, hp⟩ := Option.isSome_iff_exists.mp
    (M.decrypt_isSome key (packet.take M.ivLen) (packet.drop M.ivLen))
  rw [if_neg hlen, splitAt_ok hle, ok_bind]
  simp only [hp, unpack_panic_iff, Option.some.injEq, exists_eq_left']
  exact ⟨fun h => ⟨hle, h⟩, And.right⟩

/-! ## 3. AEAD ciphers -/

inductive AeadError where
  | packetTooShortForSalt (expected found : Nat)
  | packetTooShortForTag (expected found : Nat)
  | invalidAddress (e : Socks5.Error)
  | decryptPayloadError
  deriving DecidableEq

open Tcp.V1 (AeadMethod)

def encryptPayloadAead {ε : Type} (M : AeadMethod) (salt key : Bytes) (addr : Address)
    (payload : Bytes) : Outcome ε Bytes := do
  let bytes ← addr.writeToBuf
  return salt ++ ((M.newCipher key salt).encryptPacket (bytes ++ payload)).1

def decryptPayloadAead (M : AeadMethod) (key payload : Bytes) : Outcome AeadError (Bytes × Address) := do
  let plen := payload.length
  if plen < M.saltLen then .err (.packetTooShortForSalt M.saltLen plen)
  else
    let (salt, data) ← splitAt M.saltLen payload
    if data.length < M.aead.tagLen then .err (.packetTooShortForTag M.aead.tagLen data.length)
    else
      match (M.newCipher key salt).decryptPacket data with
      | (false, _, _) => .err .decryptPayloadError
      | (true, data, _) =>
        -- the tag goes
        let (data, tag) ← splitAt (data.length - M.aead.tagLen) data
        unpack .invalidAddress salt data tag

theorem opened_length {A : Aead} {k : A.Sub} {n : Nat} {c p : Bytes} (h : A.decrypt k n c = some p) :
    (p ++ c.drop p.length).length - A.tagLen = p.length := by
  rw [length_append, length_drop, A.decrypt_length k n c p h]
  omega

theorem aead_roundTrip {ε : Type} {M : AeadMethod} (hinv : M.aead.Inverts) {salt : Bytes}
    (hsalt : salt.length = M.saltLen) (key : Bytes) {a : Address} (ha : a.Fits) (payload : Bytes) :
    ∃ packet, encryptPayloadAead (ε := ε) M salt key a payload = .ok packet ∧
      decryptPayloadAead M key packet = .ok (payload, a.asRead) := by
  refine ⟨salt ++ M.aead.encrypt (M.subkey key salt) 0 (a.bytes ++ payload), ?_, ?_⟩
  · rw [encryptPayloadAead, Address.writeToBuf, if_pos ha, ok_bind, pure_eq]
    rfl
  have hopen := Cipher.decryptPacket_some (c := M.newCipher key salt)
    (hinv (M.subkey key salt) 0 (a.bytes ++ payload))
  unfold decryptPayloadAead
  rw [if_neg (by rw [length_append]; omega), splitAt_append _ hsalt, ok_bind]
  simp only [M.aead.encrypt_length]
  rw [if_neg (by omega)]
  simp only [hopen]
  rw [splitAt_append _ (opened_length (hinv _ _ _)).symm, ok_bind]
  exact unpack_bytes _ _ _ _ ha

theorem aead_panic_iff (M : AeadMethod) (key packet : Bytes) :
    decryptPayloadAead M key packet = .panic ↔ M.saltLen ≤ packet.length ∧
      ∃ p, M.aead.decrypt (M.subkey key (packet.take M.saltLen)) 0 (packet.drop M.saltLen) = some p ∧ PortCut p := by
  unfold decryptPayloadAead
  by_cases hlen : packet.length < M.saltLen
  · rw [if_pos hlen]
    exact ⟨fun h => (by cases h), fun h => absurd h.1 (not_le.mpr hlen)⟩
  have hle := not_lt.mp hlen
  rw [if_neg hlen, splitAt_ok hle, ok_bind]
  simp only [AeadMethod.newCipher]
  generalize packet.drop M.saltLen = data
  generalize packet.take M.saltLen = salt
  cases hd : M.aead.decrypt (M.subkey key salt) 0 data with
  | none =>
    rw [Cipher.decryptPacket_none hd]
    refine ⟨fun h => ?_, fun h => by simp at h⟩
    split at h <;> cases h
  | some p =>
    have htag := M.aead.decrypt_length _ _ _ _ hd
    rw [Cipher.decryptPacket_some hd, if_neg (by omega)]
    simp only
    rw [splitAt_append _ (opened_length hd).symm, ok_bind]
    simp only [unpack_panic_iff, Option.some.injEq, exists_eq_left']
    exact ⟨fun h => ⟨hle, h⟩, And.right⟩

end Shadowsocks.Udp
