/-
  Subject:   THE REQUEST HEADER OF AEAD-2022 AS A CODEC (`proxy_stream/protocol/v2.rs`). `read_from` and
  `serialized_len` have address, padding size and padding; `write_to_buf` writes the last two.
-/
import Shadowsocks.Relay.Socks5
import Shadowsocks.Tcp.FirstWrite

namespace Shadowsocks.Tcp.V2

open Lib ReadCode List

structure Aead2022TcpRequestHeader where
  addr : Address
  paddingSize : UInt16

variable (h : Aead2022TcpRequestHeader)

def Aead2022TcpRequestHeader.SizeOk : Prop := h.paddingSize.toNat ≤ maxPaddingSize

def Aead2022TcpRequestHeader.writeToBuf {ε : Type} (h : Aead2022TcpRequestHeader) (memory : Nat → UInt8) :
    Outcome ε Bytes :=
  if h.paddingSize.toNat ≤ maxPaddingSize then
    .ok (put16 h.paddingSize ++ (range h.paddingSize.toNat).map memory)
  else .panic

def Aead2022TcpRequestHeader.serializedLen : Nat :=
  h.addr.serializedLen + 2 + h.paddingSize.toNat

section

variable {β : Prop} {ε : Type} (wrap : Socks5.Error → ε)

def Aead2022TcpRequestHeader.readFrom : ReadCode β ε Aead2022TcpRequestHeader := do
  let addr ← Address.readCode wrap
  let paddingSizeBuffer ← exactly 2
  let paddingSize := get16 paddingSizeBuffer
  skipping 64 paddingSize.toNat (by decide)
  pure ⟨addr, paddingSize⟩

theorem handshakeOnce_takes {M : Method} (s : ProxyServerStream M) (envs : List ReadEnv) :
    Takes ProxyServerStream.pollRead (fun target bs => ∃ size,
      Returns eofError (Aead2022TcpRequestHeader.readFrom .address : ReadCode False _ _) bs ⟨target, size⟩ []) s
      (handshakeOnce s envs) := by
  have hheader : Takes ProxyServerStream.pollRead (fun p bs => Returns eofError
      (Aead2022TcpRequestHeader.readFrom .address : ReadCode False _ _) bs ⟨p.1, p.2⟩ []) s
      (readRequestHeader s envs) := by
    refine Takes.code (readCode_strict _) (readFrom_takes server_bounded _ s envs) fun addr t envs => ?_
    refine Takes.code (strict_exactly 2) (readExact_takes server_bounded) fun buf t envs => ?_
    refine (skip_takes server_bounded _).bind fun _ bs t envs hle => takes_nothing fun p hp => ?_
    cases hp
    rw [append_nil, returns_iff, parse_bind, parse_skipping]
    split
    · rw [drop_eq_nil_of_le hle]
      rfl
    · rfl
  refine hheader.bind fun ⟨target, size⟩ bs t envs hbs => ?_
  refine Takes.bind (P := fun _ bs => bs = []) ?_ fun _ cs t envs hcs => takes_nothing fun a ha => ?_
  · unfold checkPadding
    split <;> exact takes_nothing fun _ _ => rfl
  · cases ha
    subst hcs
    exact ⟨size, (append_nil bs).symm ▸ hbs⟩

variable {eof : ε}

theorem length_of_done {X rest : Bytes} {h : Aead2022TcpRequestHeader}
    (hdone : (Aead2022TcpRequestHeader.readFrom wrap : ReadCode β ε _).parse eof X = .done h rest) :
    X.length = h.serializedLen + rest.length := by
  rw [Aead2022TcpRequestHeader.readFrom, parse_bind] at hdone
  cases haddr : (Address.readCode wrap : ReadCode β ε _).parse eof X with
  | failed e | ended r =>
    rw [haddr] at hdone
    cases hdone
  | done addr X₁ =>
    have hlen : X.length = addr.serializedLen + X₁.length := by
      rw [(decode_split (decode_of_done haddr)).1, length_append, Address.bytes_length]
    rw [haddr, Parsed.andThen, parse_bind, parse_exactly] at hdone
    split at hdone
    · rw [Parsed.andThen, parse_bind, parse_skipping] at hdone
      split at hdone
      · rename_i hpad
        cases hdone
        rw [length_drop] at hpad
        rw [Aead2022TcpRequestHeader.serializedLen, length_drop, length_drop]
        dsimp only
        omega
      · cases hdone
    · cases hdone

variable {addr : Address} {padding : Bytes}

theorem requestPrefix_reads (haddr : addr.Fits) (hpad : padding.length < 65536) :
    Reads eof (Aead2022TcpRequestHeader.readFrom wrap : ReadCode β ε _) (requestPrefix padding addr)
      ⟨addr.asRead, UInt16.ofNat padding.length⟩ := by
  have hsize : padding.length = (UInt16.ofNat padding.length).toNat := by
    rw [UInt16.toNat_ofNat', Nat.mod_eq_of_lt hpad]
  refine (readCode_reads wrap eof haddr).bind ((reads_exactly _ (put16_length _)).bind ?_)
  rw [get16_put16]
  exact (reads_skipping _ (by decide) hsize).last rfl

end

def Aead2022TcpRequestHeader.Faithful (memory : Nat → UInt8) : Prop :=
  ∀ bytes, (h.writeToBuf memory : Outcome Socks5.Error Bytes) = .ok bytes →
    (∀ ys, Returns Socks5.eofError (readFrom id : ReadCode False _ _) (bytes ++ ys) h ys) ∧
    h.serializedLen = bytes.length ∧
    ∀ ys, ys <+: bytes → ys ≠ bytes →
      ∃ e, Fails Socks5.eofError (readFrom id : ReadCode False _ _) ys e

theorem writeToBuf_length {ε : Type} {h : Aead2022TcpRequestHeader} {memory : Nat → UInt8} {bytes : Bytes}
    (hw : (h.writeToBuf memory : Outcome ε Bytes) = .ok bytes) : bytes.length = 2 + h.paddingSize.toNat := by
  unfold Aead2022TcpRequestHeader.writeToBuf at hw
  split at hw
  · cases hw
    rw [length_append, put16_length, length_map, length_range]
  · cases hw

theorem serializedLen_pos (a : Address) : 0 < a.serializedLen := by
  rcases a with (a | a) | ⟨name, port⟩
  · exact Nat.succ_pos _
  · exact Nat.succ_pos _
  · rw [Address.serializedLen]
    omega

/-- **No header reads back**: the address is not written, and the length is not the announced one. -/
theorem requestHeader_broken {h : Aead2022TcpRequestHeader} (hsize : h.SizeOk) (memory : Nat → UInt8) :
    ¬h.Faithful memory ∧
    ∃ bytes, (h.writeToBuf memory : Outcome Socks5.Error Bytes) = .ok bytes ∧ bytes.length < h.serializedLen ∧
      ∀ ys, ys ≠ [] →
        ¬Returns Socks5.eofError (Aead2022TcpRequestHeader.readFrom id : ReadCode False _ _) (bytes ++ ys) h ys := by
  have hw : (h.writeToBuf memory : Outcome Socks5.Error Bytes) = .ok _ := if_pos hsize
  have hlen := writeToBuf_length hw
  have hpos := serializedLen_pos h.addr
  refine ⟨fun hok => ?_, _, hw, ?_, fun ys hys hr => ?_⟩
  · have hannounced := (hok _ hw).2.1
    rw [Aead2022TcpRequestHeader.serializedLen] at hannounced
    omega
  · rw [hlen, Aead2022TcpRequestHeader.serializedLen]
    omega
  -- with bytes behind it, the reader has not met the end of the file
  have hout := returns_iff.mp hr
  cases hp : (Aead2022TcpRequestHeader.readFrom id : ReadCode False Socks5.Error _).parse Socks5.eofError
      (put16 h.paddingSize ++ (range h.paddingSize.toNat).map memory ++ ys) with
  | failed e =>
    rw [hp] at hout
    cases hout
  | ended r =>
    rw [hp] at hout
    obtain ⟨a, -, he⟩ := except_map_ok_iff.mp hout
    exact hys (Prod.mk.inj he).2.symm
  | done h' rest =>
    rw [hp] at hout
    cases hout
    have hconsumed := length_of_done id hp
    rw [length_append, Aead2022TcpRequestHeader.serializedLen] at hconsumed
    omega

/-- The local host and no padding: two bytes are written, nine are announced, and reading them is an error. -/
theorem requestHeader_address_lost :
    ¬(⟨.socketAddress (.v4 ⟨0x7f000001, 80⟩), 0⟩ : Aead2022TcpRequestHeader).Faithful (fun _ => 0) ∧
      (Aead2022TcpRequestHeader.writeToBuf ⟨.socketAddress (.v4 ⟨0x7f000001, 80⟩), 0⟩ (fun _ => 0) :
        Outcome Socks5.Error Bytes) = .ok [0, 0] ∧
      Aead2022TcpRequestHeader.serializedLen ⟨.socketAddress (.v4 ⟨0x7f000001, 80⟩), 0⟩ = 9 ∧
      ∃ e, Fails Socks5.eofError (Aead2022TcpRequestHeader.readFrom id : ReadCode False _ _) [0, 0] e := by
  refine ⟨fun hok => ?_, by decide, rfl, _, fails_of_outcome rfl⟩
  have hannounced := (hok [0, 0] (by decide)).2.1
  exact absurd hannounced (by decide)

/-- The same header is in the range of the theorem. -/
theorem requestHeader_broken_local :
    ¬(⟨.socketAddress (.v4 ⟨0x7f000001, 80⟩), 0⟩ : Aead2022TcpRequestHeader).Faithful (fun _ => 0) :=
  (requestHeader_broken (h := ⟨.socketAddress (.v4 ⟨0x7f000001, 80⟩), 0⟩) (Nat.zero_le 900) _).1

end Shadowsocks.Tcp.V2
