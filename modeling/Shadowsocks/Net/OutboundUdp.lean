/-
  Subject:   DATAGRAMS THROUGH A CHAIN OF SOCKS5 RELAYS (`encode` and `decode` of `net/outbound/udp.rs` of the
  service). The header for a hop names the next hop, the last one the target.
-/
import Shadowsocks.Relay.Socks5

namespace Shadowsocks.Net.OutboundUdp

open Lib List ReadCode Socks5

structure Socks5UdpRelay where
  relayAddr : Address
  fits : relayAddr.Fits

structure OutboundProxyDatagram where
  relays : List Socks5UdpRelay
  target : Address
  nonempty : relays ≠ []
  fits : target.Fits

def nextAddr (target : Address) : List Socks5UdpRelay → Address
  | [] => target
  | next :: _ => next.relayAddr

def encodeFor (target : Address) (payload : Bytes) : List Socks5UdpRelay → Outcome MessageError Bytes
  | [] => .ok payload
  | _ :: relays => do
    let header ← (UdpAssociateHeader.mk 0 (nextAddr target relays)).writeToBuf
    let rest ← encodeFor target payload relays
    return header ++ rest

def OutboundProxyDatagram.encode (d : OutboundProxyDatagram) (payload : Bytes) : Outcome MessageError Bytes :=
  encodeFor d.target payload d.relays

def readHeader : ReadCode False MessageError UdpAssociateHeader := UdpAssociateHeader.readFrom id

def decodeFrom : Nat → Option Address → Bytes → Outcome MessageError (Option Address × Bytes)
  | 0, last, buf => .ok (last, buf)
  | n + 1, _, buf =>
    match (readHeader.parse messageEof buf).outcome with
    | .ok (header, rest) => decodeFrom n (some header.address) rest
    | .error e => .err e

def OutboundProxyDatagram.decode (d : OutboundProxyDatagram) (recvBuf : Bytes) :
    Outcome MessageError (Address × Nat) := do
  let (last, rest) ← decodeFrom d.relays.length none recvBuf
  match last with
  | some address => .ok (address, recvBuf.length - rest.length)
  | none => .panic

/-! ## 1. One header -/

section

variable {pre : Bytes} {a : Address} {X Y : Bytes}

theorem readHeader_reads (hpre : pre.length = 3) (ha : a.Fits) :
    Reads messageEof readHeader (pre ++ a.bytes) ⟨pre.getD 2 0, a.asRead⟩ :=
  (reads_exactly pre hpre).bind ((readCode_reads _ messageEof ha).last rfl)

theorem readHeader_exact {h : UdpAssociateHeader} (hread : readHeader.parse messageEof X = .done h Y) :
    ∃ (pre : Bytes) (a : Address), pre.length = 3 ∧ a.Fits ∧ X = pre ++ a.bytes ++ Y := by
  obtain ⟨pre, X', rfl, hlen, hread⟩ := parse_exactly_bind.mp hread
  obtain ⟨a, rest, haddr, hlast⟩ := parse_bind_done.mp hread
  obtain ⟨rfl, hfits, -⟩ := decode_split (decode_of_done haddr)
  cases hlast
  exact ⟨pre, a, hlen, hfits, by rw [append_assoc]⟩

end

/-! ## 2. All headers -/

def Headers : Nat → Bytes → Prop
  | 0, _ => True
  | n + 1, X => ∃ pre a Y, (pre.length = 3 ∧ a.Fits ∧ X = pre ++ Address.bytes a ++ Y) ∧ Headers n Y

theorem decodeFrom_err_iff (n : Nat) (last : Option Address) (X : Bytes) :
    (∃ e, decodeFrom n last X = .err e) ↔ ¬Headers n X := by
  induction n generalizing last X with
  | zero => simp [decodeFrom, Headers]
  | succ n ih =>
    rw [decodeFrom]
    cases ho : (readHeader.parse messageEof X).outcome with
    | error e =>
      refine iff_of_true ⟨e, rfl⟩ ?_
      rintro ⟨pre, a, Y, ⟨hpre, ha, rfl⟩, -⟩
      rw [readHeader_reads hpre ha Y] at ho
      cases ho
    | ok x =>
      obtain ⟨h, rest⟩ := x
      have hdone := (UdpAssociateHeader.strict id).done ho
      refine (ih (some h.address) rest).trans (not_congr ?_)
      constructor
      · intro hrest
        obtain ⟨pre, a, hX⟩ := readHeader_exact hdone
        exact ⟨pre, a, rest, hX, hrest⟩
      · rintro ⟨pre, a, Y, ⟨hpre, ha, rfl⟩, hY⟩
        cases hdone.symm.trans (readHeader_reads hpre ha Y)
        exact hY

variable {target : Address} (payload : Bytes)

def layers (target : Address) (payload : Bytes) : List Socks5UdpRelay → Bytes
  | [] => payload
  | _ :: relays => [0, 0, 0] ++ (nextAddr target relays).bytes ++ layers target payload relays

theorem nextAddr_fits (ht : target.Fits) (relays : List Socks5UdpRelay) : (nextAddr target relays).Fits := by
  cases relays with
  | nil => exact ht
  | cons next relays => exact next.fits

theorem encodeFor_eq (ht : target.Fits) (relays : List Socks5UdpRelay) :
    encodeFor target payload relays = .ok (layers target payload relays) := by
  induction relays with
  | nil => rfl
  | cons r relays ih =>
    have hheader : (nextAddr target relays).writeToBuf = (.ok (nextAddr target relays).bytes : Outcome MessageError _) :=
      if_pos (nextAddr_fits ht relays)
    rw [encodeFor, UdpAssociateHeader.writeToBuf, hheader, ih]
    rfl

theorem readHeader_layers (ht : target.Fits) (r : Socks5UdpRelay) (relays : List Socks5UdpRelay) :
    readHeader.parse messageEof (layers target payload (r :: relays)) =
      .done ⟨0, (nextAddr target relays).asRead⟩ (layers target payload relays) :=
  readHeader_reads (rfl : [0, 0, (0 : UInt8)].length = 3) (nextAddr_fits ht relays) _

theorem decodeFrom_layers (ht : target.Fits) (last : Option Address) (r : Socks5UdpRelay) (relays : List Socks5UdpRelay) :
    decodeFrom (r :: relays).length last (layers target payload (r :: relays)) = .ok (some target.asRead, payload) := by
  induction relays generalizing last r with
  | nil =>
    rw [length_singleton, decodeFrom, readHeader_layers payload ht]
    rfl
  | cons next relays ih =>
    rw [length_cons, decodeFrom, readHeader_layers payload ht]
    exact ih _ next

theorem OutboundProxyDatagram.decode_layers (d : OutboundProxyDatagram) :
    d.decode (layers d.target payload d.relays) =
      .ok (d.target.asRead, (layers d.target payload d.relays).length - payload.length) := by
  unfold decode
  cases hr : d.relays with
  | nil => exact absurd hr d.nonempty
  | cons r relays =>
    rw [decodeFrom_layers payload d.fits]
    rfl

theorem layers_drop (relays : List Socks5UdpRelay) : payload.length ≤ (layers target payload relays).length ∧
      (layers target payload relays).drop ((layers target payload relays).length - payload.length) = payload := by
  have hsuffix : payload <:+ layers target payload relays := by
    induction relays with
    | nil => exact suffix_rfl
    | cons r relays ih => exact ih.trans (suffix_append _ _)
  exact ⟨hsuffix.length_le, (suffix_iff_eq_drop.mp hsuffix).symm⟩

/-- **Datagrams of a chain** are decoded to the target and the payload, hop by hop; those with fewer headers are
refused. -/
theorem chain_exact (d : OutboundProxyDatagram) :
    (∀ payload, ∃ datagram pos, d.encode payload = .ok datagram ∧ d.decode datagram = .ok (d.target.asRead, pos) ∧
        datagram.drop pos = payload ∧ pos + payload.length = datagram.length) ∧
      (∀ payload i, i < d.relays.length → ∃ datagram rest,
        encodeFor d.target payload (d.relays.drop i) = .ok datagram ∧
          encodeFor d.target payload (d.relays.drop (i + 1)) = .ok rest ∧
          Returns messageEof readHeader datagram ⟨0, (nextAddr d.target (d.relays.drop (i + 1))).asRead⟩ rest) ∧
      ∀ X, (∃ e, d.decode X = .err e) ↔ ¬Headers d.relays.length X := by
  refine ⟨fun payload => ?_, fun payload i hi => ?_, fun X => ?_⟩
  · obtain ⟨hle, hdrop⟩ := @layers_drop d.target payload d.relays
    exact ⟨_, _, encodeFor_eq payload d.fits d.relays, d.decode_layers payload, hdrop, Nat.sub_add_cancel hle⟩
  · refine ⟨_, _, encodeFor_eq payload d.fits _, encodeFor_eq payload d.fits _, ?_⟩
    rw [drop_eq_getElem_cons hi]
    exact returns_of_outcome (by rw [readHeader_layers payload d.fits]; rfl)
  rw [← decodeFrom_err_iff d.relays.length none X, OutboundProxyDatagram.decode]
  cases decodeFrom d.relays.length none X with
  | ok x =>
    obtain ⟨last, rest⟩ := x
    cases last <;> simp
  | err e | panic => simp

/-- A target with a scope is decoded to another address. -/
theorem chain_scoped : ∃ (d : OutboundProxyDatagram) (datagram : Bytes) (pos : Nat) (a : Address),
    d.encode [7] = .ok datagram ∧ d.decode datagram = .ok (a, pos) ∧ a ≠ d.target := by
  let d : OutboundProxyDatagram :=
    ⟨[⟨.socketAddress (.v4 ⟨0x7f000001, 1080⟩), trivial⟩], scopedAddress, cons_ne_nil _ _, trivial⟩
  exact ⟨d, _, _, _, encodeFor_eq [7] d.fits d.relays, d.decode_layers [7], by decide⟩

end Shadowsocks.Net.OutboundUdp
