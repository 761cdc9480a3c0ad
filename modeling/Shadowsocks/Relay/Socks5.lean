/-
  Subject:   SOCKS5 MESSAGES (`crates/shadowsocks/src/relay/socks5.rs`, and `net/outbound/socks5.rs` of the service).
-/
import Shadowsocks.Lib.ReadCode
import Shadowsocks.Relay.Address

namespace Shadowsocks

open Lib ReadCode Socks5 List Outcome Option

/-! ## 1. The two readers of an address -/

section

variable {β : Prop} {ε : Type}

def Address.readCode (wrap : Error → ε) : ReadCode β ε Address := do
  let addrTypeBuf ← exactly 1
  let addrType := UInt8.ofNat (beNat addrTypeBuf)
  if addrType = addrTypeIpv4 then do
    let buf ← exactly 6
    pure (.socketAddress (.v4 ⟨UInt32.ofNat (beNat (buf.take 4)), get16 (buf.drop 4)⟩))
  else if addrType = addrTypeIpv6 then do
    let buf ← exactly 18
    pure (.socketAddress (.v6 ⟨BitVec.ofNat 128 (beNat (buf.take 16)), get16 (buf.drop 16), 0, 0⟩))
  else if addrType = addrTypeDomainName then do
    let lengthBuf ← exactly 1
    let length := (UInt8.ofNat (beNat lengthBuf)).toNat
    let rawAddr ← exactly (length + 2)
    match fromUtf8 (rawAddr.take length) with
    | none => fail (wrap .addressDomainInvalidEncoding)
    | some addr => pure (.domainNameAddress addr (get16 (rawAddr.drop length)))
  else fail (wrap (.addressTypeNotSupported addrType))

theorem readFrom_takes {E σ : Type} {poll : PollRead E σ ε} (hcap : Bounded poll) {eof eofErr : ε}
    (wrap : Error → ε) (s : σ) (envs : List E) :
    Takes poll (fun addr bs => Returns eof (Address.readCode wrap : ReadCode β ε _) bs addr []) s
      (Address.readFrom poll eofErr wrap s envs) := by
  refine Takes.code (strict_exactly 1) (readExact_takes hcap) fun addrTypeBuf s envs => ?_
  dsimp only
  split
  · exact Takes.code (strict_exactly 6) (readExact_takes hcap) fun _ _ _ => takes_pure _
  split
  · exact Takes.code (strict_exactly 18) (readExact_takes hcap) fun _ _ _ => takes_pure _
  split
  · refine Takes.code (strict_exactly 1) (readExact_takes hcap) fun lengthBuf s envs => ?_
    refine Takes.code (strict_exactly _) (readExact_takes hcap) fun rawAddr s envs => ?_
    cases fromUtf8 (rawAddr.take (UInt8.ofNat (beNat lengthBuf)).toNat) with
    | none => exact takes_failed
    | some name => exact takes_pure _
  · exact takes_failed

def Address.decodeDomainName : Bytes → Option (Address × Bytes)
  | [] => none
  | len :: X =>
    if len.toNat + 2 ≤ X.length then
      (fromUtf8 (X.take len.toNat)).map fun name =>
        (.domainNameAddress name (get16 ((X.drop len.toNat).take 2)), X.drop (len.toNat + 2))
    else none

def Address.decode : Bytes → Option (Address × Bytes)
  | [] => none
  | atyp :: X =>
    if atyp = addrTypeIpv4 then
      if 6 ≤ X.length then
        some (.socketAddress (.v4 ⟨UInt32.ofNat (beNat (X.take 4)), get16 ((X.drop 4).take 2)⟩), X.drop 6)
      else none
    else if atyp = addrTypeIpv6 then
      if 18 ≤ X.length then
        some (.socketAddress (.v6 ⟨BitVec.ofNat 128 (beNat (X.take 16)), get16 ((X.drop 16).take 2), 0, 0⟩), X.drop 18)
      else none
    else if atyp = addrTypeDomainName then decodeDomainName X
    else none

theorem toOption_eq_some_iff {α : Type} {x : Except ε α} {a : α} : x.toOption = some a ↔ x = .ok a := by
  cases x <;> simp [Except.toOption]

theorem parse_byte {eof : ε} (b : UInt8) (X : Bytes) :
    (exactly 1 : ReadCode β ε Bytes).parse eof (b :: X) = .done [b] X := by
  rfl

theorem readCode_decode (wrap : Error → ε) (eof : ε) (X : Bytes) :
    ((Address.readCode wrap : ReadCode β ε _).parse eof X).outcome.toOption = Address.decode X := by
  rw [Address.readCode, parse_bind]
  cases X with
  | nil => rfl
  | cons atyp X =>
    rw [parse_byte, Parsed.andThen, beNat_singleton, Address.decode]
    dsimp only
    iterate 2
      split
      · rw [parse_bind, parse_exactly]
        split
        · simp [Parsed.andThen, Parsed.outcome, Except.toOption, take_take, drop_take]
        · rfl
    split
    · rw [parse_bind]
      cases X with
      | nil => rfl
      | cons len X =>
        rw [parse_byte, Parsed.andThen, beNat_singleton, parse_bind, parse_exactly, Address.decodeDomainName]
        split
        · simp only [Parsed.andThen, take_take, drop_take, Nat.add_sub_cancel_left,
            min_eq_left (Nat.le_add_right _ _)]
          cases fromUtf8 (X.take len.toNat) with
          | none | some name => rfl
        · rfl
    · rfl

def remains : Address × Cursor → Address × Bytes := fun x => (x.1, x.2.rest)

variable (c : Cursor)

theorem readCursorDomainName_decode :
    (readCursorDomainName c).toOption.map remains = Address.decodeDomainName c.rest := by
  unfold readCursorDomainName
  cases hrest : c.rest with
  | nil =>
    rw [Cursor.getU8, Cursor.get_panic_iff.mpr (by rw [Cursor.remaining, hrest]; exact zero_lt_one)]
    rfl
  | cons len X =>
    obtain ⟨hlen, hr⟩ := Cursor.getU8_of_rest (ε := Error) hrest
    have hrem : (c.advance 1).remaining = X.length := by rw [Cursor.remaining, hr]
    rw [hlen, Address.decodeDomainName]
    simp only [ok_bind, hrem]
    by_cases hshort : X.length < len.toNat
    · rw [if_pos hshort, if_neg (by omega)]
      rfl
    rw [if_neg hshort, Cursor.take, Cursor.get_ok (by omega), ok_bind]
    simp only [Cursor.getU16]
    by_cases hport : len.toNat + 2 ≤ X.length
    · rw [Cursor.get_ok (by rw [Cursor.remaining_advance, hrem]; omega), ok_bind, if_pos hport]
      simp only [id_eq, Cursor.rest_advance, hr]
      cases fromUtf8 (X.take len.toNat) with
      | none => rfl
      | some name =>
        refine congrArg some (Prod.ext rfl ?_)
        show (((c.advance 1).advance len.toNat).advance 2).rest = _
        rw [Cursor.rest_advance, Cursor.rest_advance, hr, drop_drop]
    · rw [Cursor.get_panic_iff.mpr (by rw [Cursor.remaining_advance, hrem]; omega), if_neg hport]
      rfl

theorem get_port {α : Type} {n : Nat} {c : Cursor} (h : n + 2 ≤ c.remaining) (f : Bytes → α) (g : α → UInt16 → Address) :
    (do let (x, c) ← c.get n f
        let (port, c) ← c.getU16
        return (g x port, c) : Outcome Error (Address × Cursor)).toOption.map remains =
      some (g (f (c.rest.take n)) (get16 ((c.rest.drop n).take 2)), c.rest.drop (n + 2)) := by
  rw [Cursor.get_ok (by omega), ok_bind]
  simp only [Cursor.getU16]
  rw [Cursor.get_ok (by rw [Cursor.remaining_advance]; omega), ok_bind]
  refine congrArg some (Prod.ext ?_ ?_)
  · rw [Cursor.rest_advance]
    rfl
  · show ((c.advance n).advance 2).rest = _
    rw [Cursor.rest_advance, Cursor.rest_advance, drop_drop]

theorem readCursorIpv4_decode : (readCursorIpv4 c).toOption.map remains = if 6 ≤ c.rest.length then
        some (.socketAddress (.v4 ⟨UInt32.ofNat (beNat (c.rest.take 4)), get16 ((c.rest.drop 4).take 2)⟩), c.rest.drop 6)
      else none := by
  unfold readCursorIpv4
  by_cases h : c.remaining < 4 + 2
  · rw [if_pos h, if_neg (by rw [← Cursor.remaining]; omega)]
    rfl
  · rw [if_neg h, if_pos (by rw [← Cursor.remaining]; omega)]
    exact get_port (by omega) (fun bs => UInt32.ofNat (beNat bs)) fun ip port => .socketAddress (.v4 ⟨ip, port⟩)

theorem readCursorIpv6_decode : (readCursorIpv6 c).toOption.map remains = if 18 ≤ c.rest.length then
        some (.socketAddress (.v6 ⟨BitVec.ofNat 128 (beNat (c.rest.take 16)), get16 ((c.rest.drop 16).take 2), 0, 0⟩),
          c.rest.drop 18)
      else none := by
  unfold readCursorIpv6
  by_cases h : c.remaining < 16 + 2
  · rw [if_pos h, if_neg (by rw [← Cursor.remaining]; omega)]
    rfl
  · rw [if_neg h, if_pos (by rw [← Cursor.remaining]; omega)]
    exact get_port (by omega) (fun bs => BitVec.ofNat 128 (beNat bs)) fun ip port => .socketAddress (.v6 ⟨ip, port, 0, 0⟩)

theorem readCursor_decode : (Address.readCursor c).toOption.map remains = Address.decode c.rest := by
  unfold Address.readCursor
  cases hrest : c.rest with
  | nil =>
    rw [if_pos (by rw [Cursor.remaining, hrest]; exact Nat.two_pos)]
    rfl
  | cons atyp X =>
    obtain ⟨hatyp, hr⟩ := Cursor.getU8_of_rest (ε := Error) hrest
    rw [Address.decode, hatyp]
    by_cases hshort : c.remaining < 2
    · -- one byte alone is too short for each kind of address
      rw [Cursor.remaining, hrest, length_cons] at hshort
      obtain rfl : X = [] := length_eq_zero_iff.mp (by omega)
      rw [Cursor.remaining, hrest, if_pos (by simp)]
      split
      · rfl
      split
      · rfl
      split <;> rfl
    rw [if_neg hshort, ok_bind, ← hr]
    dsimp only
    split
    · exact readCursorIpv4_decode _
    split
    · exact readCursorIpv6_decode _
    split
    · exact readCursorDomainName_decode _
    · rfl

theorem readCode_strict (wrap : Error → ε) : (Address.readCode wrap : ReadCode β ε _).Strict := by
  refine (strict_exactly 1).bind fun addrTypeBuf => ?_
  dsimp only
  split
  · exact (strict_exactly 6).bind fun _ => strict_pure _
  split
  · exact (strict_exactly 18).bind fun _ => strict_pure _
  split
  · refine (strict_exactly 1).bind fun lengthBuf => (strict_exactly _).bind fun rawAddr => ?_
    split
    · exact strict_fail _
    · exact strict_pure _
  · exact strict_fail _

variable {a : Address}

theorem decode_bytes (ha : a.Fits) (ys : Bytes) : Address.decode (a.bytes ++ ys) = some (a.asRead, ys) := by
  have hread := readCursor_decode ⟨a.bytes ++ ys, 0⟩
  rw [readCursor_bytes ha (c := ⟨a.bytes ++ ys, 0⟩) rfl] at hread
  have hrest : (Cursor.advance ⟨a.bytes ++ ys, 0⟩ a.serializedLen).rest = ys := by
    rw [Cursor.rest_advance]
    exact drop_left' a.bytes_length
  refine hread.symm.trans ?_
  rw [toOption, map_some, remains, hrest]

theorem readCode_reads (wrap : Error → ε) (eof : ε) (ha : a.Fits) :
    Reads eof (Address.readCode wrap : ReadCode β ε _) a.bytes a.asRead := by
  intro ys
  have hread := readCode_decode (β := β) wrap eof (a.bytes ++ ys)
  rw [decode_bytes ha] at hread
  exact (readCode_strict wrap).done (toOption_eq_some_iff.mp hread)

theorem utf8Bytes_of_fromUtf8 {bs : Bytes} {s : String} (h : fromUtf8 bs = some s) : utf8Bytes s = bs := by
  unfold fromUtf8 String.fromUTF8? at h
  split at h
  · cases h
    rfl
  · cases h

theorem decode_of_done {wrap : Error → ε} {eof : ε} {X rest : Bytes}
    (h : (Address.readCode wrap : ReadCode β ε _).parse eof X = .done a rest) :
    Address.decode X = some (a, rest) := by
  rw [← readCode_decode (β := β) wrap eof X, h]
  rfl

theorem numberPort_exact {n v : Nat} {X : Bytes} (hlen : n + 2 ≤ X.length) (hv : v = beNat (X.take n) % 256 ^ n) :
    X = beBytes n v ++ put16 (get16 ((X.drop n).take 2)) ++ X.drop (n + 2) := by
  have htake : (X.take n).length = n := length_take_of_le (by omega)
  have hport : ((X.drop n).take 2).length = 2 := length_take_of_le (by rw [length_drop]; omega)
  have hnumber : beBytes n v = X.take n := by
    have hlt := beNat_lt (X.take n)
    have hwritten := beBytes_beNat (X.take n)
    rw [htake] at hlt hwritten
    rwa [hv, Nat.mod_eq_of_lt hlt]
  rw [hnumber, put16_get16 hport, append_assoc, ← drop_drop, take_append_drop, take_append_drop]

theorem decodeDomainName_exact {X rest : Bytes} (h : Address.decodeDomainName X = some (a, rest)) :
    addrTypeDomainName :: X = a.bytes ++ rest ∧ a.Fits ∧ a.asRead = a := by
  cases X with
  | nil => cases h
  | cons len X =>
    rw [Address.decodeDomainName] at h
    split at h
    · obtain ⟨name, hname, he⟩ := map_eq_some_iff.mp h
      cases he
      have hbytes := utf8Bytes_of_fromUtf8 hname
      have hlength : (X.take len.toNat).length = len.toNat := length_take_of_le (by omega)
      have hport : ((X.drop len.toNat).take 2).length = 2 :=
        length_take_of_le (by rw [length_drop]; omega)
      have hfits : (utf8Bytes name).length ≤ 255 := by
        rw [hbytes, hlength]
        exact Nat.le_of_lt_succ len.toNat_lt
      refine ⟨?_, hfits, rfl⟩
      rw [Address.bytes, hbytes, hlength, UInt8.ofNat_toNat, cons_append, cons_append,
        put16_get16 hport, append_assoc, ← drop_drop, take_append_drop, take_append_drop]
    · cases h

theorem decode_split {X rest : Bytes} (h : Address.decode X = some (a, rest)) :
    X = a.bytes ++ rest ∧ a.Fits ∧ a.asRead = a := by
  cases X with
  | nil => cases h
  | cons atyp X =>
    rw [Address.decode] at h
    split at h
    · rename_i hatyp
      split at h
      · rename_i hlen
        cases h
        refine ⟨?_, trivial, rfl⟩
        rw [hatyp, Address.bytes, cons_append]
        exact congrArg _ (numberPort_exact hlen UInt32.toNat_ofNat')
      · cases h
    split at h
    · rename_i hatyp
      split at h
      · rename_i hlen
        cases h
        refine ⟨?_, trivial, rfl⟩
        rw [hatyp, Address.bytes, cons_append]
        exact congrArg _ (numberPort_exact hlen (BitVec.toNat_ofNat _ _))
      · cases h
    split at h
    · rename_i hatyp
      rw [hatyp]
      exact decodeDomainName_exact h
    · cases h

def Socks5.eofError : Error := .ioError .unexpectedEof

def CutPort (X : Bytes) : Prop :=
  ∃ len tail, X = addrTypeDomainName :: len :: tail ∧ len.toNat ≤ tail.length ∧ tail.length < len.toNat + 2

/-- **The two readers of an address agree**, and read back what was written but for flow information
and scope. -/
theorem codecs_agree : (∀ c : Cursor, ¬CutPort c.rest → (∃ a c', Address.readCursor c = .ok (a, c') ∧
        Returns eofError (Address.readCode id : ReadCode False _ _) c.rest a c'.rest) ∨
      (∃ e, Address.readCursor c = .err e) ∧
        ∃ e, Fails eofError (Address.readCode id : ReadCode False _ _) c.rest e) ∧
    ∀ a : Address, a.Fits → (a.writeToBuf : Outcome Error Bytes) = .ok a.bytes ∧ a.serializedLen = a.bytes.length ∧
      ∀ ys, (∀ c : Cursor, c.rest = a.bytes ++ ys →
          Address.readCursor c = .ok (a.asRead, c.advance a.serializedLen)) ∧
        Returns eofError (Address.readCode id : ReadCode False _ _) (a.bytes ++ ys) a.asRead ys := by
  refine ⟨fun c hcut => ?_, fun a ha => ⟨if_pos ha, a.bytes_length.symm, fun ys => ⟨fun c => readCursor_bytes ha, ?_⟩⟩⟩
  · have hstream := readCode_decode (β := False) id eofError c.rest
    have hbuffer := readCursor_decode c
    rw [← hstream] at hbuffer
    cases hr : Address.readCursor c with
    | panic => exact absurd ((readCursor_panic_iff c).mp hr) hcut
    | err e =>
      rw [hr] at hbuffer
      cases ho : ((Address.readCode id : ReadCode False _ _).parse eofError c.rest).outcome with
      | error e' => exact .inr ⟨⟨e, rfl⟩, e', fails_of_outcome ho⟩
      | ok x =>
        rw [ho] at hbuffer
        cases hbuffer
    | ok x =>
      rw [hr] at hbuffer
      cases ho : ((Address.readCode id : ReadCode False _ _).parse eofError c.rest).outcome with
      | error e' =>
        rw [ho] at hbuffer
        cases hbuffer
      | ok y =>
        rw [ho] at hbuffer
        obtain rfl : remains x = y := some.inj hbuffer
        exact .inl ⟨x.1, x.2, rfl, returns_of_outcome ho⟩
  · exact (readCode_reads id eofError ha).returns ys

/-- An unknown type of address, and the address of the local host. -/
theorem codecs_agree_local : (∃ e, Address.readCursor ⟨[9, 9], 0⟩ = .err e) ∧
      Returns eofError (Address.readCode id : ReadCode False _ _) [1, 127, 0, 0, 1, 0, 80, 5]
        (.socketAddress (.v4 ⟨0x7f000001, 80⟩)) [5] := by
  refine ⟨?_, ?_⟩
  · have hcut : ¬CutPort (Cursor.rest ⟨[9, 9], 0⟩) := by
      intro ⟨len, tail, he, _⟩
      exact absurd (cons.inj he).1 (by decide)
    rcases codecs_agree.1 ⟨[9, 9], 0⟩ hcut with ⟨a, c', he, -⟩ | ⟨he, -⟩
    · have hr : Address.readCursor ⟨[9, 9], 0⟩ = .err (.addressTypeNotSupported 9) := by decide
      cases hr.symm.trans he
    · exact he
  · exact ((codecs_agree.2 (.socketAddress (.v4 ⟨0x7f000001, 80⟩)) trivial).2.2 [5]).2

def scopedAddress : Address := .socketAddress (.v6 ⟨0xfe800000000000000000000000000001, 443, 0, 7⟩)

/-- A domain name cut in its port is an error for the stream and a panic for the buffer; none gives the scope back. -/
theorem codecs_differ : (Address.readCursor ⟨[3, 1, 97], 0⟩ = .panic ∧
      ∃ e, Fails eofError (Address.readCode id : ReadCode False _ _) [3, 1, 97] e) ∧
    scopedAddress.Fits ∧ ∃ a, a ≠ scopedAddress ∧
      Address.readCursor ⟨scopedAddress.bytes, 0⟩ = .ok (a, ⟨scopedAddress.bytes, 19⟩) ∧
      Returns eofError (Address.readCode id : ReadCode False _ _) scopedAddress.bytes a [] := by
  have hfits : scopedAddress.Fits := trivial
  refine ⟨⟨by decide, eofError, fails_of_outcome (by decide)⟩, hfits, scopedAddress.asRead, by decide, ?_, ?_⟩
  · exact readCursor_bytes hfits (append_nil _).symm
  · have hreturns := (readCode_reads (β := False) id eofError hfits).returns []
    rwa [append_nil] at hreturns

end

namespace Socks5

/-! ## 2. Messages -/

def version : UInt8 := 0x05

def authMethodNone : UInt8 := 0x00

def authMethodPassword : UInt8 := 0x02

def authMethodNotAcceptable : UInt8 := 0xff

inductive Command where
  | tcpConnect
  | tcpBind
  | udpAssociate
  deriving DecidableEq

def Command.asU8 : Command → UInt8
  | .tcpConnect => 0x01
  | .tcpBind => 0x02
  | .udpAssociate => 0x03

def Command.fromU8 (code : UInt8) : Option Command :=
  if code = 0x01 then some .tcpConnect
  else if code = 0x02 then some .tcpBind
  else if code = 0x03 then some .udpAssociate
  else none

@[simp] theorem Command.fromU8_asU8 (c : Command) : fromU8 c.asU8 = some c := by
  cases c <;> rfl

inductive Reply where
  | succeeded
  | generalFailure
  | connectionNotAllowed
  | networkUnreachable
  | hostUnreachable
  | connectionRefused
  | ttlExpired
  | commandNotSupported
  | addressTypeNotSupported
  | otherReply (code : UInt8)

def Reply.asU8 : Reply → UInt8
  | .succeeded => 0x00
  | .generalFailure => 0x01
  | .connectionNotAllowed => 0x02
  | .networkUnreachable => 0x03
  | .hostUnreachable => 0x04
  | .connectionRefused => 0x05
  | .ttlExpired => 0x06
  | .commandNotSupported => 0x07
  | .addressTypeNotSupported => 0x08
  | .otherReply code => code

def Reply.fromU8 (code : UInt8) : Reply :=
  if code = 0x00 then .succeeded
  else if code = 0x01 then .generalFailure
  else if code = 0x02 then .connectionNotAllowed
  else if code = 0x03 then .networkUnreachable
  else if code = 0x04 then .hostUnreachable
  else if code = 0x05 then .connectionRefused
  else if code = 0x06 then .ttlExpired
  else if code = 0x07 then .commandNotSupported
  else if code = 0x08 then .addressTypeNotSupported
  else .otherReply code

inductive MessageError where
  | address (e : Error)
  | unsupportedSocksVersion (ver : UInt8)
  | unsupportedCommand (cmd : UInt8)
  | unsupportedPasswdAuthVersion (ver : UInt8)
  | passwdAuthInvalidRequest
  | reply (r : Reply)

structure TcpRequestHeader where
  command : Command
  address : Address

structure TcpResponseHeader where
  reply : Reply
  address : Address

structure HandshakeRequest where
  methods : Bytes

structure HandshakeResponse where
  chosenMethod : UInt8

structure UdpAssociateHeader where
  frag : UInt8
  address : Address

structure PasswdAuthRequest where
  (uname passwd : Bytes)

structure PasswdAuthResponse where
  status : UInt8

def PasswdAuthRequest.Valid (r : PasswdAuthRequest) : Prop :=
  r.uname ≠ [] ∧ r.uname.length ≤ 255 ∧ r.passwd ≠ [] ∧ r.passwd.length ≤ 255

instance (r : PasswdAuthRequest) : Decidable r.Valid :=
  inferInstanceAs (Decidable (_ ∧ _ ∧ _ ∧ _))

/-! ### Writing -/

def TcpRequestHeader.writeToBuf {ε : Type} (h : TcpRequestHeader) : Outcome ε Bytes := do
  let address ← h.address.writeToBuf
  return [version, h.command.asU8, 0x00] ++ address

def TcpResponseHeader.writeToBuf {ε : Type} (h : TcpResponseHeader) : Outcome ε Bytes := do
  let address ← h.address.writeToBuf
  return [version, h.reply.asU8, 0x00] ++ address

def UdpAssociateHeader.writeToBuf {ε : Type} (h : UdpAssociateHeader) : Outcome ε Bytes := do
  let address ← h.address.writeToBuf
  return [0x00, 0x00, h.frag] ++ address

def HandshakeRequest.bytes (r : HandshakeRequest) : Bytes :=
  [version, UInt8.ofNat r.methods.length] ++ r.methods

def HandshakeResponse.bytes (r : HandshakeResponse) : Bytes := [version, r.chosenMethod]

def PasswdAuthRequest.bytes (r : PasswdAuthRequest) : Bytes :=
  [0x01, UInt8.ofNat r.uname.length] ++ (r.uname ++ (UInt8.ofNat r.passwd.length :: r.passwd))

def PasswdAuthResponse.bytes (r : PasswdAuthResponse) : Bytes := [0x01, r.status]

/-! ### Reading -/

section

variable {β : Prop} {ε : Type} (wrap : MessageError → ε)

def TcpRequestHeader.readFrom : ReadCode β ε TcpRequestHeader := do
  let buf ← exactly 3
  if buf.getD 0 0 ≠ version then fail (wrap (.unsupportedSocksVersion (buf.getD 0 0)))
  else
    match Command.fromU8 (buf.getD 1 0) with
    | none => fail (wrap (.unsupportedCommand (buf.getD 1 0)))
    | some command => do
        let address ← Address.readCode (wrap ∘ .address)
        pure ⟨command, address⟩

def TcpResponseHeader.readFrom : ReadCode β ε TcpResponseHeader := do
  let buf ← exactly 3
  if buf.getD 0 0 ≠ version then fail (wrap (.unsupportedSocksVersion (buf.getD 0 0)))
  else do
    let address ← Address.readCode (wrap ∘ .address)
    pure ⟨Reply.fromU8 (buf.getD 1 0), address⟩

def UdpAssociateHeader.readFrom : ReadCode β ε UdpAssociateHeader := do
  let buf ← exactly 3
  let address ← Address.readCode (wrap ∘ .address)
  pure ⟨buf.getD 2 0, address⟩

def HandshakeRequest.readFrom : ReadCode β ε HandshakeRequest := do
  let buf ← exactly 2
  if buf.getD 0 0 ≠ version then fail (wrap (.unsupportedSocksVersion (buf.getD 0 0)))
  else do
    let methods ← exactly (buf.getD 1 0).toNat
    pure ⟨methods⟩

def HandshakeResponse.readFrom : ReadCode β ε HandshakeResponse := do
  let buf ← exactly 2
  if buf.getD 0 0 ≠ version then fail (wrap (.unsupportedSocksVersion (buf.getD 0 0)))
  else pure ⟨buf.getD 1 0⟩

def PasswdAuthRequest.readFrom : ReadCode β ε PasswdAuthRequest := do
  let verBuf ← exactly 1
  if verBuf.getD 0 0 ≠ 0x01 then fail (wrap (.unsupportedPasswdAuthVersion (verBuf.getD 0 0)))
  else do
    let ulenBuf ← exactly 1
    let ulen := (ulenBuf.getD 0 0).toNat
    if ulen = 0 then fail (wrap .passwdAuthInvalidRequest)
    else do
      let uname ← exactly ulen
      let plenBuf ← exactly 1
      let plen := (plenBuf.getD 0 0).toNat
      if plen = 0 then fail (wrap .passwdAuthInvalidRequest)
      else do
        let passwd ← exactly plen
        pure ⟨uname, passwd⟩

def PasswdAuthResponse.readFrom : ReadCode β ε PasswdAuthResponse := do
  let buf ← attempt 2
  if buf.getD 0 0 ≠ 0x01 then fail (wrap (.unsupportedPasswdAuthVersion (buf.getD 0 0)))
  else pure ⟨buf.getD 1 0⟩

end

/-! ## 3. What the readers read -/

section

variable {β : Prop} {ε : Type} (wrap : MessageError → ε) {eof : ε} {h : TcpRequestHeader}

theorem TcpRequestHeader.reads (hfits : h.address.Fits) :
    Reads eof (readFrom wrap : ReadCode β ε _) ([version, h.command.asU8, 0x00] ++ h.address.bytes)
      ⟨h.command, h.address.asRead⟩ := by
  refine (reads_exactly [version, h.command.asU8, 0x00] (n := 3) rfl).bind ?_
  simp only [getD_cons_zero, getD_cons_succ, ne_eq, not_true_eq_false, if_false, Command.fromU8_asU8]
  exact (readCode_reads _ eof hfits).last rfl

theorem TcpResponseHeader.reads {h : TcpResponseHeader} (hfits : h.address.Fits) :
    Reads eof (readFrom wrap : ReadCode β ε _) ([version, h.reply.asU8, 0x00] ++ h.address.bytes)
      ⟨Reply.fromU8 h.reply.asU8, h.address.asRead⟩ := by
  refine (reads_exactly [version, h.reply.asU8, 0x00] (n := 3) rfl).bind ?_
  exact (readCode_reads _ eof hfits).last rfl

theorem UdpAssociateHeader.reads {h : UdpAssociateHeader} (hfits : h.address.Fits) :
    Reads eof (readFrom wrap : ReadCode β ε _) ([0x00, 0x00, h.frag] ++ h.address.bytes)
      ⟨h.frag, h.address.asRead⟩ :=
  (reads_exactly [0x00, 0x00, h.frag] (n := 3) rfl).bind ((readCode_reads _ eof hfits).last rfl)

theorem HandshakeRequest.reads (n : UInt8) {methods : Bytes} (hn : methods.length = n.toNat) :
    Reads eof (readFrom wrap : ReadCode β ε _) ([version, n] ++ methods) ⟨methods⟩ := by
  refine (reads_exactly [version, n] (n := 2) rfl).bind ?_
  exact (reads_exactly methods hn).last rfl

theorem HandshakeResponse.reads (r : HandshakeResponse) :
    Reads eof (readFrom wrap : ReadCode β ε _) r.bytes r :=
  (reads_exactly r.bytes (n := 2) rfl).last rfl

variable {r : PasswdAuthRequest}

theorem PasswdAuthRequest.reads (h : r.Valid) : Reads eof (readFrom wrap : ReadCode β ε _) r.bytes r := by
  obtain ⟨hu, hulen, hp, hplen⟩ := h
  have hu' : ¬ r.uname.length = 0 := fun h0 => hu (length_eq_zero_iff.mp h0)
  have hp' : ¬ r.passwd.length = 0 := fun h0 => hp (length_eq_zero_iff.mp h0)
  refine (reads_exactly [0x01] (n := 1) rfl).bind ?_
  refine (reads_exactly [UInt8.ofNat r.uname.length] (n := 1) rfl).bind ?_
  simp only [getD_cons_zero, toNat_ofNat_length hulen, if_neg hu']
  refine (reads_exactly r.uname rfl).bind ?_
  refine (reads_exactly [UInt8.ofNat r.passwd.length] (n := 1) rfl).bind ?_
  simp only [getD_cons_zero, toNat_ofNat_length hplen, if_neg hp']
  exact (reads_exactly r.passwd rfl).last rfl

theorem HandshakeRequest.exact {X Y : Bytes} {r : HandshakeRequest}
    (h : (readFrom wrap : ReadCode β ε _).parse eof X = .done r Y) :
    ∃ n : UInt8, r.methods.length = n.toNat ∧ X = [version, n] ++ r.methods ++ Y := by
  obtain ⟨buf, X', rfl, hlen, h⟩ := parse_exactly_bind.mp h
  obtain ⟨v, n, rfl⟩ := length_eq_two.mp hlen
  simp only [getD_cons_zero, getD_cons_succ] at h
  split at h
  · cases h
  rename_i hv
  obtain ⟨methods, Y', rfl, hn, h⟩ := parse_exactly_bind.mp h
  cases h
  exact ⟨n, hn, by rw [not_not.mp hv, append_assoc]⟩

theorem PasswdAuthRequest.exact {X Y : Bytes} (h : (readFrom wrap : ReadCode β ε _).parse eof X = .done r Y) :
    r.Valid ∧ X = r.bytes ++ Y := by
  have hfield : ∀ {n : UInt8} {field : Bytes}, field.length = n.toNat → ¬n.toNat = 0 →
      field ≠ [] ∧ field.length ≤ 255 ∧ UInt8.ofNat field.length = n := by
    intro n field hlen hn
    refine ⟨fun h0 => hn ?_, ?_, ?_⟩
    · rw [← hlen, h0, length_nil]
    · rw [hlen]
      exact Nat.le_of_lt_succ n.toNat_lt
    · rw [hlen, UInt8.ofNat_toNat]
  obtain ⟨verBuf, X₁, rfl, hlen, h⟩ := parse_exactly_bind.mp h
  obtain ⟨v, rfl⟩ := length_eq_one_iff.mp hlen
  split at h
  · cases h
  rename_i hv
  obtain ⟨ulenBuf, X₂, rfl, hlen, h⟩ := parse_exactly_bind.mp h
  obtain ⟨ulen, rfl⟩ := length_eq_one_iff.mp hlen
  dsimp only at h
  split at h
  · cases h
  rename_i hu
  obtain ⟨uname, X₃, rfl, hlen, h⟩ := parse_exactly_bind.mp h
  obtain ⟨hune, hule, hun⟩ := hfield hlen hu
  obtain ⟨plenBuf, X₄, rfl, hlen, h⟩ := parse_exactly_bind.mp h
  obtain ⟨plen, rfl⟩ := length_eq_one_iff.mp hlen
  split at h
  · cases h
  rename_i hp
  obtain ⟨passwd, X₅, rfl, hlen, h⟩ := parse_exactly_bind.mp h
  obtain ⟨hpne, hple, hpn⟩ := hfield hlen hp
  cases h
  refine ⟨⟨hune, hule, hpne, hple⟩, ?_⟩
  obtain rfl : v = 0x01 := not_not.mp hv
  rw [bytes, hun, hpn]
  simp

theorem TcpRequestHeader.strict : (readFrom wrap : ReadCode β ε _).Strict := by
  refine (strict_exactly 3).bind fun buf => ?_
  split
  · exact strict_fail _
  split
  · exact strict_fail _
  · exact (readCode_strict _).bind fun _ => strict_pure _

theorem TcpRequestHeader.address_of_outcome {X rest : Bytes}
    (hread : ((readFrom wrap : ReadCode β ε _).parse eof X).outcome = .ok (h, rest)) :
    h.address.Fits ∧ h.address.asRead = h.address := by
  have hdone := (strict (β := β) wrap).done hread
  obtain ⟨buf, X', -, hdone⟩ := parse_bind_done.mp hdone
  split at hdone
  · cases hdone
  split at hdone
  · cases hdone
  · obtain ⟨address, rest', haddr, hdone⟩ := parse_bind_done.mp hdone
    cases hdone
    exact (decode_split (decode_of_done haddr)).2

theorem TcpResponseHeader.strict : (readFrom wrap : ReadCode β ε _).Strict := by
  refine (strict_exactly 3).bind fun buf => ?_
  split
  · exact strict_fail _
  · exact (readCode_strict _).bind fun _ => strict_pure _

theorem UdpAssociateHeader.strict : (readFrom wrap : ReadCode β ε _).Strict :=
  (strict_exactly 3).bind fun _ => (readCode_strict _).bind fun _ => strict_pure _

theorem HandshakeRequest.strict : (readFrom wrap : ReadCode β ε _).Strict := by
  refine (strict_exactly 2).bind fun buf => ?_
  split
  · exact strict_fail _
  · exact (strict_exactly _).bind fun _ => strict_pure _

theorem HandshakeResponse.strict : (readFrom wrap : ReadCode β ε _).Strict := by
  refine (strict_exactly 2).bind fun buf => ?_
  split
  · exact strict_fail _
  · exact strict_pure _

theorem PasswdAuthRequest.strict : (readFrom wrap : ReadCode β ε _).Strict := by
  refine (strict_exactly 1).bind fun verBuf => ?_
  split
  · exact strict_fail _
  refine (strict_exactly 1).bind fun ulenBuf => ?_
  dsimp only
  split
  · exact strict_fail _
  refine (strict_exactly _).bind fun uname => (strict_exactly 1).bind fun plenBuf => ?_
  split
  · exact strict_fail _
  · exact (strict_exactly _).bind fun _ => strict_pure _

end

/-! ## 4. Early ends -/

inductive Message where
  | handshakeRequest (r : HandshakeRequest)
  | handshakeResponse (r : HandshakeResponse)
  | tcpRequest (h : TcpRequestHeader)
  | tcpResponse (h : TcpResponseHeader)
  | udpAssociate (h : UdpAssociateHeader)
  | passwdAuthRequest (r : PasswdAuthRequest) (valid : r.Valid)
  | passwdAuthResponse (r : PasswdAuthResponse)

def Message.writeToBuf : Message → Outcome Error Bytes
  | .handshakeRequest r => .ok r.bytes
  | .handshakeResponse r => .ok r.bytes
  | .tcpRequest h => h.writeToBuf
  | .tcpResponse h => h.writeToBuf
  | .udpAssociate h => h.writeToBuf
  | .passwdAuthRequest r _ => .ok r.bytes
  | .passwdAuthResponse r => .ok r.bytes

def messageEof : MessageError := .address eofError

def Message.ReaderFails (m : Message) (X : Bytes) : Prop :=
  match m with
  | .handshakeRequest _ => ∃ e, Fails messageEof (HandshakeRequest.readFrom id : ReadCode False _ _) X e
  | .handshakeResponse _ => ∃ e, Fails messageEof (HandshakeResponse.readFrom id : ReadCode False _ _) X e
  | .tcpRequest _ => ∃ e, Fails messageEof (TcpRequestHeader.readFrom id : ReadCode False _ _) X e
  | .tcpResponse _ => ∃ e, Fails messageEof (TcpResponseHeader.readFrom id : ReadCode False _ _) X e
  | .udpAssociate _ => ∃ e, Fails messageEof (UdpAssociateHeader.readFrom id : ReadCode False _ _) X e
  | .passwdAuthRequest _ _ => ∃ e, Fails messageEof (PasswdAuthRequest.readFrom id : ReadCode False _ _) X e
  | .passwdAuthResponse _ => ∃ e, Fails messageEof (PasswdAuthResponse.readFrom id : ReadCode False _ _) X e

def Message.RefusesPrefixes (m : Message) : Prop :=
  ∀ bytes, m.writeToBuf = .ok bytes → ∀ ys, ys <+: bytes → ys ≠ bytes → m.ReaderFails ys

def Message.Guarded : Message → Prop
  | .handshakeRequest r => r.methods.length ≤ 255
  | .passwdAuthResponse _ => False
  | _ => True

theorem not_fails_of_returns {ε α : Type} {β : Prop} {eof : ε} {c : ReadCode β ε α} {X rest : Bytes} {a : α}
    (h : (c.parse eof X).outcome = .ok (a, rest)) : ¬∃ e, Fails eof c X e := by
  intro ⟨e, he⟩
  cases h.symm.trans (fails_iff.mp he)

theorem handshakeRequest_prefix {r : HandshakeRequest} (h : 255 < r.methods.length) :
    ∃ ys, ys <+: r.bytes ∧ ys ≠ r.bytes ∧
      ¬∃ e, Fails messageEof (HandshakeRequest.readFrom id : ReadCode False _ _) ys e := by
  have hlt : r.methods.length % 256 < r.methods.length :=
    lt_of_lt_of_le (Nat.mod_lt _ (by decide)) h
  have hlen : (r.methods.take (r.methods.length % 256)).length = (UInt8.ofNat r.methods.length).toNat := by
    rw [length_take_of_le (le_of_lt hlt), UInt8.toNat_ofNat']
  refine ⟨[version, UInt8.ofNat r.methods.length] ++ r.methods.take (r.methods.length % 256), ?_, ?_, ?_⟩
  · exact (prefix_append_right_inj _).mpr ( take_prefix _ _)
  · intro he
    have hmethods := congrArg length (append_cancel_left he)
    rw [length_take_of_le (le_of_lt hlt)] at hmethods
    omega
  have hreads : Reads messageEof (HandshakeRequest.readFrom id : ReadCode False _ _) _ _ :=
    HandshakeRequest.reads id _ hlen
  have hread := hreads []
  rw [append_nil] at hread
  exact not_fails_of_returns (by rw [hread]; rfl)

theorem passwdAuthResponse_version : ((PasswdAuthResponse.readFrom id : ReadCode False MessageError _).parse messageEof
    [0x01]).outcome = .ok (⟨0⟩, []) := rfl

theorem writeToBuf_address {a : Address} {bytes pre : Bytes}
    (h : (do let address ← a.writeToBuf
             return pre ++ address : Outcome Error Bytes) = .ok bytes) : a.Fits ∧ bytes = pre ++ a.bytes := by
  obtain ⟨address, ha, h⟩ := bind_ok_iff.mp h
  unfold Address.writeToBuf at ha
  split at ha
  · rename_i hfits
    cases ha
    cases h
    exact ⟨hfits, rfl⟩
  · cases ha

theorem refusesPrefixes_iff (m : Message) : m.RefusesPrefixes ↔ m.Guarded := by
  cases m with
  | handshakeRequest r =>
    constructor
    · intro h
      refine not_lt.mp fun hlong => ?_
      obtain ⟨ys, hys, hne, hno⟩ := handshakeRequest_prefix hlong
      exact hno (h _ rfl ys hys hne)
    · intro hle bytes hb ys hys hne
      cases hb
      exact (HandshakeRequest.reads id _ (toNat_ofNat_length hle).symm).refuses (HandshakeRequest.strict id) hys hne
  | handshakeResponse r =>
    refine ⟨fun _ => trivial, fun _ bytes hb ys hys hne => ?_⟩
    cases hb
    exact (HandshakeResponse.reads id r).refuses (HandshakeResponse.strict id) hys hne
  | tcpRequest h =>
    refine ⟨fun _ => trivial, fun _ bytes hb ys hys hne => ?_⟩
    obtain ⟨hfits, rfl⟩ := writeToBuf_address hb
    exact (TcpRequestHeader.reads id hfits).refuses (TcpRequestHeader.strict id) hys hne
  | tcpResponse h =>
    refine ⟨fun _ => trivial, fun _ bytes hb ys hys hne => ?_⟩
    obtain ⟨hfits, rfl⟩ := writeToBuf_address hb
    exact (TcpResponseHeader.reads id hfits).refuses (TcpResponseHeader.strict id) hys hne
  | udpAssociate h =>
    refine ⟨fun _ => trivial, fun _ bytes hb ys hys hne => ?_⟩
    obtain ⟨hfits, rfl⟩ := writeToBuf_address hb
    exact (UdpAssociateHeader.reads id hfits).refuses (UdpAssociateHeader.strict id) hys hne
  | passwdAuthRequest r valid =>
    refine ⟨fun _ => trivial, fun _ bytes hb ys hys hne => ?_⟩
    cases hb
    exact (PasswdAuthRequest.reads id valid).refuses (PasswdAuthRequest.strict id) hys hne
  | passwdAuthResponse r =>
    refine ⟨fun h => ?_, False.elim⟩
    have hprefix : [0x01] <+: r.bytes := ⟨[r.status], rfl⟩
    have hne : [0x01] ≠ r.bytes := fun he => by cases he
    exact not_fails_of_returns passwdAuthResponse_version (h _ rfl _ hprefix hne)

/-! ## 5. Negotiation with an upstream proxy -/

inductive Socks5Auth where
  | none
  | usernamePassword (username password : Bytes)

inductive NegotiationError where
  | error (e : MessageError)
  /-- The assertion of `PasswdAuthRequest::new`. -/
  | panic

def hexByte (b : UInt8) : String :=
  String.ofList ("0x".toList ++ (if b < 16 then ['0'] else []) ++ Nat.toDigits 16 b.toNat)

def otherError (msg : String) : NegotiationError := .error (.address (.ioError (.other msg)))

def Socks5Auth.methods : Socks5Auth → Bytes
  | .none => [authMethodNone]
  | .usernamePassword _ _ => [authMethodPassword, authMethodNone]

def negotiatePassword {β : Prop} : Socks5Auth → ReadCode β NegotiationError Unit
  | .none => fail (otherError "SOCKS5 proxy requested USERNAME/PASSWORD but no credentials were provided")
  | .usernamePassword username password =>
    if (⟨username, password⟩ : PasswdAuthRequest).Valid then do
      send (PasswdAuthRequest.bytes ⟨username, password⟩)
      let resp ← PasswdAuthResponse.readFrom .error
      if resp.status = 0 then pure ()
      else fail (otherError ("SOCKS5 username/password authentication failed with status " ++ hexByte resp.status))
    else fail .panic

def handshake {β : Prop} (auth : Socks5Auth) : ReadCode β NegotiationError Unit := do
  send (HandshakeRequest.bytes ⟨auth.methods⟩)
  let resp ← HandshakeResponse.readFrom .error
  if resp.chosenMethod = authMethodNone then pure ()
  else if resp.chosenMethod = authMethodPassword then negotiatePassword auth
  else fail (otherError ("SOCKS5 proxy selected unsupported authentication method " ++ hexByte resp.chosenMethod))

def Accepts (X : Bytes) : Prop :=
  (HandshakeResponse.bytes ⟨authMethodNone⟩ <+: X) ∨
    HandshakeResponse.bytes ⟨authMethodPassword⟩ ++ PasswdAuthResponse.bytes ⟨0⟩ <+: X

def negotiationEof : NegotiationError := .error messageEof

def ClosesInResponse (auth : Socks5Auth) (X : Bytes) : Prop :=
  X = [version, authMethodPassword, 0x01] ∧ ∃ username password, auth = .usernamePassword username password ∧
      (⟨username, password⟩ : PasswdAuthRequest).Valid

section

variable {β : Prop}

theorem parse_handshakeResponse (a b : UInt8) (X : Bytes) :
    (HandshakeResponse.readFrom .error : ReadCode β NegotiationError _).parse negotiationEof (a :: b :: X) =
      if a ≠ version then .failed (.error (.unsupportedSocksVersion a)) else .done ⟨b⟩ X := by
  show ReadCode.parse negotiationEof (if a ≠ version then _ else _) X = _
  split <;> rfl

theorem parse_passwdAuthResponse (a b : UInt8) (X : Bytes) :
    (PasswdAuthResponse.readFrom .error : ReadCode β NegotiationError _).parse negotiationEof (a :: b :: X) =
      if a ≠ 0x01 then .failed (.error (.unsupportedPasswdAuthVersion a)) else .done ⟨b⟩ X := by
  show ReadCode.parse negotiationEof (if a ≠ 0x01 then _ else _) X = _
  split <;> rfl

theorem parse_passwdAuthResponse_short (a : UInt8) :
    (PasswdAuthResponse.readFrom .error : ReadCode β NegotiationError _).parse negotiationEof [a] =
      .ended (if a ≠ 0x01 then .error (.error (.unsupportedPasswdAuthVersion a)) else .ok ⟨0⟩) := by
  show Parsed.ended (ReadCode.final negotiationEof (if a ≠ 0x01 then _ else _)) = _
  split <;> rfl

variable {auth : Socks5Auth}

theorem negotiatePassword_heard {X rest : Bytes}
    (h : ((negotiatePassword auth : ReadCode β _ _).parse negotiationEof X).outcome = .ok ((), rest)) :
    PasswdAuthResponse.bytes ⟨0⟩ <+: X ∨ X = [0x01] ∧ ∃ username password,
      auth = .usernamePassword username password ∧ (⟨username, password⟩ : PasswdAuthRequest).Valid := by
  cases auth with
  | none => cases h
  | usernamePassword username password =>
    simp only [negotiatePassword] at h
    split at h
    · rename_i hvalid
      rw [parse_bind, parse_send, Parsed.andThen, parse_bind] at h
      match X with
      | [] => cases h
      | [a] =>
        rw [parse_passwdAuthResponse_short] at h
        split at h
        · cases h
        · rename_i ha
          rw [Decidable.not_not.mp ha]
          exact .inr ⟨rfl, username, password, rfl, hvalid⟩
      | a :: b :: X =>
        rw [parse_passwdAuthResponse] at h
        split at h
        · cases h
        rename_i ha
        rw [Parsed.andThen] at h
        split at h
        · rename_i hb
          have hb : b = 0 := hb
          rw [Decidable.not_not.mp ha, hb]
          exact .inl ⟨X, rfl⟩
        · cases h
    · cases h

theorem handshake_heard {X rest : Bytes}
    (h : ((handshake auth : ReadCode β _ _).parse negotiationEof X).outcome = .ok ((), rest)) :
    Accepts X ∨ ClosesInResponse auth X := by
  unfold handshake at h
  rw [parse_bind, parse_send, Parsed.andThen, parse_bind] at h
  match X with
  | [] | [a] => cases h
  | a :: b :: X =>
    rw [parse_handshakeResponse] at h
    split at h
    · cases h
    rename_i ha
    rw [Decidable.not_not.mp ha]
    rw [Parsed.andThen] at h
    split at h
    · rename_i hb
      have hb : b = authMethodNone := hb
      rw [hb]
      exact .inl (.inl ⟨X, rfl⟩)
    split at h
    · rename_i hb
      have hb : b = authMethodPassword := hb
      rw [hb]
      rcases negotiatePassword_heard h with ⟨Y, hY⟩ | ⟨rfl, hauth⟩
      · exact .inl (.inr ⟨Y, by rw [← hY]; rfl⟩)
      · exact .inr ⟨rfl, hauth⟩
    · cases h

theorem handshake_closed {username password : Bytes} (h : (⟨username, password⟩ : PasswdAuthRequest).Valid) :
    ((handshake (.usernamePassword username password) : ReadCode β _ _).parse negotiationEof
      [version, authMethodPassword, 0x01]).outcome = .ok ((), []) := by
  rw [handshake, parse_bind, parse_send, Parsed.andThen, parse_bind, parse_handshakeResponse, if_neg (by decide),
    Parsed.andThen, if_neg (by decide), if_pos rfl, negotiatePassword, if_pos h, parse_bind, parse_send,
    Parsed.andThen, parse_bind, parse_passwdAuthResponse_short, if_neg (by decide)]
  rfl

end

/-- **Early ends** are refused exactly if the message is guarded; and a negotiation that succeeds was accepted, unless
cut in its response. -/
theorem early_ends_refused_iff (m : Message) (auth : Socks5Auth) (X : Bytes) : (m.RefusesPrefixes ↔ m.Guarded) ∧
    ((∀ rest, Returns negotiationEof (handshake auth : ReadCode False _ _) X () rest → Accepts X) ↔
      ¬ClosesInResponse auth X) := by
  refine ⟨refusesPrefixes_iff m, fun h hclosed => ?_, fun h rest hr => ?_⟩
  · obtain ⟨rfl, username, password, rfl, hvalid⟩ := hclosed
    rcases h [] (returns_of_outcome (handshake_closed hvalid)) with ⟨Y, hY⟩ | ⟨Y, hY⟩
    · exact absurd (cons.inj (cons.inj hY).2).1 (by decide)
    · cases (cons.inj (cons.inj (cons.inj hY).2).2).2
  · exact (handshake_heard (returns_iff.mp hr)).resolve_right h

/-- A reply to credentials, cut to its version, is a success; the negotiation takes it for one. -/
theorem early_end_accepted : ¬(Message.passwdAuthResponse ⟨1⟩).RefusesPrefixes ∧
      ¬(Message.handshakeRequest ⟨replicate 256 0⟩).RefusesPrefixes ∧
      [version, authMethodPassword, 0x01] <+: [version, authMethodPassword] ++ PasswdAuthResponse.bytes ⟨1⟩ ∧
      Returns negotiationEof (handshake (.usernamePassword [117] [112]) : ReadCode False _ _)
        [version, authMethodPassword, 0x01] () [] := by
  refine ⟨fun h => (refusesPrefixes_iff _).mp h, fun h => ?_, ⟨[1], rfl⟩, ?_⟩
  · have hle : (replicate 256 (0 : UInt8)).length ≤ 255 := (refusesPrefixes_iff _).mp h
    rw [length_replicate] at hle
    omega
  · exact returns_of_outcome (handshake_closed (by decide))

/-- A request of one method, and a proxy that refuses the credentials. -/
theorem early_ends_refused_one : (Message.handshakeRequest ⟨[authMethodNone]⟩).RefusesPrefixes ∧
      ∀ rest, ¬Returns negotiationEof (handshake (.usernamePassword [117] [112]) : ReadCode False _ _)
        [version, authMethodPassword, 0x01, 0x01] () rest := by
  obtain ⟨hmessage, hnegotiation⟩ := early_ends_refused_iff (.handshakeRequest ⟨[authMethodNone]⟩)
    (.usernamePassword [117] [112]) [version, authMethodPassword, 0x01, 0x01]
  refine ⟨hmessage.mpr (by decide : 1 ≤ 255), fun rest h => ?_⟩
  have hopen : ¬ClosesInResponse (.usernamePassword [117] [112]) [version, authMethodPassword, 0x01, 0x01] :=
    fun hclosed => by cases hclosed.1
  rcases hnegotiation.mpr hopen rest h with ⟨Y, hY⟩ | ⟨Y, hY⟩
  · exact absurd (cons.inj (cons.inj hY).2).1 (by decide)
  · exact absurd (cons.inj (cons.inj (cons.inj (cons.inj hY).2).2).2).1 (by decide)

end Socks5

end Shadowsocks
