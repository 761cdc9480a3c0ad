/-
  Subject:   TARGET ADDRESSES (`crates/shadowsocks/src/relay/socks5.rs`), read from a buffer (`readCursor`) and from
  an asynchronous stream (`readFrom`).
-/
import Shadowsocks.Lib.Outcome
import Shadowsocks.Lib.Reader

namespace Shadowsocks

open Lib List Outcome Cursor

structure SocketAddrV4 where
  ip : UInt32
  port : UInt16
  deriving DecidableEq

structure SocketAddrV6 where
  ip : BitVec 128
  port : UInt16
  (flowinfo scopeId : UInt32)
  deriving DecidableEq

inductive SocketAddr where
  | v4 (addr : SocketAddrV4)
  | v6 (addr : SocketAddrV6)
  deriving DecidableEq

inductive Address where
  | socketAddress (addr : SocketAddr)
  | domainNameAddress (name : String) (port : UInt16)
  deriving DecidableEq

namespace Socks5

inductive Error where
  | ioError (e : IoError)
  | addressTypeNotSupported (atyp : UInt8)
  | addressDomainInvalidEncoding
  deriving DecidableEq

def addrTypeIpv4 : UInt8 := 0x01

def addrTypeDomainName : UInt8 := 0x03

def addrTypeIpv6 : UInt8 := 0x04

end Socks5

open Socks5

/-! ## 1. Writing -/

def utf8Bytes (s : String) : Bytes := s.toUTF8.data.toList

def fromUtf8 (bs : Bytes) : Option String := String.fromUTF8? ⟨bs.toArray⟩

@[simp] theorem fromUtf8_utf8Bytes (s : String) : fromUtf8 (utf8Bytes s) = some s :=
  dif_pos s.isValidUTF8

def Address.bytes : Address → Bytes
  | .socketAddress (.v4 a) => addrTypeIpv4 :: (beBytes 4 a.ip.toNat ++ put16 a.port)
  | .socketAddress (.v6 a) => addrTypeIpv6 :: (beBytes 16 a.ip.toNat ++ put16 a.port)
  | .domainNameAddress name port =>
    addrTypeDomainName :: UInt8.ofNat (utf8Bytes name).length :: (utf8Bytes name ++ put16 port)

def Address.Fits : Address → Prop
  | .socketAddress _ => True
  | .domainNameAddress name _ => (utf8Bytes name).length ≤ 255

instance : (a : Address) → Decidable a.Fits
  | .socketAddress _ => inferInstanceAs (Decidable True)
  | .domainNameAddress name _ => inferInstanceAs (Decidable ((utf8Bytes name).length ≤ 255))

def Address.writeToBuf {ε : Type} (a : Address) : Outcome ε Bytes :=
  if a.Fits then .ok a.bytes else .panic

def Address.serializedLen : Address → Nat
  | .socketAddress (.v4 _) => 1 + 4 + 2
  | .socketAddress (.v6 _) => 1 + 8 * 2 + 2
  | .domainNameAddress name _ => 1 + 1 + (utf8Bytes name).length + 2

def Address.asRead : Address → Address
  | .socketAddress (.v6 a) => .socketAddress (.v6 { a with flowinfo := 0, scopeId := 0 })
  | a => a

theorem Address.bytes_length (a : Address) : a.bytes.length = a.serializedLen := by
  rcases a with (a | a) | ⟨name, port⟩
  · simp [bytes, serializedLen]
  · simp [bytes, serializedLen]
  · simp only [bytes, serializedLen, length_cons, length_append, put16_length]
    omega

variable {a : Address}

theorem Address.serializedLen_le (ha : a.Fits) : a.serializedLen ≤ 259 := by
  rcases a with (a | a) | ⟨name, port⟩
  · exact Nat.le_of_ble_eq_true rfl
  · exact Nat.le_of_ble_eq_true rfl
  · have hname : (utf8Bytes name).length ≤ 255 := ha
    rw [serializedLen]
    omega

/-! ## 2. Reading from a buffer -/

def readCursorIpv4 (c : Cursor) : Outcome Error (Address × Cursor) := do
  if c.remaining < 4 + 2 then .err (.ioError (.other "invalid buf"))
  else
    let (ip, c) ← c.get 4 fun bs => UInt32.ofNat (beNat bs)
    let (port, c) ← c.getU16
    return (.socketAddress (.v4 ⟨ip, port⟩), c)

def readCursorIpv6 (c : Cursor) : Outcome Error (Address × Cursor) := do
  if c.remaining < 16 + 2 then .err (.ioError (.other "invalid buf"))
  else
    let (ip, c) ← c.get 16 fun bs => BitVec.ofNat 128 (beNat bs)
    let (port, c) ← c.getU16
    return (.socketAddress (.v6 ⟨ip, port, 0, 0⟩), c)

def readCursorDomainName (c : Cursor) : Outcome Error (Address × Cursor) := do
  let (domainLen, c) ← c.getU8
  if c.remaining < domainLen.toNat then .err .addressDomainInvalidEncoding
  else
    let (buf, c) ← c.take domainLen.toNat
    let (port, c) ← c.getU16
    match fromUtf8 buf with
    | none => .err .addressDomainInvalidEncoding
    | some addr => return (.domainNameAddress addr port, c)

def Address.readCursor (c : Cursor) : Outcome Error (Address × Cursor) := do
  if c.remaining < 2 then .err (.ioError (.other "invalid buf"))
  else
    let (atyp, c) ← c.getU8
    if atyp = addrTypeIpv4 then readCursorIpv4 c
    else if atyp = addrTypeIpv6 then readCursorIpv6 c
    else if atyp = addrTypeDomainName then readCursorDomainName c
    else .err (.addressTypeNotSupported atyp)

theorem ofNat_beNat_ip4 (ip : UInt32) : UInt32.ofNat (beNat (beBytes 4 ip.toNat)) = ip := by
  have hlt : ip.toNat < 256 ^ 4 := lt_of_lt_of_eq ip.toNat_lt (by decide)
  rw [beNat_beBytes, Nat.mod_eq_of_lt hlt, UInt32.ofNat_toNat]

theorem ofNat_beNat_ip6 (ip : BitVec 128) : BitVec.ofNat 128 (beNat (beBytes 16 ip.toNat)) = ip := by
  have hlt : ip.toNat < 256 ^ 16 := lt_of_lt_of_eq ip.isLt (by decide)
  rw [beNat_beBytes, Nat.mod_eq_of_lt hlt]
  exact BitVec.eq_of_toNat_eq (by simp)

theorem toNat_ofNat_length {n : Nat} (h : n ≤ 255) : (UInt8.ofNat n).toNat = n := by
  rw [UInt8.toNat_ofNat', Nat.mod_eq_of_lt (by omega)]

variable {c : Cursor} {ys : Bytes} {port : UInt16}

theorem readCursorIpv4_bytes {ip : UInt32} (h : c.rest = beBytes 4 ip.toNat ++ (put16 port ++ ys)) :
    readCursorIpv4 c = .ok (.socketAddress (.v4 ⟨ip, port⟩), c.advance 6) := by
  have hlen : 6 ≤ c.remaining := by
    have := remaining_of_rest (h.trans (append_assoc _ _ _).symm)
    simpa using this
  obtain ⟨hip, hr⟩ := get_of_rest (ε := Error) h (beBytes_length 4 _)
    fun bs => UInt32.ofNat (beNat bs)
  obtain ⟨hport, -⟩ := getU16_of_rest (ε := Error) hr
  rw [readCursorIpv4, if_neg (by omega), hip, ofNat_beNat_ip4]
  simp only [ok_bind, hport, pure_eq, advance_advance]

theorem readCursorIpv6_bytes {ip : BitVec 128} (h : c.rest = beBytes 16 ip.toNat ++ (put16 port ++ ys)) :
    readCursorIpv6 c = .ok (.socketAddress (.v6 ⟨ip, port, 0, 0⟩), c.advance 18) := by
  have hlen : 18 ≤ c.remaining := by
    have := remaining_of_rest (h.trans (append_assoc _ _ _).symm)
    simpa using this
  obtain ⟨hip, hr⟩ := get_of_rest (ε := Error) h (beBytes_length 16 _)
    fun bs => BitVec.ofNat 128 (beNat bs)
  obtain ⟨hport, -⟩ := getU16_of_rest (ε := Error) hr
  rw [readCursorIpv6, if_neg (by omega), hip, ofNat_beNat_ip6]
  simp only [ok_bind, hport, pure_eq, advance_advance]

theorem readCursorDomainName_bytes {name : String} (hname : (utf8Bytes name).length ≤ 255)
    (h : c.rest = UInt8.ofNat (utf8Bytes name).length :: (utf8Bytes name ++ (put16 port ++ ys))) :
    readCursorDomainName c = .ok (.domainNameAddress name port, c.advance (1 + (utf8Bytes name).length + 2)) := by
  obtain ⟨hl, hr⟩ := getU8_of_rest (ε := Error) h
  obtain ⟨hn, hr'⟩ := get_of_rest (ε := Error) hr rfl id
  obtain ⟨hport, -⟩ := getU16_of_rest (ε := Error) hr'
  simp only [advance_advance] at hn hport
  rw [readCursorDomainName, hl]
  simp only [ok_bind, toNat_ofNat_length hname]
  rw [if_neg (not_lt.mpr (remaining_of_rest hr)), Cursor.take, hn]
  simp only [ok_bind, hport, id_eq, fromUtf8_utf8Bytes, pure_eq]

theorem readCursor_bytes (ha : a.Fits) (h : c.rest = a.bytes ++ ys) :
    Address.readCursor c = .ok (a.asRead, c.advance a.serializedLen) := by
  have hlen : ¬ c.remaining < 2 := by
    have := remaining_of_rest h
    rw [Address.bytes_length] at this
    rcases a with (a | a) | ⟨name, port⟩ <;> simp only [Address.serializedLen] at this <;> omega
  rcases a with (a | a) | ⟨name, port⟩
  · obtain ⟨hatyp, hr⟩ := getU8_of_rest (ε := Error) h
    rw [Address.readCursor, if_neg hlen, hatyp]
    simp only [ok_bind, if_pos, readCursorIpv4_bytes hr, advance_advance]
    rfl
  · rw [Address.bytes, cons_append, append_assoc] at h
    obtain ⟨hatyp, hr⟩ := getU8_of_rest (ε := Error) h
    rw [Address.readCursor, if_neg hlen, hatyp]
    simp only [ok_bind, if_neg (by decide : ¬ addrTypeIpv6 = addrTypeIpv4), if_pos,
      readCursorIpv6_bytes hr, advance_advance]
    rfl
  rw [Address.bytes, cons_append, cons_append, append_assoc] at h
  obtain ⟨hatyp, hr⟩ := getU8_of_rest (ε := Error) h
  rw [Address.readCursor, if_neg hlen, hatyp]
  simp only [ok_bind, if_neg (by decide : ¬ addrTypeDomainName = addrTypeIpv4),
    if_neg (by decide : ¬ addrTypeDomainName = addrTypeIpv6), if_pos,
    readCursorDomainName_bytes ha hr, advance_advance, Address.asRead,
    Address.serializedLen, add_assoc]

/-! ## 3. When reading from a buffer panics -/

theorem readCursorIpv4_ne_panic (c : Cursor) : readCursorIpv4 c ≠ .panic := by
  unfold readCursorIpv4
  split
  · nofun
  · rw [get_ok (by omega), ok_bind]
    simp only [Cursor.getU16]
    rw [get_ok (by rw [remaining_advance]; omega), ok_bind]
    nofun

theorem readCursorIpv6_ne_panic (c : Cursor) : readCursorIpv6 c ≠ .panic := by
  unfold readCursorIpv6
  split
  · nofun
  · rw [get_ok (by omega), ok_bind]
    simp only [Cursor.getU16]
    rw [get_ok (by rw [remaining_advance]; omega), ok_bind]
    nofun

theorem readCursorDomainName_panic_iff {len : UInt8} {tail : Bytes} (h : c.rest = len :: tail) :
    readCursorDomainName c = .panic ↔ len.toNat ≤ tail.length ∧ tail.length < len.toNat + 2 := by
  obtain ⟨hl, hr⟩ := getU8_of_rest (ε := Error) h
  have hrem : (c.advance 1).remaining = tail.length := by rw [Cursor.remaining, hr]
  rw [readCursorDomainName, hl]
  simp only [ok_bind, hrem]
  by_cases hshort : tail.length < len.toNat
  · rw [if_pos hshort]
    exact ⟨fun h => (by cases h), fun h => by omega⟩
  rw [if_neg hshort, Cursor.take, get_ok (by omega), ok_bind]
  simp only [Cursor.getU16]
  by_cases hport : 2 ≤ tail.length - len.toNat
  · rw [get_ok (by rw [remaining_advance, hrem]; exact hport), ok_bind]
    refine ⟨fun h => ?_, fun h => by omega⟩
    split at h <;> cases h
  · rw [get_panic_iff.mpr (by rw [remaining_advance, hrem]; omega)]
    exact ⟨fun _ => by omega, fun _ => rfl⟩

theorem readCursor_panic_iff (c : Cursor) :
    Address.readCursor c = .panic ↔ ∃ len tail, c.rest = addrTypeDomainName :: len :: tail ∧
      len.toNat ≤ tail.length ∧ tail.length < len.toNat + 2 := by
  unfold Address.readCursor
  by_cases hshort : c.remaining < 2
  · rw [if_pos hshort]
    refine ⟨fun h => (by cases h), ?_⟩
    rintro ⟨len, tail, h, -⟩
    rw [Cursor.remaining, h, length_cons, length_cons] at hshort
    omega
  rw [if_neg hshort]
  obtain ⟨atyp, rest, h⟩ := exists_cons_of_length_pos
    (by rw [Cursor.remaining] at hshort; omega : 0 < c.rest.length)
  obtain ⟨len, tail, rfl⟩ := exists_cons_of_length_pos
    (by rw [Cursor.remaining, h, length_cons] at hshort; omega : 0 < rest.length)
  obtain ⟨ha, hr⟩ := getU8_of_rest (ε := Error) h
  rw [ha, ok_bind]
  simp only [h, cons.injEq]
  by_cases h4 : atyp = addrTypeIpv4
  · subst h4
    simp only [if_true, readCursorIpv4_ne_panic, false_iff]
    rintro ⟨_, _, ⟨h, _⟩, _⟩
    exact absurd h (by decide)
  by_cases h6 : atyp = addrTypeIpv6
  · subst h6
    simp only [if_neg h4, if_true, readCursorIpv6_ne_panic, false_iff]
    rintro ⟨_, _, ⟨h, _⟩, _⟩
    exact absurd h (by decide)
  by_cases hd : atyp = addrTypeDomainName
  · subst hd
    simp only [if_neg h4, if_neg h6, if_true, readCursorDomainName_panic_iff hr]
    constructor
    · exact fun h => ⟨len, tail, ⟨trivial, rfl, rfl⟩, h⟩
    · rintro ⟨_, _, ⟨_, rfl, rfl⟩, h⟩
      exact h
  · simp only [if_neg h4, if_neg h6, if_neg hd]
    refine ⟨fun h => (by cases h), ?_⟩
    rintro ⟨_, _, ⟨h, _⟩, _⟩
    exact absurd h hd

/-! ## 4. Where reading from a buffer ends -/

variable {x : Address × Cursor} {c' : Cursor}

theorem readCursorIpv4_within (hc : c'.Within c) (h : readCursorIpv4 c = .ok x) : c'.Within x.2 := by
  unfold readCursorIpv4 at h
  split at h
  · cases h
  · obtain ⟨⟨_, c₁⟩, h₁, h⟩ := bind_ok_iff.mp h
    obtain ⟨⟨_, c₂⟩, h₂, h⟩ := bind_ok_iff.mp h
    cases h
    exact (hc.get h₁).get h₂

theorem readCursorIpv6_within (hc : c'.Within c) (h : readCursorIpv6 c = .ok x) : c'.Within x.2 := by
  unfold readCursorIpv6 at h
  split at h
  · cases h
  · obtain ⟨⟨_, c₁⟩, h₁, h⟩ := bind_ok_iff.mp h
    obtain ⟨⟨_, c₂⟩, h₂, h⟩ := bind_ok_iff.mp h
    cases h
    exact (hc.get h₁).get h₂

theorem readCursorDomainName_within (hc : c'.Within c) (h : readCursorDomainName c = .ok x) : c'.Within x.2 := by
  obtain ⟨⟨_, c₁⟩, h₁, h⟩ := bind_ok_iff.mp h
  simp only at h
  split at h
  · cases h
  obtain ⟨⟨_, c₂⟩, h₂, h⟩ := bind_ok_iff.mp h
  obtain ⟨⟨_, c₃⟩, h₃, h⟩ := bind_ok_iff.mp h
  split at h
  · cases h
  · cases h
    exact ((hc.get h₁).get h₂).get h₃

theorem readCursor_within (h : Address.readCursor c = .ok x) : c.Within x.2 := by
  unfold Address.readCursor at h
  split at h
  · cases h
  obtain ⟨⟨atyp, c₁⟩, h₁, h⟩ := bind_ok_iff.mp h
  have hc := get_within h₁ (.inl one_pos)
  simp only at h
  split at h
  · exact readCursorIpv4_within hc h
  split at h
  · exact readCursorIpv6_within hc h
  · split at h
    · exact readCursorDomainName_within hc h
    · cases h

/-! ## 5. Reading from a stream -/

section

variable {σ E ε : Type} (poll : PollRead E σ ε) (eofErr : ε) (wrap : Error → ε)

def Address.readFrom : Async σ E ε Address := do
  let addrTypeBuf ← readExact poll eofErr 1
  let addrType := UInt8.ofNat (beNat addrTypeBuf)
  if addrType = addrTypeIpv4 then do
    let buf ← readExact poll eofErr 6
    pure (.socketAddress (.v4 ⟨UInt32.ofNat (beNat (buf.take 4)), get16 (buf.drop 4)⟩))
  else if addrType = addrTypeIpv6 then do
    let buf ← readExact poll eofErr 18
    pure (.socketAddress (.v6 ⟨BitVec.ofNat 128 (beNat (buf.take 16)), get16 (buf.drop 16), 0, 0⟩))
  else if addrType = addrTypeDomainName then do
    let lengthBuf ← readExact poll eofErr 1
    let length := (UInt8.ofNat (beNat lengthBuf)).toNat
    let rawAddr ← readExact poll eofErr (length + 2)
    match fromUtf8 (rawAddr.take length) with
    | none => Async.fail (wrap .addressDomainInvalidEncoding)
    | some addr => pure (.domainNameAddress addr (get16 (rawAddr.drop length)))
  else Async.fail (wrap (.addressTypeNotSupported addrType))

end

section

variable {σ E ε : Type} {poll : PollRead E σ ε} {ok : E → σ → Prop}
  {I : σ → Bytes → Prop} {μ : σ → Nat}

theorem readFrom_bytes (hS : Serves poll ok I μ) (hcap : Bounded poll) (eofErr : ε) (wrap : Error → ε) (ha : a.Fits) :
    Consumes poll ok I μ (Address.readFrom poll eofErr wrap) a.bytes a.asRead := by
  have hbyte : ∀ b : UInt8, Consumes poll ok I μ (readExact poll eofErr 1) [b] [b] :=
    fun b => readExact_consumes hS hcap eofErr rfl
  rcases a with (a | a) | ⟨name, port⟩
  · refine consumes_cons (hbyte _) ?_
    refine consumes_last (readExact_consumes hS hcap eofErr (by simp)) ?_
    rw [take_left' (beBytes_length 4 _), drop_left' (beBytes_length 4 _), ofNat_beNat_ip4, get16_put16]
    rfl
  · refine consumes_cons (hbyte _) ?_
    rw [beNat_singleton, if_neg (by decide), if_pos rfl]
    refine consumes_last (readExact_consumes hS hcap eofErr (by simp)) ?_
    rw [take_left' (beBytes_length 16 _), drop_left' (beBytes_length 16 _), ofNat_beNat_ip6, get16_put16]
    rfl
  refine consumes_cons (hbyte _) ?_
  refine consumes_cons (hbyte _) ?_
  simp only [beNat_singleton, toNat_ofNat_length ha]
  refine consumes_last (readExact_consumes hS hcap eofErr (by simp)) ?_
  rw [take_left, drop_left, fromUtf8_utf8Bytes, get16_put16]
  rfl

end

end Shadowsocks
