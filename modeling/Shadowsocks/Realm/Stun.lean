/-
  Subject:   STUN: reading a binding response, and asking one server after the other
  (`crates/shadowsocks-realm/src/stun.rs`, `discover_addresses` of `session.rs`).
  A response is read exactly (2); a discovery asks whom it should, and when it warns of a symmetric NAT (3).
-/
import Mathlib.Data.Finset.Card
import Mathlib.Data.List.Pairwise
import Shadowsocks.Acl.Rules
import Shadowsocks.Realm.Punch

namespace Shadowsocks.Realm.Stun

open Lib Acl Punch Udp.Aead2022 Server.SocketAddr List Outcome

def magicCookie : UInt32 := 0x2112A442

def bindingSuccess : UInt16 := 0x0101

def attrMappedAddress : UInt16 := 0x0001

def attrXorMappedAddress : UInt16 := 0x0020

def headerLen : Nat := 20

def txidLen : Nat := 12

inductive Error where
  | stun (text : String)
  deriving DecidableEq

/-! ## 1. Address attributes -/

structure Masking where
  port : UInt16 → UInt16
  ip : Bytes → Bytes
  port_port : ∀ p, port (port p) = p
  ip_ip : ∀ bs, bs.length ≤ 16 → ip (ip bs) = bs
  ip_length : ∀ bs, bs.length ≤ 16 → (ip bs).length = bs.length

variable (txid : Block txidLen)

def xorKey : Bytes := beBytes 4 magicCookie.toNat ++ txid.1

theorem xorKey_take_length {bs : Bytes} (h : bs.length ≤ 16) :
    bs.length = ((xorKey txid).take bs.length).length := by
  have htxid : txid.1.length = 12 := txid.2
  simp only [xorKey, length_take, length_append, beBytes_length, htxid]
  omega

def Masking.xor : Masking where
  port p := p ^^^ (magicCookie >>> 16).toUInt16
  ip bs := xorBytes bs ((xorKey txid).take bs.length)
  port_port p := by rw [UInt16.xor_assoc, UInt16.xor_self, UInt16.xor_zero]
  ip_ip bs h := by
    rw [xorBytes_length (xorKey_take_length txid h), xorBytes_self (xorKey_take_length txid h)]
  ip_length bs h := xorBytes_length (xorKey_take_length txid h)

def Masking.plain : Masking where
  port := id
  ip := id
  port_port _ := rfl
  ip_ip _ _ := rfl
  ip_length _ _ := rfl

def parseAddress (M : Masking) (val : Bytes) : Outcome Error (Option SocketAddr) :=
  if val.length < 8 then .ok none
  else do
    let family ← slice 1 2 val
    let port ← slice 2 4 val
    if family = [0x01] then do
      let ip ← slice 4 8 val
      pure (some (.v4 ⟨UInt32.ofNat (beNat (M.ip ip)), M.port (get16 port)⟩))
    else if family = [0x02] ∧ 20 ≤ val.length then do
      let ip ← slice 4 20 val
      pure (some (.v6 ⟨BitVec.ofNat 128 (beNat (M.ip ip)), M.port (get16 port), 0, 0⟩))
    else pure none

def parseXorMapped (val : Bytes) (txid : Block txidLen) : Outcome Error (Option SocketAddr) :=
  parseAddress (.xor txid) val

def parseMapped (val : Bytes) : Outcome Error (Option SocketAddr) := parseAddress .plain val

def newAddr : IpAddr → UInt16 → SocketAddr
  | .v4 ip, port => .v4 ⟨ip, port⟩
  | .v6 ip, port => .v6 ⟨ip, port, 0, 0⟩

def family : IpAddr → UInt8
  | .v4 _ => 0x01
  | .v6 _ => 0x02

def ipBytes : IpAddr → Bytes
  | .v4 ip => beBytes 4 ip.toNat
  | .v6 ip => beBytes 16 ip.toNat

def encodeAddress (M : Masking) (reserved : UInt8) (port : UInt16) (ip : IpAddr) : Bytes :=
  reserved :: family ip :: (put16 (M.port port) ++ M.ip (ipBytes ip))

def Encodes (M : Masking) (val : Bytes) (sa : SocketAddr) : Prop :=
  ∃ reserved ip port extra, val = encodeAddress M reserved port ip ++ extra ∧ sa = newAddr ip port

variable {M : Masking} {val p q extra : Bytes} {sa : SocketAddr} {r : UInt8} {n : Nat}

theorem slice_parts (hp : p.length = 2) (hq : q.length = n) (r f : UInt8) (extra : Bytes) :
    slice 1 2 (r :: f :: (p ++ (q ++ extra))) = (.ok [f] : Outcome Error _) ∧
      slice 2 4 (r :: f :: (p ++ (q ++ extra))) = (.ok p : Outcome Error _) ∧
        slice 4 (4 + n) (r :: f :: (p ++ (q ++ extra))) = (.ok q : Outcome Error _) :=
  ⟨slice_append [r] [f] _ rfl rfl, slice_append [r, f] p _ rfl (by rw [hp]; rfl),
    slice_append (r :: f :: p) q extra (by simp [hp]) (by simp [hp, hq])⟩

theorem ip_ipBytes_length (M : Masking) (ip : IpAddr) : (M.ip (ipBytes ip)).length = (ipBytes ip).length :=
  M.ip_length _ (by cases ip <;> simp [ipBytes])

theorem parseAddress_of_encodes (h : Encodes M val sa) : parseAddress M val = .ok (some sa) := by
  obtain ⟨reserved, ip, port, extra, rfl, rfl⟩ := h
  obtain ⟨hfamily, hport, hip⟩ :=
    slice_parts (put16_length (M.port port)) (ip_ipBytes_length M ip) reserved (family ip) extra
  have hlength : (encodeAddress M reserved port ip ++ extra).length = 4 + ((ipBytes ip).length + extra.length) := by
    simp only [encodeAddress, cons_append, length_cons, length_append, put16_length, ip_ipBytes_length]
    omega
  rw [← append_assoc, ← cons_append, ← cons_append, ← encodeAddress] at hfamily hport hip
  cases ip with
  | v4 ip =>
    rw [ipBytes, beBytes_length] at hip hlength
    rw [family] at hfamily
    rw [parseAddress, if_neg (by omega), hfamily, ok_bind, hport, ok_bind, if_pos rfl, hip,
      ok_bind, M.ip_ip _ (by simp), ofNat_beNat_ip4, get16_put16, M.port_port]
    rfl
  | v6 ip =>
    rw [ipBytes, beBytes_length] at hip hlength
    rw [family] at hfamily
    rw [parseAddress, if_neg (by omega), hfamily, ok_bind, hport, ok_bind, if_neg (by decide),
      if_pos ⟨rfl, by omega⟩, hip, ok_bind, M.ip_ip _ (by simp), ofNat_beNat_ip6, get16_put16, M.port_port]
    rfl

theorem exists_parts (h : 4 + n ≤ val.length) :
    ∃ r f p q extra, val = r :: f :: (p ++ (q ++ extra)) ∧ p.length = 2 ∧ q.length = n := by
  obtain _ | ⟨r, _ | ⟨f, rest⟩⟩ := val
  · simp at h
  · simp only [length_cons, length_nil] at h
    omega
  simp only [length_cons] at h
  refine ⟨r, f, rest.take 2, (rest.drop 2).take n, (rest.drop 2).drop n, by simp only [take_append_drop], ?_, ?_⟩
  · rw [length_take]
    omega
  · rw [length_take, length_drop]
    omega

theorem encodes_parts (hp : p.length = 2) (hq : q.length ≤ 16) {ip : IpAddr} (hip : ipBytes ip = M.ip q) :
    Encodes M (r :: family ip :: (p ++ (q ++ extra))) (newAddr ip (M.port (get16 p))) := by
  refine ⟨r, ip, _, extra, ?_, rfl⟩
  rw [encodeAddress, hip, M.ip_ip q hq, M.port_port, put16_get16 hp]
  simp

theorem beBytes_masked (hn : n ≤ 16) (hq : q.length = n) : beBytes n (beNat (M.ip q) % 256 ^ n) = M.ip q := by
  have hlength : (M.ip q).length = n := by rw [M.ip_length q (by omega), hq]
  rw [Nat.mod_eq_of_lt (hlength ▸ beNat_lt _), ← hlength, beBytes_beNat]

theorem encodes_v4 (hp : p.length = 2) (hq : q.length = 4) : ∃ sa, Encodes M (r :: 0x01 :: (p ++ (q ++ extra))) sa := by
  have hip : ipBytes (.v4 (UInt32.ofNat (beNat (M.ip q)))) = M.ip q := by
    rw [ipBytes, UInt32.toNat_ofNat']
    exact beBytes_masked (by decide) hq
  exact ⟨_, encodes_parts hp (by omega) hip⟩

theorem encodes_v6 (hp : p.length = 2) (hq : q.length = 16) :
    ∃ sa, Encodes M (r :: 0x02 :: (p ++ (q ++ extra))) sa := by
  have hip : ipBytes (.v6 (BitVec.ofNat 128 (beNat (M.ip q)))) = M.ip q := by
    rw [ipBytes, BitVec.toNat_ofNat]
    exact beBytes_masked le_rfl hq
  exact ⟨_, encodes_parts hp (by omega) hip⟩

theorem parseAddress_spec (M : Masking) (val : Bytes) :
    parseAddress M val = .ok none ∨ ∃ sa, parseAddress M val = .ok (some sa) ∧ Encodes M val sa := by
  by_cases hshort : val.length < 8
  · exact .inl (if_pos hshort)
  by_cases hvalid : ∃ sa, Encodes M val sa
  · exact .inr (hvalid.imp fun sa h => ⟨parseAddress_of_encodes h, h⟩)
  have hlong : 4 + 4 ≤ val.length := by omega
  obtain ⟨r, f, p, q, extra, rfl, hp, hq⟩ := exists_parts hlong
  obtain ⟨hfamily, hport, -⟩ := slice_parts hp hq r f extra
  have h4 : f ≠ 0x01 := by
    rintro rfl
    exact hvalid (encodes_v4 hp hq)
  have h6 : ¬ (f = 0x02 ∧ 4 + 16 ≤ (r :: f :: (p ++ (q ++ extra))).length) := by
    rintro ⟨rfl, hlong⟩
    obtain ⟨r', f', p', q', extra', heq, hp', hq'⟩ := exists_parts hlong
    rw [heq, ← (cons.inj (cons.inj heq).2).1] at hvalid
    exact hvalid (encodes_v6 hp' hq')
  left
  rw [parseAddress, if_neg hshort, hfamily, ok_bind, hport, ok_bind, if_neg (by simpa using h4),
    if_neg (by simpa using h6)]
  rfl

theorem parseAddress_some_iff : parseAddress M val = .ok (some sa) ↔ Encodes M val sa := by
  refine ⟨fun h => ?_, parseAddress_of_encodes⟩
  rcases parseAddress_spec M val with hnone | ⟨sa', hsome, hencodes⟩
  · rw [hnone] at h
    cases h
  · rw [hsome] at h
    cases h
    exact hencodes

/-! ## 2. Binding responses -/

def finish : Option SocketAddr → Outcome Error SocketAddr
  | some sa => .ok sa
  | none => .err (.stun "no address attribute in response")

/-- The `while` of `parse_binding_response`; with too few turns it panics. -/
def walk (pkt : Bytes) (txid : Block txidLen) (stop : Nat) : Nat → Nat → Option SocketAddr → Outcome Error SocketAddr
  | 0, _, _ => .panic
  | turns + 1, off, fallback =>
    if off + 4 ≤ stop then do
      let atype ← slice off (off + 2) pkt
      let len ← slice (off + 2) (off + 4) pkt
      let alen := (get16 len).toNat
      let vend := off + 4 + alen
      if stop < vend then finish fallback
      else do
        let val ← slice (off + 4) vend pkt
        let next := vend + (4 - alen % 4) % 4
        if get16 atype = attrXorMappedAddress then do
          match ← parseXorMapped val txid with
          | some sa => .ok sa
          | none => walk pkt txid stop turns next fallback
        else if get16 atype = attrMappedAddress ∧ fallback = none then do
          let fallback ← parseMapped val
          walk pkt txid stop turns next fallback
        else walk pkt txid stop turns next fallback
    else finish fallback

def hex (mtype : UInt16) : String :=
  let digits := Nat.toDigits 16 mtype.toNat
  "0x" ++ String.ofList (replicate (4 - digits.length) '0' ++ digits)

def parseBindingResponse (pkt : Bytes) (txid : Block txidLen) : Outcome Error SocketAddr :=
  if pkt.length < headerLen then .err (.stun "response shorter than header")
  else do
    let mtype ← slice 0 2 pkt
    let mlen ← slice 2 4 pkt
    let cookie ← slice 4 8 pkt
    let id ← slice 8 20 pkt
    if get16 mtype ≠ bindingSuccess then .err (.stun ("not a binding success: " ++ hex (get16 mtype)))
    else if UInt32.ofNat (beNat cookie) ≠ magicCookie then .err (.stun "bad magic cookie")
    else if id ≠ txid.1 then .err (.stun "transaction id mismatch")
    else walk pkt txid (min (headerLen + (get16 mlen).toNat) pkt.length) (pkt.length + 1) headerLen none

structure Attribute where
  atype : UInt16
  (value padding : Bytes)
  value_lt : value.length < 65536
  aligned : padding.length = (4 - value.length % 4) % 4

def Attribute.encode (a : Attribute) : Bytes :=
  put16 a.atype ++ (put16 (UInt16.ofNat a.value.length) ++ (a.value ++ a.padding))

def body (attributes : List Attribute) : Bytes := attributes.flatMap Attribute.encode

structure Response where
  attributes : List Attribute
  trailing : Bytes
  fits : (body attributes).length < 65536

def Response.encode (resp : Response) : Bytes :=
  put16 bindingSuccess ++ (put16 (UInt16.ofNat (body resp.attributes).length) ++
    (beBytes 4 magicCookie.toNat ++ (txid.1 ++ (body resp.attributes ++ resp.trailing))))

/-- `sa` is the address of the first attribute of type `atype` that is valid. -/
def First (M : Masking) (atype : UInt16) (attributes : List Attribute) (sa : SocketAddr) : Prop :=
  ∃ before a after, attributes = before ++ a :: after ∧ (a.atype = atype ∧ Encodes M a.value sa) ∧
    ∀ b ∈ before, b.atype = atype → ∀ sb, ¬ Encodes M b.value sb

variable {pkt pre post : Bytes} {txid : Block txidLen} {stop turns off : Nat} {fallback : Option SocketAddr}
  {attributes : List Attribute}

theorem finish_ne_panic (fallback : Option SocketAddr) : finish fallback ≠ .panic := by
  cases fallback <;> exact nofun

theorem walk_ne_panic (hstop : stop ≤ pkt.length) (hpos : 0 < turns) (hturns : stop < off + turns) :
    walk pkt txid stop turns off fallback ≠ .panic := by
  induction turns generalizing off fallback with
  | zero => omega
  | succ turns ih =>
    rw [walk]
    split
    · have hnext : ∀ alen fallback, walk pkt txid stop turns (off + 4 + alen + (4 - alen % 4) % 4) fallback ≠ .panic :=
        fun alen fallback => ih (by omega) (by omega)
      rw [slice_ok (by omega) (by omega), ok_bind, slice_ok (by omega) (by omega), ok_bind]
      dsimp only
      generalize (get16 ((pkt.take (off + 4)).drop (off + 2))).toNat = alen
      split
      · exact finish_ne_panic fallback
      rw [slice_ok (by omega) (by omega), ok_bind]
      generalize (pkt.take (off + 4 + alen)).drop (off + 4) = val
      split
      · rcases parseAddress_spec (.xor txid) val with hnone | ⟨sa, hsome, -⟩
        · rw [parseXorMapped, hnone]
          exact hnext alen fallback
        · rw [parseXorMapped, hsome]
          exact nofun
      split
      · rcases parseAddress_spec .plain val with hnone | ⟨sa, hsome, -⟩
        · rw [parseMapped, hnone]
          exact hnext alen none
        · rw [parseMapped, hsome]
          exact hnext alen (some sa)
      · exact hnext alen fallback
    · exact finish_ne_panic fallback

/-- What one attribute gives: its address, if it is of type `atype` and valid. -/
def Attribute.address (M : Masking) (atype : UInt16) (a : Attribute) : Option SocketAddr :=
  if a.atype = atype then (parseAddress M a.value).toOption.join else none

theorem Attribute.encode_length (a : Attribute) :
    a.encode.length = 4 + a.value.length + (4 - a.value.length % 4) % 4 := by
  simp only [encode, length_append, put16_length, a.aligned]
  omega

theorem walk_encode (hpkt : pkt = pre ++ (body attributes ++ post)) (hoff : off = pre.length)
    (hstop : stop = pre.length + (body attributes).length) (hturns : attributes.length < turns) :
    walk pkt txid stop turns off fallback =
      finish (attributes.findSome? (Attribute.address (.xor txid) attrXorMappedAddress) <|> fallback <|>
        attributes.findSome? (Attribute.address .plain attrMappedAddress)) := by
  induction attributes generalizing pre off turns fallback with
  | nil =>
    obtain _ | turns := turns
    · cases hturns
    · rw [walk, if_neg (by simp [hoff, hstop, body])]
      simp
  | cons a attributes ih =>
    obtain _ | turns := turns
    · cases hturns
    have hbody : body (a :: attributes) = a.encode ++ body attributes := flatMap_cons
    have hlength := a.encode_length
    rw [hbody, length_append, hlength] at hstop
    -- the walk behind this attribute
    have hnext : ∀ fallback,
        walk pkt txid stop turns (off + 4 + a.value.length + (4 - a.value.length % 4) % 4) fallback =
        finish (attributes.findSome? (Attribute.address (.xor txid) attrXorMappedAddress) <|> fallback <|>
          attributes.findSome? (Attribute.address .plain attrMappedAddress)) := by
      intro fallback
      have hpkt' : pkt = (pre ++ a.encode) ++ (body attributes ++ post) := by
        rw [hpkt, hbody]
        simp only [append_assoc]
      refine ih hpkt' ?_ ?_ (Nat.lt_of_succ_lt_succ hturns)
      · rw [length_append, hlength, hoff]
        omega
      · rw [length_append, hlength, hstop]
        omega
    have hparts : pkt = pre ++ (put16 a.atype ++ (put16 (UInt16.ofNat a.value.length) ++
        (a.value ++ (a.padding ++ (body attributes ++ post))))) := by
      rw [hpkt, hbody, Attribute.encode]
      simp only [append_assoc]
    have htype : slice off (off + 2) pkt = (.ok (put16 a.atype) : Outcome Error _) := by
      rw [hparts]
      exact slice_append pre _ _ hoff (by rw [hoff, put16_length])
    have hlen : slice (off + 2) (off + 4) pkt = (.ok (put16 (UInt16.ofNat a.value.length)) : Outcome Error _) := by
      rw [hparts, ← append_assoc pre]
      exact slice_append _ _ _ (by simp [hoff]) (by simp [hoff])
    have hval : slice (off + 4) (off + 4 + a.value.length) pkt = (.ok a.value : Outcome Error _) := by
      rw [hparts, ← append_assoc pre, ← append_assoc (pre ++ _)]
      exact slice_append _ _ _ (by simp [hoff]) (by simp [hoff])
    rw [walk, if_pos (by omega), htype, ok_bind, hlen, ok_bind, put16_ofNat a.value_lt]
    rw [if_neg (by omega), hval, ok_bind, get16_put16]
    have htypes : attrMappedAddress ≠ attrXorMappedAddress := by decide
    split
    · rename_i hxor
      rw [parseXorMapped, findSome?_cons, Attribute.address, if_pos hxor, findSome?_cons,
        Attribute.address, if_neg (by rw [hxor]; exact htypes.symm)]
      rcases parseAddress_spec (.xor txid) a.value with hnone | ⟨sa, hsome, -⟩
      · rw [hnone]
        exact hnext fallback
      · rw [hsome]
        rfl
    rename_i hxor
    rw [findSome?_cons, Attribute.address, if_neg hxor, findSome?_cons, Attribute.address]
    split <;> rename_i hmapped
    · rw [if_pos hmapped.1, hmapped.2, parseMapped]
      rcases parseAddress_spec .plain a.value with hnone | ⟨sa, hsome, -⟩
      · rw [hnone]
        exact hnext none
      · rw [hsome]
        simpa [toOption] using hnext (some sa)
    · rw [hnext fallback]
      cases fallback with
      | none => rw [if_neg fun h => hmapped ⟨h, rfl⟩]
      | some sa => simp

theorem findSome_address_iff {atype : UInt16} :
    attributes.findSome? (Attribute.address M atype) = some sa ↔ First M atype attributes sa := by
  have hsome : ∀ a sa, Attribute.address M atype a = some sa ↔ a.atype = atype ∧ Encodes M a.value sa := by
    intro a sa
    rw [← parseAddress_some_iff, Attribute.address]
    split <;> rename_i htype
    · rcases parseAddress_spec M a.value with hnone | ⟨sa', hsome, -⟩
      · simp [hnone, htype, toOption]
      · simp [hsome, htype, toOption]
    · simp [htype]
  have hnone : ∀ a, Attribute.address M atype a = none ↔ (a.atype = atype → ∀ sb, ¬ Encodes M a.value sb) := by
    intro a
    rw [Option.eq_none_iff_forall_ne_some]
    simp only [ne_eq, hsome, not_and]
    exact forall_comm
  simp only [findSome?_eq_some_iff, First, hsome, hnone]

theorem length_le_body (attributes : List Attribute) : attributes.length ≤ (body attributes).length := by
  induction attributes with
  | nil => exact Nat.le_refl 0
  | cons a attributes ih =>
    have hbody : body (a :: attributes) = a.encode ++ body attributes := flatMap_cons
    rw [hbody, length_append, a.encode_length, length_cons]
    omega

theorem parseBindingResponse_ne_panic (pkt : Bytes) (txid : Block txidLen) :
    parseBindingResponse pkt txid ≠ .panic := by
  rw [parseBindingResponse]
  split
  · exact nofun
  rename_i hlong
  have hlength : 20 ≤ pkt.length := not_lt.mp hlong
  rw [slice_ok (by omega) (by omega), ok_bind, slice_ok (by omega) (by omega), ok_bind,
    slice_ok (by omega) (by omega), ok_bind, slice_ok (by omega) hlength, ok_bind]
  split
  · exact nofun
  split
  · exact nofun
  · split
    · exact nofun
    · exact walk_ne_panic (min_le_right _ _) (Nat.succ_pos _) (by omega)

theorem slice_header {a b c d : Bytes} (ha : a.length = 2) (hb : b.length = 2) (hc : c.length = 4) (hd : d.length = 12)
    (e : Bytes) : let pkt := a ++ (b ++ (c ++ (d ++ e)))
    slice 0 2 pkt = (.ok a : Outcome Error _) ∧ slice 2 4 pkt = (.ok b : Outcome Error _) ∧
      slice 4 8 pkt = (.ok c : Outcome Error _) ∧ slice 8 20 pkt = (.ok d : Outcome Error _) := by
  refine ⟨slice_append [] a _ rfl (by rw [ha]; rfl), slice_append a b _ ha.symm (by rw [ha, hb]), ?_, ?_⟩
  · rw [← append_assoc a]
    exact slice_append (a ++ b) c _ (by simp [ha, hb]) (by simp [ha, hb, hc])
  · rw [← append_assoc a, ← append_assoc (a ++ b)]
    exact slice_append (a ++ b ++ c) d _ (by simp [ha, hb, hc]) (by simp [ha, hb, hc, hd])

theorem parseBindingResponse_encode (resp : Response) :
    parseBindingResponse (resp.encode txid) txid =
      finish (resp.attributes.findSome? (Attribute.address (.xor txid) attrXorMappedAddress) <|>
        resp.attributes.findSome? (Attribute.address .plain attrMappedAddress)) := by
  have htxid : txid.1.length = 12 := txid.2
  have hlength : (resp.encode txid).length = 20 + ((body resp.attributes).length + resp.trailing.length) := by
    simp only [Response.encode, length_append, put16_length, beBytes_length, htxid]
    omega
  obtain ⟨htype, hlen, hcookie, hid⟩ := slice_header (put16_length bindingSuccess)
    (put16_length (UInt16.ofNat (body resp.attributes).length)) (beBytes_length 4 magicCookie.toNat) htxid
    (body resp.attributes ++ resp.trailing)
  rw [← Response.encode] at htype hlen hcookie hid
  have hstop : min (headerLen + (body resp.attributes).length) (resp.encode txid).length =
      20 + (body resp.attributes).length := by
    rw [hlength, headerLen]
    omega
  rw [parseBindingResponse, if_neg (by rw [hlength, headerLen]; omega), htype, ok_bind, hlen, ok_bind,
    hcookie, ok_bind, hid, ok_bind, get16_put16, if_neg (by simp), ofNat_beNat_ip4, if_neg (by simp),
    if_neg (by simp), put16_ofNat resp.fits, hstop]
  have hpkt : resp.encode txid = (put16 bindingSuccess ++ (put16 (UInt16.ofNat (body resp.attributes).length) ++
      (beBytes 4 magicCookie.toNat ++ txid.1))) ++ (body resp.attributes ++ resp.trailing) := by
    simp only [Response.encode, append_assoc]
  have hcount := length_le_body resp.attributes
  rw [walk_encode hpkt (by simp [headerLen, htxid]) (by simp [htxid]) (by omega)]
  simp

/-- The parser stays in the packet; a well-formed response gives its first valid `XOR-MAPPED-ADDRESS`, else
`MAPPED-ADDRESS`. -/
theorem parseBindingResponse_exact (txid : Block txidLen) : (∀ pkt, parseBindingResponse pkt txid ≠ .panic) ∧
      ∀ (resp : Response) sa, parseBindingResponse (resp.encode txid) txid = .ok sa ↔
        First (.xor txid) attrXorMappedAddress resp.attributes sa ∨
          (∀ sa, ¬ First (.xor txid) attrXorMappedAddress resp.attributes sa) ∧
            First .plain attrMappedAddress resp.attributes sa := by
  refine ⟨fun pkt => parseBindingResponse_ne_panic pkt txid, fun resp sa => ?_⟩
  rw [parseBindingResponse_encode]
  simp only [← findSome_address_iff]
  cases resp.attributes.findSome? (Attribute.address (.xor txid) attrXorMappedAddress) with
  | some sa' => simp [finish]
  | none =>
    cases resp.attributes.findSome? (Attribute.address .plain attrMappedAddress) with
    | some sa' | none => simp [finish]

def sampleTxid (k : Nat) : Block txidLen := ⟨replicate 12 (UInt8.ofNat k), length_replicate⟩

def firstAttributes : List Attribute :=
  [⟨attrMappedAddress, encodeAddress .plain 0 80 (.v4 0x0a000001), [], by decide, by decide⟩,
    ⟨0x8022, [115, 115], [0, 0], by decide, by decide⟩,
    ⟨attrXorMappedAddress, [0, 3, 0, 0, 0, 0, 0, 0], [], by decide, by decide⟩]

def lastAttribute : Attribute :=
  ⟨attrXorMappedAddress, encodeAddress (.xor (sampleTxid 0)) 0 4000 (.v6 1), [], by decide, by decide⟩

theorem first_invalid : ∀ a ∈ firstAttributes, a.atype = attrXorMappedAddress →
    ∀ sa, ¬ Encodes (.xor (sampleTxid 0)) a.value sa := by
  intro a ha htype sa h
  have hnone : ∀ a ∈ firstAttributes, a.atype = attrXorMappedAddress →
      parseAddress (.xor (sampleTxid 0)) a.value = .ok none := by decide +kernel
  exact absurd ((hnone a ha htype).symm.trans (parseAddress_of_encodes h)) nofun

theorem parseBindingResponse_exact_several :
    parseBindingResponse (Response.encode (sampleTxid 0) ⟨firstAttributes ++ [lastAttribute], [9], by decide⟩)
        (sampleTxid 0) = .ok (.v6 ⟨1, 4000, 0, 0⟩) ∧
      parseBindingResponse (Response.encode (sampleTxid 0) ⟨firstAttributes, [], by decide⟩) (sampleTxid 0) =
        .ok (.v4 ⟨0x0a000001, 80⟩) := by
  obtain ⟨-, hexact⟩ := parseBindingResponse_exact (sampleTxid 0)
  refine ⟨(hexact _ _).mpr (.inl ⟨firstAttributes, lastAttribute, [], rfl, ⟨rfl, 0, .v6 1, 4000, [], rfl, rfl⟩,
    first_invalid⟩), (hexact _ _).mpr (.inr ⟨?_, [], _, _, rfl, ⟨rfl, 0, .v4 0x0a000001, 80, [], rfl, rfl⟩, nofun⟩)⟩
  rintro sa ⟨before, a, after, happ, ⟨htype, h⟩, -⟩
  have hmem : a ∈ before ++ a :: after := mem_append_right _ mem_cons_self
  rw [← happ] at hmem
  exact first_invalid a hmem htype sa h

/-! ## 3. One server after the other -/

structure StunBinding where
  (server reflexive : SocketAddr)

/-- What `discover_all` meets: ids and arrivals of its exchanges. -/
structure Env where
  localIsV6 : Bool
  txid : Nat → Block txidLen
  arrivals : Nat → List Bytes

/-- `asked` is not in the code: the addresses that a request was sent to. -/
structure Collected where
  asked : List SocketAddr
  (haveV4 haveV6 : Bool)
  out : List StunBinding

namespace Env

variable (env : Env)

/-- `discover`: the first datagram that answers this request, whoever sent it. -/
def discover (k : Nat) : Option SocketAddr :=
  (env.arrivals k).findSome? fun pkt => (parseBindingResponse pkt (env.txid k)).toOption

def reachableFamilies : Bool × Bool := (true, env.localIsV6)

def wanted (c : Collected) (addr : SocketAddr) : Bool :=
  (if isV4 addr then env.reachableFamilies.1 else env.reachableFamilies.2) &&
    !((isV4 addr && c.haveV4) || (!isV4 addr && c.haveV6))

/-- A turn of the inner loop of `discover_all`. -/
def query (c : Collected) (addr : SocketAddr) : Collected :=
  if env.wanted c addr then
    match env.discover c.asked.length with
    | none => { c with asked := c.asked ++ [addr] }
    | some reflexive =>
      { asked := c.asked ++ [addr]
        haveV4 := isV4 reflexive || c.haveV4
        haveV6 := !isV4 reflexive || c.haveV6
        out := c.out ++ [⟨addr, reflexive⟩] }
  else c

/-- The loop of `discover_all` over the servers. -/
def discoverLoop : Collected → List (Option (List SocketAddr)) → Collected
  | c, [] => c
  | c, server :: servers =>
    if (c.haveV4 || !env.reachableFamilies.1) && (c.haveV6 || !env.reachableFamilies.2) then c
    else discoverLoop ((server.getD []).foldl env.query c) servers

def discoverAll (servers : List (Option (List SocketAddr))) : Collected :=
  env.discoverLoop ⟨[], false, false, []⟩ servers

end Env

def portOf : SocketAddr → UInt16
  | .v4 a => a.port
  | .v6 a => a.port

/-- The families `discover_addresses` warns of a symmetric NAT for, `true` for IPv4. -/
def symmetricFamilies (bindings : List StunBinding) : List Bool :=
  [true, false].filter fun familyV4 =>
    1 < ((bindings.filter fun b => isV4 b.reflexive == familyV4).map fun b => portOf b.reflexive).toFinset.card

namespace Env

variable (env : Env)

/-- One of the first `k` exchanges got an address of the family. -/
def reported (familyV4 : Bool) (k : Nat) : Bool := ((range k).filterMap env.discover).any (isV4 · == familyV4)

/-- The socket reaches the address, and none of its family has been reported. -/
def asks (k : Nat) (addr : SocketAddr) : Bool := (isV4 addr || env.localIsV6) && !env.reported (isV4 addr) k

/-- **Who is asked**, behind `k` exchanges, of a list of addresses. -/
def exchanges : Nat → List SocketAddr → List SocketAddr
  | _, [] => []
  | k, addr :: addrs => if env.asks k addr then addr :: exchanges (k + 1) addrs else exchanges k addrs

structure Inv (c : Collected) : Prop where
  reports : c.out.map StunBinding.reflexive = (range c.asked.length).filterMap env.discover
  haveV4 : c.haveV4 = env.reported true c.asked.length
  haveV6 : c.haveV6 = env.reported false c.asked.length
  apart : c.out.Pairwise fun b b' => isV4 b.reflexive ≠ isV4 b'.reflexive ∨ isV4 b'.reflexive ≠ isV4 b'.server

theorem filterMap_range_succ (k : Nat) : (range (k + 1)).filterMap env.discover =
    (range k).filterMap env.discover ++ (env.discover k).toList := by
  rw [range_succ, filterMap_append]
  cases hd : env.discover k <;> simp [hd]

theorem reported_succ (familyV4 : Bool) (k : Nat) :
    env.reported familyV4 (k + 1) = ((env.discover k).any (isV4 · == familyV4) || env.reported familyV4 k) := by
  rw [reported, filterMap_range_succ, any_append, Bool.or_comm, reported]
  cases env.discover k <;> simp

variable {env} {c : Collected}

theorem Inv.reported_of_mem (h : env.Inv c) {b : StunBinding} (hb : b ∈ c.out) :
    env.reported (isV4 b.reflexive) c.asked.length = true := by
  rw [reported, ← h.reports, any_eq_true]
  exact ⟨_, mem_map_of_mem hb, beq_self_eq_true _⟩

theorem Inv.wanted (h : env.Inv c) (addr : SocketAddr) : env.wanted c addr = env.asks c.asked.length addr := by
  rw [Env.wanted, asks, h.haveV4, h.haveV6]
  cases isV4 addr <;> simp [reachableFamilies]

theorem query_inv (h : env.Inv c) (addr : SocketAddr) : env.Inv (env.query c addr) ∧
    (env.query c addr).asked = c.asked ++ if env.asks c.asked.length addr then [addr] else [] := by
  have hlength : (c.asked ++ [addr]).length = c.asked.length + 1 := length_append
  rw [query, h.wanted]
  split
  · rename_i hasks
    split
    · rename_i hnone
      refine ⟨⟨?_, ?_, ?_, h.apart⟩, rfl⟩
      · rw [hlength, filterMap_range_succ, hnone, Option.toList_none, append_nil, h.reports]
      · rw [hlength, reported_succ, hnone, h.haveV4, Option.any_none, Bool.false_or]
      · rw [hlength, reported_succ, hnone, h.haveV6, Option.any_none, Bool.false_or]
    rename_i reflexive hsome
    refine ⟨⟨?_, ?_, ?_, ?_⟩, rfl⟩
    · rw [hlength, filterMap_range_succ, hsome, map_append, h.reports]
      rfl
    · rw [hlength, reported_succ, hsome, h.haveV4, Option.any_some, beq_true]
    · rw [hlength, reported_succ, hsome, h.haveV6, Option.any_some, beq_false]
    refine pairwise_append.mpr ⟨h.apart, pairwise_singleton _ _, fun b hb b' hb' => ?_⟩
    -- an address of the server's own family is new, or the server would not have been asked
    have hknown := h.reported_of_mem hb
    rw [mem_singleton.mp hb']
    by_contra hsame
    obtain ⟨hfamily, hown⟩ := not_or.mp hsame
    rw [not_not.mp hfamily, not_not.mp hown] at hknown
    simp [asks, hknown] at hasks
  · exact ⟨h, (append_nil _).symm⟩

theorem foldl_query (h : env.Inv c) (addrs : List SocketAddr) : env.Inv (addrs.foldl env.query c) ∧
    (addrs.foldl env.query c).asked = c.asked ++ env.exchanges c.asked.length addrs := by
  induction addrs generalizing c with
  | nil => exact ⟨h, (append_nil _).symm⟩
  | cons addr addrs ih =>
    obtain ⟨hinv, hasked⟩ := query_inv h addr
    obtain ⟨hinv', hasked'⟩ := ih hinv
    refine ⟨hinv', hasked'.trans ?_⟩
    rw [hasked, exchanges]
    split <;> simp

theorem discoverLoop_eq (c : Collected) (servers : List (Option (List SocketAddr))) :
    env.discoverLoop c servers = (servers.flatMap (·.getD [])).foldl env.query c := by
  induction servers generalizing c with
  | nil => rfl
  | cons server servers ih =>
    rw [discoverLoop]
    split
    · have hquery : ∀ addr, env.query c addr = c := by
        intro addr
        refine if_neg ?_
        rw [Env.wanted]
        cases isV4 addr <;> cases hlocal : env.localIsV6 <;> simp_all [reachableFamilies]
      exact (foldl_fixed' hquery _).symm
    · rw [ih, flatMap_cons, foldl_append]

end Env

section

theorem mem_symmetricFamilies_iff {bindings : List StunBinding} {familyV4 : Bool} :
    familyV4 ∈ symmetricFamilies bindings ↔ ∃ a ∈ bindings.map StunBinding.reflexive,
      ∃ b ∈ bindings.map StunBinding.reflexive, isV4 a = familyV4 ∧ isV4 b = familyV4 ∧ portOf a ≠ portOf b := by
  have hmem : familyV4 ∈ [true, false] := by cases familyV4 <;> simp
  rw [symmetricFamilies, mem_filter, decide_eq_true_iff, Finset.one_lt_card]
  simp only [hmem, true_and, mem_toFinset, mem_map, mem_filter, beq_iff_eq]
  constructor
  · rintro ⟨_, ⟨a, ⟨ha, hfa⟩, rfl⟩, _, ⟨b, ⟨hb, hfb⟩, rfl⟩, hne⟩
    exact ⟨_, ⟨a, ha, rfl⟩, _, ⟨b, hb, rfl⟩, hfa, hfb, hne⟩
  · rintro ⟨_, ⟨a, ha, rfl⟩, _, ⟨b, hb, rfl⟩, hfa, hfb, hne⟩
    exact ⟨_, ⟨a, ⟨ha, hfa⟩, rfl⟩, _, ⟨b, ⟨hb, hfb⟩, rfl⟩, hne⟩

end

/-- **A symmetric NAT is found** exactly if two of the exchanges got different ports of one family in time; never, if
servers keep to the family asked in. -/
theorem symmetricFamilies_exact (env : Env) (servers : List (Option (List SocketAddr))) :
    let c := env.discoverAll servers
    let asked := env.exchanges 0 (servers.flatMap (·.getD []))
    c.asked = asked ∧
    (∀ familyV4, familyV4 ∈ symmetricFamilies c.out ↔ ∃ i < asked.length, ∃ j < asked.length, ∃ a b,
        env.discover i = some a ∧ env.discover j = some b ∧ isV4 a = familyV4 ∧ isV4 b = familyV4 ∧
          portOf a ≠ portOf b) ∧
      ((∀ b ∈ c.out, isV4 b.reflexive = isV4 b.server) → symmetricFamilies c.out = []) := by
  intro c asked
  have hc : c = (servers.flatMap (·.getD [])).foldl env.query ⟨[], false, false, []⟩ := env.discoverLoop_eq _ servers
  have hstart : env.Inv ⟨[], false, false, []⟩ := ⟨rfl, rfl, rfl, .nil⟩
  obtain ⟨hinv, hasked⟩ := Env.foldl_query hstart (servers.flatMap (·.getD []))
  rw [← hc] at hinv hasked
  have hreports := hinv.reports
  rw [hasked] at hreports
  refine ⟨hasked, ?_⟩
  constructor
  · intro familyV4
    rw [mem_symmetricFamilies_iff, hreports]
    simp only [mem_filterMap, mem_range]
    constructor
    · rintro ⟨a, ⟨i, hi, ha⟩, b, ⟨j, hj, hb⟩, h⟩
      exact ⟨i, hi, j, hj, a, b, ha, hb, h⟩
    · rintro ⟨i, hi, j, hj, a, b, ha, hb, h⟩
      exact ⟨a, ⟨i, hi, ha⟩, b, ⟨j, hj, hb⟩, h⟩
  intro hown
  refine eq_nil_iff_forall_not_mem.mpr fun familyV4 hmem => ?_
  obtain ⟨_, ha, _, hb, hfa, hfb, hne⟩ := mem_symmetricFamilies_iff.mp hmem
  obtain ⟨a, hain, rfl⟩ := mem_map.mp ha
  obtain ⟨b, hbin, rfl⟩ := mem_map.mp hb
  have hfamilies : c.out.Pairwise fun b b' => isV4 b.reflexive ≠ isV4 b'.reflexive :=
    hinv.apart.imp_of_mem fun _ hb' h => h.resolve_right (not_not.mpr (hown _ hb'))
  have hab : a ≠ b := fun h => hne (by rw [h])
  have : Std.Symm fun b b' : StunBinding => isV4 b.reflexive ≠ isV4 b'.reflexive := ⟨fun _ _ h => h.symm⟩
  exact hfamilies.forall hain hbin hab (hfa.trans hfb.symm)

def sampleAnswer (k : Nat) (port : UInt16) : Bytes :=
  put16 bindingSuccess ++ (put16 12 ++ (beBytes 4 magicCookie.toNat ++ ((sampleTxid k).1 ++
    (put16 attrXorMappedAddress ++ (put16 8 ++ encodeAddress (.xor (sampleTxid k)) 0 port (.v4 0xcb007101))))))

def sampleServers : List (Option (List SocketAddr)) :=
  [some [.v4 ⟨0x08080808, 3478⟩], some [.v4 ⟨0x01010101, 3478⟩]]

/-- The first server answers while the second is asked, and is lost; where it answers in time, the
second is not asked. -/
theorem symmetricFamilies_missed :
    (let env : Env := ⟨false, sampleTxid, fun k => if k = 1 then [sampleAnswer 0 1000, sampleAnswer 1 2000] else []⟩
     (env.discoverAll sampleServers).asked = [.v4 ⟨0x08080808, 3478⟩, .v4 ⟨0x01010101, 3478⟩] ∧
       parseBindingResponse (sampleAnswer 0 1000) (sampleTxid 0) = .ok (.v4 ⟨0xcb007101, 1000⟩) ∧
       parseBindingResponse (sampleAnswer 1 2000) (sampleTxid 1) = .ok (.v4 ⟨0xcb007101, 2000⟩) ∧
       symmetricFamilies (env.discoverAll sampleServers).out = []) ∧
    (let env : Env := ⟨false, sampleTxid, fun k => [sampleAnswer k (1000 + k.toUInt16)]⟩
     (env.discoverAll sampleServers).asked = [.v4 ⟨0x08080808, 3478⟩] ∧
       symmetricFamilies (env.discoverAll sampleServers).out = []) := by
  decide +kernel

end Shadowsocks.Realm.Stun
