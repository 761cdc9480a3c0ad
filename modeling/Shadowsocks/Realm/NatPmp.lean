/-
  Subject:   A TCP MAPPING OVER NAT-PMP (`crates/shadowsocks-realm/src/portmap/natpmp.rs`). The second exchange
  looks neither at the opcode nor at the internal port.
-/
import Shadowsocks.Relay.Address

namespace Shadowsocks.Realm.NatPmp

open Lib List

inductive Error where
  | portMap (text : String)
  | io (e : IoError)
  deriving DecidableEq

structure PortMapping where
  external : SocketAddr
  internalPort : UInt16
  deriving DecidableEq

/-! ## 1. The packets -/

def byte (i : Nat) (buf : Bytes) : UInt8 := buf.getD i 0

def word (i : Nat) (buf : Bytes) : UInt16 := get16 ((buf.drop i).take 2)

def long (i : Nat) (buf : Bytes) : UInt32 := UInt32.ofNat (beNat ((buf.drop i).take 4))

def opMapTcp : UInt8 := 2

def encodeExternalAddressRequest : Bytes := [0, 0]

def encodeMapRequest (internalPort externalPort : UInt16) (leaseSecs : UInt32) : Bytes :=
  [0, opMapTcp, 0, 0] ++ put16 internalPort ++ put16 externalPort ++ beBytes 4 leaseSecs.toNat

def unexpectedVersion (buf : Bytes) : Error := .portMap ("unexpected version " ++ toString (byte 0 buf).toNat)

def resultCode (buf : Bytes) : Error := .portMap ("result code " ++ toString (word 2 buf).toNat)

def parseExternalAddressResponse (buf : Bytes) : Except Error UInt32 :=
  if buf.length < 12 then .error (.portMap "short external-address response")
  else if byte 0 buf ≠ 0 then .error (unexpectedVersion buf)
  else if byte 1 buf ≠ 128 then .error (.portMap ("unexpected opcode " ++ toString (byte 1 buf).toNat))
  else if word 2 buf ≠ 0 then .error (resultCode buf)
  else .ok (long 8 buf)

def parseMapResponse (buf : Bytes) : Except Error (UInt16 × UInt16 × UInt32) :=
  if buf.length < 16 then .error (.portMap "short map response")
  else if byte 0 buf ≠ 0 then .error (unexpectedVersion buf)
  else if word 2 buf ≠ 0 then .error (resultCode buf)
  else .ok (word 8 buf, word 10 buf, long 12 buf)

structure Response (opcode : UInt8) (buf : Bytes) : Prop where
  version : byte 0 buf = 0
  opcode : byte 1 buf = opcode
  result : word 2 buf = 0

def ExternalAddress (ip : UInt32) (buf : Bytes) : Prop := Response 128 buf ∧ 12 ≤ buf.length ∧ long 8 buf = ip

def MapResponse (opcode : UInt8) (internal external : UInt16) (buf : Bytes) : Prop :=
  Response opcode buf ∧ 16 ≤ buf.length ∧ word 8 buf = internal ∧ word 10 buf = external

variable {buf : Bytes} {ip : UInt32} {internal external : UInt16} {lease : UInt32}

theorem parseExternalAddressResponse_ok_iff : parseExternalAddressResponse buf = .ok ip ↔ ExternalAddress ip buf := by
  unfold parseExternalAddressResponse
  constructor
  · intro h
    split_ifs at h with hlen hver hop hres
    exact ⟨⟨not_not.mp hver, not_not.mp hop, not_not.mp hres⟩, not_lt.mp hlen, Except.ok.inj h⟩
  · rintro ⟨⟨hver, hop, hres⟩, hlen, rfl⟩
    rw [if_neg (by omega), if_neg (not_not.mpr hver), if_neg (not_not.mpr hop), if_neg (not_not.mpr hres)]

theorem parseMapResponse_ok_iff : parseMapResponse buf = .ok (internal, external, lease) ↔
    MapResponse (byte 1 buf) internal external buf ∧ long 12 buf = lease := by
  unfold parseMapResponse
  constructor
  · intro h
    split_ifs at h with hlen hver hres
    cases h
    exact ⟨⟨⟨not_not.mp hver, rfl, not_not.mp hres⟩, not_lt.mp hlen, rfl, rfl⟩, rfl⟩
  · rintro ⟨⟨⟨hver, -, hres⟩, hlen, rfl, rfl⟩, rfl⟩
    rw [if_neg (by omega), if_neg (not_not.mpr hver), if_neg (not_not.mpr hres)]

/-! ## 2. The exchanges -/

inductive Try where
  | sendFailed (e : IoError)
  | recvFailed (e : IoError)
  | timedOut
  | received (buf : Bytes)

structure Sock where
  tries : List Try
  sent : List Bytes

section

variable {α : Type} (req : Bytes) (parse : Bytes → Except Error α) (silent : Error)

def exchange : Nat → Sock → Except Error α × Sock
  | 0, s => (.error silent, s)
  | n + 1, s =>
    match s.tries with
    | [] => exchange n ⟨[], s.sent ++ [req]⟩
    | .sendFailed e :: tries => (.error (.io e), ⟨tries, s.sent⟩)
    | .recvFailed e :: tries => (.error (.io e), ⟨tries, s.sent ++ [req]⟩)
    | .timedOut :: tries => exchange n ⟨tries, s.sent ++ [req]⟩
    | .received buf :: tries =>
      match parse buf with
      | .ok a => (.ok a, ⟨tries, s.sent ++ [req]⟩)
      | .error _ => exchange n ⟨tries, s.sent ++ [req]⟩

variable {req parse silent} {s : Sock} {n : Nat} {a : α}

theorem exchange_received (tries : List Try) (sent : List Bytes) (hparse : parse buf = .ok a) :
    exchange req parse silent (n + 1) ⟨.received buf :: tries, sent⟩ = (.ok a, ⟨tries, sent ++ [req]⟩) := by
  rw [exchange]
  simp only [hparse]

theorem exchange_ok (h : (exchange req parse silent n s).1 = .ok a) :
    (∃ buf, .received buf ∈ s.tries ∧ parse buf = .ok a) ∧ (exchange req parse silent n s).2.tries ⊆ s.tries := by
  induction n generalizing s with
  | zero => cases h
  | succ n ih =>
    obtain ⟨_ | ⟨t, tries⟩, sent⟩ := s
    · exact ih h
    -- a try that gives nothing leaves it to the tries behind it
    have hnext : (exchange req parse silent n ⟨tries, sent ++ [req]⟩).1 = .ok a →
        (∃ buf, .received buf ∈ t :: tries ∧ parse buf = .ok a) ∧
          (exchange req parse silent n ⟨tries, sent ++ [req]⟩).2.tries ⊆ t :: tries := fun h =>
      ⟨(ih h).1.imp fun _ hbuf => ⟨mem_cons_of_mem t hbuf.1, hbuf.2⟩, subset_cons_of_subset t (ih h).2⟩
    cases t with
    | sendFailed e | recvFailed e => cases h
    | timedOut => exact hnext h
    | received buf =>
      cases hparse : parse buf with
      | ok a' =>
        rw [exchange_received tries sent hparse] at h ⊢
        exact ⟨⟨buf, mem_cons_self, hparse.trans h⟩, subset_cons_self _ _⟩
      | error e =>
        simp only [exchange, hparse] at h ⊢
        exact hnext h

end

def requestExternalAddress (retries : Nat) (s : Sock) : Except Error UInt32 × Sock :=
  exchange encodeExternalAddressRequest parseExternalAddressResponse
    (.portMap "no NAT-PMP external-address response") (max retries 1) s

def ipText (ip : UInt32) : String := ".".intercalate ((beBytes 4 ip.toNat).map fun b => toString b.toNat)

structure Call where
  gateway : UInt32
  (internalPort requestedExternalPort : UInt16)
  leaseSecs : UInt32
  retries : Nat

def mapTcp (c : Call) (tries : List Try) : Except Error PortMapping × Sock :=
  match requestExternalAddress c.retries ⟨tries, []⟩ with
  | (.error e, s) => (.error e, s)
  | (.ok ip, s) =>
    let (r, s) := exchange (encodeMapRequest c.internalPort c.requestedExternalPort c.leaseSecs) parseMapResponse
      (.portMap ("no NAT-PMP map response from " ++ ipText c.gateway)) (max c.retries 1) s
    (r.map fun (_, external, _) => ⟨.v4 ⟨ip, external⟩, c.internalPort⟩, s)

variable {c : Call} {tries : List Try} {m : PortMapping}

theorem mapTcp_ok (h : (mapTcp c tries).1 = .ok m) :
    ∃ ext buf ip external, .received ext ∈ tries ∧ .received buf ∈ tries ∧ ExternalAddress ip ext ∧
      MapResponse (byte 1 buf) (word 8 buf) external buf ∧ m = ⟨.v4 ⟨ip, external⟩, c.internalPort⟩ := by
  unfold mapTcp at h
  split at h
  · cases h
  rename_i ip s hip
  have hfirst := exchange_ok (congrArg Prod.fst hip)
  rw [← requestExternalAddress, hip] at hfirst
  obtain ⟨⟨ext, hext, hparse⟩, hsub⟩ := hfirst
  obtain ⟨⟨internal, external, lease⟩, hmap, rfl⟩ := except_map_ok_iff.mp h
  obtain ⟨⟨buf, hbuf, hmapped⟩, -⟩ := exchange_ok hmap
  have hresponse := (parseMapResponse_ok_iff.mp hmapped).1
  refine ⟨ext, buf, ip, external, hext, hsub hbuf, parseExternalAddressResponse_ok_iff.mp hparse, ?_, rfl⟩
  rwa [hresponse.2.2.1]

theorem mapTcp_two {ext : Bytes} (c : Call) (hext : ExternalAddress ip ext) {opcode : UInt8}
    (hbuf : MapResponse opcode internal external buf) :
    (mapTcp c [.received ext, .received buf]).1 = .ok ⟨.v4 ⟨ip, external⟩, c.internalPort⟩ := by
  obtain ⟨n, hn⟩ : ∃ n, max c.retries 1 = n + 1 := ⟨max c.retries 1 - 1, by omega⟩
  have hmap : parseMapResponse buf = .ok (internal, external, long 12 buf) :=
    parseMapResponse_ok_iff.mpr ⟨hbuf.1.opcode ▸ hbuf, rfl⟩
  rw [mapTcp, requestExternalAddress, hn, exchange_received _ _ (parseExternalAddressResponse_ok_iff.mpr hext)]
  dsimp only
  rw [exchange_received _ _ hmap]
  rfl

/-- The address comes from an external-address response; the mapping from a TCP-mapping response for the port exactly
if no other has its shape, or none is an external-address response. -/
theorem mapTcp_sound_iff (c : Call) (P : Bytes → Prop) : (∀ tries m, (mapTcp c tries).1 = .ok m →
        ∃ ext ip external, .received ext ∈ tries ∧ ExternalAddress ip ext ∧ m = ⟨.v4 ⟨ip, external⟩, c.internalPort⟩) ∧
      ((∀ tries m, (∀ buf, .received buf ∈ tries → P buf) → (mapTcp c tries).1 = .ok m →
          ∃ buf ip external, .received buf ∈ tries ∧ MapResponse 130 c.internalPort external buf ∧
            m = ⟨.v4 ⟨ip, external⟩, c.internalPort⟩) ↔
        ((∃ ext ip, P ext ∧ ExternalAddress ip ext) → ∀ buf opcode internal external, P buf →
          MapResponse opcode internal external buf → opcode = 130 ∧ internal = c.internalPort)) := by
  refine ⟨fun tries m h => ?_, fun hsound => ?_, fun hclean tries m hP h => ?_⟩
  · obtain ⟨ext, _, ip, external, hext, _, hip, _, rfl⟩ := mapTcp_ok h
    exact ⟨ext, ip, external, hext, hip, rfl⟩
  · rintro ⟨ext, ip, hext, hip⟩ buf opcode internal external hbuf hmap
    obtain ⟨right, _, external', hright, hmap', -⟩ := hsound [.received ext, .received buf] _
      (fun b hb => by
        rcases mem_cons.mp hb with hb | hb
        · cases hb
          exact hext
        · cases mem_singleton.mp hb
          exact hbuf)
      (mapTcp_two c hip hmap)
    rcases mem_cons.mp hright with hb | hb
    · -- an external-address response has another opcode
      cases hb
      exact absurd (hip.1.opcode.symm.trans hmap'.1.opcode) (by decide)
    · cases mem_singleton.mp hb
      exact ⟨hmap.1.opcode.symm.trans hmap'.1.opcode, hmap.2.2.1.symm.trans hmap'.2.2.1⟩
  · obtain ⟨ext, buf, ip, external, hext, hbuf, hip, hmap, rfl⟩ := mapTcp_ok h
    obtain ⟨hop, hport⟩ := hclean ⟨ext, ip, hP ext hext, hip⟩ buf _ _ external (hP buf hbuf) hmap
    rw [hop, hport] at hmap
    exact ⟨buf, ip, external, hbuf, hmap, rfl⟩

/-- A UDP-mapping response for another port is taken for the TCP mapping of port 8388. -/
theorem mapTcp_stray : (mapTcp ⟨0xc0a80001, 8388, 8388, 7200, 3⟩ [.received [0, 128, 0, 0, 0, 0, 0, 1, 203, 0, 113, 7],
      .received [0, 129, 0, 0, 0, 0, 0, 1, 0, 53, 0x23, 0x28, 0, 0, 0x1c, 0x20]]).1 =
    .ok ⟨.v4 ⟨0xcb007107, 9000⟩, 8388⟩ := by
  decide +kernel

end Shadowsocks.Realm.NatPmp
