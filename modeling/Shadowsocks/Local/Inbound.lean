/-
  Subject:   TARGETS OF LOCAL CLIENTS (`local/socks/` and `local/http/` of the service), and whether a request can
  carry them.
-/
import Shadowsocks.Local.Socks4
import Shadowsocks.Tcp.RequestHeader

namespace Shadowsocks.Local

open Lib ReadCode Tcp

/-! ## 1. HTTP -/

structure Authority where
  host : String
  portU16 : Option UInt16
  deriving DecidableEq

structure HttpText where
  toStr : Bytes → Option String
  authority : String → Option Authority
  ipv4 : String → Option UInt32
  ipv6 : String → Option (BitVec 128)

def authorityPort (scheme : Option String) (authority : Authority) : Option UInt16 :=
  match authority.portU16, scheme with
  | some port, _ => some port
  | none, none => some 80
  | none, some "http" => some 80
  | none, some "https" => some 443
  | none, some _ => none

def bracketed (host : String) : Option String :=
  if host.toList.head? = some '[' ∧ host.toList.getLast? = some ']' then
    some (String.ofList host.toList.tail.dropLast)
  else none

variable (H : HttpText)

def hostAddress (host : String) (port : UInt16) : Option Address :=
  match bracketed host with
  | some addr => (H.ipv6 addr).map fun ip => .socketAddress (.v6 ⟨ip, port, 0, 0⟩)
  | none =>
    match H.ipv4 host with
    | some ip => some (.socketAddress (.v4 ⟨ip, port⟩))
    | none => some (.domainNameAddress host port)

def authorityAddr (scheme : Option String) (authority : Authority) : Option Address :=
  (authorityPort scheme authority).bind (hostAddress H authority.host)

structure HttpRequest where
  scheme : Option String
  authority : Option Authority
  hostHeader : Option Bytes
  deriving DecidableEq

variable (r : HttpRequest)

def hostAddr : Option Address := r.authority.bind (authorityAddr H r.scheme)

def getAddrFromHeader : Option Address := do
  let value ← r.hostHeader
  let text ← H.toStr value
  let authority ← H.authority text
  authorityAddr H r.scheme authority

def HttpRequest.host : Option Address :=
  match hostAddr H r with
  | some host => some host
  | none => if r.authority.isSome then none else getAddrFromHeader H r

/-! ## 2. Targets -/

inductive Inbound where
  | socks4 (bytes : Bytes)
  | socks5 (bytes : Bytes)
  | http (r : HttpRequest)

def Inbound.target : Inbound → Option Address
  | .socks4 bytes =>
    match ((Socks4.HandshakeRequest.readFrom trivial : ReadCode True _ _).parse Socks4.eofError bytes).outcome with
    | .ok (r, _) => if r.cd = .connect then some r.dst.toSocks5 else none
    | .error _ => none
  | .socks5 bytes =>
    match ((Socks5.TcpRequestHeader.readFrom id : ReadCode False _ _).parse Socks5.messageEof bytes).outcome with
    | .ok (h, _) => if h.command = .tcpConnect then some h.address else none
    | .error _ => none
  | .http r => r.host H

theorem asRead_toSocks5 (a : Socks4.Address) : a.toSocks5.asRead = a.toSocks5 := by
  cases a <;> rfl

variable {a : Address}

theorem hostAddress_asRead {host : String} {port : UInt16} (h : hostAddress H host port = some a) : a.asRead = a := by
  unfold hostAddress at h
  split at h
  · obtain ⟨ip, -, rfl⟩ := Option.map_eq_some_iff.mp h
    rfl
  · split at h <;> cases h <;> rfl

theorem authorityAddr_asRead {scheme : Option String} {authority : Authority}
    (h : authorityAddr H scheme authority = some a) : a.asRead = a := by
  obtain ⟨port, -, hhost⟩ := Option.bind_eq_some_iff.mp h
  exact hostAddress_asRead H hhost

theorem HttpRequest.host_asRead {r : HttpRequest} (h : r.host H = some a) : a.asRead = a := by
  unfold host at h
  split at h
  · rename_i host hhost
    cases h
    obtain ⟨authority, -, haddr⟩ := Option.bind_eq_some_iff.mp hhost
    exact authorityAddr_asRead H haddr
  split at h
  · cases h
  · obtain ⟨value, -, h⟩ := Option.bind_eq_some_iff.mp h
    obtain ⟨text, -, h⟩ := Option.bind_eq_some_iff.mp h
    obtain ⟨authority, -, haddr⟩ := Option.bind_eq_some_iff.mp h
    exact authorityAddr_asRead H haddr

theorem Inbound.target_asRead {i : Inbound} (h : i.target H = some a) : a.asRead = a := by
  unfold target at h
  split at h
  · split at h
    · split at h
      · cases h
        exact asRead_toSocks5 _
      · cases h
    · cases h
  · split at h
    · rename_i hread
      split at h
      · cases h
        exact (Socks5.TcpRequestHeader.address_of_outcome _ hread).2
      · cases h
    · cases h
  · exact HttpRequest.host_asRead H h

theorem Inbound.target_fits {bytes : Bytes} (h : (socks5 bytes).target H = some a) : a.Fits := by
  simp only [target] at h
  split at h
  · rename_i hread
    split at h
    · cases h
      exact (Socks5.TcpRequestHeader.address_of_outcome _ hread).1
    · cases h
  · cases h

/-! ## 3. Requests for a target -/

def requestReader {β : Prop} : CipherKind → ReadCode β Socks5.Error Address
  | .aead2022 _ => do
      let h ← V2.Aead2022TcpRequestHeader.readFrom id
      pure h.addr
  | _ => Address.readCode id

def Carried (a : Address) : Prop :=
  ∀ (K : CipherKind) (padding buf : Bytes), padding.length ≤ maxPaddingSize →
    ∃ bytes, (makeFirstPacketBuffer K padding a buf : Outcome Empty Bytes) = .ok bytes ∧
      Returns Socks5.eofError (requestReader K : ReadCode False _ _) bytes a buf

theorem requestReader_reads {β : Prop} (K : CipherKind) {padding : Bytes} (hpad : padding.length ≤ maxPaddingSize)
    (ha : a.Fits) (buf : Bytes) :
    Reads Socks5.eofError (requestReader K : ReadCode β _ _) (firstHeader K padding a buf) a.asRead := by
  have hplain : Reads Socks5.eofError (Address.readCode id : ReadCode β _ _) a.bytes a.asRead :=
    readCode_reads id Socks5.eofError ha
  cases K with
  | none | stream S | aead M => exact hplain
  | aead2022 M =>
    have hsmall : (if buf = [] then padding else []).length < 65536 := by
      rw [maxPaddingSize] at hpad
      split
      · omega
      · exact Nat.zero_lt_succ _
    exact (V2.requestPrefix_reads id ha hsmall).last rfl

theorem carried_iff (ha : a.asRead = a) : Carried a ↔ a.Fits := by
  constructor
  · intro h
    obtain ⟨bytes, hbuild, -⟩ := h .none [] [] zero_le
    rw [makeFirstPacketBuffer_eq] at hbuild
    split at hbuild
    · assumption
    · cases hbuild
  intro hfits K padding buf hpad
  refine ⟨_, (makeFirstPacketBuffer_eq K padding a buf).trans (if_pos hfits), ?_⟩
  have hreads := requestReader_reads (β := False) K hpad hfits buf
  rw [ha] at hreads
  exact hreads.returns buf

/-- **The targets of local clients** are built and read back exactly if a domain name has at most 255 bytes, as
SOCKS5's have. -/
theorem target_carried_iff {i : Inbound} {a : Address} (h : i.target H = some a) :
    (Carried a ↔ a.Fits) ∧ ∀ bytes, i = .socks5 bytes → a.Fits :=
  ⟨carried_iff (i.target_asRead H h), fun _ hi => Inbound.target_fits H (hi ▸ h)⟩

def HttpText.sample : HttpText where
  toStr := fromUtf8
  authority s := some ⟨s, none⟩
  ipv4 _ := none
  ipv6 _ := none

/-- A request for a host with a short name is carried. -/
theorem target_carried_short : Carried (.domainNameAddress "h" 80) := by
  have htarget : (Inbound.http ⟨some "http", some ⟨"h", none⟩, none⟩).target HttpText.sample =
      some (.domainNameAddress "h" 80) := by decide
  exact (target_carried_iff HttpText.sample htarget).1.mpr (by decide)

def longHost : String := String.ofList (List.replicate 256 'a')

/-- A SOCKS4a request and an HTTP request for it are accepted, and building the request for the server panics. -/
theorem long_target_panics :
    (Inbound.socks4 (Socks4.HandshakeRequest.bytes ⟨.connect, .domainNameAddress longHost 80, []⟩)).target
        HttpText.sample = some (.domainNameAddress longHost 80) ∧
      (Inbound.http ⟨some "http", some ⟨longHost, none⟩, none⟩).target HttpText.sample =
        some (.domainNameAddress longHost 80) ∧
      (makeFirstPacketBuffer .none [] (.domainNameAddress longHost 80) [] : Outcome Empty Bytes) = .panic ∧
      ¬Carried (.domainNameAddress longHost 80) := by
  have hlong : ¬(Address.domainNameAddress longHost 80).Fits := by decide +kernel
  refine ⟨?_, by decide +kernel, (makeFirstPacketBuffer_eq _ _ _ _).trans (if_neg hlong), fun h => ?_⟩
  · have hvalid : (⟨.connect, .domainNameAddress longHost 80, []⟩ : Socks4.HandshakeRequest).Valid :=
      ⟨List.not_mem_nil, by decide +kernel⟩
    have hreads : Reads Socks4.eofError (Socks4.HandshakeRequest.readFrom trivial : ReadCode True _ _) _ _ :=
      Socks4.HandshakeRequest.reads hvalid
    have hread := hreads []
    rw [List.append_nil] at hread
    rw [Inbound.target, hread]
    rfl
  · exact hlong ((carried_iff rfl).mp h)

end Shadowsocks.Local
