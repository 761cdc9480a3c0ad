/-
  Subject:   SOCKS4 AND SOCKS4A REQUESTS (`local/socks/socks4.rs` of the service). There is a host name if the
  address is 0.0.0.x with x ≠ 0.
-/
import Shadowsocks.Lib.ReadCode
import Shadowsocks.Relay.Address

namespace Shadowsocks.Socks4

open Lib ReadCode List

/-! ## 1. Requests -/

def version : UInt8 := 4

inductive Command where
  | connect
  | bind
  deriving DecidableEq

def Command.asU8 : Command → UInt8
  | .connect => 1
  | .bind => 2

def Command.fromU8 (code : UInt8) : Option Command :=
  if code = 1 then some .connect
  else if code = 2 then some .bind
  else none

@[simp] theorem Command.fromU8_asU8 (c : Command) : fromU8 c.asU8 = some c := by
  cases c <;> rfl

inductive Address where
  | socketAddress (addr : SocketAddrV4)
  | domainNameAddress (host : String) (port : UInt16)

def Address.toSocks5 : Address → Shadowsocks.Address
  | .socketAddress a => .socketAddress (.v4 a)
  | .domainNameAddress host port => .domainNameAddress host port

structure HandshakeRequest where
  cd : Command
  dst : Address
  userId : Bytes

inductive Error where
  | ioError (e : IoError)
  | addressHostInvalidEncoding
  | unsupportedSocksVersion (ver : UInt8)
  deriving DecidableEq

def eofError : Error := .ioError .unexpectedEof

variable (r : HandshakeRequest)

def HandshakeRequest.bytes : Bytes :=
  match r.dst with
  | .socketAddress a =>
    [version, r.cd.asU8] ++ (put16 a.port ++ beBytes 4 a.ip.toNat) ++ (r.userId ++ [0])
  | .domainNameAddress host port =>
    [version, r.cd.asU8] ++ (put16 port ++ [0, 0, 0, 0xff]) ++ (r.userId ++ [0]) ++ (utf8Bytes host ++ [0])

def HandshakeRequest.serializedLen : Nat :=
  match r.dst with
  | .socketAddress _ => 1 + 1 + 2 + 4 + r.userId.length + 1
  | .domainNameAddress host _ => 1 + 1 + 2 + 4 + r.userId.length + 1 + ((utf8Bytes host).length + 1)

section

variable {β : Prop} (hβ : β)

def readTerminated : ReadCode β Error Bytes := do
  let field ← through hβ 0
  if field = [] ∨ field.getLast? ≠ some 0 then fail eofError
  else pure field.dropLast

def readDst (ip : Bytes) (port : UInt16) : ReadCode β Error Address :=
  if ip.getD 0 0 = 0 ∧ ip.getD 1 0 = 0 ∧ ip.getD 2 0 = 0 ∧ ip.getD 3 0 ≠ 0 then do
    let host ← readTerminated hβ
    match fromUtf8 host with
    | some host => pure (.domainNameAddress host port)
    | none => fail .addressHostInvalidEncoding
  else pure (.socketAddress ⟨UInt32.ofNat (beNat ip), port⟩)

def HandshakeRequest.readFrom : ReadCode β Error HandshakeRequest := do
  let buf ← exactly 8
  if buf.getD 0 0 ≠ version then fail (.unsupportedSocksVersion (buf.getD 0 0))
  else
    match Command.fromU8 (buf.getD 1 0) with
    | none => fail (.unsupportedSocksVersion (buf.getD 1 0))
    | some command => do
        let userId ← readTerminated hβ
        let dst ← readDst hβ (buf.drop 4) (get16 ((buf.drop 2).take 2))
        pure ⟨command, dst, userId⟩

end

/-! ## 2. Reading back -/

def HandshakeRequest.Valid : Prop :=
  0 ∉ r.userId ∧ match r.dst with
    | .socketAddress a => ¬(0 < a.ip.toNat ∧ a.ip.toNat < 256)
    | .domainNameAddress host _ => 0 ∉ utf8Bytes host

theorem HandshakeRequest.bytes_length : r.bytes.length = r.serializedLen := by
  obtain ⟨cd, dst, userId⟩ := r
  cases dst with
  | socketAddress a | domainNameAddress host port => simp [bytes, serializedLen]; omega

section

variable {β : Prop} {hβ : β} {eof : Error}

theorem readTerminated_reads {field : Bytes} (h : 0 ∉ field) : Reads eof (readTerminated hβ) (field ++ [0]) field := by
  refine (reads_through h).last ?_
  rw [if_neg (by simp), dropLast_concat]

theorem readTerminated_strict : (readTerminated hβ).Strict := by
  refine strict_through (fun e bs hzero => ⟨eofError, ?_⟩) fun bs => ?_
  · have hlast : bs.getLast? ≠ some 0 := fun h => hzero (mem_of_getLast? h)
    rw [if_pos (.inr hlast)]
    rfl
  · split
    · exact strict_fail _
    · exact strict_pure _

theorem readDst_strict (ip : Bytes) (port : UInt16) : (readDst hβ ip port).Strict := by
  unfold readDst
  split
  · refine readTerminated_strict.bind fun host => ?_
    split
    · exact strict_pure _
    · exact strict_fail _
  · exact strict_pure _

theorem HandshakeRequest.strict : (readFrom hβ).Strict := by
  refine (strict_exactly 8).bind fun buf => ?_
  split
  · exact strict_fail _
  split
  · exact strict_fail _
  · exact readTerminated_strict.bind fun userId => (readDst_strict _ _).bind fun dst => strict_pure _

theorem announced_small (ip : UInt32) :
    ((beBytes 4 ip.toNat).getD 0 0 = 0 ∧ (beBytes 4 ip.toNat).getD 1 0 = 0 ∧ (beBytes 4 ip.toNat).getD 2 0 = 0 ∧
      (beBytes 4 ip.toNat).getD 3 0 ≠ 0) → 0 < ip.toNat ∧ ip.toNat < 256 := by
  intro ⟨h0, h1, h2, h3⟩
  have hip : beNat (beBytes 4 ip.toNat) = ip.toNat := by
    rw [beNat_beBytes, Nat.mod_eq_of_lt (lt_of_lt_of_eq ip.toNat_lt (by decide))]
  match hbs : beBytes 4 ip.toNat, beBytes_length 4 ip.toNat with
  | [a, b, c, d], _ =>
    rw [hbs] at h0 h1 h2 h3 hip
    obtain rfl : a = 0 := h0
    obtain rfl : b = 0 := h1
    obtain rfl : c = 0 := h2
    have hd : d.toNat = ip.toNat := by
      rw [← hip]
      simp [beNat]
    have hne : d.toNat ≠ 0 := fun h => h3 (UInt8.toNat_inj.mp h)
    have := d.toNat_lt
    omega

theorem readDst_socketAddress {a : SocketAddrV4} (h : ¬(0 < a.ip.toNat ∧ a.ip.toNat < 256)) :
    readDst hβ (beBytes 4 a.ip.toNat) a.port = pure (.socketAddress a) := by
  rw [readDst, if_neg (fun hc => h (announced_small a.ip hc)), ofNat_beNat_ip4]

theorem HandshakeRequest.reads_header (cd : Command) (port : UInt16) {ip xs : Bytes} {userId : Bytes} {dst : Address}
    (hip : ip.length = 4) (huser : 0 ∉ userId) (hdst : Reads eof (readDst hβ ip port) xs dst) :
    Reads eof (readFrom hβ) ([version, cd.asU8] ++ (put16 port ++ ip) ++ ((userId ++ [0]) ++ xs))
      ⟨cd, dst, userId⟩ := by
  have hlen : ([version, cd.asU8] ++ (put16 port ++ ip)).length = 8 := by
    rw [length_append, length_append, put16_length, hip]
    rfl
  have hport : (([version, cd.asU8] ++ (put16 port ++ ip)).drop 2).take 2 = put16 port :=
    take_left' (put16_length port)
  have hdrop : ([version, cd.asU8] ++ (put16 port ++ ip)).drop 4 = ip :=
    drop_left' (put16_length port)
  refine (reads_exactly _ hlen).bind ?_
  rw [hport, hdrop, get16_put16]
  simp only [cons_append, getD_cons_zero, getD_cons_succ, ne_eq, not_true_eq_false, if_false, Command.fromU8_asU8]
  exact (readTerminated_reads huser).bind (hdst.last rfl)

theorem HandshakeRequest.reads {r : HandshakeRequest} (h : r.Valid) : Reads eof (readFrom hβ) r.bytes r := by
  obtain ⟨cd, dst, userId⟩ := r
  obtain ⟨huser, hdst⟩ := h
  cases dst with
  | socketAddress a =>
    have hread : Reads eof (readDst hβ (beBytes 4 a.ip.toNat) a.port) [] (.socketAddress a) := by
      rw [readDst_socketAddress hdst]
      exact reads_pure _
    have hbytes := reads_header cd a.port (beBytes_length 4 _) huser hread
    rwa [append_nil] at hbytes
  | domainNameAddress host port =>
    have hread : Reads eof (readDst hβ [0, 0, 0, 0xff] port) (utf8Bytes host ++ [0]) (.domainNameAddress host port) := by
      rw [readDst, if_pos (by decide)]
      refine (readTerminated_reads hdst).last ?_
      rw [fromUtf8_utf8Bytes]
    have hbytes := reads_header cd port rfl huser hread
    rwa [← append_assoc] at hbytes

end

/-- **SOCKS4 requests** are read back, in whatever pieces, from exactly their bytes; no strict beginning is accepted.
-/
theorem handshakeRequest_exact {r : HandshakeRequest} (h : r.Valid) :
    (∀ ys, Returns eofError (HandshakeRequest.readFrom trivial : ReadCode True _ _) (r.bytes ++ ys) r ys) ∧
    r.serializedLen = r.bytes.length ∧ ∀ ys, ys <+: r.bytes → ys ≠ r.bytes →
      ∃ e, Fails eofError (HandshakeRequest.readFrom trivial : ReadCode True _ _) ys e := by
  have hreads : Reads eofError (HandshakeRequest.readFrom trivial : ReadCode True _ _) r.bytes r :=
    HandshakeRequest.reads h
  exact ⟨hreads.returns, r.bytes_length.symm, fun ys hys hne => hreads.refuses HandshakeRequest.strict hys hne⟩

/-- A SOCKS4a request for the host `h` by the user `u`, and its beginning without the last byte. -/
theorem handshakeRequest_exact_short : Returns eofError (HandshakeRequest.readFrom trivial : ReadCode True _ _)
        [4, 1, 0, 80, 0, 0, 0, 0xff, 117, 0, 104, 0, 9] ⟨.connect, .domainNameAddress "h" 80, [117]⟩ [9] ∧
      ∃ e, Fails eofError (HandshakeRequest.readFrom trivial : ReadCode True _ _)
        [4, 1, 0, 80, 0, 0, 0, 0xff, 117, 0, 104] e := by
  have hvalid : (⟨.connect, .domainNameAddress "h" 80, [117]⟩ : HandshakeRequest).Valid :=
    ⟨by decide, by decide⟩
  obtain ⟨hreturns, -, hrefuses⟩ := handshakeRequest_exact hvalid
  exact ⟨hreturns [9], hrefuses [4, 1, 0, 80, 0, 0, 0, 0xff, 117, 0, 104] ⟨[0], by decide⟩ (by decide)⟩

end Shadowsocks.Socks4
