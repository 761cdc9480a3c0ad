/-
  Subject:   AUTHENTICATED ENCRYPTION with a message counter, in place. What is assumed of an `Aead` is named:
  `Aead.Inverts`, `Aead.Ideal` (without the key nothing is forged) and `Aead.OpensOnce`.
-/
import Shadowsocks.Lib.Bytes

namespace Lib

open List

structure Aead where
  Sub : Type
  tagLen : Nat
  encrypt : Sub → Nat → Bytes → Bytes
  decrypt : Sub → Nat → Bytes → Option Bytes
  onFail : Nat → Nat
  garble : Sub → Nat → Bytes → Bytes
  tagLen_pos : 0 < tagLen
  encrypt_length : ∀ k n p, (encrypt k n p).length = p.length + tagLen
  decrypt_length : ∀ k n c p, decrypt k n c = some p → c.length = p.length + tagLen
  garble_length : ∀ k n c, (garble k n c).length = c.length

attribute [simp] Aead.encrypt_length

def Aead.Inverts (A : Aead) : Prop := ∀ k n p, A.decrypt k n (A.encrypt k n p) = some p

def Aead.Ideal (A : Aead) (k : A.Sub) (rec : Nat → Option Bytes) : Prop :=
  ∀ n c p, A.decrypt k n c = some p → rec n = some p ∧ c = A.encrypt k n p

def Aead.OpensOnce (A : Aead) (k : A.Sub) : Prop :=
  ∃ Spent : Nat → Bytes → Prop, (∀ n c p, A.decrypt k n c = some p → Spent (n + 1) (p ++ c.drop p.length)) ∧
      ∀ n b, Spent n b → A.decrypt k n b = none ∧ Spent (A.onFail n) (A.garble k n b)

structure Cipher (A : Aead) where
  key : A.Sub
  nonce : Nat

variable {A : Aead}

def Cipher.encryptPacket (c : Cipher A) (p : Bytes) : Bytes × Cipher A :=
  (A.encrypt c.key c.nonce p, { c with nonce := c.nonce + 1 })

def Cipher.decryptPacket (c : Cipher A) (m : Bytes) : Bool × Bytes × Cipher A :=
  match A.decrypt c.key c.nonce m with
  | some p => (true, p ++ m.drop p.length, { c with nonce := c.nonce + 1 })
  | none => (false, A.garble c.key c.nonce m, { c with nonce := A.onFail c.nonce })

theorem Cipher.decryptPacket_some {c : Cipher A} {m p : Bytes} (h : A.decrypt c.key c.nonce m = some p) :
    c.decryptPacket m = (true, p ++ m.drop p.length, { c with nonce := c.nonce + 1 }) := by
  rw [decryptPacket, h]

theorem Cipher.decryptPacket_none {c : Cipher A} {m : Bytes} (h : A.decrypt c.key c.nonce m = none) :
    c.decryptPacket m = (false, A.garble c.key c.nonce m, { c with nonce := A.onFail c.nonce }) := by
  rw [decryptPacket, h]

/-! ## Single packets -/

structure PacketAead where
  Sub : Type
  tagLen : Nat
  encrypt : Sub → Bytes → Bytes → Bytes
  decrypt : Sub → Bytes → Bytes → Option Bytes
  encrypt_length : ∀ k nonce p, (encrypt k nonce p).length = p.length + tagLen
  decrypt_length : ∀ k nonce c p, decrypt k nonce c = some p → c.length = p.length + tagLen

attribute [simp] PacketAead.encrypt_length

def PacketAead.Inverts (A : PacketAead) : Prop :=
  ∀ k nonce p, A.decrypt k nonce (A.encrypt k nonce p) = some p

def PacketAead.decryptPacket (A : PacketAead) (k : A.Sub) (nonce m : Bytes) : Option Bytes :=
  (A.decrypt k nonce m).map fun p => p ++ m.drop p.length

/-! ## Schemes to run -/

def untag (tag c : Bytes) : Option Bytes :=
  if c.drop (c.length - tag.length) = tag then some (c.take (c.length - tag.length)) else none

theorem untag_append (tag p : Bytes) : untag tag (p ++ tag) = some p := by
  rw [untag, length_append, Nat.add_sub_cancel, drop_left, if_pos rfl, take_left]

theorem untag_length {tag c p : Bytes} (h : untag tag c = some p) : c.length = p.length + tag.length := by
  unfold untag at h
  split at h
  · rename_i htag
    injection h with h
    have hlen := congrArg length htag
    rw [length_drop] at hlen
    rw [← h, length_take]
    omega
  · cases h

def Aead.tagged : Aead where
  Sub := UInt8
  tagLen := 2
  encrypt k n p := p ++ [k, UInt8.ofNat n]
  decrypt k n c := untag [k, UInt8.ofNat n] c
  onFail n := n + 1
  garble _ _ c := c
  tagLen_pos := by decide
  encrypt_length _ _ _ := length_append
  decrypt_length _ _ _ _ h := untag_length h
  garble_length _ _ _ := rfl

def Aead.byteSum (bs : Bytes) : UInt8 := bs.foldl (fun x y => x + y) 0

theorem Aead.tagged_inverts : tagged.Inverts :=
  fun (k : UInt8) n p => untag_append [k, UInt8.ofNat n] p

def PacketAead.tagged : PacketAead where
  Sub := UInt8
  tagLen := 2
  encrypt k nonce p := p ++ [k, Aead.byteSum nonce]
  decrypt k nonce c := untag [k, Aead.byteSum nonce] c
  encrypt_length _ _ _ := length_append
  decrypt_length _ _ _ _ h := untag_length h

theorem PacketAead.tagged_inverts : tagged.Inverts :=
  fun (k : UInt8) nonce p => untag_append [k, Aead.byteSum nonce] p

def Aead.recorded {K : Type} (table : K → Nat → Option Bytes) : Aead where
  Sub := K
  tagLen := 1
  encrypt _ n p := p ++ [UInt8.ofNat n]
  decrypt k n c := (table k n).filter fun p => c = p ++ [UInt8.ofNat n]
  onFail n := n + 1
  garble _ _ c := c
  tagLen_pos := by decide
  encrypt_length _ _ _ := length_append
  decrypt_length _ _ _ _ h := by
    rw [of_decide_eq_true (Option.filter_eq_some_iff.mp h).2, length_append]
    rfl
  garble_length _ _ _ := rfl

theorem Aead.recorded_ideal {K : Type} (table : K → Nat → Option Bytes) (k : K) :
    (recorded table).Ideal k (table k) := by
  intro n c p h
  obtain ⟨hrec, hc⟩ := Option.filter_eq_some_iff.mp h
  exact ⟨hrec, of_decide_eq_true hc⟩

theorem Aead.recorded_opensOnce {K : Type} {table : K → Nat → Option Bytes} {k : K}
    (hfew : ∀ n, 256 ≤ n → table k n = none) : (recorded table).OpensOnce k := by
  have hbound : ∀ {n c p}, (recorded table).decrypt k n c = some p → n < 256 ∧ c = p ++ [UInt8.ofNat n] := by
    intro n c p h
    obtain ⟨hrec, hc⟩ := recorded_ideal table k n c p h
    refine ⟨Nat.lt_of_not_le fun hle => ?_, hc⟩
    rw [hfew n hle] at hrec
    cases hrec
  refine ⟨fun n b => ∃ m p, m < n ∧ m < 256 ∧ b = p ++ [UInt8.ofNat m], fun n c p h => ?_, ?_⟩
  · obtain ⟨hn, rfl⟩ := hbound h
    exact ⟨n, p, Nat.lt_succ_self n, hn, by rw [drop_left]⟩
  rintro n b ⟨m, p, hlt, hm, rfl⟩
  refine ⟨?_, m, p, Nat.lt_succ_of_lt hlt, hm, rfl⟩
  cases hd : (recorded table).decrypt k n (p ++ [UInt8.ofNat m]) with
  | none => rfl
  | some p' =>
    obtain ⟨hn, heq⟩ := hbound hd
    -- the tags differ, as the numbers do
    have htag : UInt8.ofNat m = UInt8.ofNat n := cons.inj (append_inj' heq rfl).2 |>.1
    have hnat := congrArg UInt8.toNat htag
    rw [UInt8.toNat_ofNat', UInt8.toNat_ofNat', Nat.mod_eq_of_lt hm, Nat.mod_eq_of_lt hn] at hnat
    exact absurd hnat (ne_of_lt hlt)

end Lib
