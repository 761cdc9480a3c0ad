/-
  Subject:   THE CACHE OF UDP CIPHERS (`get_cipher` of `relay/udprelay/aead_2022.rs`). Its keys hold the address of
  a secret and are told apart by a 64-bit hash. Nothing takes an entry out when a secret is freed.
-/
import Shadowsocks.Lib.Lru
import Shadowsocks.Relay.Identity

namespace Shadowsocks.Udp.CipherCache

open Lib

variable {Kind Cipher : Type}

structure CipherKey (Kind : Type) where
  method : Kind
  (key sessionId : UInt64)

structure Crates (Kind Cipher : Type) where
  hash : CipherKey Kind → UInt64
  newCipher : Kind → Bytes → UInt64 → Cipher

structure Call (Kind : Type) where
  method : Kind
  address : UInt64
  key : Bytes
  sessionId : UInt64

variable (X : Crates Kind Cipher)

def Call.cipherKey (c : Call Kind) : CipherKey Kind := ⟨c.method, c.address, c.sessionId⟩

def Call.slot (c : Call Kind) : UInt64 := X.hash c.cipherKey

def Call.built (c : Call Kind) : Cipher := X.newCipher c.method c.key c.sessionId

def cipherCache : LruCache UInt64 Cipher := .withExpiryDurationAndCapacity (30 * 1000000000) 102400

def getCipher (cache : LruCache UInt64 Cipher) (now : Nat) (c : Call Kind) : Cipher × LruCache UInt64 Cipher :=
  match cache.get now (c.slot X) with
  | (some cipher, cache) => (cipher, cache)
  | (none, cache) => (c.built X, cache.insert now (c.slot X) (c.built X))

def getCiphers (cache : LruCache UInt64 Cipher) : List (Nat × Call Kind) → List Cipher
  | [] => []
  | (now, c) :: calls => (getCipher X cache now c).1 :: getCiphers (getCipher X cache now c).2 calls

variable {X} {P : Call Kind → Prop} {cache : LruCache UInt64 Cipher}

def BuiltIn (X : Crates Kind Cipher) (P : Call Kind → Prop) (cache : LruCache UInt64 Cipher) : Prop :=
  ∀ e ∈ cache.entries, ∃ a, P a ∧ e.key = a.slot X ∧ e.value = a.built X

theorem getCipher_builtIn (hP : ∀ a b, P a → P b → a.slot X = b.slot X → a.built X = b.built X)
    (h : BuiltIn X P cache) (now : Nat) {c : Call Kind} (hc : P c) :
    (getCipher X cache now c).1 = c.built X ∧ BuiltIn X P (getCipher X cache now c).2 := by
  unfold getCipher LruCache.get
  cases hl : cache.lookup now (c.slot X) with
  | some cipher =>
    obtain ⟨e, he, hkey, rfl⟩ := LruCache.mem_of_lookup hl
    obtain ⟨a, ha, hslot, hbuilt⟩ := h e he
    refine ⟨?_, ?_⟩
    · rw [hbuilt]
      exact hP a c ha hc (hslot.symm.trans hkey)
    · intro e' he'
      rcases LruCache.mem_of_touch he' with hold | rfl
      · exact h e' hold
      · exact ⟨a, ha, hkey.symm.trans hslot, hbuilt⟩
  | none =>
    refine ⟨rfl, fun e he => ?_⟩
    rcases LruCache.mem_of_insert he with hold | rfl
    · exact h e (LruCache.mem_alive.mp hold).1
    · exact ⟨c, hc, rfl, rfl⟩

theorem getCiphers_built (hP : ∀ a b, P a → P b → a.slot X = b.slot X → a.built X = b.built X)
    (calls : List (Nat × Call Kind)) (hcalls : ∀ c ∈ calls, P c.2) (h : BuiltIn X P cache) :
    getCiphers X cache calls = calls.map (·.2.built X) := by
  induction calls generalizing cache with
  | nil => rfl
  | cons call calls ih =>
    obtain ⟨hc, hrest⟩ := List.forall_mem_cons.mp hcalls
    obtain ⟨hbuilt, hnext⟩ := getCipher_builtIn hP h call.1 hc
    rw [getCiphers, hbuilt, ih hrest hnext]
    rfl

theorem getCiphers_hit {now now' : Nat} (halive : now' ≤ now + 30 * 1000000000) {a b : Call Kind}
    (h : a.slot X = b.slot X) : getCiphers X cipherCache [(now, a), (now', b)] = [a.built X, a.built X] := by
  simp [getCiphers, getCipher, cipherCache, LruCache.get, LruCache.lookup, LruCache.insert, LruCache.alive,
    LruCache.sweep, LruCache.withExpiryDurationAndCapacity, evict, h, halive]

/-- **When the cache cannot be observed**: exactly if no two calls whose keys have one hash ask for different ciphers.
-/
theorem transparent_iff (X : Crates Kind Cipher) (P : Call Kind → Prop) :
    (∀ calls : List (Nat × Call Kind), (∀ c ∈ calls, P c.2) → calls.Pairwise (·.1 ≤ ·.1) →
        getCiphers X cipherCache calls = calls.map (·.2.built X)) ↔
      ∀ a b, P a → P b → a.slot X = b.slot X → a.built X = b.built X := by
  constructor
  · intro h a b ha hb hslot
    have hrun := h [(0, a), (0, b)] (by simp [ha, hb]) (by simp)
    rw [getCiphers_hit zero_le hslot] at hrun
    simpa using hrun
  · intro hP calls hcalls _
    exact getCiphers_built hP calls hcalls nofun

def firstCall : Call Aead2022Kind := ⟨.blake3Aes128Gcm, 4096, [1], 7⟩

def reusedCall : Call Aead2022Kind := { firstCall with key := [2] }

/-- Whatever the hasher, the second secret is used as if it were the first. -/
theorem stale_cipher :
    firstCall.key ≠ reusedCall.key ∧ ∀ X : Crates Aead2022Kind Bytes, X.newCipher = (fun _ key _ => key) →
      getCiphers X cipherCache [(0, firstCall), (1000000000, reusedCall)] = [[1], [1]] := by
  refine ⟨by decide, fun X hnew => ?_⟩
  have hslot : firstCall.slot X = reusedCall.slot X := rfl
  rw [getCiphers_hit (by decide) hslot, Call.built, hnew]
  rfl

end Shadowsocks.Udp.CipherCache
