/-
  Subject:   AEAD-2022 METHODS, USERS AND IDENTITY HASHES (`crates/shadowsocks/src/config.rs`). `Primitives.Inverts`
  is all that is assumed of the primitives.
-/
import Shadowsocks.Lib.Bytes

namespace Shadowsocks

open Lib List

inductive Aead2022Kind where
  | blake3Aes128Gcm
  | blake3Aes256Gcm
  | blake3Chacha20Poly1305
  | blake3Chacha8Poly1305

def Aead2022Kind.keyLen : Aead2022Kind → Nat
  | .blake3Aes128Gcm => 16
  | _ => 32

def Aead2022Kind.saltLen (kind : Aead2022Kind) : Nat := kind.keyLen

def methodSupportEih : Aead2022Kind → Bool
  | .blake3Aes128Gcm | .blake3Aes256Gcm => true
  | _ => false

theorem Aead2022Kind.saltLen_pos (kind : Aead2022Kind) : 0 < kind.saltLen := by
  cases kind <;> decide

structure Primitives where
  hash : Bytes → Bytes
  deriveKey : String → Bytes → Bytes
  (aesEncrypt aesDecrypt : Bytes → Bytes → Bytes)
  hash_length : ∀ x, (hash x).length = 32
  deriveKey_length : ∀ ctx x, (deriveKey ctx x).length = 32
  aesEncrypt_length : ∀ k b, b.length = 16 → (aesEncrypt k b).length = 16
  aesDecrypt_length : ∀ k b, b.length = 16 → (aesDecrypt k b).length = 16

variable (P : Primitives)

def Primitives.Inverts : Prop :=
  ∀ k b, b.length = 16 → P.aesDecrypt k (P.aesEncrypt k b) = b

def Primitives.identityHash (key : Bytes) : Bytes := (P.hash key).take 16

theorem Primitives.identityHash_length (key : Bytes) : (P.identityHash key).length = 16 := by
  rw [identityHash, length_take, P.hash_length]
  rfl

def pad32 (x : Bytes) : Bytes := (x ++ replicate 32 0).take 32

theorem pad32_length (x : Bytes) : (pad32 x).length = 32 := by
  rw [pad32, length_take, length_append, length_replicate]
  omega

def Primitives.transparent : Primitives where
  hash := pad32
  deriveKey _ := pad32
  aesEncrypt _ b := b
  aesDecrypt _ b := b
  hash_length := pad32_length
  deriveKey_length _ := pad32_length
  aesEncrypt_length _ _ h := h
  aesDecrypt_length _ _ h := h

structure ServerUser where
  name : String
  (key identityHash : Bytes)
  deriving DecidableEq

def ServerUser.new (name : String) (key : Bytes) : ServerUser :=
  ⟨name, key, P.identityHash key⟩

structure ServerUserManager where
  users : List ServerUser
  deriving DecidableEq

def ServerUserManager.addUser (m : ServerUserManager) (user : ServerUser) : ServerUserManager :=
  ⟨(m.users.filter fun u => u.identityHash ≠ user.identityHash) ++ [user]⟩

def ServerUserManager.getUserByHash (m : ServerUserManager) (userHash : Bytes) : Option ServerUser :=
  m.users.find? fun u => u.identityHash = userHash

end Shadowsocks
