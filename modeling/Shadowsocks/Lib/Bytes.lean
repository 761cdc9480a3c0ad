/-
  Subject:   BYTE STRINGS AND BIG-ENDIAN NUMBERS, with their round trips.
-/
import Mathlib.Algebra.Order.Group.Nat
import Mathlib.Data.List.Basic
import Mathlib.Data.List.Induction

namespace Lib

abbrev Bytes := List UInt8

def beBytes : Nat → Nat → Bytes
  | 0, _ => []
  | n + 1, v => beBytes n (v / 256) ++ [UInt8.ofNat v]

variable (bs : Bytes)

def beNat : Nat := bs.foldl (fun acc b => acc * 256 + b.toNat) 0

@[simp] theorem beBytes_length (n v : Nat) : (beBytes n v).length = n := by
  induction n generalizing v with
  | zero => rfl
  | succ n ih => simp [beBytes, ih]

theorem beNat_concat (b : UInt8) : beNat (bs ++ [b]) = beNat bs * 256 + b.toNat := by
  rw [beNat, List.foldl_append]
  rfl

theorem beNat_singleton (b : UInt8) : UInt8.ofNat (beNat [b]) = b := by
  show UInt8.ofNat (0 * 256 + b.toNat) = b
  rw [Nat.zero_mul, zero_add, UInt8.ofNat_toNat]

theorem beNat_beBytes (n v : Nat) : beNat (beBytes n v) = v % 256 ^ n := by
  induction n generalizing v with
  | zero => exact (Nat.mod_one v).symm
  | succ n ih =>
    have hbyte : (UInt8.ofNat v).toNat = v % 256 := UInt8.toNat_ofNat'
    rw [beBytes, beNat_concat, ih, hbyte, pow_succ 256 n, mul_comm (256 ^ n) 256, Nat.mod_mul]
    omega

/-! ## The widths of the wire formats -/

def put16 (x : UInt16) : Bytes := beBytes 2 x.toNat

def put64 (x : UInt64) : Bytes := beBytes 8 x.toNat

def get16 : UInt16 := UInt16.ofNat (beNat bs)

def get64 : UInt64 := UInt64.ofNat (beNat bs)

@[simp] theorem put16_length (x : UInt16) : (put16 x).length = 2 := beBytes_length 2 _

@[simp] theorem put64_length (x : UInt64) : (put64 x).length = 8 := beBytes_length 8 _

@[simp] theorem get16_put16 (x : UInt16) : get16 (put16 x) = x := by
  unfold get16 put16
  have hlt : x.toNat < 256 ^ 2 := lt_of_lt_of_eq x.toNat_lt (by decide)
  rw [beNat_beBytes, Nat.mod_eq_of_lt hlt]
  exact UInt16.ofNat_toNat

@[simp] theorem get64_put64 (x : UInt64) : get64 (put64 x) = x := by
  unfold get64 put64
  have hlt : x.toNat < 256 ^ 8 := lt_of_lt_of_eq x.toNat_lt (by decide)
  rw [beNat_beBytes, Nat.mod_eq_of_lt hlt]
  exact UInt64.ofNat_toNat

theorem beNat_lt : beNat bs < 256 ^ bs.length := by
  induction bs using List.reverseRecOn with
  | nil => exact one_pos
  | append_singleton bs b ih =>
    have := b.toNat_lt
    rw [beNat_concat, List.length_append, List.length_singleton, pow_succ]
    omega

theorem beBytes_beNat : beBytes bs.length (beNat bs) = bs := by
  induction bs using List.reverseRecOn with
  | nil => rfl
  | append_singleton bs b ih =>
    have hb := b.toNat_lt
    have hdiv : (beNat bs * 256 + b.toNat) / 256 = beNat bs := by omega
    have hlow : UInt8.ofNat (beNat bs * 256 + b.toNat) = b := by
      refine UInt8.toNat_inj.mp ?_
      rw [UInt8.toNat_ofNat']
      omega
    rw [List.length_append, List.length_singleton, beBytes, beNat_concat, hdiv, hlow, ih]

theorem put16_get16 {bs : Bytes} (h : bs.length = 2) : put16 (get16 bs) = bs := by
  have hlt : beNat bs < 2 ^ 16 := by
    have hbs := beNat_lt bs
    rwa [h] at hbs
  rw [put16, get16, UInt16.toNat_ofNat', Nat.mod_eq_of_lt hlt, ← h, beBytes_beNat]

theorem put16_ofNat {n : Nat} (h : n < 65536) : (get16 (put16 (UInt16.ofNat n))).toNat = n := by
  rw [get16_put16, UInt16.toNat_ofNat', Nat.mod_eq_of_lt h]

end Lib
