/-
  Subject:   UTF-8 OVER LISTS OF CHARACTERS, and decoding that replaces what is not UTF-8
  (`String::from_utf8_lossy`).
-/
import Mathlib.Data.List.DropRight
import Shadowsocks.Lib.Bytes

namespace Lib

open List

variable (text : List Char)

def utf8 : Bytes := text.flatMap String.utf8EncodeChar

@[simp] theorem utf8_nil : utf8 [] = [] := rfl

theorem utf8_cons (c : Char) (text : List Char) : utf8 (c :: text) = String.utf8EncodeChar c ++ utf8 text :=
  flatMap_cons

theorem utf8_append (text' : List Char) : utf8 (text ++ text') = utf8 text ++ utf8 text' :=
  flatMap_append

theorem utf8_flatten (texts : List (List Char)) : utf8 texts.flatten = (texts.map utf8).flatten := by
  induction texts with
  | nil => rfl
  | cons text texts ih => rw [flatten_cons, utf8_append, ih, map_cons, flatten_cons]

def firstChar (bytes : Bytes) : Option Char := ByteArray.utf8DecodeChar? bytes.toByteArray 0

theorem firstChar_encode (c : Char) (rest : Bytes) : firstChar (String.utf8EncodeChar c ++ rest) = some c := by
  rw [firstChar, toByteArray_append]
  exact ByteArray.utf8DecodeChar?_utf8EncodeChar_append

def isContinuation (b : UInt8) : Bool := 0x80 ≤ b && b ≤ 0xbf

def secondFits (first second : UInt8) : Bool :=
  if first = 0xe0 then 0xa0 ≤ second && second ≤ 0xbf
  else if first = 0xed then 0x80 ≤ second && second ≤ 0x9f
  else if first = 0xf0 then 0x90 ≤ second && second ≤ 0xbf
  else if first = 0xf4 then 0x80 ≤ second && second ≤ 0x8f
  else isContinuation second

def invalidLen : Bytes → Nat
  | first :: second :: rest =>
    if 0xe0 ≤ first && first ≤ 0xf4 && secondFits first second then
      match rest with
      | third :: _ => if 0xf0 ≤ first && isContinuation third then 3 else 2
      | [] => 2
    else 1
  | _ => 1

def decodeLossy : Nat → Bytes → List Char
  | 0, _ => []
  | fuel + 1, bytes =>
    if bytes.isEmpty then []
    else
      match firstChar bytes with
      | some c => c :: decodeLossy fuel (bytes.drop (String.utf8EncodeChar c).length)
      | none => Char.ofNat 0xfffd :: decodeLossy fuel (bytes.drop (invalidLen bytes))

def fromUtf8Lossy (bytes : Bytes) : List Char := decodeLossy bytes.length bytes

theorem encode_length_pos (c : Char) : 0 < (String.utf8EncodeChar c).length := by
  rw [String.length_utf8EncodeChar]
  exact Char.utf8Size_pos c

theorem length_le_utf8 : text.length ≤ (utf8 text).length := by
  induction text with
  | nil => exact zero_le
  | cons c text ih =>
    have hpos := encode_length_pos c
    rw [utf8_cons, length_append, length_cons]
    omega

theorem decodeLossy_utf8 {fuel : Nat} {text : List Char} (h : text.length ≤ fuel) :
    decodeLossy fuel (utf8 text) = text := by
  induction text generalizing fuel with
  | nil => cases fuel <;> rfl
  | cons c text ih =>
    obtain ⟨fuel, rfl⟩ : ∃ n, fuel = n + 1 := ⟨fuel - 1, by simp only [length_cons] at h; omega⟩
    have hne : (utf8 (c :: text)).isEmpty = false := by
      have hpos := encode_length_pos c
      rw [isEmpty_eq_false_iff, utf8_cons, ← length_pos_iff, length_append]
      omega
    rw [decodeLossy, if_neg (by rw [hne]; exact Bool.false_ne_true), utf8_cons, firstChar_encode]
    simp only [drop_left]
    rw [ih (by simpa using h)]

@[simp] theorem fromUtf8Lossy_utf8 : fromUtf8Lossy (utf8 text) = text :=
  decodeLossy_utf8 (length_le_utf8 text)

theorem utf8_injective : Function.Injective utf8 :=
  Function.LeftInverse.injective fromUtf8Lossy_utf8

def fromUtf8 (bytes : Bytes) : Option (List Char) :=
  if utf8 (fromUtf8Lossy bytes) = bytes then some (fromUtf8Lossy bytes) else none

@[simp] theorem fromUtf8_utf8 : fromUtf8 (utf8 text) = some text := by
  rw [fromUtf8, fromUtf8Lossy_utf8, if_pos rfl]

theorem fromUtf8_length {bytes : Bytes} {text : List Char} (h : fromUtf8 bytes = some text) :
    text.length ≤ bytes.length := by
  unfold fromUtf8 at h
  split at h
  · rename_i hbytes
    cases h
    have := length_le_utf8 (fromUtf8Lossy bytes)
    rwa [hbytes] at this
  · cases h

-- the euro sign cut after its second byte
example : fromUtf8Lossy [0xe2, 0x82] = [Char.ofNat 0xfffd] ∧ fromUtf8Lossy [0xac] = [Char.ofNat 0xfffd] := by
  decide +kernel

def isWhitespace (c : Char) : Bool :=
  let n := c.toNat
  (9 ≤ n && n ≤ 13) || n == 0x20 || n == 0x85 || n == 0xa0 || n == 0x1680 ||
    (0x2000 ≤ n && n ≤ 0x200a) || n == 0x2028 || n == 0x2029 || n == 0x202f || n == 0x205f || n == 0x3000

def trim (t : List Char) : List Char := (t.dropWhile isWhitespace).rdropWhile isWhitespace

end Lib
