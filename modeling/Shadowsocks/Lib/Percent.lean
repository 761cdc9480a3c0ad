/-
  Subject:   PERCENT-CODING, as the `percent_encoding` crate has it: a `%` that no two hexadecimal digits follow
  stands for itself.
-/
import Shadowsocks.Lib.Utf8

namespace Lib.Percent

open List Option

def hexDigit (n : Nat) : Char := if n < 10 then Char.ofNat (n + 48) else Char.ofNat (n + 55)

def hexValue (c : Char) : Option Nat :=
  if '0' ≤ c ∧ c ≤ '9' then some (c.toNat - 48)
  else if 'A' ≤ c ∧ c ≤ 'F' then some (c.toNat - 55)
  else if 'a' ≤ c ∧ c ≤ 'f' then some (c.toNat - 87)
  else none

theorem hexValue_hexDigit : ∀ n < 16, hexValue (hexDigit n) = some n := by decide

def encodeByte (b : UInt8) : List Char := ['%', hexDigit (b.toNat / 16), hexDigit (b.toNat % 16)]

def encodeChar (keep : Char → Bool) (c : Char) : List Char :=
  if keep c then [c] else (String.utf8EncodeChar c).flatMap encodeByte

def encode (keep : Char → Bool) (text : List Char) : List Char := text.flatMap (encodeChar keep)

def hexPair (h l : Char) : Option UInt8 :=
  match hexValue h, hexValue l with
  | some a, some b => some (UInt8.ofNat (a * 16 + b))
  | _, _ => none

def decode : List Char → Bytes
  | [] => []
  | c :: text =>
    match text with
    | h :: l :: rest =>
      match if c = '%' then hexPair h l else none with
      | some b => b :: decode rest
      | none => String.utf8EncodeChar c ++ decode (h :: l :: rest)
    | rest => String.utf8EncodeChar c ++ decode rest
  termination_by structural text => text

def beginsHex : List Char → Bool
  | h :: l :: _ => (hexPair h l).isSome
  | _ => false

variable {c : Char}

theorem decode_cons_of_ne (h : c ≠ '%') (rest : List Char) :
    decode (c :: rest) = String.utf8EncodeChar c ++ decode rest := by
  match rest with
  | [] | [_] => rfl
  | _ :: _ :: _ => simp [decode, h]

theorem decode_percent_pair {h l : Char} {b : UInt8} (hb : hexPair h l = some b) (rest : List Char) :
    decode ('%' :: h :: l :: rest) = b :: decode rest := by
  simp [decode, hb]

theorem decode_percent_alone {rest : List Char} (h : beginsHex rest = false) :
    decode ('%' :: rest) = String.utf8EncodeChar '%' ++ decode rest := by
  match rest with
  | [] | [_] => rfl
  | d :: e :: rest =>
    have hnone : hexPair d e = none := not_isSome_iff_eq_none.mp (by simpa [beginsHex] using h)
    simp [decode, hnone]

/-! ## What was encoded comes back -/

theorem hexPair_hexDigit (b : UInt8) : hexPair (hexDigit (b.toNat / 16)) (hexDigit (b.toNat % 16)) = some b := by
  have hb := b.toNat_lt
  have hsum : b.toNat / 16 * 16 + b.toNat % 16 = b.toNat := Nat.div_add_mod' _ _
  simp only [hexPair, hexValue_hexDigit _ (show b.toNat / 16 < 16 by omega),
    hexValue_hexDigit _ (show b.toNat % 16 < 16 by omega), hsum, UInt8.ofNat_toNat]

theorem decode_encodeByte (b : UInt8) (rest : List Char) : decode (encodeByte b ++ rest) = b :: decode rest :=
  decode_percent_pair (hexPair_hexDigit b) rest

theorem decode_encodeBytes (bs : Bytes) (rest : List Char) :
    decode (bs.flatMap encodeByte ++ rest) = bs ++ decode rest := by
  induction bs with
  | nil => rfl
  | cons b bs ih => rw [flatMap_cons, append_assoc, decode_encodeByte, ih, cons_append]

variable {keep : Char → Bool}

theorem decode_encode_append (hkeep : keep '%' = false) (text rest : List Char) :
    decode (encode keep text ++ rest) = utf8 text ++ decode rest := by
  induction text with
  | nil => rfl
  | cons c text ih =>
    rw [encode, flatMap_cons, ← encode, append_assoc, utf8_cons, append_assoc, ← ih, encodeChar]
    split
    · rename_i hc
      refine decode_cons_of_ne ?_ _
      rintro rfl
      rw [hkeep] at hc
      cases hc
    · exact decode_encodeBytes _ _

theorem decode_encode (hkeep : keep '%' = false) (text : List Char) : decode (encode keep text) = utf8 text := by
  have := decode_encode_append hkeep text []
  rwa [append_nil, decode, append_nil] at this

variable {text : List Char}

theorem encode_of_kept (h : ∀ c ∈ text, keep c = true) : encode keep text = text := by
  induction text with
  | nil => rfl
  | cons c text ih =>
    rw [encode, flatMap_cons, ← encode, ih fun d hd => h d (mem_cons_of_mem _ hd), encodeChar,
      if_pos (h c mem_cons_self), singleton_append]

theorem decode_plain (h : '%' ∉ text) : decode text = utf8 text := by
  have hkept : ∀ c ∈ text, (c != '%') = true := fun c hc => bne_iff_ne.mpr fun he => h (he ▸ hc)
  have hcoded : decode (encode (· != '%') text) = utf8 text := decode_encode (by decide) text
  rwa [encode_of_kept hkept] at hcoded

theorem mem_encode (h : c ∈ encode keep text) : keep c = true ∨ c = '%' ∨ ∃ n < 16, c = hexDigit n := by
  obtain ⟨d, -, hd⟩ := mem_flatMap.mp h
  unfold encodeChar at hd
  split at hd
  · rename_i hkeep
    rw [mem_singleton.mp hd]
    exact .inl hkeep
  obtain ⟨b, -, hb⟩ := mem_flatMap.mp hd
  have hlt := b.toNat_lt
  simp only [encodeByte, mem_cons, not_mem_nil, or_false] at hb
  rcases hb with rfl | rfl | rfl
  · exact .inr (.inl rfl)
  · exact .inr (.inr ⟨_, by omega, rfl⟩)
  · exact .inr (.inr ⟨_, by omega, rfl⟩)

/-! ## Sets that keep the percent sign -/

section

variable {keep : Char → Bool}

theorem encode_cons (c : Char) (text : List Char) : encode keep (c :: text) = encodeChar keep c ++ encode keep text :=
  flatMap_cons

theorem encodeChar_percent (h : keep c = false) : ∃ tail, encodeChar keep c = '%' :: tail := by
  rw [encodeChar, if_neg (by simp [h])]
  have hpos := encode_length_pos c
  cases hbytes : String.utf8EncodeChar c with
  | nil =>
    rw [hbytes] at hpos
    exact absurd hpos (lt_irrefl 0)
  | cons b bs => exact ⟨_, rfl⟩

theorem encode_of_no_percent (h : '%' ∉ encode keep text) : encode keep text = text := by
  refine encode_of_kept fun c hc => ?_
  by_contra hkeep
  obtain ⟨tail, htail⟩ := encodeChar_percent (eq_false_of_ne_true hkeep)
  exact h (mem_flatMap.mpr ⟨c, hc, htail ▸ mem_cons_self⟩)

theorem hexPair_isSome {h l : Char} : (hexPair h l).isSome = ((hexValue h).isSome && (hexValue l).isSome) := by
  unfold hexPair
  cases hexValue h <;> cases hexValue l <;> rfl

theorem encodeChar_kept (h : keep c = true) : encodeChar keep c = [c] := by
  rw [encodeChar, if_pos h]

theorem beginsHex_of_first (h : hexValue c = none) (rest : List Char) : beginsHex (c :: rest) = false := by
  cases rest with
  | nil => rfl
  | cons d rest => rw [beginsHex, hexPair_isSome, h, isSome_none, Bool.false_and]

theorem beginsHex_of_second {d : Char} (h : hexValue d = none) (c : Char) (rest : List Char) :
    beginsHex (c :: d :: rest) = false := by
  rw [beginsHex, hexPair_isSome, h, isSome_none, Bool.and_false]

theorem beginsHex_encode (hhex : ∀ c, (hexValue c).isSome → keep c = true) (text : List Char) :
    beginsHex (encode keep text) = beginsHex text := by
  have hpercent : hexValue '%' = none := by decide
  have hnone : ∀ c, keep c = false → hexValue c = none := fun c hc =>
    not_isSome_iff_eq_none.mp fun hs => by simp [hhex c hs] at hc
  match text with
  | [] => rfl
  | c :: text =>
    rw [encode_cons]
    cases hc : keep c with
    | false =>
      obtain ⟨tail, htail⟩ := encodeChar_percent hc
      rw [htail, cons_append, beginsHex_of_first hpercent, beginsHex_of_first (hnone c hc)]
    | true =>
      rw [encodeChar_kept hc, singleton_append]
      match text with
      | [] => rfl
      | d :: text =>
        rw [encode_cons]
        cases hd : keep d with
        | false =>
          obtain ⟨tail, htail⟩ := encodeChar_percent hd
          rw [htail, cons_append, beginsHex_of_second hpercent, beginsHex_of_second (hnone d hd)]
        | true => rw [encodeChar_kept hd, singleton_append, beginsHex, beginsHex]

theorem decode_encode_kept (hkeep : keep '%' = true) (hhex : ∀ c, (hexValue c).isSome → keep c = true)
    (text : List Char) : decode (encode keep text) = decode text := by
  induction hn : text.length using Nat.strongRecOn generalizing text with
  | _ n ih =>
    match text with
    | [] => rfl
    | c :: text =>
      subst hn
      have htail : decode (encode keep text) = decode text :=
        ih text.length (Nat.lt_succ_self _) text rfl
      rw [encode_cons]
      by_cases hc : c = '%'
      · subst hc
        rw [encodeChar_kept hkeep, singleton_append]
        cases hbegins : beginsHex text with
        | false =>
          rw [decode_percent_alone hbegins, decode_percent_alone (by rw [beginsHex_encode hhex, hbegins]), htail]
        | true =>
          match text, hbegins with
          | h :: l :: rest, hbegins =>
            obtain ⟨b, hb⟩ := isSome_iff_exists.mp hbegins
            rw [beginsHex, hexPair_isSome, Bool.and_eq_true] at hbegins
            rw [encode_cons, encode_cons, encodeChar_kept (hhex h hbegins.1),
              encodeChar_kept (hhex l hbegins.2), singleton_append, singleton_append,
              decode_percent_pair hb, decode_percent_pair hb,
              ih rest.length (by simp only [length_cons]; omega) rest rfl]
      rw [decode_cons_of_ne hc]
      cases hk : keep c with
      | true => rw [encodeChar_kept hk, singleton_append, decode_cons_of_ne hc, htail]
      | false =>
        rw [encodeChar, if_neg (by simp [hk]), decode_encodeBytes, htail]

end

end Lib.Percent
