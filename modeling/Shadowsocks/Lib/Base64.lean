/-
  Subject:   BASE64 with either alphabet, as the `base64` crate has it: padding is optional when it is decoded, and
  bits that are left over have to be zero.
-/
import Shadowsocks.Lib.Bytes

namespace Lib.Base64

open List Option

structure Alphabet where
  symbol : Nat → Char
  value : Char → Option Nat
  value_symbol : ∀ n < 64, value (symbol n) = some n
  symbol_ne_pad : ∀ n < 64, symbol n ≠ '='

def symbolIn (c62 c63 : Char) (n : Nat) : Char :=
  if n < 26 then Char.ofNat (n + 65)
  else if n < 52 then Char.ofNat (n + 71)
  else if n < 62 then Char.ofNat (n - 4)
  else if n = 62 then c62
  else c63

def valueIn (c62 c63 : Char) (c : Char) : Option Nat :=
  if c.isUpper then some (c.toNat - 65)
  else if c.isLower then some (c.toNat - 71)
  else if c.isDigit then some (c.toNat + 4)
  else if c = c62 then some 62
  else if c = c63 then some 63
  else none

def standard : Alphabet where
  symbol := symbolIn '+' '/'
  value := valueIn '+' '/'
  value_symbol := by decide +kernel
  symbol_ne_pad := by decide +kernel

def urlSafe : Alphabet where
  symbol := symbolIn '-' '_'
  value := valueIn '-' '_'
  value_symbol := by decide +kernel
  symbol_ne_pad := by decide +kernel

/-! ## 1. Six bits at a time -/

def sextets : Bytes → List Nat
  | x :: y :: z :: rest =>
    x.toNat / 4 :: (x.toNat % 4 * 16 + y.toNat / 16) :: (y.toNat % 16 * 4 + z.toNat / 64) :: z.toNat % 64 ::
      sextets rest
  | [x, y] => [x.toNat / 4, x.toNat % 4 * 16 + y.toNat / 16, y.toNat % 16 * 4]
  | [x] => [x.toNat / 4, x.toNat % 4 * 16]
  | [] => []

def octets : List Nat → Option Bytes
  | a :: b :: c :: d :: rest =>
    (octets rest).map fun bs =>
      UInt8.ofNat (a * 4 + b / 16) :: UInt8.ofNat (b % 16 * 16 + c / 4) :: UInt8.ofNat (c % 4 * 64 + d) :: bs
  | [a, b, c] =>
    if c % 4 = 0 then some [UInt8.ofNat (a * 4 + b / 16), UInt8.ofNat (b % 16 * 16 + c / 4)] else none
  | [a, b] => if b % 16 = 0 then some [UInt8.ofNat (a * 4 + b / 16)] else none
  | [_] => none
  | [] => some []

theorem sextets_lt (bs : Bytes) : ∀ n ∈ sextets bs, n < 64 := by
  induction bs using sextets.induct with
  | case1 x y z rest ih =>
    have hx := x.toNat_lt
    have hy := y.toNat_lt
    have hz := z.toNat_lt
    simp only [sextets, mem_cons]
    rintro n (rfl | rfl | rfl | rfl | h)
    · omega
    · omega
    · omega
    · omega
    · exact ih n h
  | case2 x y =>
    have hx := x.toNat_lt
    have hy := y.toNat_lt
    simp only [sextets, mem_cons, not_mem_nil, or_false]
    omega
  | case3 x =>
    have hx := x.toNat_lt
    simp only [sextets, mem_cons, not_mem_nil, or_false]
    omega
  | case4 => simp [sextets]

theorem ofNat_parts {n : Nat} {x : UInt8} (h : n = x.toNat) : UInt8.ofNat n = x := by
  rw [h, UInt8.ofNat_toNat]

theorem octets_sextets (bs : Bytes) : octets (sextets bs) = some bs := by
  induction bs using sextets.induct with
  | case1 x y z rest ih =>
    have hy := y.toNat_lt
    have hz := z.toNat_lt
    simp only [sextets, octets, ih, map_some]
    rw [ofNat_parts (x := x) (by omega), ofNat_parts (x := y) (by omega), ofNat_parts (x := z) (by omega)]
  | case2 x y =>
    have hx := x.toNat_lt
    have hy := y.toNat_lt
    simp only [sextets, octets]
    rw [if_pos (by omega), ofNat_parts (x := x) (by omega), ofNat_parts (x := y) (by omega)]
  | case3 x =>
    have hx := x.toNat_lt
    simp only [sextets, octets]
    rw [if_pos (by omega), ofNat_parts (x := x) (by omega)]
  | case4 => rfl

variable {bs : Bytes}

theorem sextets_ne_nil (h : bs ≠ []) : sextets bs ≠ [] := by
  match bs, h with
  | [_], _ | [_, _], _ | _ :: _ :: _ :: _, _ => simp [sextets]

theorem sextets_length (bs : Bytes) : (4 - (sextets bs).length % 4) % 4 = (3 - bs.length % 3) % 3 := by
  induction bs using sextets.induct with
  | case1 x y z rest ih =>
    simp only [sextets, length_cons]
    omega
  | case2 | case3 | case4 => rfl

variable {ns : List Nat}

theorem octets_length (h : octets ns = some bs) : bs.length * 4 ≤ ns.length * 3 := by
  fun_induction octets ns generalizing bs with
  | case1 a b c d rest ih =>
    obtain ⟨bs', hbs', rfl⟩ := map_eq_some_iff.mp h
    have := ih hbs'
    simp only [length_cons]
    omega
  | case2 | case4 | case7 => cases h; simp
  | case6 | case3 | case5 => cases h

/-! ## 2. Texts -/

def encode (A : Alphabet) (padded : Bool) (bs : Bytes) : List Char :=
  (sextets bs).map A.symbol ++ if padded then replicate ((3 - bs.length % 3) % 3) '=' else []

def decode (A : Alphabet) (text : List Char) : Option Bytes :=
  let body := text.takeWhile (· != '=')
  let padding := text.dropWhile (· != '=')
  if padding.all (· == '=') ∧ padding.length ≤ (4 - body.length % 4) % 4 then (body.mapM A.value).bind octets
  else none

theorem mapM_value_symbol (A : Alphabet) (h : ∀ n ∈ ns, n < 64) : (ns.map A.symbol).mapM A.value = some ns := by
  induction ns with
  | nil => rfl
  | cons n ns ih =>
    rw [map_cons, mapM_cons, A.value_symbol n (h n mem_cons_self), ih fun m hm => h m (mem_cons_of_mem _ hm)]
    rfl

theorem decode_encode (A : Alphabet) (padded : Bool) (bs : Bytes) : decode A (encode A padded bs) = some bs := by
  have hbody : ∀ c ∈ (sextets bs).map A.symbol, (c != '=') = true := by
    intro c hc
    obtain ⟨n, hn, rfl⟩ := mem_map.mp hc
    exact bne_iff_ne.mpr (A.symbol_ne_pad n (sextets_lt bs n hn))
  obtain ⟨k, hk, hle⟩ : ∃ k, encode A padded bs = (sextets bs).map A.symbol ++ replicate k '=' ∧
      k ≤ (3 - bs.length % 3) % 3 := by
    cases padded with
    | true => exact ⟨_, rfl, le_rfl⟩
    | false => exact ⟨0, rfl, zero_le⟩
  have htake : (encode A padded bs).takeWhile (· != '=') = (sextets bs).map A.symbol := by
    rw [hk, takeWhile_append_of_pos hbody, takeWhile_replicate, if_neg (by decide), append_nil]
  have hdrop : (encode A padded bs).dropWhile (· != '=') = replicate k '=' := by
    rw [hk, dropWhile_append_of_pos hbody, dropWhile_replicate, if_neg (by decide)]
  rw [decode, htake, hdrop, if_pos ⟨by simp, by rw [length_replicate, length_map, sextets_length]; exact hle⟩,
    mapM_value_symbol A (sextets_lt bs)]
  exact octets_sextets bs

variable {A : Alphabet} {padded : Bool}

theorem mem_encode {c : Char} (h : c ∈ encode A padded bs) :
    (∃ n < 64, c = A.symbol n) ∨ padded = true ∧ c = '=' := by
  rcases mem_append.mp h with h | h
  · obtain ⟨n, hn, rfl⟩ := mem_map.mp h
    exact .inl ⟨n, sextets_lt bs n hn, rfl⟩
  · cases padded with
    | true => exact .inr ⟨rfl, eq_of_mem_replicate h⟩
    | false => cases h

variable {text : List Char}

theorem isSome_of_mapM (h : text.mapM A.value = some ns) : ∀ c ∈ text, (A.value c).isSome := by
  induction text generalizing ns with
  | nil => exact nofun
  | cons c text ih =>
    rw [mapM_cons] at h
    cases hc : A.value c with
    | none =>
      rw [hc] at h
      cases h
    | some n =>
      cases htext : text.mapM A.value with
      | none =>
        rw [hc, htext] at h
        cases h
      | some ms =>
        intro d hd
        rcases mem_cons.mp hd with rfl | hd
        · rw [hc]
          rfl
        · exact ih htext d hd

theorem mem_of_decode (h : decode A text = some bs) {c : Char} (hc : c ∈ text) : (A.value c).isSome ∨ c = '=' := by
  unfold decode at h
  dsimp only at h
  split at h
  · rename_i hpadding
    obtain ⟨ns, hns, -⟩ := bind_eq_some_iff.mp h
    rw [← takeWhile_append_dropWhile (p := (· != '=')) (l := text)] at hc
    rcases mem_append.mp hc with hc | hc
    · exact .inl (isSome_of_mapM hns c hc)
    · exact .inr (beq_iff_eq.mp (all_eq_true.mp hpadding.1 c hc))
  · cases h

theorem mapM_value_length (h : text.mapM A.value = some ns) : ns.length = text.length := by
  induction text generalizing ns with
  | nil => cases h; rfl
  | cons c text ih =>
    rw [mapM_cons] at h
    obtain ⟨n, -, h⟩ := bind_eq_some_iff.mp h
    obtain ⟨ms, hms, h⟩ := bind_eq_some_iff.mp h
    cases h
    rw [length_cons, length_cons, ih hms]

theorem decode_length (h : decode A text = some bs) : bs.length * 4 ≤ text.length * 3 := by
  unfold decode at h
  dsimp only at h
  split at h
  · obtain ⟨ns, hns, hbs⟩ := bind_eq_some_iff.mp h
    have hoctets := octets_length hbs
    have hbody : (text.takeWhile (· != '=')).length ≤ text.length := (takeWhile_sublist _).length_le
    rw [mapM_value_length hns] at hoctets
    omega
  · cases h

theorem encode_ne_nil (h : bs ≠ []) : encode A padded bs ≠ [] := by
  rw [encode, Ne, append_eq_nil_iff, map_eq_nil_iff]
  exact fun h' => sextets_ne_nil h h'.1

end Lib.Base64
