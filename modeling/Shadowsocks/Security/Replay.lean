/-
  Subject:   REPLAY PROTECTION (`security/replay/` and `context.rs` of `crates/shadowsocks/src`): the salts of
  AEAD-2022 in a cache that expires, all others in two Bloom filters that take turns. The hash functions are
  arbitrary. Times are in nanoseconds.
-/
import Shadowsocks.Lib.Lru
import Shadowsocks.Lib.Machine
import Shadowsocks.Lib.Poll

namespace Shadowsocks

open Lib

inductive CipherCategory where
  | none
  | stream
  | aead
  | aead2022
  deriving DecidableEq

def nanos : Nat := 1000000000

/-! ## 1. The ping-pong Bloom filter -/

structure Bloom where
  hashes : Bytes → List Nat
  bits : List Nat

variable (b : Bloom)

def Bloom.check (x : Bytes) : Bool := (b.hashes x).all fun i => decide (i ∈ b.bits)

def Bloom.set (x : Bytes) : Bloom := { b with bits := b.hashes x ++ b.bits }

def Bloom.clear : Bloom := { b with bits := [] }

theorem Bloom.check_set (x : Bytes) : (b.set x).check x = true := by
  rw [check, set, List.all_eq_true]
  intro i hi
  exact decide_eq_true (List.mem_append_left _ hi)

inductive ServerType where
  | localServer
  | server

structure PingPongBloom where
  blooms : Vector Bloom 2
  bloomCount : Vector Nat 2
  itemCount : Nat
  current : Fin 2

variable (ty : ServerType)

variable (h₁ h₂ : Bytes → List Nat)

def PingPongBloom.new : PingPongBloom where
  blooms := #v[⟨h₁, []⟩, ⟨h₂, []⟩]
  bloomCount := #v[0, 0]
  itemCount := (match ty with | .localServer => 10000 | .server => 1000000) / 2
  current := 0

def PingPongBloom.swap (p : PingPongBloom) : PingPongBloom :=
  let next := p.current + 1
  { p with current := next
           bloomCount := p.bloomCount.set next 0
           blooms := p.blooms.set next (p.blooms.get next).clear }

def PingPongBloom.checkAndSet (p : PingPongBloom) (buf : Bytes) : Bool × PingPongBloom :=
  if p.blooms.toList.any (fun bloom => bloom.check buf) then (true, p)
  else
    let q := if p.itemCount ≤ p.bloomCount.get p.current then p.swap else p
    (false, { q with blooms := q.blooms.set q.current ((q.blooms.get q.current).set buf)
                     bloomCount := q.bloomCount.set q.current (q.bloomCount.get q.current + 1) })

structure PingPongBloom.Holds (p : PingPongBloom) (xs : List Bytes) : Prop where
  room : 0 < p.itemCount
  split : ∃ old other now, xs = old ++ other ++ now ∧ (old = [] ∨ p.itemCount ≤ other.length) ∧
    p.bloomCount.get p.current = now.length ∧ (∀ x ∈ now, (p.blooms.get p.current).check x = true) ∧
    ∀ x ∈ other, (p.blooms.get (p.current + 1)).check x = true

theorem PingPongBloom.holds_new : (new ty h₁ h₂).Holds [] := by
  refine ⟨?_, [], [], [], rfl, Or.inl rfl, rfl, nofun, nofun⟩
  cases ty with
  | localServer => exact (by decide : 0 < 10000 / 2)
  | server => exact (by decide : 0 < 1000000 / 2)

variable {x : Bytes}

theorem Bloom.check_set_of_check {b : Bloom} {y : Bytes} (h : b.check x = true) : (b.set y).check x = true := by
  unfold check set at *
  rw [List.all_eq_true] at h ⊢
  intro i hi
  exact decide_eq_true (List.mem_append_right _ (of_decide_eq_true (h i hi)))

theorem two_ne (i : Fin 2) : i + 1 ≠ i := by
  revert i
  decide

theorem two_back (i : Fin 2) : i + 1 + 1 = i := by
  revert i
  decide

variable {n : Nat} {α : Type}

theorem get_set_self (v : Vector α n) (i : Fin n) (x : α) : (v.set i x).get i = x :=
  Vector.getElem_set_self _

theorem get_set_ne (v : Vector α n) {i j : Fin n} (h : i ≠ j) (x : α) :
    (v.set i x).get j = v.get j :=
  Vector.getElem_set_ne _ _ fun e => h (Fin.ext e)

theorem get_set_all {P : α → Prop} {v : Vector α n} (hv : ∀ j, P (v.get j)) (i j : Fin n)
    {x : α} (hx : P x) : P ((v.set i x).get j) := by
  by_cases hj : i = j
  · subst hj
    rwa [get_set_self]
  · rw [get_set_ne _ hj]
    exact hv j

def PingPongBloom.put (p : PingPongBloom) (buf : Bytes) : PingPongBloom :=
  { p with blooms := p.blooms.set p.current ((p.blooms.get p.current).set buf)
           bloomCount := p.bloomCount.set p.current (p.bloomCount.get p.current + 1) }

variable {p : PingPongBloom}

theorem PingPongBloom.blooms_put : (p.put x).blooms.get p.current = (p.blooms.get p.current).set x :=
  get_set_self _ _ _

theorem PingPongBloom.bloomCount_put : (p.put x).bloomCount.get p.current = p.bloomCount.get p.current + 1 :=
  get_set_self _ _ _

theorem PingPongBloom.checkAndSet_found (h : (p.checkAndSet x).1 = true) : (p.checkAndSet x).2 = p := by
  unfold checkAndSet at h ⊢
  split
  · rfl
  · rename_i hno
    rw [if_neg hno] at h
    cases h

theorem PingPongBloom.checkAndSet_new (h : (p.checkAndSet x).1 = false) :
    (p.checkAndSet x).2 = (if p.itemCount ≤ p.bloomCount.get p.current then p.swap else p).put x := by
  unfold checkAndSet at h ⊢
  by_cases hfound : p.blooms.toList.any (fun bloom => bloom.check x) = true
  · rw [if_pos hfound] at h
    cases h
  · rw [if_neg hfound]
    rfl

theorem PingPongBloom.checkAndSet_itemCount (p : PingPongBloom) (x : Bytes) :
    (p.checkAndSet x).2.itemCount = p.itemCount := by
  cases h : (p.checkAndSet x).1 with
  | true => rw [checkAndSet_found h]
  | false =>
    rw [checkAndSet_new h]
    split
    · rfl
    · rfl

variable {xs : List Bytes}

theorem PingPongBloom.Holds.swap (h : p.Holds xs) (hfull : p.itemCount ≤ p.bloomCount.get p.current) :
    p.swap.Holds xs := by
  obtain ⟨hroom, old, other, now, rfl, -, hcount, hnow, -⟩ := h
  refine ⟨hroom, old ++ other, now, [], (List.append_nil _).symm, Or.inr (hcount ▸ hfull), ?_, nofun, ?_⟩
  · exact get_set_self _ _ _
  intro y hy
  have hback : (p.swap.current + 1 : Fin 2) = p.current := two_back p.current
  rw [hback]
  show ((p.blooms.set _ _).get p.current).check y = true
  rw [get_set_ne _ (two_ne p.current)]
  exact hnow y hy

theorem PingPongBloom.Holds.put (h : p.Holds xs) (x : Bytes) : (p.put x).Holds (xs ++ [x]) := by
  obtain ⟨hroom, old, other, now, rfl, hold, hcount, hnow, hother⟩ := h
  refine ⟨hroom, old, other, now ++ [x], by simp, hold, ?_, ?_, ?_⟩
  · rw [List.length_append, List.length_singleton, ← hcount]
    exact bloomCount_put
  · intro y hy
    show ((p.put x).blooms.get p.current).check y = true
    rw [blooms_put]
    rcases List.mem_append.mp hy with hin | hin
    · exact Bloom.check_set_of_check (hnow y hin)
    · rw [List.mem_singleton.mp hin]
      exact Bloom.check_set _ x
  · intro y hy
    show ((p.blooms.set _ _).get (p.current + 1)).check y = true
    rw [get_set_ne _ (two_ne p.current).symm]
    exact hother y hy

theorem PingPongBloom.Holds.set (h : p.Holds xs) (hnew : (p.checkAndSet x).1 = false) :
    (p.checkAndSet x).2.Holds (xs ++ [x]) := by
  rw [checkAndSet_new hnew]
  split
  · rename_i hfull
    exact (h.swap hfull).put x
  · exact h.put x

theorem PingPongBloom.Holds.found (h : p.Holds xs) (hx : x ∈ xs.drop (xs.length - p.itemCount)) :
    (p.checkAndSet x).1 = true := by
  obtain ⟨-, old, other, now, rfl, hold, -, hnow, hother⟩ := h
  have hin : x ∈ other ++ now := by
    rcases hold with rfl | hlong
    · exact List.mem_of_mem_drop hx
    have hle : old.length ≤ (old ++ other ++ now).length - p.itemCount := by
      simp only [List.length_append]
      omega
    rw [← Nat.add_sub_cancel' hle, ← List.drop_drop, List.append_assoc, List.drop_left] at hx
    exact List.mem_of_mem_drop hx
  have hany : p.blooms.toList.any (fun bloom => bloom.check x) = true := by
    rw [List.any_eq_true]
    rcases List.mem_append.mp hin with ho | hn
    · exact ⟨_, by simp [Vector.get], hother x ho⟩
    · exact ⟨_, by simp [Vector.get], hnow x hn⟩
  rw [checkAndSet, if_pos hany]

/-! ### Runs of the filters -/

def PingPongBloom.record (p : PingPongBloom) (x : Bytes) : PingPongBloom × List Bytes :=
  ((p.checkAndSet x).2, if (p.checkAndSet x).1 then [] else [x])

def PingPongBloom.Filled (p : PingPongBloom) (recorded : List Bytes) : Prop :=
  ∀ i, ∃ values : List Bytes, values.Sublist recorded ∧
    p.blooms.get i = values.foldl Bloom.set (p.blooms.get i).clear ∧
    values.length = p.bloomCount.get i ∧ values.length ≤ p.itemCount

theorem PingPongBloom.Filled.swap (h : p.Filled xs) : p.swap.Filled xs := by
  intro i
  by_cases hi : p.current + 1 = i
  · subst hi
    have hbloom : p.swap.blooms.get (p.current + 1) = (p.blooms.get (p.current + 1)).clear := get_set_self _ _ _
    refine ⟨[], List.nil_sublist _, ?_, (get_set_self _ _ _).symm, zero_le⟩
    rw [hbloom]
    rfl
  · have hbloom : p.swap.blooms.get i = p.blooms.get i := get_set_ne _ hi _
    have hcount : p.swap.bloomCount.get i = p.bloomCount.get i := get_set_ne _ hi _
    rw [hbloom, hcount]
    exact h i

theorem PingPongBloom.Filled.put (h : p.Filled xs) (hroom : p.bloomCount.get p.current < p.itemCount) (x : Bytes) :
    (p.put x).Filled (xs ++ [x]) := by
  intro i
  obtain ⟨values, hsub, hbits, hlen, hle⟩ := h i
  by_cases hi : p.current = i
  · subst hi
    refine ⟨values ++ [x], hsub.append_right [x], ?_, ?_, ?_⟩
    · rw [blooms_put, List.foldl_append]
      exact congrArg (Bloom.set · x) hbits
    · rw [bloomCount_put, List.length_append, hlen, List.length_singleton]
    · rw [List.length_append, hlen]
      exact hroom
  · have hbloom : (p.put x).blooms.get i = p.blooms.get i := get_set_ne _ hi _
    have hcount : (p.put x).bloomCount.get i = p.bloomCount.get i := get_set_ne _ hi _
    rw [hbloom, hcount]
    exact ⟨values, hsub.trans (List.sublist_append_left _ _), hbits, hlen, hle⟩

/-- **What holds of the filters at any time**: a value is reported until `itemCount` others have been recorded behind
it, and each filter holds at most `itemCount` values. -/
structure PingPongBloom.Retains (itemCount : Nat) (p : PingPongBloom) (recorded : List Bytes) : Prop where
  reported : ∀ before x after, recorded = before ++ x :: after → after.length < itemCount →
    (p.checkAndSet x).1 = true
  filled : p.Filled recorded
  itemCount_eq : p.itemCount = itemCount

theorem PingPongBloom.record_step (h : p.Holds xs) (hfilled : p.Filled xs) :
    (p.record x).1.Holds (xs ++ (p.record x).2) ∧ (p.record x).1.Filled (xs ++ (p.record x).2) := by
  unfold record
  cases hc : (p.checkAndSet x).1 with
  | true =>
    rw [checkAndSet_found hc]
    simpa using ⟨h, hfilled⟩
  | false =>
    refine ⟨h.set hc, ?_⟩
    rw [checkAndSet_new hc]
    split
    · refine hfilled.swap.put ?_ x
      rw [show p.swap.bloomCount.get p.swap.current = 0 from get_set_self _ _ _]
      exact h.room
    · rename_i hroom
      exact hfilled.put (Nat.lt_of_not_le hroom) x

/-- **After any calls** a new pair of filters retains what was recorded: the last `n + 1` values are reported, and
neither filter is over its size. -/
theorem pingPong_retains (h₁ h₂ : Bytes → List Nat) (n : Nat) (calls : List Bytes) :
    let r := run PingPongBloom.record { PingPongBloom.new ty h₁ h₂ with itemCount := n + 1 } calls
    r.1.Retains (n + 1) r.2 := by
  intro r
  obtain ⟨hholds, hfilled, hcount⟩ : r.1.Holds r.2 ∧ r.1.Filled r.2 ∧ r.1.itemCount = n + 1 := by
    refine run_inv_always (I := fun (p : PingPongBloom) xs => p.Holds xs ∧ p.Filled xs ∧ p.itemCount = n + 1) ?_ ?_ calls
    · refine ⟨⟨Nat.succ_pos n, [], [], [], rfl, .inl rfl, rfl, nofun, nofun⟩, fun i => ⟨[], ?_⟩, rfl⟩
      match i with
      | 0 | 1 => exact ⟨List.nil_sublist _, rfl, rfl, zero_le⟩
    · rintro p xs x ⟨h, hfilled, hcount⟩
      obtain ⟨h', hfilled'⟩ := PingPongBloom.record_step h hfilled
      exact ⟨h', hfilled', (p.checkAndSet_itemCount x).trans hcount⟩
  refine ⟨fun before x after hlog hlt => hholds.found ?_, hfilled, hcount⟩
  rw [hlog, hcount, List.drop_append_of_le_length (by simp; omega)]
  exact List.mem_append_right _ List.mem_cons_self

/-! ## 2. The protector and the context -/

def serverStreamTimestampMaxDiff : UInt64 := 30

structure ReplayProtector where
  noncePpbloom : PingPongBloom
  nonceSet : LruCache Bytes Unit

def ReplayProtector.new : ReplayProtector where
  noncePpbloom := .new ty h₁ h₂
  nonceSet := .withExpiryDuration ((serverStreamTimestampMaxDiff * 2).toNat * nanos)

def ReplayProtector.checkNonceAndSet (r : ReplayProtector) (method : CipherCategory) (now : Nat)
    (nonce : Bytes) : Bool × ReplayProtector :=
  if nonce = [] then (false, r)
  else if method = .aead2022 then
    match r.nonceSet.get now nonce with
    | (some (), set) => (true, { r with nonceSet := set })
    | (none, set) => (false, { r with nonceSet := set.insert now nonce () })
  else
    match r.noncePpbloom.checkAndSet nonce with
    | (seen, ppbloom) => (seen, { r with noncePpbloom := ppbloom })

inductive ReplayAttackPolicy where
  | default
  | ignore
  | detect
  | reject
  deriving DecidableEq

structure Context where
  replayProtector : ReplayProtector
  replayPolicy : ReplayAttackPolicy

def Context.new : Context :=
  ⟨.new ty h₁ h₂, .default⟩

def Context.setReplayAttackPolicy (c : Context) (policy : ReplayAttackPolicy) : Context :=
  { c with replayPolicy := policy }

def Context.checkNonceReplay (c : Context) (method : CipherCategory) (now : Nat) (nonce : Bytes) :
    Option IoError × Context :=
  if nonce = [] then (none, c)
  else
    -- AEAD-2022 cannot be ignored
    match (if method = .aead2022 then .reject else c.replayPolicy : ReplayAttackPolicy) with
    | .default | .ignore => (none, c)
    | .detect =>
      (none, { c with replayProtector := (c.replayProtector.checkNonceAndSet method now nonce).2 })
    | .reject =>
      match c.replayProtector.checkNonceAndSet method now nonce with
      | (true, r) => (some (.other "detected repeated nonce (iv/salt)"), { c with replayProtector := r })
      | (false, r) => (none, { c with replayProtector := r })

def Context.Admits (c : Context) (method : CipherCategory) (now : Nat) (nonce : Bytes) : Prop :=
  (c.checkNonceReplay method now nonce).1 = none

instance (c : Context) (method : CipherCategory) (now : Nat) (nonce : Bytes) :
    Decidable (c.Admits method now nonce) :=
  inferInstanceAs (Decidable ((c.checkNonceReplay method now nonce).1 = none))

variable {nonce : Bytes} {c : Context}

theorem Context.checkNonceReplay_error {method : CipherCategory} {now : Nat} {e : IoError}
    (h : (c.checkNonceReplay method now nonce).1 = some e) :
    e = .other "detected repeated nonce (iv/salt)" := by
  unfold checkNonceReplay at h
  split at h
  · cases h
  split at h
  · cases h
  · cases h
  · cases h
  · split at h
    · exact (Option.some.inj h).symm
    · cases h

theorem Context.checkNonceReplay_policy (c : Context) (method : CipherCategory) (now : Nat) (nonce : Bytes) :
    (c.checkNonceReplay method now nonce).2.replayPolicy = c.replayPolicy := by
  unfold checkNonceReplay
  split
  · rfl
  split
  · rfl
  · rfl
  · rfl
  · split
    · rfl
    · rfl

def Context.records (c : Context) (now : Nat) (nonce : Bytes) : Bool :=
  nonce ≠ [] && (c.replayPolicy = .detect || c.replayPolicy = .reject) &&
    !(c.replayProtector.checkNonceAndSet .aead now nonce).1

theorem Context.records_ne {now : Nat} (h : c.records now nonce = true) : nonce ≠ [] := by
  unfold records at h
  rw [Bool.and_eq_true, Bool.and_eq_true] at h
  exact of_decide_eq_true h.1.1

theorem Context.checkNonceReplay_reject (hpolicy : c.replayPolicy = .reject) (now : Nat) (hne : nonce ≠ []) :
    (c.checkNonceReplay .aead now nonce).1.isNone = !(c.replayProtector.noncePpbloom.checkAndSet nonce).1 ∧
      c.records now nonce = !(c.replayProtector.noncePpbloom.checkAndSet nonce).1 ∧
      (c.checkNonceReplay .aead now nonce).2.replayProtector.noncePpbloom =
        (c.replayProtector.noncePpbloom.checkAndSet nonce).2 := by
  have hset : c.replayProtector.checkNonceAndSet .aead now nonce =
      ((c.replayProtector.noncePpbloom.checkAndSet nonce).1,
        { c.replayProtector with noncePpbloom := (c.replayProtector.noncePpbloom.checkAndSet nonce).2 }) := by
    rw [ReplayProtector.checkNonceAndSet, if_neg hne, if_neg (by decide)]
  refine ⟨?_, ?_, ?_⟩
  · unfold checkNonceReplay
    rw [if_neg hne, if_neg (by decide), hpolicy, hset]
    cases (c.replayProtector.noncePpbloom.checkAndSet nonce).1 with
    | true | false => rfl
  · unfold records
    rw [hset, hpolicy, decide_eq_true hne]
    rfl
  · unfold checkNonceReplay
    rw [if_neg hne, if_neg (by decide), hpolicy, hset]
    cases (c.replayProtector.noncePpbloom.checkAndSet nonce).1 with
    | true | false => rfl

theorem Context.checkNonceReplay_aead2022 (hcap : c.replayProtector.nonceSet.capacity = none) (now : Nat)
    (hne : nonce ≠ []) :
    ((c.checkNonceReplay .aead2022 now nonce).1.isNone = (c.replayProtector.nonceSet.lookup now nonce).isNone) ∧
      (c.checkNonceReplay .aead2022 now nonce).2.replayProtector.nonceSet =
        c.replayProtector.nonceSet.touch now nonce () := by
  rw [checkNonceReplay, ReplayProtector.checkNonceAndSet, LruCache.get, if_neg hne, if_neg hne, if_pos rfl, if_pos rfl]
  cases hl : c.replayProtector.nonceSet.lookup now nonce with
  | none =>
    refine ⟨rfl, ?_⟩
    show (c.replayProtector.nonceSet.sweep now).insert now nonce () = _
    rw [LruCache.insert_sweep, LruCache.insert_unbounded hcap]
  | some u => exact ⟨rfl, rfl⟩

end Shadowsocks
