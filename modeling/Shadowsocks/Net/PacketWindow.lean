/-
  Subject:   THE PACKET WINDOW of the UDP relays (`net/packet_window.rs` of the service): a ring of 128 blocks of 64
  bits, cleared lazily, which cannot be observed.
-/
import Mathlib.Data.List.MinMax
import Mathlib.Data.Nat.Bitwise

namespace Shadowsocks.PacketWindow

/-! ## 1. The filter as the source has it -/

def blockBitLog : UInt64 := 6

def blockBits : UInt64 := 1 <<< blockBitLog

def ringBlocks : UInt64 := (1 : UInt64) <<< 7

def windowSize : UInt64 := (ringBlocks - 1) * blockBits

def blockMask : UInt64 := ringBlocks - 1

def bitMask : UInt64 := blockBits - 1

variable (x : UInt64)

theorem block_toNat : (x >>> blockBitLog).toNat = x.toNat / 64 :=
  Nat.shiftRight_eq_div_pow _ _

theorem slot_toNat : (x &&& blockMask).toNat = x.toNat % 128 :=
  Nat.and_two_pow_sub_one_eq_mod x.toNat 7

theorem bit_toNat : (x &&& bitMask).toNat = x.toNat % 64 :=
  Nat.and_two_pow_sub_one_eq_mod x.toNat 6

theorem slot_lt : (x &&& blockMask).toNat < 128 := by
  rw [slot_toNat]
  exact Nat.mod_lt _ (by decide)

structure PacketWindowFilter where
  lastPacketId : UInt64
  packetRing : Vector UInt64 128

namespace PacketWindowFilter

def new : PacketWindowFilter := ⟨0, Vector.replicate 128 0⟩

variable (f : PacketWindowFilter)

def reset : PacketWindowFilter :=
  ⟨0, f.packetRing.set 0 0⟩

def clearBlocks (ring : Vector UInt64 128) (current : UInt64) : Nat → Vector UInt64 128
  | 0 => ring
  | d + 1 =>
    (clearBlocks ring current d).set ((current + UInt64.ofNat (d + 1)) &&& blockMask).toNat 0
      (slot_lt _)

def moveForward (packetId : UInt64) : PacketWindowFilter :=
  let current := f.lastPacketId >>> blockBitLog
  let diff := (packetId >>> blockBitLog) - current
  -- a jump of more than the ring clears the whole filter
  let diff := if diff > ringBlocks then ringBlocks else diff
  ⟨packetId, clearBlocks f.packetRing current diff.toNat⟩

def checkAndSet (packetId : UInt64) : Bool × PacketWindowFilter :=
  let indexBlock := (packetId >>> blockBitLog) &&& blockMask
  let indexBit := packetId &&& bitMask
  let old := f.packetRing.get ⟨indexBlock.toNat, slot_lt _⟩
  let new := old ||| (1 <<< indexBit)
  (old != new, { f with packetRing := f.packetRing.set indexBlock.toNat new (slot_lt _) })

def validatePacketId (packetId limit : UInt64) :
    Bool × PacketWindowFilter :=
  if packetId ≥ limit then (false, f)
  else if packetId > f.lastPacketId then (f.moveForward packetId).checkAndSet packetId
  -- behind the current window
  else if f.lastPacketId - packetId > windowSize then (false, f)
  else f.checkAndSet packetId

end PacketWindowFilter

open PacketWindowFilter

/-! ## 2. Reading the ring -/

section

variable (ring : Vector UInt64 128)

def bitOf (n : Nat) : Bool :=
  (ring.get ⟨n / 64 % 128, Nat.mod_lt _ (by decide)⟩).toNat.testBit (n % 64)

theorem bitOf_set {j : Nat} (hj : j < 128) (v : UInt64) (n : Nat) :
    bitOf (ring.set j v hj) n = if j = n / 64 % 128 then v.toNat.testBit (n % 64) else bitOf ring n := by
  have hn : n / 64 % 128 < 128 := Nat.mod_lt _ (by decide)
  show ((ring.set j v hj)[n / 64 % 128]).toNat.testBit (n % 64) = _
  rw [Vector.getElem_set hj hn]
  split <;> rfl

theorem bitOf_empty (n : Nat) : bitOf (Vector.replicate 128 0) n = false := by
  show ((Vector.replicate 128 (0 : UInt64))[n / 64 % 128]).toNat.testBit (n % 64) = false
  rw [Vector.getElem_replicate]
  exact Nat.zero_testBit _

theorem clearSlot (current : UInt64) (d : Nat) :
    ((current + UInt64.ofNat d) &&& blockMask).toNat = (current.toNat + d) % 128 := by
  rw [slot_toNat, UInt64.toNat_add, UInt64.toNat_ofNat']
  omega

theorem bitOf_cleared (current : UInt64) {d e n : Nat} (h1 : 1 ≤ e) (h2 : e ≤ d)
    (hn : (current.toNat + e) % 128 = n / 64 % 128) : bitOf (clearBlocks ring current d) n = false := by
  induction d with
  | zero => omega
  | succ d ih =>
    rw [clearBlocks, bitOf_set, clearSlot]
    split
    · exact Nat.zero_testBit _
    · exact ih (by omega)

theorem bitOf_kept (current : UInt64) {d n : Nat}
    (hn : ∀ e, 1 ≤ e → e ≤ d → (current.toNat + e) % 128 ≠ n / 64 % 128) :
    bitOf (clearBlocks ring current d) n = bitOf ring n := by
  induction d with
  | zero => rfl
  | succ d ih =>
    rw [clearBlocks, bitOf_set, clearSlot, if_neg (hn (d + 1) (by omega) (by omega))]
    exact ih fun e h1 h2 => hn e h1 (by omega)

theorem testBit_oneShift (m : Nat) :
    ((1 : UInt64) <<< (x &&& bitMask)).toNat.testBit m = decide (m = x.toNat % 64) := by
  have hlt : 2 ^ (x.toNat % 64) < 2 ^ 64 :=
    Nat.pow_lt_pow_right (by decide) (Nat.mod_lt _ (by decide))
  rw [UInt64.toNat_shiftLeft, bit_toNat, Nat.mod_mod]
  show (1 <<< (x.toNat % 64) % 2 ^ 64).testBit m = _
  rw [Nat.one_shiftLeft, Nat.mod_eq_of_lt hlt, Nat.testBit_two_pow]
  exact decide_eq_decide.mpr eq_comm

theorem or_ne_iff (w x : UInt64) :
    (w != w ||| ((1 : UInt64) <<< (x &&& bitMask))) = !w.toNat.testBit (x.toNat % 64) := by
  have hbit : ∀ m, (w ||| ((1 : UInt64) <<< (x &&& bitMask))).toNat.testBit m =
      (w.toNat.testBit m || decide (m = x.toNat % 64)) := fun m => by
    rw [UInt64.toNat_or, Nat.testBit_or, testBit_oneShift]
  cases hw : w.toNat.testBit (x.toNat % 64) with
  | false =>
    refine bne_iff_ne.mpr fun h => ?_
    have := hbit (x.toNat % 64)
    rw [← h, hw] at this
    simp at this
  | true =>
    have h : w = w ||| ((1 : UInt64) <<< (x &&& bitMask)) := by
      refine UInt64.toNat_inj.mp (Nat.eq_of_testBit_eq fun m => ?_)
      rw [hbit]
      by_cases hm : m = x.toNat % 64
      · simp [hm, hw]
      · simp [hm]
    rw [← h]
    simp

theorem checkAndSet_spec (f : PacketWindowFilter) (packetId : UInt64) :
    (f.checkAndSet packetId).1 = !bitOf f.packetRing packetId.toNat ∧
    (f.checkAndSet packetId).2.lastPacketId = f.lastPacketId ∧
    ∀ n, bitOf (f.checkAndSet packetId).2.packetRing n = (bitOf f.packetRing n ||
        decide (n / 64 % 128 = packetId.toNat / 64 % 128 ∧ n % 64 = packetId.toNat % 64)) := by
  have hslot : ((packetId >>> blockBitLog) &&& blockMask).toNat = packetId.toNat / 64 % 128 := by
    rw [slot_toNat, block_toNat]
  have hold : f.packetRing.get ⟨((packetId >>> blockBitLog) &&& blockMask).toNat, slot_lt _⟩ =
      f.packetRing.get ⟨packetId.toNat / 64 % 128, Nat.mod_lt _ (by decide)⟩ := by
    congr 1
    exact Fin.ext hslot
  refine ⟨?_, rfl, fun n => ?_⟩
  · show (_ != _ ||| ((1 : UInt64) <<< (packetId &&& bitMask))) = _
    rw [or_ne_iff, hold]
    rfl
  show bitOf (f.packetRing.set _ _ (slot_lt _)) n = _
  rw [bitOf_set, hold, hslot]
  by_cases hb : packetId.toNat / 64 % 128 = n / 64 % 128
  · rw [if_pos hb, UInt64.toNat_or, Nat.testBit_or, testBit_oneShift]
    simp only [hb, true_and, bitOf]
  · rw [if_neg hb]
    simp [Ne.symm hb]

end

variable {f : PacketWindowFilter}

theorem checkAndSet_unchanged {packetId : UInt64} (h : (f.checkAndSet packetId).1 = false) :
    (f.checkAndSet packetId).2 = f := by
  have heq : f.packetRing.get ⟨((packetId >>> blockBitLog) &&& blockMask).toNat, slot_lt _⟩ =
      f.packetRing.get ⟨((packetId >>> blockBitLog) &&& blockMask).toNat, slot_lt _⟩ |||
        ((1 : UInt64) <<< (packetId &&& bitMask)) := bne_eq_false_iff_eq.mp h
  unfold checkAndSet
  simp only [← heq]
  exact congrArg (PacketWindowFilter.mk f.lastPacketId) (Vector.set_getElem_self (slot_lt _))

theorem moveForward_spec (f : PacketWindowFilter) (packetId : UInt64)
    (hid : f.lastPacketId < packetId) (n : Nat) (hle : n / 64 ≤ packetId.toNat / 64)
    (hge : packetId.toNat / 64 ≤ n / 64 + 127) : bitOf (f.moveForward packetId).packetRing n =
      if n / 64 ≤ f.lastPacketId.toNat / 64 then bitOf f.packetRing n else false := by
  have hcur : (f.lastPacketId >>> blockBitLog).toNat = f.lastPacketId.toNat / 64 := block_toNat _
  have hlt : f.lastPacketId.toNat < packetId.toNat := UInt64.lt_iff_toNat_lt.mp hid
  have hsub : ((packetId >>> blockBitLog) - (f.lastPacketId >>> blockBitLog)).toNat =
      packetId.toNat / 64 - f.lastPacketId.toNat / 64 := by
    rw [UInt64.toNat_sub_of_le _ _ (UInt64.le_iff_toNat_le.mpr (by simp only [block_toNat]; omega)),
      block_toNat, block_toNat]
  -- the number of blocks the loop clears: the distance, but at most the whole ring
  obtain ⟨d, hd, hring⟩ : ∃ d, (d = packetId.toNat / 64 - f.lastPacketId.toNat / 64 ∨
      d = 128 ∧ 128 ≤ packetId.toNat / 64 - f.lastPacketId.toNat / 64) ∧
      (f.moveForward packetId).packetRing = clearBlocks f.packetRing (f.lastPacketId >>> blockBitLog) d := by
    refine ⟨_, ?_, rfl⟩
    split
    · rename_i hbig
      have := UInt64.lt_iff_toNat_lt.mp hbig
      rw [hsub] at this
      exact .inr ⟨rfl, le_of_lt this⟩
    · exact .inl hsub
  rw [hring]
  split
  · refine bitOf_kept _ _ fun e h1 h2 => ?_
    omega
  by_cases hall : d = 128
  · -- the whole ring is cleared, whichever block `n` lies in
    obtain ⟨e, he1, he2, he⟩ : ∃ e, 1 ≤ e ∧ e ≤ 128 ∧ (f.lastPacketId.toNat / 64 + e) % 128 = n / 64 % 128 :=
      ⟨(n / 64 + 127 - f.lastPacketId.toNat / 64) % 128 + 1, by omega, by omega, by omega⟩
    exact bitOf_cleared _ _ he1 (by omega) (by rw [hcur]; exact he)
  · refine bitOf_cleared (e := n / 64 - f.lastPacketId.toNat / 64) _ _ (by omega) (by omega) ?_
    congr 1
    omega

/-! ## 3. The invariant -/

structure RingInv (f : PacketWindowFilter) (acc : List UInt64) : Prop where
  bounded : ∀ m ∈ acc, m ≤ f.lastPacketId
  bits : ∀ id : UInt64, id.toNat / 64 ≤ f.lastPacketId.toNat / 64 → f.lastPacketId.toNat / 64 ≤ id.toNat / 64 + 127 →
    (bitOf f.packetRing id.toNat = true ↔ id ∈ acc)

/-- **The window invariant.** `acc` are the ids accepted since the last reset; the last id is their
largest, or 0. -/
structure WindowInv (f : PacketWindowFilter) (acc : List UInt64) : Prop extends RingInv f acc where
  lastMem : acc ≠ [] → f.lastPacketId ∈ acc
  lastZero : acc = [] → f.lastPacketId = 0

def Acceptable (acc : List UInt64) (id limit : UInt64) : Prop :=
  id < limit ∧ id ∉ acc ∧ ∀ m, (acc.map UInt64.toNat).max? = some m → m ≤ id.toNat + windowSize.toNat

def remember (acc : List UInt64) (id : UInt64) (ok : Bool) : List UInt64 :=
  if ok then id :: acc else acc

theorem windowInv_new : WindowInv PacketWindowFilter.new [] where
  bounded := by simp
  lastMem h := absurd rfl h
  lastZero _ := rfl
  bits id _ _ := by
    show bitOf (Vector.replicate 128 0) id.toNat = true ↔ _
    simp [bitOf_empty]

theorem reset_step (f : PacketWindowFilter) : WindowInv f.reset [] where
  bounded := by simp
  lastMem h := absurd rfl h
  lastZero _ := rfl
  bits id hle _ := by
    have h0 : id.toNat / 64 = 0 := by
      have : (0 : UInt64).toNat / 64 = 0 := rfl
      have hle : id.toNat / 64 ≤ (0 : UInt64).toNat / 64 := hle
      omega
    show bitOf (f.packetRing.set 0 0) id.toNat = true ↔ _
    rw [bitOf_set, h0]
    simp

open List

variable {acc : List UInt64}

theorem largest_of_inv (h : WindowInv f acc) (id : UInt64) :
    (∀ m, (acc.map UInt64.toNat).max? = some m → m ≤ id.toNat + windowSize.toNat) ↔
      f.lastPacketId.toNat ≤ id.toNat + windowSize.toNat := by
  constructor
  · intro hm
    by_cases hacc : acc = []
    · rw [h.lastZero hacc]
      exact Nat.zero_le _
    · refine hm _ (max?_eq_some_iff.mpr ⟨mem_map_of_mem (h.lastMem hacc), fun b hb => ?_⟩)
      obtain ⟨m, hmem, rfl⟩ := mem_map.mp hb
      exact UInt64.le_iff_toNat_le.mp (h.bounded m hmem)
  intro hlast m hm
  obtain ⟨hmem, -⟩ := max?_eq_some_iff.mp hm
  obtain ⟨a, ha, rfl⟩ := mem_map.mp hmem
  have := UInt64.le_iff_toNat_le.mp (h.bounded a ha)
  omega

variable {id : UInt64}

theorem checkAndSet_step (h : RingInv f acc) (hle : id ≤ f.lastPacketId)
    (hge : f.lastPacketId.toNat / 64 ≤ id.toNat / 64 + 127) :
    ((f.checkAndSet id).1 = true ↔ id ∉ acc) ∧ RingInv (f.checkAndSet id).2 (id :: acc) := by
  obtain ⟨hans, hlast, hbit⟩ := checkAndSet_spec f id
  have hle' : id.toNat / 64 ≤ f.lastPacketId.toNat / 64 :=
    Nat.div_le_div_right (UInt64.le_iff_toNat_le.mp hle)
  have hid := h.bits id hle' hge
  refine ⟨?_, ⟨fun m hm => ?_, fun n hn1 hn2 => ?_⟩⟩
  · rw [hans, ← hid]
    simp
  · rcases mem_cons.mp hm with rfl | hm
    · exact hle
    · exact h.bounded m hm
  rw [hlast] at hn1 hn2
  rw [hbit, Bool.or_eq_true, decide_eq_true_eq, h.bits n hn1 hn2, mem_cons]
  -- within 128 blocks, the slot and the bit determine the id
  have hsame : (n.toNat / 64 % 128 = id.toNat / 64 % 128 ∧ n.toNat % 64 = id.toNat % 64) ↔ n = id := by
    rw [← UInt64.toNat_inj]
    omega
  rw [hsame]
  exact or_comm

theorem ringInv_of_mem (h : RingInv f (id :: acc)) (hid : id ∈ acc) : RingInv f acc where
  bounded m hm := h.bounded m (mem_cons_of_mem _ hm)
  bits n hn1 hn2 := by
    rw [h.bits n hn1 hn2, mem_cons]
    exact ⟨fun hn => hn.elim (fun e => e ▸ hid) fun hn => hn, .inr⟩

theorem ringInv_moveForward (h : RingInv f acc) (hid : f.lastPacketId < id) : RingInv (f.moveForward id) acc where
  bounded m hm := UInt64.le_of_lt (UInt64.lt_of_le_of_lt (h.bounded m hm) hid)
  bits n hn1 hn2 := by
    have hn2 : id.toNat / 64 ≤ n.toNat / 64 + 127 := hn2
    have hlt := UInt64.lt_iff_toNat_lt.mp hid
    rw [moveForward_spec f id hid n.toNat hn1 hn2]
    split
    · rename_i hold
      exact h.bits n hold (by omega)
    · -- a block past the old last one holds no accepted id
      refine ⟨fun hf => Bool.noConfusion hf, fun hn => ?_⟩
      have := UInt64.le_iff_toNat_le.mp (h.bounded n hn)
      omega

theorem validatePacketId_step (h : WindowInv f acc) (id limit : UInt64) :
    ((f.validatePacketId id limit).1 = true ↔ Acceptable acc id limit) ∧
      WindowInv (f.validatePacketId id limit).2 (remember acc id (f.validatePacketId id limit).1) := by
  rw [validatePacketId, Acceptable, largest_of_inv h]
  by_cases hlim : id ≥ limit
  · rw [if_pos hlim]
    have : ¬ id < limit := UInt64.not_lt.mpr hlim
    exact ⟨by simp [this], h⟩
  rw [if_neg hlim]
  have hlim : id < limit := UInt64.not_le.mp hlim
  by_cases hfwd : id > f.lastPacketId
  · -- a forward move is always accepted: the id is above every accepted one
    rw [if_pos hfwd]
    have hnew : id ∉ acc := fun hm =>
      UInt64.not_le.mpr hfwd (h.bounded id hm)
    have hlt := UInt64.lt_iff_toNat_lt.mp hfwd
    obtain ⟨hans, hring⟩ := checkAndSet_step (ringInv_moveForward h.toRingInv hfwd)
      (UInt64.le_refl id) (Nat.le_add_right _ _)
    have htrue := hans.mpr hnew
    refine ⟨by simp only [htrue, hlim, hnew, true_and, not_false_eq_true, true_iff]; omega, ?_⟩
    rw [htrue]
    exact ⟨hring, fun _ => mem_cons_self, fun e => by cases e⟩
  rw [if_neg hfwd]
  have hle : id ≤ f.lastPacketId := UInt64.not_lt.mp hfwd
  have hle' := UInt64.le_iff_toNat_le.mp hle
  have hsub : (f.lastPacketId - id).toNat = f.lastPacketId.toNat - id.toNat :=
    UInt64.toNat_sub_of_le _ _ hle
  by_cases hbehind : f.lastPacketId - id > windowSize
  · rw [if_pos hbehind]
    have := UInt64.lt_iff_toNat_lt.mp hbehind
    exact ⟨⟨fun hf => Bool.noConfusion hf, fun ⟨_, _, hw⟩ => by omega⟩, h⟩
  rw [if_neg hbehind]
  have hin : f.lastPacketId.toNat - id.toNat ≤ windowSize.toNat := by
    have := UInt64.le_iff_toNat_le.mp (UInt64.not_lt.mp hbehind)
    rwa [hsub] at this
  have hw : windowSize.toNat = 8128 := rfl
  obtain ⟨hans, hring⟩ := checkAndSet_step h.toRingInv hle (by omega)
  refine ⟨hans.trans ⟨fun hn => ⟨hlim, hn, by omega⟩, fun hn => hn.2.1⟩, ?_⟩
  have hlast : (f.checkAndSet id).2.lastPacketId = f.lastPacketId := rfl
  by_cases hmem : id ∈ acc
  · have hfalse : (f.checkAndSet id).1 = false := by
      simpa [hmem] using hans
    rw [hfalse]
    exact ⟨ringInv_of_mem hring hmem, h.lastMem, h.lastZero⟩
  rw [hans.mpr hmem]
  refine ⟨hring, fun _ => ?_, fun e => by cases e⟩
  rw [hlast]
  by_cases hacc : acc = []
  · have hz := h.lastZero hacc
    have : f.lastPacketId = id := by
      rw [hz] at hle' ⊢
      exact UInt64.toNat_inj.mp (Nat.le_antisymm (Nat.zero_le _) hle')
    rw [this]
    exact mem_cons_self
  · exact mem_cons_of_mem _ (h.lastMem hacc)

theorem validatePacketId_refused (h : WindowInv f acc) {limit : UInt64}
    (href : (f.validatePacketId id limit).1 = false) : (f.validatePacketId id limit).2 = f := by
  unfold validatePacketId at href ⊢
  split
  · rfl
  rename_i hlim
  rw [if_neg hlim] at href
  split <;> rename_i hfwd
  · rw [if_pos hfwd] at href
    have hnew : id ∉ acc := fun hm => UInt64.not_le.mpr hfwd (h.bounded id hm)
    rw [(checkAndSet_step (ringInv_moveForward h.toRingInv hfwd) (UInt64.le_refl id)
      (Nat.le_add_right _ _)).1.mpr hnew] at href
    cases href
  rw [if_neg hfwd] at href
  split
  · rfl
  · rename_i hbehind
    rw [if_neg hbehind] at href
    -- the bit was set already, so the block is written back unchanged
    exact checkAndSet_unchanged href

/-! ## 4. Every run -/

inductive Call where
  | validate (packetId limit : UInt64)
  | reset

def call : PacketWindowFilter × List UInt64 → Call → PacketWindowFilter × List UInt64
  | (f, acc), .validate id limit =>
    let (ok, f') := f.validatePacketId id limit
    (f', remember acc id ok)
  | (f, _), .reset => (f.reset, [])

def run (calls : List Call) : PacketWindowFilter × List UInt64 :=
  calls.foldl call (PacketWindowFilter.new, [])

theorem remember_nodup {limit : UInt64} {ok : Bool} (h : acc.Nodup) (hok : ok = true ↔ Acceptable acc id limit) :
    (remember acc id ok).Nodup := by
  unfold remember
  split
  · rename_i ht
    exact nodup_cons.mpr ⟨(hok.mp ht).2.1, h⟩
  · exact h

theorem call_step {s : PacketWindowFilter × List UInt64} (h : WindowInv s.1 s.2 ∧ s.2.Nodup)
    (c : Call) : WindowInv (call s c).1 (call s c).2 ∧ (call s c).2.Nodup := by
  cases c with
  | validate id limit =>
    obtain ⟨hans, hinv⟩ := validatePacketId_step h.1 id limit
    exact ⟨hinv, remember_nodup h.2 hans⟩
  | reset => exact ⟨reset_step s.1, nodup_nil⟩

theorem run_inv (calls : List Call) : WindowInv (run calls).1 (run calls).2 ∧ (run calls).2.Nodup := by
  suffices h : ∀ s : PacketWindowFilter × List UInt64, WindowInv s.1 s.2 ∧ s.2.Nodup →
      WindowInv (calls.foldl call s).1 (calls.foldl call s).2 ∧ (calls.foldl call s).2.Nodup from
    h _ ⟨windowInv_new, nodup_nil⟩
  induction calls with
  | nil => exact fun _ h => h
  | cons c calls ih => exact fun s h => ih _ (call_step h c)

/-- **The window is exact**: a call answers `true` exactly when the id is below the limit, new since the last reset
and within the window; no id twice. -/
theorem validatePacketId_exact (calls : List Call) (id limit : UInt64) :
    (((run calls).1.validatePacketId id limit).1 = true ↔ Acceptable (run calls).2 id limit) ∧ (run calls).2.Nodup :=
  ⟨(validatePacketId_step (run_inv calls).1 id limit).1, (run_inv calls).2⟩

end Shadowsocks.PacketWindow
