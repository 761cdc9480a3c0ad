/-
  Subject:   GOING ROUND A LIST, as `Cycle` over a range does; the state is the number of elements passed in this
  round.
-/
import Mathlib.Data.List.Basic

namespace Lib.RoundRobin

variable {α : Type}

def next (xs : List α) (pos : Nat) : Option (α × Nat) :=
  match xs[pos]? with
  | some a => some (a, pos + 1)
  | none => xs[0]?.map fun a => (a, 1)

def place (xs : List α) (pos : Nat) : Nat := if pos < xs.length then pos else 0

def nth (xs : List α) (pos i : Nat) : Option α := xs[(place xs pos + i) % xs.length]?

variable {xs : List α}

theorem place_lt (h : xs ≠ []) (pos : Nat) : place xs pos < xs.length := by
  have := List.length_pos_iff.mpr h
  unfold place
  split <;> omega

theorem next_nil (pos : Nat) : next ([] : List α) pos = none := rfl

theorem next_eq (xs : List α) (pos : Nat) : next xs pos = xs[place xs pos]?.map fun a => (a, place xs pos + 1) := by
  unfold next place
  by_cases h : pos < xs.length
  · simp [h]
  · simp [h]

theorem place_succ {p : Nat} (h : p < xs.length) : place xs (p + 1) = (p + 1) % xs.length := by
  unfold place
  split <;> rename_i h'
  · rw [Nat.mod_eq_of_lt h']
  · rw [show p + 1 = xs.length by omega, Nat.mod_self]

theorem next_nth (h : xs ≠ []) (pos : Nat) : ∃ a pos', next xs pos = some (a, pos') ∧ nth xs pos 0 = some a ∧
      ∀ i, nth xs pos' i = nth xs pos (i + 1) := by
  have hp := place_lt h pos
  refine ⟨xs[place xs pos], place xs pos + 1, ?_, ?_, fun i => ?_⟩
  · rw [next_eq, List.getElem?_eq_getElem hp]
    rfl
  · rw [nth, Nat.add_zero, Nat.mod_eq_of_lt hp, List.getElem?_eq_getElem hp]
  · rw [nth, nth, place_succ hp, Nat.mod_add_mod, Nat.add_assoc, Nat.add_comm 1 i]

theorem nth_mem {pos i : Nat} {a : α} (h : nth xs pos i = some a) : a ∈ xs :=
  List.mem_of_getElem? h

theorem nth_covers {a : α} (ha : a ∈ xs) (pos n : Nat) : ∃ i, n ≤ i ∧ nth xs pos i = some a := by
  obtain ⟨j, hj, rfl⟩ := List.mem_iff_getElem.mp ha
  have hp := place_lt (List.ne_nil_of_mem ha) pos
  -- `n` rounds, on to the end of this one, and on to the element
  refine ⟨xs.length * n + (xs.length - place xs pos + j), ?_, ?_⟩
  · have := Nat.le_mul_of_pos_left n (Nat.lt_of_le_of_lt (Nat.zero_le j) hj)
    omega
  · have hround : place xs pos + (xs.length * n + (xs.length - place xs pos + j)) = j + xs.length * (n + 1) := by
      rw [Nat.mul_succ]
      omega
    rw [nth, hround, Nat.add_mul_mod_self_left, Nat.mod_eq_of_lt hj, List.getElem?_eq_getElem hj]

end Lib.RoundRobin
