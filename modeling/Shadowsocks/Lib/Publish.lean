/-
  Subject:   A SHARED VALUE THAT IS READ, REWORKED AND REPLACED, without another look at it. Versions count the
  replacements.
-/
import Shadowsocks.Lib.Machine

namespace Lib

variable {ρ α : Type}

structure Versioned (α : Type) where
  value : α
  version : Nat

structure Attempt (ρ α : Type) where
  request : ρ
  read : Versioned α

structure Cell (ρ α : Type) where
  current : Versioned α
  attempts : List (Option (Attempt ρ α))

def Cell.new (value : α) : Cell ρ α := ⟨⟨value, 0⟩, []⟩

inductive CellEvent (ρ : Type) where
  | start (r : ρ)
  | fail (i : Nat)
  | publish (i : Nat)

def Cell.attempt (c : Cell ρ α) (i : Nat) : Option (Attempt ρ α) := c.attempts[i]?.join

variable (update : ρ → α → α)

def Cell.step (c : Cell ρ α) : CellEvent ρ → Cell ρ α × List ρ
  | .start r => ({ c with attempts := c.attempts ++ [some ⟨r, c.current⟩] }, [])
  | .fail i => ({ c with attempts := c.attempts.set i none }, [])
  | .publish i =>
    match c.attempt i with
    | some a =>
      (⟨⟨update a.request a.read.value, c.current.version + 1⟩, c.attempts.set i none⟩, [a.request])
    | none => (c, [])

variable {c : Cell ρ α} {a : Attempt ρ α}

theorem Cell.step_publish {i : Nat} (h : c.attempt i = some a) : c.step update (.publish i) =
      (⟨⟨update a.request a.read.value, c.current.version + 1⟩, c.attempts.set i none⟩, [a.request]) := by
  rw [step, h]

theorem Cell.step_publish_none {i : Nat} (h : c.attempt i = none) : c.step update (.publish i) = (c, []) := by
  rw [step, h]

def Cell.Fresh (c : Cell ρ α) (i : Nat) : Prop := ∀ a, c.attempt i = some a → a.read.version = c.current.version

instance (c : Cell ρ α) (i : Nat) : Decidable (c.Fresh i) :=
  match h : c.attempt i with
  | none => isTrue fun a ha => by rw [h] at ha; cases ha
  | some a =>
    if hv : a.read.version = c.current.version then isTrue fun b hb => by rw [h] at hb; cases hb; exact hv
    else isFalse fun hf => hv (hf a h)

def applied (init : α) (log : List ρ) : α := log.foldl (fun v r => update r v) init

theorem applied_concat (init : α) (log : List ρ) (r : ρ) :
    applied update init (log ++ [r]) = update r (applied update init log) := by
  rw [applied, List.foldl_append]
  rfl

structure Cell.Inv (init : α) (c : Cell ρ α) (log : List ρ) : Prop where
  value : c.current.value = applied update init log
  old : ∀ i a, c.attempt i = some a → a.read.version ≤ c.current.version
  known : ∀ i a, c.attempt i = some a → a.read.version = c.current.version → a.read.value = c.current.value

theorem Cell.attempt_set {i j : Nat} {v : Versioned α} (h : attempt ⟨v, c.attempts.set i none⟩ j = some a) :
    c.attempt j = some a := by
  unfold attempt at h ⊢
  by_cases hij : i = j
  · subst hij
    by_cases hlt : i < c.attempts.length
    · rw [List.getElem?_set_self hlt] at h
      cases h
    · rwa [List.set_eq_of_length_le (Nat.not_lt.mp hlt)] at h
  · rwa [List.getElem?_set_ne hij] at h

theorem Cell.attempt_append {r : ρ} {j : Nat}
    (h : attempt ⟨c.current, c.attempts ++ [some ⟨r, c.current⟩]⟩ j = some a) :
    c.attempt j = some a ∨ a = ⟨r, c.current⟩ := by
  unfold attempt at h ⊢
  rcases Nat.lt_trichotomy j c.attempts.length with hlt | rfl | hgt
  · rw [List.getElem?_append_left hlt] at h
    exact .inl h
  · rw [List.getElem?_append_right (Nat.le_refl _), Nat.sub_self] at h
    cases h
    exact .inr rfl
  · rw [List.getElem?_eq_none (by rw [List.length_append, List.length_singleton]; omega)] at h
    cases h

theorem Cell.inv_new (init : α) : Cell.Inv update init (.new init : Cell ρ α) [] :=
  ⟨rfl, nofun, nofun⟩

theorem Cell.Inv.step {init : α} {log : List ρ} (h : Cell.Inv update init c log) {e : CellEvent ρ}
    (hfresh : ∀ i, e = .publish i → c.Fresh i) :
    Cell.Inv update init (c.step update e).1 (log ++ (c.step update e).2) := by
  cases e with
  | start r =>
    rw [Cell.step, List.append_nil]
    refine ⟨h.value, fun i a ha => ?_, fun i a ha hv => ?_⟩
    · rcases Cell.attempt_append ha with ha | rfl
      · exact h.old i a ha
      · exact Nat.le_refl _
    · rcases Cell.attempt_append ha with ha | rfl
      · exact h.known i a ha hv
      · rfl
  | fail i =>
    rw [Cell.step, List.append_nil]
    exact ⟨h.value, fun j a ha => h.old j a (Cell.attempt_set ha), fun j a ha => h.known j a (Cell.attempt_set ha)⟩
  | publish i =>
    cases ha : c.attempt i with
    | none => rwa [Cell.step_publish_none update ha, List.append_nil]
    | some a =>
      rw [Cell.step_publish update ha]
      refine ⟨?_, fun j b hb => ?_, fun j b hb hv => ?_⟩
      · rw [applied_concat, ← h.value, ← h.known i a ha (hfresh i rfl a ha)]
      · exact Nat.le_succ_of_le (h.old j b (Cell.attempt_set hb))
      · -- whoever is left read an older version
        have hold := h.old j b (Cell.attempt_set hb)
        exact absurd hv (by dsimp only; omega)

end Lib
