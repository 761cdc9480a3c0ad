/-
  Subject:   PARTIES THAT SHARE A CONTEXT. Each has a state of its own; a turn lets one of them act on its state and
  on the context, or lets a new one join.
-/
import Shadowsocks.Lib.Machine

namespace Lib

variable {C L J E ρ : Type}

structure Shared (C L : Type) where
  context : C
  parties : List L

inductive Turn (J E : Type) where
  | join (j : J)
  | act (i : Nat) (e : E)

structure Transition (C L E ρ : Type) where
  party : Nat
  input : E
  before : L × C
  result : ρ
  after : L × C

def turn (enter : J → L) (act : E → L × C → ρ × L × C) (s : Shared C L) :
    Turn J E → Shared C L × List (Transition C L E ρ)
  | .join j => ({ s with parties := s.parties ++ [enter j] }, [])
  | .act i e =>
    match s.parties[i]? with
    | none => (s, [])
    | some l =>
      let (r, l', c) := act e (l, s.context)
      (⟨c, s.parties.set i l'⟩, [⟨i, e, (l, s.context), r, (l', c)⟩])

variable {enter : J → L} {act : E → L × C → ρ × L × C}

inductive Turned (enter : J → L) (act : E → L × C → ρ × L × C) (s : Shared C L) :
    Turn J E → Shared C L × List (Transition C L E ρ) → Prop where
  | joined (j : J) : Turned enter act s (.join j) ({ s with parties := s.parties ++ [enter j] }, [])
  | nobody (i : Nat) (e : E) (h : s.parties[i]? = none) : Turned enter act s (.act i e) (s, [])
  | acted (i : Nat) (e : E) (l : L) (h : s.parties[i]? = some l) :
      Turned enter act s (.act i e)
        (⟨(act e (l, s.context)).2.2, s.parties.set i (act e (l, s.context)).2.1⟩,
          [⟨i, e, (l, s.context), (act e (l, s.context)).1, (act e (l, s.context)).2⟩])

theorem turn_turned (enter : J → L) (act : E → L × C → ρ × L × C) (s : Shared C L) (t : Turn J E) :
    Turned enter act s t (turn enter act s t) := by
  cases t with
  | join j => exact .joined j
  | act i e =>
    simp only [turn]
    cases h : s.parties[i]? with
    | none => exact .nobody i e h
    | some l => exact .acted i e l h

end Lib
