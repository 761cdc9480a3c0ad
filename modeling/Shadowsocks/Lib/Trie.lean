/-
  Subject:   TREES OF WORDS. A word that is inserted stands for itself and for everything that continues it, so that
  whatever lies below an inserted word can be dropped.
-/
import Mathlib.Data.List.Basic
import Mathlib.Data.List.Infix

namespace Lib

open List

variable {κ : Type}

inductive Trie (κ : Type) where
  | node (included : Bool) (children : List (κ × Trie κ))

namespace Trie

abbrev Children (κ : Type) := List (κ × Trie κ)

variable [DecidableEq κ]

def included (m : Children κ) (k : κ) : Bool :=
  match m.lookup k with
  | some (.node included _) => included
  | none => false

def childrenAt (m : Children κ) (k : κ) : Children κ :=
  match m.lookup k with
  | some (.node _ children) => children
  | none => []

def insert : List κ → Children κ → Children κ
  | [], m => m
  | k :: rest, m =>
    if included m k then m
    else if rest = [] then (k, .node true []) :: m
    else (k, .node false (insert rest (childrenAt m k))) :: m

def contains : List κ → Children κ → Bool
  | [], _ => false
  | k :: rest, m =>
    match m.lookup k with
    | none => false
    | some (.node included children) => included || contains rest children

theorem contains_empty (w : List κ) : contains w [] = false := by
  cases w with
  | nil | cons k rest => rfl

theorem contains_step (k : κ) (rest : List κ) (m : Children κ) :
    contains (k :: rest) m = (included m k || contains rest (childrenAt m k)) := by
  rw [included, childrenAt, contains]
  cases m.lookup k with
  | none => rw [contains_empty, Bool.or_false]
  | some n => cases n with | node b children => rfl

theorem contains_replaced (k j : κ) (b : Bool) (children m : Children κ) (rest : List κ) :
    contains (j :: rest) ((k, .node b children) :: m) =
      if j = k then b || contains rest children else contains (j :: rest) m := by
  by_cases h : j = k
  · subst h
    simp [contains]
  · have hne : (j == k) = false := beq_eq_false_iff_ne.mpr h
    simp [contains, lookup_cons, hne, h]

theorem contains_insert (v w : List κ) (m : Children κ) :
    contains w (insert v m) = true ↔ contains w m = true ∨ v ≠ [] ∧ v <+: w := by
  -- along the word that is inserted; the other word either leaves it at the first key or goes along
  induction v generalizing w m with
  | nil => simp [insert]
  | cons k rest ih =>
    cases w with
    | nil => simp [contains]
    | cons j word =>
      rw [insert, cons_prefix_cons]
      by_cases hincluded : included m k = true
      · rw [if_pos hincluded]
        refine ⟨.inl, ?_⟩
        rintro (h | ⟨-, rfl, -⟩)
        · exact h
        · rw [contains_step, hincluded, Bool.true_or]
      rw [if_neg hincluded]
      by_cases hlast : rest = []
      · rw [if_pos hlast, contains_replaced]
        by_cases hkey : j = k
        · simp [hkey, hlast]
        · rw [if_neg hkey]
          simp [Ne.symm hkey]
      rw [if_neg hlast, contains_replaced]
      by_cases hkey : j = k
      · subst hkey
        rw [if_pos rfl, Bool.false_or, ih, contains_step, Bool.eq_false_iff.mpr hincluded]
        simp [hlast]
      · rw [if_neg hkey]
        simp [Ne.symm hkey]

end Trie

/-! ## Lists in parts -/

variable {α : Type}

theorem intercalate_append (x : α) {ps qs : List (List α)} (hps : ps ≠ []) (hqs : qs ≠ []) :
    [x].intercalate (ps ++ qs) = [x].intercalate ps ++ x :: [x].intercalate qs := by
  induction ps with
  | nil => exact absurd rfl hps
  | cons p ps ih =>
    cases ps with
    | nil =>
      cases qs with
      | nil => exact absurd rfl hqs
      | cons q qs => simp [intercalate]
    | cons p' ps =>
      have := ih (cons_ne_nil p' ps)
      simp only [cons_append, intercalate_cons_cons] at this ⊢
      rw [this]
      simp

theorem splitOn_suffix_iff [DecidableEq α] (x : α) (name host : List α) :
    name.splitOn x <:+ host.splitOn x ↔ host = name ∨ ∃ p, host = p ++ x :: name := by
  constructor
  · rintro ⟨ps, hparts⟩
    have hhost : [x].intercalate (ps ++ name.splitOn x) = host := by rw [hparts, intercalate_splitOn]
    by_cases hps : ps = []
    · left
      rw [← hhost, hps, nil_append, intercalate_splitOn]
    · right
      refine ⟨[x].intercalate ps, ?_⟩
      rw [← hhost, intercalate_append x hps (splitOn_ne_nil x name), intercalate_splitOn]
  · rintro (rfl | ⟨p, rfl⟩)
    · exact suffix_refl _
    · exact ⟨p.splitOn x, (splitOnP_append_cons p name (p := (· == x)) (beq_self_eq_true x)).symm⟩

theorem splitOn_map {α β : Type} [DecidableEq α] [DecidableEq β] (f : α → β) (x : α) (y : β)
    (hf : ∀ a, f a = y ↔ a = x) (xs : List α) : (xs.map f).splitOn y = (xs.splitOn x).map (map f) := by
  have hhead : ∀ (a : α) (ls : List (List α)),
      (ls.modifyHead (a :: ·)).map (map f) = (ls.map (map f)).modifyHead (f a :: ·) := by
    intro a ls
    cases ls <;> rfl
  induction xs with
  | nil => rfl
  | cons a xs ih =>
    simp only [splitOn_eq_splitOnP] at ih ⊢
    rw [map_cons, splitOnP_cons_eq_if_modifyHead, splitOnP_cons_eq_if_modifyHead, ih]
    by_cases h : a = x
    · simp [h, (hf x).mpr rfl]
    · have hne : f a ≠ y := fun heq => h ((hf a).mp heq)
      rw [if_neg (by simpa using hne), if_neg (by simpa using h), hhead]

end Lib
