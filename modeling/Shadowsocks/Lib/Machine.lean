/-
  Subject:   MACHINES WITH A LOG, and the rules that lift what every admissible step keeps to every admissible run.
-/
import Mathlib.Data.List.Induction

namespace Lib

open List

variable {σ ι ο : Type}

def run (step : σ → ι → σ × List ο) (s : σ) : List ι → σ × List ο
  | [] => (s, [])
  | i :: is => ((run step (step s i).1 is).1, (step s i).2 ++ (run step (step s i).1 is).2)

def Along (step : σ → ι → σ × List ο) (P : σ → ι → Prop) (s : σ) : List ι → Prop
  | [] => True
  | i :: is => P s i ∧ Along step P (step s i).1 is

instance Along.decidable (step : σ → ι → σ × List ο) (P : σ → ι → Prop)
    [inst : ∀ s i, Decidable (P s i)] : (s : σ) → (is : List ι) → Decidable (Along step P s is)
  | _, [] => inferInstanceAs (Decidable True)
  | s, i :: is =>
    match inst s i, decidable step P (step s i).1 is with
    | isTrue h, isTrue h' => isTrue ⟨h, h'⟩
    | isFalse h, _ => isFalse fun a => h a.1
    | _, isFalse h => isFalse fun a => h a.2

variable {step : σ → ι → σ × List ο}

theorem run_concat (s : σ) (is : List ι) (i : ι) : run step s (is ++ [i]) =
      ((step (run step s is).1 i).1, (run step s is).2 ++ (step (run step s is).1 i).2) := by
  induction is generalizing s with
  | nil => simp [run]
  | cons j is ih => simp only [cons_append, run, ih, append_assoc]

theorem run_append (s : σ) (is js : List ι) : run step s (is ++ js) =
      ((run step (run step s is).1 js).1, (run step s is).2 ++ (run step (run step s is).1 js).2) := by
  induction is generalizing s with
  | nil => rfl
  | cons i is ih => simp only [cons_append, run, ih, append_assoc]

variable {s : σ} {P : σ → ι → Prop} {is : List ι}

theorem along_concat {i : ι} : Along step P s (is ++ [i]) ↔ Along step P s is ∧ P (run step s is).1 i := by
  induction is generalizing s with
  | nil => simp [Along, run]
  | cons j is ih => simp only [cons_append, Along, run, ih, and_assoc]

theorem along_iff : Along step P s is ↔ ∀ front i rest, is = front ++ i :: rest → P (run step s front).1 i := by
  constructor
  · intro h front i rest heq
    rw [heq, ← singleton_append, ← append_assoc] at h
    clear heq
    induction rest using reverseRecOn with
    | nil =>
      rw [append_nil] at h
      exact (along_concat.mp h).2
    | append_singleton rest j ih =>
      rw [← append_assoc] at h
      exact ih (along_concat.mp h).1
  intro h
  induction is using reverseRecOn with
  | nil => trivial
  | append_singleton is i ih =>
    refine along_concat.mpr ⟨ih fun front j rest heq => ?_, h is i [] rfl⟩
    exact h front j (rest ++ [i]) (by rw [heq, append_assoc, cons_append])

theorem along_true (s : σ) (is : List ι) : Along step (fun _ _ => True) s is := by
  induction is generalizing s with
  | nil => trivial
  | cons j is ih => exact ⟨trivial, ih _⟩

variable {I : σ → List ο → Prop}

theorem run_inv (hinit : I s [])
    (hstep : ∀ s log i, I s log → P s i → I (step s i).1 (log ++ (step s i).2)) (h : Along step P s is) :
    I (run step s is).1 (run step s is).2 := by
  induction is using reverseRecOn with
  | nil => exact hinit
  | append_singleton is i ih =>
    rw [run_concat]
    obtain ⟨hfront, hlast⟩ := along_concat.mp h
    exact hstep _ _ _ (ih hfront) hlast

theorem run_inv_inputs {I : List ι → σ → List ο → Prop} (hinit : I [] s []) (is : List ι)
    (hstep : ∀ front i, front ++ [i] <+: is → ∀ s log, I front s log →
      I (front ++ [i]) (step s i).1 (log ++ (step s i).2)) : I is (run step s is).1 (run step s is).2 := by
  induction is using reverseRecOn with
  | nil => exact hinit
  | append_singleton is i ih =>
    rw [run_concat]
    refine hstep is i (prefix_refl _) _ _ (ih fun front j hpre => hstep front j ?_)
    exact hpre.trans (prefix_append is [i])

theorem run_inv_always (hinit : I s [])
    (hstep : ∀ s log i, I s log → I (step s i).1 (log ++ (step s i).2)) (is : List ι) :
    I (run step s is).1 (run step s is).2 :=
  run_inv hinit (fun s log i h _ => hstep s log i h) (along_true s is)

theorem always_iff {J : σ → Prop} (hstep : ∀ s i, J s → (J (step s i).1 ↔ P s i)) (h : J s) :
    (∀ front, front <+: is → J (run step s front).1) ↔ Along step P s is := by
  induction is generalizing s with
  | nil => exact iff_of_true (fun front hf => by rw [prefix_nil.mp hf]; exact h) trivial
  | cons i is ih =>
    constructor
    · intro hall
      have hnext : J (step s i).1 := hall [i] (cons_prefix_cons.mpr ⟨rfl, nil_prefix⟩)
      refine ⟨(hstep s i h).mp hnext, (ih hnext).mp fun front hf => ?_⟩
      exact hall (i :: front) (cons_prefix_cons.mpr ⟨rfl, hf⟩)
    intro ⟨hi, hrest⟩ front hf
    cases front with
    | nil => exact h
    | cons j front =>
      obtain ⟨rfl, htail⟩ := cons_prefix_cons.mp hf
      exact (ih ((hstep s j h).mpr hi)).mpr hrest front htail

theorem mem_concat {log : List ο} {a b : ο} : a ∈ log ++ [b] ↔ a ∈ log ∨ a = b := by
  rw [mem_append, mem_singleton]

theorem concat_split {as front rest : List ο} {a b : ο} (h : as ++ [b] = front ++ a :: rest) :
    (front = as ∧ a = b) ∨ ∃ rest', as = front ++ a :: rest' := by
  rcases eq_nil_or_concat rest with rfl | ⟨rest', c, rfl⟩
  · obtain ⟨rfl, hlast⟩ := append_inj' h rfl
    cases hlast
    exact .inl ⟨rfl, rfl⟩
  · rw [concat_eq_append, ← cons_append, ← append_assoc] at h
    exact .inr ⟨rest', (append_inj' h rfl).1⟩

theorem pairwise_of_parts {κ β : Type} [DecidableEq κ] (part : ο → κ) (f : ο → Option β)
    {R : β → β → Prop} {log : List ο} (hpart : ∀ i, ((log.filter fun o => part o = i).filterMap f).Pairwise R)
    (hcross : ∀ o ∈ log, ∀ o' ∈ log, part o ≠ part o' → ∀ x ∈ f o, ∀ y ∈ f o', R x y) :
    (log.filterMap f).Pairwise R := by
  rw [pairwise_filterMap, pairwise_iff_forall_sublist]
  intro o o' hsub x hx y hy
  by_cases hsame : part o = part o'
  · have hin := hpart (part o')
    rw [pairwise_filterMap, pairwise_filter, pairwise_iff_forall_sublist] at hin
    exact hin hsub (by simpa using hsame) (by simp) x hx y hy
  · have ho : o ∈ log := hsub.subset (by simp)
    have ho' : o' ∈ log := hsub.subset (by simp)
    exact hcross o ho o' ho' hsame x hx y hy

end Lib
