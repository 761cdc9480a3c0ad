/-
  Subject:   THE CHOICE OF THE BEST SERVER (`find_best_idx`, `check_once` and `check_best_server` of
  `local/loadbalancing/ping_balancer.rs`), for one of the two transports. A server that is never probed keeps
  `u32::MAX`.
-/
import Shadowsocks.Config.File

namespace Shadowsocks.Local.BestServer

open Shadowsocks.Config List

inductive Transport where
  | tcp
  | udp

structure PingBalancerContext (Kind : Type) where
  servers : List (ServerConfig Kind)
  mode : Mode
  /-- There is a `check_best_interval`. -/
  checksBest : Bool

variable {Kind : Type}

def enabled (mode : Mode) (svr : ServerConfig Kind) : Transport → Bool
  | .tcp => mode.enableTcp && (svr.mode.enableTcp && decide (0 < svr.weight.tcpWeight))
  | .udp => mode.enableUdp && (svr.mode.enableUdp && decide (0 < svr.weight.udpWeight))

namespace PingBalancerContext

variable (c : PingBalancerContext Kind) (t : Transport)

def candidates : List Bool := c.servers.map fun svr => enabled c.mode svr t

def probingRequired : Bool := 1 < (c.candidates .tcp).count true || 1 < (c.candidates .udp).count true

def findBestIdx : Nat := if true ∈ c.candidates t then (c.candidates t).idxOf true else 0

end PingBalancerContext

def maxScore : UInt32 := 0xffffffff

def bestFrom : Nat → Nat × UInt32 → List UInt32 → Nat × UInt32
  | _, best, [] => best
  | idx, best, score :: scores => bestFrom (idx + 1) (if score < best.2 then (idx, score) else best) scores

structure Choice where
  scores : List UInt32
  bestIdx : Nat
  given : List Nat

def Choice.choose (s : Choice) : Choice :=
  let idx := (bestFrom 0 (0, maxScore) s.scores).1
  { s with bestIdx := idx, given := idx :: s.given }

inductive Event where
  /-- A probe of the server `i` ends. -/
  | probed (i : Nat) (score : UInt32)
  /-- `check_once` has all its probes. -/
  | checkedOnce
  /-- `check_best_server` has its probe; the index was `i` when it began. -/
  | checkedBest (i : Nat)
  | reportFailure (i : Nat) (score : UInt32)

section

variable (c : PingBalancerContext Kind) (t : Transport)

def step (s : Choice) : Event → Choice
  | .probed i score => if (c.candidates t)[i]? = some true then { s with scores := s.scores.set i score } else s
  | .checkedOnce => if 1 < (c.candidates t).count true then s.choose else s
  | .checkedBest i =>
    if (c.checksBest && c.probingRequired) = true ∧ i ∈ s.given ∧ (c.candidates t)[i]? = some true then s.choose else s
  | .reportFailure i score => if i ∈ s.given then { s with scores := s.scores.set i score } else s

def start : Choice := ⟨replicate c.servers.length maxScore, c.findBestIdx t, [c.findBestIdx t]⟩

def history (events : List Event) : Choice := events.foldl (step c t) (start c t)

def Selected (s : Choice) : Prop := true ∈ c.candidates t → (c.candidates t)[s.bestIdx]? = some true

def Smallest (s : Choice) : Prop :=
  ∀ i score best, (c.candidates t)[i]? = some true → i ≠ s.bestIdx → s.scores[i]? = some score →
    s.scores[s.bestIdx]? = some best → best ≤ score

end

/-! ## 1. The loop -/

theorem le_maxScore (score : UInt32) : score ≤ maxScore :=
  Nat.le_of_lt_succ score.toNat_lt

theorem bestFrom_spec (idx : Nat) (best : Nat × UInt32) (scores : List UInt32) :
    (bestFrom idx best scores = best ∨ ∃ i, bestFrom idx best scores = (idx + i, (bestFrom idx best scores).2) ∧
        scores[i]? = some (bestFrom idx best scores).2 ∧ (bestFrom idx best scores).2 < best.2) ∧
      (bestFrom idx best scores).2 ≤ best.2 ∧ ∀ score ∈ scores, (bestFrom idx best scores).2 ≤ score := by
  induction scores generalizing idx best with
  | nil => exact ⟨.inl rfl, UInt32.le_refl _, nofun⟩
  | cons score scores ih =>
    rw [bestFrom]
    obtain ⟨hat, hle, hall⟩ := ih (idx + 1) (if score < best.2 then (idx, score) else best)
    generalize bestFrom (idx + 1) _ scores = r at hat hle hall ⊢
    split at hat
    · rename_i hlt
      rw [if_pos hlt] at hle
      refine ⟨.inr ?_, UInt32.le_trans hle (UInt32.le_of_lt hlt), forall_mem_cons.mpr ⟨hle, hall⟩⟩
      rcases hat with rfl | ⟨i, hr, hi, hlt'⟩
      · exact ⟨0, rfl, rfl, hlt⟩
      · exact ⟨i + 1, by rw [hr]; simp; omega, hi, UInt32.lt_trans hlt' hlt⟩
    rename_i hge
    rw [if_neg hge] at hle
    refine ⟨?_, hle, forall_mem_cons.mpr ⟨UInt32.le_trans hle (UInt32.not_lt.mp hge), hall⟩⟩
    rcases hat with rfl | ⟨i, hr, hi, hlt'⟩
    · exact .inl rfl
    · exact .inr ⟨i + 1, by rw [hr]; simp; omega, hi, hlt'⟩

theorem choose_spec (s : Choice) : (s.choose.bestIdx = 0 ∧ ∀ score ∈ s.scores, score = maxScore) ∨
      ∃ best, s.scores[s.choose.bestIdx]? = some best ∧ best ≠ maxScore ∧ ∀ score ∈ s.scores, best ≤ score := by
  obtain ⟨hat, -, hall⟩ := bestFrom_spec 0 (0, maxScore) s.scores
  rcases hat with hr | ⟨i, hr, hi, hlt⟩
  · refine .inl ⟨congrArg Prod.fst hr, fun score hs => UInt32.le_antisymm (le_maxScore score) ?_⟩
    have hle := hall score hs
    rwa [hr] at hle
  · refine .inr ⟨_, ?_, (UInt32.ne_of_lt hlt), hall⟩
    rwa [show s.choose.bestIdx = i from (congrArg Prod.fst hr).trans (zero_add i)]

/-! ## 2. Histories -/

section

variable {c : PingBalancerContext Kind} {t : Transport} {s : Choice}

structure Inv (c : PingBalancerContext Kind) (t : Transport) (s : Choice) : Prop where
  probed : ∀ (i : Nat) (score : UInt32), s.scores[i]? = some score → score ≠ maxScore → (c.candidates t)[i]? = some true
  given : ∀ i ∈ s.given, (c.candidates t)[i]? = some true
  best : s.bestIdx ∈ s.given

theorem findBestIdx_candidate (h : true ∈ c.candidates t) : (c.candidates t)[c.findBestIdx t]? = some true := by
  rw [PingBalancerContext.findBestIdx, if_pos h]
  exact getElem?_idxOf h

theorem start_inv (h : true ∈ c.candidates t) : Inv c t (start c t) where
  probed i score hi hne := absurd (mem_replicate.mp (mem_of_getElem? hi)).2 hne
  given i hi := by
    rw [mem_singleton.mp hi]
    exact findBestIdx_candidate h
  best := mem_singleton_self _

theorem Inv.set (h : Inv c t s) {i : Nat} (hi : (c.candidates t)[i]? = some true) (score : UInt32) :
    Inv c t { s with scores := s.scores.set i score } where
  probed j score' hj hne := by
    rw [getElem?_set] at hj
    split at hj
    · rename_i hij
      exact hij ▸ hi
    · exact h.probed j score' hj hne
  given := h.given
  best := h.best

theorem Inv.choose (h : Inv c t s) (hfirst : (c.candidates t)[0]? = some true) : Inv c t s.choose where
  probed := h.probed
  given := by
    refine forall_mem_cons.mpr ⟨?_, h.given⟩
    show (c.candidates t)[s.choose.bestIdx]? = some true
    rcases choose_spec s with ⟨hzero, -⟩ | ⟨best, hbest, hne, -⟩
    · rw [hzero]
      exact hfirst
    · exact h.probed _ best hbest hne
  best := mem_cons_self

theorem Inv.step (hfirst : (c.candidates t)[0]? = some true) (h : Inv c t s) (e : Event) : Inv c t (step c t s e) := by
  cases e with
  | probed i score =>
    simp only [BestServer.step]
    split
    · exact h.set (by assumption) score
    · exact h
  | checkedOnce | checkedBest i =>
    simp only [BestServer.step]
    split
    · exact h.choose hfirst
    · exact h
  | reportFailure i score =>
    simp only [BestServer.step]
    split
    · rename_i hi
      exact h.set (h.given i hi) score
    · exact h

theorem step_bestIdx (hone : (c.candidates t).count true ≤ 1) (hbest : (c.checksBest && c.probingRequired) = false)
    (s : Choice) (e : Event) : (step c t s e).bestIdx = s.bestIdx := by
  cases e with
  | probed i score | reportFailure i score => simp only [step]; split <;> rfl
  | checkedOnce => rw [step, if_neg (not_lt.mpr hone)]
  | checkedBest i => rw [step, if_neg (by simp [hbest])]

theorem history_inv {I : Choice → Prop} (h0 : I (start c t)) (hstep : ∀ s e, I s → I (step c t s e))
    (events : List Event) : I (history c t events) :=
  foldlRecOn events _ h0 fun s hs e _ => hstep s e hs

theorem one_lt_count {l : List Bool} {i j : Nat} (hi : l[i]? = some true) (hj : l[j]? = some true) (h : i < j) :
    1 < l.count true := by
  have hpos : 0 < (l.take j).count true := by
    refine count_pos_iff.mpr (mem_of_getElem? (i := i) ?_)
    rwa [getElem?_take_of_lt h]
  have hpos' : 0 < (l.drop j).count true := by
    refine count_pos_iff.mpr (mem_of_getElem? (i := 0) ?_)
    rwa [getElem?_drop]
  rw [← take_append_drop j l, count_append]
  omega

theorem smallest_checkedOnce (h : Selected c t s) : Smallest c t (step c t s .checkedOnce) := by
  intro i score best hi hne hscore hbest
  simp only [step] at hne hscore hbest
  split at hne <;> rename_i hcount
  · rw [if_pos hcount] at hscore hbest
    rcases choose_spec s with ⟨-, hall⟩ | ⟨best', hbest', -, hall⟩
    · rw [hall score (mem_of_getElem? hscore)]
      exact le_maxScore best
    · cases hbest'.symm.trans hbest
      exact hall score (mem_of_getElem? hscore)
  · have hs := h (mem_of_getElem? hi)
    rcases Nat.lt_or_gt_of_ne hne with hlt | hlt
    · exact absurd (one_lt_count hi hs hlt) hcount
    · exact absurd (one_lt_count hs hi hlt) hcount

theorem choose_start_bestIdx (events : List Event) (h : (history c t events) = (start c t).choose) :
    (history c t events).bestIdx = 0 := by
  rw [h]
  rcases choose_spec (start c t) with ⟨hzero, -⟩ | ⟨best, hbest, hne, -⟩
  · exact hzero
  · exact absurd (mem_replicate.mp (mem_of_getElem? hbest)).2 hne

end

/-- **When an enabled server is selected**, the best one after a full check: exactly if the first is enabled, or none
is, or one is and the best is not checked. -/
theorem choice_iff (c : PingBalancerContext Kind) (t : Transport) :
    (∀ events, Selected c t (history c t events) ∧ Smallest c t (step c t (history c t events) .checkedOnce)) ↔
      (c.candidates t)[0]? = some true ∨ (c.candidates t).count true = 0 ∨
        (c.candidates t).count true = 1 ∧ (c.checksBest && c.probingRequired) = false := by
  constructor
  · intro h
    by_contra hnot
    obtain ⟨hfirst, hnone, hone⟩ : (c.candidates t)[0]? ≠ some true ∧ (c.candidates t).count true ≠ 0 ∧
        ((c.candidates t).count true = 1 → (c.checksBest && c.probingRequired) = true) := by simpa using hnot
    have hmem : true ∈ c.candidates t := count_pos_iff.mp (pos_of_ne_zero hnone)
    have hzero : ∃ events, history c t events = (start c t).choose := by
      by_cases hmany : 1 < (c.candidates t).count true
      · exact ⟨[.checkedOnce], if_pos hmany⟩
      · have hbest := hone (by omega)
        exact ⟨[.checkedBest (c.findBestIdx t)],
          if_pos ⟨hbest, mem_singleton_self _, findBestIdx_candidate hmem⟩⟩
    obtain ⟨events, hevents⟩ := hzero
    have hselected := (h events).1 hmem
    rw [choose_start_bestIdx events hevents] at hselected
    exact hfirst hselected
  intro h events
  have hselected : Selected c t (history c t events) := by
    intro hmem
    rcases h with hfirst | hnone | ⟨hone, hbest⟩
    · have hinv := history_inv (start_inv hmem) (fun s e hs => hs.step hfirst e) events
      exact hinv.given _ hinv.best
    · exact absurd hmem (count_eq_zero.mp hnone)
    · have hsame : (history c t events).bestIdx = c.findBestIdx t :=
        history_inv (I := fun s => s.bestIdx = c.findBestIdx t) rfl
          (fun s e hs => (step_bestIdx (le_of_eq hone) hbest s e).trans hs) events
      rw [hsame]
      exact findBestIdx_candidate hmem
  exact ⟨hselected, smallest_checkedOnce hselected⟩

def someServer (mode : Mode) : ServerConfig Unit :=
  { addr := .domainName [] 1, password := [], method := (), encKey := [], timeout := none, identityKeys := [],
    userManager := none, plugin := none, remarks := none, id := none, mode, weight := .new, source := .default }

def someContext : PingBalancerContext Unit :=
  ⟨[someServer .udpOnly, someServer .tcpAndUdp, someServer .tcpAndUdp], .tcpAndUdp, false⟩

/-- Both probes end with the largest score, and the server for UDP is selected for TCP. -/
theorem disabled_selected : someContext.candidates .tcp = [false, true, true] ∧
    (history someContext .tcp [.probed 1 maxScore, .probed 2 maxScore, .checkedOnce]).bestIdx = 0 :=
  ⟨by decide, by decide⟩

end Shadowsocks.Local.BestServer
