/-
  Subject:   THE REVERSE LOOKUP CACHE (`add_to_reverse_lookup_cache` and `check_target_bypassed` of
  `local/context.rs`): the addresses that DNS answered with against the rules.
-/
import Shadowsocks.Local.DnsRelay

namespace Shadowsocks.Local.ReverseLookup

open Lib Shadowsocks.Acl Shadowsocks.Local.Dns List

def reverseLookupCache : LruCache IpAddr Bool := .withExpiryDurationAndCapacity (3 * 24 * 60 * 60 * 10 ^ 9) 10240

def isException (acl : Option AccessControl) (addr : IpAddr) (forward : Bool) : Bool :=
  forward != match acl with
    | none => true
    | some acl => acl.checkIpInProxyList addr

def addToReverseLookupCache (acl : Option AccessControl) (c : LruCache IpAddr Bool) (now : Nat) (addr : IpAddr)
    (forward : Bool) : LruCache IpAddr Bool :=
  -- `get_mut` counts as an access, and takes expired entries out
  match c.lookup now addr with
  | some _ => if isException acl addr forward then c.touch now addr forward else (c.sweep now).remove addr
  | none => if isException acl addr forward then c.insert now addr forward else c.sweep now

def checkTargetBypassed (acl : Option AccessControl) (ctx : Acl.Context) (c : LruCache IpAddr Bool) (now : Nat)
    (addr : Address) : Bool × LruCache IpAddr Bool :=
  match acl with
  | none => (false, c)
  | some acl =>
    match addr with
    | .socketAddress saddr =>
      match c.get now (ipOf saddr) with
      | (some forward, c) => (!forward, c)
      | (none, c) => (acl.checkTargetBypassed ctx addr, c)
    | .domainNameAddress _ _ => (acl.checkTargetBypassed ctx addr, c)

inductive Use where
  | add (addr : IpAddr) (forward : Bool)
  | check (addr : Address)

variable {Name : Type}

inductive Event (Name : Type) where
  | answer (result : Message Name) (forward : Bool)
  | check (addr : Address)

def addresses (result : Message Name) : List IpAddr :=
  result.answers.filterMap fun rec =>
    match rec.data with
    | .a ip => some (.v4 ip)
    | .aaaa ip => some (.v6 ip)
    | _ => none

def Event.uses : Event Name → List Use
  | .answer result forward => (addresses result).map (.add · forward)
  | .check addr => [.check addr]

def Event.answers (addr : IpAddr) : Event Name → Prop
  | .answer result _ => addr ∈ addresses result
  | .check _ => False

section

variable (acl : Option AccessControl) (ctx : Acl.Context)

def step (c : LruCache IpAddr Bool) : Nat × Use → LruCache IpAddr Bool
  | (now, .add addr forward) => addToReverseLookupCache acl c now addr forward
  | (now, .check addr) => (checkTargetBypassed acl ctx c now addr).2

def run (uses : List (Nat × Use)) : LruCache IpAddr Bool := uses.foldl (step acl ctx) reverseLookupCache

def timed (events : List (Nat × Event Name)) : List (Nat × Use) := events.flatMap fun e => e.2.uses.map (e.1, ·)

def WithinCapacity (uses : List (Nat × Use)) : Prop :=
  ∀ before now addr forward after, uses = before ++ (now, .add addr forward) :: after →
    isException acl addr forward = true → (run acl ctx before).pushedOut now addr = []

end

/-! ## The entry of one address -/

section

variable {K V : Type} [DecidableEq K] {c : LruCache K V} {now : Nat} {k k' : K}

def own (c : LruCache K V) (k : K) : List (LruEntry K V) := c.entries.filter (·.key = k)

def live (c : LruCache K V) (now : Nat) (k : K) : List (LruEntry K V) := (own c k).filter fun e => now ≤ e.used + c.ttl

theorem own_sweep : own (c.sweep now) k = live c now k := by
  simp only [own, live, LruCache.sweep, LruCache.alive, filter_filter, Bool.and_comm]

theorem lookup_live : c.lookup now k = ((live c now k).head?).map (·.value) := by
  rw [← own_sweep, own, head?_filter]
  rfl

theorem own_remove (h : k' ≠ k) (c : LruCache K V) : own (c.remove k') k = own c k := by
  rw [own, LruCache.remove, filter_filter]
  exact filter_congr fun e _ => by by_cases hk : e.key = k <;> simp [hk, h.symm]

theorem own_touch (h : k' ≠ k) (v : V) : own (c.touch now k' v) k = live c now k := by
  have hother : ((c.alive now).filter (·.key ≠ k')).filter (·.key = k) = (c.alive now).filter (·.key = k) :=
    own_remove h (c.sweep now)
  rw [← own_sweep, own, LruCache.touch, filter_append, hother]
  simp [own, LruCache.sweep, h]

theorem own_touch_self (v : V) : own (c.touch now k v) k = [⟨k, v, now⟩] := by
  simp [own, LruCache.touch, filter_filter]

theorem own_get (h : k' ≠ k) : own (c.get now k').2 k = live c now k := by
  unfold LruCache.get
  split
  · exact own_touch h _
  · exact own_sweep

theorem own_insert (h : k' ≠ k) (hroom : c.pushedOut now k' = []) (v : V) : own (c.insert now k' v) k = live c now k := by
  unfold LruCache.insert
  cases hl : c.lookup now k' with
  | some _ => exact own_touch h v
  | none =>
    have hall : evict c.capacity (c.alive now) = c.alive now := by
      unfold LruCache.pushedOut at hroom
      cases hcap : c.capacity with
      | none => rfl
      | some cap =>
        rw [hcap, hl] at hroom
        rw [evict]
        rcases take_eq_nil_iff.mp hroom with hzero | hnil
        · rw [hzero, drop_zero]
        · rw [hnil, drop_nil]
    rw [← own_sweep]
    simp [own, hall, LruCache.sweep, h]

theorem own_insert_self (v : V) : own (c.insert now k v) k = [⟨k, v, now⟩] := by
  unfold LruCache.insert
  cases hl : c.lookup now k with
  | some _ => exact own_touch_self v
  | none =>
    have hnone : (evict c.capacity (c.alive now)).filter (·.key = k) = [] := filter_eq_nil_iff.mpr fun e he => by
      simpa using LruCache.lookup_eq_none.mp hl e ((evict_sublist _ _).subset he)
    simp [own, hnone]

end

/-! ## What the cache knows of an address -/

variable {acl : Option AccessControl} {ctx : Acl.Context} {c : LruCache IpAddr Bool} {addr addr' : IpAddr}
  {forward forward' : Bool} {t now : Nat}

def entry (acl : Option AccessControl) (addr : IpAddr) (forward : Bool) (used : Nat) : List (LruEntry IpAddr Bool) :=
  if isException acl addr forward then [⟨addr, forward, used⟩] else []

theorem own_add_self : own (addToReverseLookupCache acl c now addr forward) addr = entry acl addr forward now := by
  unfold addToReverseLookupCache entry
  split
  · split
    · exact own_touch_self forward
    · simp [own, LruCache.remove]
  rename_i hnone
  split
  · exact own_insert_self forward
  · rw [lookup_live, Option.map_eq_none_iff, head?_eq_none_iff] at hnone
    rw [own_sweep, hnone]

theorem own_add (h : addr' ≠ addr) (hroom : isException acl addr' forward' = true → c.pushedOut now addr' = []) :
    own (addToReverseLookupCache acl c now addr' forward') addr = live c now addr := by
  unfold addToReverseLookupCache
  split
  · split
    · exact own_touch h forward'
    · rw [own_remove h, own_sweep]
  · split
    · rename_i hexc
      exact own_insert h (hroom hexc) forward'
    · exact own_sweep

theorem add_ttl : (addToReverseLookupCache acl c now addr forward).ttl = c.ttl := by
  unfold addToReverseLookupCache
  split <;> split <;> first | rfl | exact c.insert_ttl now addr forward

theorem own_live {used : Nat} (h : own c addr = entry acl addr forward used)
    (hlive : isException acl addr forward = true → now ≤ used + c.ttl) :
    live c now addr = entry acl addr forward used := by
  rw [live, h]
  unfold entry
  split
  · rename_i hexc
    simp [hlive hexc]
  · rfl

theorem get_entry {used : Nat} (h : own c addr = entry acl addr forward used)
    (hlive : isException acl addr forward = true → now ≤ used + c.ttl) :
    (c.get now addr).1 = (if isException acl addr forward then some forward else none) ∧
      own (c.get now addr).2 addr = entry acl addr forward now := by
  have hown := own_live h hlive
  have hlookup : c.lookup now addr = ((entry acl addr forward used).head?).map (·.value) := by rw [lookup_live, hown]
  unfold LruCache.get
  by_cases hexc : isException acl addr forward = true
  · rw [entry, if_pos hexc] at hown hlookup ⊢
    rw [hlookup, if_pos hexc]
    exact ⟨rfl, own_touch_self forward⟩
  · rw [entry, if_neg hexc] at hown hlookup ⊢
    rw [hlookup, if_neg hexc]
    exact ⟨rfl, own_sweep.trans hown⟩

theorem step_check (c : LruCache IpAddr Bool) (now : Nat) (target : Address) :
    step acl ctx c (now, .check target) = c ∨ ∃ addr', step acl ctx c (now, .check target) = (c.get now addr').2 := by
  cases acl with
  | none => exact .inl rfl
  | some acl =>
    cases target with
    | domainNameAddress host port => exact .inl rfl
    | socketAddress saddr =>
      refine .inr ⟨ipOf saddr, ?_⟩
      simp only [step, checkTargetBypassed]
      split <;> simp [*]

theorem step_ttl (c : LruCache IpAddr Bool) (u : Nat × Use) : (step acl ctx c u).ttl = c.ttl := by
  obtain ⟨now, use⟩ := u
  cases use with
  | add addr forward => exact add_ttl
  | check target =>
    rcases step_check c now target with hc | ⟨addr', hc⟩
    · rw [hc]
    · rw [hc, LruCache.get_ttl]

def Knows (acl : Option AccessControl) (c : LruCache IpAddr Bool) (addr : IpAddr) (forward : Bool) (t : Nat) : Prop :=
  ∃ used, (isException acl addr forward = true → t ≤ used) ∧ own c addr = entry acl addr forward used

def Harmless (acl : Option AccessControl) (addr : IpAddr) (forward : Bool) (t ttl : Nat) (u : Nat × Use) : Prop :=
  (isException acl addr forward = true → t ≤ u.1 ∧ u.1 ≤ t + ttl) ∧ ∀ f, u.2 = .add addr f → f = forward

theorem Knows.step (h : Knows acl c addr forward t) {u : Nat × Use} (hu : Harmless acl addr forward t c.ttl u)
    (hroom : ∀ addr' f, u.2 = .add addr' f → isException acl addr' f = true → c.pushedOut u.1 addr' = []) :
    Knows acl (step acl ctx c u) addr forward t := by
  obtain ⟨now, use⟩ := u
  obtain ⟨used, hused, hown⟩ := h
  obtain ⟨htime, hsame⟩ := hu
  have hlive : isException acl addr forward = true → now ≤ used + c.ttl :=
    fun hexc => Nat.le_trans (htime hexc).2 (Nat.add_le_add_right (hused hexc) _)
  cases use with
  | add addr' f =>
    by_cases hk : addr' = addr
    · subst hk
      obtain rfl := hsame f rfl
      exact ⟨now, fun hexc => (htime hexc).1, own_add_self⟩
    · exact ⟨used, hused, (own_add hk (hroom addr' f rfl)).trans (own_live hown hlive)⟩
  | check target =>
    rcases step_check c now target with hc | ⟨addr', hc⟩
    · rw [hc]
      exact ⟨used, hused, hown⟩
    rw [hc]
    by_cases hk : addr' = addr
    · subst hk
      exact ⟨now, fun hexc => (htime hexc).1, (get_entry hown hlive).2⟩
    · exact ⟨used, hused, (own_get hk).trans (own_live hown hlive)⟩

theorem run_concat (uses : List (Nat × Use)) (u : Nat × Use) :
    run acl ctx (uses ++ [u]) = step acl ctx (run acl ctx uses) u := by
  rw [run, foldl_append]
  rfl

theorem run_ttl (uses : List (Nat × Use)) : (run acl ctx uses).ttl = reverseLookupCache.ttl := by
  induction uses using reverseRecOn with
  | nil => rfl
  | append_singleton uses u ih => rw [run_concat, step_ttl, ih]

theorem Knows.run {before after : List (Nat × Use)} (h : Knows acl (run acl ctx before) addr forward t)
    (hroom : WithinCapacity acl ctx (before ++ after))
    (hafter : ∀ u ∈ after, Harmless acl addr forward t reverseLookupCache.ttl u) :
    Knows acl (run acl ctx (before ++ after)) addr forward t := by
  induction after using reverseRecOn with
  | nil => rwa [append_nil]
  | append_singleton after u ih =>
    rw [← append_assoc] at hroom ⊢
    have hearlier : WithinCapacity acl ctx (before ++ after) :=
      fun b n a f rest heq => hroom b n a f (rest ++ [u]) (by rw [heq, append_assoc, cons_append])
    have hknows := ih hearlier fun v hv => hafter v (mem_append_left _ hv)
    rw [run_concat]
    refine hknows.step (by rw [run_ttl]; exact hafter u (mem_append_right _ mem_cons_self)) ?_
    intro addr' f hadd
    exact hroom _ u.1 addr' f [] (by rw [← hadd])

theorem Knows.check {acl : AccessControl} {saddr : SocketAddr} (h : Knows (some acl) c (ipOf saddr) forward t)
    (hlive : isException (some acl) (ipOf saddr) forward = true → now ≤ t + c.ttl) :
    (checkTargetBypassed (some acl) ctx c now (.socketAddress saddr)).1 = !forward := by
  obtain ⟨used, hused, hown⟩ := h
  have hget := (get_entry hown fun hexc => Nat.le_trans (hlive hexc) (Nat.add_le_add_right (hused hexc) _)).1
  rw [checkTargetBypassed]
  split at hget
  · split <;> simp_all
  · rename_i hexc
    simp only [isException, bne_iff_ne, ne_eq, not_not] at hexc
    split <;> simp_all [AccessControl.checkTargetBypassed]

theorem mem_timed {events : List (Nat × Event Name)} {u : Nat × Use} (h : u ∈ timed events) :
    ∃ e ∈ events, e.1 = u.1 ∧ ∀ addr f, u.2 = .add addr f → e.2.answers addr := by
  obtain ⟨⟨now, e⟩, he, hu⟩ := mem_flatMap.mp h
  obtain ⟨use, huse, rfl⟩ := mem_map.mp hu
  refine ⟨_, he, rfl, ?_⟩
  rintro addr f rfl
  cases e with
  | answer result forward =>
    obtain ⟨addr', haddr, heq⟩ := mem_map.mp huse
    cases heq
    exact haddr
  | check target => cases mem_singleton.mp huse

/-- **The last answer decides**, while it has not expired and no address was given up; without an answer the rules do. -/
theorem bypassed_by_last_answer (acl : AccessControl) (ctx : Acl.Context) (events : List (Nat × Event Name)) (now : Nat)
    (saddr : SocketAddr) (htimes : (events.map (·.1) ++ [now]).Pairwise (· ≤ ·))
    (hroom : WithinCapacity (some acl) ctx (timed events)) :
    let bypassed := (checkTargetBypassed (some acl) ctx (run (some acl) ctx (timed events)) now (.socketAddress saddr)).1
    (∀ before t result forward after, events = before ++ (t, .answer result forward) :: after →
        ipOf saddr ∈ addresses result → (∀ e ∈ after, ¬ e.2.answers (ipOf saddr)) → now ≤ t + reverseLookupCache.ttl →
        bypassed = !forward) ∧
      ((∀ e ∈ events, ¬ e.2.answers (ipOf saddr)) → bypassed = acl.checkTargetBypassed ctx (.socketAddress saddr)) := by
  refine ⟨?_, fun hnone => ?_⟩
  · rintro before t result forward after rfl hin hafter hlive
    have hbetween : ∀ e ∈ after, t ≤ e.1 ∧ e.1 ≤ now := fun e he => by
      rw [map_append, map_cons, append_assoc, cons_append] at htimes
      obtain ⟨hlater, hrest⟩ := pairwise_cons.mp (pairwise_append.mp htimes).2.1
      have he' := mem_map_of_mem (f := (·.1)) he
      exact ⟨hlater _ (mem_append_left _ he'), (pairwise_append.mp hrest).2.2 _ he' now mem_cons_self⟩
    obtain ⟨first, rest, hsplit⟩ := append_of_mem hin
    -- the uses up to the address itself, and those after it
    have huses : timed (before ++ (t, .answer result forward) :: after) =
        (timed before ++ first.map (fun addr => (t, Use.add addr forward)) ++ [(t, .add (ipOf saddr) forward)]) ++
          (rest.map (fun addr => (t, Use.add addr forward)) ++ timed after) := by
      simp [timed, Event.uses, hsplit, Function.comp_def]
    rw [huses] at hroom ⊢
    refine (Knows.run ⟨t, fun _ => Nat.le_refl t, ?_⟩ hroom fun u hu => ?_).check fun _ => by rwa [run_ttl]
    · rw [run_concat]
      exact own_add_self
    rcases mem_append.mp hu with hu | hu
    · obtain ⟨addr, -, rfl⟩ := mem_map.mp hu
      exact ⟨fun _ => ⟨Nat.le_refl t, Nat.le_add_right t _⟩, fun f hf => by cases hf; rfl⟩
    · obtain ⟨e, he, htime, hadd⟩ := mem_timed hu
      obtain ⟨hlater, hnow⟩ := hbetween e he
      exact ⟨fun _ => ⟨htime ▸ hlater, htime ▸ le_trans hnow hlive⟩,
        fun f hf => absurd (hadd _ f hf) (hafter e he)⟩
  -- no answer is as good as one that agrees with the rules
  have hrules : isException (some acl) (ipOf saddr) (acl.checkIpInProxyList (ipOf saddr)) = false := bne_self_eq_false _
  have hexc : ∀ {P : Prop}, isException (some acl) (ipOf saddr) (acl.checkIpInProxyList (ipOf saddr)) = true → P :=
    fun h => by rw [hrules] at h; cases h
  have hstart : Knows (some acl) (run (some acl) ctx []) (ipOf saddr) (acl.checkIpInProxyList (ipOf saddr)) 0 :=
    ⟨0, hexc, by rw [entry, hrules]; rfl⟩
  refine (hstart.run hroom fun u hu => ⟨hexc, fun f hf => ?_⟩).check hexc
  obtain ⟨e, he, -, hadd⟩ := mem_timed hu
  exact absurd (hadd _ f hf) (hnone e he)

/-- 10.0.0.1 is forwarded against the rules. -/
theorem bypassed_by_last_answer_ten :
    let result : Message Text := ⟨1, true, [], [⟨"a.".toList, .a 0x0a000001⟩], []⟩
    (checkTargetBypassed (some exceptTen) oneAddress (run (some exceptTen) oneAddress (timed [(0, .answer result true)])) 1
      (.socketAddress (.v4 ⟨0x0a000001, 80⟩))).1 = !true := by
  intro result
  refine (bypassed_by_last_answer exceptTen oneAddress [(0, .answer result true)] 1 (.v4 ⟨0x0a000001, 80⟩) (by decide) ?_).1
    [] 0 result true [] rfl (by decide) (fun e he => by cases he) (by decide)
  intro before now addr forward after huses _
  cases before with
  | nil =>
    unfold LruCache.pushedOut
    split
    · exact take_nil
    · rfl
  | cons u before => cases before <;> cases huses

end Shadowsocks.Local.ReverseLookup
