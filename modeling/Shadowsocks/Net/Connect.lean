/-
  Subject:   A NAME RESOLVED AND CONNECTED TO (`lookup_then!` and `lookup_then_connect!` of
  `crates/shadowsocks/src/dns_resolver/mod.rs`): the addresses of the preferred family in turn, and beside them
  those of the other one. What attempts come to, and when the delay has passed, comes in with the ticks.
-/
import Mathlib.Data.List.Perm.Subperm
import Shadowsocks.Server.Association

namespace Shadowsocks.Net

open Lib List
open Server.SocketAddr (isV4)

structure Race where
  (preferred other : List SocketAddr)
  delayed : Bool
  connected : Option SocketAddr

inductive Tick where
  | delay
  | preferred (ok : Bool)
  | other (ok : Bool)

def Race.step (s : Race) (tick : Tick) : Race × List SocketAddr :=
  match s.connected, tick with
  | some _, _ => (s, [])
  | none, .delay => if s.delayed then ({ s with delayed := false }, s.other.head?.toList) else (s, [])
  | none, .preferred ok =>
    match s.preferred with
    | [] => (s, [])
    | addr :: rest =>
      if ok then ({ s with connected := some addr }, [])
      else ({ s with preferred := rest }, rest.head?.toList)
  | none, .other ok =>
    match s.delayed, s.other with
    | false, addr :: rest =>
      if ok then ({ s with connected := some addr }, [])
      else ({ s with other := rest }, rest.head?.toList)
    | _, _ => (s, [])

variable (ipv6First : Bool)

def Race.start (addrs : List SocketAddr) : Race :=
  let v4Addrs := addrs.filter isV4
  let v6Addrs := addrs.filter fun a => !isV4 a
  if v4Addrs = [] then ⟨v6Addrs, [], true, none⟩
  else if v6Addrs = [] then ⟨v4Addrs, [], true, none⟩
  else if ipv6First then ⟨v6Addrs, v4Addrs, true, none⟩
  else ⟨v4Addrs, v6Addrs, true, none⟩

def attempts (addrs : List SocketAddr) (ticks : List Tick) : List SocketAddr :=
  let s := Race.start ipv6First addrs
  s.preferred.head?.toList ++ (run Race.step s ticks).2

/-! ## 1. What a tick can do -/

def Race.ended (s : Race) (tick : Tick) : List (SocketAddr × Bool) :=
  match s.connected, tick with
  | none, .preferred ok => s.preferred.head?.toList.map (·, ok)
  | none, .other ok => if s.delayed then [] else s.other.head?.toList.map (·, ok)
  | _, _ => []

/-- **All that a tick can do** to the race, with the attempt that begins and the one that ends. -/
inductive Moved (s : Race) : Race → List SocketAddr → List (SocketAddr × Bool) → Prop
  | stays : Moved s s [] []
  | delay (hc : s.connected = none) (hd : s.delayed = true) :
    Moved s { s with delayed := false } s.other.head?.toList []
  | connects (a : SocketAddr) (hc : s.connected = none) (ha : a ∈ s.preferred ∨ a ∈ s.other) :
    Moved s { s with connected := some a } [] [(a, true)]
  | preferred (a : SocketAddr) (rest : List SocketAddr) (hc : s.connected = none) (h : s.preferred = a :: rest) :
    Moved s { s with preferred := rest } rest.head?.toList [(a, false)]
  | other (a : SocketAddr) (rest : List SocketAddr) (hc : s.connected = none) (hd : s.delayed = false)
      (h : s.other = a :: rest) : Moved s { s with other := rest } rest.head?.toList [(a, false)]

theorem Race.step_moved (s : Race) (tick : Tick) : Moved s (s.step tick).1 (s.step tick).2 (s.ended tick) := by
  obtain ⟨preferred, other, delayed, connected⟩ := s
  cases connected with
  | some addr => exact .stays
  | none =>
    cases tick with
    | delay =>
      cases delayed with
      | true => exact .delay rfl rfl
      | false => exact .stays
    | preferred ok =>
      cases preferred with
      | nil => exact .stays
      | cons a rest =>
        cases ok with
        | true => exact .connects a rfl (.inl mem_cons_self)
        | false => exact .preferred a rest rfl rfl
    | other ok =>
      cases delayed with
      | true => exact .stays
      | false =>
        cases other with
        | nil => exact .stays
        | cons a rest =>
          cases ok with
          | true => exact .connects a rfl (.inr mem_cons_self)
          | false => exact .other a rest rfl rfl rfl

/-! ## 2. What is tried -/

theorem start_perm (addrs : List SocketAddr) :
    (Race.start ipv6First addrs).preferred ++ (Race.start ipv6First addrs).other ~ addrs := by
  have hsplit := filter_append_perm isV4 addrs
  unfold Race.start
  dsimp only
  split
  · rename_i hnone
    simpa [hnone] using hsplit
  split
  · rename_i hnone
    simpa [hnone] using hsplit
  · cases ipv6First with
    | true => exact perm_append_comm.trans hsplit
    | false => exact hsplit

theorem mem_start_iff (addrs : List SocketAddr) (a : SocketAddr) :
    a ∈ (Race.start ipv6First addrs).preferred ∨ a ∈ (Race.start ipv6First addrs).other ↔ a ∈ addrs :=
  mem_append.symm.trans (start_perm ipv6First addrs).mem_iff

variable {s s' : Race} {log : List SocketAddr} {ended : List (SocketAddr × Bool)}

theorem head?_toList_append_tail (l : List SocketAddr) : l.head?.toList ++ l.tail = l := by
  cases l <;> rfl

def Race.waiting (s : Race) : List SocketAddr := s.preferred.tail ++ if s.delayed then s.other else s.other.tail

theorem Moved.waiting (h : Moved s s' log ended) : log ++ s'.waiting ~ s.waiting := by
  unfold Race.waiting
  cases h with
  | stays | connects => exact .refl _
  | delay hc hd =>
    simp only [hd, if_true, Bool.false_eq_true, if_false]
    refine (perm_append_comm_assoc _ _ _).trans ?_
    rw [head?_toList_append_tail]
  | preferred a rest hc heq =>
    rw [← append_assoc, head?_toList_append_tail, heq, tail_cons]
  | other a rest hc hd heq =>
    simp only [hd, heq, tail_cons, Bool.false_eq_true, if_false]
    refine (perm_append_comm_assoc _ _ _).trans ?_
    rw [head?_toList_append_tail]

theorem start_eq (addrs : List SocketAddr) :
    ∃ preferred other, Race.start ipv6First addrs = ⟨preferred, other, true, none⟩ := by
  unfold Race.start
  dsimp only
  split
  · exact ⟨_, _, rfl⟩
  · split
    · exact ⟨_, _, rfl⟩
    · split <;> exact ⟨_, _, rfl⟩

theorem attempts_subperm (addrs : List SocketAddr) (ticks : List Tick) : attempts ipv6First addrs ticks <+~ addrs := by
  obtain ⟨preferred, other, hs⟩ := start_eq ipv6First addrs
  have hrun := run_inv_always (I := fun (s : Race) log => log ++ s.waiting ~ (Race.start ipv6First addrs).waiting)
    (.refl _) (fun s log tick h => by
      rw [append_assoc]
      exact ((s.step_moved tick).waiting.append_left log).trans h) ticks
  have hall := start_perm ipv6First addrs
  unfold attempts
  rw [hs] at hrun hall ⊢
  have htried := hrun.append_left preferred.head?.toList
  simp only [Race.waiting, if_true, ← append_assoc, head?_toList_append_tail] at htried
  rw [append_assoc] at htried
  exact (sublist_append_left _ _).subperm.trans (htried.trans hall).subperm

variable {addrs : List SocketAddr} {a : SocketAddr}

theorem attempts_subset {ipv6First : Bool} {ticks : List Tick}
    (h : a ∈ attempts ipv6First addrs ticks) : a ∈ addrs :=
  (attempts_subperm ipv6First addrs ticks).subset h

theorem run_fails (r : List SocketAddr → Race) (tick : Tick)
    (hstep : ∀ addr rest, (r (addr :: rest)).step tick = (r rest, rest.head?.toList)) (addrs : List SocketAddr) :
    run Race.step (r addrs) (replicate addrs.length tick) = (r [], addrs.tail) := by
  induction addrs with
  | nil => rfl
  | cons addr rest ih =>
    rw [length_cons, replicate_succ, run, hstep, ih, head?_toList_append_tail, tail_cons]

theorem exists_attempts_all (addrs : List SocketAddr) :
    ∃ ticks, ∀ a ∈ addrs, a ∈ attempts ipv6First addrs ticks := by
  obtain ⟨preferred, other, hs⟩ := start_eq ipv6First addrs
  refine ⟨replicate preferred.length (.preferred false) ++
    .delay :: replicate other.length (.other false), fun a ha => ?_⟩
  have hlog : (run Race.step ⟨preferred, other, true, none⟩
      (replicate preferred.length (.preferred false) ++
        .delay :: replicate other.length (.other false))).2 = preferred.tail ++ other := by
    have hdelay : Race.step ⟨[], other, true, none⟩ .delay = (⟨[], other, false, none⟩, other.head?.toList) := rfl
    have hpreferred := run_fails (⟨·, other, true, none⟩) (.preferred false) (fun _ _ => rfl) preferred
    have hother := run_fails (⟨[], ·, false, none⟩) (.other false) (fun _ _ => rfl) other
    rw [run_append, hpreferred, run, hdelay, hother, head?_toList_append_tail]
  have hmem := (mem_start_iff ipv6First addrs a).mpr ha
  unfold attempts
  rw [hs] at hmem ⊢
  dsimp only
  rw [hlog, ← append_assoc, head?_toList_append_tail]
  exact mem_append.mpr hmem

/-! ## 3. What comes back -/

section

variable {ε ρ : Type}

def tryEach (body : Nat → SocketAddr → Except ε ρ) (n : Nat) (result : Option (Except ε (SocketAddr × ρ))) :
    List SocketAddr → Option (Except ε (SocketAddr × ρ)) × List (SocketAddr × Bool)
  | [] => (result, [])
  | addr :: rest =>
    match body n addr with
    | .ok r => (some (.ok (addr, r)), [(addr, true)])
    | .error err =>
      let (result, tried) := tryEach body (n + 1) (some (.error err)) rest
      (result, (addr, false) :: tried)

variable (resolved : Except ε (List SocketAddr))

def lookupThen (body : Nat → SocketAddr → Except ε ρ) :
    Outcome ε (SocketAddr × ρ) × List (SocketAddr × Bool) :=
  match resolved with
  | .error err => (.err err, [])
  | .ok addrs =>
    let s := Race.start ipv6First addrs
    match tryEach body 0 none (s.preferred ++ s.other) with
    | (none, tried) => (.panic, tried)
    | (some (.ok x), tried) => (.ok x, tried)
    | (some (.error err), tried) => (.err err, tried)

def Race.ends : Race → List Tick → List (SocketAddr × Bool)
  | _, [] => []
  | s, tick :: ticks => s.ended tick ++ ends (s.step tick).1 ticks

def lookupThenConnect (ticks : List Tick) :
    Option (Outcome (Option ε) SocketAddr) :=
  match resolved with
  | .error err => some (.err (some err))
  | .ok addrs =>
    -- `assert!(has_v4 || has_v6)`
    if addrs = [] then some .panic
    else
      let s := (run Race.step (.start ipv6First addrs) ticks).1
      match s.connected with
      | some addr => some (.ok addr)
      | none => if s.preferred = [] ∧ s.other = [] then some (.err none) else none

structure Sound {ε' : Type} (resolved : Except ε (List SocketAddr)) (result : Outcome ε' SocketAddr)
    (ended : List (SocketAddr × Bool)) : Prop where
  panics : result = .panic ↔ resolved = .ok []
  connected : ∀ a, result = .ok a → (a, true) ∈ ended ∧ ∃ addrs, resolved = .ok addrs ∧ a ∈ addrs
  failed : ∀ e, result = .err e → (∃ err, resolved = .error err) ∨
    ∃ addrs, resolved = .ok addrs ∧ ended ~ addrs.map (·, false)

variable {ε' : Type}

theorem Sound.of_error (err : ε) (e : ε') : Sound (.error err) (.err e) [] :=
  ⟨iff_of_false nofun nofun, nofun, fun _ _ => .inl ⟨err, rfl⟩⟩

theorem Sound.of_nil : @Sound ε ε' (.ok []) .panic [] :=
  ⟨iff_of_true rfl rfl, nofun, nofun⟩

theorem Sound.of_ok (ha : a ∈ addrs) (hend : (a, true) ∈ ended) :
    @Sound ε ε' (.ok addrs) (.ok a) ended := by
  refine ⟨iff_of_false nofun ?_, fun b hb => ?_, nofun⟩
  · rintro ⟨⟩
    cases ha
  · cases hb
    exact ⟨hend, addrs, rfl, ha⟩

theorem Sound.of_err (e : ε') (hne : addrs ≠ [])
    (hend : ended ~ addrs.map (·, false)) : Sound (ε := ε) (.ok addrs) (.err e) ended :=
  ⟨iff_of_false nofun (by simpa using hne), nofun, fun _ _ => .inr ⟨addrs, rfl, hend⟩⟩

theorem tryEach_spec (body : Nat → SocketAddr → Except ε ρ) (n : Nat) (result : Option (Except ε (SocketAddr × ρ)))
    (addrs : List SocketAddr) : (∃ front a r rest, addrs = front ++ a :: rest ∧
      tryEach body n result addrs = (some (.ok (a, r)), front.map (·, false) ++ [(a, true)])) ∨
      ∃ x, tryEach body n result addrs = (x, addrs.map (·, false)) ∧
        (addrs = [] ∧ x = result ∨ addrs ≠ [] ∧ ∃ err, x = some (.error err)) := by
  induction addrs generalizing n result with
  | nil => exact .inr ⟨result, rfl, .inl ⟨rfl, rfl⟩⟩
  | cons addr rest ih =>
    unfold tryEach
    split
    · exact .inl ⟨[], addr, _, rest, rfl, rfl⟩
    rename_i err _
    rcases ih (n + 1) (some (.error err)) with ⟨front, a, r, rest', rfl, heq⟩ | ⟨x, heq, hx⟩
    · exact .inl ⟨addr :: front, a, r, rest', rfl, by rw [heq]; rfl⟩
    · refine .inr ⟨x, by rw [heq]; rfl, .inr ⟨cons_ne_nil _ _, ?_⟩⟩
      rcases hx with ⟨-, rfl⟩ | ⟨-, hx⟩
      · exact ⟨err, rfl⟩
      · exact hx

theorem lookupThen_sound (body : Nat → SocketAddr → Except ε ρ) :
    Sound resolved ((lookupThen ipv6First resolved body).1.map Prod.fst) (lookupThen ipv6First resolved body).2 ∧
      (lookupThen ipv6First resolved body).2.map Prod.fst <+~ resolved.toOption.getD [] := by
  unfold lookupThen
  cases resolved with
  | error err => exact ⟨.of_error err err, .refl _⟩
  | ok addrs =>
    have hperm := start_perm ipv6First addrs
    rcases tryEach_spec body 0 none ((Race.start ipv6First addrs).preferred ++ (Race.start ipv6First addrs).other) with
      ⟨front, a, r, rest, hsplit, heq⟩ | ⟨x, heq, hx⟩
    · simp only [heq]
      rw [hsplit] at hperm
      refine ⟨.of_ok (hperm.mem_iff.mp (by simp)) (by simp), Subperm.trans ?_ hperm.subperm⟩
      exact Sublist.subperm (by simp [Function.comp_def])
    rcases hx with ⟨hnil, rfl⟩ | ⟨hne, err, rfl⟩
    · rw [hnil] at hperm heq
      obtain rfl := nil_perm.mp hperm
      exact ⟨.of_nil, .refl _⟩
    · simp only [heq]
      refine ⟨.of_err err ?_ (hperm.map _), by simpa [Function.comp_def, Except.toOption] using hperm.subperm⟩
      rintro rfl
      exact hne (perm_nil.mp hperm)

theorem Moved.within (h : Moved s s' log ended) (ha : a ∈ s'.preferred ∨ a ∈ s'.other) :
    a ∈ s.preferred ∨ a ∈ s.other := by
  cases h with
  | stays | connects | delay => exact ha
  | preferred addr rest _ heq => exact ha.imp_left fun ha => heq ▸ mem_cons_of_mem addr ha
  | other addr rest _ _ heq => exact ha.imp_right fun ha => heq ▸ mem_cons_of_mem addr ha

theorem Moved.ends (h : Moved s s' log ended) :
    (∀ a, s'.connected = some a → s.connected = some a ∨ (a, true) ∈ ended) ∧
      (∀ x ∈ ended, x.1 ∈ s.preferred ∨ x.1 ∈ s.other) ∧
      (s'.connected = none → s.connected = none ∧
        ended ++ (s'.preferred ++ s'.other).map (·, false) ~ (s.preferred ++ s.other).map (·, false)) := by
  cases h with
  | stays => exact ⟨fun a h => .inl h, forall_mem_nil _, fun h => ⟨h, .refl _⟩⟩
  | delay hc hd => exact ⟨fun a h => .inl h, forall_mem_nil _, fun h => ⟨h, .refl _⟩⟩
  | connects a hc ha =>
    refine ⟨fun b hb => .inr ?_, fun x hx => ?_, nofun⟩
    · cases hb
      exact mem_singleton_self _
    · cases mem_singleton.mp hx
      exact ha
  | preferred a rest hc heq =>
    refine ⟨fun b hb => .inl hb, fun x hx => ?_, fun _ => ⟨hc, ?_⟩⟩
    · cases mem_singleton.mp hx
      exact .inl (heq ▸ mem_cons_self)
    · rw [heq]
      exact .refl _
  | other a rest hc hd heq =>
    refine ⟨fun b hb => .inl hb, fun x hx => ?_, fun _ => ⟨hc, ?_⟩⟩
    · cases mem_singleton.mp hx
      exact .inr (heq ▸ mem_cons_self)
    · simpa [heq] using perm_middle.symm

theorem ends_spec (s : Race) (ticks : List Tick) :
    (∀ a, (run Race.step s ticks).1.connected = some a → s.connected = some a ∨ (a, true) ∈ s.ends ticks) ∧
      (∀ x ∈ s.ends ticks, x.1 ∈ s.preferred ∨ x.1 ∈ s.other) ∧
      ((run Race.step s ticks).1.connected = none → s.connected = none ∧
        s.ends ticks ++ ((run Race.step s ticks).1.preferred ++ (run Race.step s ticks).1.other).map (·, false) ~
          (s.preferred ++ s.other).map (·, false)) := by
  induction ticks generalizing s with
  | nil => exact ⟨fun a h => .inl h, forall_mem_nil _, fun h => ⟨h, .refl _⟩⟩
  | cons tick ticks ih =>
    have hmoved := s.step_moved tick
    obtain ⟨hconnected, hmem, hnone⟩ := hmoved.ends
    obtain ⟨hconnected', hmem', hnone'⟩ := ih (s.step tick).1
    rw [run, Race.ends]
    refine ⟨fun a ha => ?_, fun x hx => ?_, fun hlast => ?_⟩
    · rcases hconnected' a ha with h | h
      · exact (hconnected a h).imp_right (mem_append_left _)
      · exact .inr (mem_append_right _ h)
    · rcases mem_append.mp hx with hx | hx
      · exact hmem x hx
      · exact hmoved.within (hmem' x hx)
    obtain ⟨hc, hrest⟩ := hnone' hlast
    obtain ⟨hstart, hfirst⟩ := hnone hc
    refine ⟨hstart, ?_⟩
    rw [append_assoc]
    exact (hrest.append_left _).trans hfirst

theorem lookupThenConnect_sound (ticks : List Tick)
    {result : Outcome (Option ε) SocketAddr} (h : lookupThenConnect ipv6First resolved ticks = some result) :
    Sound resolved result ((Race.start ipv6First (resolved.toOption.getD [])).ends ticks) := by
  obtain ⟨hconnected, hmem, hnone⟩ := ends_spec (Race.start ipv6First (resolved.toOption.getD [])) ticks
  unfold lookupThenConnect at h
  cases resolved with
  | error err =>
    cases h
    exact ⟨iff_of_false nofun nofun, nofun, fun _ _ => .inl ⟨err, rfl⟩⟩
  | ok addrs =>
    dsimp only at h
    split at h
    · rename_i hnil
      cases h
      exact ⟨iff_of_true rfl (by rw [hnil]), nofun, nofun⟩
    rename_i hne
    obtain ⟨preferred, other, hs⟩ := start_eq ipv6First addrs
    split at h
    · rename_i addr haddr
      cases h
      have hend := (hconnected addr haddr).resolve_left (by rw [Except.toOption, Option.getD_some, hs]; nofun)
      exact .of_ok ((mem_start_iff ipv6First addrs addr).mp (hmem _ hend)) hend
    rename_i hlast
    split at h <;> cases h
    rename_i hdone
    obtain ⟨-, hall⟩ := hnone hlast
    refine .of_err none hne (Perm.trans ?_ ((start_perm ipv6First addrs).map _))
    simpa only [Except.toOption, Option.getD_some, hdone.1, hdone.2, append_nil, map_nil] using hall

/-- **Resolving and connecting**, in every timing: what both macros return is sound, and no entry is tried twice. -/
theorem lookup_sound (ipv6First : Bool) (resolved : Except ε (List SocketAddr)) :
    (∀ body : Nat → SocketAddr → Except ε ρ,
      Sound resolved ((lookupThen ipv6First resolved body).1.map Prod.fst) (lookupThen ipv6First resolved body).2 ∧
        (lookupThen ipv6First resolved body).2.map Prod.fst <+~ resolved.toOption.getD []) ∧
      ∀ ticks, (∀ result, lookupThenConnect ipv6First resolved ticks = some result →
          Sound resolved result ((Race.start ipv6First (resolved.toOption.getD [])).ends ticks)) ∧
        attempts ipv6First (resolved.toOption.getD []) ticks <+~ resolved.toOption.getD [] :=
  ⟨lookupThen_sound ipv6First resolved, fun ticks =>
    ⟨fun _ h => lookupThenConnect_sound ipv6First resolved ticks h, attempts_subperm ipv6First _ ticks⟩⟩

theorem lookup_empty_panics : (lookupThen (ε := Unit) false (.ok []) fun _ _ => .ok ()).1 = .panic ∧
      lookupThenConnect (ε := Unit) false (.ok []) [] = some .panic :=
  ⟨rfl, rfl⟩

end

end Shadowsocks.Net
