/-
  Subject:   REPLACING THE SERVERS OF THE BALANCER (`reset_servers` and `PingBalancerContext::new` of
  `local/loadbalancing/ping_balancer.rs`). Two reloaders call it independently, and a call may take seconds between
  loading the context and replacing it.
-/
import Mathlib.Data.List.Perm.Basic
import Shadowsocks.Config.File
import Shadowsocks.Lib.Publish

namespace Shadowsocks.Local.Balancer

open Lib Shadowsocks.Config List

/-! ## 1. Merging servers -/

section

variable {α : Type}

def swapIn (xs : List α) : List α :=
  match xs.getLast? with
  | some x => x :: xs.dropLast
  | none => []

def swapRemoveAll (p : α → Bool) : Nat → List α → List α
  | 0, _ => []
  | _ + 1, [] => []
  | n + 1, x :: xs => if p x then swapRemoveAll p n (swapIn xs) else x :: swapRemoveAll p n xs

theorem swapIn_perm (xs : List α) : (swapIn xs).Perm xs := by
  rcases eq_nil_or_concat xs with rfl | ⟨ys, y, rfl⟩
  · exact .refl _
  · rw [swapIn, concat_eq_append, getLast?_append, dropLast_concat]
    have hswap : ([y] ++ ys).Perm (ys ++ [y]) := perm_append_comm
    exact hswap

theorem swapRemoveAll_perm (p : α → Bool) {n : Nat} {xs : List α} (h : xs.length ≤ n) :
    (swapRemoveAll p n xs).Perm (xs.filter fun x => !p x) := by
  induction n generalizing xs with
  | zero =>
    rw [length_eq_zero_iff.mp (Nat.le_zero.mp h)]
    exact .refl _
  | succ n ih =>
    cases xs with
    | nil => exact .refl _
    | cons x xs =>
      have hlen : xs.length ≤ n := Nat.le_of_succ_le_succ h
      rw [swapRemoveAll]
      by_cases hx : p x
      · rw [if_pos hx, filter_cons_of_neg (by simp [hx])]
        exact (ih ((swapIn_perm xs).length_eq.trans_le hlen)).trans ((swapIn_perm xs).filter _)
      · rw [if_neg hx, filter_cons_of_pos (by simp [hx])]
        exact (ih hlen).cons x

end

variable {Kind : Type}

structure Reset (Kind : Type) where
  servers : List (ServerInstanceConfig Kind)
  replaceServerSources : List ServerSource
  own : ∀ s ∈ servers, s.config.source ∈ replaceServerSources

def merge (r : Reset Kind) (old : List (ServerInstanceConfig Kind)) : List (ServerInstanceConfig Kind) :=
  r.servers ++ swapRemoveAll (fun s => s.config.source ∈ r.replaceServerSources) old.length old

variable (src : ServerSource)

def ofSource (servers : List (ServerInstanceConfig Kind)) : List (ServerInstanceConfig Kind) :=
  servers.filter fun s => s.config.source = src

theorem others_perm (r : Reset Kind) (old : List (ServerInstanceConfig Kind)) :
    (swapRemoveAll (fun s => s.config.source ∈ r.replaceServerSources) old.length old).Perm
      (old.filter fun s => s.config.source ∉ r.replaceServerSources) := by
  simpa using swapRemoveAll_perm (fun s : ServerInstanceConfig Kind => decide (s.config.source ∈ r.replaceServerSources))
    (le_refl old.length)

theorem ofSource_merge (r : Reset Kind) (old : List (ServerInstanceConfig Kind)) :
    (ofSource src (merge r old)).Perm
      (if src ∈ r.replaceServerSources then ofSource src r.servers else ofSource src old) := by
  have hold : (ofSource src (swapRemoveAll (fun s => s.config.source ∈ r.replaceServerSources) old.length old)).Perm
      (ofSource src (old.filter fun s => s.config.source ∉ r.replaceServerSources)) := (others_perm r old).filter _
  rw [merge, ofSource, filter_append]
  split
  · rename_i hsrc
    have hnone : ofSource src (old.filter fun s => s.config.source ∉ r.replaceServerSources) = [] := by
      rw [ofSource, filter_filter, filter_eq_nil_iff]
      intro s _
      simp only [Bool.and_eq_true, decide_eq_true_eq, not_and, not_not]
      rintro rfl
      exact hsrc
    rw [hnone] at hold
    exact (hold.append_left _).trans (.of_eq (append_nil _))
  rename_i hsrc
  have hnone : r.servers.filter (fun s => s.config.source = src) = [] := by
    rw [filter_eq_nil_iff]
    intro s hs heq
    exact hsrc (of_decide_eq_true heq ▸ r.own s hs)
  have hall : ofSource src (old.filter fun s => s.config.source ∉ r.replaceServerSources) = ofSource src old := by
    rw [ofSource, filter_filter, ofSource]
    refine filter_congr fun s _ => ?_
    by_cases hs : s.config.source = src
    · simp [hs, hsrc]
    · simp [hs]
  rw [hnone, nil_append]
  exact hold.trans (.of_eq hall)

/-! ## 2. Calls -/

structure PingBalancer (Kind : Type) where
  cell : Cell (Reset Kind) (List (ServerInstanceConfig Kind))
  task : Option Nat
  tasked : List Nat

def PingBalancer.new (servers : List (ServerInstanceConfig Kind)) : PingBalancer Kind := ⟨.new servers, none, []⟩

variable (b : PingBalancer Kind)

def PingBalancer.servers : List (ServerInstanceConfig Kind) := b.cell.current.value

inductive Event (Kind : Type) where
  /-- `reset_servers` is called and loads the context. -/
  | call (r : Reset Kind)
  /-- `PingBalancerContext::new` fails, for a plugin that does not start, or the call is dropped while it waits. -/
  | fail (i : Nat)
  /-- The task is replaced. -/
  | replaceTask (i : Nat)
  /-- The context is stored and the call returns. -/
  | store (i : Nat)

def step : Event Kind → PingBalancer Kind × List (Reset Kind)
  | .call r => ({ b with cell := (b.cell.step merge (.start r)).1 }, [])
  -- nothing can fail or wait between the two replacements
  | .fail i => if i ∈ b.tasked then (b, []) else ({ b with cell := (b.cell.step merge (.fail i)).1 }, [])
  | .replaceTask i =>
    if (b.cell.attempt i).isSome then ({ b with task := some i, tasked := i :: b.tasked }, []) else (b, [])
  | .store i =>
    if i ∈ b.tasked then
      ({ b with cell := (b.cell.step merge (.publish i)).1 }, (b.cell.step merge (.publish i)).2)
    else (b, [])

def Unchanged (e : Event Kind) : Prop := ∀ i, e = .store i → i ∈ b.tasked → b.cell.Fresh i

instance (b : PingBalancer Kind) (e : Event Kind) : Decidable (Unchanged b e) :=
  match e with
  | .call _ => isTrue nofun
  | .fail _ => isTrue nofun
  | .replaceTask _ => isTrue nofun
  | .store i =>
    if h : i ∈ b.tasked → b.cell.Fresh i then isTrue fun j hj => by cases hj; exact h
    else isFalse fun hu => h (hu i rfl)

variable {e : Event Kind}

theorem step_servers (h : ∀ i, e ≠ .store i) : (step b e).1.servers = b.servers := by
  cases e with
  | call r => rfl
  | fail i | replaceTask i =>
    simp only [step]
    split
    · rfl
    · rfl
  | store i => exact absurd rfl (h i)

variable {b : PingBalancer Kind}

theorem step_inv {init : List (ServerInstanceConfig Kind)} {log : List (Reset Kind)}
    (h : Cell.Inv merge init b.cell log) (hun : Unchanged b e) :
    Cell.Inv merge init (step b e).1.cell (log ++ (step b e).2) := by
  cases e with
  | call r =>
    have hstart := h.step merge (e := .start r) nofun
    exact hstart
  | fail i =>
    simp only [step]
    split
    · rwa [append_nil]
    · have hfail := h.step merge (e := .fail i) nofun
      exact hfail
  | replaceTask i =>
    simp only [step]
    split <;> rwa [append_nil]
  | store i =>
    simp only [step]
    split
    · rename_i htasked
      refine h.step merge fun j hj => ?_
      cases hj
      exact hun i rfl htasked
    · rwa [append_nil]

/-! ## 3. What the sources have in the end -/

def lastFor (log : List (Reset Kind)) : Option (Reset Kind) :=
  (log.filter fun r => src ∈ r.replaceServerSources).getLast?

variable (init : List (ServerInstanceConfig Kind)) (log : List (Reset Kind))

def expected :
    List (ServerInstanceConfig Kind) :=
  match lastFor src log with
  | some r => ofSource src r.servers
  | none => ofSource src init

theorem lastFor_concat (log : List (Reset Kind)) (r : Reset Kind) :
    lastFor src (log ++ [r]) = if src ∈ r.replaceServerSources then some r else lastFor src log := by
  rw [lastFor, filter_append]
  split <;> rename_i hsrc
  · rw [filter_cons_of_pos (by simpa using hsrc), filter_nil, getLast?_concat]
  · rw [filter_cons_of_neg (by simpa using hsrc), filter_nil, append_nil]
    rfl

theorem expected_concat
    (r : Reset Kind) : expected src init (log ++ [r]) =
      if src ∈ r.replaceServerSources then ofSource src r.servers else expected src init log := by
  rw [expected, lastFor_concat]
  by_cases hsrc : src ∈ r.replaceServerSources
  · rw [if_pos hsrc, if_pos hsrc]
  · rw [if_neg hsrc, if_neg hsrc]
    rfl

theorem ofSource_applied :
    (ofSource src (applied merge init log)).Perm (expected src init log) := by
  induction log using reverseRecOn with
  | nil => exact .refl _
  | append_singleton log r ih =>
    rw [applied_concat, expected_concat]
    refine (ofSource_merge src r _).trans ?_
    split
    · exact .refl _
    · exact ih

/-- **Each source has the servers of its last call**, if calls store only over the context they loaded; a failed one
changes nothing. -/
theorem reset_exact (servers : List (ServerInstanceConfig Kind)) (events : List (Event Kind))
    (h : Along step Unchanged (PingBalancer.new servers) events) :
    (∀ src, (ofSource src (run step (PingBalancer.new servers) events).1.servers).Perm
        (expected src servers (run step (PingBalancer.new servers) events).2)) ∧
      ∀ e, (∀ i, e ≠ Event.store i) → (step (run step (PingBalancer.new servers) events).1 e).1.servers =
          (run step (PingBalancer.new servers) events).1.servers := by
  have hinv : Cell.Inv merge servers (run step (PingBalancer.new servers) events).1.cell
      (run step (PingBalancer.new servers) events).2 :=
    run_inv (I := fun b log => Cell.Inv merge servers b.cell log) (Cell.inv_new merge servers)
      (fun b log e hb hun => step_inv hb hun) h
  refine ⟨fun src => ?_, fun e he => step_servers _ he⟩
  rw [PingBalancer.servers, hinv.value]
  exact ofSource_applied src servers _

def sampleServer (port : UInt16) (source : ServerSource) : ServerInstanceConfig Unit :=
  .withServerConfig
    { addr := .domainName [] port, password := [], method := (), encKey := [], timeout := none, identityKeys := [],
      userManager := none, plugin := none, remarks := none, id := none, mode := .tcpAndUdp, weight := .new, source }

def fileReset : Reset Unit := ⟨[sampleServer 1 .configuration], [.configuration], by simp [sampleServer,
  ServerInstanceConfig.withServerConfig]⟩

def onlineReset : Reset Unit := ⟨[sampleServer 2 .onlineConfig], [.onlineConfig], by simp [sampleServer,
  ServerInstanceConfig.withServerConfig]⟩

def serialEvents : List (Event Unit) :=
  [.call fileReset, .replaceTask 0, .store 0, .call fileReset, .fail 1, .call onlineReset, .replaceTask 2, .store 2]

theorem reset_exact_serial : Along step Unchanged (PingBalancer.new [sampleServer 0 .configuration]) serialEvents ∧
      (ofSource .configuration (run step (PingBalancer.new [sampleServer 0 .configuration]) serialEvents).1.servers).Perm
        (ofSource .configuration fileReset.servers) := by
  have halong : Along step Unchanged (PingBalancer.new [sampleServer 0 .configuration]) serialEvents := by decide
  exact ⟨halong, (reset_exact [sampleServer 0 .configuration] serialEvents halong).1 .configuration⟩

def crossedEvents : List (Event Unit) :=
  [.call fileReset, .call onlineReset, .replaceTask 0, .store 0, .replaceTask 1, .store 1]

/-- Two successful calls for different sources: the server of the first is lost, the one it replaced
is back. -/
theorem reset_lost : fileReset.replaceServerSources.Disjoint onlineReset.replaceServerSources ∧
      (run step (PingBalancer.new [sampleServer 0 .configuration]) crossedEvents).1.cell.attempts = [none, none] ∧
      (run step (PingBalancer.new [sampleServer 0 .configuration]) crossedEvents).1.servers =
        [sampleServer 2 .onlineConfig, sampleServer 0 .configuration] ∧
      expected .configuration [sampleServer 0 .configuration]
        (run step (PingBalancer.new [sampleServer 0 .configuration]) crossedEvents).2 = [sampleServer 1 .configuration] :=
  ⟨by simp [fileReset, onlineReset], rfl, rfl, rfl⟩

/-! ## 4. Requests -/

inductive Handler where
  /-- A TCP request of any inbound (SOCKS, HTTP, tunnel, redir, tun): `best_tcp_server` is next. -/
  | tcp
  /-- A packet of a UDP association, which may have its `proxied_socket`: it waits for `check_target_bypassed`. -/
  | udp (socket : Bool)
  /-- A DNS query that asks a remote server: the further attempts, and which futures of this one have not picked. -/
  | dns (mode : Mode) (attempts : Nat) (tcpLeft udpLeft : Bool)
  | ended
  deriving DecidableEq

def Handler.attempt (mode : Mode) (attempts : Nat) : Handler := .dns mode attempts mode.enableTcp mode.enableUdp

inductive Move where
  | bestTcp
  | bestUdp
  /-- `check_target_bypassed` returns; `renewed` if the packet ids have run out, which drops the socket. -/
  | checked (bypassed renewed : Bool)
  /-- The attempt of a query fails. -/
  | failed
  /-- A query is answered, or dropped. -/
  | answered
  deriving DecidableEq

def Handler.move : Handler → Move → Handler × Bool
  | .tcp, .bestTcp => (.ended, true)
  | .udp socket, .checked bypassed renewed => (.ended, !bypassed && (!socket || renewed))
  | .dns mode attempts true udpLeft, .bestTcp => (.dns mode attempts false udpLeft, true)
  | .dns mode attempts tcpLeft true, .bestUdp => (.dns mode attempts tcpLeft false, true)
  | .dns mode (attempts + 1) false false, .failed => (.attempt mode attempts, false)
  | .dns _ _ _ _, .answered => (.ended, false)
  | h, _ => (h, false)

def Handler.MayPick : Handler → Prop
  | .tcp => True
  | .udp _ => True
  | .dns _ attempts tcpLeft udpLeft => 0 < attempts ∨ tcpLeft = true ∨ udpLeft = true
  | .ended => False

inductive Request where
  | tcp
  | udp (socket : Bool)
  | dns (mode : Mode)

def Request.handler : Request → Handler
  | .tcp => .tcp
  | .udp socket => .udp socket
  | .dns mode => .attempt mode 1

structure Service (Kind : Type) where
  balancer : PingBalancer Kind
  handlers : List Handler

inductive ServiceEvent (Kind : Type) where
  | reset (e : Event Kind)
  /-- A request asks `is_empty`. -/
  | begin (r : Request)
  | move (i : Nat) (m : Move)

def serve (s : Service Kind) : ServiceEvent Kind → Service Kind × List (List (ServerInstanceConfig Kind))
  | .reset e => ({ s with balancer := (step s.balancer e).1 }, [])
  | .begin r => ({ s with handlers := s.handlers ++ [if s.balancer.servers.isEmpty then .ended else r.handler] }, [])
  | .move i m =>
    match s.handlers[i]? with
    | none => (s, [])
    | some h => ({ s with handlers := s.handlers.set i (h.move m).1 }, if (h.move m).2 then [s.balancer.servers] else [])

def Spares (s : Service Kind) (e : ServiceEvent Kind) : Prop :=
  ∀ i a, e = .reset (.store i) → i ∈ s.balancer.tasked → s.balancer.cell.attempt i = some a →
    a.request.servers = [] → (∀ x ∈ a.read.value, x.config.source ∈ a.request.replaceServerSources) →
      ∀ h ∈ s.handlers, ¬h.MayPick

theorem merge_eq_nil {r : Reset Kind} {old : List (ServerInstanceConfig Kind)} :
    merge r old = [] ↔ r.servers = [] ∧ ∀ x ∈ old, x.config.source ∈ r.replaceServerSources := by
  rw [merge, append_eq_nil_iff, ← length_eq_zero_iff (l := swapRemoveAll _ _ _), (others_perm r old).length_eq,
    length_eq_zero_iff, filter_eq_nil_iff]
  simp

variable {h : Handler}

theorem Handler.mayPick_of_move {m : Move} (hm : (h.move m).2 = true ∨ (h.move m).1.MayPick) : h.MayPick := by
  unfold move at hm
  split at hm
  · trivial
  · trivial
  · exact .inr (.inl rfl)
  · exact .inr (.inr rfl)
  · exact .inl (Nat.succ_pos _)
  · rcases hm with hm | hm <;> cases hm
  · exact hm.resolve_left Bool.false_ne_true

theorem Handler.picks_of_mayPick (hh : h.MayPick) :
    ∃ m, (h.move m).2 = true ∨ ∃ m', ((h.move m).1.move m').2 = true := by
  cases h with
  | tcp => exact ⟨.bestTcp, .inl rfl⟩
  | udp socket => exact ⟨.checked false true, .inl (by cases socket <;> rfl)⟩
  | ended => exact hh.elim
  | dns mode attempts tcpLeft udpLeft =>
    cases tcpLeft with
    | true => exact ⟨.bestTcp, .inl (by cases udpLeft <;> rfl)⟩
    | false =>
      cases udpLeft with
      | true => exact ⟨.bestUdp, .inl rfl⟩
      | false =>
        obtain ⟨attempts, rfl⟩ := Nat.exists_eq_succ_of_ne_zero (pos_iff_ne_zero.mp (hh.resolve_right (by simp)))
        refine ⟨.failed, .inr ?_⟩
        cases mode with
        | tcpOnly | tcpAndUdp => exact ⟨.bestTcp, rfl⟩
        | udpOnly => exact ⟨.bestUdp, rfl⟩

theorem store_of_emptied (hfull : b.servers ≠ []) (hempty : (step b e).1.servers = []) :
    ∃ i a, e = .store i ∧ i ∈ b.tasked ∧ b.cell.attempt i = some a ∧ merge a.request a.read.value = [] := by
  by_cases he : ∃ i, e = .store i
  · obtain ⟨i, rfl⟩ := he
    rw [step] at hempty
    split at hempty
    · rename_i htasked
      cases ha : b.cell.attempt i with
      | none =>
        rw [Cell.step_publish_none merge ha] at hempty
        exact absurd hempty hfull
      | some a =>
        rw [Cell.step_publish merge ha] at hempty
        exact ⟨i, a, rfl, htasked, ha, hempty⟩
    · exact absurd hempty hfull
  · rw [step_servers b fun i hi => he ⟨i, hi⟩] at hempty
    exact absurd hempty hfull

structure Stocked (s : Service Kind) (log : List (List (ServerInstanceConfig Kind))) : Prop where
  servers : s.balancer.servers = [] → ∀ h ∈ s.handlers, ¬h.MayPick
  log : [] ∉ log

variable {s : Service Kind} {e : ServiceEvent Kind}

theorem Stocked.serve {log : List (List (ServerInstanceConfig Kind))} (h : Stocked s log)
    (he : Spares s e) : Stocked (serve s e).1 (log ++ (serve s e).2) := by
  cases e with
  | reset e =>
    refine ⟨fun hempty => ?_, by rw [Balancer.serve, append_nil]; exact h.log⟩
    by_cases hfull : s.balancer.servers = []
    · exact h.servers hfull
    · obtain ⟨i, a, rfl, htasked, ha, hmerge⟩ := store_of_emptied hfull hempty
      obtain ⟨hservers, hold⟩ := merge_eq_nil.mp hmerge
      exact he i a rfl htasked ha hservers hold
  | begin r =>
    refine ⟨fun (hempty : s.balancer.servers = []) x hx => ?_, by rw [Balancer.serve, append_nil]; exact h.log⟩
    rcases mem_append.mp hx with hold | hnew
    · exact h.servers hempty x hold
    · rw [mem_singleton.mp hnew, if_pos (isEmpty_iff.mpr hempty)]
      exact id
  | move i m =>
    rw [Balancer.serve]
    split
    · rwa [append_nil]
    rename_i x hx
    have hmem : x ∈ s.handlers := mem_of_getElem? hx
    refine ⟨fun hempty y hy => ?_, fun hnil => ?_⟩
    · rcases mem_or_eq_of_mem_set hy with hold | rfl
      · exact h.servers hempty y hold
      · exact fun hpick => h.servers hempty x hmem (Handler.mayPick_of_move (.inr hpick))
    rcases mem_append.mp hnil with hold | hnew
    · exact h.log hold
    · split at hnew
      · rename_i hpick
        exact h.servers (mem_singleton.mp hnew).symm x hmem (Handler.mayPick_of_move (.inl hpick))
      · cases hnew

theorem serve_move {i : Nat} (hi : s.handlers[i]? = some h) (m : Move) :
    serve s (.move i m) = ({ s with handlers := s.handlers.set i (h.move m).1 },
      if (h.move m).2 then [s.balancer.servers] else []) := by
  rw [serve, hi]

theorem picks_of_empty (hempty : s.balancer.servers = []) (hh : h ∈ s.handlers) (hpick : h.MayPick) :
    ∃ gs, [] ∈ (run serve s gs).2 := by
  obtain ⟨i, hi⟩ := List.getElem?_of_mem hh
  obtain ⟨m, hm | ⟨m', hm'⟩⟩ := Handler.picks_of_mayPick hpick
  · refine ⟨[.move i m], ?_⟩
    rw [run, serve_move hi, hm, hempty]
    exact mem_append_left _ (mem_singleton.mpr rfl)
  have hset : (s.handlers.set i (h.move m).1)[i]? = some (h.move m).1 := by
    rw [List.getElem?_set_self (List.getElem?_eq_some_iff.mp hi).1]
  refine ⟨[.move i m, .move i m'], ?_⟩
  rw [run, run, serve_move hi, serve_move hset, hm', hempty]
  exact mem_append_right _ (mem_append_left _ (mem_singleton.mpr rfl))

theorem emptied_of_not_spares (he : ¬Spares s e) :
    (serve s e).1.balancer.servers = [] ∧ ∃ h ∈ (serve s e).1.handlers, h.MayPick := by
  rw [Spares] at he
  push Not at he
  obtain ⟨i, a, rfl, htasked, ha, hservers, hold, hpick⟩ := he
  refine ⟨?_, hpick⟩
  have hstore : (step s.balancer (.store i)).1.servers = merge a.request a.read.value := by
    rw [step, if_pos htasked, Cell.step_publish merge ha]
    rfl
  exact hstore.trans (merge_eq_nil.mpr ⟨hservers, hold⟩)

def Service.new (servers : List (ServerInstanceConfig Kind)) : Service Kind := ⟨.new servers, []⟩

/-- **No server is picked from an empty set if one is stored only when no request may still pick; else a request can
be led to panic.** -/
theorem picks_exact (servers : List (ServerInstanceConfig Kind)) (es : List (ServiceEvent Kind)) :
    (Along serve Spares (Service.new servers) es → [] ∉ (run serve (Service.new servers) es).2) ∧
      ∀ e, ¬Spares (run serve (Service.new servers) es).1 e →
        ∃ gs, [] ∈ (run serve (Service.new servers) (es ++ e :: gs)).2 := by
  refine ⟨fun h => ?_, fun e he => ?_⟩
  · have hinit : Stocked (Service.new servers) [] := ⟨nofun, not_mem_nil⟩
    exact (run_inv hinit (fun _ _ _ hs hi => hs.serve hi) h).log
  obtain ⟨hempty, x, hx, hpick⟩ := emptied_of_not_spares he
  obtain ⟨gs, hgs⟩ := picks_of_empty hempty hx hpick
  refine ⟨gs, ?_⟩
  rw [run_append, run]
  exact mem_append_right _ (mem_append_right _ hgs)

def emptyReset : Reset Unit := ⟨[], [.configuration], by simp⟩

def emptied : List (ServiceEvent Unit) := [.reset (.call emptyReset), .reset (.replaceTask 0), .reset (.store 0)]

def servedEvents : List (ServiceEvent Unit) :=
  [.begin .tcp, .move 0 .bestTcp] ++ emptied ++ [.begin .tcp, .move 1 .bestTcp]

theorem picks_exact_serial : Along serve Spares (Service.new [sampleServer 0 .configuration]) servedEvents ∧
      [] ∉ (run serve (Service.new [sampleServer 0 .configuration]) servedEvents).2 := by
  have hended : ∀ s : Service Unit, s.handlers = [.ended] → ∀ e, Spares s e := by
    intro s hs e i a _ _ _ _ _ h hh
    rw [hs] at hh
    rw [mem_singleton.mp hh]
    exact id
  have halong : Along serve Spares (Service.new [sampleServer 0 .configuration]) servedEvents := by
    refine ⟨?_, ?_, ?_, ?_, hended _ rfl _, ?_, ?_, trivial⟩
    all_goals exact fun i a he => by cases he
  exact ⟨halong, (picks_exact _ _).1 halong⟩

def overtaken (r : Request) (m : Move) : List (ServiceEvent Unit) := .begin r :: emptied ++ [.move 0 m]

/-- A request of each kind picks a server from the empty set. -/
theorem picked_from_none :
    (run serve (Service.new [sampleServer 0 .configuration]) (overtaken .tcp .bestTcp)).2 = [[]] ∧
      (run serve (Service.new [sampleServer 0 .configuration]) (overtaken (.udp false) (.checked false false))).2 = [[]] ∧
      (run serve (Service.new [sampleServer 0 .configuration]) (overtaken (.dns .udpOnly) .bestUdp)).2 = [[]] :=
  ⟨rfl, rfl, rfl⟩

end Shadowsocks.Local.Balancer
