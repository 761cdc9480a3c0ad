/-
  Subject:   WHAT A STEP OF THE UDP SERVER CAN DO to its table and to one association.
-/
import Shadowsocks.Server.UdpRelay

namespace Shadowsocks.Server

open Lib Udp PacketWindow List Option

/-! ## 1. The table and the tasks -/

def Task.sid (t : Task) : Option UInt64 := t.context.clientSession.map (·.clientSessionId)

structure TableOk {K : Type} (sidOf : K → Option UInt64) (table : LruCache K Nat) (tasks : List Task) :
    Prop where
  unique : table.Unique
  owner : ∀ e ∈ table.entries, tasks[e.value]?.map Task.sid = some (sidOf e.key)

section

variable {K : Type} [DecidableEq K] {sidOf : K → Option UInt64} {table : LruCache K Nat}
  {tasks : List Task} {now : Nat} {key : K}

variable {i : Nat}

theorem TableOk.lookup (h : TableOk sidOf table tasks) (hl : table.lookup now key = some i) :
    ∃ t, tasks[i]? = some t ∧ t.sid = sidOf key := by
  obtain ⟨e, he, rfl, rfl⟩ := (LruCache.lookup_eq_some h.unique).mp hl
  exact map_eq_some_iff.mp (h.owner e (LruCache.mem_alive.mp he).1)

omit [DecidableEq K] in
theorem TableOk.mono (h : TableOk sidOf table tasks) {tasks' : List Task}
    (hsid : ∀ (i : Nat) (t : Task), tasks[i]? = some t → tasks'[i]?.map Task.sid = some t.sid) :
    TableOk sidOf table tasks' where
  unique := h.unique
  owner e he := by
    obtain ⟨t, ht, hs⟩ := map_eq_some_iff.mp (h.owner e he)
    rw [hsid e.value t ht, hs]

omit [DecidableEq K] in
theorem TableOk.sweep (h : TableOk sidOf table tasks) (now : Nat) : TableOk sidOf (table.sweep now) tasks where
  unique := h.unique.sweep now
  owner e he := h.owner e (LruCache.mem_alive.mp he).1

theorem TableOk.touch (h : TableOk sidOf table tasks)
    (hi : tasks[i]?.map Task.sid = some (sidOf key)) : TableOk sidOf (table.touch now key i) tasks where
  unique := h.unique.touch now key i
  owner e he := by
    rcases mem_concat.mp he with hold | rfl
    · exact h.owner e (LruCache.mem_alive.mp (mem_filter.mp hold).1).1
    · exact hi

theorem TableOk.get (h : TableOk sidOf table tasks) (now : Nat) (key : K) :
    TableOk sidOf (table.get now key).2 tasks := by
  unfold LruCache.get
  split
  · rename_i i hl
    obtain ⟨t, ht, hs⟩ := h.lookup hl
    exact h.touch (by rw [ht, ← hs]; rfl)
  · exact h.sweep now

theorem TableOk.insert (h : TableOk sidOf table tasks)
    (hi : tasks[i]?.map Task.sid = some (sidOf key)) : TableOk sidOf (table.insert now key i) tasks := by
  refine ⟨h.unique.insert now key i, fun e he => ?_⟩
  unfold LruCache.insert at he
  split at he
  · exact (h.touch hi).owner e he
  · rcases mem_concat.mp he with hold | rfl
    · exact h.owner e (LruCache.mem_alive.mp ((evict_sublist _ _).subset hold)).1
    · exact hi

/-- **The ways a packet goes**: to a full queue, to the queue of its association, or to a new
association. -/
inductive Sent (now : Nat) (key : K) (fresh : Task) (m : Message) (table : LruCache K Nat)
    (tasks : List Task) : LruCache K Nat × List Task × Option Nat → Prop where
  | refused (i : Nat) (hl : table.lookup now key = some i) :
      Sent now key fresh m table tasks ((table.get now key).2, tasks, none)
  | queued (i : Nat) (t : Task) (hl : table.lookup now key = some i) (ht : tasks[i]? = some t) :
      Sent now key fresh m table tasks
        ((table.get now key).2, tasks.set i { t with queue := t.queue ++ [m] }, some i)
  | spawned (hl : table.lookup now key = none) :
      Sent now key fresh m table tasks
        ((table.sweep now).insert now key tasks.length, tasks ++ [{ fresh with queue := [m] }], some tasks.length)

theorem sendVia_sent (now : Nat) (key : K) (peerAddr : SocketAddr) (sid : Option UInt64)
    (serverSessionId : UInt64) (m : Message) (table : LruCache K Nat) (tasks : List Task) :
    Sent now key (.create peerAddr sid serverSessionId) m table tasks
      (sendVia now key (.create peerAddr sid serverSessionId) m table tasks) := by
  have hget : table.get now key = (table.lookup now key, (table.get now key).2) := by
    unfold LruCache.get
    split <;> rename_i h
    · rw [h]
    · rw [h]
  rw [sendVia, hget]
  cases hl : table.lookup now key with
  | some i =>
    dsimp only
    split
    · rename_i t' ht'
      obtain ⟨t, ht, hsend⟩ := bind_eq_some_iff.mp ht'
      unfold Task.trySend at hsend
      split at hsend
      · cases hsend
        exact .queued i t hl ht
      · cases hsend
    · exact .refused i hl
  | none =>
    have hsweep : (table.get now key).2 = table.sweep now := by
      rw [LruCache.get, hl]
    rw [hsweep]
    exact .spawned hl

end

/-! ## 2. What a task can do -/

structure SameClient (a a' : UdpAssociationContext) : Prop where
  peerAddr : a'.peerAddr = a.peerAddr
  clientSession : a'.clientSession = a.clientSession
  socket : ∀ v4, a'.socket v4 = true → a.socket v4 = true

theorem SameClient.refl (a : UdpAssociationContext) : SameClient a a := ⟨rfl, rfl, fun _ h => h⟩

/-- **Everything a task can do** in a round, if its window has accepted `acc`. -/
inductive TaskRan (acc : List UInt64) (t : Task) : Task → List TaskOutput → Prop where
  | quiet (t' : Task) (os : List TaskOutput) (hclient : SameClient t.context t'.context)
      (hqueue : t'.queue ⊆ t.queue) (hos : ∀ o ∈ os, o = .keepalive t.context.natKey) : TaskRan acc t t' os
  | replied (v4 : Bool) (hopen : t.context.socket v4 = true) (a : UdpAssociationContext)
      (hclient : SameClient t.context a) (r : Reply) (hpeer : r.peerAddr = t.context.peerAddr)
      (huser : ∀ session, t.context.clientSession = some session →
        ∃ control, r.control = some control ∧ control.user = session.clientUser) :
      TaskRan acc t { t with context := a } [.reply r]
  | handled (m : Message) (queue : List Message) (hqueue : t.queue = m :: queue) (env : DispatchEnv)
      (a : UdpAssociationContext) (sent : Option SocketAddr)
      (hd : Dispatched t.sid acc t.context m env a sent) :
      TaskRan acc t { t with context := a, queue := queue } (sent.toList.map (.forward m))

theorem closeSocket_sameClient (a : UdpAssociationContext) (v4 : Bool) : SameClient a (a.closeSocket v4) where
  peerAddr := by cases v4 <;> rfl
  clientSession := by cases v4 <;> rfl
  socket w h := by
    cases v4 <;> cases w <;> simp_all [UdpAssociationContext.socket, UdpAssociationContext.closeSocket]

variable {t : Task}

theorem respond_ran {v4 : Bool} (hopen : t.context.socket v4 = true) (acc : List UInt64)
    (source : SocketAddr) (data : Bytes) :
    TaskRan acc t { t with context := (sendReceivedRespondPacket t.context source data).1 }
      ((sendReceivedRespondPacket t.context source data).2.toList.map .reply) := by
  unfold sendReceivedRespondPacket
  dsimp only
  split
  · rename_i hs
    refine .replied v4 hopen _ ?_ _ ?_ ?_
    · exact ⟨rfl, rfl, fun w h => by cases w <;> exact h⟩
    · rfl
    · intro session h
      rw [hs] at h
      cases h
  rename_i session hs
  split
  · refine .quiet _ _ ⟨rfl, rfl, fun w h => ?_⟩ (List.Subset.refl _) (by simp)
    cases w <;> exact h
  refine .replied v4 hopen _ ?_ _ ?_ ?_
  · exact ⟨rfl, rfl, fun w h => by cases w <;> exact h⟩
  · rfl
  · intro session' h
    rw [hs] at h
    cases h
    exact ⟨_, rfl, rfl⟩

variable (ip : IpStack)

theorem task_ran (room : Bool) {acc : List UInt64}
    (hwf : WellFormed t.sid acc t.context) (hqueue : ∀ m ∈ t.queue, m.For t.sid) (e : TaskEvent) :
    TaskRan acc t (t.step ip room e).1 (t.step ip room e).2 := by
  have hstill : TaskRan acc t t [] := .quiet t [] (.refl _) (List.Subset.refl _) (by simp)
  have hgone : TaskRan acc t { t with queue := [], status := .finished } [] :=
    .quiet _ [] (.refl _) (nil_subset _) (by simp)
  unfold Task.step
  split
  · exact hstill
  · split
    · exact hstill
    rename_i env _ _ m queue hq
    have hm := hqueue m (by rw [hq]; exact mem_cons_self)
    cases hd : dispatchReceivedPacket ip t.context m env with
    | ok r => exact .handled m queue hq env r.1 r.2 (dispatch_cases hwf hm hd)
    | err e => exact e.elim
    | panic => exact hgone
  · split
    · rename_i hopen
      exact respond_ran hopen acc _ _
    · exact hstill
  · exact .quiet _ [] (closeSocket_sameClient _ _) (List.Subset.refl _) (by simp)
  · split
    · refine .quiet _ _ ⟨rfl, rfl, fun w h => ?_⟩ (List.Subset.refl _) (by simp)
      cases w <;> exact h
    · exact hstill
  · exact hgone
  · exact hstill

/-! ## 3. What a step can do to one association -/

def Output.task : Output → Nat
  | .queued i _ _ => i
  | .forward i _ _ => i
  | .reply i _ => i

def about (i : Nat) (log : List Output) : List Output := log.filter fun o => o.task = i

@[simp] theorem about_append (i : Nat) (log log' : List Output) :
    about i (log ++ log') = about i log ++ about i log' := filter_append ..

variable {i : Nat}

theorem mem_about {o : Output} {log : List Output} : o ∈ about i log ↔ o ∈ log ∧ o.task = i := by
  simp [about]

theorem about_taskLog (i j : Nat) (os : List TaskOutput) :
    about i (taskLog j os) = if i = j then taskLog j os else [] := by
  have hall : ∀ o ∈ taskLog j os, o.task = j := by
    intro o ho
    obtain ⟨x, -, hx⟩ := mem_filterMap.mp ho
    cases x <;> cases hx <;> rfl
  split <;> rename_i h
  · subst h
    exact filter_eq_self.mpr fun o ho => by simp [hall o ho]
  · exact filter_eq_nil_iff.mpr fun o ho => by simpa [hall o ho] using fun e => h e.symm

/-- **Everything a step can do to one association**, and the part of its output about it. -/
inductive TaskTo (ip : IpStack) (now i : Nat) : Option Task → Option Task → List Output → Prop where
  | absent : TaskTo ip now i none none []
  | spawned (m : Message) (sid : Option UInt64) (hm : m.For sid) (serverSessionId : UInt64) :
      TaskTo ip now i none (some { Task.create m.peerAddr sid serverSessionId with queue := [m] })
        [.queued i m now]
  | kept (t : Task) : TaskTo ip now i (some t) (some t) []
  | aborted (t : Task) : TaskTo ip now i (some t) (some t.abort) []
  | queued (t : Task) (m : Message) (hm : m.For t.sid) :
      TaskTo ip now i (some t) (some { t with queue := t.queue ++ [m] }) [.queued i m now]
  | ran (t : Task) (room : Bool) (e : TaskEvent) :
      TaskTo ip now i (some t) (some (t.step ip room e).1) (taskLog i (t.step ip room e).2)

theorem dropAssociations_get (before after : List Nat) (tasks : List Task) (i : Nat) :
    (dropAssociations before after tasks)[i]? =
      tasks[i]?.map fun t => if i ∈ before ∧ i ∉ after then t.abort else t := by
  rw [dropAssociations, getElem?_mapIdx]

theorem taskTo_drop (now : Nat) (before after : List Nat) (tasks : List Task) (i : Nat) :
    TaskTo ip now i tasks[i]? (dropAssociations before after tasks)[i]? [] := by
  rw [dropAssociations_get]
  cases tasks[i]? with
  | none => exact .absent
  | some t =>
    split
    · exact .aborted t
    · exact .kept t

theorem abort_sid (t : Task) : t.abort.sid = t.sid := by
  unfold Task.abort
  split
  · rfl
  · rfl

variable {tasks : List Task}

theorem dropAssociations_sid {before after : List Nat} (h : tasks[i]? = some t) :
    (dropAssociations before after tasks)[i]?.map Task.sid = some t.sid := by
  rw [dropAssociations_get, h]
  simp only [map_some]
  split
  · rw [abort_sid]
  · rfl

section

variable {K : Type} [DecidableEq K] {sidOf : K → Option UInt64} {table : LruCache K Nat}
  {tasks : List Task} {now : Nat} {key : K} {m : Message}

def queuedLog (m : Message) (now : Nat) (i : Option Nat) : List Output :=
  i.toList.map fun i => .queued i m now

theorem mem_queuedLog {m m' : Message} {now t : Nat} {o : Option Nat}
    (h : .queued i m' t ∈ queuedLog m now o) : o = some i ∧ m' = m ∧ t = now := by
  obtain ⟨j, hj, heq⟩ := mem_map.mp h
  cases heq
  exact ⟨mem_toList.mp hj, rfl, rfl⟩

theorem about_queuedLog_self (m : Message) (now i : Nat) :
    about i (queuedLog m now (some i)) = [.queued i m now] := by
  simp [queuedLog, about, Output.task]

theorem about_queuedLog_ne (m : Message) (now : Nat) {i j : Nat} (h : j ≠ i) :
    about i (queuedLog m now (some j)) = [] := by
  simp [queuedLog, about, Output.task, h]

variable {r : LruCache K Nat × List Task × Option Nat} {serverSessionId : UInt64} {fresh : Task}

theorem sendVia_task (h : TableOk sidOf table tasks) (hm : m.For (sidOf key))
    (hfresh : fresh = .create m.peerAddr (sidOf key) serverSessionId)
    (hr : Sent now key fresh m table tasks r) (i : Nat) :
    TaskTo ip now i tasks[i]? (dropAssociations table.values r.1.values r.2.1)[i]?
      (about i (queuedLog m now r.2.2)) := by
  cases hr with
  | refused j hl => exact taskTo_drop ..
  | queued j t hl ht =>
    obtain ⟨t', ht', hsid⟩ := h.lookup hl
    rw [ht] at ht'
    cases ht'
    have hstay : j ∈ (table.get now key).2.values := (LruCache.kept_get hl).mem_values
    by_cases hij : j = i
    · subst hij
      rw [dropAssociations_get, List.getElem?_set_self (List.getElem?_eq_some_iff.mp ht).1, ht]
      simp only [map_some, hstay, not_true_eq_false, and_false, if_false]
      rw [about_queuedLog_self]
      exact .queued t m (by rw [hsid]; exact hm)
    · have hget := taskTo_drop ip now table.values (table.get now key).2.values tasks i
      rw [dropAssociations_get] at hget
      rwa [about_queuedLog_ne m now hij, dropAssociations_get, List.getElem?_set_ne hij]
  | spawned hl =>
    have hstay := ((table.sweep now).kept_insert now key tasks.length).mem_values
    rw [dropAssociations_get]
    rcases lt_trichotomy i tasks.length with hlt | heq | hgt
    · rw [about_queuedLog_ne m now (ne_of_gt hlt), List.getElem?_append_left hlt, ← dropAssociations_get]
      exact taskTo_drop ..
    · subst heq
      rw [about_queuedLog_self, hfresh]
      simp only [List.getElem?_concat_length, map_some, hstay, not_true_eq_false, and_false,
        if_false, List.getElem?_eq_none le_rfl]
      exact .spawned m (sidOf key) hm serverSessionId
    · rw [about_queuedLog_ne m now (ne_of_lt hgt), List.getElem?_eq_none (le_of_lt hgt),
        List.getElem?_eq_none (by rw [length_append]; exact hgt)]
      exact .absent

theorem sendVia_table (h : TableOk sidOf table tasks)
    (hfresh : fresh = .create m.peerAddr (sidOf key) serverSessionId)
    (hr : Sent now key fresh m table tasks r) :
    TableOk sidOf r.1 (dropAssociations table.values r.1.values r.2.1) := by
  suffices hmid : TableOk sidOf r.1 r.2.1 from hmid.mono fun _ _ ht => dropAssociations_sid ht
  cases hr with
  | refused j hl => exact h.get now key
  | queued j t hl ht =>
    refine (h.get now key).mono fun i t' ht' => ?_
    by_cases hij : j = i
    · subst hij
      rw [ht] at ht'
      cases ht'
      rw [List.getElem?_set_self (List.getElem?_eq_some_iff.mp ht).1]
      rfl
    · rw [List.getElem?_set_ne hij, ht']
      rfl
  | spawned hl =>
    have hgrow : TableOk sidOf (table.sweep now) (tasks ++ [{ fresh with queue := [m] }]) :=
      (h.sweep now).mono fun i t ht => by
        rw [List.getElem?_append_left (List.getElem?_eq_some_iff.mp ht).1, ht]
        rfl
    refine hgrow.insert ?_
    rw [List.getElem?_concat_length, hfresh]
    simp only [map_some, Option.some.injEq]
    exact (wellFormed_create m.peerAddr (sidOf key) serverSessionId).session

end

def NatMap.sessionBased : NatMap → Bool
  | .association _ => false
  | .session _ => true

def NatMap.Ok : NatMap → List Task → Prop
  | .association table, tasks => TableOk (fun _ => none) table tasks
  | .session table, tasks => TableOk some table tasks

theorem NatMap.Ok.mono {map : NatMap} {tasks' : List Task} (h : map.Ok tasks)
    (hsid : ∀ (i : Nat) (t : Task), tasks[i]? = some t → tasks'[i]?.map Task.sid = some t.sid) :
    map.Ok tasks' := by
  cases map with
  | association table | session table => exact TableOk.mono h hsid

theorem NatMap.Ok.cleanupExpired {map : NatMap} (h : map.Ok tasks) (now : Nat) :
    (map.cleanupExpired now).Ok tasks := by
  cases map with
  | association table | session table => exact TableOk.sweep h now

theorem NatMap.Ok.keepAlive {map map' : NatMap} (h : map.Ok tasks) {now : Nat} {key : NatKey}
    (hk : map.keepAlive now key = .ok map') : map'.Ok tasks ∧ map'.sessionBased = map.sessionBased := by
  cases map with
  | association table =>
    cases key with
    | peerAddr addr => cases hk; exact ⟨TableOk.get h now addr, rfl⟩
    | sessionId id => cases hk
  | session table =>
    cases key with
    | peerAddr addr => cases hk
    | sessionId id => cases hk; exact ⟨TableOk.get h now id, rfl⟩

def Message.Fits (m : Message) (sessionBased : Bool) : Prop := m.control.isSome = sessionBased

section

variable {s : UdpServer} {m : Message}

theorem sendPacket_spec (hmap : s.assocMap.Ok s.tasks)
    (hm : m.Fits s.assocMap.sessionBased) (serverSessionId : UInt64) :
    (s.sendPacket m serverSessionId).1.assocMap.Ok (s.sendPacket m serverSessionId).1.tasks ∧
      (s.sendPacket m serverSessionId).1.assocMap.sessionBased = s.assocMap.sessionBased ∧
      ∀ i, TaskTo ip s.now i s.tasks[i]? (s.sendPacket m serverSessionId).1.tasks[i]?
        (about i (s.sendPacket m serverSessionId).2) := by
  unfold UdpServer.sendPacket
  cases hs : s.assocMap with
  | association table =>
    rw [hs] at hmap hm
    have hfor : m.For none := by
      cases hc : m.control with
      | none => rw [Message.For, hc]; rfl
      | some control => rw [Message.Fits, hc] at hm; cases hm
    have hsent := sendVia_sent s.now m.peerAddr m.peerAddr none serverSessionId m table s.tasks
    exact ⟨sendVia_table hmap rfl hsent, rfl, sendVia_task ip hmap hfor rfl hsent⟩
  | session table =>
    rw [hs] at hmap hm
    obtain ⟨control, hc⟩ := isSome_iff_exists.mp hm
    have hfor : m.For (some control.clientSessionId) := (Message.for_some hc).mpr rfl
    have hsent := sendVia_sent s.now control.clientSessionId m.peerAddr
      (some control.clientSessionId) serverSessionId m table s.tasks
    simp only [hc]
    exact ⟨sendVia_table hmap rfl hsent, rfl, sendVia_task ip hmap hfor rfl hsent⟩

end

end Shadowsocks.Server
