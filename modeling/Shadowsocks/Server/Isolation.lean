/-
  Subject:   USERS OF ONE UDP SERVER AND THEIR ASSOCIATIONS. The table is keyed by the session id alone, which the
  client chooses.
-/
import Shadowsocks.Server.Reachable

namespace Shadowsocks.Server

open Lib Udp PacketWindow List

/-! ## 1. The packet of a step -/

def Message.user (m : Message) : Option ServerUser := m.control.bind (·.user)

/-- The packet a step works on: of a receiver, of the channel, or of an association's queue. -/
def packetOf (cfg : Config) (s : UdpServer) : Event → Option Message
  | .recv datagram peerAddr env | .workerRecv datagram peerAddr env =>
    match recvOnePacket cfg s.now datagram peerAddr env with
    | .ok m => some m
    | _ => none
  | .takeReceived _ => s.received.head?
  | .task i (.receive _) => (s.head i).map Prod.snd
  | _ => none

def pushedOutBy (s : UdpServer) (m : Message) : List (LruEntry UInt64 Nat) :=
  match s.assocMap, m.control with
  | .session table, some control => table.pushedOut s.now control.clientSessionId
  | _, _ => []

/-- **The session id `k` is the user's alone**: its packets are of `u`, and none pushes its association out. -/
def Separate (cfg : Config) (u : ServerUser) (k : UInt64) (s : UdpServer) (e : Event) : Prop :=
  ∀ m ∈ packetOf cfg s e, (m.For (some k) → m.user = some u) ∧ ∀ x ∈ pushedOutBy s m, x.key ≠ k

instance (m : Message) (sid : Option UInt64) : Decidable (m.For sid) :=
  inferInstanceAs (Decidable (m.control.map (·.clientSessionId) = sid))

instance (cfg : Config) (u : ServerUser) (k : UInt64) (s : UdpServer) (e : Event) :
    Decidable (Separate cfg u k s e) :=
  inferInstanceAs (Decidable (∀ m ∈ packetOf cfg s e,
    (m.For (some k) → m.user = some u) ∧ ∀ x ∈ pushedOutBy s m, x.key ≠ k))

/-- **The step handles a packet of `v`**: a datagram authenticated as `v`, or one of `v` from a queue. -/
def Handles (cfg : Config) (v : ServerUser) (s : UdpServer) : Event → Prop
  | .recv datagram _ _ | .workerRecv datagram _ _ =>
    ∃ data target control, control.user = some v ∧
      decryptClientPayload cfg.kind (wallClock s.now) cfg.key datagram cfg.users = .ok (data, target, some control)
  | e => ∃ m ∈ packetOf cfg s e, m.user = some v

def UdpServer.Live (s : UdpServer) (k : UInt64) (i : Nat) : Prop :=
  match s.assocMap with
  | .session table => table.lookup s.now k = some i
  | .association _ => False

/-- **Untouched**: peer, user, window, counters and queue are the same, it runs if it did, and
nothing was sent for it. -/
structure Untouched (s s' : UdpServer) (out : List Output) (k : UInt64) (i : Nat) (t : Task) : Prop where
  task : ∃ t', s'.tasks[i]? = some t' ∧ t'.context = t.context ∧ t'.queue = t.queue ∧
    (s.Live k i → t'.status = t.status)
  live : s.Live k i → s'.Live k i
  silent : about i out = []

variable {i : Nat} {m : Message} {s : UdpServer} {cfg : Config}

theorem queued_packetOf {e : Event} {time : Nat}
    (h : .queued i m time ∈ (step cfg s e).2) : packetOf cfg s e = some m := by
  unfold step at h
  cases e with
  | elapse duration => cases h
  | cleanup =>
    dsimp only at h
    split at h
    · cases h
    · cases h
  | keepAlive =>
    dsimp only at h
    split at h
    · split at h
      · cases h
      · rename_i e _
        exact e.elim
      · cases h
    · cases h
  | recv datagram peerAddr env =>
    dsimp only at h
    split at h
    · split at h
      · rename_i m' hm
        obtain ⟨rfl, -⟩ := sendPacket_queued h
        simp only [packetOf, hm]
      · cases h
      · cases h
    · cases h
  | workerRecv datagram peerAddr env =>
    dsimp only at h
    split at h
    · split at h
      · cases h
      · cases h
      · cases h
    · cases h
  | takeReceived ssid =>
    dsimp only at h
    split at h
    · rename_i m' received _ hrec
      obtain ⟨rfl, -⟩ := sendPacket_queued h
      simp only [packetOf, hrec, head?_cons]
    · cases h
  | task j e =>
    dsimp only at h
    split at h
    · cases h
    · obtain ⟨o, -, heq⟩ := mem_filterMap.mp h
      cases o <;> cases heq

/-! ## 2. A packet with another session id -/

theorem abort_context (t : Task) : t.abort.context = t.context ∧ t.abort.queue = t.queue := by
  unfold Task.abort
  split
  · exact ⟨rfl, rfl⟩
  · exact ⟨rfl, rfl⟩

variable {t : Task}

theorem drop_untouched (before after : List Nat) {tasks : List Task} (ht : tasks[i]? = some t) :
    ∃ t', (dropAssociations before after tasks)[i]? = some t' ∧ t'.context = t.context ∧
      t'.queue = t.queue ∧ (i ∈ after → t'.status = t.status) := by
  rw [dropAssociations_get, ht]
  by_cases hdrop : i ∈ before ∧ i ∉ after
  · refine ⟨t.abort, by simp [hdrop], (abort_context t).1, (abort_context t).2, fun h => ?_⟩
    exact absurd h hdrop.2
  · exact ⟨t, by simp [hdrop], rfl, rfl, fun _ => rfl⟩

section

variable {table : LruCache UInt64 Nat} {tasks : List Task} {now : Nat} {k key : UInt64} {m : Message}

theorem lookup_mem_values (hu : table.Unique) (h : table.lookup now k = some i) : i ∈ table.values := by
  obtain ⟨e, he, -, rfl⟩ := (LruCache.lookup_eq_some hu).mp h
  exact mem_map_of_mem (LruCache.mem_alive.mp he).1

variable {r : LruCache UInt64 Nat × List Task × Option Nat} {fresh : Task}

theorem sent_live (hok : TableOk some table tasks) (hk : key ≠ k)
    (hroom : ∀ x ∈ table.pushedOut now key, x.key ≠ k)
    (hr : Sent now key fresh m table tasks r) (hlive : table.lookup now k = some i) : r.1.lookup now k = some i := by
  cases hr with
  | refused j hl | queued j t hl ht => exact LruCache.lookup_get_other hok.unique hlive hk
  | spawned hl =>
    rw [LruCache.insert_sweep]
    exact LruCache.lookup_insert_other hok.unique hlive hl hroom _

theorem sent_untouched (hok : TableOk some table tasks) (hk : key ≠ k)
    (hr : Sent now key fresh m table tasks r) (ht : tasks[i]? = some t) (hsid : t.sid = some k) :
    r.2.1[i]? = some t ∧ about i (queuedLog m now r.2.2) = [] := by
  cases hr with
  | refused j hl => exact ⟨ht, rfl⟩
  | queued j t' hl ht' =>
    obtain ⟨t₁, ht₁, hsid₁⟩ := hok.lookup hl
    have hij : j ≠ i := by
      rintro rfl
      rw [ht] at ht₁
      cases ht₁
      rw [hsid] at hsid₁
      exact hk (Option.some.inj hsid₁).symm
    exact ⟨by rw [List.getElem?_set_ne hij]; exact ht, about_queuedLog_ne m now hij⟩
  | spawned hl =>
    have hlt := (List.getElem?_eq_some_iff.mp ht).1
    exact ⟨by rw [List.getElem?_append_left hlt]; exact ht, about_queuedLog_ne m now (ne_of_gt hlt)⟩

end

variable {k : UInt64}

theorem sendPacket_untouched {table : LruCache UInt64 Nat} (hs : s.assocMap = .session table)
    (hmap : TableOk some table s.tasks) (hm : ¬ m.For (some k)) (hroom : ∀ x ∈ pushedOutBy s m, x.key ≠ k)
    (ssid : UInt64) (ht : s.tasks[i]? = some t) (hsid : t.sid = some k) :
    Untouched s (s.sendPacket m ssid).1 (s.sendPacket m ssid).2 k i t := by
  rw [UdpServer.sendPacket, hs]
  dsimp only
  split
  · exact ⟨⟨t, ht, rfl, rfl, fun _ => rfl⟩, fun h => h, rfl⟩
  rename_i control hc
  have hk : control.clientSessionId ≠ k := by
    rintro rfl
    exact hm ((Message.for_some hc).mpr rfl)
  have hsent := sendVia_sent s.now control.clientSessionId m.peerAddr
    (some control.clientSessionId) ssid m table s.tasks
  obtain ⟨hkept, hsilent⟩ := sent_untouched hmap hk hsent ht hsid
  have hlive : s.Live k i → _ := fun h => by
    rw [UdpServer.Live, hs] at h
    refine sent_live hmap hk (fun x hx => hroom x ?_) hsent h
    rwa [pushedOutBy, hs, hc]
  obtain ⟨t', ht', hctx, hqueue, hstatus⟩ := drop_untouched table.values
    (sendVia s.now control.clientSessionId (.create m.peerAddr
      (some control.clientSessionId) ssid) m table s.tasks).1.values hkept
  refine ⟨⟨t', ht', hctx, hqueue, fun h => hstatus ?_⟩, hlive, hsilent⟩
  exact lookup_mem_values (sendVia_table hmap rfl hsent).unique (hlive h)

theorem untouched_same {s s' : UdpServer} (k : UInt64) (ht : s.tasks[i]? = some t) (htasks : s'.tasks = s.tasks)
    (hmap : s'.assocMap = s.assocMap) (hnow : s'.now = s.now) : Untouched s s' [] k i t := by
  refine ⟨⟨t, by rw [htasks]; exact ht, rfl, rfl, fun _ => rfl⟩, fun h => ?_, rfl⟩
  rwa [UdpServer.Live, hmap, hnow]

section

variable {cfg : Config} {s : UdpServer} {log : List Output} {u : ServerUser} {k : UInt64} {i : Nat} {t : Task}

theorem session_of_sid (hinv : Inv cfg s log) (ht : s.tasks[i]? = some t) (hsid : t.sid = some k) :
    ∃ table, s.assocMap = .session table ∧ TableOk some table s.tasks := by
  obtain ⟨acc, hok⟩ : SlotOk cfg.sessionBased i (about i log) (some t) := ht ▸ hinv.slots i
  have hmode := hinv.mode
  rw [← hok.kind, hsid] at hmode
  have hmap := hinv.map
  cases hs : s.assocMap with
  | association table => rw [hs] at hmode; cases hmode
  | session table => rw [hs] at hmap; exact ⟨table, rfl, hmap⟩

theorem step_untouched (hinv : Inv cfg s log) {e : Event} (hsep : Separate cfg u k s e)
    (hp : packetOf cfg s e = some m) (hu : m.user ≠ some u) (ht : s.tasks[i]? = some t) (hsid : t.sid = some k) :
    Untouched s (step cfg s e).1 (step cfg s e).2 k i t := by
  obtain ⟨table, hs, hmap⟩ := session_of_sid hinv ht hsid
  obtain ⟨hown, hroom⟩ := hsep m hp
  have hm : ¬ m.For (some k) := fun h => hu (hown h)
  have hsame : Untouched s s [] k i t := untouched_same k ht rfl rfl rfl
  cases e with
  | elapse duration | cleanup | keepAlive => cases hp
  | recv datagram peerAddr env =>
    simp only [packetOf] at hp
    split at hp
    · rename_i m' hrecv
      cases hp
      simp only [step, hrecv]
      split
      · exact sendPacket_untouched hs hmap hm hroom _ ht hsid
      · exact hsame
    · cases hp
  | workerRecv datagram peerAddr env =>
    simp only [packetOf] at hp
    split at hp
    · rename_i m' hrecv
      cases hp
      simp only [step, hrecv]
      split
      · exact untouched_same k ht rfl rfl rfl
      · exact hsame
    · cases hp
  | takeReceived ssid =>
    obtain ⟨rest, hrec⟩ := head?_eq_some_iff.mp hp
    simp only [step, hrec]
    split
    · rename_i m' rest' _ heq
      cases heq
      have hsent := sendPacket_untouched (s := { s with received := rest }) hs hmap hm hroom ssid ht hsid
      exact ⟨hsent.task, hsent.live, hsent.silent⟩
    · exact hsame
  | task j e =>
    cases e with
    | receive env =>
      obtain ⟨⟨t', m'⟩, hhead, rfl⟩ := Option.map_eq_some_iff.mp hp
      obtain ⟨ht', hrun, queue, hq⟩ := head_eq_some hhead
      obtain ⟨acc, hok⟩ : SlotOk cfg.sessionBased j (about j log) (some t') := ht' ▸ hinv.slots j
      have hfor := (hok.queue m' (by rw [hq]; exact mem_cons_self)).1
      -- the packet belongs to its association's session, which is not `k`
      have hij : j ≠ i := by
        rintro rfl
        rw [ht] at ht'
        cases ht'
        rw [hsid] at hfor
        exact hm hfor
      simp only [step, ht']
      refine ⟨⟨t, by rw [getElem?_set_ne hij]; exact ht, rfl, rfl, fun _ => rfl⟩, fun h => h, ?_⟩
      rw [about_taskLog, if_neg fun h => hij h.symm]
    | outbound v4 source data | socketError v4 | keepaliveTick | cancelled => cases hp

theorem Handles.packet {v : ServerUser} {e : Event} (h : Handles cfg v s e) :
    (∃ m, packetOf cfg s e = some m ∧ m.user = some v) ∨ step cfg s e = (s, []) := by
  cases e with
  | recv datagram peerAddr env | workerRecv datagram peerAddr env =>
    obtain ⟨data, target, control, hv, hdec⟩ := h
    simp only [step, packetOf, recvOnePacket, hdec, Outcome.mapErr_ok, Outcome.ok_bind]
    by_cases hdrop : data.length = 0 ∨ env.clientBlocked = true ∨ env.outboundBlocked = true
    · simp only [if_pos hdrop, ite_self]
      exact .inr trivial
    · simp only [if_neg hdrop]
      exact .inl ⟨_, rfl, hv⟩
  | _ => exact .inl h

end

/-! ## 3. What the association has recorded is the user's -/

def FromQueue (i : Nat) (log : List Output) (addr : SocketAddr) : Prop :=
  ∃ m time, .queued i m time ∈ log ∧ m.peerAddr = addr

theorem FromQueue.mono {log : List Output} {addr : SocketAddr} (h : FromQueue i log addr) (ext : List Output) :
    FromQueue i (log ++ ext) addr := by
  obtain ⟨m, time, hq, hm⟩ := h
  exact ⟨m, time, mem_append_left _ hq, hm⟩

/-- **The association is the user's**: its packets are, and its peer and replies are those of their
sources. -/
structure OwnedBy (u : ServerUser) (i : Nat) (log : List Output) (t : Task) : Prop where
  packets : ∀ m time, .queued i m time ∈ log → m.user = some u
  peer : FromQueue i log t.context.peerAddr
  user : ∀ session, t.context.clientSession = some session → session.clientUser = none ∨ session.clientUser = some u
  socket : ∀ v4, t.context.socket v4 = true →
    ∃ session, t.context.clientSession = some session ∧ session.clientUser = some u
  replies : ∀ r, .reply i r ∈ log →
    (∃ control, r.control = some control ∧ control.user = some u) ∧ FromQueue i log r.peerAddr

section

variable {u : ServerUser} {i : Nat} {log : List Output} {t : Task} {t' : Task} {ext : List Output}

theorem OwnedBy.same (h : OwnedBy u i log t) (hclient : SameClient t.context t'.context)
    (hq : ∀ m time, .queued i m time ∈ ext → m.user = some u)
    (hr : ∀ r, .reply i r ∉ ext) : OwnedBy u i (log ++ ext) t' where
  packets m time hm := by
    rcases mem_append.mp hm with hold | hnew
    · exact h.packets m time hold
    · exact hq m time hnew
  peer := by rw [hclient.peerAddr]; exact h.peer.mono ext
  user := by rw [hclient.clientSession]; exact h.user
  socket v4 hopen := by rw [hclient.clientSession]; exact h.socket v4 (hclient.socket v4 hopen)
  replies r hm := by
    rcases mem_append.mp hm with hold | hnew
    · exact ⟨(h.replies r hold).1, (h.replies r hold).2.mono ext⟩
    · exact absurd hnew (hr r)

theorem OwnedBy.moved (h : OwnedBy u i log t) (hm : m ∈ t.queue)
    (hqueue : ∀ m ∈ t.queue, ∃ time, .queued i m time ∈ log)
    (hpeer : t'.context.peerAddr = t.context.peerAddr ∨ t'.context.peerAddr = m.peerAddr)
    (huser : ∀ session, t'.context.clientSession = some session →
      session.clientUser = none ∨ session.clientUser = some u) (hsocket : ∀ v4, t'.context.socket v4 = true →
      ∃ session, t'.context.clientSession = some session ∧ session.clientUser = some u)
    (hext : ∀ o ∈ ext, ∃ m' target, o = .forward i m' target) :
    OwnedBy u i (log ++ ext) t' where
  packets m time hq := by
    rcases mem_append.mp hq with hold | hnew
    · exact h.packets m time hold
    · obtain ⟨m', target, heq⟩ := hext _ hnew
      cases heq
  peer := by
    obtain ⟨time, hq⟩ := hqueue m hm
    rcases hpeer with hold | hnew
    · rw [hold]
      exact h.peer.mono ext
    · exact ⟨m, time, mem_append_left _ hq, hnew.symm⟩
  user := huser
  socket := hsocket
  replies r hr := by
    rcases mem_append.mp hr with hold | hnew
    · exact ⟨(h.replies r hold).1, (h.replies r hold).2.mono ext⟩
    · obtain ⟨m', target, heq⟩ := hext _ hnew
      cases heq

theorem followPeer_socket (a : UdpAssociationContext) (peerAddr : SocketAddr) (v4 : Bool) :
    (a.followPeer peerAddr).socket v4 = a.socket v4 := by
  unfold UdpAssociationContext.followPeer
  split
  · rfl
  · rfl

theorem followPeer_cases (a : UdpAssociationContext) (peerAddr : SocketAddr) :
    (a.followPeer peerAddr).peerAddr = a.peerAddr ∨ (a.followPeer peerAddr).peerAddr = peerAddr := by
  unfold UdpAssociationContext.followPeer
  split
  · exact .inr rfl
  · exact .inl rfl

theorem OwnedBy.ran (h : OwnedBy u i log t) {acc : List UInt64} {sb : Bool} (hok : TaskOk sb i log acc t)
    (hsid : t.sid = some k) {os : List TaskOutput} (hran : TaskRan acc t t' os) :
    OwnedBy u i (log ++ taskLog i os) t' := by
  cases hran with
  | quiet t' os hclient hqueue hos =>
    have hlog : taskLog i os = [] := filterMap_eq_nil_iff.mpr fun o ho => by rw [hos o ho]
    rw [hlog]
    exact h.same hclient (fun m time hm => by cases hm) fun r hr => by cases hr
  | replied v4 hopen a hclient r hpeer huser =>
    obtain ⟨session, hs, hu⟩ := h.socket v4 hopen
    obtain ⟨control, hc, hcu⟩ := huser session hs
    refine ⟨fun m time hq => ?_, ?_, ?_, fun v4 h4 => ?_, fun r' hr' => ?_⟩
    · rcases mem_concat.mp hq with hold | hnew
      · exact h.packets m time hold
      · cases hnew
    · rw [show a.peerAddr = _ from hclient.peerAddr]
      exact h.peer.mono _
    · exact fun s' hs' => h.user s' (hclient.clientSession ▸ hs')
    · exact ⟨session, by rw [← hs]; exact hclient.clientSession, hu⟩
    rcases mem_concat.mp hr' with hold | hnew
    · exact ⟨(h.replies r' hold).1, (h.replies r' hold).2.mono _⟩
    · cases hnew
      refine ⟨⟨control, hc, hcu.trans hu⟩, ?_⟩
      rw [hpeer]
      exact h.peer.mono _
  | handled m queue hqueue env a sent hd =>
    have hm : m ∈ t.queue := by rw [hqueue]; exact mem_cons_self
    have hin : ∀ m ∈ t.queue, ∃ time, .queued i m time ∈ log := fun m hm => (hok.queue m hm).2
    have hext : ∀ o ∈ taskLog i (sent.toList.map (.forward m)), ∃ m' target, o = .forward i m' target :=
      fun o ho => ⟨m, mem_taskLog_forward ho⟩
    have hfor : m.For (some k) := by rw [← hsid]; exact (hok.queue m hm).1
    cases hd with
    | rejected hrej =>
      refine h.moved hm hin (followPeer_cases _ _) ?_ ?_ hext
      · rw [show (t.context.followPeer m.peerAddr).clientSession = _ from followPeer_session _ _]
        exact h.user
      · intro v4 h4
        rw [show (t.context.followPeer m.peerAddr).socket v4 = _ from followPeer_socket _ _ v4] at h4
        rw [show (t.context.followPeer m.peerAddr).clientSession = _ from followPeer_session _ _]
        exact h.socket v4 h4
    | unchecked hacc hc hsock sent =>
      rw [Message.For, hc] at hfor
      cases hfor
    | accepted hacc hc hnew hwf hpeer hs huser sent =>
      obtain ⟨time, hq⟩ := hin m hm
      have hmu : m.user = some u := h.packets m time hq
      rw [Message.user, hc] at hmu
      refine h.moved hm hin (.inr hpeer) (fun s' hs' => ?_) (fun v4 _ => ⟨_, hs, huser.trans hmu⟩) hext
      rw [show a.clientSession = _ from hs] at hs'
      cases hs'
      exact .inr (huser.trans hmu)

theorem abort_sameClient (t : Task) : SameClient t.context t.abort.context := by
  rw [(abort_context t).1]
  exact .refl _

theorem OwnedBy.step {ip : IpStack} {now : Nat} {sb : Bool} {slot slot' : Option Task} (hslot : SlotOk sb i log slot)
    (h : ∀ t, slot = some t → t.sid = some k → OwnedBy u i log t) {out : List Output}
    (hto : TaskTo ip now i slot slot' out)
    (hout : ∀ m time, .queued i m time ∈ out → m.For (some k) → m.user = some u) :
    ∀ t, slot' = some t → t.sid = some k → OwnedBy u i (log ++ out) t := by
  intro t' ht' hsid
  cases hto with
  | absent => cases ht'
  | spawned m sid hm serverSessionId =>
    cases ht'
    obtain rfl : log = [] := hslot
    obtain rfl : sid = some k := (wellFormed_create m.peerAddr sid serverSessionId).session.symm.trans hsid
    have hmu : m.user = some u := hout m now mem_cons_self hm
    refine ⟨fun m' time hq => ?_, ⟨m, now, mem_cons_self, rfl⟩, fun session hs => ?_, fun v4 h4 => ?_, fun r hr => ?_⟩
    · cases mem_singleton.mp hq
      exact hmu
    · cases hs
      exact .inl rfl
    · cases v4 <;> cases h4
    · cases mem_singleton.mp hr
  | kept t =>
    cases ht'
    rw [append_nil]
    exact h t' rfl hsid
  | aborted t =>
    cases ht'
    rw [abort_sid] at hsid
    exact (h t rfl hsid).same (abort_sameClient t) (fun m time hm => by cases hm) fun r hr => by cases hr
  | queued t m hm =>
    cases ht'
    have hold := h t rfl hsid
    refine hold.same ?_ (fun m' time hq => ?_) fun r hr => ?_
    · exact SameClient.refl _
    · cases mem_singleton.mp hq
      exact hout m now mem_cons_self (by rw [← hsid]; exact hm)
    · cases mem_singleton.mp hr
  | ran t room e =>
    cases ht'
    obtain ⟨acc, hok⟩ := hslot
    have hran := task_ran ip room hok.wellFormed (fun m hm => (hok.queue m hm).1) e
    have hsid' : t.sid = some k := by rw [← (hok.ran hran).1]; exact hsid
    exact (h t rfl hsid').ran hok hsid' hran

end

structure UserInv (cfg : Config) (u : ServerUser) (k : UInt64) (s : UdpServer) (log : List Output) :
    Prop where
  inv : Inv cfg s log
  owned : ∀ (i : Nat) (t : Task), s.tasks[i]? = some t → t.sid = some k → OwnedBy u i (about i log) t

theorem userInv_run {u : ServerUser} {now : Nat} {events : List Event}
    (h : Along (step cfg) (Separate cfg u k) (start cfg now) events) :
    UserInv cfg u k (run (step cfg) (start cfg now) events).1 (run (step cfg) (start cfg now) events).2 := by
  refine run_inv ⟨inv_start cfg now, fun i t ht => by cases ht⟩ (fun s log e hi hsep => ?_) h
  have hok := step_ok hi.inv e
  refine ⟨hok.inv hi.inv, fun i t ht hsid => ?_⟩
  rw [about_append]
  refine OwnedBy.step (hi.inv.slots i) (hi.owned i) (hok.tasks i) (fun m time hq hfor => ?_) t ht hsid
  exact (hsep m (queued_packetOf (mem_about.mp hq).1)).1 hfor

/-- **Users are isolated.** In every run in which no other user's packet carries `k` and none pushes it out, an
association of `k` is untouched by others than `u`, and its replies go to sources of `u`. -/
theorem users_isolated (cfg : Config) (u : ServerUser) (k : UInt64) (now : Nat) (events : List Event)
    (h : Along (step cfg) (Separate cfg u k) (start cfg now) events) (i : Nat) (t : Task)
    (ht : (run (step cfg) (start cfg now) events).1.tasks[i]? = some t) (hsid : t.sid = some k) :
    OwnedBy u i (about i (run (step cfg) (start cfg now) events).2) t ∧ ∀ (e : Event) (v : ServerUser),
        Separate cfg u k (run (step cfg) (start cfg now) events).1 e →
        Handles cfg v (run (step cfg) (start cfg now) events).1 e → v ≠ u →
        Untouched (run (step cfg) (start cfg now) events).1 (step cfg (run (step cfg) (start cfg now) events).1 e).1
          (step cfg (run (step cfg) (start cfg now) events).1 e).2 k i t := by
  have hinv := userInv_run h
  refine ⟨hinv.owned i t ht hsid, fun e v hsep hv hne => ?_⟩
  rcases hv.packet with ⟨m, hp, hm⟩ | hsame
  · exact step_untouched hinv.inv hsep hp (by rw [hm]; exact fun heq => hne (Option.some.inj heq)) ht hsid
  · rw [hsame]
    exact untouched_same k ht rfl rfl rfl

def userOf (b : UInt8) : ServerUser := .new .transparent "user" (keyOf b)

def twoUsers : Config :=
  { someConfig with key := keyOf 9, users := some ⟨[userOf 1, userOf 2]⟩ }

def twoSessions (k : UInt64) : List Event :=
  [.recv (somePacket 1 [keyOf 9] 3 1) (client 1) open₁, .task 0 (.receive open₂),
    .recv (somePacket 2 [keyOf 9] k 2) (client 2) open₁]

theorem users_isolated_two : Along (step twoUsers) (Separate twoUsers (userOf 1) 3) (start twoUsers (100 * nanos))
        (twoSessions 4) ∧
      ∃ t, (run (step twoUsers) (start twoUsers (100 * nanos)) (twoSessions 4)).1.tasks[0]? = some t ∧
        OwnedBy (userOf 1) 0 (about 0 (run (step twoUsers) (start twoUsers (100 * nanos)) (twoSessions 4)).2) t ∧
        Untouched (run (step twoUsers) (start twoUsers (100 * nanos)) (twoSessions 4)).1
          (step twoUsers (run (step twoUsers) (start twoUsers (100 * nanos)) (twoSessions 4)).1
            (.task 1 (.receive open₂))).1
          (step twoUsers (run (step twoUsers) (start twoUsers (100 * nanos)) (twoSessions 4)).1
            (.task 1 (.receive open₂))).2 3 0 t := by
  have halong : Along (step twoUsers) (Separate twoUsers (userOf 1) 3) (start twoUsers (100 * nanos))
      (twoSessions 4) := by decide +kernel
  have hsid : (run (step twoUsers) (start twoUsers (100 * nanos)) (twoSessions 4)).1.tasks[0]?.map Task.sid
      = some (some 3) := by decide +kernel
  obtain ⟨t, ht, hk⟩ := Option.map_eq_some_iff.mp hsid
  obtain ⟨howned, hstep⟩ := users_isolated twoUsers (userOf 1) 3 (100 * nanos) (twoSessions 4) halong 0 t ht hk
  have hpacket : (packetOf twoUsers (run (step twoUsers) (start twoUsers (100 * nanos)) (twoSessions 4)).1
      (.task 1 (.receive open₂))).map Message.user = some (some (userOf 2)) := by decide +kernel
  obtain ⟨m, hm, hu⟩ := Option.map_eq_some_iff.mp hpacket
  exact ⟨halong, t, ht, howned, hstep _ (userOf 2) (by decide +kernel) ⟨m, hm, hu⟩ (by decide)⟩

/-- **A user that takes another's session id** takes over its association; and a full table aborts another's. -/
theorem users_interfere : (packetOf twoUsers (run (step twoUsers) (start twoUsers (100 * nanos)) (twoSessions 3)).1
        (.task 0 (.receive open₂))).map Message.user = some (some (userOf 2)) ∧
      (run (step twoUsers) (start twoUsers (100 * nanos)) (twoSessions 3)).1.recorded.map
        (fun x => (x.1, x.2.1)) = [(client 1, some (userOf 1))] ∧
      (step twoUsers (run (step twoUsers) (start twoUsers (100 * nanos)) (twoSessions 3)).1
        (.task 0 (.receive open₂))).1.recorded.map (fun x => (x.1, x.2.1)) = [(client 2, some (userOf 2))] ∧
      (run (step { twoUsers with capacity := some 1 }) (start { twoUsers with capacity := some 1 }
        (100 * nanos)) (twoSessions 4)).1.tasks.map Task.status = [.aborted, .running] := by
  refine ⟨?_, ?_, ?_, ?_⟩ <;> decide +kernel

end Shadowsocks.Server
