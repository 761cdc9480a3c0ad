/-
  Subject:   THE REACHABLE STATES OF THE UDP SERVER, and what it does with rejected packets.
-/
import Shadowsocks.Server.Steps

namespace Shadowsocks.Server

open Lib Udp PacketWindow List Outcome

/-! ## 1. Every reachable state -/

def hasControl : CipherKind → Bool
  | .aead2022 _ => true
  | _ => false

def Config.sessionBased (cfg : Config) : Bool := hasControl cfg.kind

variable {cfg : Config} {m : Message} {datagram : Bytes} {env : RecvEnv} {peerAddr : SocketAddr} {now : Nat}

theorem recvOnePacket_ok (h : recvOnePacket cfg now datagram peerAddr env = .ok m) :
    decryptClientPayload cfg.kind (wallClock now) cfg.key datagram cfg.users =
        .ok (m.data, m.targetAddr, m.control) ∧ m.peerAddr = peerAddr ∧ m.origin = ⟨datagram, now⟩ ∧
      env.clientBlocked = false ∧ env.outboundBlocked = false := by
  obtain ⟨⟨data, targetAddr, control⟩, hdec, hrest⟩ := bind_ok_iff.mp h
  rw [mapErr_ok_iff] at hdec
  dsimp only at hrest
  split at hrest
  · cases hrest
  · rename_i hno
    cases hrest
    simp only [not_or, Bool.not_eq_true] at hno
    exact ⟨hdec, rfl, rfl, hno.2⟩

theorem decryptClientPayload_control {K : CipherKind} {now : UInt64} {key payload data : Bytes}
    {users : Option ServerUserManager} {addr : Address} {control : Option UdpSocketControlData}
    (h : decryptClientPayload K now key payload users = .ok (data, addr, control)) :
    control.isSome = hasControl K := by
  cases K with
  | none | stream M | aead M | aead2022 M => obtain ⟨x, -, hx⟩ := map_ok_iff.mp h; cases hx; rfl

theorem recvOnePacket_fits (h : recvOnePacket cfg now datagram peerAddr env = .ok m) :
    m.Fits cfg.sessionBased :=
  decryptClientPayload_control (recvOnePacket_ok h).1

def NatKey.Fits : NatKey → Bool → Prop
  | .peerAddr _, sessionBased => sessionBased = false
  | .sessionId _, sessionBased => sessionBased = true

def forwardedIds (log : List Output) : List UInt64 :=
  log.filterMap fun
    | .forward _ m _ => m.control.map (·.packetId)
    | _ => none

/-- **An association and its log**: each forwarded id was accepted, once, and queued before. -/
structure TaskOk (sessionBased : Bool) (i : Nat) (log : List Output) (acc : List UInt64) (t : Task) :
    Prop where
  kind : t.sid.isSome = sessionBased
  wellFormed : WellFormed t.sid acc t.context
  queue : ∀ m ∈ t.queue, m.For t.sid ∧ ∃ time, .queued i m time ∈ log
  forwarded : ∀ m target, .forward i m target ∈ log → ∃ time, .queued i m time ∈ log
  nodup : (forwardedIds log).Nodup
  subset : forwardedIds log ⊆ acc
  sameSession : ∀ m time, .queued i m time ∈ log → m.For t.sid

def SlotOk (sessionBased : Bool) (i : Nat) (log : List Output) : Option Task → Prop
  | none => log = []
  | some t => ∃ acc, TaskOk sessionBased i log acc t

structure Inv (cfg : Config) (s : UdpServer) (log : List Output) : Prop where
  mode : s.assocMap.sessionBased = cfg.sessionBased
  map : s.assocMap.Ok s.tasks
  received : ∀ m ∈ s.received, m.Fits cfg.sessionBased
  keepalive : ∀ key ∈ s.keepalive, key.Fits cfg.sessionBased
  slots : ∀ i, SlotOk cfg.sessionBased i (about i log) s.tasks[i]?

theorem inv_start (cfg : Config) (now : Nat) : Inv cfg (start cfg now) [] where
  mode := by
    unfold start Config.sessionBased
    cases cfg.kind <;> rfl
  map := by
    have hempty {K : Type} (sidOf : K → Option UInt64) :
        TableOk sidOf (createAssocMap cfg.ttl cfg.capacity) [] := by
      unfold createAssocMap
      cases cfg.capacity with
      | none => exact ⟨nodup_nil, by simp [LruCache.withExpiryDuration]⟩
      | some cap => exact ⟨nodup_nil, by simp [LruCache.withExpiryDurationAndCapacity]⟩
    unfold start
    cases cfg.kind <;> exact hempty _
  received := by simp [start]
  keepalive := by simp [start]
  slots i := rfl

section

variable {sb : Bool} {ip : IpStack} {now i : Nat} {log : List Output}

theorem forwardedIds_append (log log' : List Output) :
    forwardedIds (log ++ log') = forwardedIds log ++ forwardedIds log' := filterMap_append ..

variable {acc : List UInt64}

theorem TaskOk.same {t t' : Task} (h : TaskOk sb i log acc t)
    (hs : t'.context.clientSession = t.context.clientSession) (hqueue : t'.queue ⊆ t.queue) {ext : List Output}
    (hext : ∀ o ∈ ext, (∃ r, o = .reply i r) ∨ ∃ m target, o = .forward i m target ∧ m.control = none ∧ m ∈ t.queue) :
    TaskOk sb i (log ++ ext) acc t' := by
  have hsid : t'.sid = t.sid := by rw [Task.sid, hs]; rfl
  have hids : forwardedIds (log ++ ext) = forwardedIds log := by
    rw [forwardedIds_append, show forwardedIds ext = [] from ?_, append_nil]
    refine filterMap_eq_nil_iff.mpr fun o ho => ?_
    rcases hext o ho with ⟨r, rfl⟩ | ⟨m, target, rfl, hc, -⟩
    · rfl
    · simp [hc]
  refine ⟨by rw [hsid]; exact h.kind, by rw [hsid]; exact h.wellFormed.congr hs, fun m hm => ?_,
    fun m target hf => ?_, by rw [hids]; exact h.nodup, by rw [hids]; exact h.subset, fun m time hq => ?_⟩
  · obtain ⟨hfor, time, hq⟩ := h.queue m (hqueue hm)
    exact ⟨by rw [hsid]; exact hfor, time, mem_append_left _ hq⟩
  · rcases mem_append.mp hf with hold | hnew
    · obtain ⟨time, hq⟩ := h.forwarded m target hold
      exact ⟨time, mem_append_left _ hq⟩
    rcases hext _ hnew with ⟨r, hr⟩ | ⟨m', target', heq, -, hm'⟩
    · cases hr
    · cases heq
      obtain ⟨-, time, hq⟩ := h.queue m hm'
      exact ⟨time, mem_append_left _ hq⟩
  rcases mem_append.mp hq with hold | hnew
  · rw [hsid]
    exact h.sameSession m time hold
  · rcases hext _ hnew with ⟨r, hr⟩ | ⟨m', target', heq, -, -⟩
    · cases hr
    · cases heq

theorem mem_taskLog_forward {sent : Option SocketAddr} {o : Output} (h : o ∈ taskLog i (sent.toList.map (.forward m))) :
    ∃ target, o = .forward i m target := by
  cases sent with
  | none => cases h
  | some target => exact ⟨target, mem_singleton.mp h⟩

theorem TaskOk.accepted {t : Task} (h : TaskOk sb i log acc t) {queue : List Message} (hqueue : t.queue = m :: queue)
    {control : UdpSocketControlData} (hc : m.control = some control) (hnew : control.packetId ∉ acc)
    {a : UdpAssociationContext} (hwf : WellFormed t.sid (control.packetId :: acc) a) (sent : Option SocketAddr) :
    TaskOk sb i (log ++ taskLog i (sent.toList.map (.forward m))) (control.packetId :: acc)
      { t with context := a, queue := queue } := by
  have hsid : Task.sid { t with context := a, queue := queue } = t.sid := hwf.session
  have hm := h.queue m (by rw [hqueue]; exact mem_cons_self)
  have hids : forwardedIds (log ++ taskLog i (sent.toList.map (.forward m))) =
      forwardedIds log ++ (sent.toList.map fun _ => control.packetId) := by
    rw [forwardedIds_append]
    cases sent with
    | none => rfl
    | some target => simp [taskLog, forwardedIds, hc]
  refine ⟨by rw [hsid]; exact h.kind, by rw [hsid]; exact hwf, fun m' hm' => ?_,
    fun m' target hf => ?_, ?_, ?_, fun m' time hq => ?_⟩
  · obtain ⟨hfor, time, hq⟩ := h.queue m' (by rw [hqueue]; exact mem_cons_of_mem _ hm')
    exact ⟨by rw [hsid]; exact hfor, time, mem_append_left _ hq⟩
  · rcases mem_append.mp hf with hold | hlast
    · obtain ⟨time, hq⟩ := h.forwarded m' target hold
      exact ⟨time, mem_append_left _ hq⟩
    · obtain ⟨target', heq⟩ := mem_taskLog_forward hlast
      cases heq
      obtain ⟨-, time, hq⟩ := hm
      exact ⟨time, mem_append_left _ hq⟩
  · rw [hids]
    refine nodup_append.mpr ⟨h.nodup, by cases sent <;> simp, fun x hx y hy => ?_⟩
    obtain ⟨-, -, rfl⟩ := mem_map.mp hy
    exact fun e => hnew (e ▸ h.subset hx)
  · rw [hids]
    refine append_subset.mpr ⟨fun x hx => mem_cons_of_mem _ (h.subset hx), fun y hy => ?_⟩
    obtain ⟨-, -, rfl⟩ := mem_map.mp hy
    exact mem_cons_self
  rcases mem_append.mp hq with hold | hlast
  · rw [hsid]
    exact h.sameSession m' time hold
  · obtain ⟨target', heq⟩ := mem_taskLog_forward hlast
    cases heq

theorem TaskOk.ran {t : Task} (h : TaskOk sb i log acc t) {t' : Task} {os : List TaskOutput}
    (hran : TaskRan acc t t' os) : t'.sid = t.sid ∧ ∃ acc', TaskOk sb i (log ++ taskLog i os) acc' t' := by
  have hsidOf {t' : Task} (hs : t'.context.clientSession = t.context.clientSession) : t'.sid = t.sid := by
    rw [Task.sid, hs]; rfl
  cases hran with
  | quiet t' os hclient hqueue hos =>
    refine ⟨hsidOf hclient.clientSession, acc, h.same hclient.clientSession hqueue fun o ho => ?_⟩
    obtain ⟨x, hx, heq⟩ := mem_filterMap.mp ho
    rw [hos x hx] at heq
    cases heq
  | replied v4 hopen a hclient r hpeer huser =>
    refine ⟨hsidOf hclient.clientSession, acc, h.same ?_ ?_ ?_⟩
    · exact hclient.clientSession
    · exact List.Subset.refl _
    · exact fun o ho => .inl ⟨r, mem_singleton.mp ho⟩
  | handled m queue hqueue env a sent hd =>
    have hsub : queue ⊆ t.queue := by rw [hqueue]; exact subset_cons_self _ _
    cases hd with
    | rejected hrej =>
      have hs := followPeer_session t.context m.peerAddr
      exact ⟨hsidOf hs, acc, h.same hs hsub fun o ho => by cases ho⟩
    | unchecked hacc hc hsock sent =>
      have hs := hsock.clientSession.trans (followPeer_session t.context m.peerAddr)
      refine ⟨hsidOf hs, acc, h.same hs hsub fun o ho => ?_⟩
      obtain ⟨target, rfl⟩ := mem_taskLog_forward ho
      exact .inr ⟨m, target, rfl, hc, by rw [hqueue]; exact mem_cons_self⟩
    | accepted hacc hc hnew hwf hpeer hs huser sent =>
      exact ⟨hwf.session, _, h.accepted hqueue hc hnew hwf sent⟩

theorem SlotOk.step {slot slot' : Option Task} (h : SlotOk sb i log slot) {out : List Output}
    (hto : TaskTo ip now i slot slot' out) (hsb : ∀ m, .queued i m now ∈ out → m.Fits sb) :
    SlotOk sb i (log ++ out) slot' ∧ ∀ t, slot = some t → slot'.map Task.sid = some t.sid := by
  cases hto with
  | absent => exact ⟨by rw [append_nil]; exact h, fun t ht => by cases ht⟩
  | spawned m sid hm serverSessionId =>
    obtain rfl : log = [] := h
    have hwf := wellFormed_create m.peerAddr sid serverSessionId
    have hkind : sid.isSome = sb := by
      rw [← hm, Option.isSome_map]
      exact hsb m mem_cons_self
    have hsid : Task.sid { Task.create m.peerAddr sid serverSessionId with queue := [m] } = sid :=
      hwf.session
    refine ⟨⟨[], by rw [hsid]; exact hkind, by rw [hsid]; exact hwf, ?_, ?_, ?_, ?_, ?_⟩, fun t ht => by cases ht⟩
    · intro m' hm'
      rw [mem_singleton.mp hm', hsid]
      exact ⟨hm, now, mem_cons_self⟩
    · intro m' target hf
      cases mem_singleton.mp hf
    · exact nodup_nil
    · exact nil_subset _
    · intro m' time hq
      cases mem_singleton.mp hq
      rwa [hsid]
  | kept t =>
    rw [append_nil]
    exact ⟨h, fun t' ht => by cases ht; rfl⟩
  | aborted t =>
    obtain ⟨acc, hok⟩ := h
    have hctx : t.abort.context = t.context ∧ t.abort.queue = t.queue := by
      unfold Task.abort
      split
      · exact ⟨rfl, rfl⟩
      · exact ⟨rfl, rfl⟩
    refine ⟨⟨acc, hok.same (by rw [hctx.1]) (by rw [hctx.2]; exact List.Subset.refl _) (by simp)⟩, fun t' ht => ?_⟩
    cases ht
    simp [abort_sid]
  | queued t m hm =>
    obtain ⟨acc, hok⟩ := h
    refine ⟨⟨acc, hok.kind, hok.wellFormed, ?_, ?_, ?_, ?_, ?_⟩, fun t' ht => by cases ht; rfl⟩
    · intro m' hm'
      rcases mem_concat.mp hm' with hold | rfl
      · obtain ⟨hfor, time, hq⟩ := hok.queue m' hold
        exact ⟨hfor, time, mem_append_left _ hq⟩
      · exact ⟨hm, now, mem_append_right _ mem_cons_self⟩
    · intro m' target hf
      rcases mem_concat.mp hf with hold | hnew
      · obtain ⟨time, hq⟩ := hok.forwarded m' target hold
        exact ⟨time, mem_append_left _ hq⟩
      · cases hnew
    · rw [forwardedIds_append]
      exact (append_nil (forwardedIds log)).symm ▸ hok.nodup
    · rw [forwardedIds_append]
      exact (append_nil (forwardedIds log)).symm ▸ hok.subset
    intro m' time hq
    rcases mem_concat.mp hq with hold | hnew
    · exact hok.sameSession m' time hold
    · cases hnew
      exact hm
  | ran t room e =>
    obtain ⟨acc, hok⟩ := h
    have hran := task_ran ip room hok.wellFormed (fun m hm => (hok.queue m hm).1) e
    obtain ⟨hsid, acc', hok'⟩ := hok.ran hran
    refine ⟨⟨acc', hok'⟩, fun t' ht => ?_⟩
    cases ht
    rw [← hsid]
    rfl

end

structure StepOk (cfg : Config) (s s' : UdpServer) (out : List Output) : Prop where
  mode : s'.assocMap.sessionBased = s.assocMap.sessionBased
  map : (∀ (i : Nat) (t : Task), s.tasks[i]? = some t → s'.tasks[i]?.map Task.sid = some t.sid) →
    s'.assocMap.Ok s'.tasks
  received : ∀ m ∈ s'.received, m.Fits cfg.sessionBased
  keepalive : ∀ key ∈ s'.keepalive, key.Fits cfg.sessionBased
  tasks : ∀ i, TaskTo cfg.ip s.now i s.tasks[i]? s'.tasks[i]? (about i out)
  queued : ∀ i m time, .queued i m time ∈ out → time = s.now ∧ m.Fits cfg.sessionBased

variable {s : UdpServer} {s' : UdpServer}

theorem StepOk.inv {log out : List Output} (h : Inv cfg s log) (hs : StepOk cfg s s' out) :
    Inv cfg s' (log ++ out) := by
  have hslots (i : Nat) := (h.slots i).step (hs.tasks i)
    fun m hq => (hs.queued i m s.now (mem_about.mp hq).1).2
  exact ⟨hs.mode.trans h.mode, hs.map fun i t ht => (hslots i).2 t ht, hs.received, hs.keepalive,
    fun i => by rw [about_append]; exact (hslots i).1⟩

section

variable {cfg : Config} {s : UdpServer} {log : List Output}

theorem taskTo_same (ip : IpStack) (now : Nat) (tasks : List Task) (i : Nat) :
    TaskTo ip now i tasks[i]? tasks[i]? [] := by
  cases tasks[i]? with
  | none => exact .absent
  | some t => exact .kept t

theorem stepOk_same (h : Inv cfg s log) (hmap : s'.assocMap = s.assocMap)
    (htasks : s'.tasks = s.tasks) (hrec : ∀ m ∈ s'.received, m.Fits cfg.sessionBased)
    (hkeep : s'.keepalive = s.keepalive) : StepOk cfg s s' [] where
  mode := by rw [hmap]
  map _ := by rw [hmap, htasks]; exact h.map
  received := hrec
  keepalive := by rw [hkeep]; exact h.keepalive
  tasks i := by rw [htasks]; exact taskTo_same ..
  queued i m time hq := by cases hq

theorem stepOk_setMap (h : Inv cfg s log) {keys : List NatKey} (hkeys : keys ⊆ s.keepalive) {map : NatMap}
    (hmap : map.Ok s.tasks) (hmode : map.sessionBased = s.assocMap.sessionBased) :
    StepOk cfg s ({ s with keepalive := keys }.setMap map) [] where
  mode := hmode
  map _ := hmap.mono fun _ _ ht => dropAssociations_sid ht
  received := h.received
  keepalive key hk := h.keepalive key (hkeys hk)
  tasks i := taskTo_drop ..
  queued i m time hq := by cases hq

theorem stepOk_crash (h : Inv cfg s log) : StepOk cfg s s.crash [] where
  mode := rfl
  map hsid := h.map.mono hsid
  received := h.received
  keepalive := h.keepalive
  tasks i := by
    show TaskTo _ _ _ _ (s.tasks.map Task.abort)[i]? _
    rw [getElem?_map]
    cases s.tasks[i]? with
    | none => exact .absent
    | some t => exact .aborted t
  queued i m time hq := by cases hq

theorem sendPacket_queued {m' : Message} {ssid : UInt64} {i time : Nat}
    (h : .queued i m' time ∈ (s.sendPacket m ssid).2) : m' = m ∧ time = s.now := by
  unfold UdpServer.sendPacket at h
  split at h
  · obtain ⟨j, -, heq⟩ := mem_map.mp h
    cases heq
    exact ⟨rfl, rfl⟩
  split at h
  · cases h
  · obtain ⟨j, -, heq⟩ := mem_map.mp h
    cases heq
    exact ⟨rfl, rfl⟩

theorem sendPacket_rest (m : Message) (ssid : UInt64) :
    (s.sendPacket m ssid).1.received = s.received ∧ (s.sendPacket m ssid).1.keepalive = s.keepalive ∧
      (s.sendPacket m ssid).1.now = s.now := by
  unfold UdpServer.sendPacket
  split
  · exact ⟨rfl, rfl, rfl⟩
  · split
    · exact ⟨rfl, rfl, rfl⟩
    · exact ⟨rfl, rfl, rfl⟩

theorem stepOk_send (h : Inv cfg s log) {received : List Message} (hrec : received ⊆ s.received)
    (hm : m.Fits cfg.sessionBased) (ssid : UInt64) :
    StepOk cfg s ({ s with received := received }.sendPacket m ssid).1
      ({ s with received := received }.sendPacket m ssid).2 := by
  have hspec := sendPacket_spec (s := { s with received := received }) cfg.ip h.map
    (show m.Fits s.assocMap.sessionBased by rw [h.mode]; exact hm) ssid
  obtain ⟨hr, hk, -⟩ := sendPacket_rest (s := { s with received := received }) m ssid
  refine ⟨hspec.2.1, fun _ => hspec.1, ?_, ?_, hspec.2.2, fun i m' time hq => ?_⟩
  · rw [hr]
    exact fun m' hm' => h.received m' (hrec hm')
  · rw [hk]
    exact h.keepalive
  · obtain ⟨rfl, rfl⟩ := sendPacket_queued hq
    exact ⟨rfl, hm⟩

theorem natKey_fits {t : Task} {sb : Bool} (h : t.sid.isSome = sb) : t.context.natKey.Fits sb := by
  unfold UdpAssociationContext.natKey
  unfold Task.sid at h
  cases hs : t.context.clientSession with
  | none | some session => rw [hs] at h; exact h.symm

theorem keepaliveKeys_ran {acc : List UInt64} {t t' : Task} {os : List TaskOutput}
    (h : TaskRan acc t t' os) : ∀ key ∈ keepaliveKeys os, key = t.context.natKey := by
  intro key hk
  obtain ⟨o, ho, heq⟩ := mem_filterMap.mp hk
  cases h with
  | quiet t' os hclient hqueue hos =>
    rw [hos o ho] at heq
    cases heq
    rfl
  | replied v4 hopen a hclient r hpeer huser =>
    rw [mem_singleton.mp ho] at heq
    cases heq
  | handled m queue hqueue env a sent hd =>
    obtain ⟨target, -, rfl⟩ := mem_map.mp ho
    cases heq

theorem stepOk_task (h : Inv cfg s log) {i : Nat} {t : Task} (ht : s.tasks[i]? = some t) (room : Bool)
    (e : TaskEvent) :
    StepOk cfg s { s with tasks := s.tasks.set i (t.step cfg.ip room e).1,
                          keepalive := s.keepalive ++ keepaliveKeys (t.step cfg.ip room e).2 }
      (taskLog i (t.step cfg.ip room e).2) where
  mode := rfl
  map hsid := h.map.mono hsid
  received := h.received
  keepalive key hk := by
    obtain ⟨acc, hok⟩ : SlotOk cfg.sessionBased i (about i log) (some t) := ht ▸ h.slots i
    rcases mem_append.mp hk with hold | hnew
    · exact h.keepalive key hold
    · have hran := task_ran cfg.ip room hok.wellFormed (fun m hm => (hok.queue m hm).1) e
      rw [keepaliveKeys_ran hran key hnew]
      exact natKey_fits hok.kind
  tasks j := by
    rw [about_taskLog]
    by_cases hij : j = i
    · subst hij
      rw [if_pos rfl, ht]
      rw [List.getElem?_set_self (List.getElem?_eq_some_iff.mp ht).1]
      exact .ran t room e
    · rw [if_neg hij]
      rw [List.getElem?_set_ne fun e => hij e.symm]
      exact taskTo_same ..
  queued j m time hq := by
    obtain ⟨o, -, heq⟩ := mem_filterMap.mp hq
    cases o <;> cases heq

theorem step_ok (h : Inv cfg s log) (e : Event) : StepOk cfg s (step cfg s e).1 (step cfg s e).2 := by
  have hsame : StepOk cfg s s [] := stepOk_same h rfl rfl h.received rfl
  unfold step
  cases e with
  | elapse duration => exact stepOk_same h rfl rfl h.received rfl
  | cleanup =>
    dsimp only
    split
    · refine stepOk_setMap h (List.Subset.refl _) (h.map.cleanupExpired s.now) ?_
      cases s.assocMap <;> rfl
    · exact hsame
  | keepAlive =>
    dsimp only
    split
    · rename_i key keys _ hkeys
      split
      · rename_i map hmap
        obtain ⟨hok, hmode⟩ := h.map.keepAlive hmap
        exact stepOk_setMap h (by rw [hkeys]; exact subset_cons_self _ _) hok hmode
      · rename_i e _
        exact e.elim
      · exact stepOk_crash h
    · exact hsame
  | recv datagram peerAddr env =>
    dsimp only
    split
    · split
      · rename_i m hm
        exact stepOk_send h (List.Subset.refl _) (recvOnePacket_fits hm) _
      · exact hsame
      · exact stepOk_crash h
    · exact hsame
  | workerRecv datagram peerAddr env =>
    dsimp only
    split
    · split
      · rename_i m hm
        refine stepOk_same h rfl rfl (fun m' hm' => ?_) rfl
        rcases mem_concat.mp hm' with hold | rfl
        · exact h.received m' hold
        · exact recvOnePacket_fits hm
      · exact hsame
      · exact stepOk_crash h
    · exact hsame
  | takeReceived ssid =>
    dsimp only
    split
    · rename_i m received _ hrec
      exact stepOk_send h (by rw [hrec]; exact subset_cons_self _ _)
        (h.received m (by rw [hrec]; exact mem_cons_self)) ssid
    · exact hsame
  | task i e =>
    dsimp only
    split
    · exact hsame
    · rename_i t ht
      exact stepOk_task h ht _ e

end

theorem reachable_inv (cfg : Config) (now : Nat) (events : List Event) :
    Inv cfg (run (step cfg) (start cfg now) events).1 (run (step cfg) (start cfg now) events).2 :=
  run_inv_always (inv_start cfg now) (fun _ _ e h => (step_ok h e).inv h) events

theorem keepAlive_total {log : List Output} (h : Inv cfg s log) {key : NatKey} (hk : key ∈ s.keepalive) :
    s.assocMap.keepAlive s.now key ≠ .panic := by
  have hfits := h.keepalive key hk
  rw [← h.mode] at hfits
  cases hs : s.assocMap with
  | association table =>
    rw [hs] at hfits
    cases key with
    | peerAddr addr => exact fun e => by cases e
    | sessionId id => cases hfits
  | session table =>
    rw [hs] at hfits
    cases key with
    | peerAddr addr => cases hfits
    | sessionId id => exact fun e => by cases e

/-- **Keys and packets fit the table in every run**: a keep-alive finds the table it is for (`unreachable!` is not
reached), and no packet lacks the session it is to be filed under. -/
theorem kinds_agree (cfg : Config) (now : Nat) (events : List Event) :
    let s := (run (step cfg) (start cfg now) events).1
    (∀ key ∈ s.keepalive, s.assocMap.keepAlive s.now key ≠ .panic) ∧
      ∀ m ∈ s.received, m.control.isSome = s.assocMap.sessionBased := by
  have hinv := reachable_inv cfg now events
  exact ⟨fun key hk => keepAlive_total hinv hk, fun m hm => (hinv.received m hm).trans hinv.mode.symm⟩

/-! ## 2. Rejected packets -/

def UdpServer.recorded (s : UdpServer) :
    List (SocketAddr × Option ServerUser × Option PacketWindowFilter) :=
  s.tasks.map fun t => t.context.recorded

def UdpServer.head (s : UdpServer) (i : Nat) : Option (Task × Message) :=
  match s.tasks[i]? with
  | some t => if t.status = .finished then none else t.queue.head?.map (t, ·)
  | none => none

def RejectsPacket (cfg : Config) (s : UdpServer) : Event → Prop
  | .recv datagram _ env | .workerRecv datagram _ env =>
    (∃ packet, decryptClientPayload cfg.kind (wallClock s.now) cfg.key datagram cfg.users = .ok packet) ∧
      (env.clientBlocked = true ∨ env.outboundBlocked = true)
  | .task i (.receive env) => ∃ x, s.head i = some x ∧ Rejected x.1.context x.2 env
  | _ => False

def FromRecordedPeer (s : UdpServer) : Event → Prop
  | .task i (.receive _) =>
    ∀ x, s.head i = some x → x.1.context.clientSession = none ∨ x.2.peerAddr = x.1.context.peerAddr
  | _ => True

variable {i : Nat}

theorem head_eq_some {t : Task} (h : s.head i = some (t, m)) :
    s.tasks[i]? = some t ∧ t.status ≠ .finished ∧ ∃ queue, t.queue = m :: queue := by
  unfold UdpServer.head at h
  split at h
  · rename_i t' ht
    split at h
    · cases h
    · rename_i hrun
      obtain ⟨m', hm, heq⟩ := Option.map_eq_some_iff.mp h
      cases heq
      exact ⟨ht, hrun, head?_eq_some_iff.mp hm⟩
  · cases h

theorem recvOnePacket_blocked (peerAddr : SocketAddr) {packet : Bytes × Address × Option UdpSocketControlData}
    (hdec : decryptClientPayload cfg.kind (wallClock now) cfg.key datagram cfg.users = .ok packet)
    (hblocked : env.clientBlocked = true ∨ env.outboundBlocked = true) :
    recvOnePacket cfg now datagram peerAddr env = .err () := by
  rw [recvOnePacket, hdec, mapErr_ok, ok_bind]
  dsimp only
  rw [if_pos (.inr hblocked)]

variable {env : DispatchEnv}

theorem step_receive {t : Task} {queue : List Message} {a : UdpAssociationContext}
    {sent : Option SocketAddr} (ht : s.tasks[i]? = some t) (hrun : t.status ≠ .finished) (hq : t.queue = m :: queue)
    (hd : dispatchReceivedPacket cfg.ip t.context m env = .ok (a, sent)) :
    (step cfg s (.task i (.receive env))).1.tasks = s.tasks.set i { t with context := a, queue := queue } := by
  obtain ⟨context, queue', status⟩ := t
  obtain rfl : queue' = m :: queue := hq
  cases status with
  | finished => exact absurd rfl hrun
  | running | aborted => simp only [step, ht, Task.step, hd]

theorem map_set_eq_iff {α β : Type} (f : α → β) {l : List α} {x y : α} (h : l[i]? = some x) :
    (l.set i y).map f = l.map f ↔ f y = f x := by
  obtain ⟨hi, rfl⟩ := List.getElem?_eq_some_iff.mp h
  constructor
  · intro heq
    have hat := congrArg (·[i]?) heq
    simpa [hi] using hat
  · intro heq
    rw [map_set, heq, ← map_set, set_getElem_self]

/-- **Rejected packets** leave peer, user and window of all associations exactly if none with a session is reached, or
from its peer. -/
theorem rejected_unchanged_iff (cfg : Config) (now : Nat) (events : List Event) (e : Event)
    (hrej : RejectsPacket cfg (run (step cfg) (start cfg now) events).1 e) :
    (step cfg (run (step cfg) (start cfg now) events).1 e).1.recorded =
        (run (step cfg) (start cfg now) events).1.recorded ↔
      FromRecordedPeer (run (step cfg) (start cfg now) events).1 e := by
  have hinv := reachable_inv cfg now events
  cases e with
  | recv datagram peerAddr env | workerRecv datagram peerAddr env =>
    obtain ⟨⟨packet, hdec⟩, hblocked⟩ := hrej
    simp [step, recvOnePacket_blocked peerAddr hdec hblocked, FromRecordedPeer]
  | task i e =>
    cases e with
    | receive env =>
      obtain ⟨⟨t, m⟩, hhead, hrej⟩ := hrej
      obtain ⟨ht, hrun, queue, hq⟩ := head_eq_some hhead
      obtain ⟨acc, hok⟩ : SlotOk cfg.sessionBased i _ (some t) := ht ▸ hinv.slots i
      have hm := (hok.queue m (by rw [hq]; exact mem_cons_self)).1
      obtain ⟨hdisp, hiff⟩ := dispatch_rejected cfg.ip hok.wellFormed hm hrej
      rw [UdpServer.recorded, UdpServer.recorded, step_receive ht hrun hq hdisp, map_set_eq_iff _ ht]
      refine hiff.trans ⟨fun h x hx => ?_, fun h => h (t, m) hhead⟩
      rw [hhead] at hx
      cases hx
      exact h
    | _ => exact hrej.elim
  | _ => exact hrej.elim

def somePacket (key : UInt8) (identityKeys : List Bytes) (sessionId packetId : UInt64) : Bytes :=
  match encryptClientPayload (ε := Empty) (.aead2022 taggedMethod) env₀ (keyOf key)
    (.socketAddress (.v4 ⟨8, 53⟩)) ⟨sessionId, 0, packetId, none⟩ identityKeys [7] with
  | .ok packet => packet
  | _ => []

def client (n : UInt32) : SocketAddr := .v4 ⟨n, 1000⟩

def someConfig : Config :=
  ⟨.aead2022 taggedMethod, keyOf 1, none, none, none, ⟨true, false, false⟩, 0⟩

def open₁ : RecvEnv := ⟨false, false, 5⟩

def open₂ : DispatchEnv := ⟨false, ⟨true, true⟩, none⟩

def replayFrom (peer : SocketAddr) : List Event :=
  [.recv (somePacket 1 [] 3 1) (client 1) open₁, .task 0 (.receive open₂), .recv (somePacket 1 [] 3 1) peer open₁]

theorem rejects_of_any (h : (s.head i).any (fun x => decide (Rejected x.1.context x.2 env)) = true) :
    RejectsPacket cfg s (.task i (.receive env)) := by
  cases hx : s.head i with
  | none => rw [hx] at h; cases h
  | some x => rw [hx] at h; exact ⟨x, hx, of_decide_eq_true h⟩

theorem rejected_unchanged_replay : RejectsPacket someConfig (run (step someConfig) (start someConfig (100 * nanos))
        (replayFrom (client 1))).1 (.task 0 (.receive open₂)) ∧
      (step someConfig (run (step someConfig) (start someConfig (100 * nanos))
          (replayFrom (client 1))).1 (.task 0 (.receive open₂))).1.recorded =
        (run (step someConfig) (start someConfig (100 * nanos)) (replayFrom (client 1))).1.recorded := by
  have hrej : RejectsPacket someConfig (run (step someConfig) (start someConfig (100 * nanos))
      (replayFrom (client 1))).1 (.task 0 (.receive open₂)) := rejects_of_any (by decide +kernel)
  refine ⟨hrej, (rejected_unchanged_iff someConfig (100 * nanos) _ _ hrej).mpr fun x hx => .inr ?_⟩
  have hsame : ∀ x ∈ (run (step someConfig) (start someConfig (100 * nanos))
      (replayFrom (client 1))).1.head 0, x.2.peerAddr = x.1.context.peerAddr := by decide +kernel
  exact hsame x hx

/-- **A replayed packet redirects the replies**: it is refused, but its source is the new peer. -/
theorem rejected_changes_peer : RejectsPacket someConfig (run (step someConfig) (start someConfig (100 * nanos))
        (replayFrom (client 2))).1 (.task 0 (.receive open₂)) ∧
      (run (step someConfig) (start someConfig (100 * nanos)) (replayFrom (client 2))).1.recorded.map
        Prod.fst = [client 1] ∧
      (step someConfig (run (step someConfig) (start someConfig (100 * nanos))
          (replayFrom (client 2))).1 (.task 0 (.receive open₂))).1.recorded.map Prod.fst = [client 2] :=
  ⟨rejects_of_any (by decide +kernel), by decide +kernel, by decide +kernel⟩

end Shadowsocks.Server
