/-
  Subject:   THE IDS OF THE PACKETS TWO ASSOCIATIONS SEND: the nonce of an AEAD-2022 packet comes from its session
  id and packet id, so that no pair of them may be used twice.
-/
import Shadowsocks.Lib.Numbering
import Shadowsocks.Local.UdpAssociation
import Shadowsocks.Server.Reachable

namespace Shadowsocks

open Lib Udp PacketWindow List

def counted (x : UInt64 × UInt64) : UInt64 × Nat := (x.1, x.2.toNat)

theorem succ_toNat {n : UInt64} (h : n ≠ Server.u64Max) : (n + 1).toNat = n.toNat + 1 := by
  have hmax : n.toNat ≠ Server.u64Max.toNat := fun e => h (UInt64.toNat_inj.mp e)
  have hlt := n.toNat_lt
  have hval : Server.u64Max.toNat = 18446744073709551615 := rfl
  show (n.toNat + 1) % 18446744073709551616 = _
  omega

/-! ## 1. The local association -/

namespace Local

def requestIds (log : List Output) : List (UInt64 × UInt64) :=
  (requests log).map fun control => (control.clientSessionId, control.packetId)

structure RequestsOk (first : UInt64) (a : UdpAssociationContext) (log : List Output) : Prop where
  numbered : Numbered ((requestIds log).map counted) a.clientSessionId a.clientPacketId.toNat
  known : ∀ x ∈ requestIds log, x.1 ∈ first :: renewals log
  current : a.clientSessionId ∈ first :: renewals log

theorem RequestsOk.advance {first : UInt64} {a : UdpAssociationContext} {log : List Output}
    (h : RequestsOk first a log) (env : ProxyEnv) (hfresh : (first :: renewals (log ++ renewal a env)).Nodup) :
    (∃ last, last < (a.advance env.newSessionId).clientPacketId.toNat ∧
      Numbered ((requestIds log).map counted) (a.advance env.newSessionId).clientSessionId last) ∧
      (a.advance env.newSessionId).clientSessionId ∈ first :: renewals (log ++ renewal a env) := by
  unfold UdpAssociationContext.advance
  by_cases hmax : a.clientPacketId = Server.u64Max
  · -- the ids are used up: the new session is none of those that were begun
    have hnew : env.newSessionId ∉ first :: renewals log := by
      rw [renewals_append, renewal, if_pos hmax, ← cons_append] at hfresh
      intro hin
      exact (nodup_append.mp hfresh).2.2 _ hin _ (mem_singleton_self _) rfl
    rw [if_pos hmax, renewals_append, renewal, if_pos hmax]
    refine ⟨⟨0, one_pos, .renew h.numbered.nodup fun n hn => ?_⟩, by simp [renewals]⟩
    obtain ⟨x, hx, heq⟩ := mem_map.mp hn
    have hsession := h.known x hx
    rw [(Prod.mk.inj heq).1] at hsession
    exact hnew hsession
  have hnone : renewals (log ++ renewal a env) = renewals log := by
    rw [renewals_append, renewal, if_neg hmax]
    exact append_nil _
  rw [if_neg hmax, hnone]
  refine ⟨⟨a.clientPacketId.toNat, ?_, h.numbered⟩, h.current⟩
  rw [succ_toNat hmax]
  exact Nat.lt_succ_self _

theorem requestIds_append (log log' : List Output) :
    requestIds (log ++ log') = requestIds log ++ requestIds log' := by
  rw [requestIds, requests_append, map_append]
  rfl

theorem requestIds_requested (a : UdpAssociationContext) (env : ProxyEnv) (target : Address)
    (data : Bytes) (sent : Option (Nat × UdpSocketControlData)) :
    requestIds (requested a env target data sent) = sent.toList.map fun x => (x.2.clientSessionId, x.2.packetId) := by
  unfold requested renewal
  cases sent with
  | none | some x => split <;> rfl

theorem renewals_requested (a : UdpAssociationContext) (env : ProxyEnv) (target : Address) (data : Bytes)
    (sent : Option (Nat × UdpSocketControlData)) :
    renewals (requested a env target data sent) = renewals (renewal a env) := by
  rw [requested, renewals_append]
  cases sent with
  | none | some x => exact append_nil _

theorem requestsOk_step {first : UInt64} {s s' : UdpAssociation} {log os : List Output}
    (h : RequestsOk first s.context log) (hran : Ran s s' os)
    (hfresh : (first :: renewals (log ++ os)).Nodup) : RequestsOk first s'.context (log ++ os) := by
  cases hran with
  | quiet _ hq =>
    have hids : requestIds (log ++ os) = requestIds log := by
      rw [requestIds, requests_append, hq.requests, append_nil]
      rfl
    refine ⟨?_, ?_, ?_⟩
    · rw [hids, hq.session, hq.packet]
      exact h.numbered
    · rw [hids, renewals_append, hq.renewals, append_nil]
      exact h.known
    · rw [hq.session, renewals_append, hq.renewals, append_nil]
      exact h.current
  | proxied env target data sent hp =>
    have hsame : renewals (log ++ requested s.context env target data sent) =
        renewals (log ++ renewal s.context env) := by
      rw [renewals_append, renewals_requested, ← renewals_append]
    rw [hsame] at hfresh
    obtain ⟨⟨last, hlt, hnum⟩, hcurrent⟩ := h.advance env hfresh
    rw [← hp.packet] at hlt
    rw [← hp.session] at hnum hcurrent
    have hold : ∀ x ∈ requestIds log, x.1 ∈ first :: renewals (log ++ renewal s.context env) := by
      intro x hx
      rw [renewals_append, ← cons_append]
      exact mem_append_left _ (h.known x hx)
    refine ⟨?_, ?_, hsame ▸ hcurrent⟩
    · rw [requestIds_append, requestIds_requested, map_append]
      cases sent with
      | none => simpa using hnum.skip hlt.le
      | some x => simpa [hp.control x rfl, counted, UdpAssociationContext.control] using hnum.next hlt
    rw [requestIds_append, requestIds_requested, hsame]
    intro x hx
    rcases mem_append.mp hx with hx | hx
    · exact hold x hx
    · obtain ⟨y, hy, rfl⟩ := mem_map.mp hx
      rwa [hp.control y (Option.mem_toList.mp hy)]

theorem requestIds_nodup (cfg : Config) (s : UdpAssociation) (es : List Event)
    (hfresh : (s.context.clientSessionId :: renewals (run (step cfg) s es).2).Nodup) :
    (requestIds (run (step cfg) s es).2).Nodup := by
  suffices h : RequestsOk s.context.clientSessionId (run (step cfg) s es).1.context
      (run (step cfg) s es).2 from h.numbered.nodup.of_map
  revert hfresh
  refine run_inv_always (I := fun (s' : UdpAssociation) log =>
    (s.context.clientSessionId :: renewals log).Nodup → RequestsOk s.context.clientSessionId s'.context log) ?_ ?_ es
  · intro _
    exact ⟨.start _ _, nofun, mem_cons_self⟩
  intro s' log e ih hfresh
  have hsub : (s.context.clientSessionId :: renewals log).Nodup := by
    rw [renewals_append, ← cons_append] at hfresh
    exact (nodup_append.mp hfresh).1
  exact requestsOk_step (ih hsub) (step_ran cfg s' e) hfresh

end Local

/-! ## 2. The server -/

namespace Server

def sealedId : Output → Option (UInt64 × UInt64)
  | .reply _ r => r.control.map fun control => (control.serverSessionId, control.packetId)
  | _ => none

def sealedIds (log : List Output) : List (UInt64 × UInt64) := log.filterMap sealedId

theorem sealedIds_append (log log' : List Output) : sealedIds (log ++ log') = sealedIds log ++ sealedIds log' :=
  filterMap_append

inductive Counts (a : UdpAssociationContext) : UdpAssociationContext → List (UInt64 × UInt64) → Prop
  | same {a' : UdpAssociationContext} (hid : a'.serverSessionId = a.serverSessionId)
      (hpacket : a'.serverPacketId = a.serverPacketId) : Counts a a' []
  | next {a' : UdpAssociationContext} (hid : a'.serverSessionId = a.serverSessionId)
      (hmax : a.serverPacketId ≠ u64Max) (hpacket : a'.serverPacketId = a.serverPacketId + 1) :
      Counts a a' [(a'.serverSessionId, a'.serverPacketId)]

theorem validateControl_counts (a : UdpAssociationContext) (control : UdpSocketControlData) :
    Counts a (a.validateControl control).2 [] := by
  unfold UdpAssociationContext.validateControl
  dsimp only
  split
  · exact .same rfl rfl
  · exact .same rfl rfl

theorem checkPacket_counts (a : UdpAssociationContext) (m : Message) (blocked : Bool) :
    Counts a (a.checkPacket m blocked).2 [] := by
  have hfollow : ∀ b, Counts (a.followPeer m.peerAddr) b [] → Counts a b [] := by
    intro b hb
    unfold UdpAssociationContext.followPeer at hb
    split at hb
    · cases hb with
      | same hid hpacket => exact .same hid hpacket
    · exact hb
  unfold UdpAssociationContext.checkPacket
  refine hfollow _ ?_
  split
  · exact .same rfl rfl
  · split
    · exact .same rfl rfl
    · exact validateControl_counts _ _

theorem dispatch_counts {ip : IpStack} {a a' : UdpAssociationContext} {m : Message} {env : DispatchEnv}
    {sent : Option SocketAddr} (h : dispatchReceivedPacket ip a m env = .ok (a', sent)) : Counts a a' [] := by
  have hcheck := checkPacket_counts a m env.outboundBlocked
  unfold dispatchReceivedPacket at h
  split at h <;> rename_i b heq
  · cases h
    rwa [heq] at hcheck
  · rw [heq] at hcheck
    rw [dispatchReceivedOutboundPacket_sockets h]
    cases hcheck with
    | same hid hpacket => exact .same hid hpacket

theorem respond_counts (i : Nat) (a : UdpAssociationContext) (source : SocketAddr) (data : Bytes) :
    Counts a (sendReceivedRespondPacket a source data).1
      (sealedIds ((sendReceivedRespondPacket a source data).2.toList.map (.reply i))) := by
  unfold sendReceivedRespondPacket
  dsimp only
  split
  · exact .same rfl rfl
  · split
    · exact .same rfl rfl
    · rename_i hmax
      exact .next rfl hmax rfl

theorem task_counts (ip : IpStack) (room : Bool) (i : Nat) (t : Task) (e : TaskEvent) :
    Counts t.context (t.step ip room e).1.context (sealedIds (taskLog i (t.step ip room e).2)) := by
  have hstill : Counts t.context t.context [] := .same rfl rfl
  unfold Task.step
  split
  · exact hstill
  · split
    · exact hstill
    rename_i env _ _ m queue hq
    cases hd : dispatchReceivedPacket ip t.context m env with
    | ok r =>
      obtain ⟨a, sent⟩ := r
      cases sent with
      | none | some target => exact dispatch_counts hd
    | err e => exact e.elim
    | panic => exact hstill
  · split
    · rename_i source data _ hopen
      have hr := respond_counts i t.context source data
      rcases hsent : sendReceivedRespondPacket t.context source data with ⟨a, reply⟩
      rw [hsent] at hr
      cases reply with
      | none | some r => exact hr
    · exact hstill
  · unfold UdpAssociationContext.closeSocket
    split
    · exact .same rfl rfl
    · exact .same rfl rfl
  · split
    · exact .same rfl rfl
    · exact hstill
  · exact hstill
  · exact hstill

def SlotSealed (ids : List (UInt64 × UInt64)) : Option Task → Prop
  | none => ids = []
  | some t => Numbered (ids.map counted) t.context.serverSessionId t.context.serverPacketId.toNat ∧
      ∀ x ∈ ids, x.1 = t.context.serverSessionId

variable {ids : List (UInt64 × UInt64)} {slot : Option Task}

theorem SlotSealed.nodup (h : SlotSealed ids slot) : ids.Nodup := by
  cases slot with
  | none =>
    rw [show ids = [] from h]
    exact nodup_nil
  | some t => exact h.1.nodup.of_map

theorem SlotSealed.own (h : SlotSealed ids slot) {x : UInt64 × UInt64} (hx : x ∈ ids) :
    slot.map (·.context.serverSessionId) = some x.1 := by
  cases slot with
  | none =>
    rw [show ids = [] from h] at hx
    cases hx
  | some t => exact congrArg some (h.2 x hx).symm

theorem SlotSealed.counts {used : List (UInt64 × UInt64)} {t t' : Task} (h : SlotSealed ids (some t))
    (hc : Counts t.context t'.context used) : SlotSealed (ids ++ used) (some t') := by
  obtain ⟨hnum, hown⟩ := h
  generalize ha : t'.context = a' at hc
  cases hc with
  | same hid hpacket =>
    rw [append_nil, SlotSealed, ha, hid, hpacket]
    exact ⟨hnum, hown⟩
  | next hid hmax hpacket =>
    rw [SlotSealed, ha, map_append]
    have hlt : t.context.serverPacketId.toNat < a'.serverPacketId.toNat := by
      rw [hpacket, succ_toNat hmax]
      exact Nat.lt_succ_self _
    refine ⟨(hid ▸ hnum).next hlt, fun x hx => ?_⟩
    rcases mem_append.mp hx with hx | hx
    · rw [hown x hx, hid]
    · rw [mem_singleton.mp hx]

theorem sealed_step {ip : IpStack} {now i : Nat} {slot' : Option Task} {out : List Output} (h : SlotSealed ids slot)
    (hto : TaskTo ip now i slot slot' out) : SlotSealed (ids ++ sealedIds out) slot' := by
  cases hto with
  | absent => exact (append_nil ids).trans h
  | spawned m sid hm serverSessionId =>
    obtain rfl : ids = [] := h
    exact ⟨.start _ _, nofun⟩
  | kept t | queued t m hm => exact h.counts (.same rfl rfl)
  | aborted t =>
    refine h.counts ?_
    unfold Task.abort
    split
    · exact .same rfl rfl
    · exact .same rfl rfl
  | ran t room e => exact h.counts (task_counts ip room i t e)

theorem slots_sealed (cfg : Config) (now : Nat) (events : List Event) :
    ∀ i, SlotSealed (sealedIds (about i (run (step cfg) (start cfg now) events).2))
      (run (step cfg) (start cfg now) events).1.tasks[i]? := by
  suffices h : Inv cfg (run (step cfg) (start cfg now) events).1 (run (step cfg) (start cfg now) events).2 ∧
      _ from h.2
  refine run_inv_always (I := fun (s : UdpServer) log => Inv cfg s log ∧
    ∀ i : Nat, SlotSealed (sealedIds (about i log)) s.tasks[i]?) ?_ ?_ events
  · exact ⟨inv_start cfg now, fun i => rfl⟩
  rintro s log e ⟨hinv, hslots⟩
  have hstep := step_ok hinv e
  refine ⟨hstep.inv hinv, fun i => ?_⟩
  rw [about_append, sealedIds_append]
  exact sealed_step (hslots i) (hstep.tasks i)

def serverSessionIds (s : UdpServer) : List UInt64 := s.tasks.map fun t => t.context.serverSessionId

theorem sealedIds_nodup (cfg : Config) (now : Nat) (events : List Event)
    (hfresh : (serverSessionIds (run (step cfg) (start cfg now) events).1).Nodup) :
    (sealedIds (run (step cfg) (start cfg now) events).2).Nodup := by
  have hslots := slots_sealed cfg now events
  generalize run (step cfg) (start cfg now) events = r at *
  refine pairwise_of_parts Output.task sealedId (fun i => (hslots i).nodup) ?_
  rintro o ho o' ho' hne x hx y hy rfl
  -- one id used by two associations: their sessions are the same
  have hown : ∀ o ∈ r.2, x ∈ sealedId o → (serverSessionIds r.1)[o.task]? = some x.1 := by
    intro o ho hx
    rw [serverSessionIds, List.getElem?_map]
    exact (hslots o.task).own (mem_filterMap.mpr ⟨o, mem_about.mpr ⟨ho, rfl⟩, hx⟩)
  have hsame := (hown o ho hx).trans (hown o' ho' hy).symm
  have hlt := (List.getElem?_eq_some_iff.mp (hown o ho hx)).1
  exact hne ((List.getElem?_inj hlt hfresh).mp hsame)

end Server

/-! ## 3. Both sides -/

/-- **No pair of session and packet id is used twice**, by a local association or a server's, as long as begun
sessions have different ids. -/
theorem packetIds_unique : (∀ (cfg : Local.Config) (s : Local.UdpAssociation) (es : List Local.Event),
      (s.context.clientSessionId :: Local.renewals (run (Local.step cfg) s es).2).Nodup →
        (Local.requestIds (run (Local.step cfg) s es).2).Nodup) ∧
    ∀ (cfg : Server.Config) (now : Nat) (es : List Server.Event),
      (Server.serverSessionIds (run (Server.step cfg) (Server.start cfg now) es).1).Nodup →
        (Server.sealedIds (run (Server.step cfg) (Server.start cfg now) es).2).Nodup :=
  ⟨Local.requestIds_nodup, Server.sealedIds_nodup⟩

def almostUsedUp : Local.UdpAssociation :=
  ⟨{ Local.UdpAssociationContext.create (.v4 ⟨0, 9⟩) 3 60 with clientPacketId := Server.u64Max - 1 }, 0, true⟩

def failingSends : List Local.Event :=
  [⟨4, 0, true, false⟩, ⟨4, 1, false, false⟩, ⟨5, 1, true, true⟩, ⟨5, 1, true, true⟩].map
    (.proxied (.socketAddress (.v4 ⟨1, 53⟩)) [1])

def twoAnswers : List Server.Event :=
  [.recv (Server.somePacket 1 [] 3 1) (Server.client 1) ⟨false, false, 5⟩,
    .recv (Server.somePacket 1 [] 4 1) (Server.client 1) ⟨false, false, 6⟩,
    .task 0 (.receive Server.open₂), .task 1 (.receive Server.open₂),
    .task 0 (.outbound true (Server.client 7) [1]), .task 1 (.outbound true (Server.client 7) [1]),
    .task 0 (.outbound true (Server.client 7) [2])]

theorem packetIds_unique_failing : Local.requestIds (run (Local.step Local.someConfig) almostUsedUp failingSends).2 =
        [(3, Server.u64Max), (4, 2), (4, 3)] ∧
      (Local.requestIds (run (Local.step Local.someConfig) almostUsedUp failingSends).2).Nodup ∧
      Server.sealedIds (run (Server.step Server.someConfig)
        (Server.start Server.someConfig (100 * nanos)) twoAnswers).2 = [(5, 1), (6, 1), (5, 2)] ∧
      (Server.sealedIds (run (Server.step Server.someConfig)
        (Server.start Server.someConfig (100 * nanos)) twoAnswers).2).Nodup :=
  ⟨by decide +kernel, packetIds_unique.1 Local.someConfig almostUsedUp failingSends (by decide +kernel),
    by decide +kernel, packetIds_unique.2 Server.someConfig (100 * nanos) twoAnswers (by decide +kernel)⟩

end Shadowsocks
