/-
  Subject:   REPLAYED DATAGRAMS at an AEAD-2022 UDP server. One is sent on twice exactly through two associations of
  one session (4), which needs a timestamp that comes again (2, 3).
-/
import Shadowsocks.Server.Isolation

namespace Shadowsocks.Server

open Lib Udp PacketWindow List

/-! ## 1. The manager's side of a step -/

def Event.fromChannel : Event → Bool
  | .takeReceived _ => true
  | _ => false

/-- **Everything a step can do** to the table, the channel and the clock, and the packets it queues.
-/
inductive Move (cfg : Config) (s : UdpServer) (e : Event) : UdpServer → List Output → Prop where
  | idle {s' : UdpServer} {out : List Output} (hmap : s'.assocMap = s.assocMap)
      (hrec : s'.received ⊆ s.received) (hnow : s.now ≤ s'.now) (hout : ∀ i m t, .queued i m t ∉ out) :
      Move cfg s e s' out
  | swept {s' : UdpServer} (hmap : s'.assocMap = s.assocMap.cleanupExpired s.now)
      (hrec : s'.received = s.received) (hnow : s'.now = s.now) : Move cfg s e s' []
  | touched {s' : UdpServer} (key : NatKey) (hmap : s.assocMap.keepAlive s.now key = .ok s'.assocMap)
      (hrec : s'.received = s.received) (hnow : s'.now = s.now) : Move cfg s e s' []
  | arrived {s' : UdpServer} {datagram : Bytes} {peerAddr : SocketAddr} {env : RecvEnv} {m : Message}
      (hm : recvOnePacket cfg s.now datagram peerAddr env = .ok m) (hmap : s'.assocMap = s.assocMap)
      (hrec : s'.received = s.received ++ [m]) (hnow : s'.now = s.now) : Move cfg s e s' []
  | sent {m : Message} (received : List Message) (ssid : UInt64) (hp : packetOf cfg s e = some m)
      (hrec : received ⊆ s.received)
      (hm : (∃ datagram peerAddr env, recvOnePacket cfg s.now datagram peerAddr env = .ok m) ∨
        m ∈ s.received ∧ e.fromChannel = true) :
      Move cfg s e ({ s with received := received }.sendPacket m ssid).1
        ({ s with received := received }.sendPacket m ssid).2

theorem step_move (cfg : Config) (s : UdpServer) (e : Event) : Move cfg s e (step cfg s e).1 (step cfg s e).2 := by
  have hidle : Move cfg s e s [] := .idle rfl (List.Subset.refl _) le_rfl (by simp)
  have hcrash : Move cfg s e s.crash [] := .idle rfl (List.Subset.refl _) le_rfl (by simp)
  cases e with
  | elapse duration =>
    exact .idle rfl (List.Subset.refl _) (Nat.le_add_right _ _) (by simp [step])
  | cleanup =>
    simp only [step]
    split
    · exact .swept rfl rfl rfl
    · exact hidle
  | keepAlive =>
    simp only [step]
    split
    · split
      · rename_i map hmap
        exact .touched _ hmap rfl rfl
      · rename_i e _
        exact e.elim
      · exact hcrash
    · exact hidle
  | recv datagram peerAddr env =>
    simp only [step]
    split
    · split
      · rename_i m hm
        refine .sent s.received _ ?_ (List.Subset.refl _) (.inl ⟨datagram, peerAddr, env, hm⟩)
        simp only [packetOf, hm]
      · exact hidle
      · exact hcrash
    · exact hidle
  | workerRecv datagram peerAddr env =>
    simp only [step]
    split
    · split
      · rename_i m hm
        exact .arrived hm rfl rfl rfl
      · exact hidle
      · exact hcrash
    · exact hidle
  | takeReceived ssid =>
    simp only [step]
    split
    · rename_i m received _ hrec
      refine .sent received ssid ?_ ?_ (.inr ⟨?_, rfl⟩)
      · simp only [packetOf, hrec, head?_cons]
      · rw [hrec]
        exact subset_cons_self _ _
      · rw [hrec]
        exact mem_cons_self
    · exact hidle
  | task i e =>
    simp only [step]
    split
    · exact hidle
    · refine .idle rfl (List.Subset.refl _) le_rfl fun j m t hq => ?_
      obtain ⟨o, -, heq⟩ := mem_filterMap.mp hq
      cases o <;> cases heq

/-! ## 2. How long a timestamp comes again -/

/-- For how long after it was handed over a packet's timestamp can come again. -/
def keepFor (wait : Nat) : Nat := 61 * nanos + wait

/-- **A timely step**: packets wait at most `wait`, what is pushed out was idle for `keepFor wait`, seconds fit 64
bits. -/
structure Timely (cfg : Config) (wait : Nat) (s : UdpServer) (e : Event) : Prop where
  waited : ∀ m ∈ packetOf cfg s e, e.fromChannel = true → s.now ≤ m.origin.receivedAt + wait
  room : ∀ m ∈ packetOf cfg s e, ∀ x ∈ pushedOutBy s m, x.used + keepFor wait ≤ s.now
  clock : s.now / nanos < UInt64.size

instance (cfg : Config) (wait : Nat) (s : UdpServer) (e : Event) : Decidable (Timely cfg wait s e) :=
  decidable_of_iff
    ((∀ m ∈ packetOf cfg s e, e.fromChannel = true → s.now ≤ m.origin.receivedAt + wait) ∧
      (∀ m ∈ packetOf cfg s e, ∀ x ∈ pushedOutBy s m, x.used + keepFor wait ≤ s.now) ∧
      s.now / nanos < UInt64.size)
    ⟨fun h => ⟨h.1, h.2.1, h.2.2⟩, fun h => ⟨h.waited, h.room, h.clock⟩⟩

section

variable (M : Aead2022.Method) (cfg : Config)

def Message.stamp (m : Message) : UInt64 :=
  Aead2022.clientTimestamp M cfg.key m.origin.datagram cfg.users

structure Accepted (now : Nat) (m : Message) : Prop where
  before : m.origin.receivedAt ≤ now
  clock : m.origin.receivedAt / nanos < UInt64.size
  inTime : Aead2022.InTime (wallClock m.origin.receivedAt) (m.stamp M cfg)

variable {M cfg} {m : Message} {now now' : Nat}

theorem Accepted.mono (h : Accepted M cfg now m) (hnow : now ≤ now') :
    Accepted M cfg now' m := ⟨le_trans h.before hnow, h.clock, h.inTime⟩

theorem accepted_of_recv (hkind : cfg.kind = .aead2022 M) {now : Nat} {datagram : Bytes}
    {peerAddr : SocketAddr} {env : RecvEnv} (hclock : now / nanos < UInt64.size)
    (h : recvOnePacket cfg now datagram peerAddr env = .ok m) :
    Accepted M cfg now m ∧ m.origin.receivedAt = now := by
  obtain ⟨hdec, -, horigin, -⟩ := recvOnePacket_ok h
  have hat : m.origin.receivedAt = now := by rw [horigin]
  refine ⟨⟨by rw [hat], by rw [hat]; exact hclock, ?_⟩, hat⟩
  rw [Message.stamp, horigin]
  rw [hkind] at hdec
  obtain ⟨x, hx, -⟩ := Outcome.map_ok_iff.mp hdec
  exact Aead2022.decryptClientPayload_inTime (Outcome.mapErr_ok_iff.mp hx)

theorem inTime_toNat {a b : UInt64} (h : Aead2022.InTime a b) : a.toNat ≤ b.toNat + 30 ∧ b.toNat ≤ a.toNat + 30 := by
  unfold Aead2022.InTime Aead2022.serverPacketTimestampMaxDiff Tcp.V2.absDiff at h
  have h30 : (30 : UInt64).toNat = 30 := rfl
  split at h <;> rename_i hle
  · rw [UInt64.lt_iff_toNat_lt, UInt64.toNat_sub_of_le _ _ hle, h30] at h
    rw [UInt64.le_iff_toNat_le] at hle
    omega
  · have hle' : b ≤ a := UInt64.le_of_lt (UInt64.not_le.mp hle)
    rw [UInt64.lt_iff_toNat_lt, UInt64.toNat_sub_of_le _ _ hle', h30] at h
    rw [UInt64.le_iff_toNat_le] at hle hle'
    omega

theorem received_close {m m' : Message} (h : Accepted M cfg now m)
    (h' : Accepted M cfg now' m') (hstamp : m.stamp M cfg = m'.stamp M cfg) :
    m'.origin.receivedAt < m.origin.receivedAt + 61 * nanos := by
  have hsec {t : Nat} (ht : t / nanos < UInt64.size) : (wallClock t).toNat = t / nanos :=
    UInt64.toNat_ofNat_of_lt' ht
  have h₁ := (inTime_toNat h.inTime).2
  have h₂ := (inTime_toNat h'.inTime).1
  rw [hsec h.clock] at h₁
  rw [hsec h'.clock, ← hstamp] at h₂
  have hpos : 0 < nanos := by decide
  -- whole seconds: the difference is at most 60 of them
  have hfloor : m.origin.receivedAt / nanos * nanos ≤ m.origin.receivedAt := Nat.div_mul_le_self _ _
  have hceil : m'.origin.receivedAt < (m'.origin.receivedAt / nanos + 1) * nanos :=
    Nat.lt_mul_of_div_lt (Nat.lt_succ_self _) hpos
  calc m'.origin.receivedAt < (m'.origin.receivedAt / nanos + 1) * nanos := hceil
    _ ≤ (m.origin.receivedAt / nanos + 61) * nanos := Nat.mul_le_mul_right _ (by omega)
    _ = m.origin.receivedAt / nanos * nanos + 61 * nanos := Nat.add_mul _ _ _
    _ ≤ m.origin.receivedAt + 61 * nanos := Nat.add_le_add_right hfloor _

end

/-! ## 3. One association for one timestamp -/

section

variable {table : LruCache UInt64 Nat} {tasks : List Task} {now : Nat} {key : UInt64} {m : Message}
  {fresh : Task} {r : LruCache UInt64 Nat × List Task × Option Nat}

theorem sent_kept (hr : Sent now key fresh m table tasks r) (hu : table.Unique) {k : UInt64} {i t : Nat}
    (h : table.Kept k i t) (hlive : now ≤ t + table.ttl) (ht : t ≤ now)
    (hroom : ∀ x ∈ table.pushedOut now key, x.used < t) : r.1.Kept k i t := by
  cases hr with
  | refused j hl | queued j t' hl ht' => exact h.get hu hlive ht
  | spawned hl =>
    rw [LruCache.insert_sweep]
    exact h.insert hlive hl hroom _

theorem sent_ttl (hr : Sent now key fresh m table tasks r) : r.1.ttl = table.ttl := by
  cases hr with
  | refused j hl | queued j t hl ht => exact LruCache.get_ttl ..
  | spawned hl => exact LruCache.insert_ttl ..

theorem sent_index (hr : Sent now key fresh m table tasks r) {i : Nat} (hi : r.2.2 = some i) :
    r.1.Kept key i now ∧ ∀ j, table.lookup now key = some j → j = i := by
  cases hr with
  | refused j hl => cases hi
  | queued j t hl ht =>
    cases hi
    refine ⟨LruCache.kept_get hl, fun j' hj' => ?_⟩
    rw [hl] at hj'
    exact (Option.some.inj hj').symm
  | spawned hl =>
    cases hi
    refine ⟨LruCache.kept_insert .., fun j' hj' => ?_⟩
    rw [hl] at hj'
    cases hj'

end

def SameStamp (M : Aead2022.Method) (cfg : Config) (m m' : Message) : Prop :=
  (∃ k, m.For (some k) ∧ m'.For (some k)) ∧ m.stamp M cfg = m'.stamp M cfg

/-- **The invariant**: what was queued was accepted in time and is in the table while its timestamp can come again,
under one association. -/
structure ReplayInv (M : Aead2022.Method) (cfg : Config) (wait : Nat) (s : UdpServer) (log : List Output) :
    Prop where
  inv : Inv cfg s log
  received : ∀ m ∈ s.received, Accepted M cfg s.now m
  queued : ∀ i m t, .queued i m t ∈ log → t ≤ s.now ∧ Accepted M cfg t m ∧ t ≤ m.origin.receivedAt + wait
  table : ∃ table, s.assocMap = .session table ∧ table.ttl = cfg.ttl ∧
    ∀ i m t k, .queued i m t ∈ log → m.For (some k) → s.now < t + keepFor wait → table.Kept k i t
  same : ∀ i m t j m' t', .queued i m t ∈ log → .queued j m' t' ∈ log → SameStamp M cfg m m' → i = j

variable {cfg : Config} {M : Aead2022.Method}

theorem handed_close {wait now t : Nat} {m m' : Message} (h : Accepted M cfg t m)
    (h' : Accepted M cfg now m') (hwait : now ≤ m'.origin.receivedAt + wait) (hstamp : m.stamp M cfg = m'.stamp M cfg) :
    now < t + keepFor wait := by
  have hclose := received_close h h' hstamp
  have hbefore := h.before
  unfold keepFor
  omega

section

variable {M : Aead2022.Method} {cfg : Config} {wait : Nat} {s : UdpServer} {log : List Output}

theorem ReplayInv.quiet (h : ReplayInv M cfg wait s log) {s' : UdpServer} {out : List Output}
    (hinv : Inv cfg s' (log ++ out)) (hout : ∀ i m t, .queued i m t ∉ out)
    (hrec : ∀ m ∈ s'.received, Accepted M cfg s'.now m) (hnow : s.now ≤ s'.now)
    (htable : ∀ table, s.assocMap = .session table → table.ttl = cfg.ttl →
      ∃ table', s'.assocMap = .session table' ∧ table'.ttl = cfg.ttl ∧
        ∀ k i t, table.Kept k i t → t ≤ s.now → s.now < t + keepFor wait → table'.Kept k i t) :
    ReplayInv M cfg wait s' (log ++ out) := by
  have hold {i : Nat} {m : Message} {t : Nat} (hq : .queued i m t ∈ log ++ out) : .queued i m t ∈ log :=
    (mem_append.mp hq).resolve_right (hout i m t)
  obtain ⟨table, hs, httl, hkept⟩ := h.table
  obtain ⟨table', hs', httl', hnext⟩ := htable table hs httl
  refine ⟨hinv, hrec, fun i m t hq => ?_, ⟨table', hs', httl', fun i m t k hq hfor hlt => ?_⟩,
    fun i m t j m' t' hq hq' => h.same i m t j m' t' (hold hq) (hold hq')⟩
  · obtain ⟨hle, hacc, hwait⟩ := h.queued i m t (hold hq)
    exact ⟨le_trans hle hnow, hacc, hwait⟩
  · have hlt' : s.now < t + keepFor wait := lt_of_le_of_lt hnow hlt
    exact hnext k i t (hkept i m t k (hold hq) hfor hlt') (h.queued i m t (hold hq)).1 hlt'

theorem ReplayInv.handed (h : ReplayInv M cfg wait s log) {s' : UdpServer} {m : Message} {index : Option Nat}
    {table table' : LruCache UInt64 Nat} {sid : UInt64} (hsid : ∀ k, m.For (some k) ↔ k = sid)
    (hinv : Inv cfg s' (log ++ queuedLog m s.now index)) (hrec : ∀ m ∈ s'.received, Accepted M cfg s'.now m)
    (hnow : s'.now = s.now) (hacc : Accepted M cfg s.now m) (hwait : s.now ≤ m.origin.receivedAt + wait)
    (hkept : ∀ i m t k, .queued i m t ∈ log → m.For (some k) → s.now < t + keepFor wait → table.Kept k i t)
    (hs' : s'.assocMap = .session table') (httl : table'.ttl = cfg.ttl)
    (hstays : ∀ k i t, table.Kept k i t → t ≤ s.now → s.now < t + keepFor wait → table'.Kept k i t)
    (hused : ∀ i, index = some i → table'.Kept sid i s.now)
    (hindex : ∀ i j m' t, index = some i → .queued j m' t ∈ log → SameStamp M cfg m' m → j = i) :
    ReplayInv M cfg wait s' (log ++ queuedLog m s.now index) := by
  refine ⟨hinv, hrec, fun i m' t hq => ?_, ⟨table', hs', httl, ?_⟩, ?_⟩
  · rw [hnow]
    rcases mem_append.mp hq with hold | hadd
    · exact h.queued i m' t hold
    · obtain ⟨-, rfl, rfl⟩ := mem_queuedLog hadd
      exact ⟨le_rfl, hacc, hwait⟩
  · intro i m' t k hq hk hlt
    rw [hnow] at hlt
    rcases mem_append.mp hq with hold | hadd
    · exact hstays k i t (hkept i m' t k hold hk hlt) (h.queued i m' t hold).1 hlt
    · obtain ⟨hi, rfl, rfl⟩ := mem_queuedLog hadd
      rw [(hsid k).mp hk]
      exact hused i hi
  intro i m₁ t₁ j m₂ t₂ hq₁ hq₂ hsame
  rcases mem_append.mp hq₁ with hold₁ | hadd₁
  · rcases mem_append.mp hq₂ with hold₂ | hadd₂
    · exact h.same i m₁ t₁ j m₂ t₂ hold₁ hold₂ hsame
    · obtain ⟨hj, rfl, rfl⟩ := mem_queuedLog hadd₂
      exact hindex j i m₁ t₁ hj hold₁ hsame
  obtain ⟨hi, rfl, rfl⟩ := mem_queuedLog hadd₁
  rcases mem_append.mp hq₂ with hold₂ | hadd₂
  · obtain ⟨⟨k, hk, hk'⟩, hstamp⟩ := hsame
    exact (hindex i j m₂ t₂ hi hold₂ ⟨⟨k, hk', hk⟩, hstamp.symm⟩).symm
  · obtain ⟨hj, -, -⟩ := mem_queuedLog hadd₂
    exact Option.some.inj (hi.symm.trans hj)

theorem ReplayInv.sent (h : ReplayInv M cfg wait s log) (httl : keepFor wait ≤ cfg.ttl)
    {received : List Message} (hrec : received ⊆ s.received) {m : Message} {ssid : UInt64}
    (hacc : Accepted M cfg s.now m) (hwait : s.now ≤ m.origin.receivedAt + wait)
    (hroom : ∀ x ∈ pushedOutBy s m, x.used + keepFor wait ≤ s.now)
    (hinv : Inv cfg ({ s with received := received }.sendPacket m ssid).1
      (log ++ ({ s with received := received }.sendPacket m ssid).2)) :
    ReplayInv M cfg wait ({ s with received := received }.sendPacket m ssid).1
      (log ++ ({ s with received := received }.sendPacket m ssid).2) := by
  obtain ⟨table, hs, ht, hkept⟩ := h.table
  have hmap : TableOk some table s.tasks := by
    have := h.inv.map
    rwa [hs] at this
  cases hc : m.control with
  | none =>
    have hsame : ({ s with received := received } : UdpServer).sendPacket m ssid =
        ({ s with received := received }, []) := by
      unfold UdpServer.sendPacket
      simp only [hs, hc]
    rw [hsame] at hinv ⊢
    refine h.quiet hinv (fun i m t hq => by cases hq) (fun m' hm' => h.received m' (hrec hm'))
      le_rfl fun table' hs' ht' => ⟨table', hs', ht', fun k i t hk _ _ => hk⟩
  | some control =>
    have hsent := sendVia_sent s.now control.clientSessionId m.peerAddr
      (some control.clientSessionId) ssid m table s.tasks
    generalize hv : sendVia s.now control.clientSessionId (.create m.peerAddr
      (some control.clientSessionId) ssid) m table s.tasks = r at hsent
    have hsend : ({ s with received := received } : UdpServer).sendPacket m ssid =
        ({ s with received := received, assocMap := .session r.1
                  tasks := dropAssociations table.values r.1.values r.2.1 },
          queuedLog m s.now r.2.2) := by
      unfold UdpServer.sendPacket
      simp only [hs, hc, hv]
      rfl
    rw [hsend] at hinv ⊢
    refine h.handed (fun k => Message.for_some hc) hinv (fun m' hm' => h.received m' (hrec hm')) rfl hacc hwait
      hkept rfl (by rw [sent_ttl hsent, ht]) (fun k i t hk hle hlt => ?_) (fun i hi => (sent_index hsent hi).1)
      fun i j m' t hi hq hsame => ?_
    · -- what was used recently stays in the table
      refine sent_kept hsent hmap.unique hk (by omega) hle fun x hx => ?_
      have := hroom x (by rw [pushedOutBy, hs, hc]; exact hx)
      omega
    obtain ⟨⟨k, hk', hk⟩, hstamp⟩ := hsame
    obtain rfl := (Message.for_some hc).mp hk
    obtain ⟨hle, hacc', -⟩ := h.queued j m' t hq
    have hlt := handed_close hacc' hacc hwait hstamp
    have hlook := (hkept j m' t control.clientSessionId hq hk' hlt).lookup hmap.unique
      (show s.now ≤ t + table.ttl by omega)
    exact (sent_index hsent hi).2 j hlook

theorem ReplayInv.step (hkind : cfg.kind = .aead2022 M) (httl : keepFor wait ≤ cfg.ttl)
    (h : ReplayInv M cfg wait s log) {e : Event} (ht : Timely cfg wait s e) :
    ReplayInv M cfg wait (step cfg s e).1 (log ++ (step cfg s e).2) := by
  have hinv := (step_ok h.inv e).inv h.inv
  have hmove := step_move cfg s e
  generalize Server.step cfg s e = r at *
  obtain ⟨s', out⟩ := r
  cases hmove with
  | idle hmap hrec hnow hout =>
    refine h.quiet hinv hout (fun m hm => (h.received m (hrec hm)).mono hnow) hnow fun table hs hl => ?_
    exact ⟨table, by rw [hmap]; exact hs, hl, fun k i t hk _ _ => hk⟩
  | swept hmap hrec hnow =>
    refine h.quiet hinv (fun i m t hq => by cases hq) ?_ (le_of_eq hnow.symm) fun table hs hl => ?_
    · rw [hrec, hnow]
      exact h.received
    · refine ⟨table.sweep s.now, by rw [hmap, hs]; rfl, hl, fun k i t hk _ hlt => hk.sweep ?_⟩
      omega
  | touched key hmap hrec hnow =>
    refine h.quiet hinv (fun i m t hq => by cases hq) ?_ (le_of_eq hnow.symm) fun table hs hl => ?_
    · rw [hrec, hnow]
      exact h.received
    have hunique : table.Unique := by
      have := h.inv.map
      rw [hs] at this
      exact TableOk.unique this
    rw [hs] at hmap
    cases key with
    | peerAddr addr => cases hmap
    | sessionId id =>
      injection hmap with hmap
      refine ⟨(table.get s.now id).2, hmap.symm, by rw [LruCache.get_ttl, hl], ?_⟩
      intro k i t hk hle hlt
      exact hk.get hunique (by omega) hle
  | arrived hm hmap hrec hnow =>
    refine h.quiet hinv (fun i m t hq => by cases hq) ?_ (le_of_eq hnow.symm) fun table hs hl => ?_
    · rw [hrec, hnow]
      intro m' hm'
      rcases mem_concat.mp hm' with hold | rfl
      · exact h.received m' hold
      · exact (accepted_of_recv hkind ht.clock hm).1
    · exact ⟨table, by rw [hmap]; exact hs, hl, fun k i t hk _ _ => hk⟩
  | sent received ssid hp hrec hm =>
    refine h.sent httl hrec ?_ ?_ (ht.room _ hp) hinv
    · rcases hm with ⟨datagram, peerAddr, env, hrecv⟩ | ⟨hmem, -⟩
      · exact (accepted_of_recv hkind ht.clock hrecv).1
      · exact h.received _ hmem
    · rcases hm with ⟨datagram, peerAddr, env, hrecv⟩ | ⟨-, htake⟩
      · rw [(accepted_of_recv hkind ht.clock hrecv).2]
        exact Nat.le_add_right _ _
      · exact ht.waited _ hp htake

end

/-! ## 4. No datagram is sent on twice -/

def forwards (log : List Output) : List Message :=
  log.filterMap fun
    | .forward _ m _ => some m
    | _ => none

def SamePacket (M : Aead2022.Method) (cfg : Config) (m m' : Message) : Prop :=
  ∃ control control', m.control = some control ∧ m'.control = some control' ∧
    control.user = control'.user ∧ control.clientSessionId = control'.clientSessionId ∧
    control.packetId = control'.packetId ∧ m.stamp M cfg = m'.stamp M cfg

variable {log : List Output}

theorem forwards_pairwise (hnodup : ∀ i, (forwardedIds (about i log)).Nodup)
    (hsame : ∀ i m target j m' target', .forward i m target ∈ log → .forward j m' target' ∈ log →
      SamePacket M cfg m m' → i = j) : (forwards log).Pairwise fun m m' => ¬ SamePacket M cfg m m' := by
  refine pairwise_of_parts Output.task _ (fun i => ?_) ?_
  · have hids := hnodup i
    rw [forwardedIds, List.Nodup, pairwise_filterMap] at hids
    rw [pairwise_filterMap]
    refine hids.imp ?_
    rintro o o' hdiffer m hm m' hm' ⟨control, control', hc, hc', -, -, hid, -⟩
    cases o with
    | queued j m t | reply j r => cases hm
    | forward j m target =>
      cases o' with
      | queued j' m t | reply j' r => cases hm'
      | forward j' m' target' =>
        cases hm
        cases hm'
        exact hdiffer control.packetId (by simp [hc]) control'.packetId (by simp [hc']) hid
  intro o ho o' ho' hparts m hm m' hm' heq
  cases o with
  | queued j m t | reply j r => cases hm
  | forward j m target =>
    cases o' with
    | queued j' m t | reply j' r => cases hm'
    | forward j' m' target' =>
      cases hm
      cases hm'
      exact hparts (hsame j _ target j' _ target' ho ho' heq)

theorem replayInv_start (hkind : cfg.kind = .aead2022 M) (wait now : Nat) :
    ReplayInv M cfg wait (start cfg now) [] where
  inv := inv_start cfg now
  received := by simp [start]
  queued i m t hq := by cases hq
  table := by
    refine ⟨createAssocMap cfg.ttl cfg.capacity, by rw [start, hkind], ?_, fun i m t k hq => by cases hq⟩
    unfold createAssocMap
    split
    · rfl
    · rfl
  same i m t j m' t' hq := by cases hq

theorem slot_log {s : UdpServer} (h : Inv cfg s log) (i : Nat) :
    (forwardedIds (about i log)).Nodup ∧ ∀ m target, .forward i m target ∈ log → ∃ time, .queued i m time ∈ log := by
  have hslot := h.slots i
  cases hs : s.tasks[i]? with
  | none =>
    rw [hs] at hslot
    have hnil : about i log = [] := hslot
    refine ⟨by rw [hnil]; exact nodup_nil, fun m target hf => ?_⟩
    have hin : .forward i m target ∈ about i log := mem_about.mpr ⟨hf, rfl⟩
    rw [hnil] at hin
    cases hin
  | some t =>
    rw [hs] at hslot
    obtain ⟨acc, hok⟩ := hslot
    refine ⟨hok.nodup, fun m target hf => ?_⟩
    obtain ⟨time, hq⟩ := hok.forwarded m target (mem_about.mpr ⟨hf, rfl⟩)
    exact ⟨time, (mem_about.mp hq).1⟩

/-- **Datagrams are sent on once** by an AEAD-2022 server: packets wait at most `wait`, associations stay for 61
seconds and `wait`; no user, session id, packet id and timestamp come twice. -/
theorem forwarded_once (M : Aead2022.Method) (cfg : Config) (hkind : cfg.kind = .aead2022 M) (wait : Nat)
    (httl : keepFor wait ≤ cfg.ttl) (now : Nat) (events : List Event)
    (h : Along (step cfg) (Timely cfg wait) (start cfg now) events) :
    (forwards (run (step cfg) (start cfg now) events).2).Pairwise fun m m' => ¬ SamePacket M cfg m m' := by
  have hinv : ReplayInv M cfg wait (run (step cfg) (start cfg now) events).1
      (run (step cfg) (start cfg now) events).2 :=
    run_inv (replayInv_start hkind wait now) (fun s log e hi ht => hi.step hkind httl ht) h
  refine forwards_pairwise (fun i => (slot_log hinv.inv i).1) fun i m target j m' target' hf hf' heq => ?_
  obtain ⟨time, hq⟩ := (slot_log hinv.inv i).2 m target hf
  obtain ⟨time', hq'⟩ := (slot_log hinv.inv j).2 m' target' hf'
  obtain ⟨control, control', hc, hc', -, hid, -, hstamp⟩ := heq
  refine hinv.same i m time j m' time' hq hq' ⟨⟨control.clientSessionId, ?_, ?_⟩, hstamp⟩
  · exact (Message.for_some hc).mpr rfl
  · exact (Message.for_some hc').mpr hid

theorem forwarded_once_replay : Along (step someConfig) (Timely someConfig 0) (start someConfig (100 * nanos))
        (replayFrom (client 2) ++ [.task 0 (.receive open₂)]) ∧
      (forwards (run (step someConfig) (start someConfig (100 * nanos))
        (replayFrom (client 2) ++ [.task 0 (.receive open₂)])).2).Pairwise
          fun m m' => ¬ SamePacket taggedMethod someConfig m m' := by
  have h : Along (step someConfig) (Timely someConfig 0) (start someConfig (100 * nanos))
      (replayFrom (client 2) ++ [.task 0 (.receive open₂)]) := by decide +kernel
  exact ⟨h, forwarded_once taggedMethod someConfig rfl 0 (by decide) (100 * nanos) _ h⟩

def packetAt (timestamp : UInt64) : Bytes :=
  match encryptClientPayload (ε := Empty) (.aead2022 taggedMethod) { env₀ with timestamp }
    (keyOf 1) (.socketAddress (.v4 ⟨8, 53⟩)) ⟨3, 0, 1, none⟩ [] [7] with
  | .ok packet => packet
  | _ => []

def sentOn (cfg : Config) (events : List Event) : List (Option UdpSocketControlData) :=
  (forwards (run (step cfg) (start cfg (100 * nanos)) events).2).map Message.control

/-- **Sent on twice**: after a timeout of 10 seconds; after being pushed out; and, by default, with a later timestamp.
-/
theorem forwarded_twice : sentOn { someConfig with timeToLive := some (10 * nanos) }
        [.recv (packetAt 100) (client 1) open₁, .task 0 (.receive open₂), .elapse (11 * nanos),
          .recv (packetAt 100) (client 1) open₁, .task 1 (.receive open₂)] =
        [some ⟨3, 0, 1, none⟩, some ⟨3, 0, 1, none⟩] ∧
      sentOn { someConfig with capacity := some 1 }
        [.recv (packetAt 100) (client 1) open₁, .task 0 (.receive open₂),
          .recv (somePacket 1 [] 4 1) (client 1) open₁, .recv (packetAt 100) (client 1) open₁,
          .task 2 (.receive open₂)] =
        [some ⟨3, 0, 1, none⟩, some ⟨3, 0, 1, none⟩] ∧
      sentOn someConfig
        [.recv (packetAt 100) (client 1) open₁, .task 0 (.receive open₂), .elapse (302 * nanos),
          .recv (packetAt 402) (client 1) open₁, .task 1 (.receive open₂)] =
        [some ⟨3, 0, 1, none⟩, some ⟨3, 0, 1, none⟩] := by
  refine ⟨?_, ?_, ?_⟩ <;> decide +kernel

end Shadowsocks.Server
