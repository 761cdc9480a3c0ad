/-
  Subject:   REPLAYED REQUEST HEADERS (AEAD-2022). A salt stays in the cache for 60 seconds after its last use, a
  header is tolerated while its timestamp is at most 30 whole seconds away.
-/
import Mathlib.Algebra.Order.Floor.Semiring
import Mathlib.Algebra.Order.Archimedean.Real.Basic
import Shadowsocks.Lib.Shared
import Shadowsocks.Tcp.EndToEnd

namespace Shadowsocks.Tcp.V2

open Lib List

variable {M : Method}

/-! ## 1. One header -/

def presented (s : ReaderIo M) : Option (Bytes × Bytes) :=
  match s.reader.state with
  | .readHeader key =>
    match (pollRead s.reader.headerLen s.sock).1 with
    | .ready header => if header.length = s.reader.headerLen then some (key, header) else none
    | _ => none
  | .chunks _ _ => none

def chunkValid (timestamp : UInt64) (p : Bytes) : Bool :=
  decide (UInt8.ofNat (beNat (p.take 1)) = expectedStreamTy .server ∧
    ¬ serverStreamTimestampMaxDiff < absDiff timestamp (get64 ((p.drop 1).take 8)))

def headerValid (timestamp : UInt64) (key header : Bytes) (r : DecryptedReader M) : Bool :=
  match (chooseCipher key (header.take M.kind.saltLen) (header.drop M.kind.saltLen) r).1 with
  | .error _ => false
  | .ok (cipher, chunk) =>
    match cipher.decryptPacket chunk with
    | (false, _, _) => false
    | (true, p, _) => chunkValid timestamp p

theorem chooseCipher_streamTy (key salt chunk : Bytes) (r : DecryptedReader M) :
    (chooseCipher key salt chunk r).2.streamTy = r.streamTy := by
  unfold chooseCipher
  split
  · rfl
  split
  · rfl
  · dsimp only
    split
    · rfl
    · rfl

variable {s : ReaderIo M}

theorem checkHeader_server (now : Nat) (timestamp : UInt64) (salt p : Bytes) (hserver : s.reader.streamTy = .server) :
    ((checkHeader now timestamp salt p s).1.toBool =
      (chunkValid timestamp p && (s.context.checkNonceReplay .aead2022 now salt).1.isNone)) ∧
      (checkHeader now timestamp salt p s).2.context =
        bif chunkValid timestamp p then (s.context.checkNonceReplay .aead2022 now salt).2 else s.context := by
  rw [checkHeader, hserver]
  by_cases hty : UInt8.ofNat (beNat (p.take 1)) = expectedStreamTy .server
  · rw [if_neg (not_not_intro hty)]
    by_cases htime : serverStreamTimestampMaxDiff < absDiff timestamp (get64 ((p.drop 1).take 8))
    · have hvalid : chunkValid timestamp p = false := decide_eq_false fun h => h.2 htime
      rw [if_pos htime, hvalid]
      exact ⟨rfl, rfl⟩
    have hvalid : chunkValid timestamp p = true := decide_eq_true ⟨hty, htime⟩
    rw [if_neg htime, hvalid]
    rcases s.context.checkNonceReplay .aead2022 now salt with ⟨e, c⟩
    cases e with
    | none | some e => exact ⟨rfl, rfl⟩
  · have hvalid : chunkValid timestamp p = false := decide_eq_false fun h => hty h.1
    rw [if_pos hty, hvalid]
    exact ⟨rfl, rfl⟩

theorem acceptHeader_server (now : Nat) (timestamp : UInt64) (key header : Bytes)
    (hserver : s.reader.streamTy = .server) :
    ((acceptHeader now timestamp key header s).1.toBool = (headerValid timestamp key header s.reader &&
        (s.context.checkNonceReplay .aead2022 now (header.take M.kind.saltLen)).1.isNone)) ∧
      (acceptHeader now timestamp key header s).2.context = bif headerValid timestamp key header s.reader then
          (s.context.checkNonceReplay .aead2022 now (header.take M.kind.saltLen)).2
        else s.context := by
  have hty := chooseCipher_streamTy key (header.take M.kind.saltLen) (header.drop M.kind.saltLen) s.reader
  unfold acceptHeader headerValid
  dsimp only
  rcases hchoose : chooseCipher key (header.take M.kind.saltLen) (header.drop M.kind.saltLen) s.reader with ⟨chosen, r⟩
  rw [hchoose] at hty
  cases chosen with
  | error e => exact ⟨rfl, rfl⟩
  | ok x =>
    obtain ⟨cipher, chunk⟩ := x
    dsimp only
    rcases hd : cipher.decryptPacket chunk with ⟨ok, p, cipher'⟩
    cases ok with
    | false => exact ⟨rfl, rfl⟩
    | true =>
      have hcheck := checkHeader_server now timestamp (header.take M.kind.saltLen) p
        (s := { s with reader := r }) (hty.trans hserver)
      dsimp only
      cases hc : checkHeader now timestamp (header.take M.kind.saltLen) p
          { s with reader := r } with
      | mk res s' =>
        rw [hc] at hcheck
        cases res with
        | error e | ok length => exact hcheck

theorem acceptHeader_streamTy (now : Nat) (timestamp : UInt64) (key header : Bytes) (s : ReaderIo M) :
    (acceptHeader now timestamp key header s).2.reader.streamTy = s.reader.streamTy := by
  have hty := chooseCipher_streamTy key (header.take M.kind.saltLen) (header.drop M.kind.saltLen) s.reader
  unfold acceptHeader
  dsimp only
  split
  · rename_i hchoose
    rwa [hchoose] at hty
  rename_i r hchoose
  rw [hchoose] at hty
  split
  · exact hty
  rename_i p _ _
  obtain ⟨a, b, hr⟩ := checkHeader_reader now timestamp (header.take M.kind.saltLen) p
    { s with reader := r }
  split <;> rename_i hc
  · rw [hc] at hr
    exact (congrArg DecryptedReader.streamTy hr).trans hty
  · rw [hc] at hr
    exact (congrArg DecryptedReader.streamTy hr).trans hty

/-! ## 2. One poll -/

section

variable {now : Nat} {timestamp : UInt64} {cap : Nat}

theorem readRound_streamTy (s : ReaderIo M) (h : s.reader.streamTy = .server) :
    (readRound now timestamp cap s).state.reader.streamTy = .server := by
  unfold readRound
  cases hs : s.reader.state with
  | chunks state cipher =>
    dsimp only
    cases chunkRound rules cap (s.toRx state cipher) with
    | ret r rx | next rx => exact h
  | readHeader key =>
    dsimp only
    split
    · exact h
    · exact h
    rename_i header sock _
    split
    · exact h
    split
    · exact h
    · have ha := acceptHeader_streamTy now timestamp key header { s with sock := sock }
      split <;> rename_i he
      · rw [he] at ha
        exact ha.trans h
      · rw [he] at ha
        exact ha.trans h

theorem pollReadDecrypted_streamTy (h : s.reader.streamTy = .server) :
    (pollReadDecrypted now timestamp cap s).2.reader.streamTy = .server :=
  loopUntil_keeps (P := fun t => t.reader.streamTy = .server) (readRound_pot now timestamp cap)
    readRound_streamTy h

theorem pollReadDecrypted_past (h : ¬ Awaiting s.reader) :
    (pollReadDecrypted now timestamp cap s).2.context = s.context := by
  suffices hkeep : (pollReadDecrypted now timestamp cap s).2.context = s.context ∧
      ¬ Awaiting (pollReadDecrypted now timestamp cap s).2.reader from hkeep.1
  refine loopUntil_keeps (P := fun t => t.context = s.context ∧ ¬ Awaiting t.reader)
    (readRound_pot now timestamp cap) ?_ ⟨rfl, h⟩
  rintro t ⟨hcontext, hpast⟩
  unfold readRound
  cases hs : t.reader.state with
  | readHeader key => exact absurd ⟨key, hs⟩ hpast
  | chunks state cipher =>
    dsimp only
    cases chunkRound rules cap (t.toRx state cipher) with
    | ret r rx | next rx => exact ⟨hcontext, not_awaiting_chunks rfl⟩

theorem pollReadDecrypted_context (hserver : s.reader.streamTy = .server) :
    (pollReadDecrypted now timestamp cap s).2.context = match presented s with
      | none => s.context
      | some (key, header) =>
        bif headerValid timestamp key header s.reader then
          (s.context.checkNonceReplay .aead2022 now (header.take M.kind.saltLen)).2
        else s.context := by
  unfold presented
  cases hs : s.reader.state with
  | chunks state cipher =>
    refine pollReadDecrypted_past fun ⟨key, hkey⟩ => ?_
    rw [hs] at hkey
    cases hkey
  | readHeader key =>
    rw [pollReadDecrypted, loopUntil_eq (readRound_pot now timestamp cap)]
    rw [readRound, hs]
    rcases hread : pollRead s.reader.headerLen s.sock with ⟨res, sock⟩
    cases res with
    | pending | error e => rfl
    | ready header =>
      dsimp only
      by_cases hlen : header.length = s.reader.headerLen
      · have hne : header ≠ [] := by
          rintro rfl
          exact absurd hlen (headerLen_pos s.reader).ne
        have haccept := acceptHeader_server now timestamp key header
          (s := { s with sock := sock }) hserver
        rw [if_neg hne, if_neg (not_not_intro hlen), if_pos hlen]
        rcases ha : acceptHeader now timestamp key header { s with sock := sock } with ⟨accepted, s'⟩
        rw [ha] at haccept
        cases accepted with
        | error e => exact haccept.2
        | ok x =>
          refine Eq.trans ?_ haccept.2
          exact pollReadDecrypted_past (not_awaiting_chunks rfl)
      · rw [if_neg hlen]
        by_cases hnil : header = []
        · rw [if_pos hnil]
        · rw [if_neg hnil, if_pos hlen]

end

/-! ## 3. The connections of a server -/

def getNowTimestamp (epoch now : Nat) : UInt64 := UInt64.ofNat ((epoch + now) / nanos)

structure PollInput where
  (now cap : Nat)

abbrev Conn (M : Method) : Type := DecryptedReader M × ReadSock

def enterConn (M : Method) (key : Bytes) (users : Option ServerUserManager) (sock : ReadSock) : Conn M :=
  (.withUserManager M .server key users, sock)

def pollConn (epoch : Nat) (e : PollInput) (x : Conn M × Context) :
    Poll ProtocolError Bytes × Conn M × Context :=
  match pollReadDecrypted e.now (getNowTimestamp epoch e.now) e.cap ⟨x.1.1, x.1.2, x.2⟩ with
  | (r, s) => (r, (s.reader, s.sock), s.context)

def connStep (M : Method) (key : Bytes) (users : Option ServerUserManager) (epoch : Nat) :
    Shared Context (Conn M) → Turn ReadSock PollInput →
      Shared Context (Conn M) × List (Transition Context (Conn M) PollInput (Poll ProtocolError Bytes)) :=
  turn (enterConn M key users) (pollConn epoch)

def noConns (M : Method) (context : Context) : Shared Context (Conn M) := ⟨context, []⟩

structure Arrival where
  header : Bytes
  time : Nat
  accepted : Bool

def arrival (epoch : Nat) (t : Transition Context (Conn M) PollInput (Poll ProtocolError Bytes)) :
    Option Arrival :=
  let s : ReaderIo M := ⟨t.before.1.1, t.before.1.2, t.before.2⟩
  let timestamp := getNowTimestamp epoch t.input.now
  match presented s with
  | none => none
  | some (key, header) =>
    let accepted := (acceptHeader t.input.now timestamp key header
      { s with sock := (pollRead s.reader.headerLen s.sock).2 }).1.toBool
    if headerValid timestamp key header s.reader then some ⟨header, t.input.now, accepted⟩ else none

def arrivals (epoch : Nat)
    (log : List (Transition Context (Conn M) PollInput (Poll ProtocolError Bytes))) : List Arrival :=
  log.filterMap (arrival epoch)

def Arrival.salt (M : Method) (a : Arrival) : Bytes := a.header.take M.kind.saltLen

def saltLife : Nat := (serverStreamTimestampMaxDiff * 2).toNat * nanos

def Remembered (M : Method) (earlier : List Arrival) (a : Arrival) : Prop :=
  ∃ b ∈ earlier, b.salt M = a.salt M ∧ a.time ≤ b.time + saltLife

instance (earlier : List Arrival) (a : Arrival) : Decidable (Remembered M earlier a) :=
  inferInstanceAs (Decidable (∃ b ∈ earlier, _))

def Exact (M : Method) (as : List Arrival) : Prop :=
  ∀ earlier a later, as = earlier ++ a :: later → (a.accepted = true ↔ ¬ Remembered M earlier a)

variable {as : List Arrival}

theorem exact_concat {a : Arrival} (h : Exact M as)
    (ha : a.accepted = true ↔ ¬ Remembered M as a) : Exact M (as ++ [a]) := by
  intro earlier b later heq
  rcases concat_split heq with ⟨rfl, rfl⟩ | ⟨later', hfront⟩
  · exact ha
  · exact h earlier b later' hfront

def pollTimes (es : List (Turn ReadSock PollInput)) : List Nat :=
  es.filterMap fun
    | .act _ e => some e.now
    | .join _ => none

structure ConnsOk (M : Method) (epoch : Nat) (es : List (Turn ReadSock PollInput))
    (s : Shared Context (Conn M))
    (log : List (Transition Context (Conn M) PollInput (Poll ProtocolError Bytes))) : Prop where
  server : ∀ l ∈ s.parties, l.1.streamTy = .server
  capacity : s.context.replayProtector.nonceSet.capacity = none
  ttl : s.context.replayProtector.nonceSet.ttl = saltLife
  recent : ∀ now, (∀ t ∈ pollTimes es, t ≤ now) → s.context.replayProtector.nonceSet.Recent
    ((arrivals epoch log).map fun a => (a.salt M, a.time)) now
  exact : Exact M (arrivals epoch log)

theorem presented_salt {key header : Bytes} (h : presented s = some (key, header)) :
    header.take M.kind.saltLen ≠ [] := by
  have hlen : header.length = s.reader.headerLen := by
    unfold presented at h
    split at h
    · split at h
      · split at h
        · rename_i heq
          cases h
          exact heq
        · cases h
      · cases h
    · cases h
  have hpos := M.kind.saltLen_pos
  intro hnil
  have hzero := congrArg length hnil
  rw [length_take, hlen, length_nil] at hzero
  unfold DecryptedReader.headerLen at hzero
  omega

theorem pollConn_arrival (epoch i : Nat) (e : PollInput) {l : Conn M} (c : Context)
    (hserver : l.1.streamTy = .server) :
    match arrival epoch ⟨i, e, (l, c), (pollConn epoch e (l, c)).1, (pollConn epoch e (l, c)).2⟩ with
    | none => (pollConn epoch e (l, c)).2.2 = c
    | some a => a.time = e.now ∧ a.salt M ≠ [] ∧
        a.accepted = (c.checkNonceReplay .aead2022 e.now (a.salt M)).1.isNone ∧
        (pollConn epoch e (l, c)).2.2 = (c.checkNonceReplay .aead2022 e.now (a.salt M)).2 := by
  have hcontext : (pollConn epoch e (l, c)).2.2 = _ :=
    pollReadDecrypted_context (s := ⟨l.1, l.2, c⟩) hserver
  rw [hcontext]
  unfold arrival
  dsimp only
  cases hp : presented (⟨l.1, l.2, c⟩ : ReaderIo M) with
  | none => rfl
  | some x =>
    obtain ⟨key, header⟩ := x
    have haccept := (acceptHeader_server e.now (getNowTimestamp epoch e.now) key header
      (s := ⟨l.1, (pollRead l.1.headerLen l.2).2, c⟩) hserver).1
    dsimp only at haccept ⊢
    cases hv : headerValid (getNowTimestamp epoch e.now) key header l.1 with
    | false => rfl
    | true =>
      rw [hv, Bool.true_and] at haccept
      exact ⟨rfl, presented_salt hp, haccept, rfl⟩

section

variable {epoch : Nat} {es : List (Turn ReadSock PollInput)} {s : Shared Context (Conn M)}
  {log : List (Transition Context (Conn M) PollInput (Poll ProtocolError Bytes))}

theorem ConnsOk.poll (h : ConnsOk M epoch es s log) {i : Nat} {e : PollInput} {l : Conn M}
    (hl : s.parties[i]? = some l) (htime : ∀ t ∈ pollTimes es, t ≤ e.now) : ConnsOk M epoch (es ++ [.act i e])
      ⟨(pollConn epoch e (l, s.context)).2.2, s.parties.set i (pollConn epoch e (l, s.context)).2.1⟩
      (log ++ [⟨i, e, (l, s.context), (pollConn epoch e (l, s.context)).1,
        (pollConn epoch e (l, s.context)).2⟩]) := by
  have hserver : l.1.streamTy = .server := h.server l (mem_of_getElem? hl)
  have hkept : (pollConn epoch e (l, s.context)).2.1.1.streamTy = .server :=
    pollReadDecrypted_streamTy (s := ⟨l.1, l.2, s.context⟩) hserver
  have hparties : ∀ l' ∈ s.parties.set i (pollConn epoch e (l, s.context)).2.1, l'.1.streamTy = .server := by
    intro l' hl'
    rcases mem_or_eq_of_mem_set hl' with hold | rfl
    · exact h.server l' hold
    · exact hkept
  have hlater : ∀ now, (∀ t ∈ pollTimes (es ++ [.act i e]), t ≤ now) → e.now ≤ now :=
    fun now hall => hall e.now (by simp [pollTimes])
  have hrecent := h.recent e.now htime
  have hspec := pollConn_arrival epoch i e s.context hserver
  have hlog : ∀ tr, arrivals epoch (log ++ [tr]) = arrivals epoch log ++ (arrival epoch tr).toList := by
    intro tr
    cases ha : arrival epoch tr with
    | none | some a => simp [ha, arrivals]
  cases ha : arrival epoch ⟨i, e, (l, s.context), (pollConn epoch e (l, s.context)).1,
      (pollConn epoch e (l, s.context)).2⟩ with
  | none =>
    rw [ha] at hspec
    refine ⟨hparties, ?_, ?_, fun now hall => ?_, ?_⟩
    · rw [hspec]
      exact h.capacity
    · rw [hspec]
      exact h.ttl
    · rw [hspec, hlog, ha, Option.toList_none, append_nil]
      exact hrecent.later (hlater now hall)
    · rw [hlog, ha, Option.toList_none, append_nil]
      exact h.exact
  | some a =>
    rw [ha] at hspec
    obtain ⟨htimeEq, hsalt, haccepted, hctx⟩ := hspec
    obtain ⟨hanswer, hset⟩ := Context.checkNonceReplay_aead2022 h.capacity e.now hsalt
    refine ⟨hparties, ?_, ?_, fun now hall => ?_, ?_⟩
    · rw [hctx, hset]
      exact h.capacity
    · rw [hctx, hset]
      exact h.ttl
    · rw [hctx, hset, hlog, ha, Option.toList_some, map_append, map_singleton, htimeEq]
      exact (hrecent.touch le_rfl _ ()).later (hlater now hall)
    rw [hlog, ha, Option.toList_some]
    refine exact_concat h.exact ?_
    -- accepted: the cache does not find the salt, so no arrival with it is recent
    have hfound := hrecent.found e.now le_rfl (a.salt M)
    rw [h.ttl] at hfound
    rw [haccepted, hanswer, Option.isNone_iff_eq_none, ← Option.not_isSome_iff_eq_none, hfound, not_iff_not]
    simp only [Remembered, mem_map, Prod.mk.injEq, htimeEq]
    constructor
    · rintro ⟨t, ⟨b, hb, hsame, rfl⟩, hle⟩
      exact ⟨b, hb, hsame, hle⟩
    · rintro ⟨b, hb, hsame, hle⟩
      exact ⟨b.time, ⟨b, hb, hsame, rfl⟩, hle⟩

theorem ConnsOk.turn {key : Bytes} {users : Option ServerUserManager} (h : ConnsOk M epoch es s log)
    (t : Turn ReadSock PollInput) (htime : ∀ n ∈ pollTimes [t], ∀ n' ∈ pollTimes es, n' ≤ n) :
    ConnsOk M epoch (es ++ [t]) (connStep M key users epoch s t).1 (log ++ (connStep M key users epoch s t).2) := by
  have hturned := turn_turned (enterConn M key users) (pollConn epoch) s t
  unfold connStep
  generalize Lib.turn (enterConn M key users) (pollConn epoch) s t = x at hturned ⊢
  cases hturned with
  | joined sock =>
    rw [append_nil]
    refine ⟨fun l hl => ?_, h.capacity, h.ttl, fun now hall => ?_, h.exact⟩
    · rcases mem_concat.mp hl with hold | rfl
      · exact h.server l hold
      · rfl
    · refine h.recent now fun t ht => hall t ?_
      rw [pollTimes, filterMap_append]
      exact mem_append_left _ ht
  | nobody i e hi =>
    rw [append_nil]
    refine ⟨h.server, h.capacity, h.ttl, fun now hall => h.recent now fun t ht => hall t ?_, h.exact⟩
    rw [pollTimes, filterMap_append]
    exact mem_append_left _ ht
  | acted i e l hi => exact h.poll hi (htime e.now (by simp [pollTimes]))

end

def serverContext (h₁ h₂ : Bytes → List Nat) (policy : ReplayAttackPolicy) : Context :=
  (Context.new .server h₁ h₂).setReplayAttackPolicy policy

theorem arrivals_exact (M : Method) (key : Bytes) (users : Option ServerUserManager) (epoch : Nat)
    (h₁ h₂ : Bytes → List Nat) (policy : ReplayAttackPolicy) {es : List (Turn ReadSock PollInput)}
    (hmono : (pollTimes es).Pairwise (· ≤ ·)) :
    Exact M (arrivals epoch (run (connStep M key users epoch) (noConns M (serverContext h₁ h₂ policy)) es).2) := by
  suffices h : ConnsOk M epoch es
      (run (connStep M key users epoch) (noConns M (serverContext h₁ h₂ policy)) es).1 _ from h.exact
  refine run_inv_inputs (I := ConnsOk M epoch) ?_ es fun front t hpre s log h => h.turn t ?_
  · refine ⟨nofun, rfl, rfl, fun now _ => LruCache.recent_empty _ now, fun earlier a later heq => ?_⟩
    simp [arrivals] at heq
  intro n hn n' hn'
  have hsub : (pollTimes front ++ pollTimes [t]).Pairwise (· ≤ ·) := by
    rw [pollTimes, pollTimes, ← filterMap_append]
    exact hmono.sublist (hpre.sublist.filterMap _)
  exact (pairwise_append.mp hsub).2.2 n' hn' n hn

/-! ## 4. Accepted once -/

def acceptedHeaders (as : List Arrival) : List Bytes := (as.filter Arrival.accepted).map Arrival.header

def InTimeToRefuse (M : Method) (as : List Arrival) : Prop :=
  ∀ earlier a later, as = earlier ++ a :: later → a.header ∈ acceptedHeaders earlier → Remembered M earlier a

theorem acceptedHeaders_concat (as : List Arrival) (a : Arrival) :
    acceptedHeaders (as ++ [a]) = acceptedHeaders as ++ if a.accepted then [a.header] else [] := by
  rw [acceptedHeaders, filter_append, map_append]
  by_cases ha : a.accepted = true
  · rw [if_pos ha, filter_cons_of_pos ha]
    rfl
  · rw [if_neg ha, filter_cons_of_neg ha]
    rfl

theorem nodup_acceptedHeaders_iff (h : Exact M as) :
    (acceptedHeaders as).Nodup ↔ InTimeToRefuse M as := by
  constructor
  · rintro hnodup earlier a later rfl hagain
    by_contra hforgotten
    have haccepted := (h earlier a later rfl).mpr hforgotten
    have hsub : List.Sublist (acceptedHeaders (earlier ++ [a])) (acceptedHeaders (earlier ++ a :: later)) := by
      rw [append_cons earlier a later]
      exact ((sublist_append_left _ _).filter _).map _
    have hboth := hsub.nodup hnodup
    rw [acceptedHeaders_concat, if_pos haccepted] at hboth
    exact (nodup_append.mp hboth).2.2 _ hagain _ (mem_singleton_self _) rfl
  intro htime
  induction as using reverseRecOn with
  | nil => exact nodup_nil
  | append_singleton as a ih =>
    have hfront : (acceptedHeaders as).Nodup := by
      refine ih (fun earlier b later heq => ?_) fun earlier b later heq => ?_
      · exact h earlier b (later ++ [a]) (by rw [heq, append_assoc, cons_append])
      · exact htime earlier b (later ++ [a]) (by rw [heq, append_assoc, cons_append])
    rw [acceptedHeaders_concat]
    by_cases haccepted : a.accepted = true
    · rw [if_pos haccepted]
      refine nodup_append.mpr ⟨hfront, nodup_singleton _, ?_⟩
      rintro x hx y hy rfl
      rw [mem_singleton.mp hy] at hx
      exact (h as a [] rfl).mp haccepted (htime as a [] rfl hx)
    · rw [if_neg haccepted, append_nil]
      exact hfront

noncomputable def readClock (t : ℝ) : Nat := ⌊t * nanos⌋₊

noncomputable def turnAt (x : ℝ × Turn ReadSock Nat) : Turn ReadSock PollInput :=
  match x.2 with
  | .join sock => .join sock
  | .act i cap => .act i ⟨readClock x.1, cap⟩

theorem readClock_mono {t t' : ℝ} (h : t ≤ t') : readClock t ≤ readClock t' :=
  Nat.floor_mono (mul_le_mul_of_nonneg_right h (Nat.cast_nonneg _))

theorem pollTimes_turnAt {schedule : List (ℝ × Turn ReadSock Nat)}
    (hmono : (schedule.map Prod.fst).Pairwise (· ≤ ·)) :
    (pollTimes (schedule.map turnAt)).Pairwise (· ≤ ·) := by
  rw [pollTimes, filterMap_map, pairwise_filterMap]
  rw [pairwise_map] at hmono
  refine hmono.imp fun {x y} hle n hn n' hn' => ?_
  obtain ⟨t, tx⟩ := x
  obtain ⟨t', ty⟩ := y
  cases tx with
  | join sock => cases hn
  | act i cap =>
    cases ty with
    | join sock => cases hn'
    | act j cap' =>
      cases hn
      cases hn'
      exact readClock_mono hle

/-- **A request header is accepted once exactly if it does not come back too late**: in its time at most 60 seconds
after the last arrival of its salt. -/
theorem accepted_once_iff (M : Method) (key : Bytes) (users : Option ServerUserManager) (epoch : Nat)
    (h₁ h₂ : Bytes → List Nat) (policy : ReplayAttackPolicy) (schedule : List (ℝ × Turn ReadSock Nat))
    (hmono : (schedule.map Prod.fst).Pairwise (· ≤ ·)) :
    (acceptedHeaders (arrivals epoch (run (connStep M key users epoch)
      (noConns M (serverContext h₁ h₂ policy)) (schedule.map turnAt)).2)).Nodup ↔
      InTimeToRefuse M (arrivals epoch (run (connStep M key users epoch)
        (noConns M (serverContext h₁ h₂ policy)) (schedule.map turnAt)).2) :=
  nodup_acceptedHeaders_iff (arrivals_exact M key users epoch h₁ h₂ policy (pollTimes_turnAt hmono))

def header₃₀ : Bytes :=
  let salt := plainSetup.clientSalt
  salt ++ taggedMethod.aead.encrypt (taggedMethod.subkey plainSetup.serverKey salt) 0
    (headerChunk .client 30 none [])

noncomputable def replayAfter (n : Nat) : List (ℝ × Turn ReadSock Nat) :=
  [(0, .join [.data header₃₀]), (0, .join [.data header₃₀]), (0, .act 0 10), (n / nanos, .act 1 10)]

theorem readClock_nanos (n : Nat) : readClock (n / nanos) = n := by
  have hpos : (nanos : ℝ) ≠ 0 := Nat.cast_ne_zero.mpr (by decide)
  rw [readClock, div_mul_cancel₀ _ hpos, Nat.floor_natCast]

theorem replayAfter_turns (n : Nat) : (replayAfter n).map turnAt =
      [.join [.data header₃₀], .join [.data header₃₀], .act 0 ⟨0, 10⟩, .act 1 ⟨n, 10⟩] := by
  have hzero : readClock 0 = 0 := by rw [readClock, zero_mul, Nat.floor_zero]
  simp [replayAfter, turnAt, hzero, readClock_nanos]

theorem replayAfter_mono (n : Nat) : ((replayAfter n).map Prod.fst).Pairwise (· ≤ ·) := by
  have hn : (0 : ℝ) ≤ n / nanos := div_nonneg (Nat.cast_nonneg _) (Nat.cast_nonneg _)
  simp [replayAfter, hn]

noncomputable def acceptedOf (schedule : List (ℝ × Turn ReadSock Nat)) : List Bytes :=
  acceptedHeaders (arrivals 0 (run (connStep taggedMethod plainSetup.serverKey none 0)
    (noConns taggedMethod (serverContext (map UInt8.toNat) (map UInt8.toNat) .default))
    (schedule.map turnAt)).2)

theorem accepted_once_iff_minute : ((replayAfter (60 * nanos)).map Prod.fst).Pairwise (· ≤ ·) ∧
      acceptedOf (replayAfter (60 * nanos)) = [header₃₀] ∧
      InTimeToRefuse taggedMethod (arrivals 0 (run (connStep taggedMethod plainSetup.serverKey none 0)
        (noConns taggedMethod (serverContext (map UInt8.toNat) (map UInt8.toNat) .default))
        ((replayAfter (60 * nanos)).map turnAt)).2) := by
  have hone : acceptedOf (replayAfter (60 * nanos)) = [header₃₀] := by
    rw [acceptedOf, replayAfter_turns]
    decide +kernel
  refine ⟨replayAfter_mono _, hone, ?_⟩
  refine (accepted_once_iff taggedMethod plainSetup.serverKey none 0 _ _ .default _
    (replayAfter_mono (60 * nanos))).mp ?_
  show (acceptedOf (replayAfter (60 * nanos))).Nodup
  rw [hone]
  exact nodup_singleton _

/-- **Accepted twice**: with a timestamp 30 seconds ahead, and 60.5 seconds later, when its salt was
just forgotten. -/
theorem accepted_twice : ((replayAfter 60500000000).map Prod.fst).Pairwise (· ≤ ·) ∧
      acceptedOf (replayAfter 60500000000) = [header₃₀, header₃₀] := by
  refine ⟨replayAfter_mono _, ?_⟩
  rw [acceptedOf, replayAfter_turns]
  decide +kernel

end Shadowsocks.Tcp.V2
