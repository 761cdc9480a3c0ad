/-
  Subject:   THE REPLAY FILTER OF THE AEAD STREAMS, asked by each stream once its first data is authentic. A refused
  reader tries its opened buffer again at every poll; that this fails is a property of the cipher
  (`Aead.OpensOnce`).
-/
import Shadowsocks.Lib.Shared
import Shadowsocks.Tcp.Aead

namespace Shadowsocks.Tcp

open Lib List

/-! ## 1. A round that awaits data -/

section

variable {A : Aead} {η ε : Type} {R : ChunkRules η ε} {size : Nat} {r : Rx A η}

theorem pollReadExact_full {size : Nat} {buffer : Bytes} (h : size ≤ buffer.length) (sock : ReadSock) :
    pollReadExact size buffer sock = (.ready size, buffer, sock) := by
  rw [pollReadExact, loopUntil_eq (exactRound_pot size), exactRound, if_neg (not_lt.mpr h)]

inductive DataRound (R : ChunkRules η ε) (size : Nat) (r : Rx A η) : Ctl (Poll ε Bytes) (Rx A η) → Prop where
  | waits (res : Poll ε Bytes) (r' : Rx A η) (hres : ∀ bs, res ≠ .ready bs)
      (hstate : r'.state = .readData size) (hkey : r'.cipher.key = r.cipher.key)
      (hrest : r'.rest = r.rest) : DataRound R size r (.ret res r')
  | refused (buf p : Bytes) (sock : ReadSock) (e : ε) (rest : η)
      (hx : pollReadExact (size + A.tagLen) r.buffer r.sock = (.ready (size + A.tagLen), buf, sock))
      (hge : size + A.tagLen ≤ buf.length)
      (hd : A.decrypt r.cipher.key r.cipher.nonce (buf.take (size + A.tagLen)) = some p)
      (ho : R.onData r.rest = (some e, rest)) :
      DataRound R size r (.ret (.error e) ⟨.readData size, { r.cipher with nonce := r.cipher.nonce + 1 },
        p ++ (buf.take (size + A.tagLen)).drop p.length ++ buf.drop (size + A.tagLen), rest, sock⟩)
  | opened (buf p : Bytes) (sock : ReadSock) (r' : Rx A η)
      (hx : pollReadExact (size + A.tagLen) r.buffer r.sock = (.ready (size + A.tagLen), buf, sock))
      (hd : A.decrypt r.cipher.key r.cipher.nonce (buf.take (size + A.tagLen)) = some p)
      (ho : R.onData r.rest = (none, r'.rest)) (hstate : r'.state = .bufferedData 0) :
      DataRound R size r (.next r')

theorem chunkRound_data (cap : Nat) (hs : r.state = .readData size) : DataRound R size r (chunkRound R cap r) := by
  have hx := pollReadExact_step (size + A.tagLen) r.buffer r.sock
  rw [chunkRound, hs]
  unfold pollReadData
  dsimp only
  rcases hr : pollReadExact (size + A.tagLen) r.buffer r.sock with ⟨x, buf, sock⟩
  rw [hr] at hx
  cases x with
  | pending | error e => exact .waits _ _ (by simp) hs rfl rfl
  | ready n =>
    by_cases hn : n = 0
    · dsimp only
      rw [if_pos hn]
      exact .waits _ _ (by simp) hs rfl rfl
    obtain ⟨rfl, hge⟩ := hx.ready_size hn
    dsimp only
    rw [if_neg hn]
    cases hd : A.decrypt r.cipher.key r.cipher.nonce (buf.take (size + A.tagLen)) with
    | none =>
      rw [Cipher.decryptPacket_none hd]
      exact .waits _ _ (by simp) hs rfl rfl
    | some p =>
      rw [Cipher.decryptPacket_some hd]
      rcases ho : R.onData r.rest with ⟨e, rest⟩
      cases e with
      | some e =>
        rw [hs]
        exact .refused buf p sock e rest hr hge hd ho
      | none => exact .opened buf p sock _ hr hd ho rfl

theorem chunkRound_rest (cap : Nat) (h : R.onData r.rest = (none, r.rest)) :
    (chunkRound R cap r).state.rest = r.rest := by
  have hround := chunkRound_step (R := R) cap r
  generalize chunkRound R cap r = x at hround ⊢
  cases hround with
  | dataRefused size p buffer' e hx hd ho =>
    rw [h] at ho
    cases ho
  | dataOk size p hx hd ho =>
    rw [h] at ho
    cases ho
    rfl
  | _ => rfl

end

namespace V1

variable {M : AeadMethod}

/-! ## 2. The phases of a reader -/

def opensData (s : ReaderIo M) : Bool :=
  match s.reader.state with
  | .chunks (.readData size) cipher =>
    match pollReadExact (size + M.aead.tagLen) s.reader.buffer s.sock with
    | (.ready n, buf, _) => n ≠ 0 && (cipher.decryptPacket (buf.take (size + M.aead.tagLen))).1
    | _ => false
  | _ => false

inductive Unasked (key wire : Bytes) (s : ReaderIo M) : Prop where
  | waiting (hstate : s.reader.state = .waitSalt key) (hwire : s.reader.buffer ++ sockBytes s.sock = wire)
      (hlen : s.reader.buffer.length ≤ M.saltLen) (hshook : s.reader.hasHandshaked = false)
  | reading (state : ChunkState) (cipher : Cipher M.aead) (hstate : s.reader.state = .chunks state cipher)
      (hkey : cipher.key = M.subkey key (wire.take M.saltLen)) (hdata : ∀ pos, state ≠ .bufferedData pos)
      (hsalt : s.reader.salt = some (wire.take M.saltLen)) (hshook : s.reader.hasHandshaked = true)

structure Refused (k : M.aead.Sub) (Spent : Nat → Bytes → Prop) (s : ReaderIo M) : Prop where
  state : ∃ size cipher, s.reader.state = .chunks (.readData size) cipher ∧ cipher.key = k ∧
    size + M.aead.tagLen ≤ s.reader.buffer.length ∧
    Spent cipher.nonce (s.reader.buffer.take (size + M.aead.tagLen))
  salt : s.reader.salt = none
  shook : s.reader.hasHandshaked = true

structure Passed (s : ReaderIo M) : Prop where
  state : ∃ state cipher, s.reader.state = .chunks state cipher
  salt : s.reader.salt = none
  shook : s.reader.hasHandshaked = true

abbrev ReaderIo.asked (now : Nat) (wire : Bytes) (s : ReaderIo M) : Option IoError × Context :=
  s.context.checkNonceReplay .aead now (wire.take M.saltLen)

def Nothing (r : Poll ProtocolError Bytes) : Prop := ∀ bs, r = .ready bs → bs = []

inductive AskRound (now : Nat) (key wire : Bytes) (Spent : Nat → Bytes → Prop) (s : ReaderIo M) :
    Ctl (Poll ProtocolError Bytes) (ReaderIo M) → Prop where
  | waits (r : Poll ProtocolError Bytes) (s' : ReaderIo M) (hr : Nothing r) (hs : Unasked key wire s')
      (hctx : s'.context = s.context) : AskRound now key wire Spent s (.ret r s')
  | goesOn (s' : ReaderIo M) (hs : Unasked key wire s') (hctx : s'.context = s.context) :
      AskRound now key wire Spent s (.next s')
  | refused (e : ProtocolError) (s' : ReaderIo M) (hopen : opensData s = true)
      (hsalt : s.reader.salt = some (wire.take M.saltLen))
      (hno : (s.asked now wire).1 ≠ none)
      (hctx : s'.context = (s.asked now wire).2)
      (hs : Refused (M.subkey key (wire.take M.saltLen)) Spent s') :
      AskRound now key wire Spent s (.ret (.error e) s')
  | passes (s' : ReaderIo M) (hopen : opensData s = true)
      (hsalt : s.reader.salt = some (wire.take M.saltLen))
      (hyes : (s.asked now wire).1 = none)
      (hctx : s'.context = (s.asked now wire).2)
      (hs : Passed s') : AskRound now key wire Spent s (.next s')

section

variable (now cap : Nat) {key wire : Bytes} {Spent : Nat → Bytes → Prop} {s : ReaderIo M}

theorem readRound_waiting (hsalt : 0 < M.saltLen) (hstate : s.reader.state = .waitSalt key)
    (hwire : s.reader.buffer ++ sockBytes s.sock = wire) (hlen : s.reader.buffer.length ≤ M.saltLen)
    (hshook : s.reader.hasHandshaked = false) : AskRound now key wire Spent s (readRound now cap s) := by
  have hx := pollReadExact_step M.saltLen s.reader.buffer s.sock
  unfold readRound pollReadSalt
  rw [hstate]
  rcases hr : pollReadExact M.saltLen s.reader.buffer s.sock with ⟨x, buf, sock⟩
  rw [hr] at hx
  cases hx with
  | pending got _ hb hshort hw ho | error code got _ hb hshort hw ho | early got _ hb hshort hne hw ho =>
    refine .waits _ _ nofun (.waiting hstate ?_ (le_of_lt hshort) hshook) rfl
    rwa [append_assoc, ← hb]
  | eof _ hb hsize hne hw ho =>
    dsimp only
    rw [if_pos hsalt]
    refine .waits _ _ nofun (.waiting hstate ?_ zero_le hshook) rfl
    rw [← hwire, hne, hb]
  | done got _ hb hge hfull hw hlt ho =>
    dsimp only
    rw [if_neg (lt_irrefl _)]
    have htake : (s.reader.buffer ++ got).take M.saltLen = wire.take M.saltLen := by
      rw [← hwire, hb, ← append_assoc, take_append_of_le_length (le_of_eq (hfull hlen).symm)]
    rw [htake]
    exact .goesOn _ (.reading _ _ rfl rfl nofun rfl rfl) rfl

variable {cipher : Cipher M.aead} {buf p : Bytes}

theorem opensData_of {size : Nat} {sock : ReadSock} (hstate : s.reader.state = .chunks (.readData size) cipher)
    (hx : pollReadExact (size + M.aead.tagLen) s.reader.buffer s.sock = (.ready (size + M.aead.tagLen), buf, sock))
    (hd : M.aead.decrypt cipher.key cipher.nonce (buf.take (size + M.aead.tagLen)) = some p) :
    opensData s = true := by
  have hpos := M.aead.tagLen_pos
  have hne : size + M.aead.tagLen ≠ 0 := by omega
  rw [opensData, hstate]
  dsimp only
  rw [hx]
  dsimp only
  rw [Cipher.decryptPacket_some hd, decide_eq_true hne]
  rfl

theorem readRound_length (hstate : s.reader.state = .chunks .readLength cipher)
    (hkey : cipher.key = M.subkey key (wire.take M.saltLen)) (hsalt : s.reader.salt = some (wire.take M.saltLen))
    (hshook : s.reader.hasHandshaked = true) : AskRound now key wire Spent s (readRound now cap s) := by
  have hround := chunkRound_step (R := rules now) cap (s.toRx .readLength cipher)
  rw [readRound, hstate]
  dsimp only
  generalize chunkRound (rules now) cap _ = x at hround ⊢
  cases hround with
  | lenPending hx | lenIo e hx | lenBad buffer' hx hd =>
    exact .waits _ _ (by simp [Nothing]) (.reading _ _ rfl hkey (by simp) hsalt hshook) rfl
  | lenEof hx =>
    refine .waits _ _ (fun bs h => ?_) (.reading _ _ rfl hkey (by simp) hsalt hshook) rfl
    cases h
    rfl
  | lenRefused p buffer' e hx hd hc =>
    exact .waits _ _ (by simp [Nothing]) (.reading _ _ rfl hkey (by simp) hsalt hshook) rfl
  | lenOk p hx hd hc => exact .goesOn _ (.reading _ _ rfl hkey (by simp) hsalt hshook) rfl

theorem spent_buffer {A : Aead} {k : A.Sub}
    (hspent : ∀ n c p, A.decrypt k n c = some p → Spent (n + 1) (p ++ c.drop p.length)) {n size : Nat}
    (hge : size ≤ buf.length) (hd : A.decrypt k n (buf.take size) = some p) :
    Spent (n + 1) ((p ++ (buf.take size).drop p.length ++ buf.drop size).take size) ∧
      size ≤ (p ++ (buf.take size).drop p.length ++ buf.drop size).length := by
  have hlen : (p ++ (buf.take size).drop p.length).length = size := by
    have hc := A.decrypt_length _ _ _ _ hd
    rw [length_take, min_eq_left hge] at hc
    rw [length_append, length_drop, length_take, min_eq_left hge]
    omega
  constructor
  · rw [take_left' hlen]
    exact hspent n _ p hd
  · rw [length_append, hlen]
    exact Nat.le_add_right _ _

theorem readRound_data {size : Nat}
    (hspent : ∀ n c p, M.aead.decrypt (M.subkey key (wire.take M.saltLen)) n c = some p →
      Spent (n + 1) (p ++ c.drop p.length)) (hstate : s.reader.state = .chunks (.readData size) cipher)
    (hkey : cipher.key = M.subkey key (wire.take M.saltLen)) (hsalt : s.reader.salt = some (wire.take M.saltLen))
    (hshook : s.reader.hasHandshaked = true) : AskRound now key wire Spent s (readRound now cap s) := by
  have hround := chunkRound_data (R := rules now) cap
    (show (s.toRx (.readData size) cipher).state = .readData size from rfl)
  have honData : (rules now).onData (s.toRx (.readData size) cipher).rest =
      ((s.asked now wire).1.map .ioError, none,
        (s.asked now wire).2) := by
    show (rules now).onData (s.reader.salt, s.context) = _
    rw [hsalt]
    rfl
  rw [readRound, hstate]
  dsimp only
  generalize chunkRound (rules now) cap (s.toRx (.readData size) cipher) = x at hround ⊢
  cases hround with
  | waits res r' hres hst hk hrest =>
    refine .waits _ _ (fun bs h => absurd h (hres bs)) (.reading r'.state r'.cipher rfl ?_ ?_ ?_ hshook) ?_
    · exact hk.trans hkey
    · simp [hst]
    · exact (congrArg Prod.fst hrest).trans hsalt
    · exact congrArg Prod.snd hrest
  | refused buf p sock e rest hx hge hd ho =>
    rw [honData] at ho
    obtain ⟨he, rfl⟩ := Prod.mk.inj ho
    have hd' : M.aead.decrypt (M.subkey key (wire.take M.saltLen)) cipher.nonce
        (buf.take (size + M.aead.tagLen)) = some p := hkey ▸ hd
    obtain ⟨hsp, hlong⟩ := spent_buffer hspent hge hd'
    refine .refused e _ (opensData_of hstate hx hd) hsalt (fun hnone => ?_) rfl ⟨?_, rfl, hshook⟩
    · rw [hnone] at he
      cases he
    · exact ⟨size, _, rfl, hkey, hlong, hsp⟩
  | opened buf p sock r' hx hd ho hst =>
    rw [honData] at ho
    obtain ⟨he, hrest⟩ := Prod.mk.inj ho
    refine .passes _ (opensData_of hstate hx hd) hsalt (Option.map_eq_none_iff.mp he) ?_ ⟨?_, ?_, hshook⟩
    · exact (congrArg Prod.snd hrest).symm
    · exact ⟨r'.state, r'.cipher, rfl⟩
    · exact (congrArg Prod.fst hrest).symm

theorem readRound_unasked (hlen : 0 < M.saltLen)
    (hspent : ∀ n c p, M.aead.decrypt (M.subkey key (wire.take M.saltLen)) n c = some p →
      Spent (n + 1) (p ++ c.drop p.length)) (h : Unasked key wire s) :
    AskRound now key wire Spent s (readRound now cap s) := by
  cases h with
  | waiting hstate hwire hle hshook => exact readRound_waiting now cap hlen hstate hwire hle hshook
  | reading state cipher hstate hkey hdata hsalt hshook =>
    cases state with
    | readLength => exact readRound_length now cap hstate hkey hsalt hshook
    | readData size => exact readRound_data now cap hspent hstate hkey hsalt hshook
    | bufferedData pos => exact absurd rfl (hdata pos)

theorem readRound_refused {k : M.aead.Sub} (hspent : ∀ n b, Spent n b → M.aead.decrypt k n b = none ∧
      Spent (M.aead.onFail n) (M.aead.garble k n b)) (h : Refused k Spent s) :
    ∃ s', readRound now cap s = .ret (.error .decryptDataError) s' ∧ Refused k Spent s' ∧ s'.context = s.context := by
  obtain ⟨⟨size, cipher, hstate, rfl, hfull, hsp⟩, hsalt, hshook⟩ := h
  obtain ⟨hd, hnext⟩ := hspent _ _ hsp
  have hne : size + M.aead.tagLen ≠ 0 := by
    have := M.aead.tagLen_pos
    omega
  rw [readRound, hstate]
  dsimp only [chunkRound, ReaderIo.toRx, pollReadData]
  rw [pollReadExact_full hfull]
  dsimp only
  rw [if_neg hne, Cipher.decryptPacket_none hd]
  refine ⟨_, rfl, ⟨⟨size, _, rfl, rfl, ?_, ?_⟩, hsalt, hshook⟩, rfl⟩
  · show size + M.aead.tagLen ≤ (M.aead.garble _ _ _ ++ _).length
    rw [length_append, M.aead.garble_length, length_take, min_eq_left hfull]
    exact Nat.le_add_right _ _
  have hlen : (M.aead.garble cipher.key cipher.nonce
      (s.reader.buffer.take (size + M.aead.tagLen))).length = size + M.aead.tagLen := by
    rw [M.aead.garble_length, length_take, min_eq_left hfull]
  show Spent (M.aead.onFail cipher.nonce) ((M.aead.garble _ _ _ ++ _).take _)
  rwa [take_left' hlen]

theorem readRound_passed (h : Passed s) :
    Passed (readRound now cap s).state ∧ (readRound now cap s).state.context = s.context := by
  obtain ⟨⟨state, cipher, hstate⟩, hsalt, hshook⟩ := h
  have honData : (rules now).onData (s.toRx state cipher).rest = (none, (s.toRx state cipher).rest) := by
    show (rules now).onData (s.reader.salt, s.context) = (none, s.reader.salt, s.context)
    rw [hsalt]
    rfl
  have hrest := chunkRound_rest cap honData
  rw [readRound, hstate]
  dsimp only
  generalize chunkRound (rules now) cap (s.toRx state cipher) = x at hrest ⊢
  have hsalt' : x.state.rest.1 = none := (congrArg Prod.fst hrest).trans hsalt
  have hctx : x.state.rest.2 = s.context := congrArg Prod.snd hrest
  cases x with
  | ret res r' | next r' => exact ⟨⟨⟨_, _, rfl⟩, hsalt', hshook⟩, hctx⟩

end

/-! ## 3. A poll -/

section

inductive AskPoll (now : Nat) (key wire : Bytes) (Spent : Nat → Bytes → Prop) (s : ReaderIo M)
    (r : Poll ProtocolError Bytes) (t : ReaderIo M) (us : List (ReaderIo M)) : Prop where
  | unasked (ht : Unasked key wire t) (hr : Nothing r) (hctx : t.context = s.context)
  | refused (u : ReaderIo M) (hu : u ∈ us) (hopen : opensData u = true)
      (hsalt : u.reader.salt = some (wire.take M.saltLen))
      (hno : (s.asked now wire).1 ≠ none)
      (hctx : t.context = (s.asked now wire).2)
      (ht : Refused (M.subkey key (wire.take M.saltLen)) Spent t) (hr : Nothing r)
  | passed (u : ReaderIo M) (hu : u ∈ us) (hopen : opensData u = true)
      (hsalt : u.reader.salt = some (wire.take M.saltLen))
      (hyes : (s.asked now wire).1 = none)
      (hctx : t.context = (s.asked now wire).2)
      (ht : Passed t)

variable (now cap : Nat) {key wire : Bytes} {Spent : Nat → Bytes → Prop} {s : ReaderIo M}

theorem poll_passed (h : Passed s) :
    Passed (pollReadDecrypted now cap s).2 ∧ (pollReadDecrypted now cap s).2.context = s.context := by
  refine loopUntil_keeps (P := fun t => Passed t ∧ t.context = s.context) (readRound_pot now cap) ?_ ⟨h, rfl⟩
  rintro t ⟨ht, hctx⟩
  obtain ⟨ht', hctx'⟩ := readRound_passed now cap ht
  exact ⟨ht', hctx'.trans hctx⟩

theorem poll_refused {k : M.aead.Sub} (hspent : ∀ n b, Spent n b → M.aead.decrypt k n b = none ∧
      Spent (M.aead.onFail n) (M.aead.garble k n b)) (h : Refused k Spent s) :
    Nothing (pollReadDecrypted now cap s).1 ∧ Refused k Spent (pollReadDecrypted now cap s).2 ∧
      (pollReadDecrypted now cap s).2.context = s.context := by
  obtain ⟨s', hround, hs', hctx⟩ := readRound_refused now cap hspent h
  rw [pollReadDecrypted, loopUntil_eq (readRound_pot now cap), hround]
  exact ⟨nofun, hs', hctx⟩

theorem poll_unasked (hlen : 0 < M.saltLen)
    (hspent : ∀ n c p, M.aead.decrypt (M.subkey key (wire.take M.saltLen)) n c = some p →
      Spent (n + 1) (p ++ c.drop p.length)) (h : Unasked key wire s) :
    AskPoll now key wire Spent s (pollReadDecrypted now cap s).1 (pollReadDecrypted now cap s).2
      (visited (readRound now cap) readPot s) := by
  suffices hboth : (Unasked key wire s → AskPoll now key wire Spent s (pollReadDecrypted now cap s).1
      (pollReadDecrypted now cap s).2 (visited (readRound now cap) readPot s)) ∧
      (Passed s → Passed (pollReadDecrypted now cap s).2 ∧
        (pollReadDecrypted now cap s).2.context = s.context) from hboth.1 h
  refine loopUntil_visited (readRound_pot now cap)
    (Q := fun s r t us => (Unasked key wire s → AskPoll now key wire Spent s r t us) ∧
      (Passed s → Passed t ∧ t.context = s.context)) ?_ ?_ s
  · intro s r t hround
    constructor
    · intro h
      have hasked := readRound_unasked now cap hlen hspent h
      rw [hround] at hasked
      cases hasked with
      | waits _ _ hr hs hctx => exact .unasked hs hr hctx
      | refused e _ hopen hsalt hno hctx hs =>
        exact .refused s mem_cons_self hopen hsalt hno hctx hs nofun
    · intro h
      have hpassed := readRound_passed now cap h
      rwa [hround] at hpassed
  rintro s s' r t us hround ⟨ihAsk, ihPass⟩
  constructor
  · intro h
    have hasked := readRound_unasked now cap hlen hspent h
    rw [hround] at hasked
    cases hasked with
    | goesOn _ hs hctx =>
      cases ihAsk hs with
      | unasked ht hr hctx' => exact .unasked ht hr (hctx'.trans hctx)
      | refused u hu hopen hsalt hno hctx' ht hr =>
        rw [ReaderIo.asked, hctx] at hno hctx'
        exact .refused u (mem_cons_of_mem _ hu) hopen hsalt hno hctx' ht hr
      | passed u hu hopen hsalt hyes hctx' ht =>
        rw [ReaderIo.asked, hctx] at hyes hctx'
        exact .passed u (mem_cons_of_mem _ hu) hopen hsalt hyes hctx' ht
    | passes _ hopen hsalt hyes hctx hs =>
      obtain ⟨ht, hctx'⟩ := ihPass hs
      exact .passed s mem_cons_self hopen hsalt hyes (hctx'.trans hctx) ht
  intro h
  have hpassed := readRound_passed now cap h
  rw [hround] at hpassed
  obtain ⟨ht, hctx⟩ := ihPass hpassed.1
  exact ⟨ht, hctx.trans hpassed.2⟩

end

/-! ## 4. The streams of a context -/

structure Stream (M : AeadMethod) where
  (key wire : Bytes)
  reader : DecryptedReader M
  sock : ReadSock

def openStream (M : AeadMethod) (x : Bytes × ReadSock) : Stream M := ⟨x.1, sockBytes x.2, .new M x.1, x.2⟩

def Stream.io (l : Stream M) (context : Context) : ReaderIo M := ⟨l.reader, l.sock, context⟩

def Stream.saltOf (l : Stream M) : Bytes := l.wire.take M.saltLen

structure PollInput where
  (now cap : Nat)

def pollStream (e : PollInput) (x : Stream M × Context) : Poll ProtocolError Bytes × Stream M × Context :=
  match pollReadDecrypted e.now e.cap (x.1.io x.2) with
  | (r, s) => (r, { x.1 with reader := s.reader, sock := s.sock }, s.context)

abbrev StreamPoll (M : AeadMethod) : Type :=
  Transition Context (Stream M) PollInput (Poll ProtocolError Bytes)

def streamStep (M : AeadMethod) : Shared Context (Stream M) → Turn (Bytes × ReadSock) PollInput →
    Shared Context (Stream M) × List (StreamPoll M) :=
  turn (openStream M) pollStream

def Stream.checked (l : Stream M) : Bool := l.reader.hasHandshaked && l.reader.salt.isNone

variable (t : StreamPoll M)

def asks : Option Bytes :=
  if t.before.1.checked = false ∧ t.after.1.checked = true then some t.before.1.saltOf else none

def recorded : Option Bytes :=
  (asks t).filter (t.before.2.records t.input.now)

def delivers : Bool :=
  match t.result with
  | .ready (_ :: _) => true
  | _ => false

def recordedSalts (log : List (StreamPoll M)) : List Bytes := log.filterMap recorded

def itemCount : ServerType → Nat
  | .server => 500000
  | .localServer => 5000

def lastSalts (ty : ServerType) (log : List (StreamPoll M)) : List Bytes :=
  (recordedSalts log).drop ((recordedSalts log).length - itemCount ty)

def AsksAuthentic : Prop :=
  match asks t with
  | none => t.after.2 = t.before.2
  | some salt => t.after.2 = (t.before.2.checkNonceReplay .aead t.input.now salt).2 ∧
      ∃ u ∈ visited (readRound t.input.now t.input.cap) readPot (t.before.1.io t.before.2),
        opensData u = true ∧ u.reader.salt = some salt

theorem delivers_false {t : StreamPoll M} (h : Nothing t.result) : delivers t = false := by
  unfold delivers
  cases hr : t.result with
  | ready bs =>
    rw [h bs hr]
  | pending | error e => rfl

section

variable {key wire : Bytes} {Spent : Nat → Bytes → Prop} {l : Stream M} {c : Context}

theorem Unasked.elsewhere (h : Unasked key wire (l.io c)) (c' : Context) : Unasked key wire (l.io c') := by
  cases h with
  | waiting hstate hwire hlen hshook => exact .waiting hstate hwire hlen hshook
  | reading state cipher hstate hkey hdata hsalt hshook =>
    exact .reading state cipher hstate hkey hdata hsalt hshook

theorem Refused.elsewhere {k : M.aead.Sub} (h : Refused k Spent (l.io c)) (c' : Context) :
    Refused k Spent (l.io c') := ⟨h.state, h.salt, h.shook⟩

theorem Passed.elsewhere (h : Passed (l.io c)) (c' : Context) : Passed (l.io c') :=
  ⟨h.state, h.salt, h.shook⟩

theorem Unasked.not_checked (h : Unasked key wire (l.io c)) : l.checked = false := by
  cases h with
  | waiting hstate hwire hlen hshook =>
    have hshook : l.reader.hasHandshaked = false := hshook
    rw [Stream.checked, hshook, Bool.false_and]
  | reading state cipher hstate hkey hdata hsalt hshook =>
    have hsalt : l.reader.salt = some (wire.take M.saltLen) := hsalt
    rw [Stream.checked, hsalt, Option.isNone_some, Bool.and_false]

theorem checked_of (hsalt : (l.io c).reader.salt = none) (hshook : (l.io c).reader.hasHandshaked = true) :
    l.checked = true := by
  have hsalt : l.reader.salt = none := hsalt
  have hshook : l.reader.hasHandshaked = true := hshook
  rw [Stream.checked, hsalt, hshook]
  rfl

theorem unasked_open (hlen : 0 < M.saltLen) (x : Bytes × ReadSock) (c : Context) :
    Unasked x.1 (sockBytes x.2) ((openStream M x).io c) := by
  have hnew : DecryptedReader.new M x.1 = ⟨.waitSalt x.1, [], none, false⟩ := by
    rw [DecryptedReader.new, if_pos hlen]
  rw [openStream, Stream.io, hnew]
  exact .waiting rfl rfl zero_le rfl

end

inductive StreamOk (ty : ServerType) (policy : ReplayAttackPolicy) (log : List (StreamPoll M)) (i : Nat)
    (l : Stream M) : Prop where
  | unasked (h : ∀ c, Unasked l.key l.wire (l.io c))
      (hlog : ∀ t ∈ log, t.party = i → delivers t = false ∧ asks t = none)
  | refused (Spent : Nat → Bytes → Prop)
      (hspent : ∀ n b, Spent n b → M.aead.decrypt (M.subkey l.key l.saltOf) n b = none ∧
        Spent (M.aead.onFail n) (M.aead.garble (M.subkey l.key l.saltOf) n b))
      (h : ∀ c, Refused (M.subkey l.key l.saltOf) Spent (l.io c))
      (hlog : ∀ t ∈ log, t.party = i → delivers t = false)
  | passed (h : ∀ c, Passed (l.io c)) (hasked : ∃ q ∈ log, q.party = i ∧ (asks q).isSome)
      (hlog : policy = .reject → ∀ front q rest salt, log = front ++ q :: rest → q.party = i →
        asks q = some salt → salt ∉ lastSalts ty front)

structure StreamsOk (ty : ServerType) (policy : ReplayAttackPolicy) (s : Shared Context (Stream M))
    (log : List (StreamPoll M)) : Prop where
  samePolicy : s.context.replayPolicy = policy
  size : policy = .reject → s.context.replayProtector.noncePpbloom.itemCount = itemCount ty
  holds : policy = .reject → s.context.replayProtector.noncePpbloom.Holds (recordedSalts log)
  streams : ∀ i l, s.parties[i]? = some l → StreamOk ty policy log i l
  known : ∀ t ∈ log, t.party < s.parties.length
  authentic : ∀ t ∈ log, AsksAuthentic t
  once : ((log.filter fun t => (asks t).isSome).map Transition.party).Nodup

section

variable {ty : ServerType} {policy : ReplayAttackPolicy} {s : Shared Context (Stream M)}
  {log : List (StreamPoll M)} {i : Nat} {l : Stream M} {tr : StreamPoll M}

theorem recordedSalts_concat (log : List (StreamPoll M)) (tr : StreamPoll M) :
    recordedSalts (log ++ [tr]) = recordedSalts log ++ (recorded tr).toList := by
  cases hr : recorded tr with
  | none | some salt => simp [hr, recordedSalts]

theorem recordedSalts_ne {salt : Bytes} (h : salt ∈ recordedSalts log) : salt ≠ [] := by
  obtain ⟨t, -, ht⟩ := mem_filterMap.mp h
  exact Context.records_ne (Option.filter_eq_some_iff.mp ht).2

theorem StreamsOk.filters (h : StreamsOk ty policy s log) (hbefore : tr.before.2 = s.context)
    (hauth : AsksAuthentic tr) : tr.after.2.replayPolicy = policy ∧
      (policy = .reject → tr.after.2.replayProtector.noncePpbloom.itemCount = itemCount ty ∧
        tr.after.2.replayProtector.noncePpbloom.Holds (recordedSalts (log ++ [tr]))) := by
  unfold AsksAuthentic at hauth
  cases hasks : asks tr with
  | none =>
    rw [hasks] at hauth
    have hnone : recorded tr = none := by rw [recorded, hasks, Option.filter_none]
    have hsame : tr.after.2 = s.context := Eq.trans hauth hbefore
    rw [recordedSalts_concat, hnone, hsame, Option.toList_none, append_nil]
    exact ⟨h.samePolicy, fun hr => ⟨h.size hr, h.holds hr⟩⟩
  | some salt =>
    rw [hasks] at hauth
    obtain ⟨hctx, -⟩ := hauth
    rw [hbefore] at hctx
    rw [hctx]
    refine ⟨(Context.checkNonceReplay_policy _ _ _ _).trans h.samePolicy, fun hr => ?_⟩
    by_cases hne : salt = []
    · -- an empty nonce is not looked at
      have hnone : recorded tr = none := by
        rw [recorded, hasks, Option.filter_some]
        exact if_neg fun hrec => Context.records_ne hrec hne
      rw [recordedSalts_concat, hnone, Option.toList_none, append_nil, Context.checkNonceReplay, if_pos hne]
      exact ⟨h.size hr, h.holds hr⟩
    obtain ⟨-, hrecords, hbloom⟩ :=
      Context.checkNonceReplay_reject (h.samePolicy.trans hr) tr.input.now hne
    have hrec : recorded tr =
        bif (s.context.replayProtector.noncePpbloom.checkAndSet salt).1 then none else some salt := by
      rw [recorded, hasks, Option.filter_some, hbefore, hrecords]
      cases (s.context.replayProtector.noncePpbloom.checkAndSet salt).1 with
      | true | false => rfl
    rw [hbloom, recordedSalts_concat, hrec]
    refine ⟨(PingPongBloom.checkAndSet_itemCount _ _).trans (h.size hr), ?_⟩
    cases hseen : (s.context.replayProtector.noncePpbloom.checkAndSet salt).1 with
    | true =>
      rw [PingPongBloom.checkAndSet_found hseen, cond_true, Option.toList_none, append_nil]
      exact h.holds hr
    | false => exact (h.holds hr).set hseen

theorem StreamsOk.refuses (h : StreamsOk ty policy s log) (hr : policy = .reject) (now : Nat) {salt : Bytes}
    (hsalt : salt ∈ lastSalts ty log) : (s.context.checkNonceReplay .aead now salt).1 ≠ none := by
  have hne : salt ≠ [] := recordedSalts_ne (mem_of_mem_drop hsalt)
  have hfound : (s.context.replayProtector.noncePpbloom.checkAndSet salt).1 = true := by
    refine (h.holds hr).found ?_
    rwa [h.size hr]
  have hanswer := (Context.checkNonceReplay_reject (h.samePolicy.trans hr) now hne).1
  rw [hfound] at hanswer
  intro hnone
  rw [hnone] at hanswer
  cases hanswer

theorem StreamOk.other (h : StreamOk ty policy log i l) (hparty : tr.party ≠ i) :
    StreamOk ty policy (log ++ [tr]) i l := by
  have hmem : ∀ t ∈ log ++ [tr], t.party = i → t ∈ log := by
    intro t ht hi
    rcases mem_append.mp ht with hold | hnew
    · exact hold
    · rw [mem_singleton.mp hnew] at hi
      exact absurd hi hparty
  cases h with
  | unasked h hlog => exact .unasked h fun t ht hi => hlog t (hmem t ht hi) hi
  | refused Spent hspent h hlog => exact .refused Spent hspent h fun t ht hi => hlog t (hmem t ht hi) hi
  | passed h hasked hlog =>
    obtain ⟨q, hq, hqi⟩ := hasked
    refine .passed h ⟨q, mem_append_left _ hq, hqi⟩ fun hr front q rest salt heq hi hsalt => ?_
    rcases concat_split heq with ⟨-, rfl⟩ | ⟨rest', heq'⟩
    · exact absurd hi hparty
    · exact hlog hr front q rest' salt heq' hi hsalt

structure Account (ty : ServerType) (policy : ReplayAttackPolicy) (log : List (StreamPoll M)) (tr : StreamPoll M) :
    Prop where
  authentic : AsksAuthentic tr
  fresh : (asks tr).isSome → ∀ t ∈ log, t.party = tr.party → asks t = none
  stream : StreamOk ty policy (log ++ [tr]) tr.party tr.after.1

theorem Account.quiet (hasks : asks tr = none) (hctx : tr.after.2 = tr.before.2)
    (hstream : StreamOk ty policy (log ++ [tr]) tr.party tr.after.1) : Account ty policy log tr where
  authentic := by
    unfold AsksAuthentic
    rwa [hasks]
  fresh hsome := by
    rw [hasks] at hsome
    cases hsome
  stream := hstream

theorem StreamsOk.extend (h : StreamsOk ty policy s log) (tr : StreamPoll M)
    (hparty : tr.party < s.parties.length) (hbefore : tr.before.2 = s.context) (hacc : Account ty policy log tr) :
    StreamsOk ty policy ⟨tr.after.2, s.parties.set tr.party tr.after.1⟩ (log ++ [tr]) := by
  obtain ⟨hpolicy, hfilters⟩ := h.filters hbefore hacc.authentic
  refine ⟨hpolicy, fun hr => (hfilters hr).1, fun hr => (hfilters hr).2, ?_, ?_, ?_, ?_⟩
  · intro j l hj
    by_cases hij : tr.party = j
    · subst hij
      rw [getElem?_set_self hparty] at hj
      cases hj
      exact hacc.stream
    · rw [getElem?_set_ne hij] at hj
      exact (h.streams j l hj).other hij
  · intro t ht
    rw [length_set]
    rcases mem_concat.mp ht with hold | rfl
    · exact h.known t hold
    · exact hparty
  · intro t ht
    rcases mem_concat.mp ht with hold | rfl
    · exact h.authentic t hold
    · exact hacc.authentic
  rw [filter_append, map_append]
  by_cases hasks : (asks tr).isSome = true
  · have hone : [tr].filter (fun t => (asks t).isSome) = [tr] := by simp [hasks]
    rw [hone, map_singleton, nodup_append]
    refine ⟨h.once, nodup_singleton _, fun j hj j' hj' heq => ?_⟩
    obtain ⟨t, ht, rfl⟩ := mem_map.mp hj
    obtain ⟨htlog, htasks⟩ := mem_filter.mp ht
    rw [hacc.fresh hasks t htlog (heq.trans (mem_singleton.mp hj'))] at htasks
    cases htasks
  · have hno : [tr].filter (fun t => (asks t).isSome) = [] := by simp [hasks]
    rw [hno, map_nil, append_nil]
    exact h.once

def logged (i : Nat) (e : PollInput) (l : Stream M) (c : Context) : StreamPoll M :=
  ⟨i, e, (l, c), (pollStream e (l, c)).1, (pollStream e (l, c)).2⟩

theorem asks_checked (h : tr.before.1.checked = true) : asks tr = none := by
  rw [asks, h]
  exact if_neg fun hboth => Bool.noConfusion hboth.1

theorem asks_unchecked (h : tr.after.1.checked = false) : asks tr = none := by
  rw [asks, h]
  exact if_neg fun hboth => Bool.noConfusion hboth.2

theorem asks_some (hbefore : tr.before.1.checked = false) (hafter : tr.after.1.checked = true) :
    asks tr = some tr.before.1.saltOf :=
  if_pos ⟨hbefore, hafter⟩

theorem polls_concat {P : StreamPoll M → Prop} (hlog : ∀ t ∈ log, t.party = i → P t) (htr : P tr) :
    ∀ t ∈ log ++ [tr], t.party = i → P t := by
  intro t ht hi
  rcases mem_concat.mp ht with hold | rfl
  · exact hlog t hold hi
  · exact htr

theorem StreamsOk.account_unasked (h : StreamsOk ty policy s log) (hlen : 0 < M.saltLen)
    (honce : M.aead.OpensOnce (M.subkey l.key l.saltOf)) (e : PollInput) (hphase : ∀ c, Unasked l.key l.wire (l.io c))
    (hlog : ∀ t ∈ log, t.party = i → delivers t = false ∧ asks t = none) :
    Account ty policy log (logged i e l s.context) := by
  obtain ⟨Spent, hopens, hstays⟩ := honce
  have hfresh : ∀ t ∈ log, t.party = i → asks t = none := fun t ht hi => (hlog t ht hi).2
  have hasked : (logged i e l s.context).after.1.checked = true → asks (logged i e l s.context) = some l.saltOf :=
    asks_some (hphase s.context).not_checked
  cases poll_unasked e.now e.cap hlen hopens (hphase s.context) with
  | unasked ht hr hctx =>
    have hnone : asks (logged i e l s.context) = none :=
      asks_unchecked (Unasked.not_checked (l := (logged i e l s.context).after.1) ht)
    refine .quiet hnone hctx (.unasked (fun c => ?_) ?_)
    · exact Unasked.elsewhere (l := (logged i e l s.context).after.1) ht c
    · exact polls_concat hlog ⟨delivers_false hr, hnone⟩
  | refused u hu hopen hsalt hno hctx ht hr =>
    have hasks := hasked (checked_of (l := (logged i e l s.context).after.1) ht.salt ht.shook)
    refine ⟨?_, fun _ => hfresh, .refused Spent hstays (fun c => ?_) ?_⟩
    · unfold AsksAuthentic
      rw [hasks]
      exact ⟨hctx, u, hu, hopen, hsalt⟩
    · exact Refused.elsewhere (l := (logged i e l s.context).after.1) ht c
    · exact polls_concat (fun t ht hi => (hlog t ht hi).1) (delivers_false hr)
  | passed u hu hopen hsalt hyes hctx ht =>
    have hasks := hasked (checked_of (l := (logged i e l s.context).after.1) ht.salt ht.shook)
    refine ⟨?_, fun _ => hfresh, .passed (fun c => ?_) ?_ ?_⟩
    · unfold AsksAuthentic
      rw [hasks]
      exact ⟨hctx, u, hu, hopen, hsalt⟩
    · exact Passed.elsewhere (l := (logged i e l s.context).after.1) ht c
    · exact ⟨_, mem_concat.mpr (.inr rfl), rfl, by rw [hasks]; rfl⟩
    intro hr front q rest salt heq hi hq hin
    rcases concat_split heq with ⟨rfl, rfl⟩ | ⟨rest', heq'⟩
    · rw [hasks] at hq
      cases hq
      exact h.refuses hr e.now hin hyes
    · have hmem : q ∈ log := heq' ▸ mem_append_right _ mem_cons_self
      rw [hfresh q hmem hi] at hq
      cases hq

theorem StreamsOk.account (h : StreamsOk ty policy s log) (hlen : 0 < M.saltLen)
    (honce : ∀ k, M.aead.OpensOnce k) (e : PollInput) (hl : s.parties[i]? = some l) :
    Account ty policy log (logged i e l s.context) := by
  cases h.streams i l hl with
  | unasked hphase hlog => exact h.account_unasked hlen (honce _) e hphase hlog
  | refused Spent hspent hphase hlog =>
    obtain ⟨hr, ht, hctx⟩ := poll_refused e.now e.cap hspent (hphase s.context)
    refine .quiet ?_ hctx (.refused Spent hspent (fun c => ?_) ?_)
    · exact asks_checked (checked_of (hphase s.context).salt (hphase s.context).shook)
    · exact Refused.elsewhere (l := (logged i e l s.context).after.1) ht c
    · exact polls_concat hlog (delivers_false hr)
  | passed hphase hasked hlog =>
    obtain ⟨ht, hctx⟩ := poll_passed e.now e.cap (hphase s.context)
    have hnone : asks (logged i e l s.context) = none :=
      asks_checked (checked_of (hphase s.context).salt (hphase s.context).shook)
    refine .quiet hnone hctx (.passed (fun c => ?_) ?_ ?_)
    · exact Passed.elsewhere (l := (logged i e l s.context).after.1) ht c
    · obtain ⟨q, hq, hqi⟩ := hasked
      exact ⟨q, mem_append_left _ hq, hqi⟩
    intro hr front q rest salt heq hi hq
    rcases concat_split heq with ⟨-, rfl⟩ | ⟨rest', heq'⟩
    · rw [hnone] at hq
      cases hq
    · exact hlog hr front q rest' salt heq' hi hq

theorem StreamsOk.turn (h : StreamsOk ty policy s log) (hlen : 0 < M.saltLen)
    (honce : ∀ k, M.aead.OpensOnce k) (t : Turn (Bytes × ReadSock) PollInput) :
    StreamsOk ty policy (streamStep M s t).1 (log ++ (streamStep M s t).2) := by
  have hturned := turn_turned (openStream M) pollStream s t
  unfold streamStep
  generalize Lib.turn (openStream M) pollStream s t = x at hturned ⊢
  cases hturned with
  | joined j =>
    rw [append_nil]
    refine ⟨h.samePolicy, h.size, h.holds, fun i l hi => ?_, fun t ht => ?_, h.authentic, h.once⟩
    · by_cases hlt : i < s.parties.length
      · rw [List.getElem?_append_left hlt] at hi
        exact h.streams i l hi
      have hnew : i = s.parties.length := by
        have hbound := (List.getElem?_eq_some_iff.mp hi).1
        rw [length_append, length_singleton] at hbound
        omega
      subst hnew
      rw [List.getElem?_concat_length] at hi
      cases hi
      exact .unasked (unasked_open hlen j) fun t ht hi => absurd (h.known t ht) (by omega)
    · rw [length_append]
      exact Nat.lt_add_right _ (h.known t ht)
  | nobody i e hi =>
    rwa [append_nil]
  | acted i e l hi =>
    exact h.extend (logged i e l s.context) (List.getElem?_eq_some_iff.mp hi).1 rfl (h.account hlen honce e hi)

end

/-! ## 5. What the filter guarantees -/

def noStreams (M : AeadMethod) (ty : ServerType) (h₁ h₂ : Bytes → List Nat) (policy : ReplayAttackPolicy) :
    Shared Context (Stream M) := ⟨(Context.new ty h₁ h₂).setReplayAttackPolicy policy, []⟩

theorem streamsOk_new (M : AeadMethod) (ty : ServerType) (h₁ h₂ : Bytes → List Nat)
    (policy : ReplayAttackPolicy) : StreamsOk ty policy (noStreams M ty h₁ h₂ policy) [] := by
  refine ⟨rfl, fun _ => ?_, fun _ => PingPongBloom.holds_new ty h₁ h₂, fun i l hl => ?_,
    fun t ht => ?_, fun t ht => ?_, nodup_nil⟩
  · cases ty with
    | localServer => exact (by decide : 10000 / 2 = 5000)
    | server => exact (by decide : 1000000 / 2 = 500000)
  · cases hl
  · cases ht
  · cases ht

structure Filtered (ty : ServerType) (policy : ReplayAttackPolicy) (log : List (StreamPoll M)) : Prop where
  authentic : ∀ t ∈ log, AsksAuthentic t
  once : ((log.filter fun t => (asks t).isSome).map Transition.party).Nodup
  asked : ∀ t ∈ log, delivers t = true → ∃ q ∈ log, q.party = t.party ∧ (asks q).isSome
  silent : policy = .reject → ∀ front q rest salt, log = front ++ q :: rest → asks q = some salt →
    salt ∈ lastSalts ty front → ∀ t ∈ log, t.party = q.party → delivers t = false

/-- **The replay filter of the AEAD streams**, over every run of streams of one context. A buffer opened in place does
not open again. -/
theorem salts_filtered (M : AeadMethod) (hlen : 0 < M.saltLen) (honce : ∀ k, M.aead.OpensOnce k)
    (ty : ServerType) (h₁ h₂ : Bytes → List Nat) (policy : ReplayAttackPolicy)
    (es : List (Turn (Bytes × ReadSock) PollInput)) :
    Filtered ty policy (run (streamStep M) (noStreams M ty h₁ h₂ policy) es).2 := by
  generalize hlog : (run (streamStep M) (noStreams M ty h₁ h₂ policy) es).2 = log
  have h : StreamsOk ty policy (run (streamStep M) (noStreams M ty h₁ h₂ policy) es).1 log :=
    hlog ▸ run_inv_always (streamsOk_new M ty h₁ h₂ policy) (fun s log t h => h.turn hlen honce t) es
  -- where the stream of a poll stands in the end
  have hstands : ∀ t ∈ log, ∃ l, StreamOk ty policy log t.party l := fun t ht =>
    ⟨_, h.streams t.party _ (getElem?_eq_getElem (h.known t ht))⟩
  refine ⟨h.authentic, h.once, fun t ht hdelivers => ?_, fun hr front q rest salt heq hq hin t ht hparty => ?_⟩
  · obtain ⟨l, hl⟩ := hstands t ht
    cases hl with
    | unasked _ hlog =>
      rw [(hlog t ht rfl).1] at hdelivers
      cases hdelivers
    | refused _ _ _ hlog =>
      rw [hlog t ht rfl] at hdelivers
      cases hdelivers
    | passed _ hasked _ => exact hasked
  have hmem : q ∈ log := heq ▸ mem_append_right _ mem_cons_self
  obtain ⟨l, hl⟩ := hstands q hmem
  cases hl with
  | unasked _ hlog => exact (hlog t ht hparty).1
  | refused _ _ _ hlog => exact hlog t ht hparty
  | passed _ _ hlog => exact absurd hin (hlog hr front q rest salt heq rfl hq)

def oneChunk : AeadMethod where
  aead := .recorded fun (_ : Bytes) n => [put16 1, [7]][n]?
  saltLen := 2
  subkey _ salt := salt

theorem oneChunk_opensOnce (k : oneChunk.aead.Sub) : oneChunk.aead.OpensOnce k := by
  refine Aead.recorded_opensOnce fun n hn => getElem?_eq_none ?_
  exact le_trans (by decide) hn

def numbered (salt : Bytes) : List Nat := [beNat salt]

theorem salts_filtered_oneChunk : 0 < oneChunk.saltLen ∧ (∀ k, oneChunk.aead.OpensOnce k) ∧
      Filtered .server .reject (run (streamStep oneChunk) (noStreams oneChunk .server numbered numbered .reject)
        [.join ([], [.data [1, 2, 0, 1, 0, 7, 1]]), .join ([], [.data [1, 2, 0, 1, 0, 7, 1]]),
          .act 0 ⟨0, 1⟩, .act 1 ⟨0, 1⟩, .act 1 ⟨0, 1⟩]).2 :=
  ⟨by decide, oneChunk_opensOnce, salts_filtered oneChunk (by decide) oneChunk_opensOnce _ _ _ _ _⟩

def oneStream (a b : UInt8) : Stream oneChunk := openStream oneChunk ([], [.data [a, b, 0, 1, 0, 7, 1]])

def readStream (a b : UInt8) : Stream oneChunk :=
  ⟨[], [a, b, 0, 1, 0, 7, 1], ⟨.chunks (.bufferedData 1) ⟨[a, b], 2⟩, [7], none, true⟩, []⟩

def replayTurns : Nat → List Bytes → List (Turn (Bytes × ReadSock) PollInput)
  | _, [] => []
  | i, x :: xs => .join ([], [.data (x ++ [0, 1, 0, 7, 1])]) :: .act i ⟨0, 1⟩ :: replayTurns (i + 1) xs

theorem poll_oneChunk {c c' : Context} {a b : UInt8} (hyes : c.checkNonceReplay .aead 0 [a, b] = (none, c')) :
    pollStream ⟨0, 1⟩ (oneStream a b, c) = (.ready [7], readStream a b, c') := by
  have hdata : (rules 0).onData (some [a, b], c) = (none, none, c') := by
    show ((c.checkNonceReplay .aead 0 [a, b]).1.map ProtocolError.ioError, none,
      (c.checkNonceReplay .aead 0 [a, b]).2) = _
    rw [hyes]
    rfl
  -- the salt, the length and the data, then the byte
  have hsalt : readRound 0 1 ((oneStream a b).io c) =
      .next ⟨⟨.chunks .readLength ⟨[a, b], 0⟩, [], some [a, b], true⟩, [.data [0, 1, 0, 7, 1]], c⟩ := rfl
  have hlength : readRound 0 1 (M := oneChunk) ⟨⟨.chunks .readLength ⟨[a, b], 0⟩, [], some [a, b], true⟩,
      [.data [0, 1, 0, 7, 1]], c⟩ =
      .next ⟨⟨.chunks (.readData 1) ⟨[a, b], 1⟩, [], some [a, b], true⟩, [.data [7, 1]], c⟩ := by
    have hread : pollReadExact (2 + oneChunk.aead.tagLen) [] [.data [0, 1, 0, 7, 1]] =
        (.ready 3, [0, 1, 0], [.data [7, 1]]) := rfl
    have hdec : Cipher.decryptPacket (A := oneChunk.aead) ⟨[a, b], 0⟩
        (take (2 + oneChunk.aead.tagLen) [0, 1, 0]) = (true, [0, 1, 0], ⟨[a, b], 1⟩) := rfl
    simp only [readRound, chunkRound, pollReadLength, decryptLength, ReaderIo.toRx, hread, hdec]
    rfl
  have hopen : readRound 0 1 (M := oneChunk) ⟨⟨.chunks (.readData 1) ⟨[a, b], 1⟩, [], some [a, b], true⟩,
      [.data [7, 1]], c⟩ =
      .next ⟨⟨.chunks (.bufferedData 0) ⟨[a, b], 2⟩, [7], none, true⟩, [], c'⟩ := by
    have hread : pollReadExact (1 + oneChunk.aead.tagLen) [] [.data [7, 1]] = (.ready 2, [7, 1], []) := rfl
    have hdec : Cipher.decryptPacket (A := oneChunk.aead) ⟨[a, b], 1⟩
        (take (1 + oneChunk.aead.tagLen) [7, 1]) = (true, [7, 1], ⟨[a, b], 2⟩) := rfl
    simp only [readRound, chunkRound, pollReadData, ReaderIo.toRx, hread, hdec, hdata]
    rfl
  rw [pollStream, pollReadDecrypted, loopUntil_eq (readRound_pot 0 1), hsalt]
  dsimp only
  rw [loopUntil_eq (readRound_pot 0 1), hlength]
  dsimp only
  rw [loopUntil_eq (readRound_pot 0 1), hopen]
  rfl

def AllPass (c : Context) : List Bytes → Prop
  | [] => True
  | x :: xs => c.Admits .aead 0 x ∧ AllPass (c.checkNonceReplay .aead 0 x).2 xs

def passing (i : Nat) (a b : UInt8) (c : Context) : StreamPoll oneChunk :=
  ⟨i, ⟨0, 1⟩, (oneStream a b, c), .ready [7], (readStream a b, (c.checkNonceReplay .aead 0 [a, b]).2)⟩

variable {c : Context}

theorem step_passing (ps : List (Stream oneChunk)) {a b : UInt8} (h : c.Admits .aead 0 [a, b]) :
    streamStep oneChunk ⟨c, ps ++ [oneStream a b]⟩ (.act ps.length ⟨0, 1⟩) =
      (⟨(c.checkNonceReplay .aead 0 [a, b]).2, ps ++ [readStream a b]⟩, [passing ps.length a b c]) := by
  have hyes : c.checkNonceReplay .aead 0 [a, b] = (none, (c.checkNonceReplay .aead 0 [a, b]).2) :=
    Prod.ext h rfl
  unfold streamStep turn
  dsimp only
  rw [getElem?_concat_length]
  dsimp only
  rw [poll_oneChunk hyes, set_append_right _ _ le_rfl, Nat.sub_self]
  rfl

theorem run_replayTurns (hpolicy : c.replayPolicy = .reject) (ps : List (Stream oneChunk))
    {xs : List Bytes} (hlen : ∀ x ∈ xs, x.length = 2) (hpass : AllPass c xs) :
    ((run (streamStep oneChunk) ⟨c, ps⟩ (replayTurns ps.length xs)).2.map
      fun t => (asks t, recorded t, delivers t)) = xs.map fun x => (some x, some x, true) := by
  induction xs generalizing c ps with
  | nil => rfl
  | cons x xs ih =>
    obtain ⟨hyes, hrest⟩ := hpass
    obtain ⟨a, b, rfl⟩ := length_eq_two.mp (hlen x mem_cons_self)
    have hrecords : c.records 0 [a, b] = true := by
      obtain ⟨hnone, hrec, -⟩ := Context.checkNonceReplay_reject hpolicy 0 (cons_ne_nil a [b])
      rwa [hrec, ← hnone, Option.isNone_iff_eq_none]
    have hasks : asks (passing ps.length a b c) = some [a, b] := asks_some rfl rfl
    have hrec : recorded (passing ps.length a b c) = some [a, b] :=
      if_pos hrecords
    have hpolicy' := (Context.checkNonceReplay_policy c .aead 0 [a, b]).trans hpolicy
    have ih := ih hpolicy' (ps ++ [readStream a b]) (fun y hy => hlen y (mem_cons_of_mem _ hy)) hrest
    rw [length_append, length_singleton] at ih
    have hjoin : streamStep oneChunk ⟨c, ps⟩ (.join ([], [.data ([a, b] ++ [0, 1, 0, 7, 1])])) =
        (⟨c, ps ++ [oneStream a b]⟩, []) := rfl
    rw [replayTurns, run, run, hjoin]
    rw [nil_append, step_passing ps hyes, map_append, ih, map_singleton, hasks, hrec]
    rfl

def nthSalt (i : Nat) : Bytes := put16 (UInt16.ofNat i)

variable {i : Nat}

theorem numbered_nthSalt (h : i < 65536) : numbered (nthSalt i) = [i] := by
  have hmod : i % 2 ^ 16 % 256 ^ 2 = i := by omega
  rw [numbered, nthSalt, put16, beNat_beBytes, UInt16.toNat_ofNat']
  exact congrArg (fun n => [n]) hmod

structure Swept (p : PingPongBloom) (k lo : Nat) : Prop where
  size : p.itemCount = 5000
  full : 5000 ∣ lo
  le : lo ≤ k
  room : k ≤ lo + 5000
  hashes : ∀ j, (p.blooms.get j).hashes = numbered
  count : p.bloomCount.get p.current = k - lo
  now : ∀ i, i ∈ (p.blooms.get p.current).bits ↔ lo ≤ i ∧ i < k
  other : ∀ i, i ∈ (p.blooms.get (p.current + 1)).bits ↔ lo ≤ i + 5000 ∧ i < lo

theorem check_nthSalt {b : Bloom} (h : b.hashes = numbered) (hi : i < 65536) :
    b.check (nthSalt i) = decide (i ∈ b.bits) := by
  rw [Bloom.check, h, numbered_nthSalt hi, all_cons, all_nil, Bool.and_true]

theorem swept_new : Swept (PingPongBloom.new .localServer numbered numbered) 0 0 := by
  refine ⟨by decide, Nat.dvd_zero _, le_rfl, zero_le, fun j => ?_, rfl, fun i => ?_, fun i => ?_⟩
  · match j with
    | 0 | 1 => rfl
  · show i ∈ [] ↔ 0 ≤ i ∧ i < 0
    simp
  · show i ∈ [] ↔ 0 ≤ i + 5000 ∧ i < 0
    simp

section

variable {p : PingPongBloom} {k lo : Nat}

theorem Swept.fresh (h : Swept p k lo) (hi : i < 65536) (hnew : k ≤ i ∨ i + 5000 < lo) :
    (p.checkAndSet (nthSalt i)).1 = false := by
  have hany : p.blooms.toList.any (fun bloom => bloom.check (nthSalt i)) = false := by
    rw [any_eq_false]
    intro bloom hbloom hcheck
    obtain ⟨j, hj, rfl⟩ := Vector.mem_iff_getElem.mp (Vector.mem_toList_iff.mp hbloom)
    have hin : i ∈ (p.blooms.get ⟨j, hj⟩).bits :=
      of_decide_eq_true ((check_nthSalt (h.hashes ⟨j, hj⟩) hi).symm.trans hcheck)
    by_cases hcur : p.current = ⟨j, hj⟩
    · rw [← hcur, h.now] at hin
      omega
    have hoth : p.current + 1 = ⟨j, hj⟩ := by
      revert hcur
      generalize p.current = c
      generalize (⟨j, hj⟩ : Fin 2) = d
      revert c d
      decide
    rw [← hoth, h.other] at hin
    have := h.le
    omega
  rw [PingPongBloom.checkAndSet, hany]
  rfl

theorem Swept.swap (h : Swept p k lo) (hfull : p.itemCount ≤ p.bloomCount.get p.current) : Swept p.swap k k := by
  rw [h.size, h.count] at hfull
  have hk : k = lo + 5000 := by
    have := h.room
    omega
  have hne := two_ne p.current
  refine ⟨h.size, hk ▸ (Nat.dvd_add_right h.full).mpr (Nat.dvd_refl _), le_rfl, by omega, fun j => ?_, ?_,
    fun i => ?_, fun i => ?_⟩
  · exact get_set_all (P := fun b : Bloom => b.hashes = numbered) h.hashes _ j (h.hashes _)
  · rw [Nat.sub_self]
    exact get_set_self _ _ _
  · have hcur : p.swap.blooms.get p.swap.current = (p.blooms.get (p.current + 1)).clear := get_set_self _ _ _
    rw [hcur]
    show i ∈ [] ↔ _
    simp
  · have hback : (p.swap.current + 1 : Fin 2) = p.current := two_back p.current
    have hoth : p.swap.blooms.get p.current = p.blooms.get p.current := get_set_ne _ hne _
    rw [hback, hoth, h.now]
    omega

theorem Swept.put (h : Swept p k lo) (hk : k < 65536) (hroom : k < lo + 5000) :
    Swept (p.put (nthSalt k)) (k + 1) lo := by
  have hne := two_ne p.current
  have hle := h.le
  refine ⟨h.size, h.full, by omega, hroom, fun j => ?_, ?_, fun i => ?_, fun i => ?_⟩
  · exact get_set_all (P := fun b : Bloom => b.hashes = numbered) h.hashes _ j (h.hashes p.current)
  · show (p.bloomCount.set p.current _).get p.current = _
    rw [get_set_self, h.count]
    omega
  · show i ∈ (Vector.get (p.blooms.set p.current _) p.current).bits ↔ _
    rw [get_set_self]
    show i ∈ (p.blooms.get p.current).hashes (nthSalt k) ++ (p.blooms.get p.current).bits ↔ _
    rw [h.hashes, numbered_nthSalt hk, mem_append, mem_singleton, h.now]
    omega
  · show i ∈ (Vector.get (p.blooms.set p.current _) (p.current + 1)).bits ↔ _
    rw [get_set_ne _ hne.symm]
    exact h.other i

theorem Swept.next (h : Swept p k lo) (hk : k < 65536) :
    (p.checkAndSet (nthSalt k)).1 = false ∧ ∃ lo', Swept (p.checkAndSet (nthSalt k)).2 (k + 1) lo' := by
  have hnew := h.fresh hk (.inl le_rfl)
  refine ⟨hnew, ?_⟩
  rw [PingPongBloom.checkAndSet_new hnew]
  by_cases hfull : p.itemCount ≤ p.bloomCount.get p.current
  · rw [if_pos hfull]
    exact ⟨k, (h.swap hfull).put hk (by omega)⟩
  · rw [if_neg hfull]
    rw [h.size, h.count] at hfull
    exact ⟨lo, h.put hk (by omega)⟩

theorem Swept.forgot (h : Swept p 10001 lo) : (p.checkAndSet (nthSalt 0)).1 = false := by
  refine h.fresh (by decide) (.inr ?_)
  have := h.room
  omega

end

theorem nthSalt_length (i : Nat) : (nthSalt i).length = 2 := by
  rw [nthSalt, put16, beBytes_length]

theorem allPass_swept (hpolicy : c.replayPolicy = .reject) {k lo n : Nat} (hn : k + n = 10001)
    (h : Swept c.replayProtector.noncePpbloom k lo) : AllPass c ((range' k n).map nthSalt ++ [nthSalt 0]) := by
  have hne : ∀ i, nthSalt i ≠ [] := by
    intro i hnil
    have hlen := nthSalt_length i
    rw [hnil] at hlen
    cases hlen
  induction n generalizing c k lo with
  | zero =>
    obtain rfl : k = 10001 := hn
    refine ⟨?_, trivial⟩
    have hanswer := (Context.checkNonceReplay_reject hpolicy 0 (hne 0)).1
    rw [h.forgot] at hanswer
    exact Option.isNone_iff_eq_none.mp hanswer
  | succ n ih =>
    obtain ⟨hnew, lo', hnext⟩ := h.next (by omega)
    obtain ⟨hanswer, -, hbloom⟩ := Context.checkNonceReplay_reject hpolicy 0 (hne k)
    rw [hnew] at hanswer
    rw [← hbloom] at hnext
    refine ⟨Option.isNone_iff_eq_none.mp hanswer, ?_⟩
    exact ih ((Context.checkNonceReplay_policy _ _ _ _).trans hpolicy) (by omega) hnext

theorem delivers_again (hpolicy : c.replayPolicy = .reject) {xs : List Bytes} {x : Bytes}
    (hlen : ∀ y ∈ xs, y.length = 2) (hmem : x ∈ xs) (hpass : AllPass c (xs ++ [x])) :
    ∃ front q, (run (streamStep oneChunk) ⟨c, []⟩ (replayTurns 0 (xs ++ [x]))).2 = front ++ [q] ∧
      asks q = some x ∧ x ∈ recordedSalts front ∧ delivers q = true := by
  have hall : ∀ y ∈ xs ++ [x], y.length = 2 := by
    intro y hy
    rcases mem_concat.mp hy with hin | rfl
    · exact hlen y hin
    · exact hlen y hmem
  have hmap := run_replayTurns hpolicy [] hall hpass
  rw [map_append, map_singleton] at hmap
  obtain ⟨front, last, hlog, hfront, hlast⟩ := map_eq_append_iff.mp hmap
  obtain ⟨q, rfl, hq⟩ := map_eq_singleton_iff.mp hlast
  obtain ⟨hasks, -, hdelivers⟩ : asks q = some x ∧ recorded q = some x ∧ delivers q = true := by
    simpa only [Prod.mk.injEq] using hq
  refine ⟨front, q, hlog, hasks, ?_, hdelivers⟩
  -- the earlier stream with this salt
  have hin : (some x, some x, true) ∈ front.map fun t => (asks t, recorded t, delivers t) := by
    rw [hfront]
    exact mem_map.mpr ⟨x, hmem, rfl⟩
  obtain ⟨t, ht, heq⟩ := mem_map.mp hin
  exact mem_filterMap.mpr ⟨t, ht, (Prod.mk.inj (Prod.mk.inj heq).2).1⟩

/-- **The filter forgets.** After 10000 other salts the first passes again on a client. -/
theorem salt_forgotten :
    ∃ front q, (run (streamStep oneChunk) (noStreams oneChunk .localServer numbered numbered .reject)
        (replayTurns 0 ((range' 0 10001).map nthSalt ++ [nthSalt 0]))).2 = front ++ [q] ∧
      asks q = some (nthSalt 0) ∧ nthSalt 0 ∈ recordedSalts front ∧ delivers q = true := by
  refine delivers_again rfl (fun y hy => ?_) ?_ (allPass_swept rfl (zero_add _) swept_new)
  · obtain ⟨i, -, rfl⟩ := mem_map.mp hy
    exact nthSalt_length i
  · exact mem_map.mpr ⟨0, mem_range'_1.mpr ⟨le_rfl, by omega⟩, rfl⟩

end V1

end Shadowsocks.Tcp
