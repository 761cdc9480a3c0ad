/-
  Subject:   THE AEAD STREAM (`crates/shadowsocks/src/relay/tcprelay/aead.rs`): salt, then chunks.
-/
import Shadowsocks.Tcp.Chunk
import Shadowsocks.Security.Replay

namespace Shadowsocks.Tcp.V1

open Lib List

structure AeadMethod where
  aead : Aead
  saltLen : Nat
  subkey : Bytes → Bytes → aead.Sub

def AeadMethod.newCipher (M : AeadMethod) (key salt : Bytes) : Cipher M.aead := ⟨M.subkey key salt, 0⟩

def maxPacketSize : Nat := 0x3FFF

inductive ProtocolError where
  | ioError (e : IoError)
  | decryptDataError
  | decryptLengthError
  | dataTooLong (plen : Nat)
  deriving DecidableEq

/-! ## 1. The reader -/

inductive DecryptReadState (A : Aead) where
  | waitSalt (key : Bytes)
  | chunks (state : ChunkState) (cipher : Cipher A)

structure DecryptedReader (M : AeadMethod) where
  state : DecryptReadState M.aead
  buffer : Bytes
  salt : Option Bytes
  hasHandshaked : Bool

variable {M : AeadMethod}

def DecryptedReader.new (M : AeadMethod) (key : Bytes) : DecryptedReader M :=
  if 0 < M.saltLen then ⟨.waitSalt key, [], none, false⟩
  else ⟨.chunks .readLength (M.newCipher key []), [], none, false⟩

structure ReaderIo (M : AeadMethod) where
  reader : DecryptedReader M
  sock : ReadSock
  context : Context

def pollReadSalt (key : Bytes) (s : ReaderIo M) :
    Poll ProtocolError (Cipher M.aead) × ReaderIo M :=
  match pollReadExact M.saltLen s.reader.buffer s.sock with
  | (.pending, buf, sock) => (.pending, { s with reader.buffer := buf, sock := sock })
  | (.error e, buf, sock) => (.error (.ioError e), { s with reader.buffer := buf, sock := sock })
  | (.ready n, buf, sock) =>
    if n < M.saltLen then
      (.error (.ioError .unexpectedEof), { s with reader.buffer := buf, sock := sock })
    else
      let salt := buf.take M.saltLen
      (.ready (M.newCipher key salt), { s with reader.buffer := buf, reader.salt := some salt, sock := sock })

def rules (now : Nat) : ChunkRules (Option Bytes × Context) ProtocolError where
  ioError := .ioError
  lengthError := .decryptLengthError
  checkLength plen := if plen > maxPacketSize then some (.dataTooLong plen) else none
  dataError := .decryptDataError
  onData
    | (none, context) => (none, none, context)
    | (some salt, context) =>
      match context.checkNonceReplay .aead now salt with
      | (e, context') => (e.map .ioError, none, context')

variable (s : ReaderIo M)

def ReaderIo.toRx (state : ChunkState) (cipher : Cipher M.aead) :
    Rx M.aead (Option Bytes × Context) :=
  ⟨state, cipher, s.reader.buffer, (s.reader.salt, s.context), s.sock⟩

def ReaderIo.ofRx (r : Rx M.aead (Option Bytes × Context)) : ReaderIo M :=
  ⟨{ s.reader with state := .chunks r.state r.cipher, buffer := r.buffer, salt := r.rest.1 }, r.sock, r.rest.2⟩

def readRound (now cap : Nat) (s : ReaderIo M) : Ctl (Poll ProtocolError Bytes) (ReaderIo M) :=
  match s.reader.state with
  | .waitSalt key =>
    match pollReadSalt key s with
    | (.pending, s') => .ret .pending s'
    | (.error e, s') => .ret (.error e) s'
    | (.ready cipher, s') =>
      .next { s' with reader := { s'.reader with buffer := [], hasHandshaked := true
                                                 state := .chunks .readLength cipher } }
  | .chunks state cipher => (chunkRound (rules now) cap (s.toRx state cipher)).map s.ofRx

def readPot : Nat :=
  match s.reader.state with
  | .waitSalt _ => 3 * sockWeight s.sock + 3
  | .chunks state cipher => chunkPot (s.toRx state cipher)

def pollReadDecrypted (now cap : Nat) (s : ReaderIo M) : Poll ProtocolError Bytes × ReaderIo M :=
  loopUntil (readRound now cap) readPot .pending s

theorem readRound_pot (now cap : Nat) (s s' : ReaderIo M) (h : readRound now cap s = .next s') :
    readPot s' < readPot s := by
  unfold readRound at h
  cases hs : s.reader.state with
  | waitSalt key =>
    have hx := pollReadExact_step M.saltLen s.reader.buffer s.sock
    simp only [hs, pollReadSalt] at h
    rcases hr : pollReadExact M.saltLen s.reader.buffer s.sock with ⟨x, buf, sock⟩
    rw [hr] at h hx
    cases x with
    | pending | error e => cases h
    | ready n =>
      have hle := hx.weight.1
      by_cases hn : n < M.saltLen
      · simp only [if_pos hn] at h
        cases h
      · simp only [if_neg hn] at h
        cases h
        simp only [readPot, hs, ReaderIo.toRx, chunkPot_readLength]
        omega
  | chunks state cipher =>
    simp only [hs] at h
    cases hr : chunkRound (rules now) cap (s.toRx state cipher) with
    | ret r t => rw [hr] at h; cases h
    | next t =>
      rw [hr] at h
      cases h
      have := chunkRound_pot cap _ t hr
      simp only [readPot, hs]
      exact this

/-! ## 2. The reader in step -/

def readMeasure : Nat :=
  match s.reader.state with
  | .waitSalt _ => sockWeight s.sock + s.reader.buffer.length
  | .chunks state cipher => chunkMeasure (s.toRx state cipher)

theorem fits_of_le (now : Nat) {c : Bytes} (h : c.length ≤ maxPacketSize) : Fits (rules now) c := by
  have h' : c.length ≤ 16383 := h
  exact ⟨by omega, if_neg (not_lt.mpr h)⟩

def SaltAdmitted (salt : Bytes) (now : Nat) (rest : Option Bytes × Context) : Prop :=
  rest.1 = none ∨ rest.1 = some salt ∧ rest.2.Admits .aead now salt

def SaltPending (salt : Bytes) (rest : Option Bytes × Context) : Prop :=
  rest.1 = none ∨ rest.1 = some salt

theorem onData_admitted (salt : Bytes) (now : Nat) (rest : Option Bytes × Context) (h : SaltAdmitted salt now rest) :
    ((rules now).onData rest).1 = none ∧ SaltAdmitted salt now ((rules now).onData rest).2 := by
  obtain ⟨o, context⟩ := rest
  rcases h with h | ⟨h, ha⟩
  · subst h
    exact ⟨rfl, .inl rfl⟩
  subst h
  refine ⟨?_, .inl rfl⟩
  show Option.map _ (context.checkNonceReplay .aead now salt).1 = none
  rw [ha]
  rfl

/-- **The reader is in step** with a writer that sends the chunks `cs` under `key` and
    `salt`, with `X` still to deliver. -/
inductive ReaderInStep (key salt : Bytes) (cs : List Bytes) (Ok : Option Bytes × Context → Prop) :
    ReaderIo M → Bytes → Prop where
  | waitSalt {buffer salt? handshaked sock context}
      (hw : buffer ++ sockBytes sock = salt ++ chunkWire M.aead (M.subkey key salt) 0 cs)
      (hb : buffer.length ≤ M.saltLen) (hr : Ok (some salt, context)) (ho : Orderly sock) :
      ReaderInStep key salt cs Ok ⟨⟨.waitSalt key, buffer, salt?, handshaked⟩, sock, context⟩
        cs.flatten
  | chunks {s state cipher X} (hs : s.reader.state = .chunks state cipher)
      (h : InStep (M.subkey key salt) cs (fun _ => Ok) (s.toRx state cipher) X) :
      ReaderInStep key salt cs Ok s X

section

variable {key salt : Bytes} {cs : List Bytes} {now cap : Nat} {X : Bytes} {s : ReaderIo M}

theorem ReaderInStep.with_context {Ok Ok' : Option Bytes × Context → Prop}
    (h : ReaderInStep key salt cs Ok s X) (context : Context) (hr : ∀ o, Ok (o, s.context) → Ok' (o, context)) :
    ReaderInStep key salt cs Ok' { s with context := context } X := by
  cases h with
  | waitSalt hw hb hok ho => exact .waitSalt hw hb (hr _ hok) ho
  | chunks hs h => exact .chunks hs (h.of_rest fun _ => hr _)

theorem readRound_inStep (hinv : M.aead.Inverts) (hsalt : salt.length = M.saltLen)
    (hcs : ∀ c ∈ cs, c.length ≤ maxPacketSize) (hcap : 0 < cap)
    (h : ReaderInStep key salt cs (SaltAdmitted salt now) s X) :
    RoundStep (ReaderInStep key salt cs (SaltAdmitted salt now)) readMeasure s X (readRound now cap s) := by
  cases h with
  | @waitSalt buffer salt? handshaked sock context hw hb hr ho =>
    rcases (pollReadExact_step M.saltLen buffer sock).of_wire ho hb hw hsalt with
      ⟨buf, sock', he, hs, hb', ho', hμ⟩ | ⟨sock', he, hs, ho', hμ⟩
    · simp only [readRound, pollReadSalt, he]
      exact .ret _ _ (.pending _ (.waitSalt hs hb' hr ho') hμ)
    · simp only [readRound, pollReadSalt, he, lt_irrefl, if_false, take_of_length_le (le_of_eq hsalt)]
      refine .next _ (.chunks rfl (.readLength cs hs zero_le suffix_rfl hr ho')) ?_
      simp only [readMeasure, chunkMeasure, ReaderIo.toRx, length_nil]
      omega
  | @chunks _ state cipher _ hs h =>
    have hround := (chunkRound_inStep hinv (fun c hc => fits_of_le now (hcs c hc))
      (fun _ => onData_admitted salt now) hcap h).map
      (J := ReaderInStep key salt cs (SaltAdmitted salt now)) (ν := readMeasure) s.ofRx
      (fun r Y hr => .chunks rfl hr) (fun r => rfl)
    have hself : s.ofRx (s.toRx state cipher) = s := by
      obtain ⟨⟨st, _, _, _⟩, _, _⟩ := s
      subst hs
      rfl
    rw [hself] at hround
    simp only [readRound, hs]
    exact hround

end

structure ReadEnv where
  now : Nat
  context : Context

def pollIn (env : ReadEnv) (cap : Nat) (s : ReaderIo M) : Poll ProtocolError Bytes × ReaderIo M :=
  pollReadDecrypted env.now cap { s with context := env.context }

theorem readRound_bounded {now cap : Nat} {s s' : ReaderIo M} {bs : Bytes}
    (h : readRound now cap s = .ret (.ready bs) s') : bs.length ≤ cap := by
  unfold readRound at h
  cases hs : s.reader.state with
  | waitSalt key =>
    simp only [hs] at h
    split at h <;> cases h
  | chunks state cipher =>
    simp only [hs] at h
    cases hr : chunkRound (rules now) cap (s.toRx state cipher) with
    | next t =>
      rw [hr] at h
      cases h
    | ret r t =>
      rw [hr] at h
      cases h
      exact chunkRound_bounded hr

theorem pollIn_bounded : Bounded (pollIn (M := M)) := fun env cap _ _ _ h =>
  loopUntil_bounded (readRound_pot env.now cap) (fun _ _ _ hr => readRound_bounded hr) h

def ReadEnv.Admits (env : ReadEnv) (salt : Bytes) : Prop := env.context.Admits .aead env.now salt

instance (env : ReadEnv) (salt : Bytes) : Decidable (env.Admits salt) :=
  inferInstanceAs (Decidable (env.context.Admits .aead env.now salt))

def ReaderIo.Unchecked : Prop :=
  s.reader.salt ≠ none ∨ ∃ key, s.reader.state = .waitSalt key

def Admitted (salt : Bytes) (env : ReadEnv) (s : ReaderIo M) : Prop :=
  s.Unchecked → env.Admits salt

variable {cs : List Bytes}

theorem ReaderInStep.admitted {key salt X : Bytes} {s : ReaderIo M} {env : ReadEnv}
    (h : ReaderInStep key salt cs (SaltPending salt) s X) (henv : Admitted salt env s) :
    ReaderInStep key salt cs (SaltAdmitted salt env.now) { s with context := env.context } X := by
  cases h with
  | waitSalt hw hb hok ho =>
    exact .waitSalt hw hb (.inr ⟨rfl, henv (.inr ⟨_, rfl⟩)⟩) ho
  | chunks hs h =>
    refine .chunks hs (h.of_rest fun _ hr => hr.imp_right fun hr => ⟨hr, henv (.inl ?_)⟩)
    intro hnone
    rw [hnone] at hr
    cases hr

theorem pollIn_serves (hinv : M.aead.Inverts) (key : Bytes) {salt : Bytes}
    (hsalt : salt.length = M.saltLen) (hcs : ∀ c ∈ cs, c.length ≤ maxPacketSize) :
    Serves (pollIn (M := M)) (Admitted salt) (ReaderInStep key salt cs (SaltPending salt))
      readMeasure := by
  intro s X env cap h henv hcap
  have hin := h.admitted henv
  have hstep : PollStep (ReaderInStep key salt cs (SaltAdmitted salt env.now)) readMeasure _ X
      (pollIn env cap s) :=
    pollStep_of_rounds (readRound_pot env.now cap)
      (fun t ht => readRound_inStep hinv hsalt hcs hcap ht) hin
  have hmap := hstep.map (J := ReaderInStep key salt cs (SaltPending salt)) (ν := readMeasure) id
    (fun t Y ht => ht.with_context t.context fun _ ho => ho.imp_right And.left) (fun _ => rfl)
  exact .of_le (t := { s with context := env.context }) (Nat.le_refl (readMeasure s)) hmap

theorem readerInStep_new (key : Bytes) {salt : Bytes} (hsalt : salt.length = M.saltLen)
    {sock : ReadSock} (hw : sockBytes sock = salt ++ chunkWire M.aead (M.subkey key salt) 0 cs)
    (ho : Orderly sock) (context : Context) :
    ReaderInStep key salt cs (SaltPending salt) ⟨.new M key, sock, context⟩ cs.flatten := by
  unfold DecryptedReader.new
  by_cases hpos : 0 < M.saltLen
  · rw [if_pos hpos]
    exact .waitSalt hw zero_le (.inr rfl) ho
  · have hnil : salt = [] := length_eq_zero_iff.mp (by omega)
    subst hnil
    rw [if_neg hpos]
    exact .chunks rfl (.readLength _ hw zero_le suffix_rfl (.inl rfl) ho)

/-! ## 3. The writer -/

abbrev EncryptedWriter (M : AeadMethod) := Tx M.aead Empty

def EncryptedWriter.new (M : AeadMethod) (key nonce : Bytes) (sock : WriteSock) : EncryptedWriter M :=
  ⟨M.newCipher key nonce, nonce, .assemblePacket, sock⟩

def pollWriteEncrypted (buf : Bytes) (w : EncryptedWriter M) : Poll IoError Nat × EncryptedWriter M :=
  pollWriteChunks maxPacketSize Empty.elim buf w

def writeAll (M : AeadMethod) (key salt : Bytes) (events : List WriteEvent) (bufs : List Bytes) :
    Except IoError Bytes × EncryptedWriter M :=
  submitAll pollWriteEncrypted bufs (EncryptedWriter.new M key salt ⟨events, []⟩)

theorem writeAll_wire (M : AeadMethod) (key salt : Bytes) {events : List WriteEvent}
    (hwill : Willing ⟨events, []⟩) {bufs : List Bytes} (hne : bufs ≠ []) :
    ∃ w, writeAll M key salt events bufs = (.ok (accepted maxPacketSize bufs), w) ∧ w.sock.wire = salt ++
        chunkWire M.aead (M.subkey key salt) 0 (bufs.map (take maxPacketSize)) := by
  obtain ⟨buf, bufs, rfl⟩ := exists_cons_of_ne_nil hne
  obtain ⟨w, he, hwire⟩ := submitAll_first maxPacketSize Empty.elim buf bufs
    (t := EncryptedWriter.new M key salt ⟨events, []⟩) (fun _ h => by cases h) hwill
  refine ⟨w, he, hwire.trans ?_⟩
  simp [EncryptedWriter.new, Tx.assembled, Tx.assemble, Cipher.encryptPacket, chunkWire, AeadMethod.newCipher]

/-! ## 4. Round trip -/

def RoundTrip (M : AeadMethod) (key salt : Bytes) (ok : ReadEnv → ReaderIo M → Prop)
    (bufs : List Bytes) : Prop :=
  ∀ events, Willing ⟨events, []⟩ → ∃ w, writeAll M key salt events bufs = (.ok (accepted maxPacketSize bufs), w) ∧
      ∀ sock context, Orderly sock → sockBytes sock = w.sock.wire →
        Yields pollIn ok ⟨.new M key, sock, context⟩ (accepted maxPacketSize bufs)

/-- **A stream of at least one buffer** makes the round trip past every context that does not refuse
    its salt. -/
theorem roundTrip (M : AeadMethod) (hinv : M.aead.Inverts) (key salt : Bytes)
    (hsalt : salt.length = M.saltLen) (bufs : List Bytes) (hne : bufs ≠ []) :
    RoundTrip M key salt (Admitted salt) bufs := by
  intro events hwill
  obtain ⟨w, he, hwire⟩ := writeAll_wire M key salt hwill hne
  have hsmall : ∀ c ∈ bufs.map (take maxPacketSize), c.length ≤ maxPacketSize := by
    intro c hc
    obtain ⟨buf, _, rfl⟩ := mem_map.mp hc
    exact length_take_le _ _
  refine ⟨w, he, fun sock context ho hsock => yields_of_inv (pollIn_serves hinv key hsalt hsmall) ?_⟩
  rw [hwire] at hsock
  exact readerInStep_new key hsalt hsock ho context

def taggedMethod : AeadMethod where
  aead := .tagged
  saltLen := 2
  subkey key salt := Aead.byteSum (key ++ salt)

def salt₀ : Bytes := [2, 3]

def rejecting : Context :=
  (Context.new .server (map UInt8.toNat) (map UInt8.toNat)).setReplayAttackPolicy .reject

def rejectingSeen : Context := (rejecting.checkNonceReplay .aead 0 salt₀).2

theorem roundTrip_tagged : salt₀.length = taggedMethod.saltLen ∧ (⟨0, rejecting⟩ : ReadEnv).Admits salt₀ ∧
      RoundTrip taggedMethod [1] salt₀ (Admitted salt₀) [[7, 8], [], [9]] :=
  ⟨rfl, by decide, roundTrip taggedMethod Aead.tagged_inverts [1] salt₀ rfl _ (cons_ne_nil _ _)⟩

/-- A writer without a buffer sends no salt, an unexpected end for the reader; a salt seen before fails the read. -/
theorem roundTrip_fails : ¬ RoundTrip taggedMethod [1] salt₀ (fun _ _ => True) [] ∧
      ¬ RoundTrip taggedMethod [1] salt₀ (fun _ _ => True) [[7, 8]] := by
  have hadm : ∀ (env : ReadEnv) (s : ReaderIo taggedMethod), Admissible pollIn (fun _ _ => True) s [(env, 4)] :=
    fun _ _ => ⟨⟨trivial, Nat.succ_pos 3⟩, trivial⟩
  constructor
  · intro h
    obtain ⟨w, he, hread⟩ := h [] (willing_nil [])
    cases he
    have hy := hread [] rejecting orderly_nil rfl
    refine hy.noError _ (hadm ⟨0, rejecting⟩ _) (.ioError .unexpectedEof) ?_
    decide
  intro h
  obtain ⟨w, he, hread⟩ := h [] (willing_nil [])
  have hwire : w.sock.wire = [2, 3, 0, 2, 6, 0, 7, 8, 6, 1] := by
    have hw : w = (writeAll taggedMethod [1] salt₀ [] [[7, 8]]).2 := by rw [he]
    rw [hw]
    decide
  have hy := hread [.data [2, 3, 0, 2, 6, 0, 7, 8, 6, 1]] rejecting
    (orderly_single (cons_ne_nil _ _)) hwire.symm
  refine hy.noError _ (hadm ⟨0, rejectingSeen⟩ _)
    (.ioError (.other "detected repeated nonce (iv/salt)")) ?_
  decide

end Shadowsocks.Tcp.V1
