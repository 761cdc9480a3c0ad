/-
  Subject:   STREAM CIPHERS OVER TCP (`crates/shadowsocks/src/relay/tcprelay/stream.rs`): the IV, then the bytes
  under the cipher, without chunks.
-/
import Shadowsocks.Tcp.Aead

namespace Shadowsocks.Tcp.Stream

open Lib List

/-! ## 1. Ciphers -/

structure Method where
  ivLen : Nat
  State : Type
  newCipher : Bytes → Bytes → State
  (encrypt decrypt : State → Bytes → Bytes × State)
  encrypt_length : ∀ s p, (encrypt s p).1.length = p.length
  decrypt_length : ∀ s c, (decrypt s c).1.length = c.length

structure Method.Inverts (S : Method) : Prop where
  append : ∀ s p q, S.encrypt s (p ++ q) =
    ((S.encrypt s p).1 ++ (S.encrypt (S.encrypt s p).2 q).1, (S.encrypt (S.encrypt s p).2 q).2)
  decrypts : ∀ s p, S.decrypt s (S.encrypt s p).1 = (p, (S.encrypt s p).2)

variable {S : Method}

theorem Method.Inverts.piece (hinv : S.Inverts) {s : S.State} {X bs tail : Bytes}
    (h : (S.encrypt s X).1 = bs ++ tail) :
    ∃ Y cipher, S.decrypt s bs = (X.take bs.length, cipher) ∧ X = X.take bs.length ++ Y ∧
      (S.encrypt cipher Y).1 = tail ∧ (X.take bs.length).length = bs.length := by
  have hlen : (X.take bs.length).length = bs.length := by
    have := S.encrypt_length s X
    rw [h, length_append] at this
    rw [length_take]
    omega
  have hsplit := hinv.append s (X.take bs.length) (X.drop bs.length)
  rw [take_append_drop] at hsplit
  rw [hsplit] at h
  obtain ⟨hbs, htail⟩ := append_inj h ((S.encrypt_length _ _).trans hlen)
  refine ⟨X.drop bs.length, (S.encrypt s (X.take bs.length)).2, ?_, (take_append_drop _ _).symm, htail, hlen⟩
  conv_lhs => rw [← hbs]
  exact hinv.decrypts s _

def countedMask : UInt8 → Bytes → Bytes × UInt8
  | s, [] => ([], s)
  | s, b :: p => ((b ^^^ s) :: (countedMask (s + 1) p).1, (countedMask (s + 1) p).2)

theorem countedMask_length (s : UInt8) (p : Bytes) : (countedMask s p).1.length = p.length := by
  induction p generalizing s with
  | nil => rfl
  | cons b p ih => exact congrArg Nat.succ (ih (s + 1))

theorem countedMask_append (s : UInt8) (p q : Bytes) : countedMask s (p ++ q) =
    ((countedMask s p).1 ++ (countedMask (countedMask s p).2 q).1, (countedMask (countedMask s p).2 q).2) := by
  induction p generalizing s with
  | nil => rfl
  | cons b p ih => simp only [cons_append, countedMask, ih]

theorem countedMask_twice (s : UInt8) (p : Bytes) : countedMask s (countedMask s p).1 = (p, (countedMask s p).2) := by
  induction p generalizing s with
  | nil => rfl
  | cons b p ih => simp only [countedMask, ih, UInt8.xor_assoc, UInt8.xor_self, UInt8.xor_zero]

def Method.counted : Method where
  ivLen := 2
  State := UInt8
  newCipher key iv := Aead.byteSum (key ++ iv)
  encrypt := countedMask
  decrypt := countedMask
  encrypt_length := countedMask_length
  decrypt_length := countedMask_length

theorem Method.counted_inverts : counted.Inverts := ⟨countedMask_append, countedMask_twice⟩

/-! ## 2. The reader -/

inductive ProtocolError where
  | ioError (e : IoError)
  deriving DecidableEq

inductive DecryptReadState (S : Method) where
  | waitIv (key : Bytes)
  | read (cipher : S.State)

structure DecryptedReader (S : Method) where
  state : DecryptReadState S
  buffer : Bytes
  iv : Option Bytes
  hasHandshaked : Bool

def DecryptedReader.new (S : Method) (key : Bytes) : DecryptedReader S :=
  if 0 < S.ivLen then ⟨.waitIv key, [], none, false⟩
  else ⟨.read (S.newCipher key []), [], some [], false⟩

structure ReaderIo (S : Method) where
  reader : DecryptedReader S
  sock : ReadSock
  context : Context

def pollReadIv (now : Nat) (key : Bytes) (s : ReaderIo S) : Poll ProtocolError S.State × ReaderIo S :=
  match pollReadExact S.ivLen s.reader.buffer s.sock with
  | (.pending, buf, sock) => (.pending, { s with reader.buffer := buf, sock := sock })
  | (.error e, buf, sock) => (.error (.ioError e), { s with reader.buffer := buf, sock := sock })
  | (.ready n, buf, sock) =>
    if n < S.ivLen then
      (.error (.ioError .unexpectedEof), { s with reader.buffer := buf, sock := sock })
    else
      let iv := buf.take S.ivLen
      match s.context.checkNonceReplay .stream now iv with
      | (some e, context) =>
        (.error (.ioError e), { s with reader.buffer := buf, sock := sock, context := context })
      | (none, context) =>
        (.ready (S.newCipher key iv),
          { s with reader.buffer := buf, reader.iv := some iv, sock := sock, context := context })

def readRound (now cap : Nat) (s : ReaderIo S) : Ctl (Poll ProtocolError Bytes) (ReaderIo S) :=
  match s.reader.state with
  | .waitIv key =>
    match pollReadIv now key s with
    | (.pending, s') => .ret .pending s'
    | (.error e, s') => .ret (.error e) s'
    | (.ready cipher, s') =>
      .next { s' with reader := { s'.reader with buffer := [], hasHandshaked := true
                                                 state := .read cipher } }
  | .read cipher =>
    match pollRead cap s.sock with
    | (.pending, sock) => .ret .pending { s with sock := sock }
    | (.error e, sock) => .ret (.error (.ioError e)) { s with sock := sock }
    | (.ready [], sock) => .ret (.ready []) { s with sock := sock }
    | (.ready (b :: bs), sock) =>
      let (m, cipher') := S.decrypt cipher (b :: bs)
      .ret (.ready m) { s with reader.state := .read cipher', sock := sock }

def readPot (s : ReaderIo S) : Nat :=
  match s.reader.state with
  | .waitIv _ => 1
  | .read _ => 0

def pollReadDecrypted (now cap : Nat) (s : ReaderIo S) : Poll ProtocolError Bytes × ReaderIo S :=
  loopUntil (readRound now cap) readPot .pending s

theorem readRound_pot (now cap : Nat) (s s' : ReaderIo S) (h : readRound now cap s = .next s') :
    readPot s' < readPot s := by
  unfold readRound at h
  cases hs : s.reader.state with
  | waitIv key =>
    rw [hs] at h
    simp only at h
    split at h
    · cases h
    · cases h
    · cases h
      rw [readPot, readPot, hs]
      exact zero_lt_one
  | read cipher =>
    rw [hs] at h
    simp only at h
    split at h
    · cases h
    · cases h
    · cases h
    · cases h

def pollIn (env : V1.ReadEnv) (cap : Nat) (s : ReaderIo S) : Poll ProtocolError Bytes × ReaderIo S :=
  pollReadDecrypted env.now cap { s with context := env.context }

theorem readRound_bounded {now cap : Nat} {s s' : ReaderIo S} {bs : Bytes}
    (h : readRound now cap s = .ret (.ready bs) s') : bs.length ≤ cap := by
  unfold readRound at h
  cases hs : s.reader.state with
  | waitIv key =>
    simp only [hs] at h
    split at h <;> cases h
  | read cipher =>
    simp only [hs] at h
    rcases hr : pollRead cap s.sock with ⟨r, sock⟩
    rw [hr] at h
    rcases r with _ | (_ | ⟨b, bs⟩) | e
    · cases h
    · cases h
      exact zero_le
    · cases h
      rw [S.decrypt_length]
      exact pollRead_bounded hr
    · cases h

theorem pollIn_bounded : Bounded (pollIn (S := S)) := fun env cap _ _ _ h =>
  loopUntil_bounded (readRound_pot env.now cap) (fun _ _ _ hr => readRound_bounded hr) h

/-! ## 3. What the reader delivers -/

def readMeasure (s : ReaderIo S) : Nat := sockWeight s.sock + s.reader.buffer.length

/-- **The reader is in step** with a writer that encrypts under `key` and `iv`, with `X` still to deliver. -/
inductive ReaderInStep (key iv : Bytes) (s : ReaderIo S) (X : Bytes) : Prop where
  | waitIv (hs : s.reader.state = .waitIv key)
      (hw : s.reader.buffer ++ sockBytes s.sock = iv ++ (S.encrypt (S.newCipher key iv) X).1)
      (hb : s.reader.buffer.length ≤ S.ivLen) (ho : Orderly s.sock)
  | read (cipher : S.State) (hs : s.reader.state = .read cipher) (hempty : s.reader.buffer = [])
      (hw : sockBytes s.sock = (S.encrypt cipher X).1) (ho : Orderly s.sock)

def Admitted (iv : Bytes) (env : V1.ReadEnv) (s : ReaderIo S) : Prop :=
  (∃ key, s.reader.state = .waitIv key) → env.context.Admits .stream env.now iv

def Ready (key iv : Bytes) (now : Nat) (s : ReaderIo S) (X : Bytes) : Prop :=
  ReaderInStep key iv s X ∧ ((∃ key, s.reader.state = .waitIv key) → s.context.Admits .stream now iv)

section

variable {key iv : Bytes} {now cap : Nat} {s : ReaderIo S} {X : Bytes}

theorem readRound_waitIv (hiv : iv.length = S.ivLen) (hpass : s.context.Admits .stream now iv)
    (hs : s.reader.state = .waitIv key)
    (hw : s.reader.buffer ++ sockBytes s.sock = iv ++ (S.encrypt (S.newCipher key iv) X).1)
    (hb : s.reader.buffer.length ≤ S.ivLen) (ho : Orderly s.sock) :
    RoundStep (Ready key iv now) readMeasure s X (readRound now cap s) := by
  rcases (pollReadExact_step S.ivLen s.reader.buffer s.sock).of_wire ho hb hw hiv with
    ⟨buf, sock', he, hw', hb', ho', hμ⟩ | ⟨sock', he, hw', ho', hμ⟩
  · simp only [readRound, hs, pollReadIv, he]
    exact .ret _ _ (.pending _ ⟨.waitIv rfl hw' hb' ho', fun _ => hpass⟩ hμ)
  have hanswer : s.context.checkNonceReplay .stream now (iv.take S.ivLen) =
      (none, (s.context.checkNonceReplay .stream now (iv.take S.ivLen)).2) := by
    rw [take_of_length_le (le_of_eq hiv)]
    exact Prod.ext hpass rfl
  simp only [readRound, hs, pollReadIv, he, lt_irrefl, if_false]
  rw [hanswer, take_of_length_le (le_of_eq hiv)]
  refine .next _ ⟨.read _ rfl rfl hw' ho', nofun⟩ ?_
  simp only [readMeasure, length_nil]
  omega

theorem readRound_read (hinv : S.Inverts) (hcap : 0 < cap) {cipher : S.State}
    (hs : s.reader.state = .read cipher) (hempty : s.reader.buffer = [])
    (hw : sockBytes s.sock = (S.encrypt cipher X).1) (ho : Orderly s.sock) :
    RoundStep (Ready key iv now) readMeasure s X (readRound now cap s) := by
  have hstep := pollRead_step hcap s.sock
  have hpast : ∀ {key cipher'}, (.read cipher' : DecryptReadState S) ≠ .waitIv key := nofun
  rw [readRound, hs]
  rcases hr : pollRead cap s.sock with ⟨r, sock⟩
  rw [hr] at hstep
  cases hstep with
  | pending _ hb hlt ho' =>
    refine .ret _ _ (.pending _ ⟨.read cipher hs hempty (hb.symm.trans hw) (ho' ho), ?_⟩ ?_)
    · rintro ⟨key, hkey⟩
      exact absurd (hs.symm.trans hkey) hpast
    · exact Nat.add_lt_add_right hlt _
  | error code _ hb hlt ho' => exact absurd ho ho'
  | eof _ hb hle hend =>
    obtain ⟨hnil, rfl⟩ := hend ho
    have hX : X = [] := by
      rw [hnil] at hw
      refine eq_nil_of_length_eq_zero ?_
      rw [← S.encrypt_length cipher X, ← hw]
      rfl
    subst hX
    refine .ret _ _ (.eof _ rfl ⟨.read cipher hs hempty (hnil ▸ hw) orderly_nil, ?_⟩)
    rintro ⟨key, hkey⟩
    exact absurd (hs.symm.trans hkey) hpast
  | data b bs _ hlen hb hle ho' =>
    obtain ⟨Y, cipher', hd, hX, hrest, hlen'⟩ := hinv.piece (hw.symm.trans hb)
    simp only [hd]
    refine .ret _ _ (.data _ Y _ ?_ hX ⟨.read cipher' rfl hempty hrest.symm (ho' ho), nofun⟩ ?_)
    · intro hnil
      rw [hnil] at hlen'
      cases hlen'
    · have hpos : 0 < (b :: bs).length := Nat.zero_lt_succ _
      show sockWeight sock + s.reader.buffer.length < sockWeight s.sock + s.reader.buffer.length
      omega

theorem pollIn_serves (hinv : S.Inverts) (key : Bytes) (hiv : iv.length = S.ivLen) :
    Serves (pollIn (S := S)) (Admitted iv) (ReaderInStep key iv) readMeasure := by
  intro s X env cap h henv hcap
  have hready : Ready key iv env.now { s with context := env.context } X := by
    refine ⟨?_, henv⟩
    cases h with
    | waitIv hs hw hb ho => exact .waitIv hs hw hb ho
    | read cipher hs hempty hw ho => exact .read cipher hs hempty hw ho
  have hstep : PollStep (Ready key iv env.now) readMeasure { s with context := env.context } X
      (pollIn env cap s) := by
    refine pollStep_of_rounds (readRound_pot env.now cap) (fun t ht => ?_) hready
    obtain ⟨hin, hpass⟩ := ht
    cases hin with
    | waitIv hs hw hb ho => exact readRound_waitIv hiv (hpass ⟨key, hs⟩) hs hw hb ho
    | read cipher hs hempty hw ho => exact readRound_read hinv hcap hs hempty hw ho
  exact .of_le (t := { s with context := env.context }) (Nat.le_refl (readMeasure s))
    (hstep.map (J := ReaderInStep key iv) (ν := readMeasure) id (fun t Y ht => ht.1) fun _ => rfl)

theorem readerInStep_new (key : Bytes) (hiv : iv.length = S.ivLen) {sock : ReadSock}
    (hw : sockBytes sock = iv ++ (S.encrypt (S.newCipher key iv) X).1) (ho : Orderly sock)
    (context : Context) : ReaderInStep key iv ⟨.new S key, sock, context⟩ X := by
  unfold DecryptedReader.new
  by_cases hpos : 0 < S.ivLen
  · rw [if_pos hpos]
    exact .waitIv rfl hw zero_le ho
  · have hnil : iv = [] := length_eq_zero_iff.mp (by omega)
    subst hnil
    rw [if_neg hpos]
    exact .read _ rfl rfl hw ho

end

/-! ## 4. The writer -/

structure EncryptedWriter (S : Method) where
  cipher : S.State
  buffer : Bytes
  state : EncryptWriteState Empty
  iv : Bytes
  sock : WriteSock

def EncryptedWriter.new (S : Method) (key nonce : Bytes) (sock : WriteSock) : EncryptedWriter S :=
  ⟨S.newCipher key nonce, nonce, .assemblePacket, nonce, sock⟩

def pollWriting (buf : Bytes) (pos : Nat) (w : EncryptedWriter S) : Poll IoError Nat × EncryptedWriter S :=
  match drain w.buffer pos w.sock with
  | (.pending, pos', sock) => (.pending, { w with state := .writing pos', sock := sock })
  | (.error e, pos', sock) => (.error e, { w with state := .writing pos', sock := sock })
  | (.ready (), _, sock) =>
    (.ready buf.length, { w with state := .assemblePacket, buffer := [], sock := sock })

def EncryptedWriter.assemble (w : EncryptedWriter S) (buf : Bytes) : EncryptedWriter S :=
  let (data, cipher) := S.encrypt w.cipher buf
  { w with cipher := cipher, buffer := w.buffer ++ data, state := .writing 0 }

def pollWriteEncrypted (buf : Bytes) (w : EncryptedWriter S) : Poll IoError Nat × EncryptedWriter S :=
  match w.state with
  | .assembleHeader i => i.elim
  | .assemblePacket => pollWriting buf 0 (w.assemble buf)
  | .writing pos => pollWriting buf pos w

end Shadowsocks.Tcp.Stream
