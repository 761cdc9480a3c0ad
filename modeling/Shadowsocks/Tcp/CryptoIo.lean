/-
  Subject:   THE TCP STREAMS OF ALL METHODS (`crates/shadowsocks/src/relay/tcprelay/crypto_io.rs`): one reader and
  one writer for each category of methods.
-/
import Shadowsocks.Tcp.EndToEnd
import Shadowsocks.Tcp.Stream

namespace Shadowsocks.Tcp

open Lib List
open V2 (StreamType Setup)

inductive CipherKind where
  | none
  | stream (S : Stream.Method)
  | aead (M : V1.AeadMethod)
  | aead2022 (M : V2.Method)

def CipherKind.Inverts : CipherKind → Prop
  | .none => True
  | .stream S => S.Inverts
  | .aead M => M.aead.Inverts
  | .aead2022 M => M.Inverts

inductive ProtocolError where
  | ioError (e : IoError)
  | streamError (e : Stream.ProtocolError)
  | aeadError (e : V1.ProtocolError)
  | aead2022Error (e : V2.ProtocolError)
  deriving DecidableEq

/-! ## 1. The writer -/

def EncryptedWriter : CipherKind → Type
  | .none => WriteSock
  | .stream S => Stream.EncryptedWriter S
  | .aead M => V1.EncryptedWriter M
  | .aead2022 M => V2.EncryptedWriter M

def EncryptedWriter.withIdentity : (K : CipherKind) → StreamType → Bytes → Bytes → List Bytes → WriteSock →
    EncryptedWriter K
  | .none, _, _, _, _, sock => sock
  | .stream S, _, key, nonce, _, sock => Stream.EncryptedWriter.new S key nonce sock
  | .aead M, _, key, nonce, _, sock => V1.EncryptedWriter.new M key nonce sock
  | .aead2022 M, streamTy, key, nonce, identityKeys, sock =>
    V2.EncryptedWriter.withIdentity M streamTy key nonce identityKeys sock

def pollWriteEncrypted : (K : CipherKind) → UInt64 → Bytes → EncryptedWriter K → Poll IoError Nat × EncryptedWriter K
  | .none, _, buf, sock => pollWrite buf sock
  | .stream _, _, buf, w => Stream.pollWriteEncrypted buf w
  | .aead _, _, buf, w => V1.pollWriteEncrypted buf w
  | .aead2022 _, timestamp, buf, w => V2.pollWriteEncrypted timestamp buf w

def EncryptedWriter.wire : (K : CipherKind) → EncryptedWriter K → Bytes
  | .none, sock => WriteSock.wire sock
  | .stream _, w => (Stream.EncryptedWriter.sock w).wire
  | .aead _, w => (Tx.sock w).wire
  | .aead2022 _, w => V2.EncryptedWriter.wire w

/-! ## 2. The reader -/

def ReaderIo : CipherKind → Type
  | .none => ReadSock
  | .stream S => Stream.ReaderIo S
  | .aead M => V1.ReaderIo M
  | .aead2022 M => V2.ReaderIo M

def ReaderIo.withUserManager : (K : CipherKind) → StreamType → Bytes → Option ServerUserManager → ReadSock →
    Context → ReaderIo K
  | .none, _, _, _, sock, _ => sock
  | .stream S, _, key, _, sock, context => ⟨Stream.DecryptedReader.new S key, sock, context⟩
  | .aead M, _, key, _, sock, context => ⟨V1.DecryptedReader.new M key, sock, context⟩
  | .aead2022 M, streamTy, key, users, sock, context =>
    ⟨V2.DecryptedReader.withUserManager M streamTy key users, sock, context⟩

def pollIn : (K : CipherKind) → V2.ReadEnv → Nat → ReaderIo K → Poll ProtocolError Bytes × ReaderIo K
  | .none, _, cap, sock =>
    match pollRead cap sock with
    | (r, sock') => (r.mapError .ioError, sock')
  | .stream _, env, cap, s =>
    match Stream.pollIn ⟨env.now, env.context⟩ cap s with
    | (r, s') => (r.mapError .streamError, s')
  | .aead _, env, cap, s =>
    match V1.pollIn ⟨env.now, env.context⟩ cap s with
    | (r, s') => (r.mapError .aeadError, s')
  | .aead2022 _, env, cap, s =>
    match V2.pollIn env cap s with
    | (r, s') => (r.mapError .aead2022Error, s')

/-! ## 3. Client and server -/

variable (E : Setup)

def Agrees : CipherKind → Prop
  | .none => True
  | .stream S => E.serverKey = E.clientKey ∧ E.clientSalt.length = S.ivLen
  | .aead M => E.serverKey = E.clientKey ∧ E.clientSalt.length = M.saltLen
  | .aead2022 M => (∃ userKey, V2.Agree M E.clientKey E.identityKeys E.serverKey E.users userKey) ∧
      E.clientSalt.length = M.kind.saltLen

def ServerOk (sent : UInt64) : (K : CipherKind) → V2.ReadEnv → ReaderIo K → Prop
  | .none, _, _ => True
  | .stream _, env, s => Stream.Admitted E.clientSalt ⟨env.now, env.context⟩ s
  | .aead _, env, s => V1.Admitted E.clientSalt ⟨env.now, env.context⟩ s
  | .aead2022 _, env, s => V2.Awaiting (V2.ReaderIo.reader s) →
      V2.InTime env.timestamp sent ∧ env.context.Admits .aead2022 env.now E.clientSalt

def HeaderWhole : CipherKind → ReadSock → Prop
  | .aead2022 M, sock =>
    WholeFirst (V2.DecryptedReader.withUserManager M .server E.serverKey E.users).headerLen sock
  | _, _ => True

def Decodes (K : CipherKind) (sent : UInt64) (wire X : Bytes) : Prop :=
  ∀ sock context, Orderly sock → sockBytes sock = wire → HeaderWhole E K sock →
    Yields (pollIn K) (ServerOk E sent K) (.withUserManager K .server E.serverKey E.users sock context) X

def sentWire : CipherKind → UInt64 → Bytes → Bytes
  | .none, _, p => p
  | .stream S, _, p => E.clientSalt ++ (S.encrypt (S.newCipher E.clientKey E.clientSalt) p).1
  | .aead M, _, p => E.clientSalt ++ chunkWire M.aead (M.subkey E.clientKey E.clientSalt) 0 [p]
  | .aead2022 M, sent, p =>
    E.clientSalt ++ (M.eihBytes .client E.clientSalt E.clientKey E.identityKeys ++
      M.aead.encrypt (M.subkey E.clientKey E.clientSalt) 0 (V2.headerChunk .client sent none p)) ++
    M.aead.encrypt (M.subkey E.clientKey E.clientSalt) 1 p

def Short : CipherKind → Bytes → Prop
  | .none, _ => True
  | .stream _, _ => True
  | .aead _, p => p.length ≤ V1.maxPacketSize
  | .aead2022 _, p => p.length ≤ V2.maxPacketSize

theorem pollRead_serves : Serves (fun (_ : V2.ReadEnv) cap sock => pollRead cap sock) (fun _ _ => True)
    (fun sock X => sockBytes sock = X ∧ Orderly sock) sockWeight := by
  rintro sock X env cap ⟨rfl, ho⟩ - hcap
  have hstep := pollRead_step hcap sock
  dsimp only
  generalize pollRead cap sock = x at hstep ⊢
  cases hstep with
  | pending sock' hb hlt ho' => exact .pending _ ⟨hb.symm, ho' ho⟩ hlt
  | error code sock' hb hlt ho' => exact absurd ho ho'
  | eof sock' hb hle hend =>
    obtain ⟨rfl, rfl⟩ := hend ho
    exact .eof _ rfl ⟨rfl, ho⟩
  | data b bs sock' hlen hb hle ho' =>
    have hpos : 0 < (b :: bs).length := Nat.zero_lt_succ _
    exact .data (b :: bs) (sockBytes sock') _ (cons_ne_nil _ _) hb ⟨rfl, ho' ho⟩ (by omega)

def clientWire : CipherKind → UInt64 → Bytes → List Bytes → Bytes
  | .none, _, first, more => first ++ more.flatten
  | .stream S, _, first, more =>
    E.clientSalt ++ (S.encrypt (S.newCipher E.clientKey E.clientSalt) (first ++ more.flatten)).1
  | .aead M, _, first, more =>
    E.clientSalt ++ chunkWire M.aead (M.subkey E.clientKey E.clientSalt) 0 (first :: more)
  | .aead2022 M, sent, first, more =>
    sentWire E (.aead2022 M) sent first ++ chunkWire M.aead (M.subkey E.clientKey E.clientSalt) 2 more

theorem clientWire_nil (K : CipherKind) (sent : UInt64) (p : Bytes) :
    clientWire E K sent p [] = sentWire E K sent p := by
  cases K with
  | none => exact append_nil p
  | stream S =>
    show E.clientSalt ++ (S.encrypt _ (p ++ [])).1 = _
    rw [append_nil]
    rfl
  | aead M => rfl
  | aead2022 M => exact append_nil _

variable {E : Setup} {more : List Bytes} {first : Bytes}

theorem clientWire_aead2022 {M : V2.Method} (hinv : M.Inverts) {userKey : Option Bytes}
    (hagree : V2.Agree M E.clientKey E.identityKeys E.serverKey E.users userKey)
    (hsalt : E.clientSalt.length = M.kind.saltLen) (sent : UInt64)
    (hsmall : ∀ c ∈ first :: more, c.length ≤ V2.maxPacketSize) : clientWire E (.aead2022 M) sent first more =
      (V2.requestSession hinv hagree hsalt sent first more hsmall).wire := by
  show sentWire E (.aead2022 M) sent first ++ _ = _ ++ (_ ++ _)
  rw [← append_assoc]
  rfl

theorem pollIn_bounded (K : CipherKind) : Bounded (pollIn K) := by
  intro env cap s bs s' h
  have hready := congrArg Prod.fst h
  cases K with
  | none => exact pollRead_bounded (Prod.ext (Poll.mapError_ready.mp hready) rfl)
  | stream S => exact Stream.pollIn_bounded _ cap s bs _ (Prod.ext (Poll.mapError_ready.mp hready) rfl)
  | aead M => exact V1.pollIn_bounded _ cap s bs _ (Prod.ext (Poll.mapError_ready.mp hready) rfl)
  | aead2022 M => exact V2.pollIn_bounded _ cap s bs _ (Prod.ext (Poll.mapError_ready.mp hready) rfl)

variable {K : CipherKind}

theorem serves_client (hinv : K.Inverts) (hE : Agrees E K) (sent : UInt64) (hshort : ∀ c ∈ first :: more, Short K c) :
    ∃ (I : ReaderIo K → Bytes → Prop) (μ : ReaderIo K → Nat), Serves (pollIn K) (ServerOk E sent K) I μ ∧
      ∀ sock context, Orderly sock → sockBytes sock = clientWire E K sent first more → HeaderWhole E K sock →
        I (.withUserManager K .server E.serverKey E.users sock context) (first ++ more.flatten) ∧
          μ (.withUserManager K .server E.serverKey E.users sock context) = sockWeight sock := by
  cases K with
  | none =>
    exact ⟨_, _, pollRead_serves.mapError id ProtocolError.ioError, fun sock _ ho hb _ => ⟨⟨hb, ho⟩, rfl⟩⟩
  | stream S =>
    obtain ⟨hkey, hiv⟩ := hE
    refine ⟨_, _, (Stream.pollIn_serves hinv E.clientKey hiv).mapError
      (fun env : V2.ReadEnv => ⟨env.now, env.context⟩) ProtocolError.streamError, ?_⟩
    intro sock context ho hb _
    rw [hkey]
    refine ⟨Stream.readerInStep_new E.clientKey hiv hb ho context, ?_⟩
    show sockWeight sock + (Stream.DecryptedReader.new S E.clientKey).buffer.length = sockWeight sock
    unfold Stream.DecryptedReader.new
    split <;> rfl
  | aead M =>
    obtain ⟨hkey, hsalt⟩ := hE
    refine ⟨_, _, (V1.pollIn_serves hinv E.clientKey hsalt hshort).mapError
      (fun env : V2.ReadEnv => ⟨env.now, env.context⟩) ProtocolError.aeadError, ?_⟩
    intro sock context ho hb _
    rw [hkey]
    refine ⟨V1.readerInStep_new E.clientKey hsalt hb ho context, ?_⟩
    show V1.readMeasure ⟨.new M E.clientKey, sock, context⟩ = sockWeight sock
    unfold V1.DecryptedReader.new
    split <;> rfl
  | aead2022 M =>
    obtain ⟨⟨userKey, hagree⟩, hsalt⟩ := hE
    refine ⟨_, _, (V2.pollIn_serves hinv.aead
      (V2.requestSession hinv hagree hsalt sent first more hshort)).mapError id
      ProtocolError.aead2022Error, ?_⟩
    intro sock context ho hb hwhole
    have hwire := hb.trans (clientWire_aead2022 hinv hagree hsalt sent hshort)
    have hfirst : WholeFirst (V2.requestSession hinv hagree hsalt sent first more hshort).header.length
        sock := by
      rwa [V2.Session.header_length]
    exact ⟨.header hwire hfirst ho, rfl⟩

theorem decodes_client (hinv : K.Inverts) (hE : Agrees E K) (sent : UInt64) (hshort : ∀ c ∈ first :: more, Short K c) :
    Decodes E K sent (clientWire E K sent first more) (first ++ more.flatten) := by
  obtain ⟨I, μ, hS, hbegin⟩ := serves_client hinv hE sent hshort
  intro sock context ho hb hwhole
  exact yields_of_inv hS (hbegin sock context ho hb hwhole).1

theorem decodes_sent (hinv : K.Inverts) (hE : Agrees E K) (sent : UInt64) {p : Bytes} (hshort : Short K p) :
    Decodes E K sent (sentWire E K sent p) p := by
  have hclient : Decodes E K sent (clientWire E K sent p []) (p ++ ([] : List Bytes).flatten) :=
    decodes_client hinv hE sent (by simpa using hshort)
  rwa [clientWire_nil, flatten_nil, append_nil] at hclient

end Shadowsocks.Tcp
