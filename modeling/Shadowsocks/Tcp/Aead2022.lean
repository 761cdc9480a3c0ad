/-
  Subject:   THE AEAD-2022 STREAM (`crates/shadowsocks/src/relay/tcprelay/aead_2022.rs`): a header that carries the
  first length, then chunks.
-/
import Shadowsocks.Relay.Identity
import Shadowsocks.Security.Replay
import Shadowsocks.Tcp.Chunk

namespace Shadowsocks.Tcp.V2

open Lib List

structure Method where
  kind : Aead2022Kind
  aead : Aead
  subkey : Bytes → Bytes → aead.Sub
  prim : Primitives

def Method.newCipher (M : Method) (key salt : Bytes) : Cipher M.aead := ⟨M.subkey key salt, 0⟩

structure Method.Inverts (M : Method) : Prop where
  aead : M.aead.Inverts
  prim : M.prim.Inverts

inductive StreamType where
  | client
  | server
  deriving DecidableEq

def maxPacketSize : Nat := 0xFFFF

def eihSubkeyContext : String := "shadowsocks 2022 identity subkey"

inductive ProtocolError where
  | ioError (e : IoError)
  | headerTooShort (expected found : Nat)
  | missingExtendedIdentityHeader
  | invalidClientUser (userHash : Bytes)
  | decryptHeaderChunkError
  | decryptDataError
  | invalidStreamType (expected found : UInt8)
  | invalidTimestamp (timestamp now : UInt64)
  deriving DecidableEq

def absDiff (a b : UInt64) : UInt64 := if a ≤ b then b - a else a - b

/-! ## 1. Identity headers -/

def Method.eihKey (M : Method) (key salt : Bytes) : Bytes :=
  (M.prim.deriveKey eihSubkeyContext (key ++ salt)).take M.kind.keyLen

def Method.makeEih (M : Method) (enc ipsk : Bytes) : Bytes :=
  M.prim.aesEncrypt enc (M.prim.identityHash ipsk)

def Method.identityHeaders (M : Method) (nonce key : Bytes) : List Bytes → Bytes
  | [] => []
  | [ipsk] => M.makeEih (M.eihKey ipsk nonce) key
  | ipsk :: ipsk' :: rest =>
    M.makeEih (M.eihKey ipsk nonce) ipsk' ++ M.identityHeaders nonce key (ipsk' :: rest)

def Method.eihBytes (M : Method) (streamTy : StreamType) (nonce key : Bytes)
    (identityKeys : List Bytes) : Bytes :=
  if streamTy = .client ∧ methodSupportEih M.kind then M.identityHeaders nonce key identityKeys else []

/-! ## 2. The reader -/

inductive DecryptReadState (A : Aead) where
  | readHeader (key : Bytes)
  | chunks (state : ChunkState) (cipher : Cipher A)

structure DecryptedReader (M : Method) where
  streamTy : StreamType
  state : DecryptReadState M.aead
  buffer : Bytes
  (salt requestSalt : Option Bytes)
  dataChunkCount : UInt64
  userManager : Option ServerUserManager
  userKey : Option Bytes
  hasHandshaked : Bool

variable {M : Method}

def DecryptedReader.withUserManager (M : Method) (streamTy : StreamType) (key : Bytes)
    (userManager : Option ServerUserManager) : DecryptedReader M where
  streamTy := streamTy
  state := .readHeader key
  buffer := []
  salt := none
  requestSalt := none
  dataChunkCount := 0
  userManager := userManager
  userKey := none
  hasHandshaked := false

def DecryptedReader.identityUsers (r : DecryptedReader M) : Option ServerUserManager :=
  if r.streamTy = .server ∧ methodSupportEih M.kind then r.userManager else none

def requestSaltLen (M : Method) : StreamType → Nat
  | .client => M.kind.saltLen
  | .server => 0

def DecryptedReader.headerLen (r : DecryptedReader M) : Nat :=
  M.kind.saltLen + (if r.identityUsers.isSome then 16 else 0) + 1 + 8 +
    requestSaltLen M r.streamTy + 2 + M.aead.tagLen

structure ReaderIo (M : Method) where
  reader : DecryptedReader M
  sock : ReadSock
  context : Context

def chooseCipher (key salt chunk : Bytes) (r : DecryptedReader M) :
    Except ProtocolError (Cipher M.aead × Bytes) × DecryptedReader M :=
  match r.identityUsers with
  | none => (.ok (M.newCipher key salt, chunk), r)
  | some userManager =>
    if chunk.length < 16 then (.error .missingExtendedIdentityHeader, r)
    else
      let userHash := M.prim.aesDecrypt (M.eihKey key salt) (chunk.take 16)
      match userManager.getUserByHash userHash with
      | none => (.error (.invalidClientUser userHash), r)
      | some user =>
        (.ok (M.newCipher user.key salt, chunk.drop 16), { r with userKey := some user.key })

def expectedStreamTy : StreamType → UInt8
  | .client => 1
  | .server => 0

def checkHeader (now : Nat) (timestamp : UInt64) (salt p : Bytes) (s : ReaderIo M) :
    Except ProtocolError Nat × ReaderIo M :=
  let streamTy := UInt8.ofNat (beNat (p.take 1))
  let expected := expectedStreamTy s.reader.streamTy
  let sent := get64 ((p.drop 1).take 8)
  let rest := p.drop 9
  let length := (get16 ((rest.drop (requestSaltLen M s.reader.streamTy)).take 2)).toNat
  if streamTy ≠ expected then (.error (.invalidStreamType expected streamTy), s)
  else if serverStreamTimestampMaxDiff < absDiff timestamp sent then
    (.error (.invalidTimestamp sent timestamp), s)
  else
    match s.reader.streamTy with
    | .client =>
      (.ok length, { s with reader.requestSalt := some (rest.take M.kind.saltLen)
                            reader.salt := some salt })
    | .server =>
      -- the salt is remembered only after the header was authenticated
      match s.context.checkNonceReplay .aead2022 now salt with
      | (some e, context) => (.error (.ioError e), { s with context := context })
      | (none, context) => (.ok length, { s with reader.salt := some salt, context := context })

def acceptHeader (now : Nat) (timestamp : UInt64) (key header : Bytes) (s : ReaderIo M) :
    Except ProtocolError (Nat × Cipher M.aead) × ReaderIo M :=
  let salt := header.take M.kind.saltLen
  match chooseCipher key salt (header.drop M.kind.saltLen) s.reader with
  | (.error e, r) => (.error e, { s with reader := r })
  | (.ok (cipher, chunk), r) =>
    match cipher.decryptPacket chunk with
    | (false, _, _) => (.error .decryptHeaderChunkError, { s with reader := r })
    | (true, p, cipher) =>
      match checkHeader now timestamp salt p { s with reader := r } with
      | (.error e, s) => (.error e, s)
      | (.ok length, s) => (.ok (length, cipher), s)

def rules : ChunkRules UInt64 ProtocolError where
  ioError := .ioError
  lengthError := .ioError (.other "decrypt length failed")
  checkLength _ := none
  dataError := .decryptDataError
  onData count := (none, count + 1)

def ReaderIo.toRx (s : ReaderIo M) (state : ChunkState) (cipher : Cipher M.aead) : Rx M.aead UInt64 :=
  ⟨state, cipher, s.reader.buffer, s.reader.dataChunkCount, s.sock⟩

def ReaderIo.ofRx (s : ReaderIo M) (r : Rx M.aead UInt64) : ReaderIo M :=
  ⟨{ s.reader with state := .chunks r.state r.cipher, buffer := r.buffer, dataChunkCount := r.rest },
    r.sock, s.context⟩

variable (now : Nat) (timestamp : UInt64) (cap : Nat)

def readRound (s : ReaderIo M) :
    Ctl (Poll ProtocolError Bytes) (ReaderIo M) :=
  match s.reader.state with
  | .readHeader key =>
    match pollRead s.reader.headerLen s.sock with
    | (.pending, sock) => .ret .pending { s with sock := sock }
    | (.error e, sock) => .ret (.error (.ioError e)) { s with sock := sock }
    | (.ready header, sock) =>
      if header = [] then .ret (.ready []) { s with sock := sock }
      else if header.length ≠ s.reader.headerLen then
        .ret (.error (.headerTooShort s.reader.headerLen header.length)) { s with sock := sock }
      else
        match acceptHeader now timestamp key header { s with sock := sock } with
        | (.error e, s') => .ret (.error e) s'
        | (.ok (length, cipher), s') =>
          .next { s' with reader := { s'.reader with buffer := [], hasHandshaked := true
                                                     state := .chunks (.readData length) cipher } }
  | .chunks state cipher => (chunkRound rules cap (s.toRx state cipher)).map s.ofRx

def readPot (s : ReaderIo M) : Nat :=
  match s.reader.state with
  | .readHeader _ => 3 * sockWeight s.sock + 2
  | .chunks state cipher => chunkPot (s.toRx state cipher)

def pollReadDecrypted (s : ReaderIo M) :
    Poll ProtocolError Bytes × ReaderIo M :=
  loopUntil (readRound now timestamp cap) readPot .pending s

def DecryptedReader.currentDataChunkRemaining (r : DecryptedReader M) : UInt64 × Nat :=
  match r.state with
  | .chunks (.bufferedData pos) _ => (r.dataChunkCount, r.buffer.length - pos)
  | _ => (r.dataChunkCount, 0)

def DecryptedReader.receivedRequestSalt (r : DecryptedReader M) : Option Bytes :=
  r.requestSalt.filter fun n => n ≠ []

/-! ## 3. The writer -/

structure EncryptedWriter (M : Method) where
  streamTy : StreamType
  tx : Tx M.aead Unit
  salt : Bytes
  requestSalt : Option Bytes

def EncryptedWriter.withIdentity (M : Method) (streamTy : StreamType) (key nonce : Bytes)
    (identityKeys : List Bytes) (sock : WriteSock) : EncryptedWriter M where
  streamTy := streamTy
  tx :=
    { cipher := M.newCipher key nonce
      buffer := nonce ++ M.eihBytes streamTy nonce key identityKeys
      state := .assembleHeader ()
      sock := sock }
  salt := nonce
  requestSalt := none

def EncryptedWriter.setRequestSalt (w : EncryptedWriter M) (requestSalt : Bytes) : EncryptedWriter M :=
  { w with requestSalt := some requestSalt }

def EncryptedWriter.resetCipherWithKey (w : EncryptedWriter M) (key : Bytes) : EncryptedWriter M :=
  { w with tx.cipher := M.newCipher key w.salt }

def sentStreamTy : StreamType → UInt8
  | .client => 0
  | .server => 1

def headerChunk (streamTy : StreamType) (timestamp : UInt64) (requestSalt : Option Bytes)
    (buf : Bytes) : Bytes :=
  [sentStreamTy streamTy] ++ put64 timestamp ++ requestSalt.getD [] ++ put16 (UInt16.ofNat buf.length)

def pollWriteEncrypted (timestamp : UInt64) (buf : Bytes) (w : EncryptedWriter M) :
    Poll IoError Nat × EncryptedWriter M :=
  match pollWriteChunks maxPacketSize
      (fun () buf => headerChunk w.streamTy timestamp w.requestSalt buf) buf w.tx with
  | (r, tx) => (r, { w with tx := tx })

/-! ## 4. The loop ends -/

theorem headerLen_pos (r : DecryptedReader M) : 0 < r.headerLen := by
  unfold DecryptedReader.headerLen
  omega

theorem checkHeader_sock (now : Nat) (timestamp : UInt64) (salt p : Bytes) (s : ReaderIo M) :
    (checkHeader now timestamp salt p s).2.sock = s.sock := by
  unfold checkHeader
  simp only
  split
  · rfl
  split
  · rfl
  · split
    · rfl
    · split <;> rfl

theorem acceptHeader_sock (now : Nat) (timestamp : UInt64) (key header : Bytes) (s : ReaderIo M) :
    (acceptHeader now timestamp key header s).2.sock = s.sock := by
  unfold acceptHeader
  simp only
  split
  · rfl
  · split
    · rfl
    · split <;> rename_i he <;> exact congrArg (fun x => x.2.sock) he ▸ checkHeader_sock _ _ _ _ _

theorem readRound_pot (s s' : ReaderIo M)
    (h : readRound now timestamp cap s = .next s') : readPot s' < readPot s := by
  unfold readRound at h
  cases hs : s.reader.state with
  | readHeader key =>
    have hstep := pollRead_step (headerLen_pos s.reader) s.sock
    simp only [hs] at h
    rcases hr : pollRead s.reader.headerLen s.sock with ⟨x, sock⟩
    rw [hr] at h hstep
    cases hstep with
    | pending | error | eof => cases h
    | data b bs _ hlen hb hw ho =>
      simp only [if_neg (cons_ne_nil b bs)] at h
      split at h
      · cases h
      have hsock := acceptHeader_sock now timestamp key (b :: bs) { s with sock := sock }
      split at h
      · cases h
      rename_i length cipher s'' he
      cases h
      rw [he] at hsock
      simp only [readPot, hs, ReaderIo.toRx, chunkPot_readData]
      simp only at hsock
      rw [hsock]
      omega
  | chunks state cipher =>
    simp only [hs] at h
    cases hr : chunkRound rules cap (s.toRx state cipher) with
    | ret r t => rw [hr] at h; cases h
    | next t =>
      rw [hr] at h
      cases h
      have := chunkRound_pot cap _ t hr
      simp only [readPot, hs]
      exact this

/-! ## 5. Headers that are accepted -/

def InTime (timestamp sent : UInt64) : Prop := ¬ serverStreamTimestampMaxDiff < absDiff timestamp sent

instance (timestamp sent : UInt64) : Decidable (InTime timestamp sent) :=
  inferInstanceAs (Decidable (¬ _))

section

variable {streamTy : StreamType} {timestamp : UInt64} {requestSalt : Option Bytes} {buf tail : Bytes}

theorem headerChunk_length : (headerChunk streamTy timestamp requestSalt buf).length =
      1 + 8 + (requestSalt.getD []).length + 2 := by
  simp only [headerChunk, length_append, length_singleton, put64_length, put16_length]

theorem headerChunk_type : UInt8.ofNat (beNat ((headerChunk streamTy timestamp requestSalt buf ++ tail).take 1)) =
      sentStreamTy streamTy := beNat_singleton _

theorem headerChunk_timestamp :
    get64 (((headerChunk streamTy timestamp requestSalt buf ++ tail).drop 1).take 8) = timestamp := by
  have h : (headerChunk streamTy timestamp requestSalt buf ++ tail).drop 1 =
      put64 timestamp ++ (requestSalt.getD [] ++ put16 (UInt16.ofNat buf.length) ++ tail) := by
    simp [headerChunk]
  rw [h, take_left' (put64_length _), get64_put64]

theorem headerChunk_rest : (headerChunk streamTy timestamp requestSalt buf ++ tail).drop 9 =
      requestSalt.getD [] ++ (put16 (UInt16.ofNat buf.length) ++ tail) := by
  have h : headerChunk streamTy timestamp requestSalt buf ++ tail = ([sentStreamTy streamTy] ++ put64 timestamp) ++
        (requestSalt.getD [] ++ (put16 (UInt16.ofNat buf.length) ++ tail)) := by
    simp [headerChunk]
  rw [h, drop_left' (by simp)]

theorem headerChunk_size (streamTy : StreamType) (timestamp : UInt64) (requestSalt : Option Bytes)
    {buf : Bytes} (tail : Bytes) {n : Nat} (hn : (requestSalt.getD []).length = n) (hbuf : buf.length < 65536) :
    (get16 ((((headerChunk streamTy timestamp requestSalt buf ++ tail).drop 9).drop n).take 2)).toNat =
      buf.length := by
  rw [headerChunk_rest, drop_left' hn, take_left' (put16_length _), put16_ofNat hbuf]

end

variable {s : ReaderIo M} {timestamp : UInt64} {now : Nat} {sent : UInt64}

theorem checkHeader_request {salt buf tail : Bytes} (hty : s.reader.streamTy = .server)
    (htime : InTime timestamp sent) (hbuf : buf.length < 65536) (hadm : s.context.Admits .aead2022 now salt) :
    checkHeader now timestamp salt (headerChunk .client sent none buf ++ tail) s =
      (.ok buf.length, { s with reader.salt := some salt
                                context := (s.context.checkNonceReplay .aead2022 now salt).2 }) := by
  have hsize := headerChunk_size .client sent none (n := 0) tail rfl hbuf
  have hnone : (s.context.checkNonceReplay .aead2022 now salt).1 = none := hadm
  unfold checkHeader
  simp only [headerChunk_type, headerChunk_timestamp, hty, sentStreamTy, expectedStreamTy, requestSaltLen, hsize]
  rw [if_neg (not_not_intro rfl), if_neg htime]
  rcases hc : s.context.checkNonceReplay .aead2022 now salt with ⟨e, context⟩
  rw [hc] at hnone
  subst hnone
  rfl

theorem checkHeader_response {salt requestSalt buf tail : Bytes} (hty : s.reader.streamTy = .client)
    (htime : InTime timestamp sent) (hbuf : buf.length < 65536) (hreq : requestSalt.length = M.kind.saltLen) :
    checkHeader now timestamp salt (headerChunk .server sent (some requestSalt) buf ++ tail) s =
      (.ok buf.length, { s with reader.requestSalt := some requestSalt
                                reader.salt := some salt }) := by
  have hsize := headerChunk_size .server sent (some requestSalt) tail hreq hbuf
  unfold checkHeader
  simp only [headerChunk_type, headerChunk_timestamp, hty, sentStreamTy, expectedStreamTy, requestSaltLen, hsize]
  rw [if_neg (not_not_intro rfl), if_neg htime, headerChunk_rest]
  simp only [Option.getD_some, take_left' hreq]

variable {r : DecryptedReader M}

theorem chooseCipher_user (hinv : M.prim.Inverts) {key salt userKey chunk : Bytes} {users : ServerUserManager}
    {user : ServerUser} (husers : r.identityUsers = some users)
    (huser : users.getUserByHash (M.prim.identityHash userKey) = some user) :
    chooseCipher key salt (M.makeEih (M.eihKey key salt) userKey ++ chunk) r =
      (.ok (M.newCipher user.key salt, chunk), { r with userKey := some user.key }) := by
  have hlen : (M.makeEih (M.eihKey key salt) userKey).length = 16 :=
    M.prim.aesEncrypt_length _ _ (M.prim.identityHash_length _)
  have hhash : M.prim.aesDecrypt (M.eihKey key salt) (M.makeEih (M.eihKey key salt) userKey) =
      M.prim.identityHash userKey := hinv _ _ (M.prim.identityHash_length _)
  unfold chooseCipher
  simp only [husers, length_append, hlen, take_left' hlen, drop_left' hlen, hhash, huser]
  rw [if_neg (by omega)]

theorem acceptHeader_ok (hinv : M.aead.Inverts) {key userKey salt eih p : Bytes} {n : Nat} {s' : ReaderIo M}
    (hsalt : salt.length = M.kind.saltLen)
    (hchoose : chooseCipher key salt (eih ++ M.aead.encrypt (M.subkey userKey salt) 0 p) s.reader =
      (.ok (M.newCipher userKey salt, M.aead.encrypt (M.subkey userKey salt) 0 p), r))
    (hcheck : ∀ tail, checkHeader now timestamp salt (p ++ tail) { s with reader := r } = (.ok n, s')) :
    acceptHeader now timestamp key
        (salt ++ (eih ++ M.aead.encrypt (M.subkey userKey salt) 0 p)) s =
      (.ok (n, ⟨M.subkey userKey salt, 1⟩), s') := by
  have hopen := Cipher.decryptPacket_some (c := M.newCipher userKey salt)
    (hinv (M.subkey userKey salt) 0 p)
  unfold acceptHeader
  simp only [take_left' hsalt, drop_left' hsalt, hchoose]
  rw [hopen]
  simp only [hcheck]
  rfl

/-! ## 6. The reader in step -/

structure ReadEnv where
  now : Nat
  timestamp : UInt64
  context : Context

def pollIn (env : ReadEnv) (cap : Nat) (s : ReaderIo M) : Poll ProtocolError Bytes × ReaderIo M :=
  pollReadDecrypted env.now env.timestamp cap { s with context := env.context }

def Awaiting (r : DecryptedReader M) : Prop := ∃ key, r.state = .readHeader key

def readMeasure (s : ReaderIo M) : Nat :=
  match s.reader.state with
  | .readHeader _ => sockWeight s.sock
  | .chunks state cipher => chunkMeasure (s.toRx state cipher)

/-- **A session**: what a sender puts on the wire, and that the reader `before` takes its header and
becomes `after`. -/
structure Session (M : Method) (ok : ReadEnv → Prop) where
  key : Bytes
  (before after : DecryptedReader M)
  header : Bytes
  sub : M.aead.Sub
  first : Bytes
  rest : List Bytes
  awaits : before.state = .readHeader key
  header_length : header.length = before.headerLen
  opens : ∀ env, ok env → ∀ sock, ∃ context,
    acceptHeader env.now env.timestamp key header ⟨before, sock, env.context⟩ =
      (.ok (first.length, ⟨sub, 1⟩), ⟨after, sock, context⟩)
  uncounted : after.dataChunkCount = 0
  fits : ∀ c ∈ first :: rest, c.length ≤ maxPacketSize

variable {ok : ReadEnv → Prop}

def Session.wire (S : Session M ok) : Bytes :=
  S.header ++ (M.aead.encrypt S.sub 1 S.first ++ chunkWire M.aead S.sub 2 S.rest)

def Session.payload (S : Session M ok) : Bytes := S.first ++ S.rest.flatten

def Session.Opened (S : Session M ok) (r : DecryptedReader M) : Prop :=
  r = { S.after with state := r.state, buffer := r.buffer, dataChunkCount := r.dataChunkCount
                     hasHandshaked := true }

def Counted (total n : Nat) (count : UInt64) : Prop :=
  count + UInt64.ofNat n = UInt64.ofNat total

/-- **The reader is in step** with a session, with `X` still to deliver. -/
inductive ReaderInStep (S : Session M ok) : ReaderIo M → Bytes → Prop where
  | header {sock context} (hw : sockBytes sock = S.wire) (hwhole : WholeFirst S.header.length sock)
      (ho : Orderly sock) : ReaderInStep S ⟨S.before, sock, context⟩ S.payload
  | chunks {s state cipher X} (hs : s.reader.state = .chunks state cipher) (hopen : S.Opened s.reader)
      (h : InStep S.sub (S.first :: S.rest) (Counted (S.rest.length + 1)) (s.toRx state cipher) X) :
      ReaderInStep S s X

def Ready (S : Session M ok) (env : ReadEnv) (s : ReaderIo M) (X : Bytes) : Prop :=
  ReaderInStep S s X ∧ (Awaiting s.reader → ok env ∧ s.context = env.context)

theorem onData_counted (total n : Nat) (count : UInt64) (h : Counted total (n + 1) count) :
    (rules.onData count).1 = none ∧ Counted total n (rules.onData count).2 := by
  refine ⟨rfl, ?_⟩
  show count + 1 + UInt64.ofNat n = UInt64.ofNat total
  rw [← h, UInt64.ofNat_add, UInt64.add_assoc, UInt64.add_comm 1]
  rfl

theorem not_awaiting_chunks {state : ChunkState} {cipher : Cipher M.aead} (h : r.state = .chunks state cipher) :
    ¬ Awaiting r := by
  rintro ⟨key, hkey⟩
  rw [h] at hkey
  cases hkey

section

variable {S : Session M ok} {env : ReadEnv} {cap : Nat} {X : Bytes}

theorem readRound_header (henv : ok env) {sock : ReadSock} (hw : sockBytes sock = S.wire)
    (hwhole : WholeFirst S.header.length sock) (ho : Orderly sock) :
    RoundStep (Ready S env) readMeasure ⟨S.before, sock, env.context⟩ S.payload
      (readRound env.now env.timestamp cap ⟨S.before, sock, env.context⟩) := by
  have hlen := S.header_length
  have hpos := headerLen_pos S.before
  rcases pollRead_whole (hlen ▸ hpos) ho hwhole hw rfl with
    ⟨sock', he, hb, hwhole', ho', hlt⟩ | ⟨sock', he, hb, ho', hle⟩
  · rw [hlen] at he
    simp only [readRound, S.awaits, he]
    refine .ret _ _ (.pending _ ⟨.header hb hwhole' ho', fun _ => ⟨henv, rfl⟩⟩ ?_)
    simp only [readMeasure, S.awaits]
    exact hlt
  obtain ⟨context, hopen⟩ := S.opens env henv sock'
  have hne : S.header ≠ [] := ne_nil_of_length_pos (hlen ▸ hpos)
  rw [hlen] at he hle
  simp only [readRound, S.awaits, he]
  rw [if_neg hne, if_neg (not_not_intro hlen), hopen]
  refine .next _ ⟨.chunks rfl rfl (.readData S.first S.rest hb zero_le suffix_rfl ?_ ho'),
    fun h => absurd h (not_awaiting_chunks rfl)⟩ ?_
  · show S.after.dataChunkCount + UInt64.ofNat (S.rest.length + 1) = _
    rw [S.uncounted, UInt64.zero_add]
  · simp only [readMeasure, S.awaits, chunkMeasure, ReaderIo.toRx, length_nil]
    omega

theorem readRound_inStep (hinv : M.aead.Inverts) (hcap : 0 < cap) (h : Ready S env s X) :
    RoundStep (Ready S env) readMeasure s X (readRound env.now env.timestamp cap s) := by
  obtain ⟨hin, hready⟩ := h
  cases hin with
  | @header sock context hw hwhole ho =>
    obtain ⟨henv, rfl⟩ := hready ⟨_, S.awaits⟩
    exact readRound_header henv hw hwhole ho
  | @chunks _ state cipher _ hs hopen h =>
    have hfits : ∀ c ∈ S.first :: S.rest, Fits rules c :=
      fun c hc => ⟨Nat.lt_succ_of_le (S.fits c hc), rfl⟩
    have hround := (chunkRound_inStep hinv hfits (onData_counted _) hcap h).map
      (J := Ready S env) (ν := readMeasure) s.ofRx
      (fun r Y hr => ⟨.chunks rfl (by rw [Session.Opened, ReaderIo.ofRx, hopen]) hr,
        fun ha => absurd ha (not_awaiting_chunks rfl)⟩) (fun r => rfl)
    have hself : s.ofRx (s.toRx state cipher) = s := by
      obtain ⟨⟨_, st, _, _, _, _, _, _, _⟩, _, _⟩ := s
      subst hs
      rfl
    rw [hself] at hround
    simp only [readRound, hs]
    exact hround

theorem ReaderInStep.with_context (h : ReaderInStep S s X) (context : Context) :
    ReaderInStep S { s with context := context } X := by
  cases h with
  | header hw hwhole ho => exact .header hw hwhole ho
  | chunks hs hopen h => exact .chunks hs hopen h

theorem pollIn_serves (hinv : M.aead.Inverts) (S : Session M ok) :
    Serves pollIn (fun env s => Awaiting s.reader → ok env) (ReaderInStep S) readMeasure := by
  intro s X env cap h henv hcap
  have hready : Ready S env { s with context := env.context } X :=
    ⟨h.with_context env.context, fun ha => ⟨henv ha, rfl⟩⟩
  have hstep : PollStep (Ready S env) readMeasure _ X (pollIn env cap s) :=
    pollStep_of_rounds (readRound_pot env.now env.timestamp cap)
      (fun t ht => readRound_inStep hinv hcap ht) hready
  have hmap := hstep.map (J := ReaderInStep S) (ν := readMeasure) id (fun t Y ht => ht.1) (fun _ => rfl)
  exact .of_le (t := { s with context := env.context }) (Nat.le_refl (readMeasure s)) hmap

theorem ReaderInStep.opened (h : ReaderInStep S s X) (hlt : X.length < S.payload.length) :
    S.Opened s.reader ∧ ¬ Awaiting s.reader := by
  cases h with
  | header => exact absurd hlt (lt_irrefl _)
  | chunks hs hopen h => exact ⟨hopen, not_awaiting_chunks hs⟩

theorem ReaderInStep.firstChunk (h : ReaderInStep S s X) (hlo : S.rest.flatten.length < X.length)
    (hhi : X.length < S.payload.length) :
    s.reader.currentDataChunkRemaining = (1, X.length - S.rest.flatten.length) := by
  cases h with
  | header => exact absurd hhi (lt_irrefl _)
  | @chunks _ state cipher _ hs hopen h =>
    rw [Session.payload, length_append] at hhi
    obtain ⟨pos, hpos, hrem, hcount⟩ := h.first hlo hhi
    have hone : s.reader.dataChunkCount = 1 := by
      have hcount : s.reader.dataChunkCount + UInt64.ofNat S.rest.length = UInt64.ofNat (S.rest.length + 1) := hcount
      rw [UInt64.ofNat_add, UInt64.add_comm (UInt64.ofNat S.rest.length)] at hcount
      exact (UInt64.add_left_inj _).mp hcount
    subst hpos
    rw [DecryptedReader.currentDataChunkRemaining, hs]
    exact Prod.ext hone hrem

theorem ReaderInStep.onlyChunk (h : ReaderInStep S s []) (hne : S.first ≠ []) (hrest : S.rest = []) :
    s.reader.currentDataChunkRemaining = (1, 0) := by
  generalize hX : ([] : Bytes) = X at h
  cases h with
  | header =>
    exact absurd (append_eq_nil_iff.mp hX.symm).1 hne
  | @chunks _ state cipher _ hs hopen h =>
    subst hX
    rw [hrest] at h
    obtain ⟨hrem, hcount⟩ := h.finished hne
    have hone : s.reader.dataChunkCount = 1 := by
      have hcount : s.reader.dataChunkCount + 0 = 1 := hcount
      rwa [UInt64.add_zero] at hcount
    rw [DecryptedReader.currentDataChunkRemaining, hs]
    cases state with
    | bufferedData pos => exact Prod.ext hone (hrem pos rfl)
    | readLength | readData n => exact Prod.ext hone rfl

end

structure Silent (s : ReaderIo M) (X : Bytes) : Prop where
  awaiting : Awaiting s.reader
  uncounted : s.reader.dataChunkCount = 0
  noBytes : sockBytes s.sock = []
  orderly : Orderly s.sock
  nothing : X = []

variable {cap : Nat}

theorem readRound_silent {X : Bytes} (h : Silent s X) :
    RoundStep Silent readMeasure s X (readRound now timestamp cap s) := by
  obtain ⟨⟨key, hs⟩, hcount, hw, ho, rfl⟩ := h
  have hstep := pollRead_step (headerLen_pos s.reader) s.sock
  rcases hr : pollRead s.reader.headerLen s.sock with ⟨r, sock'⟩
  rw [hr] at hstep
  simp only [readRound, hs, hr]
  cases hstep with
  | pending _ hb hlt ho' =>
    refine .ret _ _ (.pending _ ⟨⟨key, hs⟩, hcount, hb ▸ hw, ho' ho, rfl⟩ ?_)
    simp only [readMeasure, hs]
    exact hlt
  | error _ _ _ _ hf => exact absurd ho hf
  | eof _ hb _ ho' =>
    have hnil := (ho' ho).2
    subst hnil
    exact .ret _ _ (.eof _ rfl ⟨⟨key, hs⟩, hcount, rfl, orderly_nil, rfl⟩)
  | data b bs _ _ hb => rw [hb] at hw; cases hw

theorem pollIn_silent : Serves (pollIn (M := M)) (fun _ _ => True) Silent readMeasure := by
  intro s X env cap h _ _
  have hsilent : Silent { s with context := env.context } X :=
    ⟨h.awaiting, h.uncounted, h.noBytes, h.orderly, h.nothing⟩
  have hstep : PollStep Silent readMeasure _ X (pollIn env cap s) :=
    pollStep_of_rounds (readRound_pot env.now env.timestamp cap) (fun t ht => readRound_silent ht)
      hsilent
  exact .of_le (t := { s with context := env.context }) (Nat.le_refl (readMeasure s)) hstep

theorem readRound_bounded {s' : ReaderIo M} {bs : Bytes} (h : readRound now timestamp cap s = .ret (.ready bs) s') :
    bs.length ≤ cap := by
  unfold readRound at h
  cases hs : s.reader.state with
  | readHeader key =>
    simp only [hs] at h
    split at h
    · cases h
    · cases h
    split at h
    · cases h
      exact zero_le
    · split at h
      · cases h
      · split at h <;> cases h
  | chunks state cipher =>
    simp only [hs] at h
    cases hr : chunkRound rules cap (s.toRx state cipher) with
    | next t => rw [hr] at h; cases h
    | ret r t =>
      rw [hr] at h
      cases h
      exact chunkRound_bounded hr

theorem pollIn_bounded : Bounded (pollIn (M := M)) := fun env cap _ _ _ h =>
  loopUntil_bounded (readRound_pot env.now env.timestamp cap) (fun _ _ _ hr => readRound_bounded hr) h

/-! ## 7. What a poll leaves alone -/

def Anonymous (r : DecryptedReader M) : Prop := r.streamTy = .client ∧ r.userKey = none

theorem checkHeader_reader (now : Nat) (timestamp : UInt64) (salt p : Bytes) (s : ReaderIo M) :
    ∃ a b, (checkHeader now timestamp salt p s).2.reader = { s.reader with salt := a, requestSalt := b } := by
  unfold checkHeader
  simp only
  split
  · exact ⟨_, _, rfl⟩
  split
  · exact ⟨_, _, rfl⟩
  · split
    · exact ⟨_, _, rfl⟩
    · split <;> exact ⟨_, _, rfl⟩

theorem acceptHeader_anonymous (now : Nat) (timestamp : UInt64) (key header : Bytes) (h : Anonymous s.reader) :
    Anonymous (acceptHeader now timestamp key header s).2.reader := by
  have husers : s.reader.identityUsers = none := by
    rw [DecryptedReader.identityUsers, if_neg]
    rw [h.1]
    exact fun hc => nomatch hc.1
  unfold acceptHeader
  simp only [chooseCipher, husers]
  split
  · exact h
  · rename_i p _ _
    obtain ⟨a, b, hr⟩ := checkHeader_reader now timestamp (header.take M.kind.saltLen) p s
    split <;> rename_i he <;> rw [he] at hr <;> simp only at hr ⊢ <;> rw [hr] <;> exact h

theorem readRound_anonymous (s : ReaderIo M) (h : Anonymous s.reader) :
    Anonymous (readRound now timestamp cap s).state.reader := by
  unfold readRound
  cases hs : s.reader.state with
  | chunks state cipher =>
    simp only
    cases chunkRound rules cap (s.toRx state cipher) <;> exact h
  | readHeader key =>
    simp only
    split
    · exact h
    · exact h
    rename_i header sock _
    split
    · exact h
    · split
      · exact h
      · have ha := acceptHeader_anonymous now timestamp key header (s := { s with sock := sock }) h
        split <;> rename_i he <;> rw [he] at ha <;> exact ha

theorem pollIn_anonymous (env : ReadEnv) (cap : Nat) (h : Anonymous s.reader) :
    Anonymous (pollIn env cap s).2.reader :=
  loopUntil_keeps (P := fun t => Anonymous t.reader) (readRound_pot env.now env.timestamp cap)
    readRound_anonymous h

variable {S : Session M ok}

theorem readRound_opened (s : ReaderIo M) (h : S.Opened s.reader ∧ ¬ Awaiting s.reader) :
    S.Opened (readRound now timestamp cap s).state.reader ∧
      ¬ Awaiting (readRound now timestamp cap s).state.reader := by
  unfold readRound
  cases hs : s.reader.state with
  | readHeader key => exact absurd ⟨key, hs⟩ h.2
  | chunks state cipher =>
    simp only
    cases chunkRound rules cap (s.toRx state cipher) <;>
      exact ⟨by rw [Session.Opened, Ctl.map, Ctl.state, ReaderIo.ofRx, h.1], not_awaiting_chunks rfl⟩

theorem pollIn_opened (env : ReadEnv) (cap : Nat) (h : S.Opened s.reader ∧ ¬ Awaiting s.reader) :
    S.Opened (pollIn env cap s).2.reader ∧ ¬ Awaiting (pollIn env cap s).2.reader :=
  loopUntil_keeps (P := fun t => S.Opened t.reader ∧ ¬ Awaiting t.reader)
    (readRound_pot env.now env.timestamp cap) readRound_opened h

theorem pollIn_serves_opened (hinv : M.aead.Inverts) (S : Session M ok) : Serves pollIn (fun _ _ => True)
      (fun s X => ReaderInStep S s X ∧ S.Opened s.reader ∧ ¬ Awaiting s.reader) readMeasure := by
  rintro s X env cap ⟨h, hopen⟩ _ hcap
  have hstep := pollIn_serves hinv S s X env cap h (fun ha => absurd ha hopen.2) hcap
  exact hstep.transfer id (by cases (pollIn env cap s).1 <;> rfl)
    (fun Y hY => ⟨hY, pollIn_opened env cap hopen⟩) rfl rfl

/-! ## 8. The sessions of a request and of its response -/

/-- **How client and server may be configured**: with one key, or behind an identity key. Last the key to select. -/
inductive Agree (M : Method) (clientKey : Bytes) :
    (identityKeys : List Bytes) → (serverKey : Bytes) → Option ServerUserManager → Option Bytes → Prop where
  | plain : Agree M clientKey [] clientKey none none
  | user (ipsk : Bytes) (users : ServerUserManager) (user : ServerUser)
      (heih : methodSupportEih M.kind = true)
      (hfind : users.getUserByHash (M.prim.identityHash clientKey) = some user)
      (hkey : user.key = clientKey) :
      Agree M clientKey [ipsk] ipsk (some users) (some clientKey)

variable {clientKey serverKey salt : Bytes} {identityKeys : List Bytes}
  {users : Option ServerUserManager} {userKey : Option Bytes}

theorem Agree.eih_length (h : Agree M clientKey identityKeys serverKey users userKey) :
    (M.eihBytes .client salt clientKey identityKeys).length =
      if (DecryptedReader.withUserManager M .server serverKey users).identityUsers.isSome then 16
      else 0 := by
  cases h with
  | plain =>
    simp [Method.eihBytes, Method.identityHeaders, DecryptedReader.identityUsers, DecryptedReader.withUserManager]
  | user ipsk users user heih hfind hkey =>
    simp [Method.eihBytes, Method.identityHeaders, DecryptedReader.identityUsers,
      DecryptedReader.withUserManager, heih, Method.makeEih,
      M.prim.aesEncrypt_length _ _ (M.prim.identityHash_length _)]

theorem Agree.chooseCipher_ok (hinv : M.prim.Inverts)
    (h : Agree M clientKey identityKeys serverKey users userKey) (chunk : Bytes) :
    chooseCipher serverKey salt (M.eihBytes .client salt clientKey identityKeys ++ chunk)
        (DecryptedReader.withUserManager M .server serverKey users) =
      (.ok (M.newCipher clientKey salt, chunk),
        { DecryptedReader.withUserManager M .server serverKey users with userKey := userKey }) := by
  cases h with
  | plain =>
    simp [Method.eihBytes, Method.identityHeaders, chooseCipher, DecryptedReader.identityUsers,
      DecryptedReader.withUserManager]
  | user _ users user heih hfind hkey =>
    have husers : (DecryptedReader.withUserManager M .server serverKey (some users)).identityUsers =
        some users := by simp [DecryptedReader.identityUsers, DecryptedReader.withUserManager, heih]
    have heih : M.eihBytes .client salt clientKey [serverKey] = M.makeEih (M.eihKey serverKey salt) clientKey := by
      simp [Method.eihBytes, heih, Method.identityHeaders]
    rw [heih, chooseCipher_user hinv husers hfind, hkey]

def requestSession (hinv : M.Inverts) (h : Agree M clientKey identityKeys serverKey users userKey)
    (hsalt : salt.length = M.kind.saltLen) (sent : UInt64) (first : Bytes) (rest : List Bytes)
    (hfits : ∀ c ∈ first :: rest, c.length ≤ maxPacketSize) :
    Session M fun env => InTime env.timestamp sent ∧ env.context.Admits .aead2022 env.now salt where
  key := serverKey
  before := .withUserManager M .server serverKey users
  after := { DecryptedReader.withUserManager M .server serverKey users with
    salt := some salt, userKey := userKey }
  header := salt ++ (M.eihBytes .client salt clientKey identityKeys ++
    M.aead.encrypt (M.subkey clientKey salt) 0 (headerChunk .client sent none first))
  sub := M.subkey clientKey salt
  first := first
  rest := rest
  awaits := rfl
  header_length := by
    rw [length_append, length_append, hsalt, h.eih_length, M.aead.encrypt_length,
      headerChunk_length, DecryptedReader.headerLen]
    simp only [Option.getD_none, length_nil, DecryptedReader.withUserManager, requestSaltLen]
    omega
  opens env henv sock := ⟨_, acceptHeader_ok hinv.aead hsalt (h.chooseCipher_ok hinv.prim _) fun _ =>
    checkHeader_request rfl henv.1 (Nat.lt_succ_of_le (hfits first mem_cons_self)) henv.2⟩
  uncounted := rfl
  fits := hfits

def responseSession (hinv : M.Inverts) (clientKey : Bytes) {salt requestSalt : Bytes}
    (hsalt : salt.length = M.kind.saltLen) (hreq : requestSalt.length = M.kind.saltLen)
    (sent : UInt64) (first : Bytes) (rest : List Bytes)
    (hfits : ∀ c ∈ first :: rest, c.length ≤ maxPacketSize) :
    Session M fun env => InTime env.timestamp sent where
  key := clientKey
  before := .withUserManager M .client clientKey none
  after := { DecryptedReader.withUserManager M .client clientKey none with
    salt := some salt, requestSalt := some requestSalt }
  header := salt ++ ([] ++
    M.aead.encrypt (M.subkey clientKey salt) 0 (headerChunk .server sent (some requestSalt) first))
  sub := M.subkey clientKey salt
  first := first
  rest := rest
  awaits := rfl
  header_length := by
    rw [length_append, nil_append, hsalt, M.aead.encrypt_length, headerChunk_length, DecryptedReader.headerLen]
    simp only [Option.getD_some, hreq, DecryptedReader.withUserManager, requestSaltLen, DecryptedReader.identityUsers]
    simp
    omega
  opens env henv sock := ⟨env.context, acceptHeader_ok hinv.aead hsalt rfl fun _ =>
    checkHeader_response rfl henv (Nat.lt_succ_of_le (hfits first mem_cons_self)) hreq⟩
  uncounted := rfl
  fits := hfits

end Shadowsocks.Tcp.V2
