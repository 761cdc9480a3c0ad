/-
  Subject:   THE RESPONSE OF A SERVER (`ProxyServerStream::poll_write`, `CryptoStream`) under every order of read
  and write polls. The client's salt is there once the header was taken; a user's key reaches the writer with the
  first read that is `Ready`.
-/
import Shadowsocks.Tcp.HeaderReplay
import Shadowsocks.Tcp.Integrity
import Shadowsocks.Tcp.RequestHeader

namespace Shadowsocks.Tcp.V2

open Lib List

variable {M : Method}

/-! ## 1. The reader, before and past the header -/

def identifiedUser (M : Method) (key header : Bytes) (users : ServerUserManager) : Option ServerUser :=
  users.getUserByHash (M.prim.aesDecrypt (M.eihKey key (header.take M.kind.saltLen))
    ((header.drop M.kind.saltLen).take 16))

abbrev newReader (M : Method) (key : Bytes) (users : Option ServerUserManager) : DecryptedReader M :=
  .withUserManager M .server key users

def identifiedKey (M : Method) (key : Bytes) (users : Option ServerUserManager) (header : Bytes) :
    Option Bytes :=
  (newReader M key users).identityUsers.bind fun table => (identifiedUser M key header table).map ServerUser.key

section

variable {key : Bytes} {users : Option ServerUserManager}

structure Awaits (key : Bytes) (users : Option ServerUserManager) (r : DecryptedReader M) : Prop where
  state : r.state = .readHeader key
  streamTy : r.streamTy = .server
  table : r.userManager = users
  salt : r.salt = none
  unopened : r.hasHandshaked = false
  anonymous : r.identityUsers = none → r.userKey = none

structure Took (key : Bytes) (users : Option ServerUserManager) (header : Bytes) (r : DecryptedReader M) :
    Prop where
  past : ¬ Awaiting r
  valid : ∃ timestamp, headerValid timestamp key header (newReader M key users) = true
  salt : r.salt = some (header.take M.kind.saltLen)
  userKey : r.userKey = identifiedKey M key users header
  done : r.hasHandshaked = true

theorem awaits_new (M : Method) (key : Bytes) (users : Option ServerUserManager) :
    Awaits key users (newReader M key users) :=
  ⟨rfl, rfl, rfl, rfl, rfl, fun _ => rfl⟩

variable {r : DecryptedReader M}

theorem Awaits.identityUsers (h : Awaits key users r) : r.identityUsers = (newReader M key users).identityUsers := by
  rw [DecryptedReader.identityUsers, h.streamTy, h.table]
  rfl

theorem chooseCipher_awaits (h : Awaits key users r) (salt chunk : Bytes) :
    Awaits key users (chooseCipher key salt chunk r).2 ∧
      (chooseCipher key salt chunk r).1 = (chooseCipher key salt chunk (newReader M key users)).1 := by
  have htable := h.identityUsers
  unfold chooseCipher
  rw [htable]
  cases hu : (newReader M key users).identityUsers with
  | none => exact ⟨h, rfl⟩
  | some table =>
    dsimp only
    by_cases hlen : chunk.length < 16
    · rw [if_pos hlen, if_pos hlen]
      exact ⟨h, rfl⟩
    rw [if_neg hlen, if_neg hlen]
    cases table.getUserByHash (M.prim.aesDecrypt (M.eihKey key salt) (chunk.take 16)) with
    | none => exact ⟨h, rfl⟩
    | some user =>
      refine ⟨⟨h.state, h.streamTy, h.table, h.salt, h.unopened, fun hnone => ?_⟩, rfl⟩
      have hnone : r.identityUsers = none := hnone
      rw [htable, hu] at hnone
      cases hnone

variable {header : Bytes}

theorem chooseCipher_userKey (h : Awaits key users r) {x : Cipher M.aead × Bytes} {r' : DecryptedReader M}
    (hc : chooseCipher key (header.take M.kind.saltLen) (header.drop M.kind.saltLen) r = (.ok x, r')) :
    r'.userKey = identifiedKey M key users header := by
  have htable := h.identityUsers
  unfold chooseCipher at hc
  unfold identifiedKey identifiedUser
  rw [htable] at hc
  cases hu : (newReader M key users).identityUsers with
  | none =>
    rw [hu] at hc
    cases hc
    exact h.anonymous (htable.trans hu)
  | some table =>
    rw [hu] at hc
    dsimp only at hc
    split at hc
    · cases hc
    show _ = Option.map ServerUser.key _
    split at hc
    · cases hc
    · rename_i user huser
      cases hc
      rw [huser]
      rfl

variable {timestamp : UInt64} {now : Nat} {s : ReaderIo M} {s' : ReaderIo M}

theorem checkHeader_kept {salt p : Bytes} {res : Except ProtocolError Nat} (hserver : s.reader.streamTy = .server)
    (h : checkHeader now timestamp salt p s = (res, s')) : s'.reader = match res with
      | .ok _ => { s.reader with salt := some salt }
      | .error _ => s.reader := by
  unfold checkHeader at h
  rw [hserver] at h
  dsimp only at h
  split at h
  · cases h
    rfl
  · split at h
    · cases h
      rfl
    · split at h <;> (cases h; rfl)

theorem acceptHeader_refused (h : Awaits key users s.reader) {e : ProtocolError}
    (ha : acceptHeader now timestamp key header s = (.error e, s')) : Awaits key users s'.reader := by
  have hchoose := (chooseCipher_awaits h (header.take M.kind.saltLen) (header.drop M.kind.saltLen)).1
  unfold acceptHeader at ha
  dsimp only at ha
  split at ha
  · rename_i hc
    cases ha
    rwa [hc] at hchoose
  rename_i hc
  rw [hc] at hchoose
  split at ha
  · cases ha
    exact hchoose
  split at ha
  · rename_i hcheck
    cases ha
    rwa [checkHeader_kept hchoose.streamTy hcheck]
  · cases ha

theorem acceptHeader_took (h : Awaits key users s.reader) {x : Nat × Cipher M.aead}
    (ha : acceptHeader now timestamp key header s = (.ok x, s')) :
    headerValid timestamp key header (newReader M key users) = true ∧
      s'.reader.salt = some (header.take M.kind.saltLen) ∧
      s'.reader.userKey = identifiedKey M key users header := by
  obtain ⟨hkeep, hsame⟩ := chooseCipher_awaits h (header.take M.kind.saltLen) (header.drop M.kind.saltLen)
  have hvalid := (acceptHeader_server now timestamp key header h.streamTy).1
  rw [ha] at hvalid
  have hvalid := (Bool.and_eq_true _ _).mp hvalid.symm
  refine ⟨?_, ?_⟩
  · have := hvalid.1
    unfold headerValid at this ⊢
    rwa [hsame] at this
  unfold acceptHeader at ha
  dsimp only at ha
  split at ha
  · cases ha
  rename_i hc
  have huser := chooseCipher_userKey h hc
  rw [hc] at hkeep
  split at ha
  · cases ha
  · split at ha
    · cases ha
    · rename_i hcheck
      cases ha
      rw [checkHeader_kept hkeep.streamTy hcheck]
      exact ⟨rfl, huser⟩

theorem readRound_took {cap : Nat} (s : ReaderIo M) (h : Took key users header s.reader) :
    Took key users header (readRound now timestamp cap s).state.reader := by
  unfold readRound
  cases hs : s.reader.state with
  | readHeader key' => exact absurd ⟨key', hs⟩ h.past
  | chunks state cipher =>
    dsimp only
    cases chunkRound rules cap (s.toRx state cipher) with
    | ret r rx | next rx => exact ⟨not_awaiting_chunks rfl, h.valid, h.salt, h.userKey, h.done⟩

theorem pollReadDecrypted_took {cap : Nat} (h : Took key users header s.reader) :
    Took key users header (pollReadDecrypted now timestamp cap s).2.reader :=
  loopUntil_keeps (P := fun t => Took key users header t.reader) (readRound_pot now timestamp cap)
    readRound_took h

theorem pollIn_took (env : ReadEnv) (cap : Nat) (h : Took key users header s.reader) :
    Took key users header (pollIn env cap s).2.reader :=
  pollReadDecrypted_took h

theorem pollIn_awaits (env : ReadEnv) (cap : Nat) (h : Awaits key users s.reader) :
    Awaits key users (pollIn env cap s).2.reader ∨
      ∃ header, presented s = some (key, header) ∧ Took key users header (pollIn env cap s).2.reader := by
  rw [pollIn, pollReadDecrypted, presented, loopUntil_eq (readRound_pot env.now env.timestamp cap)]
  rw [readRound, h.state]
  rcases pollRead s.reader.headerLen s.sock with ⟨res, sock⟩
  cases res with
  | pending | error e => exact .inl h
  | ready header =>
    dsimp only
    by_cases hlen : header.length = s.reader.headerLen
    · have hne : header ≠ [] := by
        rintro rfl
        exact absurd hlen (headerLen_pos s.reader).ne
      have hmid : Awaits key users ({ s with sock := sock, context := env.context } : ReaderIo M).reader := h
      rw [if_neg hne, if_neg (not_not_intro hlen), if_pos hlen]
      cases ha : acceptHeader env.now env.timestamp key header
          { s with sock := sock, context := env.context } with
      | mk res s' =>
        cases res with
        | error e =>
          have hrefused := acceptHeader_refused hmid ha
          exact .inl hrefused
        | ok x =>
          obtain ⟨hvalid, hsalt, huser⟩ := acceptHeader_took hmid ha
          refine .inr ⟨header, rfl, ?_⟩
          exact pollReadDecrypted_took ⟨not_awaiting_chunks rfl, ⟨_, hvalid⟩, hsalt, huser, rfl⟩
    left
    by_cases hnil : header = []
    · rw [if_pos hnil]
      exact h
    · rw [if_neg hnil, if_pos hlen]
      exact h

end

/-! ## 2. The response -/

def responseWire (M : Method) (k nonce requestSalt : Bytes) (timestamp : UInt64) (first : Bytes)
    (rest : List Bytes) : Bytes :=
  nonce ++ M.aead.encrypt (M.subkey k nonce) 0 (headerChunk .server timestamp (some requestSalt) first) ++
    M.aead.encrypt (M.subkey k nonce) 1 first ++ chunkWire M.aead (M.subkey k nonce) 2 rest

structure Responding (k nonce requestSalt : Bytes) (timestamp : UInt64) (first : Bytes) (rest : List Bytes)
    (w : EncryptedWriter M) : Prop where
  emitted : w.tx.emitted = responseWire M k nonce requestSalt timestamp first rest
  cipher : w.tx.cipher = ⟨M.subkey k nonce, 2 + 2 * rest.length⟩
  started : w.tx.Started

section

variable {k nonce requestSalt : Bytes}

theorem responding_first (events : List WriteEvent) (timestamp : UInt64) (buf : Bytes) :
    Responding k nonce requestSalt timestamp (buf.take maxPacketSize) [] (pollWriteEncrypted timestamp buf
        ((EncryptedWriter.withIdentity M .server k nonce [] ⟨events, []⟩).setRequestSalt requestSalt)).2 := by
  obtain ⟨hemitted, hcipher, hstarted⟩ := pollWriteChunks_emitted maxPacketSize
    (fun () buf => headerChunk .server timestamp (some requestSalt) buf) buf
    (EncryptedWriter.withIdentity M .server k nonce [] ⟨events, []⟩).tx
  refine ⟨hemitted.trans ?_, hcipher, hstarted⟩
  show [] ++ drop 0 (nonce ++ M.eihBytes .server nonce k [] ++ _ ++ _) = _
  rw [Method.eihBytes, if_neg (by simp), append_nil, responseWire, chunkWire, append_nil]
  rfl

theorem Responding.write {timestamp : UInt64} {first : Bytes} {rest : List Bytes} {w : EncryptedWriter M}
    (h : Responding k nonce requestSalt timestamp first rest w) (timestamp' : UInt64) (buf : Bytes) :
    ∃ more, Responding k nonce requestSalt timestamp first (rest ++ more)
      (pollWriteEncrypted timestamp' buf w).2 := by
  obtain ⟨hemitted, hcipher, hstarted⟩ := pollWriteChunks_emitted maxPacketSize
    (fun () buf => headerChunk w.streamTy timestamp' w.requestSalt buf) buf w.tx
  have hbefore := h.emitted
  rcases h.started with ⟨hstate, hbuffer⟩ | ⟨pos, hstate⟩
  · refine ⟨[buf.take maxPacketSize], hemitted.trans ?_, hcipher.trans ?_, hstarted⟩
    · unfold Tx.emitted at hbefore
      unfold Tx.assembled Tx.pos Tx.assemble
      rw [hstate] at hbefore ⊢
      dsimp only at hbefore ⊢
      rw [hbuffer, hbefore, h.cipher, responseWire, responseWire, chunkWire_append, ← append_assoc]
      show _ ++ drop 0 ([] ++ _ ++ _) = _ ++ (_ ++ _ ++ [])
      rw [append_nil]
      rfl
    unfold Tx.assembled Tx.assemble
    rw [hstate]
    dsimp only [Cipher.encryptPacket]
    rw [h.cipher, length_append, length_singleton, Nat.mul_add, add_assoc]
    rfl
  refine ⟨[], hemitted.trans ?_, hcipher.trans ?_, hstarted⟩
  · unfold Tx.emitted at hbefore
    unfold Tx.assembled Tx.pos
    rw [hstate] at hbefore ⊢
    rwa [append_nil]
  · unfold Tx.assembled
    rw [hstate, append_nil]
    exact h.cipher

end

/-! ## 3. A stream that is read from and written to at will -/

inductive ServerAct where
  | handshake
  | read (env : ReadEnv) (cap : Nat)
  | write (env : WriteEnv) (buf : Bytes)

def takenHeader (before after : ReaderIo M) : List Bytes :=
  bif !before.reader.hasHandshaked && after.reader.hasHandshaked then ((presented before).map Prod.snd).toList
  else []

def serverStep (s : ProxyServerStream M) : ServerAct → ProxyServerStream M × List Bytes
  | .handshake => ({ s with hasHandshaked := true }, [])
  | .read env cap => ((s.pollRead env cap).2, takenHeader s.stream.dec (s.pollRead env cap).2.stream.dec)
  | .write env buf => ((s.pollWrite buf env).2, [])

def Unhurried (s : ProxyServerStream M) : ServerAct → Prop
  | .write _ _ => s.stream.dec.reader.hasHandshaked = true → s.userKey ≠ none → s.stream.hasHandshaked = true
  | _ => True

instance (s : ProxyServerStream M) : (a : ServerAct) → Decidable (Unhurried s a)
  | .write _ _ => inferInstanceAs (Decidable (s.stream.dec.reader.hasHandshaked = true → s.userKey ≠ none →
      s.stream.hasHandshaked = true))
  | .handshake => inferInstanceAs (Decidable True)
  | .read _ _ => inferInstanceAs (Decidable True)

def ResponseKey (M : Method) (key : Bytes) (users : Option ServerUserManager) (header k : Bytes) : Prop :=
  match (newReader M key users).identityUsers with
  | none => k = key
  | some table => ∃ user, identifiedUser M key header table = some user ∧ k = user.key

/-- **What was encrypted is the response to the header taken**: one stream under its user's key, with its salt. -/
structure ResponseOk (M : Method) (key nonce : Bytes) (users : Option ServerUserManager) (headers : List Bytes)
    (s : ProxyServerStream M) : Prop where
  early : headers = [] → s.stream.enc.tx.emitted = []
  response : s.stream.enc.tx.emitted ≠ [] → ∃ header, headers = [header] ∧
    (∃ timestamp, headerValid timestamp key header (newReader M key users) = true) ∧
    ∃ k timestamp first rest, ResponseKey M key users header k ∧
      s.stream.enc.tx.emitted = responseWire M k nonce (header.take M.kind.saltLen) timestamp first rest

def CipherKept (s s' : ProxyServerStream M) : Prop :=
  s.stream.enc.tx.emitted ≠ [] → s'.stream.enc.tx.cipher.key = s.stream.enc.tx.cipher.key ∧
      s.stream.enc.tx.cipher.nonce ≤ s'.stream.enc.tx.cipher.nonce

def Idle (k nonce : Bytes) (w : EncryptedWriter M) : Prop :=
  ∃ events, w = .withIdentity M .server k nonce [] ⟨events, []⟩

def writerKey (key : Bytes) (s : ProxyServerStream M) : Bytes :=
  if s.stream.hasHandshaked then s.userKey.getD key else key

inductive StreamState (M : Method) (key nonce : Bytes) (users : Option ServerUserManager) :
    ProxyServerStream M → List Bytes → Prop where
  | waiting {s} (hreader : Awaits key users s.stream.dec.reader) (hkeyed : s.stream.hasHandshaked = false)
      (hstate : s.writerState = .prepareHeader) (hidle : Idle key nonce s.stream.enc) :
      StreamState M key nonce users s []
  | silent {s} (header : Bytes) (hreader : Took key users header s.stream.dec.reader)
      (hstate : s.writerState = .prepareHeader) (hidle : Idle (writerKey key s) nonce s.stream.enc) :
      StreamState M key nonce users s [header]
  | responding {s} (header : Bytes) (timestamp : UInt64) (first : Bytes) (rest : List Bytes)
      (hreader : Took key users header s.stream.dec.reader)
      (hkeyed : s.userKey ≠ none → s.stream.hasHandshaked = true) (hstate : s.writerState = .established)
      (hwriter : Responding (s.userKey.getD key) nonce (header.take M.kind.saltLen) timestamp first rest
        s.stream.enc) :
      StreamState M key nonce users s [header]

section

variable {key nonce : Bytes} {users : Option ServerUserManager} {s : ProxyServerStream M} {log : List Bytes}
  {w : EncryptedWriter M}

theorem Idle.emitted {k : Bytes} (h : Idle k nonce w) : w.tx.emitted = [] := by
  obtain ⟨events, rfl⟩ := h
  rfl

theorem Idle.keyed (h : Idle key nonce w) (userKey : Option Bytes) :
    Idle (userKey.getD key) nonce (w.keyed userKey) := by
  obtain ⟨events, rfl⟩ := h
  cases userKey with
  | none | some userKey => exact ⟨events, rfl⟩

theorem pollReadDecrypted_writer (env : ReadEnv) (cap : Nat) (s : CryptoStream M) :
    ((s.pollReadDecrypted env cap).2.enc = s.enc ∧ (s.pollReadDecrypted env cap).2.hasHandshaked = s.hasHandshaked) ∨
      (s.hasHandshaked = false ∧ (pollIn env cap s.dec).2.reader.hasHandshaked = true ∧
        (s.pollReadDecrypted env cap).2.enc = s.enc.keyed (pollIn env cap s.dec).2.reader.userKey ∧
        (s.pollReadDecrypted env cap).2.hasHandshaked = true) := by
  unfold CryptoStream.pollReadDecrypted
  rcases pollIn env cap s.dec with ⟨_ | bs | e, dec⟩
  · exact .inl ⟨rfl, rfl⟩
  · dsimp only
    split
    · rename_i hfirst
      obtain ⟨hopen, hdone⟩ := (Bool.and_eq_true _ _).mp hfirst
      exact .inr ⟨by simpa using hopen, hdone, rfl, rfl⟩
    · exact .inl ⟨rfl, rfl⟩
  · exact .inl ⟨rfl, rfl⟩

variable {before after : ReaderIo M} {header : Bytes}

theorem takenHeader_past (h : before.reader.hasHandshaked = true) : takenHeader before after = [] := by
  rw [takenHeader, h]
  rfl

theorem takenHeader_awaits (h : after.reader.hasHandshaked = false) : takenHeader before after = [] := by
  rw [takenHeader, h, Bool.and_false]
  rfl

theorem takenHeader_took (hb : before.reader.hasHandshaked = false)
    (ha : after.reader.hasHandshaked = true) (h : presented before = some (key, header)) :
    takenHeader before after = [header] := by
  rw [takenHeader, hb, ha, h]
  rfl

theorem StreamState.read_past (h : StreamState M key nonce users s log) (hpast : ∃ header, log = [header])
    (env : ReadEnv) (cap : Nat) {s' : ProxyServerStream M}
    (hs' : s' = { s with stream := (s.stream.pollReadDecrypted env cap).2 }) :
    StreamState M key nonce users s' log ∧ CipherKept s s' := by
  have hdec : s'.stream.dec = (pollIn env cap s.stream.dec).2 := by
    rw [hs']
    exact CryptoStream.pollReadDecrypted_dec env cap s.stream
  have hwriter := pollReadDecrypted_writer env cap s.stream
  have henc : (s.stream.pollReadDecrypted env cap).2.enc = s'.stream.enc := by rw [hs']
  have hkeyed : (s.stream.pollReadDecrypted env cap).2.hasHandshaked = s'.stream.hasHandshaked := by rw [hs']
  rw [henc, hkeyed, ← hdec] at hwriter
  have hstate' : s'.writerState = s.writerState := by rw [hs']
  cases h with
  | waiting => obtain ⟨header, hnil⟩ := hpast; cases hnil
  | silent header hreader hstate hidle =>
    have htook : Took key users header s'.stream.dec.reader := hdec ▸ pollIn_took env cap hreader
    have huser : s'.userKey = s.userKey := htook.userKey.trans hreader.userKey.symm
    refine ⟨.silent header htook (hstate'.trans hstate) ?_, fun hne => absurd hidle.emitted hne⟩
    unfold writerKey at hidle ⊢
    rcases hwriter with ⟨hsame, hflag⟩ | ⟨hopen, -, hreset, hflag⟩
    · rw [hsame, hflag, huser]
      exact hidle
    · rw [hopen] at hidle
      rw [hreset, hflag]
      exact hidle.keyed _
  | responding header timestamp first rest hreader hkey hstate hresp =>
    have htook : Took key users header s'.stream.dec.reader := hdec ▸ pollIn_took env cap hreader
    have huser : s'.userKey = s.userKey := htook.userKey.trans hreader.userKey.symm
    -- a writer that has begun without the key of a user has no user
    have hsame : s'.stream.enc = s.stream.enc := by
      rcases hwriter with ⟨hsame, -⟩ | ⟨hopen, -, hreset, -⟩
      · exact hsame
      have hnone : s'.userKey = none := by
        by_contra hsome
        rw [huser] at hsome
        rw [hkey hsome] at hopen
        cases hopen
      have hnone : s'.stream.dec.reader.userKey = none := hnone
      rw [hreset, hnone]
      rfl
    refine ⟨.responding header timestamp first rest htook (fun hsome => ?_) (hstate'.trans hstate) ?_, ?_⟩
    · rcases hwriter with ⟨-, hflag⟩ | ⟨-, -, -, hflag⟩
      · rw [hflag]
        exact hkey (huser ▸ hsome)
      · exact hflag
    · rw [huser, hsame]
      exact hresp
    · intro _
      rw [hsame]
      exact ⟨rfl, le_rfl⟩

theorem StreamState.read (h : StreamState M key nonce users s log) (env : ReadEnv) (cap : Nat) :
    StreamState M key nonce users (serverStep s (.read env cap)).1 (log ++ (serverStep s (.read env cap)).2) ∧
      CipherKept s (serverStep s (.read env cap)).1 := by
  show StreamState M key nonce users (s.pollRead env cap).2
    (log ++ takenHeader s.stream.dec (s.pollRead env cap).2.stream.dec) ∧ CipherKept s (s.pollRead env cap).2
  by_cases hs : s.hasHandshaked = true
  swap
  · -- the stream answers with an error before its handshake has begun
    have hsame : (s.pollRead env cap).2 = s := by
      rw [ProxyServerStream.pollRead, if_neg hs]
    have hnone : takenHeader s.stream.dec s.stream.dec = [] := by
      rw [takenHeader, Bool.not_and_self]
      rfl
    rw [hsame, hnone, append_nil]
    exact ⟨h, fun _ => ⟨rfl, le_rfl⟩⟩
  rw [ProxyServerStream.pollRead_eq hs]
  rw [CryptoStream.pollReadDecrypted_dec]
  cases h with
  | waiting hreader hkeyed hstate hidle =>
    have hwriter := pollReadDecrypted_writer env cap s.stream
    refine ⟨?_, fun hne => absurd hidle.emitted hne⟩
    rcases pollIn_awaits env cap hreader with hwait | ⟨header, hpres, htook⟩
    · rw [takenHeader_awaits hwait.unopened, append_nil]
      rcases hwriter with ⟨hsame, hflag⟩ | ⟨-, hdone, -⟩
      · refine .waiting ?_ (hflag.trans hkeyed) hstate ?_
        · rw [CryptoStream.pollReadDecrypted_dec]
          exact hwait
        · rw [hsame]
          exact hidle
      · rw [hwait.unopened] at hdone
        cases hdone
    rw [takenHeader_took hreader.unopened htook.done hpres, nil_append]
    refine .silent header ?_ hstate ?_
    · rw [CryptoStream.pollReadDecrypted_dec]
      exact htook
    · unfold writerKey
      rcases hwriter with ⟨hsame, hflag⟩ | ⟨-, -, hreset, hflag⟩
      · rw [hsame, hflag, hkeyed]
        exact hidle
      · rw [hreset, hflag, if_pos rfl, ProxyServerStream.userKey, CryptoStream.pollReadDecrypted_dec]
        exact hidle.keyed _
  | silent header hreader hstate hidle =>
    rw [takenHeader_past hreader.done, append_nil]
    exact read_past (.silent header hreader hstate hidle) ⟨header, rfl⟩ env cap rfl
  | responding header timestamp first rest hreader hkey hstate hresp =>
    rw [takenHeader_past hreader.done, append_nil]
    exact read_past (.responding header timestamp first rest hreader hkey hstate hresp)
      ⟨header, rfl⟩ env cap rfl

theorem StreamState.write (h : StreamState M key nonce users s log) (env : WriteEnv) (buf : Bytes)
    (hcalm : Unhurried s (.write env buf)) :
    StreamState M key nonce users (serverStep s (.write env buf)).1 log ∧
      CipherKept s (serverStep s (.write env buf)).1 := by
  show StreamState M key nonce users (s.pollWrite buf env).2 log ∧ CipherKept s (s.pollWrite buf env).2
  unfold ProxyServerStream.pollWrite
  cases h with
  | waiting hreader hkeyed hstate hidle =>
    rw [hstate]
    rw [hreader.salt]
    exact ⟨.waiting hreader hkeyed hstate hidle, fun _ => ⟨rfl, le_rfl⟩⟩
  | silent header hreader hstate hidle =>
    refine ⟨?_, fun hne => absurd hidle.emitted hne⟩
    have hkey : s.userKey ≠ none → s.stream.hasHandshaked = true := hcalm hreader.done
    have hwriter : writerKey key s = s.userKey.getD key := by
      unfold writerKey
      cases hu : s.userKey with
      | none => exact ite_self key
      | some userKey => rw [hkey (by rw [hu]; exact Option.some_ne_none userKey), if_pos rfl]
    rw [hwriter] at hidle
    obtain ⟨events, hevents⟩ := hidle
    rw [hstate]
    rw [hreader.salt]
    dsimp only
    rw [CryptoStream.pollWriteEncrypted_eq]
    refine .responding header env.timestamp (buf.take maxPacketSize) [] hreader hkey rfl ?_
    rw [hevents]
    exact responding_first events env.timestamp buf
  | responding header timestamp first rest hreader hkey hstate hresp =>
    obtain ⟨more, hmore⟩ := hresp.write env.timestamp buf
    rw [hstate]
    rw [CryptoStream.pollWriteEncrypted_eq]
    refine ⟨.responding header timestamp first (rest ++ more) hreader hkey rfl hmore, fun _ => ?_⟩
    rw [hmore.cipher, hresp.cipher, length_append]
    exact ⟨rfl, by dsimp only; omega⟩

theorem StreamState.step (h : StreamState M key nonce users s log) (a : ServerAct) (hcalm : Unhurried s a) :
    StreamState M key nonce users (serverStep s a).1 (log ++ (serverStep s a).2) ∧
      CipherKept s (serverStep s a).1 := by
  cases a with
  | handshake =>
    refine ⟨?_, fun _ => ⟨rfl, le_rfl⟩⟩
    cases h with
    | waiting hreader hkeyed hstate hidle => exact .waiting hreader hkeyed hstate hidle
    | silent header hreader hstate hidle => exact .silent header hreader hstate hidle
    | responding header timestamp first rest hreader hkey hstate hresp =>
      exact .responding header timestamp first rest hreader hkey hstate hresp
  | read env cap => exact h.read env cap
  | write env buf =>
    show StreamState M key nonce users (serverStep s (.write env buf)).1 (log ++ []) ∧ _
    rw [append_nil]
    exact h.write env buf hcalm

theorem headerValid_identified {timestamp : UInt64} {table : ServerUserManager}
    (h : headerValid timestamp key header (newReader M key users) = true)
    (htable : (newReader M key users).identityUsers = some table) :
    ∃ user, identifiedUser M key header table = some user := by
  unfold headerValid chooseCipher at h
  rw [htable] at h
  dsimp only at h
  split at h
  · cases h
  rename_i hok
  split at hok
  · cases hok
  · split at hok
    · cases hok
    · rename_i user huser
      exact ⟨user, huser⟩

theorem Took.responseKey {r : DecryptedReader M} (h : Took key users header r) :
    ResponseKey M key users header (r.userKey.getD key) := by
  rw [h.userKey]
  unfold ResponseKey identifiedKey
  cases htable : (newReader M key users).identityUsers with
  | none => rfl
  | some table =>
    obtain ⟨timestamp, hvalid⟩ := h.valid
    obtain ⟨user, huser⟩ := headerValid_identified hvalid htable
    refine ⟨user, huser, ?_⟩
    rw [Option.bind_some, huser]
    rfl

theorem StreamState.ok (h : StreamState M key nonce users s log) : ResponseOk M key nonce users log s := by
  cases h with
  | waiting hreader hkeyed hstate hidle | silent header hreader hstate hidle =>
    exact ⟨fun _ => hidle.emitted, fun hne => absurd hidle.emitted hne⟩
  | responding header timestamp first rest hreader hkey hstate hresp =>
    refine ⟨fun hnil => ?_, fun _ => ⟨header, rfl, hreader.valid, ?_⟩⟩
    · cases hnil
    · exact ⟨_, timestamp, first, rest, hreader.responseKey, hresp.emitted⟩

end

theorem streamState_new (M : Method) (key nonce : Bytes) (users : Option ServerUserManager) (sock : ReadSock)
    (context : Context) (events : List WriteEvent) :
    StreamState M key nonce users (.fromStreamWithUserManager M key nonce users sock context events) [] :=
  .waiting (awaits_new M key users) rfl rfl ⟨events, rfl⟩

/-- **The response of a server**: if no write comes between the header of a user and the first `Ready` read, what was
encrypted is the response to the header taken. -/
theorem response_sound (M : Method) (key nonce : Bytes) (users : Option ServerUserManager) (sock : ReadSock)
    (context : Context) (events : List WriteEvent) (acts : List ServerAct)
    (hcalm : Along serverStep Unhurried (.fromStreamWithUserManager M key nonce users sock context events) acts) :
    ResponseOk M key nonce users
        (run serverStep (.fromStreamWithUserManager M key nonce users sock context events) acts).2
        (run serverStep (.fromStreamWithUserManager M key nonce users sock context events) acts).1 ∧
      ∀ a, Unhurried (run serverStep (.fromStreamWithUserManager M key nonce users sock context events) acts).1 a →
        CipherKept (run serverStep (.fromStreamWithUserManager M key nonce users sock context events) acts).1
          (serverStep (run serverStep (.fromStreamWithUserManager M key nonce users sock context events)
            acts).1 a).1 := by
  have h := run_inv (I := StreamState M key nonce users) (P := Unhurried)
    (streamState_new M key nonce users sock context events) (fun s log a hs ha => (hs.step a ha).1) hcalm
  exact ⟨h.ok, fun a ha => (h.step a ha).2⟩

def userRequest : Bytes :=
  (ProxyClientStream.pollWrite [7] ⟨0, []⟩ (userSetup.client taggedMethod scopedAddress [] emptyContext
    [])).2.stream.enc.wire

def splitRequest : ProxyServerStream taggedMethod :=
  userSetup.server taggedMethod [.data (userRequest.take 45), .pending, .data (userRequest.drop 45)]
    emptyContext []

def wideRead : ServerAct := .read ⟨0, 0, emptyContext⟩ 100

theorem response_sound_user :
    Along serverStep Unhurried splitRequest [.handshake, wideRead, wideRead, .write ⟨5, []⟩ [9], wideRead] ∧
      ResponseOk taggedMethod userSetup.serverKey userSetup.serverSalt userSetup.users [userRequest.take 45]
        (run serverStep splitRequest [.handshake, wideRead, wideRead, .write ⟨5, []⟩ [9], wideRead]).1 := by
  have hcalm : Along serverStep Unhurried splitRequest
      [.handshake, wideRead, wideRead, .write ⟨5, []⟩ [9], wideRead] := by decide +kernel
  refine ⟨hcalm, ?_⟩
  exact (response_sound taggedMethod userSetup.serverKey userSetup.serverSalt userSetup.users _ emptyContext []
    _ hcalm).1

/-- **The user's key comes too late**: a write before a `Ready` read is under the server's key. -/
theorem response_unkeyed :
    (run serverStep splitRequest [.handshake, wideRead, .write ⟨5, []⟩ [9]]).2 = [userRequest.take 45] ∧
      (run serverStep splitRequest [.handshake, wideRead, .write ⟨5, []⟩ [9]]).1.userKey =
        some (replicate 16 1) ∧
      (run serverStep splitRequest [.handshake, wideRead, .write ⟨5, []⟩ [9]]).1.stream.enc.tx.emitted =
        responseWire taggedMethod userSetup.serverKey userSetup.serverSalt userSetup.clientSalt 5 [9] [] ∧
      userSetup.serverKey ≠ replicate 16 1 ∧
      ¬ CipherKept (run serverStep splitRequest [.handshake, wideRead, .write ⟨5, []⟩ [9]]).1
        (serverStep (run serverStep splitRequest [.handshake, wideRead, .write ⟨5, []⟩ [9]]).1 wideRead).1 := by
  refine ⟨by decide +kernel, by decide +kernel, by decide +kernel, by decide +kernel, fun hkept => ?_⟩
  have hnonce := (hkept (by decide +kernel)).2
  revert hnonce
  decide +kernel

/-! ## 4. The handshake is such a run -/

theorem reads_run (s : ProxyServerStream M) (polls : List (ReadEnv × Nat)) :
    Along serverStep Unhurried s (polls.map fun p => .read p.1 p.2) ∧
      afterPolls ProxyServerStream.pollRead s polls = (run serverStep s (polls.map fun p => .read p.1 p.2)).1 := by
  induction polls generalizing s with
  | nil => exact ⟨trivial, rfl⟩
  | cons p polls ih => exact ⟨⟨trivial, (ih _).1⟩, (ih _).2⟩

/-- **A handshake, to whatever end, is reads** of the machine above. -/
theorem handshake_run (s : ProxyServerStream M) (envs : List ReadEnv) : ∃ acts, Along serverStep Unhurried s acts ∧
      (ProxyServerStream.handshake s envs).2.1 = (run serverStep s acts).1 := by
  unfold ProxyServerStream.handshake
  split
  · exact ⟨[], trivial, rfl⟩
  · obtain ⟨polls, hend, -⟩ := handshakeOnce_takes { s with hasHandshaked := true } envs
    obtain ⟨hcalm, hrun⟩ := reads_run { s with hasHandshaked := true } polls
    exact ⟨.handshake :: _, ⟨trivial, hcalm⟩, hend.trans hrun⟩

end Shadowsocks.Tcp.V2
