/-
  Subject:   WHAT AN AEAD-2022 READER, CLIENT AND SERVER DELIVER FROM A STREAM AN ADVERSARY CONTROLS. An accepted header
  is that of one honest session (`acceptHeader_honest`), which the reader then tracks.
-/
import Shadowsocks.Tcp.Integrity
import Shadowsocks.Tcp.RequestHeader

namespace Shadowsocks.Tcp.V2

open Lib List

variable {M : Method}

/-! ## 1. Honest sessions -/

structure Transcript where
  streamTy : StreamType
  timestamp : UInt64
  requestSalt : Option Bytes
  first : Bytes
  rest : List Bytes
  fits : ∀ c ∈ first :: rest, c.length ≤ maxPacketSize

def Transcript.header (T : Transcript) : Bytes :=
  headerChunk T.streamTy T.timestamp T.requestSalt T.first

def Transcript.records (T : Transcript) : List Bytes := T.header :: T.first :: chunkRecords T.rest

def Transcript.payload (T : Transcript) : Bytes := T.first ++ T.rest.flatten

def EncryptedWriter.transcript (w : EncryptedWriter M) (timestamp : UInt64) (buf : Bytes)
    (bufs : List Bytes) : Transcript where
  streamTy := w.streamTy
  timestamp := timestamp
  requestSalt := w.requestSalt
  first := buf.take maxPacketSize
  rest := bufs.map (take maxPacketSize)
  fits c hc := by
    obtain ⟨b, _, rfl⟩ := mem_map.mp (map_cons ▸ hc : c ∈ (buf :: bufs).map _)
    exact length_take_le _ _

/-- What a new writer puts on the wire: salt and identity headers, and the records of its transcript. -/
theorem transcript_wire (w : EncryptedWriter M) (timestamp : UInt64) {k : M.aead.Sub}
    (hstate : w.tx.state = .assembleHeader ()) (hcipher : w.tx.cipher = ⟨k, 0⟩)
    (hwill : Willing w.tx.sock) (buf : Bytes) (bufs : List Bytes) :
    ∃ tx, submitAll (pollWriteChunks maxPacketSize fun () buf =>
        headerChunk w.streamTy timestamp w.requestSalt buf) (buf :: bufs) w.tx =
          (.ok (accepted maxPacketSize (buf :: bufs)), tx) ∧
      tx.sock.wire = w.tx.sock.wire ++ (w.tx.buffer ++
        ((w.transcript timestamp buf bufs).records.mapIdx fun n p => M.aead.encrypt k n p).flatten) := by
  obtain ⟨tx, he, hwire⟩ := submitAll_first maxPacketSize (fun () buf =>
    headerChunk w.streamTy timestamp w.requestSalt buf) buf bufs
    (fun pos h => by rw [hstate] at h; cases h) hwill
  refine ⟨tx, he, hwire.trans ?_⟩
  rw [Tx.assembled, hstate, hcipher, chunkWire_records, Transcript.records, mapIdx_cons, mapIdx_cons]
  simp only [Tx.assemble, Cipher.encryptPacket, hcipher, flatten_cons, append_assoc, zero_add]
  have hidx : ∀ i, 2 + i = i + 1 + 1 := fun i => by omega
  simp only [hidx]
  rfl

def slowSock : WriteSock := ⟨[.accept 3, .pending, .accept 1, .pending, .accept 9], []⟩

theorem transcript_wire_three : ∃ tx, submitAll (pollWriteChunks maxPacketSize fun () => headerChunk .client 0 none)
        [[7], [8], [5, 6]] (EncryptedWriter.withIdentity taggedMethod .client [1] [2] [] slowSock).tx =
          (.ok [7, 8, 5, 6], tx) ∧
      tx.sock.wire = [2, 0, 0, 0, 0, 0, 0, 0, 0, 0, 0, 1, 3, 0, 7, 3, 1, 0, 1, 3, 2, 8, 3, 3, 0, 2, 3, 4, 5, 6, 3, 5] :=
  transcript_wire (.withIdentity taggedMethod .client [1] [2] [] slowSock) 0 rfl rfl
    (by simp [Willing, EncryptedWriter.withIdentity, slowSock]) [7] [[8], [5, 6]]

abbrev Sessions := Bytes → Bytes → Option Transcript

def Sessions.table (sessions : Sessions) (key salt : Bytes) (n : Nat) : Option Bytes :=
  (sessions key salt).bind fun T => T.records[n]?

def Honest (M : Method) (sessions : Sessions) : Prop :=
  ∀ key salt, M.aead.Ideal (M.subkey key salt) (sessions.table key salt)

def Trusted (r : DecryptedReader M) (key userKey : Bytes) : Prop :=
  match r.identityUsers with
  | none => userKey = key
  | some users => ∃ hash user, users.getUserByHash hash = some user ∧ userKey = user.key

def base (M : Method) (key salt eih : Bytes) (T : Transcript) : Base M.aead where
  key := M.subkey key salt
  wire := salt ++ eih ++ M.aead.encrypt (M.subkey key salt) 0 T.header ++ M.aead.encrypt (M.subkey key salt) 1 T.first
  number := 2
  given := T.first
  count := 1
  chunks := T.rest

/-! ## 2. Accepted headers -/

variable {cipher : Cipher M.aead}

theorem chooseCipher_inv {key salt chunk chunk' : Bytes}
    {r r' : DecryptedReader M} (h : chooseCipher key salt chunk r = (.ok (cipher, chunk'), r')) :
    ∃ userKey eih, Trusted r key userKey ∧ cipher = M.newCipher userKey salt ∧ chunk = eih ++ chunk' ∧
      eih.length = (if r.identityUsers.isSome then 16 else 0) ∧
      r' = { r with userKey := r'.userKey } := by
  unfold chooseCipher at h
  cases hu : r.identityUsers with
  | none =>
    simp only [hu] at h
    cases h
    exact ⟨key, [], by simp only [Trusted, hu], rfl, rfl, rfl, rfl⟩
  | some users =>
    simp only [hu] at h
    split at h
    · cases h
    split at h
    · cases h
    rename_i user huser
    cases h
    refine ⟨user.key, chunk.take 16, ?_, rfl, (take_append_drop _ _).symm, ?_, rfl⟩
    · simp only [Trusted, hu]
      exact ⟨_, user, huser, rfl⟩
    · rw [length_take, Option.isSome_some, if_pos rfl]
      omega

variable {s' : ReaderIo M} {T : Transcript} {sessions : Sessions} {s : ReaderIo M} {now length : Nat}

variable {timestamp : UInt64} {salt p : Bytes}

theorem checkHeader_inv (h : checkHeader now timestamp salt p s = (.ok length, s')) :
    length = (get16 (((p.drop 9).drop (requestSaltLen M s.reader.streamTy)).take 2)).toNat ∧
      s'.sock = s.sock ∧ s'.reader.dataChunkCount = s.reader.dataChunkCount ∧
      (s.reader.streamTy = .client → s'.reader.requestSalt = some ((p.drop 9).take M.kind.saltLen)) := by
  unfold checkHeader at h
  simp only at h
  split at h
  · cases h
  split at h
  · cases h
  split at h
  · rename_i hty
    cases h
    exact ⟨by rw [hty], rfl, rfl, fun _ => rfl⟩
  · rename_i hty
    split at h
    · cases h
    · cases h
      exact ⟨by rw [hty], rfl, rfl, fun hc => absurd (hty.symm.trans hc) (by decide)⟩

theorem acceptHeader_honest (hhonest : Honest M sessions)
    {key header : Bytes} (hlen : header.length = s.reader.headerLen)
    (h : acceptHeader now timestamp key header s = (.ok (length, cipher), s')) :
    ∃ userKey eih T, Trusted s.reader key userKey ∧ sessions userKey (header.take M.kind.saltLen) = some T ∧
      header = header.take M.kind.saltLen ++ eih ++
        M.aead.encrypt (M.subkey userKey (header.take M.kind.saltLen)) 0 T.header ∧
      length = T.first.length ∧ cipher = ⟨M.subkey userKey (header.take M.kind.saltLen), 1⟩ ∧
      s'.sock = s.sock ∧ s'.reader.dataChunkCount = s.reader.dataChunkCount ∧
      (s.reader.streamTy = .client → s'.reader.requestSalt = T.requestSalt) := by
  unfold acceptHeader at h
  simp only at h
  generalize hsalt : header.take M.kind.saltLen = salt at h ⊢
  split at h
  · cases h
  rename_i cipher₀ chunk r hchoose
  obtain ⟨userKey, eih, htrust, rfl, hchunk, heih, hr⟩ := chooseCipher_inv hchoose
  cases hd : M.aead.decrypt (M.subkey userKey salt) 0 chunk with
  | none =>
    rw [Cipher.decryptPacket_none hd] at h
    cases h
  | some p =>
    rw [Cipher.decryptPacket_some hd] at h
    simp only at h
    split at h
    · cases h
    rename_i n s'' hcheck
    cases h
    obtain ⟨htable, hc⟩ := hhonest userKey salt 0 chunk p hd
    obtain ⟨T, hT, hp⟩ := Option.bind_eq_some_iff.mp htable
    have hp : T.header = p := Option.some.inj hp
    subst hp
    obtain ⟨hn, hsock, hcount, hreq⟩ := checkHeader_inv hcheck
    have hstreamTy : r.streamTy = s.reader.streamTy := by rw [hr]
    have hheader : header = salt ++ eih ++ M.aead.encrypt (M.subkey userKey salt) 0 T.header := by
      rw [← hc, append_assoc, ← hchunk, ← hsalt, take_append_drop]
    have hrs : (T.requestSalt.getD []).length = requestSaltLen M s.reader.streamTy := by
      have hall := congrArg List.length hheader
      have hs : salt.length = M.kind.saltLen := by
        rw [← hsalt, length_take, hlen, DecryptedReader.headerLen]
        omega
      rw [hlen, DecryptedReader.headerLen, length_append, length_append, hs, heih,
        M.aead.encrypt_length, Transcript.header, headerChunk_length] at hall
      omega
    have hfirst : T.first.length < 65536 := by
      have : T.first.length ≤ 65535 := T.fits _ mem_cons_self
      omega
    refine ⟨userKey, eih, T, htrust, hT, hheader, ?_, rfl, hsock, ?_, fun hclient => ?_⟩
    · rw [hn, hstreamTy]
      exact headerChunk_size _ _ _ _ hrs hfirst
    · rw [hcount, hr]
    · have hpos := M.kind.saltLen_pos
      rw [hclient, requestSaltLen] at hrs
      rw [hreq (hstreamTy.trans hclient), Transcript.header, headerChunk_rest, take_left' hrs]
      cases hq : T.requestSalt with
      | some q => rfl
      | none =>
        rw [hq] at hrs
        exact absurd hrs (ne_of_lt hpos)

/-! ## 3. The reader -/

def SocketError : ProtocolError → Prop
  | .ioError (.os _) => True
  | .ioError .unexpectedEof => True
  | _ => False

def AtEnd (sessions : Sessions) (r : DecryptedReader M) (key W D : Bytes) (s : ReaderIo M) : Prop :=
  (D = [] ∧ W = sockBytes s.sock) ∨
    ∃ salt userKey eih T pre post, salt = W.take M.kind.saltLen ∧ Trusted r key userKey ∧
      sessions userKey salt = some T ∧ T.rest = pre ++ post ∧ D = T.first ++ pre.flatten ∧
      W = salt ++ eih ++ M.aead.encrypt (M.subkey userKey salt) 0 T.header ++
        M.aead.encrypt (M.subkey userKey salt) 1 T.first ++
        chunkWire M.aead (M.subkey userKey salt) 2 pre ++ sockBytes s.sock

def Delivers (sessions : Sessions) (r : DecryptedReader M) (key W D : Bytes) : Prop :=
  D = [] ∨ ∃ userKey T, Trusted r key userKey ∧ sessions userKey (W.take M.kind.saltLen) = some T ∧ D <+: T.payload

def Integrity (M : Method) (sessions : Sessions) (retry : ProtocolError → Prop) : Prop :=
  ∀ (r : DecryptedReader M) streamTy key users, r = .withUserManager M streamTy key users →
    ∀ sock context, Sound pollIn retry ⟨r, sock, context⟩ (Delivers sessions r key (sockBytes sock))
      (AtEnd sessions r key (sockBytes sock))

def CountIs (m : Nat) (count : UInt64) : Prop := count = UInt64.ofNat m

inductive ReaderTracks (sessions : Sessions) (r : DecryptedReader M) (key W : Bytes) :
    Bytes → ReaderIo M → Prop where
  | header {sock context} (hw : W = sockBytes sock) :
      ReaderTracks sessions r key W [] ⟨r, sock, context⟩
  | chunks {s state cipher D} (userKey eih : Bytes) (T : Transcript)
      (hs : s.reader.state = .chunks state cipher) (htrust : Trusted r key userKey)
      (hT : sessions userKey (W.take M.kind.saltLen) = some T)
      (hreq : r.streamTy = .client → s.reader.requestSalt = T.requestSalt)
      (h : Tracks (base M userKey (W.take M.kind.saltLen) eih T)
        (sessions.table userKey (W.take M.kind.saltLen)) CountIs W D (s.toRx state cipher)) :
      ReaderTracks sessions r key W D s

theorem final : Final rules SocketError where
  length := id
  check _ _ h := nomatch h
  data := id
  onData _ _ h := nomatch h

theorem onData_countIs (m : Nat) (count count' : UInt64) (h : CountIs m count)
    (ho : rules.onData count = (none, count')) : CountIs (m + 1) count' := by
  cases ho
  rw [CountIs, h, UInt64.ofNat_add]
  rfl

section

variable {sessions : Sessions} {r : DecryptedReader M} {key W D : Bytes} {now cap : Nat}
  {timestamp : UInt64} {s : ReaderIo M}

theorem atEnd_of_boundary {userKey eih : Bytes} (htrust : Trusted r key userKey)
    (hT : sessions userKey (W.take M.kind.saltLen) = some T) {x : Rx M.aead UInt64}
    (h : AtBoundary (base M userKey (W.take M.kind.saltLen) eih T) W D x) :
    AtEnd sessions r key W D (s.ofRx x) := by
  obtain ⟨_, _, _, _, ⟨pre, hcs, rfl, _, rfl, _⟩, hw⟩ := h
  exact .inr ⟨_, userKey, eih, T, pre, _, rfl, htrust, hT, hcs, rfl, hw⟩

theorem base_records {salt eih : Bytes} (hT : sessions key salt = some T) :
    (base M key salt eih T).Records (sessions.table key salt) := by
  intro j
  rw [Sessions.table, hT, Option.bind_some, base, Transcript.records, add_comm 2 j]
  rfl

variable {e : ProtocolError}

theorem checkHeader_final (h : checkHeader now timestamp salt p s = (.error e, s')) : ¬ SocketError e := by
  unfold checkHeader at h
  simp only at h
  split at h
  · cases h
    exact id
  split at h
  · cases h
    exact id
  split at h
  · cases h
  · split at h
    · rename_i hcheck
      cases h
      rw [Context.checkNonceReplay_error (congrArg Prod.fst hcheck)]
      exact id
    · cases h

theorem acceptHeader_final {header : Bytes}
    (h : acceptHeader now timestamp key header s = (.error e, s')) : ¬ SocketError e := by
  unfold acceptHeader at h
  simp only at h
  split at h
  · rename_i hchoose
    cases h
    unfold chooseCipher at hchoose
    split at hchoose
    · cases hchoose
    split at hchoose
    · cases hchoose
      exact id
    simp only at hchoose
    split at hchoose
    · cases hchoose
      exact id
    · cases hchoose
  split at h
  · cases h
    exact id
  split at h
  · rename_i hcheck
    cases h
    exact checkHeader_final hcheck
  · cases h

theorem readRound_header_tracks (hhonest : Honest M sessions) (hr : r.state = .readHeader key)
    (hcount : r.dataChunkCount = 0) {sock : ReadSock} {context : Context} :
    SoundRound SocketError (ReaderTracks sessions r key (sockBytes sock))
      (AtEnd sessions r key (sockBytes sock)) cap [] (readRound now timestamp cap ⟨r, sock, context⟩) := by
  have hstep := pollRead_step (headerLen_pos r) sock
  simp only [readRound, hr]
  rcases hp : pollRead r.headerLen sock with ⟨x, sock'⟩
  rw [hp] at hstep
  cases hstep with
  | pending _ hb => exact .ret _ _ (.pending _ (.header hb))
  | error code _ hb => exact .ret _ _ (.error _ _ fun _ => .header hb)
  | eof _ hb => exact .ret _ _ (.ready [] _ (.header hb) fun _ _ => .inl ⟨rfl, hb⟩)
  | data b bs _ hle hb =>
    simp only [if_neg (cons_ne_nil b bs)]
    generalize b :: bs = header at hb
    by_cases hlen : header.length = r.headerLen
    · rw [if_neg (not_not_intro hlen)]
      rcases ha : acceptHeader now timestamp key header ⟨r, sock', context⟩ with ⟨y, s'⟩
      cases y with
      | error e => exact .ret _ _ (.error _ _ fun h => absurd h (acceptHeader_final ha))
      | ok v =>
        obtain ⟨length, cipher⟩ := v
        obtain ⟨userKey, eih, T, htrust, hT, hheader, rfl, rfl, hsock, hcount', hreq⟩ :=
          acceptHeader_honest hhonest hlen ha
        have hsalt : header.take M.kind.saltLen = (sockBytes sock).take M.kind.saltLen := by
          rw [hb, take_append_of_le_length]
          rw [hlen, DecryptedReader.headerLen]
          omega
        rw [hsalt] at hT hheader ⊢
        refine .next _ (.chunks userKey eih T rfl htrust hT hreq ?_)
        refine .readData (m := 0) T.first (Base.boundary_base (base M userKey _ eih T)) ?_ ?_
          zero_le (hcount'.trans hcount)
        · rw [Sessions.table, hT]
          rfl
        · rw [nil_append, hsock, ← hheader]
          exact hb
    · rw [if_pos hlen]
      exact .ret _ _ (.error _ _ fun h => absurd h id)

theorem readRound_tracks (hhonest : Honest M sessions) (hr : r.state = .readHeader key)
    (hcount : r.dataChunkCount = 0) (h : ReaderTracks sessions r key W D s) :
    SoundRound SocketError (ReaderTracks sessions r key W) (AtEnd sessions r key W) cap D
      (readRound now timestamp cap s) := by
  cases h with
  | header hw =>
    subst hw
    exact readRound_header_tracks hhonest hr hcount
  | @chunks s state cipher _ userKey eih T hs htrust hT hreq h =>
    have hfit : ∀ c ∈ (base M userKey (W.take M.kind.saltLen) eih T).chunks, c.length < 65536 := by
      intro c hc
      have hle : c.length ≤ 65535 := T.fits c (mem_cons_of_mem _ hc)
      omega
    simp only [readRound, hs]
    exact (chunkRound_tracks (hhonest _ _) (base_records hT) hfit final onData_countIs h).map
      s.ofRx (fun _ _ h => .chunks userKey eih T rfl htrust hT hreq h)
      (fun _ => atEnd_of_boundary htrust hT)

theorem pollIn_tracks (hhonest : Honest M sessions) (hr : r.state = .readHeader key)
    (hcount : r.dataChunkCount = 0) (env : ReadEnv) (h : ReaderTracks sessions r key W D s) :
    SoundStep SocketError (ReaderTracks sessions r key W) (AtEnd sessions r key W) cap D (pollIn env cap s) := by
  refine soundStep_of_rounds (readRound_pot env.now env.timestamp cap)
    (fun t ht => readRound_tracks hhonest hr hcount ht) ?_
  cases h with
  | header hw => exact .header hw
  | chunks userKey eih T hs htrust hT hreq h => exact .chunks userKey eih T hs htrust hT hreq h

theorem ReaderTracks.delivers (h : ReaderTracks sessions r key W D s) : Delivers sessions r key W D := by
  cases h with
  | header => exact .inl rfl
  | chunks userKey eih T hs htrust hT hreq h => exact .inr ⟨userKey, T, htrust, hT, h.prefix_payload⟩

end

theorem sound (hhonest : Honest M sessions) : Integrity M sessions SocketError := by
  rintro r streamTy key users rfl sock context
  exact sound_of_inv (fun D s env cap h => pollIn_tracks hhonest rfl rfl env h)
    (fun D s h => h.delivers) (.header rfl)

/-! ## 4. The client -/

def ClientSocketError : StreamError → Prop
  | .protocol e => SocketError e
  | _ => False

def ClientIntegrity (M : Method) (sessions : Sessions) (retry : StreamError → Prop) : Prop :=
  ∀ (r : DecryptedReader M) key nonce, r = .withUserManager M .client key none → nonce.length = M.kind.saltLen →
    ∀ identityKeys addr sock context events,
    Sound (interleaved ProxyClientStream.writeAct ProxyClientStream.pollRead) retry
      (ProxyClientStream.fromStream M key nonce identityKeys addr sock context events)
      (fun D => D = [] ∨ ∃ T, sessions key ((sockBytes sock).take M.kind.saltLen) = some T ∧
        T.requestSalt = some nonce ∧ D <+: T.payload)
      (fun D s => AtEnd sessions r key (sockBytes sock) D s.stream.dec)

structure ClientTracks (sessions : Sessions) (r : DecryptedReader M) (key nonce W D : Bytes)
    (s : ProxyClientStream M) : Prop where
  reader : ReaderTracks sessions r key W D s.stream.dec
  salt : s.stream.enc.salt = nonce
  answers : D ≠ [] ∨ s.readerState = .established →
    ∃ T, sessions key (W.take M.kind.saltLen) = some T ∧ T.requestSalt = some nonce

section

variable {sessions : Sessions} {r : DecryptedReader M} {key nonce W D : Bytes} {cap : Nat}

theorem countIs_pos {m n : Nat} {count : UInt64} (hm : 0 < m) (hle : m ≤ n) (hn : n < 2 ^ 64)
    (h : CountIs m count) : 0 < count := by
  rwa [h, UInt64.lt_iff_toNat_lt, UInt64.toNat_ofNat', UInt64.toNat_zero, Nat.mod_eq_of_lt (lt_of_le_of_lt hle hn)]

theorem boundary_count {userKey salt eih P D : Bytes} {n m : Nat} {post : List Bytes}
    (h : (base M userKey salt eih T).Boundary P n D m post) : 0 < m ∧ m ≤ T.rest.length + 1 := by
  obtain ⟨pre, hcs, _, _, _, hm⟩ := h
  have hlen : T.rest.length = pre.length + post.length :=
    (congrArg length hcs).trans length_append
  change m = 1 + pre.length at hm
  omega

theorem tracks_counted {userKey salt eih : Bytes} {x : Rx M.aead UInt64}
    (hT : sessions userKey salt = some T) (hsmall : T.rest.length + 1 < 2 ^ 64) (hne : D ≠ [])
    (h : Tracks (base M userKey salt eih T) (sessions.table userKey salt) CountIs W D x) : 0 < x.rest := by
  cases h with
  | readLength h _ _ hk | bufferedData _ h _ hk =>
    exact countIs_pos (boundary_count h).1 (boundary_count h).2 hsmall hk
  | @readData P n D m post _ _ _ c h hrec hw hb hk =>
    have hle := (boundary_count h).2
    rcases Nat.eq_zero_or_pos m with rfl | hm
    · -- the first chunk is still to come, so nothing was delivered
      obtain ⟨pre, _, _, hn, hD, hcount⟩ := h
      change 0 + 1 = 1 + pre.length at hcount
      obtain rfl : pre = [] := length_eq_zero_iff.mp (by omega)
      change n + 1 = 2 + 0 at hn
      obtain rfl : n = 1 := by omega
      rw [Sessions.table, hT] at hrec
      have hc : T.first = c := Option.some.inj hrec
      rw [← hc] at hD
      have hlen := congrArg length hD
      change (D ++ T.first).length = (T.first ++ []).length at hlen
      rw [length_append, append_nil] at hlen
      exact absurd (length_eq_zero_iff.mp (by omega)) hne
    · exact countIs_pos hm (Nat.le_of_succ_le hle) hsmall hk

theorem ReaderTracks.client (hr : r = .withUserManager M .client key none)
    (hsmall : ∀ key salt T, sessions key salt = some T → T.rest.length + 1 < 2 ^ 64)
    (h : ReaderTracks sessions r key W D s) : (s.reader.dataChunkCount = 0 ∧ D = []) ∨
      ∃ T, sessions key (W.take M.kind.saltLen) = some T ∧ s.reader.requestSalt = T.requestSalt ∧
        (D ≠ [] → 0 < s.reader.dataChunkCount) := by
  subst hr
  cases h with
  | header hw => exact .inl ⟨rfl, rfl⟩
  | chunks userKey eih T hs htrust hT hreq h =>
    have hkey : userKey = key := htrust
    subst hkey
    exact .inr ⟨T, hT, hreq rfl, fun hne => tracks_counted hT (hsmall _ _ _ hT) hne h⟩

theorem currentDataChunkRemaining_fst (r : DecryptedReader M) : r.currentDataChunkRemaining.1 = r.dataChunkCount := by
  unfold DecryptedReader.currentDataChunkRemaining
  split <;> rfl

theorem requestSalt_of_echo {stream : CryptoStream M} {requestSalt : Option Bytes}
    (hsalt : stream.enc.salt = nonce) (hnonce : nonce ≠ [])
    (h : stream.sentNonce? = requestSalt.filter fun n => n ≠ []) : requestSalt = some nonce := by
  rw [CryptoStream.sentNonce?, hsalt, if_neg hnonce] at h
  exact (Option.filter_eq_some_iff.mp h.symm).1

theorem client_tracks (hhonest : Honest M sessions) (hr : r = .withUserManager M .client key none)
    (hnonce : nonce.length = M.kind.saltLen)
    (hsmall : ∀ key salt T, sessions key salt = some T → T.rest.length + 1 < 2 ^ 64) (env : ReadEnv)
    {s : ProxyClientStream M} (h : ClientTracks sessions r key nonce W D s) :
    SoundStep ClientSocketError (ClientTracks sessions r key nonce W)
      (fun D s => AtEnd sessions r key W D s.stream.dec) cap D (s.pollRead env cap) := by
  obtain ⟨hreader, hsalt, hanswers⟩ := h
  have hne : nonce ≠ [] := by
    rw [← length_pos_iff, hnonce]
    exact M.kind.saltLen_pos
  have hstep : SoundStep _ _ _ cap D _ :=
    pollIn_tracks hhonest (by rw [hr]; rfl) (by rw [hr]; rfl) env hreader
  have hfst := CryptoStream.pollReadDecrypted_fst env cap s.stream
  have hdec := CryptoStream.pollReadDecrypted_dec env cap s.stream
  have henc := CryptoStream.pollReadDecrypted_salt env cap s.stream
  unfold ProxyClientStream.pollRead
  rcases hp : s.stream.pollReadDecrypted env cap with ⟨x, stream⟩
  rw [hp] at hfst hdec henc
  rw [← Prod.eta (pollIn env cap s.stream.dec), ← hfst, ← hdec] at hstep
  rw [hsalt] at henc
  cases hstep with
  | pending _ h => exact .pending _ ⟨h, henc, hanswers⟩
  | error e _ h => exact .error _ _ fun he => ⟨h he, henc, hanswers⟩
  | ready bs _ h heof =>
    cases hstate : s.readerState with
    | established => exact .ready bs _ ⟨h, henc, fun _ => hanswers (.inr hstate)⟩ heof
    | checkRequestNonce =>
      have hclient := h.client hr hsmall
      simp only
      split
      · rename_i hcount
        split
        · exact .error _ _ fun he => absurd he id
        rename_i hecho
        rcases hclient with ⟨hzero, _⟩ | ⟨T, hT, hreq, _⟩
        · rw [currentDataChunkRemaining_fst, hzero] at hcount
          exact absurd hcount (by decide)
        · refine .ready bs _ ⟨h, henc, fun _ => ⟨T, hT, ?_⟩⟩ heof
          exact requestSalt_of_echo henc hne
            ((not_not.mp hecho).trans (congrArg _ hreq))
      rename_i hcount
      have hnil : D ++ bs = [] := by
        rcases hclient with ⟨_, hnil⟩ | ⟨T, _, _, hpos⟩
        · exact hnil
        · by_contra hne
          exact hcount (currentDataChunkRemaining_fst _ ▸ hpos hne)
      refine .ready bs _ ⟨h, henc, fun ha => ?_⟩ heof
      rcases ha with ha | ha
      · exact absurd hnil ha
      · cases ha

end

theorem client_sound (hhonest : Honest M sessions)
    (hsmall : ∀ key salt T, sessions key salt = some T → T.rest.length + 1 < 2 ^ 64) :
    ClientIntegrity M sessions ClientSocketError := by
  intro r key nonce hr hnonce identityKeys addr sock context events
  refine sound_of_inv (I := ClientTracks sessions r key nonce (sockBytes sock))
    (fun D s env cap h => client_tracks hhonest hr hnonce hsmall env.2 ?_) (fun D s h => ?_) ?_
  · refine actAll_ind (fun op s h => ?_) env.1 h
    obtain ⟨hdec, hsalt, hstate⟩ := client_writeAct op s
    exact ⟨hdec ▸ h.reader, hsalt.trans h.salt, hstate ▸ h.answers⟩
  · rcases Classical.em (D = []) with hnil | hne
    · exact .inl hnil
    obtain ⟨T, hT, hreq⟩ := h.answers (.inl hne)
    refine .inr ⟨T, hT, hreq, ?_⟩
    rcases h.reader.delivers with hnil | ⟨userKey, T', htrust, hT', hD⟩
    · exact absurd hnil hne
    subst hr
    have hkey : userKey = key := htrust
    rw [hkey, hT] at hT'
    cases hT'
    exact hD
  · subst hr
    exact ⟨.header rfl, rfl, fun ha => ha.elim (absurd rfl) (fun ha => nomatch ha)⟩

/-! ## 5. Both versions -/

/-- **Stream integrity.** Under an ideal AEAD readers and clients keep to one honest session, if polled again only
after socket errors. -/
theorem streamIntegrity (M₁ : V1.AeadMethod) (key : Bytes) (sessions₁ : Bytes → List Bytes)
    (h₁ : V1.Honest M₁ key sessions₁) (M₂ : Method) (sessions₂ : Sessions) (h₂ : Honest M₂ sessions₂) :
    V1.Integrity M₁ key sessions₁ V1.SocketError ∧ Integrity M₂ sessions₂ SocketError ∧
      ((∀ key salt T, sessions₂ key salt = some T → T.rest.length + 1 < 2 ^ 64) →
        ClientIntegrity M₂ sessions₂ ClientSocketError) :=
  ⟨V1.sound h₁, sound h₂, client_sound h₂⟩

def recordedMethod (sessions : Sessions) : Method where
  kind := .blake3Aes128Gcm
  aead := .recorded fun (k : Bytes × Bytes) n => sessions.table k.1 k.2 n
  subkey key salt := (key, salt)
  prim := .transparent

theorem recordedMethod_honest (sessions : Sessions) : Honest (recordedMethod sessions) sessions :=
  fun key salt => Aead.recorded_ideal _ (key, salt)

def oneResponse : Sessions := fun key salt =>
  if key = plainSetup.serverKey ∧ salt = plainSetup.serverSalt then
    some ⟨.server, 0, some plainSetup.clientSalt, [7], [[8]], by decide⟩
  else none

theorem streamIntegrity_recorded : V1.Integrity (V1.recordedMethod V1.twoBuffers) [1] V1.twoBuffers V1.SocketError ∧
      Integrity (recordedMethod oneResponse) oneResponse SocketError ∧
      ClientIntegrity (recordedMethod oneResponse) oneResponse ClientSocketError := by
  have h := streamIntegrity (V1.recordedMethod V1.twoBuffers) [1] V1.twoBuffers
    (V1.recordedMethod_honest [1] V1.twoBuffers) (recordedMethod oneResponse) oneResponse
    (recordedMethod_honest oneResponse)
  refine ⟨h.1, h.2.1, h.2.2 fun key salt T hT => ?_⟩
  unfold oneResponse at hT
  split at hT
  · cases hT
    decide
  · cases hT

/-- **Polled again after an error of its own**, a reader may skip a chunk, and one given a cut header reports a clean
end. -/
theorem streamIntegrity_fails : (V1.Honest (V1.recordedMethod V1.twoBuffers) [1] V1.twoBuffers ∧
        ¬ V1.Integrity (V1.recordedMethod V1.twoBuffers) [1] V1.twoBuffers (fun _ => True)) ∧
      Honest (recordedMethod oneResponse) oneResponse ∧
        ¬ Integrity (recordedMethod oneResponse) oneResponse (fun _ => True) := by
  refine ⟨⟨V1.recordedMethod_honest _ _, V1.skips_chunk⟩, recordedMethod_honest _, fun h => ?_⟩
  have heof := (h _ .server plainSetup.serverKey none rfl [.data [0]] emptyContext).atEof
    [(⟨0, 0, emptyContext⟩, 4)] ⟨0, 0, emptyContext⟩ 4 (fun _ _ => trivial) (by decide) (by decide)
  rcases heof with ⟨-, hw⟩ | ⟨salt, userKey, eih, T, pre, post, hsalt, -, hT, -⟩
  · revert hw
    decide
  -- no session has a salt of one byte
  rw [hsalt] at hT
  unfold oneResponse at hT
  rw [if_neg fun hk => absurd hk.2 (by decide)] at hT
  cases hT

/-! ## 6. The server -/

section

variable {sessions : Sessions} {key W D : Bytes} {users : Option ServerUserManager}

def ServerTracks (sessions : Sessions) (key : Bytes) (users : Option ServerUserManager) (W D : Bytes)
    (s : ProxyServerStream M) : Prop :=
  s.hasHandshaked = true ∧ ReaderTracks sessions (.withUserManager M .server key users) key W D s.stream.dec

theorem ServerTracks.poll (hhonest : Honest M sessions) {s : ProxyServerStream M}
    (h : ServerTracks sessions key users W D s) (env : ReadEnv) (cap : Nat) :
    SoundStep (fun _ => False) (ServerTracks sessions key users W) (fun _ _ => True) cap D (s.pollRead env cap) := by
  rw [ProxyServerStream.pollRead_eq h.1]
  refine (pollIn_tracks hhonest rfl rfl env h.2).map .protocol rfl (fun _ => False.elim) (fun D hD => ⟨h.1, ?_⟩)
    fun _ => trivial
  rwa [CryptoStream.pollReadDecrypted_dec]

def Asked (M : Method) (sessions : Sessions) (key : Bytes) (users : Option ServerUserManager) (W : Bytes)
    (target : Address) (D : Bytes) : Prop :=
  ∃ userKey T header size, Trusted (.withUserManager M .server key users) key userKey ∧
    sessions userKey (W.take M.kind.saltLen) = some T ∧
    ReadCode.Returns eofError (Aead2022TcpRequestHeader.readFrom .address : ReadCode False StreamError _) header
      ⟨target, size⟩ [] ∧
    header ++ D <+: T.payload

/-- **A server relays an honest session**, whatever arrives: its target, and what it sent there. -/
theorem relayed_asked (hhonest : Honest M sessions) {nonce : Bytes} {sock : ReadSock} {context : Context}
    {events : List WriteEvent} {envs envs' : List ReadEnv} {target : Address} {s : ProxyServerStream M}
    (h : ProxyServerStream.handshake (.fromStreamWithUserManager M key nonce users sock context events) envs =
      (.done target, s, envs')) {polls : List (ReadEnv × Nat)}
    (hok : ∀ e, Poll.error e ∉ runPolls ProxyServerStream.pollRead s polls) :
    Asked M sessions key users (sockBytes sock) target (delivered (runPolls ProxyServerStream.pollRead s polls)) := by
  rw [ProxyServerStream.handshake, if_neg (by simp [ProxyServerStream.fromStreamWithUserManager])] at h
  obtain ⟨before, hend, hdone⟩ := h ▸ handshakeOnce_takes _ envs
  obtain ⟨hfirst, size, hheader⟩ := hdone target rfl
  obtain rfl : s = _ := hend
  -- the polls of the handshake and those after it are one run of the reader
  have hall : ∀ e, Poll.error e ∈ runPolls ProxyServerStream.pollRead _ (before ++ polls) → False :=
    fun e he => (mem_append.mp (runPolls_append _ before polls ▸ he)).elim (hfirst e) (hok e)
  have htracks : ServerTracks sessions key users (sockBytes sock) _ _ :=
    sound_after (fun _ _ env cap ht => ht.poll hhonest env cap) ⟨rfl, .header rfl⟩ hall
  rw [runPolls_append, delivered_append, nil_append] at htracks
  rcases htracks.2.delivers with hnil | ⟨userKey, T, htrust, hT, hpre⟩
  · rw [(append_eq_nil_iff.mp hnil).1, ReadCode.returns_iff] at hheader
    cases hheader
  · exact ⟨userKey, T, _, size, htrust, hT, hheader, hpre⟩

end

def someRequest : Transcript := ⟨.client, 0, none, requestPrefix [] someTarget ++ [7], [[8]], by decide⟩

def oneRequest : Sessions := fun key salt =>
  if key = plainSetup.serverKey ∧ salt = plainSetup.clientSalt then some someRequest else none

def requestSock : ReadSock :=
  [.data (plainSetup.clientSalt ++ (someRequest.records.mapIdx fun n p => p ++ [UInt8.ofNat n]).flatten)]

def requestHandshake :=
  ProxyServerStream.handshake (.fromStreamWithUserManager (recordedMethod oneRequest) plainSetup.serverKey
    plainSetup.serverSalt none requestSock emptyContext []) (replicate 4 ⟨0, 0, emptyContext⟩)

theorem relayed_asked_request : requestHandshake.1 = .done someTarget ∧
      Asked (recordedMethod oneRequest) oneRequest plainSetup.serverKey none (sockBytes requestSock) someTarget
        [7, 8] := by
  have hdone : requestHandshake.1 = .done someTarget := by decide +kernel
  have hrun : requestHandshake = (.done someTarget, requestHandshake.2.1, requestHandshake.2.2) := Prod.ext hdone rfl
  have hpolls : runPolls ProxyServerStream.pollRead requestHandshake.2.1 (replicate 2 (⟨0, 0, emptyContext⟩, 4)) =
      [.ready [7], .ready [8]] := by decide +kernel
  have hasked := relayed_asked (recordedMethod_honest oneRequest) hrun (by rw [hpolls]; simp)
  exact ⟨hdone, hasked⟩

end Shadowsocks.Tcp.V2
