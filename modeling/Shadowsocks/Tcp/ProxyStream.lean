/-
  Subject:   THE PROXIED STREAMS OF AEAD-2022 (`crates/shadowsocks/src/relay/tcprelay/crypto_io.rs` and
  `proxy_stream/`): client and server on top of a reader and a writer.
-/
import Shadowsocks.Relay.Address
import Shadowsocks.Tcp.Aead2022

namespace Shadowsocks.Tcp.V2

open Lib List

variable {M : Method}

/-! ## 1. Both halves of a stream -/

inductive StreamError where
  | protocol (e : ProtocolError)
  | address (e : Socks5.Error)
  | other (msg : String)
  deriving DecidableEq

structure CryptoStream (M : Method) where
  dec : ReaderIo M
  enc : EncryptedWriter M
  hasHandshaked : Bool

def CryptoStream.fromStreamWithIdentity (M : Method) (streamTy : StreamType) (key nonce : Bytes)
    (identityKeys : List Bytes) (userManager : Option ServerUserManager) (readSock : ReadSock)
    (context : Context) (events : List WriteEvent) : CryptoStream M where
  dec := ⟨.withUserManager M streamTy key userManager, readSock, context⟩
  enc := .withIdentity M streamTy key nonce identityKeys ⟨events, []⟩
  hasHandshaked := false

def EncryptedWriter.keyed (w : EncryptedWriter M) : Option Bytes → EncryptedWriter M
  | some userKey => w.resetCipherWithKey userKey
  | none => w

def CryptoStream.pollReadDecrypted (env : ReadEnv) (cap : Nat) (s : CryptoStream M) :
    Poll ProtocolError Bytes × CryptoStream M :=
  match pollIn env cap s.dec with
  | (.pending, dec) => (.pending, { s with dec := dec })
  | (.error e, dec) => (.error e, { s with dec := dec })
  | (.ready bs, dec) =>
    if !s.hasHandshaked && dec.reader.hasHandshaked then
      (.ready bs, { dec := dec
                    enc := s.enc.keyed dec.reader.userKey
                    hasHandshaked := true })
    else (.ready bs, { s with dec := dec })

def CryptoStream.sentNonce? (s : CryptoStream M) : Option Bytes :=
  if s.enc.salt = [] then none else some s.enc.salt

structure WriteEnv where
  timestamp : UInt64
  padding : Bytes

inductive WriteError where
  | io (e : IoError)
  | panicked
  deriving DecidableEq

def CryptoStream.pollWriteEncrypted (env : WriteEnv) (buf : Bytes) (s : CryptoStream M) :
    Poll WriteError Nat × CryptoStream M :=
  match V2.pollWriteEncrypted env.timestamp buf s.enc with
  | (.pending, enc) => (.pending, { s with enc := enc })
  | (.error e, enc) => (.error (.io e), { s with enc := enc })
  | (.ready n, enc) => (.ready n, { s with enc := enc })

/-! ## 2. The client -/

inductive ClientWriteState where
  | connect (addr : Address)
  | connecting (buffer : Bytes)
  | connected

inductive ClientReadState where
  | checkRequestNonce
  | established

structure ProxyClientStream (M : Method) where
  stream : CryptoStream M
  writerState : ClientWriteState
  readerState : ClientReadState

def ProxyClientStream.fromStream (M : Method) (key nonce : Bytes) (identityKeys : List Bytes)
    (addr : Address) (readSock : ReadSock) (context : Context) (events : List WriteEvent) :
    ProxyClientStream M where
  stream := .fromStreamWithIdentity M .client key nonce identityKeys none readSock context events
  writerState := .connect addr
  readerState := .checkRequestNonce

def ProxyClientStream.pollRead (env : ReadEnv) (cap : Nat) (s : ProxyClientStream M) :
    Poll StreamError Bytes × ProxyClientStream M :=
  match s.stream.pollReadDecrypted env cap with
  | (.pending, stream) => (.pending, { s with stream := stream })
  | (.error e, stream) => (.error (.protocol e), { s with stream := stream })
  | (.ready bs, stream) =>
    match s.readerState with
    | .established => (.ready bs, { s with stream := stream })
    | .checkRequestNonce =>
      if 0 < stream.dec.reader.currentDataChunkRemaining.1 then
        if stream.sentNonce? ≠ stream.dec.reader.receivedRequestSalt then
          (.error (.other "received TCP response header with unmatched salt"), { s with stream := stream })
        else (.ready bs, { s with stream := stream, readerState := .established })
      else (.ready bs, { s with stream := stream })

def makeFirstPacketBuffer {ε : Type} (padding : Bytes) (addr : Address) (buf : Bytes) :
    Outcome ε Bytes := do
  let padding := if buf = [] then padding else []
  let bytes ← addr.writeToBuf
  return bytes ++ (put16 (UInt16.ofNat padding.length) ++ (padding ++ buf))

def ProxyClientStream.pollConnecting (env : WriteEnv) (buffer buf : Bytes)
    (s : ProxyClientStream M) : Poll WriteError Nat × ProxyClientStream M :=
  match s.stream.pollWriteEncrypted env buffer with
  | (.pending, stream) => (.pending, { s with stream := stream, writerState := .connecting buffer })
  | (.error e, stream) => (.error e, { s with stream := stream, writerState := .connecting buffer })
  | (.ready _, stream) =>
    (.ready buf.length, { s with stream := stream, writerState := .connected })

def ProxyClientStream.pollWrite (buf : Bytes) (env : WriteEnv) (s : ProxyClientStream M) :
    Poll WriteError Nat × ProxyClientStream M :=
  match s.writerState with
  | .connect addr =>
    match makeFirstPacketBuffer (ε := Empty) env.padding addr buf with
    | .ok buffer => s.pollConnecting env buffer buf
    | .panic => (.error .panicked, s)
  | .connecting buffer => s.pollConnecting env buffer buf
  | .connected =>
    match s.stream.pollWriteEncrypted env buf with
    | (r, stream) => (r, { s with stream := stream })

/-! ## 3. The server -/

inductive ServerWriteState where
  | prepareHeader
  | established

structure ProxyServerStream (M : Method) where
  stream : CryptoStream M
  writerState : ServerWriteState
  hasHandshaked : Bool

def ProxyServerStream.fromStreamWithUserManager (M : Method) (key nonce : Bytes)
    (userManager : Option ServerUserManager) (readSock : ReadSock) (context : Context)
    (events : List WriteEvent) : ProxyServerStream M where
  stream := .fromStreamWithIdentity M .server key nonce [] userManager readSock context events
  writerState := .prepareHeader
  hasHandshaked := false

def ProxyServerStream.userKey (s : ProxyServerStream M) : Option Bytes := s.stream.dec.reader.userKey

def ProxyServerStream.pollRead (env : ReadEnv) (cap : Nat) (s : ProxyServerStream M) :
    Poll StreamError Bytes × ProxyServerStream M :=
  if s.hasHandshaked then
    match s.stream.pollReadDecrypted env cap with
    | (.pending, stream) => (.pending, { s with stream := stream })
    | (.error e, stream) => (.error (.protocol e), { s with stream := stream })
    | (.ready bs, stream) => (.ready bs, { s with stream := stream })
  else (.error (.other "stream is not handshaked yet"), s)

def ProxyServerStream.pollWrite (buf : Bytes) (env : WriteEnv) (s : ProxyServerStream M) :
    Poll WriteError Nat × ProxyServerStream M :=
  match s.writerState with
  | .established =>
    match s.stream.pollWriteEncrypted env buf with
    | (r, stream) => (r, { s with stream := stream })
  | .prepareHeader =>
    match s.stream.dec.reader.salt with
    | none => (.pending, s)
    | some nonce =>
      match { s.stream with enc := s.stream.enc.setRequestSalt nonce }.pollWriteEncrypted env buf with
      | (r, stream) => (r, { s with stream := stream, writerState := .established })

def eofError : StreamError := .protocol (.ioError .unexpectedEof)

def readRequestHeader : Async (ProxyServerStream M) ReadEnv StreamError (Address × UInt16) := do
  let addr ← Address.readFrom ProxyServerStream.pollRead eofError .address
  let paddingSizeBuffer ← readExact ProxyServerStream.pollRead eofError 2
  let paddingSize := get16 paddingSizeBuffer
  skip ProxyServerStream.pollRead 64 paddingSize.toNat
  pure (addr, paddingSize)

def checkPadding (paddingSize : UInt16) : Async (ProxyServerStream M) ReadEnv StreamError Unit :=
  fun s envs =>
    if paddingSize = 0 ∧ s.stream.dec.reader.currentDataChunkRemaining = (1, 0) then
      (.failed (.other "no payload in first data chunk, and padding is 0"), s, envs)
    else (.done (), s, envs)

def handshakeOnce : Async (ProxyServerStream M) ReadEnv StreamError Address := do
  let (addr, paddingSize) ← readRequestHeader
  checkPadding paddingSize
  pure addr

def ProxyServerStream.handshake : Async (ProxyServerStream M) ReadEnv StreamError Address :=
  fun s envs =>
    if s.hasHandshaked then (.failed (.other "stream is already handshaked"), s, envs)
    else handshakeOnce { s with hasHandshaked := true } envs

/-! ## 4. Reads -/

section

variable (env : ReadEnv) (cap : Nat) (s : CryptoStream M)

@[simp] theorem CryptoStream.pollReadDecrypted_fst : (s.pollReadDecrypted env cap).1 = (pollIn env cap s.dec).1 := by
  unfold pollReadDecrypted
  rcases pollIn env cap s.dec with ⟨r | bs | e, dec⟩
  · rfl
  · simp only
    split <;> rfl
  · rfl

@[simp] theorem CryptoStream.pollReadDecrypted_dec :
    (s.pollReadDecrypted env cap).2.dec = (pollIn env cap s.dec).2 := by
  unfold pollReadDecrypted
  rcases pollIn env cap s.dec with ⟨r | bs | e, dec⟩
  · rfl
  · simp only
    split <;> rfl
  · rfl

@[simp] theorem CryptoStream.pollReadDecrypted_salt : (s.pollReadDecrypted env cap).2.enc.salt = s.enc.salt := by
  unfold pollReadDecrypted
  rcases pollIn env cap s.dec with ⟨r | bs | e, dec⟩
  · rfl
  · simp only
    split
    · cases dec.reader.userKey <;> rfl
    · rfl
  · rfl

variable {env cap s}

theorem CryptoStream.pollReadDecrypted_handshaked (h : s.hasHandshaked = true) :
    (s.pollReadDecrypted env cap).2 = { s with dec := (pollIn env cap s.dec).2 } := by
  unfold pollReadDecrypted
  rcases pollIn env cap s.dec with ⟨r | bs | e, dec⟩
  · rfl
  · simp only [h, Bool.not_true, Bool.false_and, Bool.false_eq_true, if_false]
  · rfl

theorem CryptoStream.pollReadDecrypted_anonymous (h : Anonymous s.dec.reader) :
    (s.pollReadDecrypted env cap).2.enc = s.enc := by
  have huser := (pollIn_anonymous env cap h).2
  unfold pollReadDecrypted
  rcases hr : pollIn env cap s.dec with ⟨r, dec⟩
  rw [hr] at huser
  simp only at huser
  cases r with
  | pending | error e => rfl
  | ready bs =>
    simp only [huser]
    split <;> rfl

end

section

variable {env : ReadEnv} {cap : Nat} {s : ProxyClientStream M}

theorem ProxyClientStream.pollRead_snd (env : ReadEnv) (cap : Nat) (s : ProxyClientStream M) :
    ∃ readerState, (s.pollRead env cap).2 = ⟨(s.stream.pollReadDecrypted env cap).2, s.writerState, readerState⟩ := by
  unfold pollRead
  rcases s.stream.pollReadDecrypted env cap with ⟨r | bs | e, stream⟩
  · exact ⟨_, rfl⟩
  · simp only
    split
    · exact ⟨_, rfl⟩
    · split
      · split <;> exact ⟨_, rfl⟩
      · exact ⟨_, rfl⟩
  · exact ⟨_, rfl⟩

theorem ProxyClientStream.pollRead_fst (hsalt : s.stream.enc.salt ≠ [])
    (hecho : 0 < (pollIn env cap s.stream.dec).2.reader.currentDataChunkRemaining.1 →
      (pollIn env cap s.stream.dec).2.reader.receivedRequestSalt = some s.stream.enc.salt) :
    (s.pollRead env cap).1 = (pollIn env cap s.stream.dec).1.mapError .protocol := by
  have hfst := CryptoStream.pollReadDecrypted_fst env cap s.stream
  have hdec := CryptoStream.pollReadDecrypted_dec env cap s.stream
  have hs := CryptoStream.pollReadDecrypted_salt env cap s.stream
  unfold pollRead
  rw [← hdec] at hecho
  rw [← hfst]
  rcases hr : s.stream.pollReadDecrypted env cap with ⟨r, stream⟩
  rw [hr] at hecho hs
  cases r with
  | pending | error e => rfl
  | ready bs =>
    simp only
    split
    · rfl
    split
    · rename_i hcount
      rw [CryptoStream.sentNonce?, hs, if_neg hsalt, hecho hcount, if_neg (not_not_intro rfl)]
      rfl
    · rfl

end

def ClientReading (I : ReaderIo M → Bytes → Prop) (salt : Bytes) (s : ProxyClientStream M)
    (X : Bytes) : Prop :=
  I s.stream.dec X ∧ s.stream.enc.salt = salt

def ServerReading (I : ReaderIo M → Bytes → Prop) (s : ProxyServerStream M) (X : Bytes) : Prop :=
  I s.stream.dec X ∧ s.hasHandshaked = true

section

variable {I : ReaderIo M → Bytes → Prop} {okIn : ReadEnv → ReaderIo M → Prop}

theorem client_serves (hS : Serves pollIn okIn I readMeasure) {salt : Bytes} (hsalt : salt ≠ [])
    (hecho : ∀ dec X, I dec X → 0 < dec.reader.currentDataChunkRemaining.1 →
      dec.reader.receivedRequestSalt = some salt) :
    Serves ProxyClientStream.pollRead (fun env s => okIn env s.stream.dec) (ClientReading I salt)
      (fun s => readMeasure s.stream.dec) := by
  rintro s X env cap ⟨hI, rfl⟩ henv hcap
  have hstep := hS s.stream.dec X env cap hI henv hcap
  obtain ⟨readerState, hsnd⟩ := s.pollRead_snd env cap
  have hafter : ∃ Y, I (pollIn env cap s.stream.dec).2 Y := by
    rcases hr : pollIn env cap s.stream.dec with ⟨r, dec⟩
    rw [hr] at hstep
    cases hstep with
    | pending _ h _ => exact ⟨X, h⟩
    | data bs Y _ _ _ h _ => exact ⟨Y, h⟩
    | eof _ _ h => exact ⟨[], h⟩
  obtain ⟨Y₀, hY₀⟩ := hafter
  refine hstep.transfer .protocol (ProxyClientStream.pollRead_fst hsalt (hecho _ Y₀ hY₀))
    (fun Y h => ?_) ?_ rfl
  · rw [hsnd]
    exact ⟨by rw [CryptoStream.pollReadDecrypted_dec]; exact h, CryptoStream.pollReadDecrypted_salt _ _ _⟩
  · rw [hsnd]
    exact congrArg readMeasure (CryptoStream.pollReadDecrypted_dec _ _ _)

theorem ProxyServerStream.pollRead_eq {env : ReadEnv} {cap : Nat} {s : ProxyServerStream M}
    (h : s.hasHandshaked = true) : s.pollRead env cap = ((pollIn env cap s.stream.dec).1.mapError .protocol,
      { s with stream := (s.stream.pollReadDecrypted env cap).2 }) := by
  rw [pollRead, if_pos h, ← CryptoStream.pollReadDecrypted_fst]
  rcases s.stream.pollReadDecrypted env cap with ⟨r | bs | e, stream⟩ <;> rfl

theorem server_serves (hS : Serves pollIn okIn I readMeasure) :
    Serves ProxyServerStream.pollRead (fun env s => okIn env s.stream.dec) (ServerReading I)
      (fun s => readMeasure s.stream.dec) := by
  rintro s X env cap ⟨hI, hs⟩ henv hcap
  have hdec := CryptoStream.pollReadDecrypted_dec env cap s.stream
  rw [ProxyServerStream.pollRead_eq hs]
  refine (hS s.stream.dec X env cap hI henv hcap).transfer .protocol rfl (fun Y h => ⟨?_, hs⟩) ?_ rfl
  · rw [hdec]
    exact h
  · exact congrArg readMeasure hdec

theorem server_bounded : Bounded (ProxyServerStream.pollRead (M := M)) := by
  intro env cap s bs s' h
  by_cases hs : s.hasHandshaked = true
  · rw [ProxyServerStream.pollRead_eq hs] at h
    have hready := Poll.mapError_ready.mp (congrArg Prod.fst h)
    exact pollIn_bounded env cap _ bs _ (Prod.ext hready rfl)
  · rw [ProxyServerStream.pollRead, if_neg hs] at h
    cases h

end

/-! ## 5. The handshake of a server -/

variable {ok : ReadEnv → Prop}

structure ServerOpening (S : Session M ok) (enc : EncryptedWriter M) (s : ProxyServerStream M)
    (X : Bytes) : Prop where
  reading : ServerReading (ReaderInStep S) s X
  unwritten : s.writerState = .prepareHeader
  writer : s.stream.hasHandshaked = false ∧ s.stream.enc = enc ∧ X = S.payload ∨
    s.stream.hasHandshaked = true ∧ s.stream.enc = enc.keyed S.after.userKey

section

variable {S : Session M ok} {enc : EncryptedWriter M} {s : CryptoStream M}

theorem CryptoStream.pollReadDecrypted_reset {env : ReadEnv} {cap : Nat}
    {bs : Bytes} (hready : (pollIn env cap s.dec).1 = .ready bs)
    (hopen : S.Opened (pollIn env cap s.dec).2.reader) (hs : s.hasHandshaked = false) :
    (s.pollReadDecrypted env cap).2.hasHandshaked = true ∧
      (s.pollReadDecrypted env cap).2.enc = s.enc.keyed S.after.userKey := by
  unfold pollReadDecrypted
  rcases hr : pollIn env cap s.dec with ⟨r, dec⟩
  rw [hr] at hready hopen
  subst hready
  have hhand : dec.reader.hasHandshaked = true := by rw [hopen]
  have huser : dec.reader.userKey = S.after.userKey := by rw [hopen]
  simp only [hs, hhand, huser]
  exact ⟨rfl, rfl⟩

theorem CryptoStream.pollReadDecrypted_pending {env : ReadEnv} {cap : Nat}
    (h : (pollIn env cap s.dec).1 = .pending) :
    (s.pollReadDecrypted env cap).2 = { s with dec := (pollIn env cap s.dec).2 } := by
  unfold pollReadDecrypted
  rcases hr : pollIn env cap s.dec with ⟨r, dec⟩
  rw [hr] at h
  subst h
  rfl

theorem opening_serves (hinv : M.aead.Inverts) (hne : S.payload ≠ []) :
    Serves ProxyServerStream.pollRead (fun env s => Awaiting s.stream.dec.reader → ok env)
      (ServerOpening S enc) (fun s => readMeasure s.stream.dec) := by
  rintro s X env cap ⟨⟨hI, hs⟩, hunw, hwriter⟩ henv hcap
  have hdec := CryptoStream.pollReadDecrypted_dec env cap s.stream
  have hread : ∀ {Y}, ReaderInStep S (pollIn env cap s.stream.dec).2 Y → ServerReading (ReaderInStep S)
        { s with stream := (s.stream.pollReadDecrypted env cap).2 } Y :=
    fun h => ⟨by rw [hdec]; exact h, hs⟩
  have hkeep : s.stream.hasHandshaked = true ∧ s.stream.enc = enc.keyed S.after.userKey →
      (s.stream.pollReadDecrypted env cap).2.hasHandshaked = true ∧
        (s.stream.pollReadDecrypted env cap).2.enc = enc.keyed S.after.userKey := by
    rintro ⟨h, he⟩
    rw [CryptoStream.pollReadDecrypted_handshaked h]
    exact ⟨h, he⟩
  rw [ProxyServerStream.pollRead_eq hs]
  refine (pollIn_serves hinv S s.stream.dec X env cap hI henv hcap).transfer_cases .protocol rfl
    (fun hp h => ⟨hread h, hunw, ?_⟩) (fun bs Y hb hbs hX h => ⟨hread h, hunw, .inr ?_⟩)
    (fun _ hX h => ⟨hread h, hunw, .inr ?_⟩) (congrArg readMeasure hdec) rfl
  · rcases hwriter with ⟨h0, he, hX⟩ | hw
    · simp only [CryptoStream.pollReadDecrypted_pending hp]
      exact .inl ⟨h0, he, hX⟩
    · exact .inr (hkeep hw)
  · rcases hwriter with ⟨h0, he, hX'⟩ | hw
    · have hlt : Y.length < S.payload.length := by
        have := length_pos_of_ne_nil hbs
        rw [← hX', hX, length_append]
        omega
      have := CryptoStream.pollReadDecrypted_reset hb (h.opened hlt).1 h0
      rwa [he] at this
    · exact hkeep hw
  · rcases hwriter with ⟨h0, he, hX'⟩ | hw
    · exact absurd (hX'.symm.trans hX) hne
    · exact hkeep hw

def requestPrefix (padding : Bytes) (addr : Address) : Bytes :=
  addr.bytes ++ (put16 (UInt16.ofNat padding.length) ++ padding)

theorem requestPrefix_ne_nil (padding : Bytes) (addr : Address) : requestPrefix padding addr ≠ [] := by
  refine ne_nil_of_length_pos ?_
  rw [requestPrefix, length_append, length_append, put16_length]
  omega

variable {addr : Address}

theorem readRequestHeader_consumes {okS : ReadEnv → ProxyServerStream M → Prop}
    {I : ProxyServerStream M → Bytes → Prop} {μ : ProxyServerStream M → Nat}
    (hS : Serves ProxyServerStream.pollRead okS I μ) (haddr : addr.Fits) {padding : Bytes}
    (hpad : padding.length < 65536) :
    Consumes ProxyServerStream.pollRead okS I μ readRequestHeader (requestPrefix padding addr)
      (addr.asRead, UInt16.ofNat padding.length) := by
  refine consumes_bind (readFrom_bytes hS server_bounded eofError .address haddr) ?_
  refine consumes_bind (readExact_consumes hS server_bounded eofError (put16_length _)) ?_
  simp only [get16_put16]
  have hlen : padding.length = (UInt16.ofNat padding.length).toNat := by
    rw [UInt16.toNat_ofNat', Nat.mod_eq_of_lt hpad]
  exact consumes_last (skip_consumes hS server_bounded (by decide) hlen) rfl

variable {envs : List ReadEnv} {padding buf : Bytes}

abbrev FineOpening (ok : ReadEnv → Prop) : ProxyServerStream M → List ReadEnv → Prop :=
  Fine ProxyServerStream.pollRead fun env s => Awaiting s.stream.dec.reader → ok env

theorem readRequestHeader_opening (hinv : M.aead.Inverts) (haddr : addr.Fits)
    (hpad : padding.length < 65536) (hfirst : S.first = requestPrefix padding addr ++ buf) {s : ProxyServerStream M}
    (h : ServerOpening S enc s S.payload)
    (hfine : FineOpening ok s envs)
    (hlen : readMeasure s.stream.dec < envs.length) :
    ∃ s' envs', readRequestHeader s envs = (.done (addr.asRead, UInt16.ofNat padding.length), s', envs') ∧
      ServerOpening S enc s' (buf ++ S.rest.flatten) ∧ readMeasure s'.stream.dec < envs'.length ∧
      FineOpening ok s' envs' := by
  have hpayload : S.payload = requestPrefix padding addr ++ (buf ++ S.rest.flatten) := by
    rw [Session.payload, hfirst, append_assoc]
  have hne : S.payload ≠ [] := by
    rw [hpayload]
    exact append_ne_nil_of_left_ne_nil (requestPrefix_ne_nil padding addr) _
  exact readRequestHeader_consumes (opening_serves hinv hne) haddr hpad _ (buf ++ S.rest.flatten) envs
    (hpayload ▸ h) hfine hlen

theorem handshake_ok (hinv : M.aead.Inverts) (haddr : addr.Fits) (hpad : padding.length < 65536)
    (hfirst : S.first = requestPrefix padding addr ++ buf) (hsome : padding ≠ [] ∨ buf ≠ []) {s : ProxyServerStream M}
    (hs : s.hasHandshaked = false) (h : ServerOpening S enc { s with hasHandshaked := true } S.payload)
    (hfine : FineOpening ok { s with hasHandshaked := true } envs) (hlen : readMeasure s.stream.dec < envs.length) :
    ∃ s' envs', ProxyServerStream.handshake s envs = (.done addr.asRead, s', envs') ∧
      ServerOpening S enc s' (buf ++ S.rest.flatten) ∧ readMeasure s'.stream.dec < envs'.length ∧
      FineOpening ok s' envs' := by
  obtain ⟨s', envs', he, hI, hleft⟩ := readRequestHeader_opening hinv haddr hpad hfirst h hfine hlen
  refine ⟨s', envs', ?_, hI, hleft⟩
  have hcheck : ¬ (UInt16.ofNat padding.length = 0 ∧ s'.stream.dec.reader.currentDataChunkRemaining = (1, 0)) := by
    rintro ⟨hzero, hrem⟩
    have hpad0 : padding = [] := by
      have := congrArg UInt16.toNat hzero
      rw [UInt16.toNat_ofNat', Nat.mod_eq_of_lt hpad] at this
      exact length_eq_zero_iff.mp this
    have hbuf : 0 < buf.length := length_pos_of_ne_nil (hsome.resolve_left (absurd hpad0))
    have hprefix := length_pos_of_ne_nil (requestPrefix_ne_nil padding addr)
    -- part of the first chunk is left, so the reader is inside it
    have hin := hI.reading.1.firstChunk (by rw [length_append]; omega)
      (by simp only [Session.payload, hfirst, length_append]; omega)
    rw [hin, length_append] at hrem
    injection hrem with _ hrem
    omega
  have hdone : checkPadding (UInt16.ofNat padding.length) s' envs' = (.done (), s', envs') :=
    if_neg hcheck
  rw [ProxyServerStream.handshake, hs, if_neg (by decide), handshakeOnce, Async.bind_done he]
  exact (Async.bind_done hdone).trans rfl

theorem handshake_unpadded (hinv : M.aead.Inverts) (haddr : addr.Fits) (hfirst : S.first = requestPrefix [] addr)
    (hrest : S.rest = []) {s : ProxyServerStream M} (hs : s.hasHandshaked = false)
    (h : ServerOpening S enc { s with hasHandshaked := true } S.payload)
    (hfine : FineOpening ok { s with hasHandshaked := true } envs) (hlen : readMeasure s.stream.dec < envs.length) :
    ∃ s' envs', ProxyServerStream.handshake s envs =
      (.failed (.other "no payload in first data chunk, and padding is 0"), s', envs') := by
  have hfirst' : S.first = requestPrefix [] addr ++ [] := by rw [hfirst, append_nil]
  obtain ⟨s', envs', he, hI, -⟩ := readRequestHeader_opening hinv haddr (by decide) hfirst' h hfine hlen
  rw [hrest] at hI
  have hrem := hI.reading.1.onlyChunk (hfirst ▸ requestPrefix_ne_nil [] addr) hrest
  have hfail : checkPadding (UInt16.ofNat ([] : Bytes).length) s' envs' =
      (.failed (.other "no payload in first data chunk, and padding is 0"), s', envs') := if_pos ⟨rfl, hrem⟩
  refine ⟨s', envs', ?_⟩
  rw [ProxyServerStream.handshake, hs, if_neg (by decide), handshakeOnce, Async.bind_done he]
  exact Async.bind_failed hfail

end

end Shadowsocks.Tcp.V2
