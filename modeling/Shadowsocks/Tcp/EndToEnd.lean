/-
  Subject:   AN AEAD-2022 STREAM FROM END TO END: client, server and both directions.
-/
import Shadowsocks.Tcp.ProxyWrites

namespace Shadowsocks.Tcp.V2

open Lib List

variable {M : Method}

structure Setup where
  clientKey : Bytes
  identityKeys : List Bytes
  serverKey : Bytes
  users : Option ServerUserManager
  (clientSalt serverSalt : Bytes)

variable (E : Setup)

def Setup.client (M : Method) (addr : Address) (readSock : ReadSock) (context : Context)
    (events : List WriteEvent) : ProxyClientStream M :=
  .fromStream M E.clientKey E.clientSalt E.identityKeys addr readSock context events

def Setup.server (M : Method) (readSock : ReadSock) (context : Context)
    (events : List WriteEvent) : ProxyServerStream M :=
  .fromStreamWithUserManager M E.serverKey E.serverSalt E.users readSock context events

abbrev Between (O E : Type) := List O × E

def clientWrites (bufs : List Bytes) : Async (ProxyClientStream M)
    (Between (ReadEnv × Nat) WriteEnv) WriteError (List Nat) :=
  awaitEach (interleavedWrite ProxyClientStream.readAct ProxyClientStream.pollWrite) bufs

def serverWrites (bufs : List Bytes) : Async (ProxyServerStream M)
    (Between (ReadEnv × Nat) WriteEnv) WriteError (List Nat) :=
  awaitEach (interleavedWrite ProxyServerStream.readAct ProxyServerStream.pollWrite) bufs

def ServerOk (sent : UInt64) (env : ReadEnv) (s : ProxyServerStream M) : Prop :=
  Awaiting s.stream.dec.reader → InTime env.timestamp sent ∧ env.context.Admits .aead2022 env.now E.clientSalt

def ClientOk (sent : UInt64) (env : Between (Bytes × WriteEnv) ReadEnv) (s : ProxyClientStream M) :
    Prop :=
  Awaiting s.stream.dec.reader → InTime env.2.timestamp sent

def ClientReads (M : Method) (addr : Address) (sent : UInt64) (wire X : Bytes) : Prop :=
  ∀ sock context events, Orderly sock → sockBytes sock = wire → (wire ≠ [] →
      WholeFirst (DecryptedReader.withUserManager M .client E.clientKey none).headerLen sock) →
    Yields (interleaved ProxyClientStream.writeAct ProxyClientStream.pollRead) (ClientOk sent)
      (E.client M addr sock context events) X

def ServerAnswers (addr : Address) (replies : List Bytes) (s : ProxyServerStream M) :
    Prop :=
  ∀ envs, s.stream.enc.pot + replies.length ≤ envs.length →
    ∃ s' envs', serverWrites replies s envs = (.done (replies.map length), s', envs') ∧
      ∀ sent, (∀ env ∈ envs.head?, env.2.timestamp = sent) →
        ClientReads E M addr sent s'.stream.enc.wire replies.flatten

def ServerReads (M : Method) (sent : UInt64) (wire : Bytes) (target : Address)
    (userKey : Option Bytes) (payload : Bytes) (next : ProxyServerStream M → Prop) : Prop :=
  ∀ sock context events envs, Orderly sock → sockBytes sock = wire →
    WholeFirst (DecryptedReader.withUserManager M .server E.serverKey E.users).headerLen sock →
    Willing ⟨events, []⟩ →
    Fine ProxyServerStream.pollRead (ServerOk E sent)
      { E.server M sock context events with hasHandshaked := true } envs →
    sockWeight sock < envs.length →
    ∃ s envs', ProxyServerStream.handshake (E.server M sock context events) envs = (.done target, s, envs') ∧
      s.userKey = userKey ∧
      Yields (interleaved ProxyServerStream.writeAct ProxyServerStream.pollRead) (fun _ _ => True) s
        payload ∧
      next s

def FirstFits (addr : Address) (first padding : Bytes) : Prop :=
  (first ≠ [] ∨ padding ≠ []) ∧
    addr.serializedLen + 2 + (if first = [] then padding else []).length + first.length ≤ maxPacketSize

def EndToEnd (M : Method) (addr target : Address) (userKey : Option Bytes)
    (first : Bytes) (more replies : List Bytes) : Prop :=
  ∀ sock context events env envs, Willing ⟨events, []⟩ → FirstFits addr first env.2.padding →
    events.length + (more.length + 1) ≤ (env :: envs).length →
    ∃ s envs', clientWrites (first :: more) (E.client M addr sock context events) (env :: envs) =
        (.done ((first :: more).map length), s, envs') ∧
      ServerReads E M env.2.timestamp s.stream.enc.wire target userKey (first ++ more.flatten)
        (ServerAnswers E addr replies)

/-! ## The parts -/

section

variable {E : Setup} {userKey : Option Bytes} {addr : Address}

theorem clientReads_silent (hne : E.clientSalt ≠ []) (sent : UInt64) : ClientReads E M addr sent [] [] := by
  intro sock context events ho hb _
  have hin : ClientReading Silent E.clientSalt (E.client M addr sock context events) [] :=
    ⟨⟨⟨_, rfl⟩, rfl, hb, ho, rfl⟩, rfl⟩
  have hy := client_yields pollIn_silent hne
    (fun dec X h hcount => by
      obtain ⟨⟨key, hkey⟩, hzero, -⟩ := h
      rw [DecryptedReader.currentDataChunkRemaining, hkey, hzero] at hcount
      exact absurd hcount (UInt64.lt_irrefl 0)) hin
  exact hy.weaken fun _ _ _ => trivial

variable {sent : UInt64} {first : Bytes} (hinv : M.Inverts) {rest : List Bytes}

theorem responseSession_echo (hs : E.serverSalt.length = M.kind.saltLen)
    (hc : E.clientSalt.length = M.kind.saltLen)
    (hfits : ∀ c ∈ first :: rest, c.length ≤ maxPacketSize) (hne : E.clientSalt ≠ []) (dec : ReaderIo M) (X : Bytes)
    (h : ReaderInStep (responseSession hinv E.clientKey hs hc sent first rest hfits) dec X)
    (hcount : 0 < dec.reader.currentDataChunkRemaining.1) :
    dec.reader.receivedRequestSalt = some E.clientSalt := by
  cases h with
  | header => exact absurd hcount (UInt64.lt_irrefl 0)
  | chunks hstate hopen h =>
    have hreq : dec.reader.requestSalt = some E.clientSalt := by rw [hopen]; rfl
    rw [DecryptedReader.receivedRequestSalt, hreq]
    simp [hne]

theorem clientReads_response (hs : E.serverSalt.length = M.kind.saltLen)
    (hc : E.clientSalt.length = M.kind.saltLen) (hne : E.clientSalt ≠ [])
    (hfits : ∀ c ∈ first :: rest, c.length ≤ maxPacketSize) : ClientReads E M addr sent
      (responseSession hinv E.clientKey hs hc sent first rest hfits).wire (first ++ rest.flatten) := by
  intro sock context events ho hb hwhole
  have hwire : (responseSession hinv E.clientKey hs hc sent first rest hfits).wire ≠ [] := by
    refine append_ne_nil_of_left_ne_nil (ne_nil_of_length_pos ?_) _
    rw [Session.header_length]
    exact headerLen_pos _
  refine client_yields (pollIn_serves hinv.aead _) hne (responseSession_echo hinv hs hc hfits hne)
    ⟨.header hb ?_ ho, rfl⟩
  rw [Session.header_length]
  exact hwhole hwire

theorem Agree.keyed_cipher (h : Agree M E.clientKey E.identityKeys E.serverKey E.users userKey) (sock : WriteSock) :
    ((EncryptedWriter.withIdentity M .server E.serverKey E.serverSalt [] sock).keyed userKey).tx.cipher =
      ⟨M.subkey E.clientKey E.serverSalt, 0⟩ := by
  generalize E.clientKey = clientKey, E.identityKeys = identityKeys, E.serverKey = serverKey, E.users = users at h
  cases h with
  | plain | user => rfl

theorem keyed_withIdentity (key salt : Bytes) (sock : WriteSock) (userKey : Option Bytes) :
    ∃ cipher, (EncryptedWriter.withIdentity M .server key salt [] sock).keyed userKey =
      ⟨.server, ⟨cipher, salt, .assembleHeader (), sock⟩, salt, none⟩ := by
  have hbuffer : salt ++ M.eihBytes .server salt key [] = salt := by simp [Method.eihBytes]
  cases userKey with
  | none =>
    refine ⟨M.newCipher key salt, ?_⟩
    rw [EncryptedWriter.keyed, EncryptedWriter.withIdentity, hbuffer]
  | some userKey =>
    refine ⟨M.newCipher userKey salt, ?_⟩
    rw [EncryptedWriter.keyed, EncryptedWriter.resetCipherWithKey, EncryptedWriter.withIdentity, hbuffer]

theorem serverAnswers (hinv : M.Inverts) (hagree : Agree M E.clientKey E.identityKeys E.serverKey E.users userKey)
    (hc : E.clientSalt.length = M.kind.saltLen) (hs : E.serverSalt.length = M.kind.saltLen)
    {replies : List Bytes} (hfits : ∀ c ∈ replies, c.length ≤ maxPacketSize) {ok : ReadEnv → Prop}
    {S : Session M ok} (hsalt : S.after.salt = some E.clientSalt) {s : ProxyServerStream M}
    (h : ServerIn S .prepareHeader s) {events : List WriteEvent} (hwill : Willing ⟨events, []⟩)
    (henc : s.stream.enc = (EncryptedWriter.withIdentity M .server E.serverKey E.serverSalt []
      ⟨events, []⟩).keyed userKey) : ServerAnswers E addr replies s := by
  have hne : E.clientSalt ≠ [] := ne_nil_of_length_pos (hc ▸ M.kind.saltLen_pos)
  obtain ⟨cipher, hw⟩ := keyed_withIdentity (M := M) E.serverKey E.serverSalt ⟨events, []⟩ userKey
  have hcipher := hagree.keyed_cipher ⟨events, []⟩
  rw [hw] at henc hcipher
  subst hcipher
  intro envs hlen
  cases replies with
  | nil =>
    refine ⟨s, envs, rfl, fun sent _ => ?_⟩
    rw [henc]
    exact clientReads_silent hne sent
  | cons first rest =>
    cases envs with
    | nil => rw [length_cons, length_nil] at hlen; omega
    | cons env envs =>
      have hfresh : Fresh (responseSession hinv E.clientKey hs hc env.2.timestamp first rest hfits)
          env.2.timestamp (s.stream.enc.setRequestSalt E.clientSalt) := by
        rw [henc]
        exact ⟨rfl, rfl, hwill, rfl⟩
      obtain ⟨s', envs', he, hwire⟩ := server_writes hsalt h env envs hfresh hlen
      refine ⟨s', envs', he, fun sent hsent => ?_⟩
      obtain rfl := hsent env rfl
      rw [hwire]
      exact clientReads_response hinv hs hc hne hfits

theorem opening_server (hagree : Agree M E.clientKey E.identityKeys E.serverKey E.users userKey)
    (hc : E.clientSalt.length = M.kind.saltLen) {more : List Bytes}
    (hfits : ∀ c ∈ first :: more, c.length ≤ maxPacketSize) {sock : ReadSock} (context : Context)
    (events : List WriteEvent) (ho : Orderly sock)
    (hb : sockBytes sock = (requestSession hinv hagree hc sent first more hfits).wire)
    (hwhole : WholeFirst (DecryptedReader.withUserManager M .server E.serverKey E.users).headerLen sock) :
    ServerOpening (requestSession hinv hagree hc sent first more hfits)
      (.withIdentity M .server E.serverKey E.serverSalt [] ⟨events, []⟩)
      { E.server M sock context events with hasHandshaked := true }
      (requestSession hinv hagree hc sent first more hfits).payload := by
  refine ⟨⟨.header hb ?_ ho, rfl⟩, rfl, .inl ⟨rfl, rfl, rfl⟩⟩
  rwa [Session.header_length]

theorem serverReads (hagree : Agree M E.clientKey E.identityKeys E.serverKey E.users userKey)
    (hc : E.clientSalt.length = M.kind.saltLen) (hs : E.serverSalt.length = M.kind.saltLen) (haddr : addr.Fits)
    {padding : Bytes} {more replies : List Bytes}
    (hfits : ∀ c ∈ (requestPrefix padding addr ++ first) :: more, c.length ≤ maxPacketSize)
    (hsome : padding ≠ [] ∨ first ≠ []) (hreplies : ∀ c ∈ replies, c.length ≤ maxPacketSize) :
    ServerReads E M sent (requestSession hinv hagree hc sent (requestPrefix padding addr ++ first) more hfits).wire
      addr.asRead userKey (first ++ more.flatten) (ServerAnswers E addr replies) := by
  intro sock context events envs ho hb hwhole hwill hfine hlen
  have hpad : padding.length < 65536 := by
    have hle := hfits _ mem_cons_self
    rw [length_append, requestPrefix, length_append, length_append, maxPacketSize] at hle
    omega
  have hopening := opening_server hinv hagree hc hfits context events ho hb hwhole
  obtain ⟨s, envs', he, ⟨⟨hin, hhand⟩, hunw, hwriter⟩, -⟩ :=
    handshake_ok hinv.aead haddr hpad rfl hsome rfl hopening hfine hlen
  have hlt : (first ++ more.flatten).length < (requestSession hinv hagree hc sent
      (requestPrefix padding addr ++ first) more hfits).payload.length := by
    simp only [Session.payload, requestSession, requestPrefix, length_append, put16_length]
    omega
  have hopened := hin.opened hlt
  obtain ⟨hreset, henc⟩ := hwriter.resolve_left fun hw =>
    ne_of_lt hlt (congrArg length hw.2.2)
  refine ⟨s, envs', he, ?_, ?_, ?_⟩
  · rw [ProxyServerStream.userKey, hopened.1]
    rfl
  · exact server_yields (pollIn_serves_opened hinv.aead _) ⟨⟨hin, hopened⟩, hhand⟩
  · exact serverAnswers hinv hagree hc hs hreplies rfl ⟨hunw, hhand, hreset, hopened⟩ hwill henc

end

/-- **An AEAD-2022 stream from end to end**, with the address as the wire carries it. -/
theorem endToEnd (M : Method) (hinv : M.Inverts) (E : Setup) (userKey : Option Bytes)
    (hagree : Agree M E.clientKey E.identityKeys E.serverKey E.users userKey)
    (hc : E.clientSalt.length = M.kind.saltLen) (hs : E.serverSalt.length = M.kind.saltLen)
    (addr : Address) (haddr : addr.Fits) (first : Bytes) (more replies : List Bytes)
    (hmore : ∀ c ∈ more, c.length ≤ maxPacketSize) (hreplies : ∀ c ∈ replies, c.length ≤ maxPacketSize) :
    EndToEnd E M addr addr.asRead userKey first more replies := by
  intro sock context events env envs hwill hfirst hlen
  generalize hpad : (if first = [] then env.2.padding else []) = padding
  rw [FirstFits, hpad] at hfirst
  have hsome : padding ≠ [] ∨ first ≠ [] := by
    by_cases hf : first = []
    · rw [if_pos hf] at hpad
      exact .inl (hpad ▸ hfirst.1.resolve_left (absurd hf))
    · exact .inr hf
  have hfits : ∀ c ∈ (requestPrefix padding addr ++ first) :: more, c.length ≤ maxPacketSize := by
    intro c hmem
    rcases mem_cons.mp hmem with rfl | hmem
    · simp only [requestPrefix, length_append, Address.bytes_length, put16_length]
      omega
    · exact hmore c hmem
  have hfresh : Fresh (requestSession hinv hagree hc env.2.timestamp
      (requestPrefix padding addr ++ first) more hfits) env.2.timestamp
      (E.client M addr sock context events).stream.enc :=
    ⟨rfl, rfl, hwill, append_assoc _ _ _⟩
  obtain ⟨s, envs', he, hwire⟩ := client_writes haddr first (s := E.client M addr sock context events)
    ⟨rfl, rfl, rfl⟩ env envs hfresh (by rw [hpad]; rfl) hlen
  refine ⟨s, envs', he, ?_⟩
  rw [hwire]
  exact serverReads hinv hagree hc hs haddr hfits hsome hreplies

/-! ## Runs -/

def taggedMethod : Method where
  kind := .blake3Aes128Gcm
  aead := .tagged
  subkey key salt := Aead.byteSum (key ++ salt)
  prim := .transparent

theorem taggedMethod_inverts : taggedMethod.Inverts := ⟨Aead.tagged_inverts, fun _ _ _ => rfl⟩

def userSetup : Setup where
  clientKey := replicate 16 1
  identityKeys := [replicate 16 9]
  serverKey := replicate 16 9
  users := some ⟨[.new taggedMethod.prim "user" (replicate 16 1)]⟩
  clientSalt := replicate 16 2
  serverSalt := replicate 16 3

theorem endToEnd_user :
    Agree taggedMethod userSetup.clientKey userSetup.identityKeys userSetup.serverKey userSetup.users
        (some (replicate 16 1)) ∧
      (Address.domainNameAddress "example.com" 443).Fits ∧
      EndToEnd userSetup taggedMethod (.domainNameAddress "example.com" 443)
        (.domainNameAddress "example.com" 443) (some (replicate 16 1)) [] [[7, 8]] [[9], []] := by
  have hagree : Agree taggedMethod userSetup.clientKey userSetup.identityKeys userSetup.serverKey
      userSetup.users (some (replicate 16 1)) := .user _ _ _ rfl rfl rfl
  have hfits : (Address.domainNameAddress "example.com" 443).Fits := by decide
  exact ⟨hagree, hfits, endToEnd taggedMethod taggedMethod_inverts userSetup _ hagree rfl rfl
    (.domainNameAddress "example.com" 443) hfits [] [[7, 8]] [[9], []] (by decide) (by decide)⟩

def plainSetup : Setup where
  clientKey := replicate 16 1
  identityKeys := []
  serverKey := replicate 16 1
  users := none
  clientSalt := replicate 16 2
  serverSalt := replicate 16 3

def emptyContext : Context := .new .server (map UInt8.toNat) (map UInt8.toNat)

def scopedAddress : Address := .socketAddress (.v6 ⟨1, 443, 0, 5⟩)

def longAddress : Address := .domainNameAddress (String.ofList (replicate 256 'a')) 443

/-- **The scope of an IPv6 address is lost, and a domain name of 256 bytes panics.** -/
theorem endToEnd_fails : ¬ EndToEnd plainSetup taggedMethod scopedAddress scopedAddress none [7] [] [] ∧
      ¬ EndToEnd plainSetup taggedMethod longAddress longAddress none [7] [] [] := by
  constructor
  · intro h
    obtain ⟨s, envs', he, hread⟩ := h [] emptyContext [] ([], ⟨0, []⟩) [] (willing_nil [])
      ⟨.inl (cons_ne_nil _ _), by decide⟩ le_rfl
    have hs : s = (clientWrites [[7]] (plainSetup.client taggedMethod scopedAddress [] emptyContext [])
        [([], ⟨0, []⟩)]).2.1 := by rw [he]
    obtain ⟨s', envs'', he', -⟩ := hread [.data s.stream.enc.wire] emptyContext []
      (replicate 70 ⟨0, 0, emptyContext⟩) (orderly_single (by rw [hs]; decide))
      (append_nil _) (by rw [hs]; decide) (willing_nil [])
      (fine_of_forall (fun env henv s _ => by
        rw [eq_of_mem_replicate henv]
        decide) _) (by rw [hs]; decide)
    have hdone : (ProxyServerStream.handshake (plainSetup.server taggedMethod
        [.data s.stream.enc.wire] emptyContext []) (replicate 70 ⟨0, 0, emptyContext⟩)).1 =
          .done scopedAddress := by rw [he']
    rw [hs] at hdone
    revert hdone
    decide
  intro h
  obtain ⟨s, envs', he, -⟩ := h [] emptyContext [] ([], ⟨0, []⟩) [] (willing_nil [])
    ⟨.inl (cons_ne_nil _ _), by decide +kernel⟩ le_rfl
  have hdone : (clientWrites [[7]] (plainSetup.client taggedMethod longAddress [] emptyContext [])
      [([], ⟨0, []⟩)]).1 = .done [1] := by rw [he]; rfl
  revert hdone
  decide +kernel

end Shadowsocks.Tcp.V2
