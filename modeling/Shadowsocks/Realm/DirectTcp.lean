/-
  Subject:   THE DIRECT TCP PATH (`dial_tcp` and `serve_tcp_conn` of `crates/shadowsocks/src/realm.rs`). The client
  presents its token as the first bytes of a proxied stream.
-/
import Shadowsocks.Tcp.ClientWrites
import Shadowsocks.Tcp.Copy

namespace Shadowsocks.Realm.DirectTcp

open Lib List
open Tcp
open Tcp.V2 (WriteEnv WriteError Setup)

def tokenLen : Nat := 32

abbrev Token := { token : Bytes // token.length = tokenLen }

/-! ## 1. The client -/

inductive DialError where
  | io (e : IoError)
  | write (e : WriteError)

def dialTcp (K : CipherKind) (E : Setup) (token : Option Token) (connected : Except IoError (List WriteEvent))
    (target : Address) (envs : List WriteEnv) : Await DialError (ProxyClientStream K) × List WriteEnv :=
  match token with
  | none => (.failed (.io (.other "no direct-TCP session token")), envs)
  | some token =>
    match connected with
    | .error e => (.failed (.io e), envs)
    | .ok events =>
      match writeAll ProxyClientStream.pollWrite (.io (.other "write zero")) token.1
          (.fromStream K E target events) envs with
      | (.done (), stream, envs) => (.done stream, envs)
      | (.failed e, _, envs) => (.failed (.write e), envs)
      | (.waiting, _, envs) => (.waiting, envs)

/-! ## 2. The server -/

inductive ConnError where
  | stream (e : HandshakeError)
  | other (msg : String)
  deriving DecidableEq

def authenticate (K : CipherKind) (expectedToken : Token) : Async (ServerStream K) V2.ReadEnv ConnError Address := do
  let target ← (ServerStream.handshake K).mapError .stream
  let token ← (readExact (ServerStream.pollRead K) (ServerStream.eofError K) tokenLen).mapError .stream
  if token ≠ expectedToken.1 then Async.fail (.other "direct-TCP session token mismatch")
  else pure target

structure Remote where
  answers : ReadSock
  writes : List WriteEvent
  controls : List Copy.Answer
  backWrites : List WriteEvent
  backControls : List Copy.Answer

inductive Served where
  | waiting
  | ended (e : ConnError)
  | dialled (target : Address) (copy : Option (Await IoError (UInt64 × UInt64) × Copy.CopyBidirectional))

def copyTo (K : CipherKind) (ss : ServerStream K) (envs : List V2.ReadEnv) (remote : Remote) (n : Nat) :
    Await IoError (UInt64 × UInt64) × Copy.CopyBidirectional × List Unit :=
  await (fun () => Copy.pollImpl)
    (Copy.copyEncryptedBidirectional K
      (.new (heard (ServerStream.pollRead K) (Copy.plainReadBufferSize K) n ss envs) remote.backWrites
        remote.backControls)
      (.new remote.answers remote.writes remote.controls))
    (replicate n ())

def serveTcpConn (K : CipherKind) (key : Bytes) (expectedToken : Token) (connect : Address → Option Remote)
    (n : Nat) (c : Incoming) : Served :=
  match authenticate K expectedToken (.fromStreamWithUserManager K key none c) c.envs with
  | (.waiting, _, _) => .waiting
  | (.failed e, _, _) => .ended e
  | (.done target, ss, envs) =>
    .dialled target ((connect target).map fun remote =>
      ((copyTo K ss envs remote n).1, (copyTo K ss envs remote n).2.1))

/-! ## 3. Who gets through -/

section

variable {K : CipherKind} {token : Token} {s s' : ServerStream K} {envs envs' : List V2.ReadEnv} {target : Address}

def Presents (K : CipherKind) (token : Token) (s : ServerStream K) (envs : List V2.ReadEnv) : Prop :=
  ∃ s' envs', readExact (ServerStream.pollRead K) (ServerStream.eofError K) tokenLen s envs =
      (.done token.1, s', envs') ∧
    ∃ polls : List (V2.ReadEnv × Nat), polls.map Prod.fst ++ envs' = envs ∧
      s' = afterPolls (ServerStream.pollRead K) s polls ∧
      delivered (runPolls (ServerStream.pollRead K) s polls) = token.1

theorem authenticate_presented (h : authenticate K token s envs = (.done target, s', envs')) :
    ∃ s₁ envs₁, ServerStream.handshake K s envs = (.done target, s₁, envs₁) ∧ Presents K token s₁ envs₁ := by
  obtain ⟨target', s₁, envs₁, hhand, h⟩ := Async.bind_eq_done h
  obtain ⟨presented, s₂, envs₂, hread, h⟩ := Async.bind_eq_done h
  by_cases htoken : presented ≠ token.1
  · rw [if_pos htoken] at h
    cases h
  rw [if_neg htoken] at h
  cases h
  rw [not_not.mp htoken] at hread
  have hread := Async.mapError_done.mp hread
  exact ⟨s₁, envs₁, Async.mapError_done.mp hhand, _, _, hread, readExact_delivered hread⟩

variable {ok : V2.ReadEnv → ServerStream K → Prop} {I : ServerStream K → Bytes → Prop} {μ : ServerStream K → Nat}
  {X : Bytes}

theorem authenticate_serves (hS : Serves (ServerStream.pollRead K) ok I μ)
    (hhand : ServerStream.handshake K s envs = (.done target, s', envs')) (hI : I s' (token.1 ++ X))
    (hμ : μ s' < envs'.length) (hfine : Fine (ServerStream.pollRead K) ok s' envs') :
    ∃ t left, authenticate K token s envs = (.done target, t, left) ∧ I t X ∧ μ t < left.length ∧
      Fine (ServerStream.pollRead K) ok t left := by
  obtain ⟨t, left, hread, hleft⟩ := readExact_consumes hS (ServerStream.pollRead_bounded K)
    (ServerStream.eofError K) token.2 s' X envs' hI hfine hμ
  refine ⟨t, left, ?_, hleft⟩
  rw [authenticate, Async.bind_done (Async.mapError_done.mpr hhand), Async.bind_done (Async.mapError_done.mpr hread),
    if_neg (not_not_intro rfl)]
  rfl

end

/-! ## 4. From the application to the wire -/

structure ClientRun (K : CipherKind) (E : Setup) (token : Token) (target : Address) where
  events : List WriteEvent
  env : WriteEnv
  envs : List WriteEnv
  stream : ProxyClientStream K
  envs₁ : List WriteEnv
  bufs : List Bytes
  counts : List Nat
  final : ProxyClientStream K
  envs₂ : List WriteEnv
  dials : dialTcp K E (some token) (.ok events) target (env :: envs) = (.done stream, envs₁)
  writes : awaitEach ProxyClientStream.pollWrite bufs stream envs₁ = (.done counts, final, envs₂)

namespace ClientRun

variable {K : CipherKind} {E : Setup} {token : Token} {target : Address} (r : ClientRun K E token target)

def app : Bytes := (chunksOf r.bufs r.counts).flatten

def wire : Bytes := r.final.enc.wire

def sent : UInt64 := r.env.timestamp

def FirstWhole : Prop := K = .none → ∀ k ∈ firstAccept r.events, target.serializedLen + tokenLen ≤ k

theorem first_write : await (ProxyClientStream.pollWrite token.1) (.fromStream K E target r.events)
    (r.env :: r.envs) = (.done token.1.length, r.stream, r.envs₁) := by
  have hne : token.1 ≠ [] := ne_nil_of_length_pos (by rw [token.2]; decide)
  have hdials := r.dials
  unfold dialTcp at hdials
  dsimp only at hdials
  rcases hw : writeAll ProxyClientStream.pollWrite (.io (.other "write zero")) token.1
    (.fromStream K E target r.events) (r.env :: r.envs) with ⟨u | e | _, stream, left⟩
  · rw [hw] at hdials
    cases hdials
    exact writeAll_once hne (fun n t rest h => (firstWrite_wire h).1) hw
  · rw [hw] at hdials
    cases hdials
  · rw [hw] at hdials
    cases hdials

theorem fits (r : ClientRun K E token target) : target.Fits := firstWrite_fits r.first_write

theorem firstTaken (h : r.FirstWhole) : FirstTaken K r.events target r.env.padding token.1 := by
  have haddr := Address.serializedLen_le r.fits
  have htoken : token.1.length = 32 := token.2
  cases K with
  | none =>
    intro k hk
    rw [token.2]
    exact h rfl k hk
  | stream S => trivial
  | aead M =>
    show target.serializedLen + token.1.length ≤ V1.maxPacketSize
    rw [V1.maxPacketSize]
    omega
  | aead2022 M =>
    have hne : token.1 ≠ [] := ne_nil_of_length_pos (by omega)
    show target.serializedLen + 2 + (if token.1 = [] then r.env.padding else []).length + token.1.length ≤
      V2.maxPacketSize
    rw [if_neg hne, length_nil, V2.maxPacketSize]
    omega

def firstPacket : Bytes := firstHeader K r.env.padding target token.1 ++ token.1

theorem wire_eq (hinv : K.Inverts) (h : r.FirstWhole) :
    r.wire = clientWire E K r.sent r.firstPacket (chunksOf r.bufs r.counts) ∧
      ∀ c ∈ r.firstPacket :: chunksOf r.bufs r.counts, Short K c := by
  obtain ⟨-, hconnected, hrest⟩ := firstWrite_rests r.first_write
  have htaken : taken K r.events r.firstPacket = r.firstPacket := (taken_eq_iff K _ _ _ _).mpr (r.firstTaken h)
  have hshort : Short K r.firstPacket := by
    rw [← htaken]
    exact short_taken K r.events r.firstPacket
  have hrest : AtRest E r.sent r.firstPacket [] K r.stream.enc := by
    rwa [← htaken]
  obtain ⟨-, hfinal, hmore⟩ := laterWrites_rests hinv r.bufs ⟨hconnected, hrest, by simp⟩ r.writes
  exact ⟨hfinal.wire, forall_mem_cons.mpr ⟨hshort, hmore⟩⟩

end ClientRun

/-! ## 5. From the wire to the target -/

/-- **A client's stream arrives**, in whatever pieces: no failure, the fixed header in one read, a new salt, clocks
that agree. -/
structure Arrives (E : Setup) (K : CipherKind) (sent : UInt64) (wire : Bytes) (c : Incoming) : Prop where
  nonce : c.nonce = E.serverSalt
  orderly : Orderly c.sock
  bytes : sockBytes c.sock = wire
  whole : HeaderWhole E K c.sock
  fine : Fine (pollIn K) (ServerOk E sent K) (.withUserManager K .server E.serverKey E.users c.sock c.context) c.envs
  enough : sockWeight c.sock < c.envs.length

structure Remote.Calm (remote : Remote) : Prop where
  writes : Willing ⟨remote.writes, []⟩
  controls : ∀ code, .error code ∉ remote.controls
  back : Copy.Smooth ⟨remote.answers, []⟩ ⟨remote.backWrites, remote.backControls, []⟩

section

variable {K : CipherKind} {ok : V2.ReadEnv → ServerStream K → Prop} {I : ServerStream K → Bytes → Prop}
  {μ : ServerStream K → Nat} {s : ServerStream K} {envs : List V2.ReadEnv} {X : Bytes} {remote : Remote}

theorem copyTo_within (hS : Serves (ServerStream.pollRead K) ok I μ) (hI : I s X)
    (hfine : Fine (ServerStream.pollRead K) ok s envs) (hcalm : remote.Calm) (n : Nat) :
    (copyTo K s envs remote n).2.1.b.sink.bytes <+: X := by
  obtain ⟨ho, hpre, -⟩ := heard_serves (n := n) hS (Copy.plainReadBufferSize_pos K) hI hfine
  exact (Copy.copy_within K _ remote.answers remote.backWrites remote.writes remote.backControls remote.controls
    ⟨ho, hcalm.writes, hcalm.controls⟩ hcalm.back n).trans hpre

theorem copyTo_completes (hS : Serves (ServerStream.pollRead K) ok I μ) (hI : I s X)
    (hfine : Fine (ServerStream.pollRead K) ok s envs) (hμ : μ s < envs.length) (hcalm : remote.Calm) :
    ∃ m, ∀ n, m ≤ n → ∃ counts t rest, copyTo K s envs remote n = (.done counts, t, rest) ∧ t.b.sink.bytes = X := by
  -- the answers that are heard are bounded by the environments and the bytes, whatever the number of polls
  refine ⟨envs.length + X.length + remote.writes.length + remote.controls.length +
    Copy.weight ⟨remote.answers, []⟩ ⟨remote.backWrites, remote.backControls, []⟩ + 1, fun n hn => ?_⟩
  obtain ⟨ho, -, hall⟩ := heard_serves (n := n) hS (Copy.plainReadBufferSize_pos K) hI hfine
  obtain ⟨hbytes, hweight⟩ := hall hμ
  obtain ⟨counts, t, rest, he, ⟨hforth, -⟩, hread, -⟩ := Copy.copy_completes K
    (heard (ServerStream.pollRead K) (Copy.plainReadBufferSize K) n s envs) remote.answers remote.backWrites
    remote.writes remote.backControls remote.controls ⟨ho, hcalm.writes, hcalm.controls⟩ hcalm.back (n := n) (by
      rw [Copy.fresh_weight]
      omega)
  exact ⟨counts, t, rest, he, hforth.moved.trans (hread.trans hbytes)⟩

end

theorem serve_relays {K : CipherKind} {E : Setup} {token : Token} {target : Address} (hinv : K.Inverts)
    (hE : Agrees E K) (husers : E.users = none) (r : ClientRun K E token target) (hfirst : r.FirstWhole)
    {c : Incoming} (hc : Arrives E K r.sent r.wire c) {connect : Address → Option Remote} {remote : Remote}
    (hconnect : connect target.asRead = some remote) (hcalm : remote.Calm) :
    (∀ n, ∃ result t, serveTcpConn K E.serverKey token connect n c = .dialled target.asRead (some (result, t)) ∧
        t.b.sink.bytes <+: r.app) ∧
      ∃ m, ∀ n, m ≤ n → ∃ counts t,
        serveTcpConn K E.serverKey token connect n c = .dialled target.asRead (some (.done counts, t)) ∧
          t.b.sink.bytes = r.app := by
  obtain ⟨nonce, sock, context, envs⟩ := c
  obtain ⟨rfl, ho, hb, hwhole, hfine, hlen⟩ := hc
  obtain ⟨hwire, hshort⟩ := r.wire_eq hinv hfirst
  have hne : token.1 ≠ [] := ne_nil_of_length_pos (by rw [token.2]; decide)
  obtain ⟨ok, I, μ, s, envs₁, hS, hhand, hI, hμ, hfine⟩ := handshake_serves hinv hE r.fits hne r.env.padding hshort ho
    (hb.trans hwire) hwhole hfine hlen
  rw [husers] at hhand
  obtain ⟨t, left, hauth, hI, hμ, hfine⟩ := authenticate_serves hS hhand hI hμ hfine
  have hserve : ∀ n, serveTcpConn K E.serverKey token connect n ⟨E.serverSalt, sock, context, envs⟩ =
      .dialled target.asRead (some ((copyTo K t left remote n).1, (copyTo K t left remote n).2.1)) := by
    intro n
    rw [serveTcpConn, hauth]
    dsimp only
    rw [hconnect]
    rfl
  constructor
  · intro n
    exact ⟨_, _, hserve n, copyTo_within hS hI hfine hcalm n⟩
  obtain ⟨m, hm⟩ := copyTo_completes hS hI hfine hμ hcalm
  refine ⟨m, fun n hn => ?_⟩
  obtain ⟨counts, u, rest, he, hbytes⟩ := hm n hn
  refine ⟨counts, u, (hserve n).trans ?_, hbytes⟩
  rw [he]

/-- **The direct TCP path.** What a client writes and arrives is what the target receives, without the token; none is
dialled before the token. -/
theorem direct_path (K : CipherKind) (token : Token) :
    (K.Inverts → ∀ (E : Setup) (target : Address), Agrees E K → E.users = none →
      ∀ r : ClientRun K E token target, r.FirstWhole → ∀ c, Arrives E K r.sent r.wire c →
      ∀ (connect : Address → Option Remote) (remote : Remote), connect target.asRead = some remote → remote.Calm →
        (∀ n, ∃ result t, serveTcpConn K E.serverKey token connect n c = .dialled target.asRead (some (result, t)) ∧
            t.b.sink.bytes <+: r.app) ∧
        ∃ m, ∀ n, m ≤ n → ∃ counts t,
          serveTcpConn K E.serverKey token connect n c = .dialled target.asRead (some (.done counts, t)) ∧
            t.b.sink.bytes = r.app) ∧
    ∀ (key : Bytes) (connect : Address → Option Remote) (n : Nat) (c : Incoming) (target : Address) copy,
      serveTcpConn K key token connect n c = .dialled target copy →
        ∃ s envs, ServerStream.handshake K (.fromStreamWithUserManager K key none c) c.envs = (.done target, s, envs) ∧
          Presents K token s envs := by
  constructor
  · intro hinv E target hE husers r hfirst c hc connect remote hconnect hcalm
    exact serve_relays hinv hE husers r hfirst hc hconnect hcalm
  intro key connect n c target copy h
  unfold serveTcpConn at h
  rcases hauth : authenticate K token (.fromStreamWithUserManager K key none c) c.envs with ⟨a | e | _, s', envs'⟩
  · rw [hauth] at h
    cases h
    exact authenticate_presented hauth
  · rw [hauth] at h
    cases h
  · rw [hauth] at h
    cases h

/-! ## 6. A small connection -/

def someToken : Token := ⟨replicate 32 5, rfl⟩

def smallRun : ClientRun (.aead2022 V2.taggedMethod) V2.plainSetup someToken someTarget :=
  ⟨[], ⟨0, []⟩, [⟨0, []⟩, ⟨0, []⟩], _, _, [[7, 8], [9]], _, _, _, rfl, rfl⟩

def cutAfter (k : Nat) : Incoming :=
  ⟨V2.plainSetup.serverSalt, [.data (smallRun.wire.take k), .pending, .data (smallRun.wire.drop k)], V2.emptyContext,
    replicate 400 ⟨0, 0, V2.emptyContext⟩⟩

def quietTarget : Remote := ⟨[], [.accept 1, .pending], [], [], []⟩

theorem arrives_small :
    Arrives V2.plainSetup (.aead2022 V2.taggedMethod) smallRun.sent smallRun.wire (cutAfter 60) where
  nonce := rfl
  orderly := orderly_cons (.inr ⟨_, by decide +kernel, rfl⟩) (orderly_cons (.inl rfl)
    (orderly_single (by decide +kernel)))
  bytes := by decide +kernel
  whole := by
    show WholeFirst 29 (cutAfter 60).sock
    decide +kernel
  fine := fine_of_forall (fun env henv s _ => by
    rw [eq_of_mem_replicate henv]
    decide) _
  enough := by decide +kernel

theorem calm_quiet : quietTarget.Calm where
  writes := by simp [Willing, quietTarget]
  controls _ := not_mem_nil
  back := ⟨orderly_nil, willing_nil [], fun _ => not_mem_nil⟩

theorem direct_path_small : ∃ m, ∀ n, m ≤ n → ∃ counts t,
      serveTcpConn (.aead2022 V2.taggedMethod) V2.plainSetup.serverKey someToken (fun _ => some quietTarget) n
          (cutAfter 60) = .dialled someTarget (some (.done counts, t)) ∧
        t.b.sink.bytes = [7, 8, 9] ∧
        ∃ s envs, ServerStream.handshake (.aead2022 V2.taggedMethod)
            (.fromStreamWithUserManager _ V2.plainSetup.serverKey none (cutAfter 60)) (cutAfter 60).envs =
              (.done someTarget, s, envs) ∧
          Presents (.aead2022 V2.taggedMethod) someToken s envs := by
  obtain ⟨hrelays, hdials⟩ := direct_path (.aead2022 V2.taggedMethod) someToken
  obtain ⟨-, m, hm⟩ := hrelays V2.taggedMethod_inverts V2.plainSetup someTarget ⟨⟨none, .plain⟩, rfl⟩ rfl smallRun
    nofun (cutAfter 60) arrives_small (fun _ => some quietTarget) quietTarget rfl calm_quiet
  refine ⟨m, fun n hn => ?_⟩
  obtain ⟨counts, t, hserve, hbytes⟩ := hm n hn
  exact ⟨counts, t, hserve, hbytes.trans (by decide +kernel), hdials _ _ n _ _ _ hserve⟩

/-- **A stream is refused** when the first read of the server ends inside the fixed header. -/
theorem direct_path_refused :
    smallRun.app = [7, 8, 9] ∧ Orderly (cutAfter 20).sock ∧ sockBytes (cutAfter 20).sock = smallRun.wire ∧
      ∀ connect n, serveTcpConn (.aead2022 V2.taggedMethod) V2.plainSetup.serverKey someToken connect n (cutAfter 20) =
        .ended (.stream (.aead2022 (.protocol (.headerTooShort 29 20)))) := by
  have hauth : (authenticate (.aead2022 V2.taggedMethod) someToken
      (.fromStreamWithUserManager _ V2.plainSetup.serverKey none (cutAfter 20)) (cutAfter 20).envs).1 =
        .failed (.stream (.aead2022 (.protocol (.headerTooShort 29 20)))) := by decide +kernel
  refine ⟨by decide +kernel, ?_, by decide +kernel, fun connect n => ?_⟩
  · exact orderly_cons (.inr ⟨_, by decide +kernel, rfl⟩) (orderly_cons (.inl rfl)
      (orderly_single (by decide +kernel)))
  generalize authenticate (.aead2022 V2.taggedMethod) someToken
    (.fromStreamWithUserManager _ V2.plainSetup.serverKey none (cutAfter 20)) (cutAfter 20).envs = x at hauth ⊢
  obtain ⟨r, s, envs⟩ := x
  rfl

end Shadowsocks.Realm.DirectTcp
