/-
  Subject:   ALL WRITES OF A CLIENT (`ProxyClientStream::poll_write`). `chunksOf` cuts the caller's buffers at the
  numbers of bytes that were reported.
-/
import Shadowsocks.Tcp.FirstWrite
import Shadowsocks.Tcp.Handshake

namespace Shadowsocks.Tcp

open Lib List
open V2 (WriteEnv WriteError Setup)

/-! ## 1. One more packet -/

section

variable {A : Aead} {ι : Type} {max : Nat} {header : ι → Bytes → Bytes} {buf : Bytes} {t v : Tx A ι} {k : A.Sub}
  {m : Nat} {sock : WriteSock}

theorem settled_next (ht : t = ⟨⟨k, m⟩, [], .assemblePacket, sock⟩) (h : Settled (t.assembled max header buf) v) :
    v = ⟨⟨k, m + 2⟩, [], .assemblePacket, v.sock⟩ ∧ v.sock.wire = sock.wire ++ chunkWire A k m [buf.take max] := by
  subst ht
  obtain ⟨hsame, hwire⟩ := h
  refine ⟨hsame, hwire.trans ?_⟩
  simp [Tx.assembled, Tx.assemble, Cipher.encryptPacket, chunkWire]

end

section

variable {K : CipherKind} {E : Setup} {sent : UInt64} {first : Bytes} {more : List Bytes} {buf : Bytes}

def Midway (E : Setup) (sent : UInt64) (first : Bytes) (more : List Bytes) (buf : Bytes) :
    (K : CipherKind) → EncryptedWriter K → Prop
  | .none, sock => AtRest E sent first more .none sock
  | .stream S, w => ∃ w₀ : Stream.EncryptedWriter S, AtRest E sent first more (.stream S) w₀ ∧
      Stream.Halfway (w₀.assemble buf) w
  | .aead M, w => ∃ w₀ : V1.EncryptedWriter M, AtRest E sent first more (.aead M) w₀ ∧
      Halfway (Tx.assembled V1.maxPacketSize Empty.elim buf w₀) w
  | .aead2022 M, w => ∃ (w₀ : V2.EncryptedWriter M) (header : Unit → Bytes → Bytes),
      AtRest E sent first more (.aead2022 M) w₀ ∧
        ∃ u, w = { w₀ with tx := u } ∧ Halfway (w₀.tx.assembled V2.maxPacketSize header buf) u

def Rested (E : Setup) (sent : UInt64) (first : Bytes) (more : List Bytes) (buf : Bytes) (K : CipherKind) (n : Nat)
    (w : EncryptedWriter K) : Prop :=
  AtRest E sent first (more ++ [buf.take n]) K w ∧ Short K (buf.take n)

theorem clientWire_concat (K : CipherKind) (hinv : K.Inverts) (E : Setup) (sent : UInt64) (first p : Bytes)
    (more : List Bytes) : clientWire E K sent first (more ++ [p]) = clientWire E K sent first more ++ match K with
      | .none => p
      | .stream S => (S.encrypt (S.encrypt (S.newCipher E.clientKey E.clientSalt) (first ++ more.flatten)).2 p).1
      | .aead M => chunkWire M.aead (M.subkey E.clientKey E.clientSalt) (2 * (more.length + 1)) [p]
      | .aead2022 M => chunkWire M.aead (M.subkey E.clientKey E.clientSalt) (2 * (more.length + 1)) [p] := by
  have hflat : first ++ (more ++ [p]).flatten = first ++ more.flatten ++ p := by
    rw [flatten_append, flatten_singleton, append_assoc]
  cases K with
  | none => exact hflat
  | stream S =>
    show _ ++ (S.encrypt _ (first ++ (more ++ [p]).flatten)).1 = _ ++ (S.encrypt _ _).1 ++ _
    rw [hflat, hinv.append _ (first ++ more.flatten) p, append_assoc]
  | aead M =>
    show _ ++ chunkWire M.aead _ 0 (first :: more ++ [p]) = _ ++ chunkWire M.aead _ 0 (first :: more) ++ _
    rw [chunkWire_append, append_assoc, zero_add, length_cons]
  | aead2022 M =>
    have hnumber : 2 + 2 * more.length = 2 * (more.length + 1) := by omega
    show _ ++ chunkWire M.aead _ 2 (more ++ [p]) = _ ++ chunkWire M.aead _ 2 more ++ _
    rw [chunkWire_append, append_assoc, hnumber]

variable {S : Stream.Method}

theorem settled_stream_next (hinv : S.Inverts) {w v : Stream.EncryptedWriter S}
    (hw : AtRest E sent first more (.stream S) w) (h : Stream.Settled (w.assemble buf) v) :
    AtRest E sent first (more ++ [buf]) (.stream S) v := by
  obtain ⟨sock, rfl, hsock⟩ := hw
  obtain ⟨hsame, hwire⟩ := h
  refine ⟨v.sock, hsame.trans ?_, hwire.trans ?_⟩
  · rw [flatten_append, flatten_singleton, ← append_assoc, hinv.append _ (first ++ more.flatten) buf]
    rfl
  · rw [clientWire_concat (.stream S) hinv, ← hsock]
    rfl

variable {M : V1.AeadMethod}

theorem settled_aead_next (hinv : M.aead.Inverts) {w v : V1.EncryptedWriter M}
    (hw : AtRest E sent first more (.aead M) w)
    (h : Settled (Tx.assembled V1.maxPacketSize Empty.elim buf w) v) :
    AtRest E sent first (more ++ [buf.take V1.maxPacketSize]) (.aead M) v := by
  obtain ⟨sock, hw, hsock⟩ := hw
  obtain ⟨hsame, hwire⟩ := settled_next hw h
  refine ⟨v.sock, hsame.trans ?_, hwire.trans ?_⟩
  · rw [length_append, length_singleton]
    rfl
  · rw [clientWire_concat (.aead M) hinv, hsock]

variable {header : Unit → Bytes → Bytes}

theorem settled_aead2022_next {M : V2.Method} (hinv : M.Inverts) {w : V2.EncryptedWriter M} {v : Tx M.aead Unit}
    (hw : AtRest E sent first more (.aead2022 M) w)
    (h : Settled (w.tx.assembled V2.maxPacketSize header buf) v) :
    AtRest E sent first (more ++ [buf.take V2.maxPacketSize]) (.aead2022 M)
      ({ w with tx := v } : V2.EncryptedWriter M) := by
  obtain ⟨sock, hw, hsock⟩ := hw
  obtain ⟨hsame, hwire⟩ := settled_next hw h
  refine ⟨v.sock, hsame.trans ?_, hwire.trans ?_⟩
  · rw [length_append, length_singleton]
    rfl
  · rw [clientWire_concat (.aead2022 M) hinv, hsock]

theorem pollWrite_none_next {sock : WriteSock} (h : AtRest E sent first more .none sock) :
    WaitStep (Midway E sent first more buf .none) (Rested E sent first more buf .none) (Lib.pollWrite buf sock) := by
  obtain ⟨evs, wire⟩ := sock
  have hwire : wire = first ++ more.flatten := h
  have hnext : ∀ p, wire ++ p = clientWire E .none sent first (more ++ [p]) := by
    intro p
    rw [clientWire_concat .none trivial, hwire]
    rfl
  cases evs with
  | nil =>
    refine ⟨?_, trivial⟩
    rw [take_length]
    exact hnext buf
  | cons ev evs =>
    cases ev with
    | pending => exact h
    | error code => trivial
    | accept n =>
      refine ⟨?_, trivial⟩
      rw [← take_eq_take_min]
      exact hnext (buf.take n)

theorem take_reported (buf : Bytes) (max : Nat) : buf.take (buf.take max).length = buf.take max := by
  rw [length_take, ← take_eq_take_min]

theorem waitStep_stream (hinv : S.Inverts) {w : Stream.EncryptedWriter S}
    (hw : AtRest E sent first more (.stream S) w) {x : Poll IoError Nat × Stream.EncryptedWriter S}
    (hx : WaitStep (Stream.Halfway (w.assemble buf))
      (fun n v => n = buf.length ∧ Stream.Settled (w.assemble buf) v) x) :
    WaitStep (Midway E sent first more buf (.stream S)) (Rested E sent first more buf (.stream S)) x := by
  refine hx.transfer (fun hp => ⟨hp, fun hmid => ⟨w, hw, hmid⟩⟩) fun n hn => ⟨n, hn, fun hall => ⟨?_, trivial⟩⟩
  rw [hall.1, take_length]
  exact settled_stream_next hinv hw hall.2

theorem waitStep_aead (hinv : M.aead.Inverts) {w : V1.EncryptedWriter M}
    (hw : AtRest E sent first more (.aead M) w) {x : Poll IoError Nat × V1.EncryptedWriter M}
    (hx : WaitStep (Halfway (Tx.assembled V1.maxPacketSize Empty.elim buf w))
      (fun n v => n = (buf.take V1.maxPacketSize).length ∧
        Settled (Tx.assembled V1.maxPacketSize Empty.elim buf w) v) x) :
    WaitStep (Midway E sent first more buf (.aead M)) (Rested E sent first more buf (.aead M)) x := by
  refine hx.transfer (fun hp => ⟨hp, fun hmid => ⟨w, hw, hmid⟩⟩) fun n hn => ⟨n, hn, fun hall => ?_⟩
  rw [Rested, hall.1, take_reported]
  exact ⟨settled_aead_next hinv hw hall.2, length_take_le _ _⟩

theorem waitStep_aead2022 {M : V2.Method} (hinv : M.Inverts) {w : V2.EncryptedWriter M}
    (hw : AtRest E sent first more (.aead2022 M) w)
    {x : Poll IoError Nat × Tx M.aead Unit}
    (hx : WaitStep (Halfway (w.tx.assembled V2.maxPacketSize header buf))
      (fun n v => n = (buf.take V2.maxPacketSize).length ∧
        Settled (w.tx.assembled V2.maxPacketSize header buf) v) x) :
    WaitStep (Midway E sent first more buf (.aead2022 M)) (Rested E sent first more buf (.aead2022 M))
      (x.1, ({ w with tx := x.2 } : V2.EncryptedWriter M)) := by
  have hrested : ∀ v, Settled (w.tx.assembled V2.maxPacketSize header buf) v →
      Rested E sent first more buf (.aead2022 M) (buf.take V2.maxPacketSize).length
        ({ w with tx := v } : V2.EncryptedWriter M) := by
    intro v hv
    unfold Rested
    rw [take_reported]
    exact ⟨settled_aead2022_next hinv hw hv, length_take_le _ _⟩
  exact (waitStep_writer hrested hx).transfer (fun hp => ⟨hp, fun hmid => ⟨w, header, hw, hmid⟩⟩)
    fun n hn => ⟨n, hn, id⟩

theorem pollWriteEncrypted_next (hinv : K.Inverts) (timestamp : UInt64) {w : EncryptedWriter K}
    (h : AtRest E sent first more K w ∨ Midway E sent first more buf K w) :
    WaitStep (Midway E sent first more buf K) (Rested E sent first more buf K)
      (pollWriteEncrypted K timestamp buf w) := by
  cases K with
  | none => exact pollWrite_none_next (h.elim id id)
  | stream S =>
    rcases h with hrest | ⟨w₀, hrest, hmid⟩
    · refine waitStep_stream hinv hrest (Stream.pollWriteEncrypted_begins buf ?_)
      obtain ⟨sock, rfl, -⟩ := hrest
      rfl
    · exact waitStep_stream hinv hrest (Stream.pollWriteEncrypted_resumes buf hmid)
  | aead M =>
    rcases h with hrest | ⟨w₀, hrest, hmid⟩
    · refine waitStep_aead hinv hrest (pollWriteChunks_begins V1.maxPacketSize Empty.elim buf ?_)
      obtain ⟨sock, rfl, -⟩ := hrest
      nofun
    · exact waitStep_aead hinv hrest (pollWriteChunks_resumes V1.maxPacketSize Empty.elim buf hmid)
  | aead2022 M =>
    rcases h with hrest | ⟨w₀, header, hrest, u, rfl, hmid⟩
    · refine waitStep_aead2022 hinv hrest (pollWriteChunks_begins V2.maxPacketSize _ buf ?_)
      obtain ⟨sock, htx, -⟩ := hrest
      intro pos hs
      rw [htx] at hs
      cases hs
    · exact waitStep_aead2022 hinv hrest (pollWriteChunks_resumes V2.maxPacketSize _ buf hmid)

end

/-! ## 2. Writes one after the other -/

section

variable {K : CipherKind} {E : Setup} {sent : UInt64} {first : Bytes}

def chunksOf (bufs : List Bytes) (counts : List Nat) : List Bytes := zipWith take counts bufs

structure Resting (E : Setup) (sent : UInt64) (first : Bytes) (more : List Bytes) (s : ProxyClientStream K) : Prop
    where
  connected : s.writerState = .connected
  rest : AtRest E sent first more K s.enc
  short : ∀ c ∈ more, Short K c

theorem pollWrite_connected {s : ProxyClientStream K} (hs : s.writerState = .connected) (buf : Bytes)
    (env : WriteEnv) : ProxyClientStream.pollWrite buf env s =
      ((pollWriteEncrypted K env.timestamp buf s.enc).1.mapError .io,
        ⟨(pollWriteEncrypted K env.timestamp buf s.enc).2, .connected⟩) := by
  rw [ProxyClientStream.pollWrite, hs]

theorem laterWrite_rests (hinv : K.Inverts) {more : List Bytes} {buf : Bytes} {s s' : ProxyClientStream K}
    (h : Resting E sent first more s) {envs envs' : List WriteEnv} {n : Nat}
    (hdone : await (ProxyClientStream.pollWrite buf) s envs = (.done n, s', envs')) :
    Resting E sent first (more ++ [buf.take n]) s' := by
  -- the stream is connected all along; the writer is at rest before the first poll and midway after it
  have hstep : ∀ (env : WriteEnv) (t : ProxyClientStream K), t.writerState = .connected →
      AtRest E sent first more K t.enc ∨ Midway E sent first more buf K t.enc →
      WaitStep (fun t => t.writerState = .connected ∧ Midway E sent first more buf K t.enc)
        (fun n t => t.writerState = .connected ∧ Rested E sent first more buf K n t.enc)
        (ProxyClientStream.pollWrite buf env t) := by
    intro env t ht henc
    rw [pollWrite_connected ht]
    refine (pollWriteEncrypted_next hinv env.timestamp henc).transfer (fun hp => ?_) fun n hn => ?_
    · exact ⟨Poll.mapError_pending.mp hp, fun hmid => ⟨rfl, hmid⟩⟩
    · exact ⟨n, Poll.mapError_ready.mp hn, fun hrest => ⟨rfl, hrest⟩⟩
  cases envs with
  | nil => cases hdone
  | cons env envs =>
    obtain ⟨hconnected, hrest, hshort⟩ := await_done (fun env t ht => hstep env t ht.1 (.inr ht.2))
      (hstep env s h.connected (.inl h.rest)) hdone
    refine ⟨hconnected, hrest, fun c hc => ?_⟩
    rcases mem_append.mp hc with hc | hc
    · exact h.short c hc
    · rw [mem_singleton.mp hc]
      exact hshort

theorem laterWrites_rests (hinv : K.Inverts) (bufs : List Bytes) :
    ∀ {more : List Bytes} {s s' : ProxyClientStream K}, Resting E sent first more s →
      ∀ {envs envs' : List WriteEnv} {counts : List Nat},
        awaitEach ProxyClientStream.pollWrite bufs s envs = (.done counts, s', envs') →
        Resting E sent first (more ++ chunksOf bufs counts) s' := by
  induction bufs with
  | nil =>
    intro more s s' h envs envs' counts hdone
    cases hdone
    rwa [chunksOf, zipWith_nil_left, append_nil]
  | cons buf bufs ih =>
    intro more s s' h envs envs' counts hdone
    obtain ⟨n, ns, s₁, envs₁, rfl, hfirst, hrest⟩ := awaitEach_cons_done hdone
    have hnext := ih (laterWrite_rests hinv h hfirst) hrest
    rwa [append_assoc] at hnext

end

/-! ## 3. What a server makes of them -/

section

variable {K : CipherKind} {E : Setup} {sent : UInt64} {addr : Address} {buf : Bytes} {more : List Bytes}
  {sock : ReadSock} {context : Context} {envs : List V2.ReadEnv}

theorem readFrom_serves (hinv : K.Inverts) (hE : Agrees E K) (haddr : addr.Fits)
    (hshort : ∀ c ∈ (addr.bytes ++ buf) :: more, Short K c) (ho : Orderly sock)
    (hb : sockBytes sock = clientWire E K sent (addr.bytes ++ buf) more) (hwhole : HeaderWhole E K sock)
    (hfine : Fine (pollIn K) (ServerOk E sent K) (.withUserManager K .server E.serverKey E.users sock context) envs)
    (hlen : sockWeight sock < envs.length) :
    ∃ ok I μ s envs', Serves (pollServer K) ok I μ ∧
      Address.readFrom (pollServer K) (.protocol (.ioError .unexpectedEof)) .address
        (.withUserManager K .server E.serverKey E.users sock context) envs = (.done addr.asRead, s, envs') ∧
      I s (buf ++ more.flatten) ∧ μ s < envs'.length ∧ Fine (pollServer K) ok s envs' := by
  obtain ⟨I, μ, hS, hbegin⟩ := serves_client hinv hE sent hshort
  obtain ⟨hI, hμ⟩ := hbegin sock context ho hb hwhole
  rw [append_assoc] at hI
  have hS : Serves (pollServer K) (ServerOk E sent K) I μ := hS.mapError id HandshakeError.protocol
  have hfine : Fine (pollServer K) (ServerOk E sent K) (.withUserManager K .server E.serverKey E.users sock context)
      envs := hfine.mapError HandshakeError.protocol
  obtain ⟨s, envs', hread, hleft⟩ := readFrom_bytes hS (ServerStream.pollServer_bounded K)
    (.protocol (.ioError .unexpectedEof)) .address haddr _ _ envs hI hfine (hμ ▸ hlen)
  exact ⟨_, I, μ, s, envs', hS, hread, hleft⟩

theorem handshake_serves (hinv : K.Inverts) (hE : Agrees E K) (haddr : addr.Fits) (hbuf : buf ≠ []) (padding : Bytes)
    (hshort : ∀ c ∈ (firstHeader K padding addr buf ++ buf) :: more, Short K c) (ho : Orderly sock)
    (hb : sockBytes sock = clientWire E K sent (firstHeader K padding addr buf ++ buf) more)
    (hwhole : HeaderWhole E K sock)
    (hfine : Fine (pollIn K) (ServerOk E sent K) (.withUserManager K .server E.serverKey E.users sock context) envs)
    (hlen : sockWeight sock < envs.length) :
    ∃ ok I μ s envs', Serves (ServerStream.pollRead K) ok I μ ∧
      ServerStream.handshake K (.fromStreamWithUserManager K E.serverKey E.users ⟨E.serverSalt, sock, context, envs⟩)
        envs = (.done addr.asRead, s, envs') ∧
      I s (buf ++ more.flatten) ∧ μ s < envs'.length ∧ Fine (ServerStream.pollRead K) ok s envs' := by
  cases K with
  | none => exact readFrom_serves (K := .none) hinv hE haddr hshort ho hb hwhole hfine hlen
  | stream S => exact readFrom_serves (K := .stream S) hinv hE haddr hshort ho hb hwhole hfine hlen
  | aead M => exact readFrom_serves (K := .aead M) hinv hE haddr hshort ho hb hwhole hfine hlen
  | aead2022 M =>
    obtain ⟨⟨userKey, hagree⟩, hsalt⟩ := hE
    have hheader : firstHeader (.aead2022 M) padding addr buf = V2.requestPrefix [] addr := by
      show V2.requestPrefix (if buf = [] then padding else []) addr = _
      rw [if_neg hbuf]
    rw [hheader] at hshort hb
    rw [clientWire_aead2022 hinv hagree hsalt sent hshort] at hb
    have hopening := V2.opening_server hinv hagree hsalt hshort context [] ho hb hwhole
    have hne : (V2.requestSession hinv hagree hsalt sent (V2.requestPrefix [] addr ++ buf) more hshort).payload ≠
        [] := append_ne_nil_of_left_ne_nil (append_ne_nil_of_right_ne_nil _ hbuf) _
    -- a server past the begin of its handshake is polled as its reader is
    have hpoll : ∀ env cap (t : V2.ProxyServerStream M), t.hasHandshaked = true →
        (t.pollRead env cap).2.hasHandshaked = true ∧
          (t.pollRead env cap).2.stream.dec = (pollIn (.aead2022 M) env cap t.stream.dec).2 := by
      intro env cap t ht
      rw [V2.ProxyServerStream.pollRead_eq ht]
      exact ⟨ht, V2.CryptoStream.pollReadDecrypted_dec env cap t.stream⟩
    have hserver := Fine.of_view (fun t : V2.ProxyServerStream M => t.stream.dec) hpoll
      (t := { E.server M sock context [] with hasHandshaked := true }) rfl hfine
    obtain ⟨s, envs', hdone, hI, hμ, hleft⟩ := V2.handshake_ok hinv.aead haddr (by decide) rfl (.inr hbuf) rfl
      hopening hserver hlen
    exact ⟨_, _, _, s, envs', (V2.opening_serves hinv.aead hne).mapError id HandshakeError.aead2022,
      Async.mapError_done.mpr hdone, hI, hμ, hleft.mapError HandshakeError.aead2022⟩

end

end Shadowsocks.Tcp
