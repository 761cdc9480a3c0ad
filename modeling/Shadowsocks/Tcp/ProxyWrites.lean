/-
  Subject:   WHAT CLIENT AND SERVER PUT ON THE WIRE of an AEAD-2022 stream.
-/
import Shadowsocks.Tcp.ProxyStream

namespace Shadowsocks.Tcp.V2

open Lib List

variable {M : Method} {ok : ReadEnv → Prop}

/-! ## 1. A writer -/

def EncryptedWriter.wire (w : EncryptedWriter M) : Bytes := w.tx.sock.wire

def EncryptedWriter.pot (w : EncryptedWriter M) : Nat := w.tx.pot

def EncryptedWriter.assembled (w : EncryptedWriter M) (timestamp : UInt64) (buf : Bytes) :
    Tx M.aead Unit :=
  w.tx.assembled maxPacketSize (fun () buf => headerChunk w.streamTy timestamp w.requestSalt buf) buf

structure Sending (w : EncryptedWriter M) (t : Tx M.aead Unit) (u : EncryptedWriter M) : Prop where
  same : u = { w with tx := u.tx }
  writing : ∃ pos, Writing t u.tx pos

structure Sent (w : EncryptedWriter M) (t : Tx M.aead Unit) (u : EncryptedWriter M) : Prop where
  same : u = { w with tx := u.tx }
  written : Written t u.tx

structure Resting (w : EncryptedWriter M) (sub : M.aead.Sub) (n : Nat) : Prop where
  state : w.tx.state = .assemblePacket
  buffer : w.tx.buffer = []
  cipher : w.tx.cipher = ⟨sub, n⟩
  willing : Willing w.tx.sock

variable {w : EncryptedWriter M} {t : Tx M.aead Unit} {u : EncryptedWriter M}

theorem awaitStep_writer (hsame : u = { w with tx := u.tx })
    {m : Nat} {x : Poll IoError Nat × Tx M.aead Unit}
    (h : AwaitStep (fun v => ∃ pos, Writing t v pos) (fun n v => n = m ∧ Written t v) Tx.pot u.tx x) :
    AwaitStep (Sending w t) (fun n v => n = m ∧ Sent w t v) EncryptedWriter.pot u
      (x.1, { u with tx := x.2 }) := by
  have hsame' : { u with tx := x.2 } = { w with tx := x.2 } := by rw [hsame]
  exact h.transfer rfl rfl (fun hp hw => ⟨hp, hsame', hw⟩) (fun n hn hw => ⟨n, hn, hw.1, hsame', hw.2⟩)

theorem pollWriteEncrypted_first (timestamp : UInt64) (buf : Bytes) (hw : ∀ pos, w.tx.state ≠ .writing pos)
    (hwill : Willing w.tx.sock) : AwaitStep (Sending w (w.assembled timestamp buf))
      (fun n u => n = (buf.take maxPacketSize).length ∧ Sent w (w.assembled timestamp buf) u)
      EncryptedWriter.pot w (pollWriteEncrypted timestamp buf w) :=
  awaitStep_writer rfl (pollWriteChunks_first maxPacketSize _ buf hw hwill)

theorem pollWriteEncrypted_again (timestamp : UInt64) (buf : Bytes) (h : Sending w t u) :
    AwaitStep (Sending w t) (fun n u' => n = (buf.take maxPacketSize).length ∧ Sent w t u')
      EncryptedWriter.pot u (pollWriteEncrypted timestamp buf u) := by
  obtain ⟨hsame, pos, hw⟩ := h
  exact awaitStep_writer hsame (pollWriteChunks_again maxPacketSize _ buf hw)

variable {sub : M.aead.Sub}

theorem Sent.resting (h : Sent w t u) {n : Nat} (hc : t.cipher = ⟨sub, n⟩) : Resting u sub n := by
  obtain ⟨-, hsame, -, hwill⟩ := h
  exact ⟨by rw [hsame], by rw [hsame], by rw [hsame]; exact hc, hwill⟩

theorem Resting.not_writing {n : Nat} (h : Resting w sub n) (pos : Nat) : w.tx.state ≠ .writing pos := by
  rw [h.state]
  nofun

theorem CryptoStream.pollWriteEncrypted_eq (env : WriteEnv) (buf : Bytes) (s : CryptoStream M) :
    s.pollWriteEncrypted env buf = ((V2.pollWriteEncrypted env.timestamp buf s.enc).1.mapError .io,
        { s with enc := (V2.pollWriteEncrypted env.timestamp buf s.enc).2 }) := by
  unfold pollWriteEncrypted
  rcases V2.pollWriteEncrypted env.timestamp buf s.enc with ⟨r | n | e, enc⟩ <;> rfl

def interleavedWrite {σ O : Type} (act : O → σ → σ)
    (poll : Bytes → WriteEnv → σ → Poll WriteError Nat × σ) (buf : Bytes) (env : List O × WriteEnv)
    (s : σ) : Poll WriteError Nat × σ :=
  poll buf env.2 (actAll act env.1 s)

structure PlainWrites {σ O : Type} (enc : σ → EncryptedWriter M)
    (poll : Bytes → WriteEnv → σ → Poll WriteError Nat × σ) (act : O → σ → σ) (F : σ → Prop) :
    Prop where
  fst : ∀ buf env s, F s → (poll buf env s).1 = (pollWriteEncrypted env.timestamp buf (enc s)).1.mapError .io
  snd : ∀ buf env s, F s → enc (poll buf env s).2 = (pollWriteEncrypted env.timestamp buf (enc s)).2
  keeps : ∀ buf env s, F s → F (poll buf env s).2
  act_keeps : ∀ o s, F s → F (act o s)
  act_enc : ∀ o s, F s → enc (act o s) = enc s

section

variable {σ O : Type} {enc : σ → EncryptedWriter M}
  {poll : Bytes → WriteEnv → σ → Poll WriteError Nat × σ} {act : O → σ → σ} {F : σ → Prop}

theorem PlainWrites.step (hP : PlainWrites enc poll act F) {P : EncryptedWriter M → Prop}
    {Q : Nat → EncryptedWriter M → Prop} (buf : Bytes) (env : WriteEnv) {s : σ} (hF : F s)
    (h : AwaitStep P Q EncryptedWriter.pot (enc s) (pollWriteEncrypted env.timestamp buf (enc s))) :
    AwaitStep (fun s => F s ∧ P (enc s)) (fun n s => F s ∧ Q n (enc s)) (fun s => (enc s).pot) s
      (poll buf env s) := by
  have hfst := hP.fst buf env s hF
  have hsnd := hP.snd buf env s hF
  have hkeep := hP.keeps buf env s hF
  refine h.transfer rfl (congrArg EncryptedWriter.pot hsnd) (fun hp hw => ?_) (fun n hn hw => ?_)
  · rw [hfst, hp, hsnd]
    exact ⟨rfl, hkeep, hw⟩
  · rw [hfst, hn, hsnd]
    exact ⟨n, rfl, hkeep, hw⟩

theorem PlainWrites.again (hP : PlainWrites enc poll act F) (buf : Bytes) (env : List O × WriteEnv) (s : σ)
    (h : F s ∧ Sending w t (enc s)) : AwaitStep (fun s => F s ∧ Sending w t (enc s))
      (fun n s => F s ∧ n = (buf.take maxPacketSize).length ∧ Sent w t (enc s)) (fun s => (enc s).pot)
      s (interleavedWrite act poll buf env s) :=
  awaitStep_after act (fun s => F s ∧ Sending w t (enc s))
    (fun o s h => by
      rw [hP.act_enc o s h.1]
      exact ⟨⟨hP.act_keeps o s h.1, h.2⟩, rfl⟩)
    (fun _ h => hP.step buf env.2 h.1 (pollWriteEncrypted_again _ buf h.2)) env.1 h

def ToWrite (enc : σ → EncryptedWriter M) (F : σ → Prop) (sub : M.aead.Sub) (W : Bytes)
    (bufs : List Bytes) (s : σ) : Prop :=
  F s ∧ (∀ b ∈ bufs, b.length ≤ maxPacketSize) ∧
    ∃ n, Resting (enc s) sub n ∧ (enc s).wire ++ chunkWire M.aead sub n bufs = W

structure Fresh (S : Session M ok) (timestamp : UInt64) (w : EncryptedWriter M) : Prop where
  state : w.tx.state = .assembleHeader ()
  cipher : w.tx.cipher = ⟨S.sub, 0⟩
  willing : Willing w.tx.sock
  header : w.wire ++ (w.tx.buffer ++ M.aead.encrypt S.sub 0
    (headerChunk w.streamTy timestamp w.requestSalt S.first)) = S.header

variable {S : Session M ok} {timestamp : UInt64}

theorem Fresh.not_writing (h : Fresh S timestamp w) (pos : Nat) :
    w.tx.state ≠ .writing pos := by
  rw [h.state]
  nofun

theorem Fresh.toWrite (h : Fresh S timestamp w) {s : σ} (hF : F s)
    (hsent : Sent w (w.assembled timestamp S.first) (enc s)) : ToWrite enc F S.sub S.wire S.rest s := by
  have htake : S.first.take maxPacketSize = S.first :=
    take_of_length_le (S.fits _ mem_cons_self)
  refine ⟨hF, fun b hb => S.fits b (mem_cons_of_mem _ hb), 2, hsent.resting ?_, ?_⟩
  · rw [EncryptedWriter.assembled, Tx.assembled_cipher h.not_writing, h.cipher]
  · rw [Session.wire, ← h.header, EncryptedWriter.wire, hsent.written.wire, EncryptedWriter.assembled,
      Tx.assembled_sock, EncryptedWriter.wire]
    simp only [Tx.assembled, h.state, htake, Tx.assemble, Cipher.encryptPacket, h.cipher, append_assoc, zero_add]

theorem PlainWrites.one (hP : PlainWrites enc poll act F) {W : Bytes} (buf : Bytes) (bufs : List Bytes) (s : σ)
    (env : List O × WriteEnv) (envs : List (List O × WriteEnv)) (m : Nat) (h : ToWrite enc F sub W (buf :: bufs) s)
    (hlen : (enc s).pot + m < (env :: envs).length) :
    ∃ s' envs', await (interleavedWrite act poll buf) s (env :: envs) =
        (.done buf.length, s', envs') ∧ ToWrite enc F sub W bufs s' ∧
      (enc s').pot + m ≤ envs'.length := by
  obtain ⟨hF, hfit, n, hrest, hW⟩ := h
  have hstart := pollWriteEncrypted_first env.2.timestamp buf hrest.not_writing hrest.willing
  have hfirst := awaitStep_after act (fun t => F t ∧ enc t = enc s)
    (fun o t ht => by
      rw [hP.act_enc o t ht.1]
      exact ⟨⟨hP.act_keeps o t ht.1, ht.2⟩, rfl⟩)
    (fun t ht => hP.step buf env.2 ht.1 (by rw [ht.2]; exact hstart)) env.1 ⟨hF, rfl⟩
  obtain ⟨k, s', envs', he, ⟨hF', hk, hsent⟩, hle⟩ := await_ok (hP.again buf) (n := m) hfirst hlen
  have htake : buf.take maxPacketSize = buf :=
    take_of_length_le (hfit buf mem_cons_self)
  rw [htake] at hk
  subst hk
  refine ⟨s', envs', he, ⟨hF', fun b hb => hfit b (mem_cons_of_mem _ hb), n + 2, ?_, ?_⟩, hle⟩
  · refine hsent.resting ?_
    rw [EncryptedWriter.assembled, Tx.assembled_cipher hrest.not_writing, hrest.cipher]
  · rw [← hW, EncryptedWriter.wire, hsent.written.wire, EncryptedWriter.assembled, Tx.assembled_sock,
      EncryptedWriter.wire]
    simp only [Tx.assembled, hrest.state, htake, Tx.assemble, Cipher.encryptPacket, hrest.buffer,
      hrest.cipher, chunkWire, nil_append, append_assoc]

theorem PlainWrites.all (hP : PlainWrites enc poll act F) {W : Bytes} {bufs : List Bytes} {s : σ}
    {envs : List (List O × WriteEnv)} (h : ToWrite enc F sub W bufs s)
    (hlen : (enc s).pot + bufs.length ≤ envs.length) :
    ∃ s' envs', awaitEach (interleavedWrite act poll) bufs s envs =
        (.done (bufs.map length), s', envs') ∧ F s' ∧ (enc s').wire = W := by
  obtain ⟨s', envs', he, hF, -, n, -, hW⟩ :=
    awaitEach_ok (fun s => (enc s).pot) hP.one bufs h hlen
  exact ⟨s', envs', he, hF, by rw [← hW, chunkWire, append_nil]⟩

end

/-! ## 2. The writes of a client -/

/-- The reads before a poll of a write, and what it meets. -/
abbrev WriteTurn : Type := List (ReadEnv × Nat) × WriteEnv

def ProxyClientStream.readAct (op : ReadEnv × Nat) (s : ProxyClientStream M) : ProxyClientStream M :=
  (s.pollRead op.1 op.2).2

variable (op : Bytes × WriteEnv)

def ProxyClientStream.writeAct (s : ProxyClientStream M) :
    ProxyClientStream M :=
  (s.pollWrite op.1 op.2).2

structure ClientIn (writerState : ClientWriteState) (s : ProxyClientStream M) : Prop where
  state : s.writerState = writerState
  anonymous : Anonymous s.stream.dec.reader

variable {st : ClientWriteState}

theorem client_readAct (op : ReadEnv × Nat) (s : ProxyClientStream M)
    (h : ClientIn st s) : ClientIn st (s.readAct op) ∧ (s.readAct op).stream.enc = s.stream.enc := by
  obtain ⟨readerState, hsnd⟩ := s.pollRead_snd op.1 op.2
  rw [ProxyClientStream.readAct, hsnd]
  refine ⟨⟨h.state, ?_⟩, CryptoStream.pollReadDecrypted_anonymous h.anonymous⟩
  rw [CryptoStream.pollReadDecrypted_dec]
  exact pollIn_anonymous _ _ h.anonymous

variable {s : ProxyClientStream M}

theorem client_pollWrite_connected (h : s.writerState = .connected) (buf : Bytes) (env : WriteEnv) :
    s.pollWrite buf env = ((pollWriteEncrypted env.timestamp buf s.stream.enc).1.mapError .io,
      { s with stream.enc := (pollWriteEncrypted env.timestamp buf s.stream.enc).2 }) := by
  rw [ProxyClientStream.pollWrite, h]
  simp only [CryptoStream.pollWriteEncrypted_eq]

theorem client_plainWrites : PlainWrites (fun s : ProxyClientStream M => s.stream.enc)
    ProxyClientStream.pollWrite ProxyClientStream.readAct (ClientIn .connected) where
  fst buf env s h := by rw [client_pollWrite_connected h.state]
  snd buf env s h := by rw [client_pollWrite_connected h.state]
  keeps buf env s h := by
    rw [client_pollWrite_connected h.state]
    exact ⟨h.state, h.anonymous⟩
  act_keeps o s h := (client_readAct o s h).1
  act_enc o s h := (client_readAct o s h).2

variable {addr : Address}

theorem makeFirstPacketBuffer_ok {ε : Type} (haddr : addr.Fits) (padding buf : Bytes) :
    makeFirstPacketBuffer (ε := ε) padding addr buf =
      .ok (requestPrefix (if buf = [] then padding else []) addr ++ buf) := by
  rw [makeFirstPacketBuffer, Address.writeToBuf, if_pos haddr]
  simp [requestPrefix, append_assoc]

variable {Q : Nat → EncryptedWriter M → Prop} {P : EncryptedWriter M → Prop}

theorem client_connecting (packet buf : Bytes)
    (env : WriteEnv) (hanon : Anonymous s.stream.dec.reader) (h : AwaitStep P Q EncryptedWriter.pot s.stream.enc
      (pollWriteEncrypted env.timestamp packet s.stream.enc)) :
    AwaitStep (fun s => ClientIn (.connecting packet) s ∧ P s.stream.enc)
      (fun n s => n = buf.length ∧ ClientIn .connected s ∧ ∃ m, Q m s.stream.enc) (fun s => s.stream.enc.pot)
      s (s.pollConnecting env packet buf) := by
  rw [ProxyClientStream.pollConnecting, CryptoStream.pollWriteEncrypted_eq]
  rcases h with ⟨enc, he, hP, hlt⟩ | ⟨n, enc, he, hQ, hle⟩
  · rw [he]
    exact .inl ⟨_, rfl, ⟨⟨rfl, hanon⟩, hP⟩, hlt⟩
  · rw [he]
    exact .inr ⟨_, _, rfl, ⟨rfl, ⟨rfl, hanon⟩, n, hQ⟩, hle⟩

theorem client_after_reads {K : EncryptedWriter M → Prop} {P : ProxyClientStream M → Prop}
    {Q : Nat → ProxyClientStream M → Prop} (buf : Bytes) (env : WriteTurn)
    (hstep : ∀ t, ClientIn st t → K t.stream.enc →
      AwaitStep P Q (fun t => t.stream.enc.pot) t (t.pollWrite buf env.2))
    (h : ClientIn st s) (hK : K s.stream.enc) : AwaitStep P Q (fun t => t.stream.enc.pot) s
      (interleavedWrite ProxyClientStream.readAct ProxyClientStream.pollWrite buf env s) := by
  refine awaitStep_after ProxyClientStream.readAct (fun t => ClientIn st t ∧ K t.stream.enc)
    (fun op t ht => ?_) (fun t ht => hstep t ht.1 ht.2) env.1 ⟨h, hK⟩
  obtain ⟨hin, henc⟩ := client_readAct op t ht.1
  rw [henc]
  exact ⟨⟨hin, ht.2⟩, rfl⟩

theorem client_again {x : Tx M.aead Unit} (packet buf : Bytes) (env : WriteTurn)
    (s : ProxyClientStream M) (h : ClientIn (.connecting packet) s ∧ Sending w x s.stream.enc) :
    AwaitStep (fun s => ClientIn (.connecting packet) s ∧ Sending w x s.stream.enc)
      (fun n s => n = buf.length ∧ ClientIn .connected s ∧
        ∃ m, m = (packet.take maxPacketSize).length ∧ Sent w x s.stream.enc)
      (fun s => s.stream.enc.pot) s (interleavedWrite ProxyClientStream.readAct ProxyClientStream.pollWrite buf env s)
      := by
  refine client_after_reads buf env (fun t ht hK => ?_) h.1 h.2
  rw [ProxyClientStream.pollWrite, ht.state]
  exact client_connecting packet buf env.2 ht.anonymous (pollWriteEncrypted_again _ packet hK)

theorem client_first (haddr : addr.Fits) (buf : Bytes) (h : ClientIn (.connect addr) s)
    (hfresh : ∀ pos, s.stream.enc.tx.state ≠ .writing pos) (hwill : Willing s.stream.enc.tx.sock)
    (env : WriteTurn) (envs : List WriteTurn) {m : Nat}
    (hlen : s.stream.enc.pot + m < (env :: envs).length) :
    ∃ s' envs', await (interleavedWrite ProxyClientStream.readAct ProxyClientStream.pollWrite buf) s (env :: envs)
        = (.done buf.length, s', envs') ∧
      ClientIn .connected s' ∧
      Sent s.stream.enc (s.stream.enc.assembled env.2.timestamp
        (requestPrefix (if buf = [] then env.2.padding else []) addr ++ buf)) s'.stream.enc ∧
      s'.stream.enc.pot + m ≤ envs'.length := by
  have hmake := makeFirstPacketBuffer_ok (ε := Empty) haddr env.2.padding buf
  generalize requestPrefix (if buf = [] then env.2.padding else []) addr ++ buf = packet at hmake ⊢
  have hstart := pollWriteEncrypted_first env.2.timestamp packet hfresh hwill
  have hfirst := client_after_reads (K := (· = s.stream.enc)) buf env (fun t ht hK => by
    rw [ProxyClientStream.pollWrite, ht.state]
    simp only [hmake]
    exact client_connecting packet buf env.2 ht.anonymous (by rw [hK]; exact hstart)) h rfl
  obtain ⟨k, s', envs', he, ⟨hk, hin, _, _, hsent⟩, hle⟩ :=
    await_ok (client_again packet buf) (n := m) hfirst hlen
  subst hk
  exact ⟨s', envs', he, hin, hsent, hle⟩

theorem client_writes {S : Session M ok} (haddr : addr.Fits) (buf : Bytes) (h : ClientIn (.connect addr) s)
    (env : WriteTurn) (envs : List WriteTurn)
    (hfresh : Fresh S env.2.timestamp s.stream.enc)
    (hfirst : S.first = requestPrefix (if buf = [] then env.2.padding else []) addr ++ buf)
    (hlen : s.stream.enc.pot + (S.rest.length + 1) ≤ (env :: envs).length) :
    ∃ s' envs', awaitEach (interleavedWrite ProxyClientStream.readAct ProxyClientStream.pollWrite) (buf :: S.rest)
        s (env :: envs) = (.done ((buf :: S.rest).map length), s', envs') ∧
      s'.stream.enc.wire = S.wire := by
  obtain ⟨s₁, envs₁, he, hin, hsent, hle⟩ :=
    client_first haddr buf h hfresh.not_writing hfresh.willing env envs (m := S.rest.length) hlen
  rw [← hfirst] at hsent
  obtain ⟨s₂, envs₂, he₂, -, hW⟩ := client_plainWrites.all (hfresh.toWrite hin hsent) hle
  exact ⟨s₂, envs₂, awaitEach_cons he he₂, hW⟩

/-! ## 3. The writes of a server -/

def ProxyServerStream.readAct (op : ReadEnv × Nat) (s : ProxyServerStream M) : ProxyServerStream M :=
  (s.pollRead op.1 op.2).2

def ProxyServerStream.writeAct (s : ProxyServerStream M) :
    ProxyServerStream M :=
  (s.pollWrite op.1 op.2).2

structure ServerIn (S : Session M ok) (writerState : ServerWriteState) (s : ProxyServerStream M) :
    Prop where
  state : s.writerState = writerState
  handshaked : s.hasHandshaked = true
  reset : s.stream.hasHandshaked = true
  opened : S.Opened s.stream.dec.reader ∧ ¬ Awaiting s.stream.dec.reader

section

variable {S : Session M ok}

theorem server_readAct {st : ServerWriteState} (op : ReadEnv × Nat) (s : ProxyServerStream M) (h : ServerIn S st s) :
    ServerIn S st (s.readAct op) ∧ (s.readAct op).stream.enc = s.stream.enc := by
  rw [ProxyServerStream.readAct, ProxyServerStream.pollRead_eq h.handshaked,
    CryptoStream.pollReadDecrypted_handshaked h.reset]
  exact ⟨⟨h.state, h.handshaked, h.reset, pollIn_opened _ _ h.opened⟩, rfl⟩

variable {s : ProxyServerStream M}

theorem server_pollWrite_established (h : s.writerState = .established) (buf : Bytes) (env : WriteEnv) :
    s.pollWrite buf env = ((pollWriteEncrypted env.timestamp buf s.stream.enc).1.mapError .io,
      { s with stream.enc := (pollWriteEncrypted env.timestamp buf s.stream.enc).2 }) := by
  rw [ProxyServerStream.pollWrite, h]
  simp only [CryptoStream.pollWriteEncrypted_eq]

theorem server_plainWrites : PlainWrites (fun s : ProxyServerStream M => s.stream.enc)
    ProxyServerStream.pollWrite ProxyServerStream.readAct (ServerIn S .established) where
  fst buf env s h := by rw [server_pollWrite_established h.state]
  snd buf env s h := by rw [server_pollWrite_established h.state]
  keeps buf env s h := by
    rw [server_pollWrite_established h.state]
    exact ⟨h.state, h.handshaked, h.reset, h.opened⟩
  act_keeps o s h := (server_readAct o s h).1
  act_enc o s h := (server_readAct o s h).2

variable {salt : Bytes}

theorem server_prepare (hsalt : S.after.salt = some salt) (buf : Bytes) (env : WriteEnv)
    (h : ServerIn S .prepareHeader s) (hstep : AwaitStep P Q EncryptedWriter.pot (s.stream.enc.setRequestSalt salt)
      (pollWriteEncrypted env.timestamp buf (s.stream.enc.setRequestSalt salt))) :
    AwaitStep (fun s => ServerIn S .established s ∧ P s.stream.enc)
      (fun n s => ServerIn S .established s ∧ Q n s.stream.enc) (fun s => s.stream.enc.pot) s (s.pollWrite buf env)
      := by
  have hreceived : s.stream.dec.reader.salt = some salt := by
    rwa [h.opened.1]
  have heq : s.pollWrite buf env =
      ((pollWriteEncrypted env.timestamp buf (s.stream.enc.setRequestSalt salt)).1.mapError .io,
        { s with writerState := .established
                 stream.enc := (pollWriteEncrypted env.timestamp buf
                   (s.stream.enc.setRequestSalt salt)).2 }) := by
    rw [ProxyServerStream.pollWrite, h.state]
    simp only [hreceived, CryptoStream.pollWriteEncrypted_eq]
  rw [heq]
  refine hstep.transfer rfl rfl (fun hp hw => ?_) (fun n hn hw => ?_)
  · rw [hp]
    exact ⟨rfl, ⟨rfl, h.handshaked, h.reset, h.opened⟩, hw⟩
  · rw [hn]
    exact ⟨n, rfl, ⟨rfl, h.handshaked, h.reset, h.opened⟩, hw⟩

theorem server_first (hsalt : S.after.salt = some salt) (buf : Bytes)
    (h : ServerIn S .prepareHeader s) (hfresh : ∀ pos, s.stream.enc.tx.state ≠ .writing pos)
    (hwill : Willing s.stream.enc.tx.sock) (env : WriteTurn)
    (envs : List WriteTurn) {m : Nat} (hlen : s.stream.enc.pot + m < (env :: envs).length) :
    ∃ n s' envs', await (interleavedWrite ProxyServerStream.readAct ProxyServerStream.pollWrite buf) s (env :: envs)
        = (.done n, s', envs') ∧ n = (buf.take maxPacketSize).length ∧
      ServerIn S .established s' ∧
      Sent (s.stream.enc.setRequestSalt salt) ((s.stream.enc.setRequestSalt salt).assembled env.2.timestamp buf)
        s'.stream.enc ∧
      s'.stream.enc.pot + m ≤ envs'.length := by
  have hstart := pollWriteEncrypted_first env.2.timestamp buf
    (w := s.stream.enc.setRequestSalt salt) hfresh hwill
  have hfirst := awaitStep_after ProxyServerStream.readAct
    (fun t => ServerIn S .prepareHeader t ∧ t.stream.enc = s.stream.enc)
    (fun op t ht => by
      obtain ⟨hin, henc⟩ := server_readAct op t ht.1
      exact ⟨⟨hin, henc.trans ht.2⟩, congrArg EncryptedWriter.pot henc⟩)
    (fun t ht => server_prepare hsalt buf env.2 ht.1 (by rw [ht.2]; exact hstart)) env.1 ⟨h, rfl⟩
  obtain ⟨n, s', envs', he, ⟨hin, hn, hsent⟩, hle⟩ :=
    await_ok (server_plainWrites.again buf) (n := m) hfirst hlen
  exact ⟨n, s', envs', he, hn, hin, hsent, hle⟩

theorem server_writes {okT : ReadEnv → Prop} {T : Session M okT} (hsalt : S.after.salt = some salt)
    (h : ServerIn S .prepareHeader s) (env : WriteTurn)
    (envs : List WriteTurn)
    (hfresh : Fresh T env.2.timestamp (s.stream.enc.setRequestSalt salt))
    (hlen : s.stream.enc.pot + (T.rest.length + 1) ≤ (env :: envs).length) :
    ∃ s' envs', awaitEach (interleavedWrite ProxyServerStream.readAct ProxyServerStream.pollWrite) (T.first :: T.rest)
        s (env :: envs) = (.done ((T.first :: T.rest).map length), s', envs') ∧
      s'.stream.enc.wire = T.wire := by
  obtain ⟨n, s₁, envs₁, he, hn, hin, hsent, hle⟩ := server_first hsalt T.first h hfresh.not_writing
    hfresh.willing env envs (m := T.rest.length) hlen
  rw [take_of_length_le (T.fits _ mem_cons_self)] at hn
  subst hn
  obtain ⟨s₂, envs₂, he₂, -, hW⟩ := server_plainWrites.all (hfresh.toWrite hin hsent) hle
  exact ⟨s₂, envs₂, awaitEach_cons he he₂, hW⟩

end

/-! ## 4. Reads with writes in between -/

theorem client_writeAct (s : ProxyClientStream M) :
    (s.writeAct op).stream.dec = s.stream.dec ∧ (s.writeAct op).stream.enc.salt = s.stream.enc.salt ∧
      (s.writeAct op).readerState = s.readerState := by
  unfold ProxyClientStream.writeAct ProxyClientStream.pollWrite
  have hcon : ∀ packet, (s.pollConnecting op.2 packet op.1).2.stream.dec = s.stream.dec ∧
      (s.pollConnecting op.2 packet op.1).2.stream.enc.salt = s.stream.enc.salt ∧
      (s.pollConnecting op.2 packet op.1).2.readerState = s.readerState := by
    intro packet
    rw [ProxyClientStream.pollConnecting, CryptoStream.pollWriteEncrypted_eq]
    cases (pollWriteEncrypted op.2.timestamp packet s.stream.enc).1 <;> exact ⟨rfl, rfl, rfl⟩
  cases s.writerState with
  | connect addr =>
    simp only
    split
    · exact hcon _
    · exact ⟨rfl, rfl, rfl⟩
  | connecting packet => exact hcon packet
  | connected =>
    rw [CryptoStream.pollWriteEncrypted_eq]
    exact ⟨rfl, rfl, rfl⟩

theorem server_writeAct (s : ProxyServerStream M) :
    (s.writeAct op).stream.dec = s.stream.dec ∧ (s.writeAct op).hasHandshaked = s.hasHandshaked := by
  unfold ProxyServerStream.writeAct ProxyServerStream.pollWrite
  cases s.writerState with
  | established => simp only [CryptoStream.pollWriteEncrypted_eq, and_self]
  | prepareHeader =>
    simp only [CryptoStream.pollWriteEncrypted_eq]
    split <;> exact ⟨rfl, rfl⟩

section

variable {I : ReaderIo M → Bytes → Prop} {okIn : ReadEnv → ReaderIo M → Prop}

theorem client_yields (hS : Serves pollIn okIn I readMeasure) {salt : Bytes} (hsalt : salt ≠ [])
    (hecho : ∀ dec X, I dec X → 0 < dec.reader.currentDataChunkRemaining.1 →
      dec.reader.receivedRequestSalt = some salt) {X : Bytes} (h : ClientReading I salt s X) :
    Yields (interleaved ProxyClientStream.writeAct ProxyClientStream.pollRead) (fun env s => okIn env.2 s.stream.dec)
      s X := by
  refine yields_of_inv ((client_serves hS hsalt hecho).interleaved (fun op s X h => ?_)
    (fun op env s h => ?_) (fun op s => ?_)) h
  · rw [ClientReading, (client_writeAct op s).1, (client_writeAct op s).2.1]
    exact h
  · rw [(client_writeAct op s).1]
    exact h
  · rw [(client_writeAct op s).1]

theorem server_yields (hS : Serves pollIn okIn I readMeasure) {s : ProxyServerStream M} {X : Bytes}
    (h : ServerReading I s X) : Yields (interleaved ProxyServerStream.writeAct ProxyServerStream.pollRead)
      (fun env s => okIn env.2 s.stream.dec) s X := by
  refine yields_of_inv ((server_serves hS).interleaved (fun op s X h => ?_)
    (fun op env s h => ?_) (fun op s => ?_)) h
  · rw [ServerReading, (server_writeAct op s).1, (server_writeAct op s).2]
    exact h
  · rw [(server_writeAct op s).1]
    exact h
  · rw [(server_writeAct op s).1]

end

end Shadowsocks.Tcp.V2
