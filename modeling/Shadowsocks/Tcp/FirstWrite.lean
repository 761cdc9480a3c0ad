/-
  Subject:   THE FIRST WRITE OF A CLIENT (`ProxyClientStream::poll_write`): header and buffer go to
  `poll_write_encrypted`, and the whole buffer is reported, however much was taken.
-/
import Mathlib.Data.List.TakeDrop
import Shadowsocks.Tcp.CryptoIo

namespace Shadowsocks.Tcp

open Lib List
open V2 (WriteEnv WriteError ClientWriteState Setup)

/-! ## 1. Writers that have to wait -/

section

variable {A : Aead} {ι : Type}

def Halfway (w u : Tx A ι) : Prop :=
  ∃ pos, u = { w with state := .writing pos, sock := u.sock } ∧
    u.sock.wire ++ w.buffer.drop pos = w.sock.wire ++ w.buffer

def AllOut (w u : Tx A ι) : Prop := u.sock.wire = w.sock.wire ++ w.buffer

def Settled (w u : Tx A ι) : Prop :=
  u = { w with state := .assemblePacket, buffer := [], sock := u.sock } ∧ AllOut w u

variable {w u : Tx A ι}

theorem pollWriting_waits {pos : Nat} (hsame : u = { w with state := .writing pos, sock := u.sock })
    (hwire : u.sock.wire ++ w.buffer.drop pos = w.sock.wire ++ w.buffer) (buf : Bytes) :
    WaitStep (Halfway w) (fun n v => n = buf.length ∧ Settled w v) (pollWriting buf pos u) := by
  have hbuffer : u.buffer = w.buffer := by rw [hsame]
  have hcipher : u.cipher = w.cipher := by rw [hsame]
  rcases pollWriting_cases buf pos u with ⟨pos', sock', he, hd, -⟩ | ⟨e, v, he, -⟩ | ⟨sock', he, hd, -⟩
  · rw [he]
    rw [hbuffer] at hd
    refine ⟨pos', ?_, hd.trans hwire⟩
    rw [hbuffer, hcipher]
  · rw [he]
    trivial
  · rw [he]
    rw [hbuffer] at hd
    refine ⟨rfl, ?_, hd.trans hwire⟩
    rw [hcipher]

theorem pollWriteChunks_begins (max : Nat) (header : ι → Bytes → Bytes) (buf : Bytes) {t : Tx A ι}
    (ht : ∀ pos, t.state ≠ .writing pos) : WaitStep (Halfway (t.assembled max header buf))
      (fun n v => n = (buf.take max).length ∧ Settled (t.assembled max header buf) v)
      (pollWriteChunks max header buf t) := by
  have hstart : t.pos = 0 ∧ t.assembled max header buf = { t.assembled max header buf with state := .writing 0 } := by
    unfold Tx.pos Tx.assembled
    cases hs : t.state with
    | writing pos => exact absurd hs (ht pos)
    | assembleHeader i | assemblePacket => exact ⟨rfl, rfl⟩
  rw [pollWriteChunks_eq, hstart.1]
  exact pollWriting_waits hstart.2 rfl _

theorem pollWriteChunks_resumes (max : Nat) (header : ι → Bytes → Bytes) (buf : Bytes) (h : Halfway w u) :
    WaitStep (Halfway w) (fun n v => n = (buf.take max).length ∧ Settled w v) (pollWriteChunks max header buf u) := by
  obtain ⟨pos, hsame, hwire⟩ := h
  have hs : u.state = .writing pos := by rw [hsame]
  rw [pollWriteChunks_eq, Tx.pos, Tx.assembled, hs]
  exact pollWriting_waits hsame hwire _

end

namespace Stream

variable {S : Method}

def Halfway (w u : EncryptedWriter S) : Prop :=
  ∃ pos, u = { w with state := .writing pos, sock := u.sock } ∧
    u.sock.wire ++ w.buffer.drop pos = w.sock.wire ++ w.buffer

def Settled (w u : EncryptedWriter S) : Prop :=
  u = { w with state := .assemblePacket, buffer := [], sock := u.sock } ∧ u.sock.wire = w.sock.wire ++ w.buffer

variable {w u : EncryptedWriter S}

theorem pollWriting_waits {pos : Nat} (hsame : u = { w with state := .writing pos, sock := u.sock })
    (hwire : u.sock.wire ++ w.buffer.drop pos = w.sock.wire ++ w.buffer) (buf : Bytes) :
    WaitStep (Halfway w) (fun n v => n = buf.length ∧ Settled w v) (pollWriting buf pos u) := by
  have hbuffer : u.buffer = w.buffer := by rw [hsame]
  have hdrain := drain_step u.buffer pos u.sock
  unfold pollWriting
  generalize drain u.buffer pos u.sock = x at hdrain ⊢
  cases hdrain with
  | pending pos' sock' hd _ _ =>
    rw [hbuffer] at hd
    refine ⟨pos', ?_, hd.trans hwire⟩
    rw [hsame]
  | failed e pos' sock' _ => trivial
  | done pos' sock' hd _ _ =>
    rw [hbuffer] at hd
    refine ⟨rfl, ?_, hd.trans hwire⟩
    rw [hsame]

theorem pollWriteEncrypted_begins (buf : Bytes) {w : EncryptedWriter S} (hs : w.state = .assemblePacket) :
    WaitStep (Halfway (w.assemble buf)) (fun n v => n = buf.length ∧ Settled (w.assemble buf) v)
      (pollWriteEncrypted buf w) := by
  rw [pollWriteEncrypted, hs]
  exact pollWriting_waits rfl rfl buf

theorem pollWriteEncrypted_resumes (buf : Bytes) (h : Halfway w u) :
    WaitStep (Halfway w) (fun n v => n = buf.length ∧ Settled w v) (pollWriteEncrypted buf u) := by
  obtain ⟨pos, hsame, hwire⟩ := h
  have hs : u.state = .writing pos := by rw [hsame]
  rw [pollWriteEncrypted, hs]
  exact pollWriting_waits hsame hwire buf

end Stream

/-! ## 2. The client -/

structure ProxyClientStream (K : CipherKind) where
  enc : EncryptedWriter K
  writerState : ClientWriteState

def ProxyClientStream.fromStream (K : CipherKind) (E : Setup) (addr : Address) (events : List WriteEvent) :
    ProxyClientStream K :=
  ⟨.withIdentity K .client E.clientKey E.clientSalt E.identityKeys ⟨events, []⟩, .connect addr⟩

def makeFirstPacketBuffer {ε : Type} : CipherKind → Bytes → Address → Bytes → Outcome ε Bytes
  | .aead2022 _, padding, addr, buf => V2.makeFirstPacketBuffer padding addr buf
  | _, _, addr, buf => do
      let bytes ← addr.writeToBuf
      return bytes ++ buf

variable {K : CipherKind}

def ProxyClientStream.pollConnecting (env : WriteEnv) (buffer buf : Bytes) (s : ProxyClientStream K) :
    Poll WriteError Nat × ProxyClientStream K :=
  match pollWriteEncrypted K env.timestamp buffer s.enc with
  | (.pending, enc) => (.pending, ⟨enc, .connecting buffer⟩)
  | (.error e, enc) => (.error (.io e), ⟨enc, .connecting buffer⟩)
  | (.ready _, enc) => (.ready buf.length, ⟨enc, .connected⟩)

def ProxyClientStream.pollWrite (buf : Bytes) (env : WriteEnv) (s : ProxyClientStream K) :
    Poll WriteError Nat × ProxyClientStream K :=
  match s.writerState with
  | .connect addr =>
    match makeFirstPacketBuffer (ε := Empty) K env.padding addr buf with
    | .ok buffer => s.pollConnecting env buffer buf
    | .panic => (.error .panicked, s)
  | .connecting buffer => s.pollConnecting env buffer buf
  | .connected =>
    match pollWriteEncrypted K env.timestamp buf s.enc with
    | (r, enc) => (r.mapError .io, ⟨enc, .connected⟩)

variable {M : V2.Method}

def firstHeader : CipherKind → Bytes → Address → Bytes → Bytes
  | .aead2022 _, padding, addr, buf => V2.requestPrefix (if buf = [] then padding else []) addr
  | _, _, addr, _ => addr.bytes

theorem makeFirstPacketBuffer_eq {ε : Type} (K : CipherKind) (padding : Bytes) (addr : Address) (buf : Bytes) :
    makeFirstPacketBuffer (ε := ε) K padding addr buf =
      if addr.Fits then .ok (firstHeader K padding addr buf ++ buf) else .panic := by
  by_cases haddr : addr.Fits
  · rw [if_pos haddr]
    cases K with
    | aead2022 M => exact V2.makeFirstPacketBuffer_ok haddr padding buf
    | _ =>
      simp only [makeFirstPacketBuffer, Address.writeToBuf, if_pos haddr]
      rfl
  cases K with
  | aead2022 M =>
    simp only [makeFirstPacketBuffer, V2.makeFirstPacketBuffer, Address.writeToBuf, if_neg haddr]
    rfl
  | _ =>
    simp only [makeFirstPacketBuffer, Address.writeToBuf, if_neg haddr]
    rfl

/-! ## 3. What is on the wire -/

def firstAccept : List WriteEvent → Option Nat
  | [] => none
  | .accept n :: _ => some n
  | _ :: evs => firstAccept evs

def taken : CipherKind → List WriteEvent → Bytes → Bytes
  | .none, events, packet => ((firstAccept events).map packet.take).getD packet
  | .stream _, _, packet => packet
  | .aead _, _, packet => packet.take V1.maxPacketSize
  | .aead2022 _, _, packet => packet.take V2.maxPacketSize

def Begun (E : Setup) (sent : UInt64) (packet : Bytes) (events : List WriteEvent) :
    (K : CipherKind) → EncryptedWriter K → Prop
  | .none, sock => WriteSock.wire sock = [] ∧ firstAccept (WriteSock.events sock) = firstAccept events
  | .stream S, w =>
    Stream.Halfway ((Stream.EncryptedWriter.new S E.clientKey E.clientSalt ⟨events, []⟩).assemble packet) w
  | .aead M, w => Halfway ((V1.EncryptedWriter.new M E.clientKey E.clientSalt ⟨events, []⟩).assembled
      V1.maxPacketSize Empty.elim packet) w
  | .aead2022 M, w => ∃ u, w = { V2.EncryptedWriter.withIdentity M .client E.clientKey E.clientSalt
        E.identityKeys ⟨events, []⟩ with tx := u } ∧
      Halfway ((V2.EncryptedWriter.withIdentity M .client E.clientKey E.clientSalt E.identityKeys
        ⟨events, []⟩).assembled sent packet) u

section

variable {E : Setup} {sent : UInt64} {packet : Bytes} {events : List WriteEvent}

theorem pollWrite_none {sock : WriteSock} (hwire : sock.wire = [])
    (hev : firstAccept sock.events = firstAccept events) :
    WaitStep (fun sock' : WriteSock => sock'.wire = [] ∧ firstAccept sock'.events = firstAccept events)
      (fun _ sock' => sock'.wire = ((firstAccept events).map packet.take).getD packet)
      (Lib.pollWrite packet sock) := by
  obtain ⟨evs, wire⟩ := sock
  subst hwire
  rw [← hev]
  cases evs with
  | nil => exact nil_append packet
  | cons ev evs =>
    cases ev with
    | pending => exact ⟨rfl, rfl⟩
    | error code => trivial
    | accept n => exact nil_append _

def AtRest (E : Setup) (sent : UInt64) (first : Bytes) (more : List Bytes) :
    (K : CipherKind) → EncryptedWriter K → Prop
  | .none, sock => WriteSock.wire sock = clientWire E .none sent first more
  | .stream S, w => ∃ sock, w = ⟨(S.encrypt (S.newCipher E.clientKey E.clientSalt) (first ++ more.flatten)).2,
        [], .assemblePacket, E.clientSalt, sock⟩ ∧
      sock.wire = clientWire E (.stream S) sent first more
  | .aead M, w => ∃ sock, w = ⟨⟨M.subkey E.clientKey E.clientSalt, 2 * (more.length + 1)⟩, [],
        .assemblePacket, sock⟩ ∧
      sock.wire = clientWire E (.aead M) sent first more
  | .aead2022 M, w => ∃ sock, V2.EncryptedWriter.tx w =
        ⟨⟨M.subkey E.clientKey E.clientSalt, 2 * (more.length + 1)⟩, [], .assemblePacket, sock⟩ ∧
      sock.wire = clientWire E (.aead2022 M) sent first more

theorem AtRest.wire {first : Bytes} {more : List Bytes} {w : EncryptedWriter K}
    (h : AtRest E sent first more K w) : w.wire = clientWire E K sent first more := by
  cases K with
  | none => exact h
  | stream S | aead M =>
    obtain ⟨sock, rfl, hwire⟩ := h
    exact hwire
  | aead2022 M =>
    obtain ⟨sock, htx, hwire⟩ := h
    show (V2.EncryptedWriter.tx w).sock.wire = _
    rwa [htx]

theorem settled_stream {S : Stream.Method} {v : Stream.EncryptedWriter S}
    (h : Stream.Settled ((Stream.EncryptedWriter.new S E.clientKey E.clientSalt ⟨events, []⟩).assemble packet) v) :
    AtRest E sent packet [] (.stream S) v := by
  obtain ⟨hsame, hwire⟩ := h
  refine ⟨v.sock, ?_, hwire.trans ?_⟩
  · rw [flatten_nil, append_nil]
    exact hsame
  · rw [clientWire_nil]
    rfl

theorem settled_aead {M : V1.AeadMethod} {v : V1.EncryptedWriter M}
    (h : Settled ((V1.EncryptedWriter.new M E.clientKey E.clientSalt ⟨events, []⟩).assembled V1.maxPacketSize
      Empty.elim packet) v) : AtRest E sent (packet.take V1.maxPacketSize) [] (.aead M) v := by
  obtain ⟨hsame, hwire⟩ := h
  refine ⟨v.sock, hsame, hwire.trans ?_⟩
  rw [clientWire_nil]
  simp [V1.EncryptedWriter.new, Tx.assembled, Tx.assemble, Cipher.encryptPacket, sentWire, chunkWire,
    V1.AeadMethod.newCipher]

variable {w : V2.EncryptedWriter M}

theorem settled_aead2022 {v : Tx M.aead Unit}
    (h : Settled ((V2.EncryptedWriter.withIdentity M .client E.clientKey E.clientSalt E.identityKeys
      ⟨events, []⟩).assembled sent packet) v) :
    AtRest E sent (packet.take V2.maxPacketSize) [] (.aead2022 M) ({ w with tx := v } : V2.EncryptedWriter M) := by
  obtain ⟨hsame, hwire⟩ := h
  refine ⟨v.sock, hsame, hwire.trans ?_⟩
  rw [clientWire_nil]
  simp [V2.EncryptedWriter.withIdentity, V2.EncryptedWriter.assembled, Tx.assembled, Tx.assemble,
    Cipher.encryptPacket, sentWire, V2.Method.newCipher]

theorem waitStep_writer {t : Tx M.aead Unit} {m : Nat}
    {Q : Nat → V2.EncryptedWriter M → Prop} (hQ : ∀ v, Settled t v → Q m { w with tx := v })
    {x : Poll IoError Nat × Tx M.aead Unit}
    (h : WaitStep (Halfway t) (fun n v => n = m ∧ Settled t v) x) :
    WaitStep (fun v => ∃ u, v = { w with tx := u } ∧ Halfway t u) Q (x.1, { w with tx := x.2 }) :=
  h.transfer (fun hp => ⟨hp, fun hmid => ⟨_, rfl, hmid⟩⟩)
    fun n hn => ⟨n, hn, fun hall => hall.1 ▸ hQ x.2 hall.2⟩

theorem pollWriteEncrypted_begins (K : CipherKind) :
    WaitStep (Begun E sent packet events K) (fun _ => AtRest E sent (taken K events packet) [] K)
      (pollWriteEncrypted K sent packet
        (.withIdentity K .client E.clientKey E.clientSalt E.identityKeys ⟨events, []⟩)) := by
  cases K with
  | none =>
    have hfirst : WaitStep (Begun E sent packet events .none) _ (Lib.pollWrite packet ⟨events, []⟩) :=
      pollWrite_none rfl rfl
    refine hfirst.transfer (fun hp => ⟨hp, id⟩) fun n hn => ⟨n, hn, fun hw => ?_⟩
    exact Eq.trans hw (append_nil _).symm
  | stream S =>
    exact (Stream.pollWriteEncrypted_begins packet rfl).transfer (fun hp => ⟨hp, id⟩)
      fun n hn => ⟨n, hn, fun hall => settled_stream hall.2⟩
  | aead M =>
    refine (pollWriteChunks_begins V1.maxPacketSize Empty.elim packet ?_).transfer (fun hp => ⟨hp, id⟩)
      fun n hn => ⟨n, hn, fun hall => settled_aead hall.2⟩
    intro pos hs
    cases hs
  | aead2022 M =>
    refine waitStep_writer (fun v => settled_aead2022) (pollWriteChunks_begins V2.maxPacketSize _ packet ?_)
    intro pos hs
    cases hs

theorem pollWriteEncrypted_resumes (K : CipherKind) (timestamp : UInt64) {w : EncryptedWriter K}
    (h : Begun E sent packet events K w) :
    WaitStep (Begun E sent packet events K) (fun _ => AtRest E sent (taken K events packet) [] K)
      (pollWriteEncrypted K timestamp packet w) := by
  cases K with
  | none =>
    refine (pollWrite_none h.1 h.2).transfer (fun hp => ⟨hp, id⟩) fun n hn => ⟨n, hn, fun hw => ?_⟩
    exact Eq.trans hw (append_nil _).symm
  | stream S =>
    exact (Stream.pollWriteEncrypted_resumes packet h).transfer (fun hp => ⟨hp, id⟩)
      fun n hn => ⟨n, hn, fun hall => settled_stream hall.2⟩
  | aead M =>
    exact (pollWriteChunks_resumes V1.maxPacketSize Empty.elim packet h).transfer (fun hp => ⟨hp, id⟩)
      fun n hn => ⟨n, hn, fun hall => settled_aead hall.2⟩
  | aead2022 M =>
    obtain ⟨u, rfl, hmid⟩ := h
    exact waitStep_writer (fun v => settled_aead2022) (pollWriteChunks_resumes V2.maxPacketSize _ packet hmid)

variable {s : ProxyClientStream K} {envs envs' : List WriteEnv} {env : WriteEnv} {buf : Bytes} {n : Nat}

theorem firstWrite_rests {addr : Address}
    (h : await (ProxyClientStream.pollWrite buf) (.fromStream K E addr events) (env :: envs) = (.done n, s, envs')) :
    n = buf.length ∧ s.writerState = .connected ∧
      AtRest E env.timestamp (taken K events (firstHeader K env.padding addr buf ++ buf)) [] K s.enc := by
  generalize hpacket : firstHeader K env.padding addr buf ++ buf = packet
  have hstep : ∀ (enc : EncryptedWriter K) st (env' : WriteEnv), WaitStep (Begun E env.timestamp packet events K)
      (fun _ => AtRest E env.timestamp (taken K events packet) [] K)
      (pollWriteEncrypted K env'.timestamp packet enc) →
      WaitStep (fun s => s.writerState = .connecting packet ∧ Begun E env.timestamp packet events K s.enc)
        (fun n s => n = buf.length ∧ s.writerState = .connected ∧
          AtRest E env.timestamp (taken K events packet) [] K s.enc)
        (ProxyClientStream.pollConnecting env' packet buf ⟨enc, st⟩) := by
    intro enc st env' hw
    unfold ProxyClientStream.pollConnecting
    rcases hr : pollWriteEncrypted K env'.timestamp packet enc with ⟨r, enc'⟩
    rw [hr] at hw
    cases r with
    | pending => exact ⟨rfl, hw⟩
    | error e => trivial
    | ready m => exact ⟨rfl, rfl, hw⟩
  refine await_done (P := fun s : ProxyClientStream K => s.writerState = .connecting packet ∧
    Begun E env.timestamp packet events K s.enc) (Q := fun n s => n = buf.length ∧ s.writerState = .connected ∧
    AtRest E env.timestamp (taken K events packet) [] K s.enc) (fun env' s hs => ?_) ?_ h
  · obtain ⟨hst, hmid⟩ := hs
    rw [ProxyClientStream.pollWrite, hst]
    exact hstep s.enc _ env' (pollWriteEncrypted_resumes K env'.timestamp hmid)
  show WaitStep _ _ (match makeFirstPacketBuffer (ε := Empty) K env.padding addr buf with
    | .ok buffer => _
    | .panic => _)
  rw [makeFirstPacketBuffer_eq]
  by_cases haddr : addr.Fits
  · rw [if_pos haddr, hpacket]
    exact hstep _ _ env (pollWriteEncrypted_begins K)
  · rw [if_neg haddr]
    trivial

theorem firstWrite_wire {addr : Address}
    (h : await (ProxyClientStream.pollWrite buf) (.fromStream K E addr events) (env :: envs) = (.done n, s, envs')) :
    n = buf.length ∧ s.enc.wire =
      sentWire E K env.timestamp (taken K events (firstHeader K env.padding addr buf ++ buf)) := by
  obtain ⟨hn, -, hrest⟩ := firstWrite_rests h
  exact ⟨hn, hrest.wire.trans (clientWire_nil ..)⟩

end

/-! ## 4. What reaches the server -/

def FirstTaken : CipherKind → List WriteEvent → Address → Bytes → Bytes → Prop
  | .none, events, addr, _, buf => ∀ k ∈ firstAccept events, addr.serializedLen + buf.length ≤ k
  | .stream _, _, _, _, _ => True
  | .aead _, _, addr, _, buf => addr.serializedLen + buf.length ≤ V1.maxPacketSize
  | .aead2022 _, _, addr, padding, buf =>
    addr.serializedLen + 2 + (if buf = [] then padding else []).length + buf.length ≤ V2.maxPacketSize

theorem taken_eq_iff (K : CipherKind) (events : List WriteEvent) (addr : Address) (padding buf : Bytes) :
    taken K events (firstHeader K padding addr buf ++ buf) = firstHeader K padding addr buf ++ buf ↔
      FirstTaken K events addr padding buf := by
  have hplain : (addr.bytes ++ buf).length = addr.serializedLen + buf.length := by
    rw [length_append, Address.bytes_length]
  cases K with
  | none =>
    show ((firstAccept events).map (addr.bytes ++ buf).take).getD (addr.bytes ++ buf) = addr.bytes ++ buf ↔
      ∀ k ∈ firstAccept events, addr.serializedLen + buf.length ≤ k
    cases firstAccept events with
    | none => simp
    | some k =>
      rw [← hplain]
      simp only [Option.map_some, Option.getD_some, take_eq_self_iff, Option.mem_def, Option.some.injEq, forall_eq']
  | stream S => exact iff_of_true rfl trivial
  | aead M =>
    show (addr.bytes ++ buf).take V1.maxPacketSize = addr.bytes ++ buf ↔ _
    rw [take_eq_self_iff, hplain]
    exact Iff.rfl
  | aead2022 M =>
    show (V2.requestPrefix _ addr ++ buf).take V2.maxPacketSize = V2.requestPrefix _ addr ++ buf ↔ _
    rw [take_eq_self_iff, length_append, V2.requestPrefix, length_append, length_append,
      Address.bytes_length, put16_length, ← add_assoc]
    exact Iff.rfl

theorem short_taken (K : CipherKind) (events : List WriteEvent) (packet : Bytes) :
    Short K (taken K events packet) := by
  cases K with
  | none | stream S => trivial
  | aead M | aead2022 M => exact length_take_le _ _

/-- **The first write of a client**: the server decodes what was taken of the first packet, the whole exactly if all
was taken. -/
theorem firstWrite_whole_iff (K : CipherKind) (hinv : K.Inverts) (E : Setup) (hE : Agrees E K) (addr : Address)
    (buf : Bytes) (events : List WriteEvent) (env : WriteEnv) (envs envs' : List WriteEnv) (n : Nat)
    (s : ProxyClientStream K)
    (h : await (ProxyClientStream.pollWrite buf) (.fromStream K E addr events) (env :: envs) = (.done n, s, envs')) :
    Decodes E K env.timestamp s.enc.wire (taken K events (firstHeader K env.padding addr buf ++ buf)) ∧
      (taken K events (firstHeader K env.padding addr buf ++ buf) = firstHeader K env.padding addr buf ++ buf.take n ↔
        FirstTaken K events addr env.padding buf) := by
  obtain ⟨rfl, hwire⟩ := firstWrite_wire h
  constructor
  · rw [hwire]
    exact decodes_sent hinv hE env.timestamp (short_taken K events _)
  · rw [take_length]
    exact taken_eq_iff K events addr env.padding buf

def saltSetup : Setup := ⟨[1], [], [1], none, V1.salt₀, V1.salt₀⟩

def someTarget : Address := .socketAddress (.v4 ⟨16909060, 443⟩)

def firstEvents : List WriteEvent := [.accept 3, .pending, .accept 40]

/-- A write of two bytes is done, and what is decoded of it is what was taken. -/
def FirstWritten (K : CipherKind) : Prop :=
  ∃ s envs', await (ProxyClientStream.pollWrite [7, 8]) (.fromStream K saltSetup someTarget firstEvents)
      [⟨0, []⟩, ⟨1, []⟩] = (.done 2, s, envs') ∧
    Decodes saltSetup K 0 s.enc.wire (taken K firstEvents (firstHeader K [] someTarget [7, 8] ++ [7, 8])) ∧
    (taken K firstEvents (firstHeader K [] someTarget [7, 8] ++ [7, 8]) = firstHeader K [] someTarget [7, 8] ++ [7, 8] ↔
      FirstTaken K firstEvents someTarget [] [7, 8])

theorem firstWrite_whole_iff_small :
    FirstWritten (.aead V1.taggedMethod) ∧ FirstWritten (.stream Stream.Method.counted) :=
  ⟨⟨_, _, rfl, firstWrite_whole_iff (.aead V1.taggedMethod) Aead.tagged_inverts saltSetup ⟨rfl, rfl⟩ someTarget
      [7, 8] firstEvents ⟨0, []⟩ [⟨1, []⟩] _ 2 _ rfl⟩,
    ⟨_, _, rfl, firstWrite_whole_iff (.stream Stream.Method.counted) Stream.Method.counted_inverts saltSetup ⟨rfl, rfl⟩
      someTarget [7, 8] firstEvents ⟨0, []⟩ [⟨1, []⟩] _ 2 _ rfl⟩⟩

variable {addr : Address}

theorem firstWrite_atOnce (M : V1.AeadMethod) (E : Setup) (haddr : addr.Fits) (buf : Bytes) (env : WriteEnv) :
    ∃ s, await (ProxyClientStream.pollWrite buf) (.fromStream (.aead M) E addr []) [env] =
      (.done buf.length, s, []) := by
  have hfirst := pollWriteChunks_first V1.maxPacketSize Empty.elim (addr.bytes ++ buf)
    (t := V1.EncryptedWriter.new M E.clientKey E.clientSalt ⟨[], []⟩) nofun (willing_nil [])
  rcases hfirst with ⟨u, -, -, hlt⟩ | ⟨n, u, hready, -, -⟩
  · exact absurd hlt (Nat.not_lt_zero _)
  have hbuffer : makeFirstPacketBuffer (ε := Empty) (.aead M) env.padding addr buf =
      .ok (addr.bytes ++ buf) := (makeFirstPacketBuffer_eq _ _ _ _).trans (if_pos haddr)
  have hwrite : pollWriteEncrypted (.aead M) env.timestamp (addr.bytes ++ buf)
      (.withIdentity (.aead M) .client E.clientKey E.clientSalt E.identityKeys ⟨[], []⟩) = (.ready n, u) := hready
  have hpoll : ProxyClientStream.pollWrite buf env (.fromStream (.aead M) E addr []) =
      (.ready buf.length, ⟨u, .connected⟩) := by
    unfold ProxyClientStream.pollWrite ProxyClientStream.fromStream ProxyClientStream.pollConnecting
    dsimp only
    rw [hbuffer]
    dsimp only
    rw [hwrite]
  exact ⟨⟨u, .connected⟩, by rw [await, hpoll]⟩

/-- **A byte is lost**: of 16377 bytes behind an address of seven, all are reported and all but the
last arrive. -/
theorem firstWrite_truncated : ∃ s, await (ProxyClientStream.pollWrite (replicate 16377 7))
        (.fromStream (.aead V1.taggedMethod) saltSetup someTarget []) [⟨0, []⟩] = (.done 16377, s, []) ∧
      Decodes saltSetup (.aead V1.taggedMethod) 0 s.enc.wire (someTarget.bytes ++ replicate 16376 7) ∧
      someTarget.bytes ++ replicate 16376 7 ≠ someTarget.bytes ++ (replicate 16377 7).take 16377 := by
  obtain ⟨s, hs⟩ := firstWrite_atOnce V1.taggedMethod saltSetup (show someTarget.Fits from trivial)
    (replicate 16377 7) ⟨0, []⟩
  rw [length_replicate] at hs
  have htaken : taken (.aead V1.taggedMethod) [] (someTarget.bytes ++ replicate 16377 7) =
      someTarget.bytes ++ replicate 16376 7 := by
    show (someTarget.bytes ++ replicate 16377 7).take 16383 = _
    rw [take_append, take_replicate, Address.bytes_length]
    rfl
  have hwire := (firstWrite_wire hs).2
  refine ⟨s, hs, ?_, fun heq => ?_⟩
  · rw [hwire, ← htaken]
    exact decodes_sent (K := .aead V1.taggedMethod) Aead.tagged_inverts ⟨rfl, rfl⟩ 0 (short_taken _ _ _)
  · have hlen := congrArg length (append_cancel_left heq)
    rw [length_replicate, length_take, length_replicate] at hlen
    omega

/-! ## 5. The server's handshake -/

def maxPaddingSize : Nat := 900

theorem firstWrite_fits {E : Setup} {buf : Bytes} {events : List WriteEvent} {env : WriteEnv}
    {envs envs' : List WriteEnv} {n : Nat} {s : ProxyClientStream K}
    (h : await (ProxyClientStream.pollWrite buf) (.fromStream K E addr events) (env :: envs) =
      (.done n, s, envs')) : addr.Fits := by
  by_contra haddr
  have hpanic : makeFirstPacketBuffer (ε := Empty) K env.padding addr buf = .panic :=
    (makeFirstPacketBuffer_eq K env.padding addr buf).trans (if_neg haddr)
  have hpoll : ProxyClientStream.pollWrite buf env (.fromStream K E addr events) =
      (.error .panicked, .fromStream K E addr events) := by
    unfold ProxyClientStream.pollWrite ProxyClientStream.fromStream
    dsimp only
    rw [hpanic]
  rw [await, hpoll] at h
  cases h

theorem requestPrefix_room (haddr : addr.Fits) {padding : Bytes} (hpad : padding.length ≤ maxPaddingSize) :
    (V2.requestPrefix padding addr).length < V2.maxPacketSize := by
  have hlen := Address.serializedLen_le haddr
  rw [maxPaddingSize] at hpad
  rw [V2.requestPrefix, length_append, length_append, put16_length, Address.bytes_length, V2.maxPacketSize]
  omega

/-- **The first request of a client**, whole, in time and with a new salt, is accepted exactly if buffer or padding is
not empty. -/
theorem firstRequest_accepted_iff (M : V2.Method) (hinv : M.Inverts) (E : Setup) (hE : Agrees E (.aead2022 M))
    (addr : Address) (buf : Bytes) (events : List WriteEvent) (env : WriteEnv) (envs envs' : List WriteEnv)
    (n : Nat) (s : ProxyClientStream (.aead2022 M))
    (h : await (ProxyClientStream.pollWrite buf) (.fromStream (.aead2022 M) E addr events) (env :: envs) =
      (.done n, s, envs')) (hpad : env.padding.length ≤ maxPaddingSize) (sock : ReadSock) (context : Context)
    (serverEvents : List WriteEvent) (reads : List V2.ReadEnv) (ho : Orderly sock)
    (hb : sockBytes sock = s.enc.wire)
    (hwhole : WholeFirst (V2.DecryptedReader.withUserManager M .server E.serverKey E.users).headerLen sock)
    (hfine : Fine V2.ProxyServerStream.pollRead (V2.ServerOk E env.timestamp)
      { E.server M sock context serverEvents with hasHandshaked := true } reads)
    (hlen : sockWeight sock < reads.length) :
    (∃ t reads', V2.ProxyServerStream.handshake (E.server M sock context serverEvents) reads =
        (.done addr.asRead, t, reads')) ↔ buf ≠ [] ∨ env.padding ≠ [] := by
  have haddr := firstWrite_fits h
  obtain ⟨⟨userKey, hagree⟩, hsalt⟩ := hE
  generalize hpadding : (if buf = [] then env.padding else []) = padding
  have hroom : (V2.requestPrefix padding addr).length < V2.maxPacketSize := by
    refine requestPrefix_room haddr ?_
    rw [← hpadding]
    split
    · exact hpad
    · exact zero_le
  -- the first chunk is the whole header, and what of the buffer has room behind it
  obtain ⟨first, hfirst⟩ : ∃ first, first = buf.take (V2.maxPacketSize - (V2.requestPrefix padding addr).length) :=
    ⟨_, rfl⟩
  have htaken : taken (.aead2022 M) events (firstHeader (.aead2022 M) env.padding addr buf ++ buf) =
      V2.requestPrefix padding addr ++ first := by
    show (V2.requestPrefix (if buf = [] then env.padding else []) addr ++ buf).take V2.maxPacketSize = _
    rw [hpadding, take_append, take_of_length_le (le_of_lt hroom), hfirst]
  have hsmall : ∀ c ∈ [V2.requestPrefix padding addr ++ first], c.length ≤ V2.maxPacketSize := by
    intro c hc
    rw [mem_singleton.mp hc, ← htaken]
    exact short_taken (.aead2022 M) events _
  have hwire : sockBytes sock = (V2.requestSession hinv hagree hsalt env.timestamp
      (V2.requestPrefix padding addr ++ first) [] hsmall).wire := by
    rw [hb, (firstWrite_wire h).2, htaken, ← clientWire_nil]
    exact clientWire_aead2022 hinv hagree hsalt env.timestamp hsmall
  have hopening := V2.opening_server hinv hagree hsalt hsmall context serverEvents ho hwire hwhole
  have hshort : padding.length < 65536 := by
    rw [V2.requestPrefix, length_append, length_append, V2.maxPacketSize] at hroom
    omega
  constructor
  · rintro ⟨t, reads', hdone⟩
    by_contra hnone
    obtain ⟨hbuf, hpad0⟩ := not_or.mp hnone
    have hbuf : buf = [] := not_not.mp hbuf
    have hpadding : padding = [] := by rw [← hpadding, if_pos hbuf, not_not.mp hpad0]
    have hempty : first = [] := by rw [hfirst, hbuf, take_nil]
    subst hpadding hempty
    obtain ⟨t', reads'', hfail⟩ := V2.handshake_unpadded hinv.aead haddr (append_nil _) rfl rfl hopening
      hfine hlen
    rw [hdone] at hfail
    cases hfail
  intro hsome
  have hsome : padding ≠ [] ∨ first ≠ [] := by
    by_cases hbuf : buf = []
    · left
      rw [← hpadding, if_pos hbuf]
      exact hsome.resolve_left (absurd hbuf)
    · right
      rw [hfirst]
      exact fun hnil => (take_eq_nil_iff.mp hnil).elim (by omega) hbuf
  obtain ⟨t, reads', hdone, -⟩ := V2.handshake_ok hinv.aead haddr hshort rfl hsome rfl hopening hfine hlen
  exact ⟨t, reads', hdone⟩

def silentRequest (padding : Bytes) :
    Await WriteError Nat × ProxyClientStream (.aead2022 V2.taggedMethod) × List WriteEnv :=
  await (ProxyClientStream.pollWrite []) (.fromStream (.aead2022 V2.taggedMethod) V2.plainSetup someTarget [])
    [⟨0, padding⟩]

def givenRequest (padding : Bytes) : V2.ProxyServerStream V2.taggedMethod :=
  V2.plainSetup.server V2.taggedMethod [.data (silentRequest padding).2.1.enc.wire] V2.emptyContext []

theorem firstRequest_accepted_iff_padded :
    (∃ t reads', V2.ProxyServerStream.handshake (givenRequest [9]) (replicate 70 ⟨0, 0, V2.emptyContext⟩) =
        (.done someTarget.asRead, t, reads')) ↔ ([] : Bytes) ≠ [] ∨ ([9] : Bytes) ≠ [] :=
  firstRequest_accepted_iff V2.taggedMethod V2.taggedMethod_inverts V2.plainSetup
    ⟨⟨none, .plain⟩, rfl⟩ someTarget [] [] ⟨0, [9]⟩ [] [] 0 (silentRequest [9]).2.1 rfl (by decide)
    [.data (silentRequest [9]).2.1.enc.wire] V2.emptyContext [] (replicate 70 ⟨0, 0, V2.emptyContext⟩)
    (orderly_single (by decide)) (append_nil _) (by decide)
    (fine_of_forall (fun env henv s _ => by
      rw [eq_of_mem_replicate henv]
      decide) _) (by decide)

/-- **The generator draws zero**: the request of a silent client is then refused. -/
theorem firstRequest_refused : (silentRequest []).1 = .done 0 ∧
      (V2.ProxyServerStream.handshake (givenRequest []) (replicate 70 ⟨0, 0, V2.emptyContext⟩)).1 =
        .failed (.other "no payload in first data chunk, and padding is 0") := by
  decide

end Shadowsocks.Tcp
