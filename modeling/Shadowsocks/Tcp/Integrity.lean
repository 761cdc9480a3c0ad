/-
  Subject:   WHAT A READER DELIVERS FROM A STREAM THAT AN ADVERSARY HAS CUT, CHANGED AND SPLICED, if the AEAD is
  ideal (`Aead.Ideal`).
-/
import Shadowsocks.Tcp.Aead

namespace Shadowsocks.Tcp

open Lib List

variable {A : Aead} {η ε : Type}

/-! ## 1. Honest sessions -/

def chunkRecords : List Bytes → List Bytes
  | [] => []
  | c :: cs => put16 (UInt16.ofNat c.length) :: c :: chunkRecords cs

theorem chunkRecords_append (pre post : List Bytes) (j : Nat) :
    (chunkRecords (pre ++ post))[2 * pre.length + j]? = (chunkRecords post)[j]? := by
  induction pre with
  | nil => simp
  | cons c pre ih =>
    have hn : 2 * (c :: pre).length + j = 2 * pre.length + j + 1 + 1 := by
      rw [length_cons]
      omega
    rw [hn, cons_append, chunkRecords, getElem?_cons_succ, getElem?_cons_succ, ih]

theorem chunkWire_records (k : A.Sub) (n : Nat) (cs : List Bytes) :
    chunkWire A k n cs = ((chunkRecords cs).mapIdx fun i p => A.encrypt k (n + i) p).flatten := by
  induction cs generalizing n with
  | nil => rfl
  | cons c cs ih =>
    rw [chunkWire, chunkRecords, mapIdx_cons, mapIdx_cons, ih]
    simp only [flatten_cons, add_zero, zero_add, append_assoc, add_assoc]
    have hidx : ∀ i, n + (2 + i) = n + (i + (1 + 1)) := fun i => by omega
    simp only [hidx]

structure Base (A : Aead) where
  key : A.Sub
  wire : Bytes
  number : Nat
  given : Bytes
  count : Nat
  chunks : List Bytes

def Base.payload (b : Base A) : Bytes := b.given ++ b.chunks.flatten

def Base.Boundary (b : Base A) (wire : Bytes) (n : Nat) (D : Bytes) (m : Nat) (post : List Bytes) :
    Prop :=
  ∃ pre, b.chunks = pre ++ post ∧ wire = b.wire ++ chunkWire A b.key b.number pre ∧
    n = b.number + 2 * pre.length ∧ D = b.given ++ pre.flatten ∧ m = b.count + pre.length

section

variable {b : Base A} {P D : Bytes} {n m : Nat} {post : List Bytes}

theorem Base.boundary_base (b : Base A) : b.Boundary b.wire b.number b.given b.count b.chunks :=
  ⟨[], rfl, (append_nil _).symm, rfl, (append_nil _).symm, rfl⟩

theorem Base.Boundary.next {c : Bytes} (h : b.Boundary P n D m (c :: post)) :
    b.Boundary (P ++ A.encrypt b.key n (put16 (UInt16.ofNat c.length)) ++ A.encrypt b.key (n + 1) c)
      (n + 1 + 1) (D ++ c) (m + 1) post := by
  obtain ⟨pre, hcs, rfl, rfl, rfl, rfl⟩ := h
  refine ⟨pre ++ [c], by rw [hcs, append_assoc]; rfl, ?_, ?_, ?_, ?_⟩
  · rw [chunkWire_append, chunkWire, chunkWire]
    simp only [append_assoc, append_nil]
  · rw [length_append, length_singleton]
    omega
  · rw [flatten_append, flatten_singleton, append_assoc]
  · rw [length_append, length_singleton]
    omega

theorem Base.Boundary.payload (h : b.Boundary P n D m post) : b.payload = D ++ post.flatten := by
  obtain ⟨pre, hcs, _, _, rfl, _⟩ := h
  rw [payload, hcs, flatten_append, append_assoc]

def Base.Records (b : Base A) (rec : Nat → Option Bytes) : Prop :=
  ∀ j, rec (b.number + j) = (chunkRecords b.chunks)[j]?

variable {rec : Nat → Option Bytes}

theorem Base.Boundary.records (h : b.Boundary P n D m post)
    (hrec : b.Records rec) (j : Nat) : rec (n + j) = (chunkRecords post)[j]? := by
  obtain ⟨pre, hcs, _, rfl, _, _⟩ := h
  rw [add_assoc, hrec, hcs, chunkRecords_append]

theorem Base.Boundary.length_record {p : Bytes}
    (h : b.Boundary P n D m post) (hrec : b.Records rec) (hp : rec n = some p) :
    ∃ c cs, post = c :: cs ∧ p = put16 (UInt16.ofNat c.length) ∧ rec (n + 1) = some c := by
  have h0 := h.records hrec 0
  rw [add_zero, hp] at h0
  cases post with
  | nil => cases h0
  | cons c cs =>
    injection h0 with h0
    exact ⟨c, cs, rfl, h0, h.records hrec 1⟩

end

/-! ## 2. Where the reader is -/

/-- **The reader is in one honest session** of `rec` and has delivered `D`, of a stream `W` that follows it. `K m`
holds after `m` chunks. -/
inductive Tracks (b : Base A) (rec : Nat → Option Bytes) (K : Nat → η → Prop) (W : Bytes) :
    Bytes → Rx A η → Prop where
  | readLength {P n D m post buffer rest sock} (h : b.Boundary P n D m post)
      (hw : W = P ++ (buffer ++ sockBytes sock)) (hb : buffer.length ≤ 2 + A.tagLen)
      (hk : K m rest) : Tracks b rec K W D ⟨.readLength, ⟨b.key, n⟩, buffer, rest, sock⟩
  | readData {P n D m post buffer rest sock} (c : Bytes)
      (h : b.Boundary (P ++ A.encrypt b.key n c) (n + 1) (D ++ c) (m + 1) post)
      (hrec : rec n = some c) (hw : W = P ++ (buffer ++ sockBytes sock))
      (hb : buffer.length ≤ c.length + A.tagLen) (hk : K m rest) :
      Tracks b rec K W D ⟨.readData c.length, ⟨b.key, n⟩, buffer, rest, sock⟩
  | bufferedData {P n D m post buffer rest sock} (pos : Nat) (h : b.Boundary P n (D ++ buffer) m post)
      (hw : W = P ++ sockBytes sock) (hk : K m rest) :
      Tracks b rec K W (D ++ buffer.take pos) ⟨.bufferedData pos, ⟨b.key, n⟩, buffer, rest, sock⟩

def AtBoundary (b : Base A) (W D : Bytes) (r : Rx A η) : Prop :=
  ∃ P n m post, b.Boundary P n D m post ∧ W = P ++ sockBytes r.sock

structure Final (R : ChunkRules η ε) (retry : ε → Prop) : Prop where
  length : ¬ retry R.lengthError
  check : ∀ n e, R.checkLength n = some e → ¬ retry e
  data : ¬ retry R.dataError
  onData : ∀ rest e, (R.onData rest).1 = some e → ¬ retry e

variable {buffer : Bytes} {size : Nat} {sock : ReadSock} {sock' : ReadSock} {buf : Bytes} {x : Poll IoError Nat}

theorem ExactStep.bytes (h : ExactStep size buffer sock (x, buf, sock')) :
    buffer ++ sockBytes sock = buf ++ sockBytes sock' := by
  cases h with
  | pending got _ hb | error _ got _ hb | early got _ hb | done got _ hb => rw [hb, append_assoc]
  | eof _ hb _ hne => rw [hb, hne]

theorem ExactStep.length_le (h : ExactStep size buffer sock (x, buf, sock'))
    (hle : buffer.length ≤ size) : buf.length ≤ size := by
  cases h with
  | pending got _ _ hlen | error _ got _ _ hlen | early got _ _ hlen => exact le_of_lt hlen
  | eof => exact zero_le
  | done got _ _ _ hlen => exact le_of_eq (hlen hle)

theorem ExactStep.full {n : Nat} (h : ExactStep size buffer sock (.ready n, buf, sock')) (hn : ¬ n < size)
    (hle : buffer.length ≤ size) : buf.length = size := by
  cases h with
  | eof _ _ hsize => exact absurd hsize hn
  | done got _ _ _ hlen => exact hlen hle

theorem ExactStep.at_end (hsize : 0 < size) (h : ExactStep size buffer sock (.ready 0, buf, sock')) : buf = [] := by
  cases h with
  | eof => rfl
  | done => omega

section

variable {R : ChunkRules η ε} {b : Base A} {rec : Nat → Option Bytes} {K : Nat → η → Prop}
  {W D : Bytes} {r : Rx A η} {retry : ε → Prop} {cap : Nat}

theorem Tracks.prefix_payload (h : Tracks b rec K W D r) : D <+: b.payload := by
  cases h with
  | readLength h => exact h.payload ▸ prefix_append _ _
  | readData c h =>
    rw [h.payload, append_assoc]
    exact prefix_append _ _
  | @bufferedData _ _ D _ _ buffer _ _ pos h =>
    rw [h.payload, append_assoc]
    exact (prefix_append_right_inj D).mpr
      (( take_prefix pos buffer).trans (prefix_append _ _))

theorem Tracks.of_rest {K' : Nat → η → Prop} {state : ChunkState} {c : Cipher A} {rest rest' : η}
    (h : Tracks b rec K W D ⟨state, c, buffer, rest, sock⟩) (hk : ∀ m, K m rest → K' m rest') :
    Tracks b rec K' W D ⟨state, c, buffer, rest', sock⟩ := by
  cases h with
  | readLength h hw hb hk' => exact .readLength h hw hb (hk _ hk')
  | readData c h hrec hw hb hk' => exact .readData c h hrec hw hb (hk _ hk')
  | bufferedData pos h hw hk' => exact .bufferedData pos h hw (hk _ hk')

theorem opened_eq (hideal : A.Ideal b.key rec) {n : Nat} {p : Bytes}
    (hx : ExactStep size buffer sock (.ready size, buf, sock')) (hb : buffer.length ≤ size)
    (hd : A.decrypt b.key n (buf.take size) = some p) : rec n = some p ∧ buf = A.encrypt b.key n p := by
  rw [take_of_length_le (hx.length_le hb)] at hd
  exact hideal n buf p hd

theorem chunkRound_tracks (hideal : A.Ideal b.key rec) (hrec : b.Records rec)
    (hfit : ∀ c ∈ b.chunks, c.length < 65536) (hfinal : Final R retry)
    (hK : ∀ m rest rest', K m rest → R.onData rest = (none, rest') → K (m + 1) rest')
    (h : Tracks b rec K W D r) :
    SoundRound retry (Tracks b rec K W) (AtBoundary b W) cap D (chunkRound R cap r) := by
  have hstep := chunkRound_step (R := R) cap r
  generalize chunkRound R cap r = x at hstep ⊢
  cases h with
  | @readLength P n D m post buffer rest sock h hw hb hk =>
    cases hstep with
    | lenPending hx =>
      exact .ret _ _ (.pending _ (.readLength h (hx.bytes ▸ hw) (hx.length_le hb) hk))
    | lenIo e hx =>
      exact .ret _ _ (.error _ _ fun _ => .readLength h (hx.bytes ▸ hw) (hx.length_le hb) hk)
    | lenEof hx =>
      have hnil := hx.at_end (by omega)
      subst hnil
      have hw' : W = P ++ sockBytes _ := hx.bytes ▸ hw
      refine .ret _ _ (.ready [] _ ?_ fun _ _ => ⟨P, n, m, post, h, hw'⟩)
      rw [append_nil]
      exact .readLength h hw' zero_le hk
    | lenBad _ _ _ => exact .ret _ _ (.error _ _ fun hr => absurd hr hfinal.length)
    | lenRefused _ _ e _ _ hc => exact .ret _ _ (.error _ _ fun hr => absurd hr (hfinal.check _ _ hc))
    | lenOk p hx hd _ =>
      obtain ⟨hp, hbuf⟩ := opened_eq hideal hx hb hd
      obtain ⟨c, cs, rfl, rfl, hc⟩ := h.length_record hrec hp
      have hmem : c ∈ b.chunks := by
        obtain ⟨pre, hcs, _⟩ := h
        rw [hcs]
        exact mem_append_right _ mem_cons_self
      rw [put16_ofNat (hfit c hmem)]
      refine .next _ (.readData c h.next hc ?_ zero_le hk)
      rw [hw, hx.bytes, hbuf, nil_append, append_assoc]
  | @readData P n D m post buffer rest sock c h hrec' hw hb hk =>
    cases hstep with
    | dataPending _ hx =>
      exact .ret _ _ (.pending _ (.readData c h hrec' (hx.bytes ▸ hw) (hx.length_le hb) hk))
    | dataIo _ e hx | dataEof _ hx =>
      exact .ret _ _ (.error _ _ fun _ => .readData c h hrec' (hx.bytes ▸ hw) (hx.length_le hb) hk)
    | dataBad _ _ _ _ => exact .ret _ _ (.error _ _ fun hr => absurd hr hfinal.data)
    | dataRefused _ _ _ e _ _ ho =>
      exact .ret _ _ (.error _ _ fun hr => absurd hr (hfinal.onData _ _ (congrArg Prod.fst ho)))
    | @dataOk _ _ _ _ _ _ sock' _ p hx hd ho =>
      obtain ⟨hp, hbuf⟩ := opened_eq hideal hx hb hd
      have hpc : c = p := Option.some.inj (hrec'.symm.trans hp)
      subst hpc
      have hw' : W = P ++ A.encrypt b.key n c ++ sockBytes sock' := by
        rw [hw, hx.bytes, hbuf, append_assoc]
      have hin : Tracks b rec K W _ _ := .bufferedData 0 h hw' (hK _ _ _ hk ho)
      rw [take_zero, append_nil] at hin
      exact .next _ hin
  | @bufferedData P n D m post buffer rest sock pos h hw hk =>
    cases hstep with
    | deliver _ hpos =>
      have hlen : (buffer.drop pos).length = buffer.length - pos := length_drop
      have hin : Tracks b rec K W _ _ :=
        .bufferedData (pos + min (buffer.drop pos).length cap) h hw hk
      rw [take_add, ← append_assoc] at hin
      refine .ret _ _ (.ready _ _ hin fun hnil hcap => ?_)
      have := congrArg length hnil
      rw [length_take, hlen, length_nil] at this
      omega
    | refill _ hpos =>
      rw [take_of_length_le hpos]
      exact .next _ (.readLength h hw zero_le hk)

end

/-! ## 3. The AEAD reader -/

namespace V1

def SocketError : ProtocolError → Prop
  | .ioError (.os _) => True
  | .ioError .unexpectedEof => True
  | _ => False

def chunksOf (bufs : List Bytes) : List Bytes := bufs.map (take maxPacketSize)

variable (M : AeadMethod) (key : Bytes) (sessions : Bytes → List Bytes)

def Honest : Prop :=
  ∀ salt, M.aead.Ideal (M.subkey key salt) fun n => (chunkRecords (chunksOf (sessions salt)))[n]?

/-- What a writer puts on the wire: the salt, and the records under the numbers 0, 1, 2 and so on. -/
theorem writeAll_records (M : AeadMethod) (key salt : Bytes) {events : List WriteEvent}
    (hwill : Willing ⟨events, []⟩) {bufs : List Bytes} (hne : bufs ≠ []) :
    ∃ w, writeAll M key salt events bufs = (.ok (accepted maxPacketSize bufs), w) ∧
      w.sock.wire = salt ++ ((chunkRecords (chunksOf bufs)).mapIdx fun n p =>
        M.aead.encrypt (M.subkey key salt) n p).flatten := by
  obtain ⟨w, he, hwire⟩ := writeAll_wire M key salt hwill hne
  refine ⟨w, he, ?_⟩
  rw [hwire, chunkWire_records]
  simp only [zero_add]
  rfl

theorem writeAll_records_two : ∃ w, writeAll taggedMethod [1] salt₀ [.accept 3, .pending, .accept 4, .pending, .accept 1]
        [[7, 8], [9]] = (.ok [7, 8, 9], w) ∧
      w.sock.wire = [2, 3, 0, 2, 6, 0, 7, 8, 6, 1, 0, 1, 6, 2, 9, 6, 3] :=
  writeAll_records taggedMethod [1] salt₀ (by simp [Willing]) (cons_ne_nil _ _)

def base (salt : Bytes) :
    Base M.aead where
  key := M.subkey key salt
  wire := salt
  number := 0
  given := []
  count := 0
  chunks := chunksOf (sessions salt)

def AtEnd (W D : Bytes)
    (s : ReaderIo M) : Prop :=
  ∃ salt pre post, salt = W.take M.saltLen ∧ sessions salt = pre ++ post ∧ D = accepted maxPacketSize pre ∧
    W = salt ++ chunkWire M.aead (M.subkey key salt) 0 (chunksOf pre) ++ sockBytes s.sock

def Integrity
    (retry : ProtocolError → Prop) : Prop :=
  ∀ sock context, Sound pollIn retry ⟨.new M key, sock, context⟩
    (fun D => D <+: accepted maxPacketSize (sessions ((sockBytes sock).take M.saltLen)))
    (AtEnd M key sessions (sockBytes sock))

variable {M : AeadMethod} {key : Bytes} {sessions : Bytes → List Bytes}

inductive ReaderTracks (M : AeadMethod) (key : Bytes) (sessions : Bytes → List Bytes) (W : Bytes) :
    Bytes → ReaderIo M → Prop where
  | waitSalt {buffer salt? handshaked sock context} (hw : W = buffer ++ sockBytes sock)
      (hb : buffer.length ≤ M.saltLen) :
      ReaderTracks M key sessions W [] ⟨⟨.waitSalt key, buffer, salt?, handshaked⟩, sock, context⟩
  | chunks {s state cipher D} (hs : s.reader.state = .chunks state cipher)
      (h : Tracks (base M key sessions (W.take M.saltLen))
        (fun n => (chunkRecords (chunksOf (sessions (W.take M.saltLen))))[n]?) (fun _ _ => True) W D
        (s.toRx state cipher)) : ReaderTracks M key sessions W D s

theorem final (now : Nat) : Final (rules now) SocketError where
  length := id
  check n e h := by
    change (if n > maxPacketSize then some (.dataTooLong n) else none) = some e at h
    split at h
    · cases h
      exact id
    · cases h
  data := id
  onData rest e h := by
    obtain ⟨_ | salt, context⟩ := rest
    · cases h
    · obtain ⟨io, hio, rfl⟩ := Option.map_eq_some_iff.mp h
      rw [Context.checkNonceReplay_error hio]
      exact id

theorem atEnd_of_boundary {W D : Bytes} {s : ReaderIo M} {r : Rx M.aead (Option Bytes × Context)}
    (h : AtBoundary (base M key sessions (W.take M.saltLen)) W D r) : AtEnd M key sessions W D (s.ofRx r) := by
  obtain ⟨_, _, _, _, ⟨pre, hcs, rfl, _, rfl, _⟩, hw⟩ := h
  obtain ⟨bufs, rest, hs, rfl, _⟩ := map_eq_append_iff.mp hcs
  exact ⟨_, bufs, rest, rfl, hs, nil_append _, hw⟩

theorem readRound_tracks (hhonest : Honest M key sessions) {W D : Bytes} {now cap : Nat}
    {s : ReaderIo M} (h : ReaderTracks M key sessions W D s) :
    SoundRound SocketError (ReaderTracks M key sessions W) (AtEnd M key sessions W) cap D (readRound now cap s) := by
  cases h with
  | @waitSalt buffer salt? handshaked sock context hw hb =>
    have hx := pollReadExact_step M.saltLen buffer sock
    simp only [readRound, pollReadSalt]
    rcases hr : pollReadExact M.saltLen buffer sock with ⟨x, buf, sock'⟩
    rw [hr] at hx
    have hw' := hx.bytes ▸ hw
    have hb' := hx.length_le hb
    cases x with
    | pending => exact .ret _ _ (.pending _ (.waitSalt hw' hb'))
    | error e => exact .ret _ _ (.error _ _ fun _ => .waitSalt hw' hb')
    | ready n =>
      by_cases hn : n < M.saltLen
      · simp only [if_pos hn]
        exact .ret _ _ (.error _ _ fun _ => .waitSalt hw' hb')
      have hsalt : buf.take M.saltLen = W.take M.saltLen := by
        rw [hw', take_left' (hx.full hn hb), take_of_length_le hb']
      simp only [if_neg hn, hsalt]
      refine .next _ (.chunks rfl (.readLength (Base.boundary_base _) ?_ zero_le trivial))
      rw [nil_append, ← hsalt, take_of_length_le hb']
      exact hw'
  | @chunks _ state cipher _ hs h =>
    have hfit : ∀ c ∈ (base M key sessions (W.take M.saltLen)).chunks, c.length < 65536 := by
      intro c hc
      obtain ⟨buf, _, rfl⟩ := mem_map.mp hc
      have hle : (buf.take maxPacketSize).length ≤ 16383 := length_take_le _ _
      omega
    simp only [readRound, hs]
    exact (chunkRound_tracks (hhonest _) (fun j => by rw [base, zero_add]) hfit (final now)
      (fun _ _ _ _ _ => trivial) h).map s.ofRx (fun _ _ h => .chunks rfl h) (fun _ => atEnd_of_boundary)

theorem sound (hhonest : Honest M key sessions) : Integrity M key sessions SocketError := by
  intro sock context
  refine sound_of_inv (I := ReaderTracks M key sessions (sockBytes sock)) (fun D s env cap h => ?_)
    (fun D s h => ?_) ?_
  · refine soundStep_of_rounds (readRound_pot env.now cap) (fun t ht => readRound_tracks hhonest ht) ?_
    cases h with
    | waitSalt hw hb => exact .waitSalt hw hb
    | chunks hs h => exact .chunks hs (h.of_rest fun _ => id)
  · cases h with
    | waitSalt => exact nil_prefix
    | chunks _ h => exact h.prefix_payload
  unfold DecryptedReader.new
  split
  · exact .waitSalt rfl zero_le
  · have hnil : (sockBytes sock).take M.saltLen = [] := by
      rw [(by omega : M.saltLen = 0), take_zero]
    refine .chunks (s := ⟨⟨_, _, _, _⟩, _, _⟩) (by rw [← hnil]) ?_
    exact .readLength (Base.boundary_base _) (by rw [base, hnil]; rfl) zero_le trivial

def recordedMethod (sessions : Bytes → List Bytes) : AeadMethod where
  aead := .recorded fun salt n => (chunkRecords (chunksOf (sessions salt)))[n]?
  saltLen := 2
  subkey _ salt := salt

theorem recordedMethod_honest (key : Bytes) (sessions : Bytes → List Bytes) :
    Honest (recordedMethod sessions) key sessions :=
  fun salt => Aead.recorded_ideal _ salt

def twoBuffers (salt : Bytes) : List Bytes := if salt = salt₀ then [[7], [8]] else []

theorem skips_chunk : ¬ Integrity (recordedMethod twoBuffers) [1] twoBuffers (fun _ => True) := by
  intro h
  have hd := (h [.data [2, 3, 0, 1, 2, 8, 3]] rejecting).delivers
    [(⟨0, rejecting⟩, 4), (⟨0, rejecting⟩, 4)] ⟨0, rejecting⟩ 4 (fun _ _ => trivial)
  revert hd
  decide

end V1

end Shadowsocks.Tcp
