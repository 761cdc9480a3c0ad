/-
  Subject:   THE CHUNK LAYER that the AEAD and the AEAD-2022 stream share (`relay/tcprelay/{aead,aead_2022}.rs`):
  each chunk is an encrypted length and the encrypted data. What differs is collected in `ChunkRules`.
-/
import Shadowsocks.Lib.Aead
import Shadowsocks.Lib.Reader

namespace Shadowsocks.Tcp

open Lib List

/-! ## 1. Reading an exact number of bytes -/

def exactRound (size : Nat) : Bytes × ReadSock → Ctl (Poll IoError Nat) (Bytes × ReadSock)
  | (buffer, sock) =>
    if buffer.length < size then
      match pollRead (size - buffer.length) sock with
      | (.pending, sock') => .ret .pending (buffer, sock')
      | (.error e, sock') => .ret (.error e) (buffer, sock')
      | (.ready [], sock') =>
        .ret (if buffer = [] then .ready 0 else .error .unexpectedEof) (buffer, sock')
      | (.ready (b :: bs), sock') => .next (buffer ++ b :: bs, sock')
    else .ret (.ready size) (buffer, sock)

def pollReadExact (size : Nat) (buffer : Bytes) (sock : ReadSock) :
    Poll IoError Nat × Bytes × ReadSock :=
  loopUntil (exactRound size) (fun s => size - s.1.length) .pending (buffer, sock)

inductive ExactStep (size : Nat) (buffer : Bytes) (sock : ReadSock) :
    Poll IoError Nat × Bytes × ReadSock → Prop where
  | pending (got : Bytes) (sock' : ReadSock) (hb : sockBytes sock = got ++ sockBytes sock')
      (hlen : (buffer ++ got).length < size)
      (hw : sockWeight sock' + got.length < sockWeight sock) (ho : Orderly sock → Orderly sock') :
      ExactStep size buffer sock (.pending, buffer ++ got, sock')
  | error (code : Nat) (got : Bytes) (sock' : ReadSock)
      (hb : sockBytes sock = got ++ sockBytes sock') (hlen : (buffer ++ got).length < size)
      (hw : sockWeight sock' + got.length < sockWeight sock) (ho : ¬ Orderly sock) :
      ExactStep size buffer sock (.error (.os code), buffer ++ got, sock')
  | early (got : Bytes) (sock' : ReadSock) (hb : sockBytes sock = got ++ sockBytes sock')
      (hlen : (buffer ++ got).length < size) (hne : buffer ++ got ≠ [])
      (hw : sockWeight sock' + got.length ≤ sockWeight sock) (ho : Orderly sock → sock' = []) :
      ExactStep size buffer sock (.error .unexpectedEof, buffer ++ got, sock')
  | eof (sock' : ReadSock) (hb : sockBytes sock = sockBytes sock') (hsize : 0 < size)
      (hne : buffer = []) (hw : sockWeight sock' ≤ sockWeight sock)
      (ho : Orderly sock → sock' = []) : ExactStep size buffer sock (.ready 0, [], sock')
  | done (got : Bytes) (sock' : ReadSock) (hb : sockBytes sock = got ++ sockBytes sock')
      (hge : size ≤ (buffer ++ got).length)
      (hlen : buffer.length ≤ size → (buffer ++ got).length = size)
      (hw : sockWeight sock' + got.length ≤ sockWeight sock)
      (hlt : buffer.length < size → sockWeight sock' < sockWeight sock)
      (ho : Orderly sock → Orderly sock') :
      ExactStep size buffer sock (.ready size, buffer ++ got, sock')

structure Filling (size : Nat) (buffer : Bytes) (sock : ReadSock) (buf : Bytes) (cur : ReadSock) :
    Prop where
  fill : ∃ got, buf = buffer ++ got ∧ sockBytes sock = got ++ sockBytes cur ∧
    sockWeight cur + got.length ≤ sockWeight sock
  bound : buffer.length ≤ size → buf.length ≤ size
  less : buffer.length < size → buf ≠ buffer → sockWeight cur < sockWeight sock
  orderly : Orderly sock → Orderly cur

theorem exactRound_pot (size : Nat) (s s' : Bytes × ReadSock) (h : exactRound size s = .next s') :
    size - s'.1.length < size - s.1.length := by
  obtain ⟨buffer, sock⟩ := s
  rw [exactRound] at h
  split at h
  · split at h
    · cases h
    · cases h
    · cases h
    · injection h with h
      subst h
      simp only [length_append, length_cons]
      omega
  · cases h

variable {sock : ReadSock} {buffer : Bytes} {size : Nat} {buf : Bytes}

theorem exactRound_cases {cur : ReadSock} (h : Filling size buffer sock buf cur) :
    match exactRound size (buf, cur) with
    | .next t => Filling size buffer sock t.1 t.2
    | .ret r t => ExactStep size buffer sock (r, t) := by
  obtain ⟨⟨got, rfl, hb, hw⟩, hbound, hless, hord⟩ := h
  rw [exactRound]
  by_cases hlt : (buffer ++ got).length < size
  · rw [if_pos hlt]
    have hstep := pollRead_step (by omega : 0 < size - (buffer ++ got).length) cur
    rcases hr : pollRead (size - (buffer ++ got).length) cur with ⟨r, cur'⟩
    rw [hr] at hstep
    cases hstep with
    | pending _ hb' hw' ho => exact .pending got cur' (hb' ▸ hb) hlt (by omega) (ho ∘ hord)
    | error code _ hb' hw' ho =>
      exact .error code got cur' (hb' ▸ hb) hlt (by omega) fun h => ho (hord h)
    | eof _ hb' hw' ho =>
      by_cases hne : buffer ++ got = []
      · obtain ⟨rfl, rfl⟩ := append_eq_nil_iff.mp hne
        exact .eof cur' (hb' ▸ hb) (by omega) rfl (le_trans hw' hw) fun h => (ho (hord h)).2
      · simp only [if_neg hne]
        exact .early got cur' (hb' ▸ hb) hlt hne (by omega) fun h => (ho (hord h)).2
    | data b bs _ hlen hb' hw' ho =>
      rw [length_append] at hlt hlen
      rw [length_cons] at hlen hw'
      refine ⟨⟨got ++ b :: bs, by simp, ?_, ?_⟩, fun _ => ?_, fun _ _ => ?_, ho ∘ hord⟩
      · rw [hb, hb', append_assoc]
      · show sockWeight cur' + _ ≤ _
        rw [length_append, length_cons]
        omega
      · simp only [length_append, length_cons]
        omega
      · exact lt_of_lt_of_le (by omega : sockWeight cur' < sockWeight cur) (by omega)
  rw [if_neg hlt]
  refine .done got cur hb (not_lt.mp hlt) (fun h => le_antisymm (hbound h) (not_lt.mp hlt)) hw
    (fun h => hless h fun e => ?_) hord
  rw [e] at hlt
  exact hlt h

theorem pollReadExact_step (size : Nat) (buffer : Bytes) (sock : ReadSock) :
    ExactStep size buffer sock (pollReadExact size buffer sock) := by
  refine loopUntil_ind (exactRound_pot size) (P := fun t => Filling size buffer sock t.1 t.2)
    (Q := fun r t => ExactStep size buffer sock (r, t)) ?_ ?_ ?_
  · intro t t' ht hs
    have h := exactRound_cases ht
    rwa [hs] at h
  · intro t r t' ht hs
    have h := exactRound_cases ht
    rwa [hs] at h
  · exact ⟨⟨[], (append_nil _).symm, rfl, le_rfl⟩, id, fun _ h => absurd rfl h, id⟩

/-! ## 2. The reader of chunks -/

inductive ChunkState where
  | readLength
  | readData (length : Nat)
  | bufferedData (pos : Nat)

structure ChunkRules (η ε : Type) where
  ioError : IoError → ε
  lengthError : ε
  checkLength : Nat → Option ε
  dataError : ε
  onData : η → Option ε × η

structure Rx (A : Aead) (η : Type) where
  state : ChunkState
  cipher : Cipher A
  buffer : Bytes
  rest : η
  sock : ReadSock

section

variable {A : Aead} {η ε : Type} (R : ChunkRules η ε)

def decryptLength (cipher : Cipher A) (m : Bytes) : Except ε Nat × Bytes × Cipher A :=
  match cipher.decryptPacket m with
  | (false, m', cipher') => (.error R.lengthError, m', cipher')
  | (true, m', cipher') =>
    let plen := (get16 (m'.take 2)).toNat
    match R.checkLength plen with
    | some e => (.error e, m', cipher')
    | none => (.ok plen, m', cipher')

def pollReadLength (r : Rx A η) : Poll ε (Option Nat) × Rx A η :=
  let lengthLen := 2 + A.tagLen
  match pollReadExact lengthLen r.buffer r.sock with
  | (.pending, buf, sock) => (.pending, { r with buffer := buf, sock := sock })
  | (.error e, buf, sock) => (.error (R.ioError e), { r with buffer := buf, sock := sock })
  | (.ready n, buf, sock) =>
    if n = 0 then (.ready none, { r with buffer := buf, sock := sock })
    else
      match decryptLength R r.cipher (buf.take lengthLen) with
      | (.error e, m, cipher) =>
        (.error e, { r with cipher := cipher, buffer := m ++ buf.drop lengthLen, sock := sock })
      | (.ok plen, m, cipher) =>
        (.ready (some plen), { r with cipher := cipher, buffer := m ++ buf.drop lengthLen, sock := sock })

def pollReadData (size : Nat) (r : Rx A η) : Poll ε Unit × Rx A η :=
  let dataLen := size + A.tagLen
  match pollReadExact dataLen r.buffer r.sock with
  | (.pending, buf, sock) => (.pending, { r with buffer := buf, sock := sock })
  | (.error e, buf, sock) => (.error (R.ioError e), { r with buffer := buf, sock := sock })
  | (.ready n, buf, sock) =>
    if n = 0 then
      (.error (R.ioError .unexpectedEof), { r with buffer := buf, sock := sock })
    else
      match r.cipher.decryptPacket (buf.take dataLen) with
      | (false, m, cipher) =>
        (.error R.dataError, { r with cipher := cipher, buffer := m ++ buf.drop dataLen, sock := sock })
      | (true, m, cipher) =>
        match R.onData r.rest with
        | (some e, rest) =>
          (.error e, { r with cipher := cipher, buffer := m ++ buf.drop dataLen
                              rest := rest, sock := sock })
        | (none, rest) =>
          -- the tag goes
          (.ready (), { r with cipher := cipher, buffer := (m ++ buf.drop dataLen).take size
                               rest := rest, sock := sock })

def chunkRound (cap : Nat) (r : Rx A η) : Ctl (Poll ε Bytes) (Rx A η) :=
  match r.state with
  | .readLength =>
    match pollReadLength R r with
    | (.pending, r') => .ret .pending r'
    | (.error e, r') => .ret (.error e) r'
    | (.ready none, r') => .ret (.ready []) r'
    | (.ready (some length), r') => .next { r' with buffer := [], state := .readData length }
  | .readData length =>
    match pollReadData R length r with
    | (.pending, r') => .ret .pending r'
    | (.error e, r') => .ret (.error e) r'
    | (.ready (), r') => .next { r' with state := .bufferedData 0 }
  | .bufferedData pos =>
    if pos < r.buffer.length then
      let consumed := min (r.buffer.drop pos).length cap
      .ret (.ready ((r.buffer.drop pos).take consumed))
        { r with state := .bufferedData (pos + consumed) }
    else .next { r with buffer := [], state := .readLength }

/-- **All that a round can do.** Length and data each wait, fail, end, do not decrypt, are refused, or go on. -/
inductive ChunkStep (cap : Nat) : Rx A η → Ctl (Poll ε Bytes) (Rx A η) → Prop where
  | lenPending {c buffer buf rest sock sock'}
      (hx : ExactStep (2 + A.tagLen) buffer sock (.pending, buf, sock')) :
      ChunkStep cap ⟨.readLength, c, buffer, rest, sock⟩
        (.ret .pending ⟨.readLength, c, buf, rest, sock'⟩)
  | lenIo {c buffer buf rest sock sock'} (e : IoError)
      (hx : ExactStep (2 + A.tagLen) buffer sock (.error e, buf, sock')) :
      ChunkStep cap ⟨.readLength, c, buffer, rest, sock⟩
        (.ret (.error (R.ioError e)) ⟨.readLength, c, buf, rest, sock'⟩)
  | lenEof {c buffer buf rest sock sock'}
      (hx : ExactStep (2 + A.tagLen) buffer sock (.ready 0, buf, sock')) :
      ChunkStep cap ⟨.readLength, c, buffer, rest, sock⟩
        (.ret (.ready []) ⟨.readLength, c, buf, rest, sock'⟩)
  | lenBad {c buffer buf rest sock sock'} (buffer' : Bytes)
      (hx : ExactStep (2 + A.tagLen) buffer sock (.ready (2 + A.tagLen), buf, sock'))
      (hd : A.decrypt c.key c.nonce (buf.take (2 + A.tagLen)) = none) :
      ChunkStep cap ⟨.readLength, c, buffer, rest, sock⟩
        (.ret (.error R.lengthError)
          ⟨.readLength, { c with nonce := A.onFail c.nonce }, buffer', rest, sock'⟩)
  | lenRefused {c buffer buf rest sock sock'} (p buffer' : Bytes) (e : ε)
      (hx : ExactStep (2 + A.tagLen) buffer sock (.ready (2 + A.tagLen), buf, sock'))
      (hd : A.decrypt c.key c.nonce (buf.take (2 + A.tagLen)) = some p)
      (hc : R.checkLength (get16 p).toNat = some e) :
      ChunkStep cap ⟨.readLength, c, buffer, rest, sock⟩
        (.ret (.error e) ⟨.readLength, { c with nonce := c.nonce + 1 }, buffer', rest, sock'⟩)
  | lenOk {c buffer buf rest sock sock'} (p : Bytes)
      (hx : ExactStep (2 + A.tagLen) buffer sock (.ready (2 + A.tagLen), buf, sock'))
      (hd : A.decrypt c.key c.nonce (buf.take (2 + A.tagLen)) = some p)
      (hc : R.checkLength (get16 p).toNat = none) :
      ChunkStep cap ⟨.readLength, c, buffer, rest, sock⟩
        (.next ⟨.readData (get16 p).toNat, { c with nonce := c.nonce + 1 }, [], rest, sock'⟩)
  | dataPending {c buffer buf rest sock sock'} (size : Nat)
      (hx : ExactStep (size + A.tagLen) buffer sock (.pending, buf, sock')) :
      ChunkStep cap ⟨.readData size, c, buffer, rest, sock⟩
        (.ret .pending ⟨.readData size, c, buf, rest, sock'⟩)
  | dataIo {c buffer buf rest sock sock'} (size : Nat) (e : IoError)
      (hx : ExactStep (size + A.tagLen) buffer sock (.error e, buf, sock')) :
      ChunkStep cap ⟨.readData size, c, buffer, rest, sock⟩
        (.ret (.error (R.ioError e)) ⟨.readData size, c, buf, rest, sock'⟩)
  | dataEof {c buffer buf rest sock sock'} (size : Nat)
      (hx : ExactStep (size + A.tagLen) buffer sock (.ready 0, buf, sock')) :
      ChunkStep cap ⟨.readData size, c, buffer, rest, sock⟩
        (.ret (.error (R.ioError .unexpectedEof)) ⟨.readData size, c, buf, rest, sock'⟩)
  | dataBad {c buffer buf rest sock sock'} (size : Nat) (buffer' : Bytes)
      (hx : ExactStep (size + A.tagLen) buffer sock (.ready (size + A.tagLen), buf, sock'))
      (hd : A.decrypt c.key c.nonce (buf.take (size + A.tagLen)) = none) :
      ChunkStep cap ⟨.readData size, c, buffer, rest, sock⟩
        (.ret (.error R.dataError)
          ⟨.readData size, { c with nonce := A.onFail c.nonce }, buffer', rest, sock'⟩)
  | dataRefused {c buffer buf rest rest' sock sock'} (size : Nat) (p buffer' : Bytes) (e : ε)
      (hx : ExactStep (size + A.tagLen) buffer sock (.ready (size + A.tagLen), buf, sock'))
      (hd : A.decrypt c.key c.nonce (buf.take (size + A.tagLen)) = some p)
      (ho : R.onData rest = (some e, rest')) :
      ChunkStep cap ⟨.readData size, c, buffer, rest, sock⟩
        (.ret (.error e) ⟨.readData size, { c with nonce := c.nonce + 1 }, buffer', rest', sock'⟩)
  | dataOk {c buffer buf rest rest' sock sock'} (size : Nat) (p : Bytes)
      (hx : ExactStep (size + A.tagLen) buffer sock (.ready (size + A.tagLen), buf, sock'))
      (hd : A.decrypt c.key c.nonce (buf.take (size + A.tagLen)) = some p)
      (ho : R.onData rest = (none, rest')) :
      ChunkStep cap ⟨.readData size, c, buffer, rest, sock⟩
        (.next ⟨.bufferedData 0, { c with nonce := c.nonce + 1 }, p, rest', sock'⟩)
  | deliver {c buffer rest sock} (pos : Nat) (hpos : pos < buffer.length) :
      ChunkStep cap ⟨.bufferedData pos, c, buffer, rest, sock⟩
        (.ret (.ready ((buffer.drop pos).take (min (buffer.drop pos).length cap)))
          ⟨.bufferedData (pos + min (buffer.drop pos).length cap), c, buffer, rest, sock⟩)
  | refill {c buffer rest sock} (pos : Nat) (hpos : buffer.length ≤ pos) :
      ChunkStep cap ⟨.bufferedData pos, c, buffer, rest, sock⟩
        (.next ⟨.readLength, c, [], rest, sock⟩)

variable {R} {n : Nat} {sock' : ReadSock}

theorem ExactStep.ready_size (h : ExactStep size buffer sock (.ready n, buf, sock'))
    (hn : n ≠ 0) : n = size ∧ size ≤ buf.length := by
  cases h with
  | eof => exact absurd rfl hn
  | done got _ _ hge => exact ⟨rfl, hge⟩

theorem decrypt_take_length {k : A.Sub} {buf p : Bytes} (hge : size + A.tagLen ≤ buf.length)
    (hd : A.decrypt k n (buf.take (size + A.tagLen)) = some p) : p.length = size := by
  have := A.decrypt_length k n _ p hd
  rw [length_take, min_eq_left hge] at this
  omega

theorem pollReadLength_step (cap : Nat) {r : Rx A η} (hs : r.state = .readLength) :
    ChunkStep R cap r (chunkRound R cap r) := by
  obtain ⟨state, c, buffer, rest, sock⟩ := r
  subst hs
  have hx := pollReadExact_step (2 + A.tagLen) buffer sock
  simp only [chunkRound, pollReadLength]
  rcases hr : pollReadExact (2 + A.tagLen) buffer sock with ⟨x, buf, sock'⟩
  rw [hr] at hx
  cases x with
  | pending => exact .lenPending hx
  | error e => exact .lenIo e hx
  | ready n =>
    by_cases hn : n = 0
    · subst hn
      exact .lenEof hx
    obtain ⟨rfl, hge⟩ := hx.ready_size hn
    simp only [if_neg hn, decryptLength]
    cases hd : A.decrypt c.key c.nonce (buf.take (2 + A.tagLen)) with
    | none =>
      rw [Cipher.decryptPacket_none hd]
      exact .lenBad _ hx hd
    | some p =>
      have hp : p.length = 2 := decrypt_take_length hge hd
      rw [Cipher.decryptPacket_some hd]
      simp only [take_left' hp]
      cases hc : R.checkLength (get16 p).toNat with
      | none => exact .lenOk p hx hd hc
      | some e => exact .lenRefused p _ e hx hd hc

theorem pollReadData_step (cap size : Nat) {r : Rx A η} (hs : r.state = .readData size) :
    ChunkStep R cap r (chunkRound R cap r) := by
  obtain ⟨state, c, buffer, rest, sock⟩ := r
  subst hs
  have hx := pollReadExact_step (size + A.tagLen) buffer sock
  simp only [chunkRound, pollReadData]
  rcases hr : pollReadExact (size + A.tagLen) buffer sock with ⟨x, buf, sock'⟩
  rw [hr] at hx
  cases x with
  | pending => exact .dataPending size hx
  | error e => exact .dataIo size e hx
  | ready n =>
    by_cases hn : n = 0
    · subst hn
      exact .dataEof size hx
    obtain ⟨rfl, hge⟩ := hx.ready_size hn
    simp only [if_neg hn]
    cases hd : A.decrypt c.key c.nonce (buf.take (size + A.tagLen)) with
    | none =>
      rw [Cipher.decryptPacket_none hd]
      exact .dataBad size _ hx hd
    | some p =>
      have hp : p.length = size := decrypt_take_length hge hd
      rw [Cipher.decryptPacket_some hd]
      rcases ho : R.onData rest with ⟨e, rest'⟩
      cases e with
      | some e => exact .dataRefused size p _ e hx hd ho
      | none =>
        simp only [append_assoc, take_left' hp]
        exact .dataOk size p hx hd ho

theorem chunkRound_step (cap : Nat) (r : Rx A η) : ChunkStep R cap r (chunkRound R cap r) := by
  cases hs : r.state with
  | readLength => exact pollReadLength_step cap hs
  | readData size => exact pollReadData_step cap size hs
  | bufferedData pos =>
    obtain ⟨state, c, buffer, rest, sock⟩ := r
    subst hs
    simp only [chunkRound]
    split
    · exact .deliver pos ‹_›
    · exact .refill pos (not_lt.mp ‹_›)

theorem chunkRound_bounded {cap : Nat} {r r' : Rx A η} {bs : Bytes}
    (h : chunkRound R cap r = .ret (.ready bs) r') : bs.length ≤ cap := by
  have hs := chunkRound_step (R := R) cap r
  rw [h] at hs
  cases hs with
  | lenEof => exact zero_le
  | deliver pos hpos =>
    rw [length_take]
    omega

/-! ## 3. The loop ends -/

def chunkPot (r : Rx A η) : Nat :=
  3 * sockWeight r.sock +
    match r.state with
    | .readLength => if 2 + A.tagLen ≤ r.buffer.length then 5 else 2
    | .readData size => if size + A.tagLen ≤ r.buffer.length then 4 else 1
    | .bufferedData _ => 3

theorem chunkPot_readLength (c : Cipher A) (rest : η) (sock : ReadSock) :
    chunkPot ⟨.readLength, c, [], rest, sock⟩ = 3 * sockWeight sock + 2 := by
  simp only [chunkPot, length_nil]
  rw [if_neg (by omega)]

theorem chunkPot_readData (size : Nat) (c : Cipher A) (rest : η) (sock : ReadSock) :
    chunkPot ⟨.readData size, c, [], rest, sock⟩ = 3 * sockWeight sock + 1 := by
  have := A.tagLen_pos
  simp only [chunkPot, length_nil]
  rw [if_neg (by omega)]

theorem ExactStep.weight (h : ExactStep size buffer sock (.ready n, buf, sock')) :
    sockWeight sock' ≤ sockWeight sock ∧ (n ≠ 0 → buffer.length < size → sockWeight sock' < sockWeight sock) := by
  cases h with
  | eof _ _ _ _ hw => exact ⟨hw, fun h => absurd rfl h⟩
  | done got _ _ _ _ hw hlt => exact ⟨by omega, fun _ => hlt⟩

theorem chunkRound_pot (cap : Nat) (r r' : Rx A η) (h : chunkRound R cap r = .next r') :
    chunkPot r' < chunkPot r := by
  have hs := chunkRound_step (R := R) cap r
  rw [h] at hs
  cases hs with
  | @lenOk c buffer _ _ _ _ p hx =>
    obtain ⟨hle, hlt⟩ := hx.weight
    rw [chunkPot_readData, chunkPot]
    simp only
    split <;> omega
  | @dataOk c buffer _ _ _ _ _ size p hx =>
    obtain ⟨hle, hlt⟩ := hx.weight
    simp only [chunkPot]
    split <;> omega
  | refill pos hpos =>
    rw [chunkPot_readLength]
    exact Nat.lt_succ_self _

/-! ## 4. In step with the wire -/

def chunkWire (A : Aead) (k : A.Sub) : Nat → List Bytes → Bytes
  | _, [] => []
  | n, c :: cs =>
    A.encrypt k n (put16 (UInt16.ofNat c.length)) ++ A.encrypt k (n + 1) c ++ chunkWire A k (n + 2) cs

theorem chunkWire_append (k : A.Sub) (n : Nat) (pre post : List Bytes) : chunkWire A k n (pre ++ post) =
      chunkWire A k n pre ++ chunkWire A k (n + 2 * pre.length) post := by
  induction pre generalizing n with
  | nil => rfl
  | cons c pre ih =>
    have hn : n + 2 + 2 * pre.length = n + 2 * (c :: pre).length := by
      rw [length_cons]
      omega
    rw [cons_append, chunkWire, ih, chunkWire, hn, append_assoc, append_assoc]
    simp only [append_assoc]

def Fits (R : ChunkRules η ε) (c : Bytes) : Prop :=
  c.length < 65536 ∧ R.checkLength c.length = none

/-- **The reader is in step** with a writer of `all` under `k`, with `X` to deliver. `Ok n` keeps `onData` from
failing while `n` chunks are left. -/
inductive InStep (k : A.Sub) (all : List Bytes) (Ok : Nat → η → Prop) : Rx A η → Bytes → Prop where
  | readLength {n buffer rest sock} (cs : List Bytes) (hw : buffer ++ sockBytes sock = chunkWire A k n cs)
      (hb : buffer.length ≤ 2 + A.tagLen) (hc : cs <:+ all) (hr : Ok cs.length rest)
      (ho : Orderly sock) : InStep k all Ok ⟨.readLength, ⟨k, n⟩, buffer, rest, sock⟩ cs.flatten
  | readData {n buffer rest sock} (c : Bytes) (cs : List Bytes)
      (hw : buffer ++ sockBytes sock = A.encrypt k n c ++ chunkWire A k (n + 1) cs)
      (hb : buffer.length ≤ c.length + A.tagLen) (hc : c :: cs <:+ all)
      (hr : Ok (cs.length + 1) rest) (ho : Orderly sock) :
      InStep k all Ok ⟨.readData c.length, ⟨k, n⟩, buffer, rest, sock⟩ (c ++ cs.flatten)
  | bufferedData {n buffer rest sock} (pos : Nat) (cs : List Bytes) (hw : sockBytes sock = chunkWire A k n cs)
      (hc : buffer :: cs <:+ all) (hr : Ok cs.length rest) (ho : Orderly sock) :
      InStep k all Ok ⟨.bufferedData pos, ⟨k, n⟩, buffer, rest, sock⟩
        (buffer.drop pos ++ cs.flatten)

def chunkMeasure (r : Rx A η) : Nat :=
  sockWeight r.sock +
    match r.state with
    | .bufferedData pos => r.buffer.length - pos
    | _ => r.buffer.length

variable {x : Poll IoError Nat × Bytes × ReadSock}

theorem ExactStep.of_wire {w tail : Bytes}
    (h : ExactStep size buffer sock x) (ho : Orderly sock) (hb : buffer.length ≤ size)
    (hw : buffer ++ sockBytes sock = w ++ tail) (hlen : w.length = size) :
    (∃ buf sock', x = (.pending, buf, sock') ∧ buf ++ sockBytes sock' = w ++ tail ∧
      buf.length ≤ size ∧ Orderly sock' ∧
      sockWeight sock' + buf.length < sockWeight sock + buffer.length) ∨
    (∃ sock', x = (.ready size, w, sock') ∧ sockBytes sock' = tail ∧ Orderly sock' ∧
      sockWeight sock' + size ≤ sockWeight sock + buffer.length) := by
  cases h with
  | pending got sock' hg hl hwt ho' =>
    refine .inl ⟨buffer ++ got, sock', rfl, ?_, le_of_lt hl, ho' ho, ?_⟩
    · rw [← hw, hg, append_assoc]
    · rw [length_append]
      omega
  | error code got sock' hg hl hwt ho' => exact absurd ho ho'
  | early got sock' hg hl hne hwt ho' =>
    -- at the end of the wire the buffer holds all of `w`
    rw [hg, ho' ho, ← append_assoc] at hw
    have := congrArg length hw
    simp only [sockBytes, flatMap_nil, append_nil] at this
    rw [this, length_append, hlen] at hl
    omega
  | eof sock' hg hs hne hwt ho' =>
    rw [hg, ho' ho, hne] at hw
    have := congrArg length hw
    simp only [sockBytes, flatMap_nil, append_nil, length_nil, length_append] at this
    omega
  | done got sock' hg hge hl hwt hlt ho' =>
    rw [hg, ← append_assoc] at hw
    obtain ⟨rfl, htail⟩ := append_inj hw (by rw [hl hb, hlen])
    have := hl hb
    rw [length_append] at this
    exact .inr ⟨sock', rfl, htail, ho' ho, by omega⟩

theorem ExactStep.of_end (h : ExactStep size [] sock x) (ho : Orderly sock)
    (hsize : 0 < size) (hw : sockBytes sock = []) :
    (∃ sock', x = (.pending, [], sock') ∧ sockBytes sock' = [] ∧ Orderly sock' ∧ sockWeight sock' < sockWeight sock) ∨
    (∃ sock', x = (.ready 0, [], sock') ∧ sockBytes sock' = [] ∧ Orderly sock') := by
  cases h with
  | pending got sock' hg hl hwt ho' =>
    obtain ⟨rfl, hs⟩ := append_eq_nil_iff.mp (hg.symm.trans hw)
    exact .inl ⟨sock', rfl, hs, ho' ho, hwt⟩
  | error code got sock' hg hl hwt ho' => exact absurd ho ho'
  | early got sock' hg hl hne hwt ho' =>
    exact absurd (append_eq_nil_iff.mp (hg.symm.trans hw)).1 hne
  | eof sock' hg hs hne hwt ho' =>
    refine .inr ⟨sock', rfl, hg ▸ hw, ?_⟩
    rw [ho' ho]
    exact nofun
  | done got sock' hg hge hl hwt hlt ho' =>
    rw [(append_eq_nil_iff.mp (hg.symm.trans hw)).1] at hge
    exact absurd hge (by simp; omega)

section

variable {k : A.Sub} {all : List Bytes} {Ok : Nat → η → Prop} {cap : Nat} {r : Rx A η} {X : Bytes}

theorem InStep.of_rest {Ok' : Nat → η → Prop} {state : ChunkState} {c : Cipher A} {rest rest' : η}
    (h : InStep k all Ok ⟨state, c, buffer, rest, sock⟩ X) (hr : ∀ n, Ok n rest → Ok' n rest') :
    InStep k all Ok' ⟨state, c, buffer, rest', sock⟩ X := by
  cases h with
  | readLength cs hw hb hc hok ho => exact .readLength cs hw hb hc (hr _ hok) ho
  | readData c cs hw hb hc hok ho => exact .readData c cs hw hb hc (hr _ hok) ho
  | bufferedData pos cs hw hc hok ho => exact .bufferedData pos cs hw hc (hr _ hok) ho

variable {cs : List Bytes}

theorem chunkRound_readLength (hinv : A.Inverts) (hF : ∀ c ∈ all, Fits R c) {rest : η}
    (hw : buffer ++ sockBytes sock = chunkWire A k n cs) (hb : buffer.length ≤ 2 + A.tagLen) (hc : cs <:+ all)
    (hr : Ok cs.length rest) (ho : Orderly sock) :
    RoundStep (InStep k all Ok) chunkMeasure ⟨.readLength, ⟨k, n⟩, buffer, rest, sock⟩ cs.flatten
      (chunkRound R cap ⟨.readLength, ⟨k, n⟩, buffer, rest, sock⟩) := by
  have hx := pollReadExact_step (2 + A.tagLen) buffer sock
  cases cs with
  | nil =>
    obtain ⟨rfl, hsock⟩ := append_eq_nil_iff.mp hw
    rcases hx.of_end ho (by omega) hsock with ⟨s, he, hs, ho', hlt⟩ | ⟨s, he, hs, ho'⟩
    · simp only [chunkRound, pollReadLength, he]
      exact .ret _ _ (.pending _ (.readLength [] hs (Nat.zero_le _) hc hr ho')
        (Nat.add_lt_add_right hlt _))
    · simp only [chunkRound, pollReadLength, he]
      exact .ret _ _ (.eof _ rfl (.readLength [] hs (Nat.zero_le _) hc hr ho'))
  | cons c cs =>
    have hlen : (A.encrypt k n (put16 (UInt16.ofNat c.length))).length = 2 + A.tagLen := by simp
    obtain ⟨hlt, hcheck⟩ := hF c (hc.subset mem_cons_self)
    rw [chunkWire, append_assoc] at hw
    rcases hx.of_wire ho hb hw hlen with ⟨buf, s, he, hs, hb', ho', hμ⟩ | ⟨s, he, hs, ho', hμ⟩
    · simp only [chunkRound, pollReadLength, he]
      refine .ret _ _ (.pending _ (.readLength (c :: cs) ?_ hb' hc hr ho') hμ)
      rw [hs, chunkWire, append_assoc]
    have hd := Cipher.decryptPacket_some (c := ⟨k, n⟩) (hinv k n (put16 (UInt16.ofNat c.length)))
    simp only [chunkRound, pollReadLength, he, decryptLength, take_of_length_le (Nat.le_of_eq hlen), hd,
      take_left' (put16_length _), put16_ofNat hlt, hcheck]
    rw [if_neg (by omega)]
    refine .next _ (.readData c cs hs (Nat.zero_le _) hc hr ho') ?_
    simp only [chunkMeasure, length_nil]
    omega

variable {c : Bytes}

theorem chunkRound_readData (hinv : A.Inverts)
    (hok : ∀ n rest, Ok (n + 1) rest → (R.onData rest).1 = none ∧ Ok n (R.onData rest).2) {rest : η}
    (hw : buffer ++ sockBytes sock = A.encrypt k n c ++ chunkWire A k (n + 1) cs)
    (hb : buffer.length ≤ c.length + A.tagLen) (hc : c :: cs <:+ all) (hr : Ok (cs.length + 1) rest)
    (ho : Orderly sock) :
    RoundStep (InStep k all Ok) chunkMeasure ⟨.readData c.length, ⟨k, n⟩, buffer, rest, sock⟩ (c ++ cs.flatten)
      (chunkRound R cap ⟨.readData c.length, ⟨k, n⟩, buffer, rest, sock⟩) := by
  have htag := A.tagLen_pos
  have hlen : (A.encrypt k n c).length = c.length + A.tagLen := A.encrypt_length k n c
  rcases (pollReadExact_step (c.length + A.tagLen) buffer sock).of_wire ho hb hw hlen with
    ⟨buf, s, he, hs, hb', ho', hμ⟩ | ⟨s, he, hs, ho', hμ⟩
  · simp only [chunkRound, pollReadData, he]
    exact .ret _ _ (.pending _ (.readData c cs hs hb' hc hr ho') hμ)
  have hd := Cipher.decryptPacket_some (c := ⟨k, n⟩) (hinv k n c)
  obtain ⟨hnone, hok'⟩ := hok cs.length rest hr
  rcases hon : R.onData rest with ⟨e, rest'⟩
  rw [hon] at hnone hok'
  subst hnone
  simp only [chunkRound, pollReadData, he, take_of_length_le (le_of_eq hlen), hd, hon,
    append_assoc, take_left' (rfl : c.length = c.length)]
  rw [if_neg (by omega)]
  refine .next _ (.bufferedData 0 cs hs hc hok' ho') ?_
  simp only [chunkMeasure]
  omega

theorem suffix_eq_of_flatten {l : List Bytes} (h : l <:+ c :: cs) (hlt : cs.flatten.length < l.flatten.length) :
    l = c :: cs := by
  rcases suffix_cons_iff.mp h with rfl | ⟨pre, rfl⟩
  · rfl
  · rw [flatten_append, length_append] at hlt
    omega

theorem InStep.first (h : InStep k (c :: cs) Ok r X) (hlo : cs.flatten.length < X.length)
    (hhi : X.length < c.length + cs.flatten.length) :
    ∃ pos, r.state = .bufferedData pos ∧ r.buffer.length - pos = X.length - cs.flatten.length ∧
      Ok cs.length r.rest := by
  cases h with
  | readLength l hw hb hc hr ho =>
    rw [suffix_eq_of_flatten hc hlo, flatten_cons, length_append] at hhi
    omega
  | readData c' l hw hb hc hr ho =>
    have hall := suffix_eq_of_flatten hc (by simpa using hlo)
    injection hall with hc' hl
    rw [hc', hl, length_append] at hhi
    omega
  | @bufferedData n buffer rest sock pos l hw hc hr ho =>
    have hlen : (buffer.drop pos).length ≤ buffer.length := by
      rw [length_drop]
      omega
    rw [length_append] at hlo
    have hall := suffix_eq_of_flatten hc (by rw [flatten_cons, length_append]; omega)
    injection hall with _ hl
    subst hl
    refine ⟨pos, rfl, ?_, hr⟩
    show buffer.length - pos = _
    rw [length_append, length_drop]
    omega

theorem InStep.finished (h : InStep k [c] Ok r []) (hne : c ≠ []) :
    (∀ pos, r.state = .bufferedData pos → r.buffer.length - pos = 0) ∧ Ok 0 r.rest := by
  generalize hX : ([] : Bytes) = X at h
  cases h with
  | readLength cs hw hb hc hr ho =>
    refine ⟨nofun, ?_⟩
    rcases suffix_cons_iff.mp hc with rfl | hnil
    · rw [flatten_cons, flatten_nil, append_nil] at hX
      exact absurd hX.symm hne
    · rwa [suffix_nil.mp hnil] at hr
  | readData c' cs hw hb hc hr ho =>
    rcases suffix_cons_iff.mp hc with heq | hnil
    · injection heq with hc' _
      exact absurd (hc' ▸ (append_eq_nil_iff.mp hX.symm).1) hne
    · cases suffix_nil.mp hnil
  | bufferedData pos cs hw hc hr ho =>
    obtain ⟨hdrop, -⟩ := append_eq_nil_iff.mp hX.symm
    refine ⟨fun pos' hpos => ?_, ?_⟩
    · injection hpos with hpos
      rw [← hpos, ← length_drop, hdrop]
      rfl
    · rcases suffix_cons_iff.mp hc with heq | hnil
      · injection heq with _ hcs
        rwa [hcs] at hr
      · cases suffix_nil.mp hnil

theorem chunkRound_inStep (hinv : A.Inverts) (hF : ∀ c ∈ all, Fits R c)
    (hok : ∀ n rest, Ok (n + 1) rest → (R.onData rest).1 = none ∧ Ok n (R.onData rest).2)
    (hcap : 0 < cap) (h : InStep k all Ok r X) :
    RoundStep (InStep k all Ok) chunkMeasure r X (chunkRound R cap r) := by
  cases h with
  | readLength cs hw hb hc hr ho => exact chunkRound_readLength hinv hF hw hb hc hr ho
  | readData c cs hw hb hc hr ho => exact chunkRound_readData hinv hok hw hb hc hr ho
  | @bufferedData n buffer rest sock pos cs hw hc hr ho =>
    rcases lt_or_ge pos buffer.length with hlt | hge
    · simp only [chunkRound, if_pos hlt]
      have hlen : (buffer.drop pos).length = buffer.length - pos := length_drop
      refine .ret _ _ (.data _ (buffer.drop (pos + min (buffer.drop pos).length cap) ++ cs.flatten) _
        ?_ ?_ (.bufferedData _ cs hw hc hr ho) ?_)
      · intro e
        have := congrArg length e
        rw [length_take, hlen, length_nil] at this
        omega
      · rw [← append_assoc, ← drop_drop, take_append_drop]
      · simp only [chunkMeasure, hlen]
        omega
    · simp only [chunkRound, if_neg (not_lt.mpr hge)]
      rw [drop_of_length_le hge, nil_append]
      exact .next _ (.readLength cs hw zero_le ((suffix_cons _ _).trans hc) hr ho)
        (by simp [chunkMeasure])

end

end

/-! ## 5. Writing out the buffer -/

def drainRound (buffer : Bytes) : Nat × WriteSock → Ctl (Poll IoError Unit) (Nat × WriteSock)
  | (pos, sock) =>
    if pos < buffer.length then
      match pollWrite (buffer.drop pos) sock with
      | (.pending, sock') => .ret .pending (pos, sock')
      | (.error e, sock') => .ret (.error e) (pos, sock')
      | (.ready n, sock') =>
        if n = 0 then .ret (.error .unexpectedEof) (pos, sock') else .next (pos + n, sock')
    else .ret (.ready ()) (pos, sock)

def drain (buffer : Bytes) (pos : Nat) (sock : WriteSock) :
    Poll IoError Unit × Nat × WriteSock :=
  loopUntil (drainRound buffer) (fun s => buffer.length - s.1) .pending (pos, sock)

theorem drainRound_pot (buffer : Bytes) (s s' : Nat × WriteSock)
    (h : drainRound buffer s = .next s') : buffer.length - s'.1 < buffer.length - s.1 := by
  obtain ⟨pos, sock⟩ := s
  rw [drainRound] at h
  split at h
  · split at h
    · cases h
    · cases h
    split at h
    · cases h
    · injection h with h
      subst h
      omega
  · cases h

inductive DrainStep (buffer : Bytes) (pos : Nat) (sock : WriteSock) :
    Poll IoError Unit × Nat × WriteSock → Prop where
  | pending (pos' : Nat) (sock' : WriteSock)
      (hw : sock'.wire ++ buffer.drop pos' = sock.wire ++ buffer.drop pos)
      (he : sock'.events.length < sock.events.length) (hwill : Willing sock → Willing sock') :
      DrainStep buffer pos sock (.pending, pos', sock')
  | failed (e : IoError) (pos' : Nat) (sock' : WriteSock) (hwill : ¬ Willing sock) :
      DrainStep buffer pos sock (.error e, pos', sock')
  | done (pos' : Nat) (sock' : WriteSock) (hw : sock'.wire = sock.wire ++ buffer.drop pos)
      (he : sock'.events.length ≤ sock.events.length) (hwill : Willing sock → Willing sock') :
      DrainStep buffer pos sock (.ready (), pos', sock')

structure Draining (buffer : Bytes) (pos : Nat) (sock : WriteSock) (cur : Nat) (now : WriteSock) :
    Prop where
  wire : now.wire ++ buffer.drop cur = sock.wire ++ buffer.drop pos
  events : now.events.length ≤ sock.events.length
  willing : Willing sock → Willing now

theorem drainRound_cases {pos cur : Nat} {sock now : WriteSock} (h : Draining buffer pos sock cur now) :
    match drainRound buffer (cur, now) with
    | .next t => Draining buffer pos sock t.1 t.2
    | .ret r t => DrainStep buffer pos sock (r, t) := by
  obtain ⟨hwire, hev, hwill⟩ := h
  rw [drainRound]
  by_cases hlt : cur < buffer.length
  · rw [if_pos hlt]
    have hne : buffer.drop cur ≠ [] := drop_eq_nil_iff.not.mpr (by omega)
    have hstep := pollWrite_step (buffer.drop cur) now
    rcases hr : pollWrite (buffer.drop cur) now with ⟨r, now'⟩
    rw [hr] at hstep
    cases hstep with
    | pending _ hw he hwill' =>
      exact .pending cur now' (hw ▸ hwire) (lt_of_lt_of_le he hev) (hwill' ∘ hwill)
    | error code _ hw hwill' => exact .failed _ cur now' fun h => hwill' (hwill h)
    | ready n _ hn hw he hwill' =>
      by_cases h0 : n = 0
      · simp only [if_pos h0]
        exact .failed _ cur now' fun h => absurd h0 (ne_of_gt ((hwill' (hwill h)).2 hne))
      · simp only [if_neg h0]
        refine ⟨?_, le_trans he hev, fun h => (hwill' (hwill h)).1⟩
        rw [hw, ← hwire, append_assoc, ← drop_drop, take_append_drop]
  · rw [if_neg hlt]
    refine .done cur now ?_ hev hwill
    rw [← hwire, drop_of_length_le (not_lt.mp hlt), append_nil]

theorem drain_step (buffer : Bytes) (pos : Nat) (sock : WriteSock) :
    DrainStep buffer pos sock (drain buffer pos sock) := by
  refine loopUntil_ind (drainRound_pot buffer) (P := fun t => Draining buffer pos sock t.1 t.2)
    (Q := fun r t => DrainStep buffer pos sock (r, t)) ?_ ?_ ⟨rfl, le_rfl, id⟩
  · intro t t' ht hs
    have h := drainRound_cases ht
    rwa [hs] at h
  · intro t r t' ht hs
    have h := drainRound_cases ht
    rwa [hs] at h

theorem drain_wire (buffer : Bytes) (pos : Nat) (sock : WriteSock) :
    (drain buffer pos sock).2.2.wire ++ buffer.drop (drain buffer pos sock).2.1 = sock.wire ++ buffer.drop pos := by
  refine loopUntil_keeps (P := fun t : Nat × WriteSock =>
    t.2.wire ++ buffer.drop t.1 = sock.wire ++ buffer.drop pos) (drainRound_pot buffer) ?_ rfl
  rintro ⟨cur, now⟩ h
  rw [drainRound]
  by_cases hlt : cur < buffer.length
  · rw [if_pos hlt]
    have hstep := pollWrite_step (buffer.drop cur) now
    rcases hr : pollWrite (buffer.drop cur) now with ⟨r, now'⟩
    rw [hr] at hstep
    cases hstep with
    | pending _ hw _ _ | error code _ hw _ => exact hw ▸ h
    | ready n _ _ hw _ _ =>
      by_cases h0 : n = 0
      · subst h0
        rw [take_zero, append_nil] at hw
        exact hw ▸ h
      · simp only [if_neg h0]
        refine Eq.trans ?_ h
        show now'.wire ++ buffer.drop (cur + n) = _
        rw [hw, append_assoc, ← drop_drop, take_append_drop]
  · rw [if_neg hlt]
    exact h

/-! ## 6. The writer of chunks -/

inductive EncryptWriteState (ι : Type) where
  | assembleHeader (i : ι)
  | assemblePacket
  | writing (pos : Nat)

structure Tx (A : Aead) (ι : Type) where
  cipher : Cipher A
  buffer : Bytes
  state : EncryptWriteState ι
  sock : WriteSock

section

variable {A : Aead} {ι : Type}

variable (t : Tx A ι)

def Tx.assemble (head buf : Bytes) : Tx A ι :=
  let (head', cipher) := t.cipher.encryptPacket head
  let (data, cipher) := cipher.encryptPacket buf
  { t with cipher := cipher, buffer := t.buffer ++ head' ++ data, state := .writing 0 }

def pollWriting (buf : Bytes) (pos : Nat) (t : Tx A ι) : Poll IoError Nat × Tx A ι :=
  match drain t.buffer pos t.sock with
  | (.pending, pos', sock) => (.pending, { t with state := .writing pos', sock := sock })
  | (.error e, pos', sock) => (.error e, { t with state := .writing pos', sock := sock })
  | (.ready (), _, sock) =>
    (.ready buf.length, { t with state := .assemblePacket, buffer := [], sock := sock })

def pollWriteChunks (max : Nat) (header : ι → Bytes → Bytes) (buf : Bytes) (t : Tx A ι) :
    Poll IoError Nat × Tx A ι :=
  let buf := if buf.length > max then buf.take max else buf
  match t.state with
  | .assembleHeader i => pollWriting buf 0 (t.assemble (header i buf) buf)
  | .assemblePacket => pollWriting buf 0 (t.assemble (put16 (UInt16.ofNat buf.length)) buf)
  | .writing pos => pollWriting buf pos t

def submit (poll : Bytes → Tx A ι → Poll IoError Nat × Tx A ι) (buf : Bytes) (t : Tx A ι) :
    Except IoError Nat × Tx A ι :=
  untilReady (poll buf) (fun t => t.sock.events.length) .unexpectedEof t

theorem pollWriting_cases (buf : Bytes) (pos : Nat) (t : Tx A ι) : (∃ pos' sock', pollWriting buf pos t =
        (.pending, { t with state := .writing pos', sock := sock' }) ∧
      sock'.wire ++ t.buffer.drop pos' = t.sock.wire ++ t.buffer.drop pos ∧
      sock'.events.length < t.sock.events.length ∧ (Willing t.sock → Willing sock')) ∨
    (∃ e t', pollWriting buf pos t = (.error e, t') ∧ ¬ Willing t.sock) ∨
    (∃ sock', pollWriting buf pos t =
        (.ready buf.length, { t with state := .assemblePacket, buffer := [], sock := sock' }) ∧
      sock'.wire = t.sock.wire ++ t.buffer.drop pos ∧
      sock'.events.length ≤ t.sock.events.length ∧ (Willing t.sock → Willing sock')) := by
  unfold pollWriting
  have hd := drain_step t.buffer pos t.sock
  rcases hr : drain t.buffer pos t.sock with ⟨r, x⟩
  rw [hr] at hd
  cases hd with
  | pending pos' sock' hw he hw' => exact .inl ⟨pos', sock', rfl, hw, he, hw'⟩
  | failed e _ _ h => exact .inr (.inl ⟨e, _, rfl, h⟩)
  | done pos' sock' hw he hw' => exact .inr (.inr ⟨sock', rfl, hw, he, hw'⟩)

def Tx.emitted : Bytes :=
  match t.state with
  | .writing pos => t.sock.wire ++ t.buffer.drop pos
  | _ => t.sock.wire

def Tx.Started : Prop :=
  (t.state = .assemblePacket ∧ t.buffer = []) ∨ ∃ pos, t.state = .writing pos

theorem pollWriting_emitted (buf : Bytes) (pos : Nat) (t : Tx A ι) :
    (pollWriting buf pos t).2.emitted = t.sock.wire ++ t.buffer.drop pos ∧
      (pollWriting buf pos t).2.cipher = t.cipher ∧ (pollWriting buf pos t).2.Started := by
  have hwire := drain_wire t.buffer pos t.sock
  have hstep := drain_step t.buffer pos t.sock
  unfold pollWriting
  rcases hr : drain t.buffer pos t.sock with ⟨r, x⟩
  rw [hr] at hwire hstep
  cases hstep with
  | pending pos' sock' _ _ _ | failed e pos' sock' _ => exact ⟨hwire, rfl, .inr ⟨_, rfl⟩⟩
  | done pos' sock' hw _ _ => exact ⟨hw, rfl, .inl ⟨rfl, rfl⟩⟩

def Tx.assembled (max : Nat) (header : ι → Bytes → Bytes) (buf : Bytes) (t : Tx A ι) : Tx A ι :=
  match t.state with
  | .assembleHeader i => t.assemble (header i (buf.take max)) (buf.take max)
  | .assemblePacket => t.assemble (put16 (UInt16.ofNat (buf.take max).length)) (buf.take max)
  | .writing _ => t

def Tx.pos : Nat :=
  match t.state with
  | .writing pos => pos
  | _ => 0

variable {max : Nat} {header : ι → Bytes → Bytes} {buf : Bytes}

theorem accepted_eq (max : Nat) (buf : Bytes) :
    (if buf.length > max then buf.take max else buf) = buf.take max := by
  split
  · rfl
  · exact (take_of_length_le (not_lt.mp ‹_›)).symm

theorem pollWriteChunks_eq : pollWriteChunks max header buf t =
      pollWriting (buf.take max) t.pos (t.assembled max header buf) := by
  simp only [pollWriteChunks, accepted_eq, Tx.assembled, Tx.pos]
  cases t.state <;> rfl

theorem pollWriteChunks_emitted (max : Nat) (header : ι → Bytes → Bytes) (buf : Bytes) (t : Tx A ι) :
    (pollWriteChunks max header buf t).2.emitted =
        (t.assembled max header buf).sock.wire ++ (t.assembled max header buf).buffer.drop t.pos ∧
      (pollWriteChunks max header buf t).2.cipher = (t.assembled max header buf).cipher ∧
      (pollWriteChunks max header buf t).2.Started := by
  rw [pollWriteChunks_eq]
  exact pollWriting_emitted (buf.take max) t.pos (t.assembled max header buf)

theorem Tx.assembled_sock : (t.assembled max header buf).sock = t.sock := by
  unfold assembled
  cases t.state <;> rfl

theorem pollWriteChunks_pot (max : Nat) (header : ι → Bytes → Bytes) (buf : Bytes) (t t' : Tx A ι)
    (h : pollWriteChunks max header buf t = (.pending, t')) : t'.sock.events.length < t.sock.events.length := by
  rw [pollWriteChunks_eq] at h
  rcases pollWriting_cases (buf.take max) t.pos (t.assembled max header buf) with
    ⟨_, _, he, _, hlt, _⟩ | ⟨_, _, he, _⟩ | ⟨_, he, _⟩ <;> rw [he] at h <;> cases h
  rwa [Tx.assembled_sock] at hlt

structure Writing (w u : Tx A ι) (pos : Nat) : Prop where
  same : u = { w with state := .writing pos, sock := u.sock }
  wire : u.sock.wire ++ w.buffer.drop pos = w.sock.wire ++ w.buffer
  willing : Willing u.sock

structure Written (w u : Tx A ι) : Prop where
  same : u = { w with state := .assemblePacket, buffer := [], sock := u.sock }
  wire : u.sock.wire = w.sock.wire ++ w.buffer
  willing : Willing u.sock

def Tx.pot : Nat := t.sock.events.length

theorem pollWriting_step {w u : Tx A ι} {pos : Nat} (h : Writing w u pos) (buf : Bytes) :
    AwaitStep (fun u' => ∃ pos', Writing w u' pos') (fun n u' => n = buf.length ∧ Written w u') Tx.pot
      u (pollWriting buf pos u) := by
  obtain ⟨hsame, hwire, hwill⟩ := h
  have hbuffer : u.buffer = w.buffer := by rw [hsame]
  have hcipher : u.cipher = w.cipher := by rw [hsame]
  rcases pollWriting_cases buf pos u with ⟨pos', sock', he, hd, hlt, hw⟩ | ⟨_, _, _, hf⟩ |
    ⟨sock', he, hd, hle, hw⟩
  · rw [hbuffer] at hd
    refine .inl ⟨_, he, ⟨pos', ?_, hd.trans hwire, hw hwill⟩, hlt⟩
    rw [hbuffer, hcipher]
  · exact absurd hwill hf
  · rw [hbuffer] at hd
    refine .inr ⟨_, _, he, ⟨rfl, ?_, hd.trans hwire, hw hwill⟩, hle⟩
    rw [hcipher]

variable {t : Tx A ι}

theorem pollWriteChunks_first (max : Nat) (header : ι → Bytes → Bytes) (buf : Bytes)
    (ht : ∀ pos, t.state ≠ .writing pos) (hwill : Willing t.sock) :
    AwaitStep (fun u => ∃ pos, Writing (t.assembled max header buf) u pos)
      (fun n u => n = (buf.take max).length ∧ Written (t.assembled max header buf) u) Tx.pot t
      (pollWriteChunks max header buf t) := by
  have hstart : t.pos = 0 ∧ Writing (t.assembled max header buf) (t.assembled max header buf) 0 := by
    unfold Tx.pos Tx.assembled
    cases hs : t.state with
    | writing pos => exact absurd hs (ht pos)
    | assembleHeader i | assemblePacket => exact ⟨rfl, rfl, rfl, hwill⟩
  have hpot : (t.assembled max header buf).pot = t.pot := congrArg (·.events.length) t.assembled_sock
  rw [pollWriteChunks_eq, hstart.1, AwaitStep, ← hpot]
  exact pollWriting_step hstart.2 _

theorem pollWriteChunks_again (max : Nat) (header : ι → Bytes → Bytes) (buf : Bytes) {w u : Tx A ι}
    {pos : Nat} (h : Writing w u pos) :
    AwaitStep (fun u' => ∃ pos', Writing w u' pos') (fun n u' => n = (buf.take max).length ∧ Written w u') Tx.pot u
      (pollWriteChunks max header buf u) := by
  have hs : u.state = .writing pos := by rw [h.same]
  rw [pollWriteChunks_eq, Tx.pos, Tx.assembled, hs]
  exact pollWriting_step h _

theorem submit_wire (max : Nat) (header : ι → Bytes → Bytes) (buf : Bytes) (ht : ∀ pos, t.state ≠ .writing pos)
    (hwill : Willing t.sock) :
    ∃ u, submit (pollWriteChunks max header) buf t = (.ok (buf.take max).length, u) ∧
      Written (t.assembled max header buf) u := by
  have hrun := untilReady_ok (s := t) IoError.unexpectedEof
    (pollWriteChunks_pot max header buf)
    (P := fun u => u = t ∨ ∃ pos, Writing (t.assembled max header buf) u pos)
    (Q := fun n u => n = (buf.take max).length ∧ Written (t.assembled max header buf) u)
    (fun u hu => ?_) (.inl rfl)
  · obtain ⟨n, u, he, rfl, hw⟩ := hrun
    exact ⟨u, he, hw⟩
  have hstep : AwaitStep (fun u => ∃ pos, Writing (t.assembled max header buf) u pos)
      (fun n u => n = (buf.take max).length ∧ Written (t.assembled max header buf) u) Tx.pot u
      (pollWriteChunks max header buf u) := by
    rcases hu with rfl | ⟨pos, hw⟩
    · exact pollWriteChunks_first max header buf ht hwill
    · exact pollWriteChunks_again max header buf hw
  rcases hstep with ⟨u', he, hw, _⟩ | ⟨n, u', he, hQ, _⟩
  · exact .inl ⟨u', he, .inr hw⟩
  · exact .inr ⟨n, u', he, hQ⟩

def submitAll (poll : Bytes → Tx A ι → Poll IoError Nat × Tx A ι) :
    List Bytes → Tx A ι → Except IoError Bytes × Tx A ι
  | [], t => (.ok [], t)
  | buf :: bufs, t =>
    match submit poll buf t with
    | (.error e, t') => (.error e, t')
    | (.ok n, t') =>
      match submitAll poll bufs t' with
      | (.error e, t'') => (.error e, t'')
      | (.ok accepted, t'') => (.ok (buf.take n ++ accepted), t'')

def accepted (max : Nat) (bufs : List Bytes) : Bytes := (bufs.map (take max)).flatten

theorem Tx.assembled_cipher (ht : ∀ pos, t.state ≠ .writing pos) :
    (t.assembled max header buf).cipher = ⟨t.cipher.key, t.cipher.nonce + 2⟩ := by
  unfold assembled
  cases hs : t.state with
  | writing pos => exact absurd hs (ht pos)
  | assembleHeader i | assemblePacket => rfl

theorem submitAll_cons {bufs : List Bytes} {t' t'' : Tx A ι}
    (h : submit (pollWriteChunks max header) buf t = (.ok (buf.take max).length, t'))
    (hs : submitAll (pollWriteChunks max header) bufs t' = (.ok (accepted max bufs), t'')) :
    submitAll (pollWriteChunks max header) (buf :: bufs) t = (.ok (accepted max (buf :: bufs)), t'') := by
  have htake : buf.take (buf.take max).length = buf.take max := by
    rw [length_take, ← take_take, take_length]
  simp only [submitAll, h, hs, htake]
  rfl

theorem submitAll_chunks (max : Nat) (header : ι → Bytes → Bytes) (bufs : List Bytes) (hs : t.state = .assemblePacket)
    (hb : t.buffer = []) (hwill : Willing t.sock) :
    ∃ t', submitAll (pollWriteChunks max header) bufs t = (.ok (accepted max bufs), t') ∧
      t'.sock.wire = t.sock.wire ++ chunkWire A t.cipher.key t.cipher.nonce (bufs.map (take max)) := by
  induction bufs generalizing t with
  | nil => exact ⟨t, rfl, (append_nil _).symm⟩
  | cons buf bufs ih =>
    have ht : ∀ pos, t.state ≠ .writing pos := fun pos h => by rw [hs] at h; cases h
    obtain ⟨u, he, hsame, hwire, hw⟩ := submit_wire max header buf ht hwill
    obtain ⟨t', he', hwire'⟩ := ih (t := u) (by rw [hsame]) (by rw [hsame]) hw
    have hcipher : u.cipher = (t.assembled max header buf).cipher := by rw [hsame]
    refine ⟨t', submitAll_cons he he', ?_⟩
    rw [hwire', hwire, hcipher, Tx.assembled_cipher ht, Tx.assembled_sock]
    simp [Tx.assembled, hs, Tx.assemble, Cipher.encryptPacket, hb, chunkWire]

theorem submitAll_first (max : Nat) (header : ι → Bytes → Bytes) (buf : Bytes) (bufs : List Bytes)
    (ht : ∀ pos, t.state ≠ .writing pos) (hwill : Willing t.sock) :
    ∃ t', submitAll (pollWriteChunks max header) (buf :: bufs) t = (.ok (accepted max (buf :: bufs)), t') ∧
      t'.sock.wire = t.sock.wire ++ (t.assembled max header buf).buffer ++
        chunkWire A t.cipher.key (t.cipher.nonce + 2) (bufs.map (take max)) := by
  obtain ⟨u, he, hsame, hwire, hw⟩ := submit_wire max header buf ht hwill
  obtain ⟨t', he', hwire'⟩ := submitAll_chunks max header bufs (t := u) (by rw [hsame])
    (by rw [hsame]) hw
  have hcipher : u.cipher = (t.assembled max header buf).cipher := by rw [hsame]
  refine ⟨t', submitAll_cons he he', ?_⟩
  rw [hwire', hwire, hcipher, Tx.assembled_cipher ht, Tx.assembled_sock]

end

end Shadowsocks.Tcp
