/-
  Subject:   COPYING IN BOTH DIRECTIONS (`copy_encrypted_bidirectional` of
  `crates/shadowsocks/src/relay/tcprelay/utils.rs`) between two streams that answer every poll at will and keep a
  record of what was done with them.
-/
import Shadowsocks.Tcp.CryptoIo

namespace Shadowsocks.Tcp.Copy

open Lib List

/-! ## 1. The streams -/

structure Source where
  answers : ReadSock
  delivered : List Bytes

def Source.pollRead (cap : Nat) (r : Source) : Poll IoError Bytes × Source :=
  match Lib.pollRead cap r.answers with
  | (.pending, answers) => (.pending, { r with answers := answers })
  | (.error e, answers) => (.error e, { r with answers := answers })
  | (.ready bs, answers) => (.ready bs, ⟨answers, r.delivered ++ [bs]⟩)

inductive Answer where
  | pending
  | ok
  | error (code : Nat)

def pollAnswer : List Answer → Poll IoError Unit × List Answer
  | [] => (.ready (), [])
  | .ok :: answers => (.ready (), answers)
  | .pending :: answers => (.pending, answers)
  | .error code :: answers => (.error (.os code), answers)

inductive Done where
  | wrote (bs : Bytes)
  | flushed
  | shutDown

structure Sink where
  writes : List WriteEvent
  controls : List Answer
  done : List Done

def Sink.pollWrite (buf : Bytes) (w : Sink) : Poll IoError Nat × Sink :=
  match Lib.pollWrite buf ⟨w.writes, []⟩ with
  | (.pending, sock) => (.pending, { w with writes := sock.events })
  | (.error e, sock) => (.error e, { w with writes := sock.events })
  | (.ready n, sock) => (.ready n, { w with writes := sock.events, done := w.done ++ [.wrote sock.wire] })

def Sink.pollControl (x : Done) (w : Sink) : Poll IoError Unit × Sink :=
  match pollAnswer w.controls with
  | (.pending, answers) => (.pending, { w with controls := answers })
  | (.error e, answers) => (.error e, { w with controls := answers })
  | (.ready (), answers) => (.ready (), { w with controls := answers, done := w.done ++ [x] })

def Sink.pollFlush (w : Sink) : Poll IoError Unit × Sink := w.pollControl .flushed

def Sink.pollShutdown (w : Sink) : Poll IoError Unit × Sink := w.pollControl .shutDown

structure Duplex where
  source : Source
  sink : Sink

/-! ## 2. The loops -/

structure CopyBuffer where
  readDone : Bool
  (pos cap : Nat)
  amt : UInt64
  buf : Bytes

def CopyBuffer.new (bufferSize : Nat) : CopyBuffer := ⟨false, 0, 0, 0, replicate bufferSize 0⟩

def CopyBuffer.rest (c : CopyBuffer) : Bytes := (c.buf.take c.cap).drop c.pos

def writeRound : CopyBuffer × Sink → Ctl (Poll IoError Unit) (CopyBuffer × Sink)
  | (c, w) =>
    if c.pos < c.cap then
      match w.pollWrite c.rest with
      | (.pending, w) => .ret .pending (c, w)
      | (.error e, w) => .ret (.error e) (c, w)
      | (.ready i, w) =>
        if i = 0 then .ret (.error (.other "write zero byte into writer")) (c, w)
        else .next ({ c with pos := c.pos + i, amt := c.amt + UInt64.ofNat i }, w)
    else .ret (.ready ()) (c, w)

def writePot (s : CopyBuffer × Sink) : Nat := s.1.cap - s.1.pos

def writeOut (c : CopyBuffer) (w : Sink) : Poll IoError Unit × CopyBuffer × Sink :=
  loopUntil writeRound writePot .pending (c, w)

structure Copying where
  copy : CopyBuffer
  source : Source
  sink : Sink

def readMore (s : Copying) : Poll IoError Unit × Copying :=
  if s.copy.pos = s.copy.cap ∧ s.copy.readDone = false then
    match s.source.pollRead s.copy.buf.length with
    | (.pending, r) => (.pending, { s with source := r })
    | (.error e, r) => (.error e, { s with source := r })
    | (.ready bs, r) =>
      if bs.length = 0 then (.ready (), { s with copy.readDone := true, source := r })
      else (.ready (), { s with
        copy := { s.copy with pos := 0, cap := bs.length, buf := bs ++ s.copy.buf.drop bs.length }
        source := r })
  else (.ready (), s)

def copyRound (s : Copying) : Ctl (Poll IoError UInt64) Copying :=
  match readMore s with
  | (.pending, s) => .ret .pending s
  | (.error e, s) => .ret (.error e) s
  | (.ready (), s) =>
    match writeOut s.copy s.sink with
    | (.pending, c, w) => .ret .pending { s with copy := c, sink := w }
    | (.error e, c, w) => .ret (.error e) { s with copy := c, sink := w }
    | (.ready (), c, w) =>
      if c.pos = c.cap ∧ c.readDone = true then
        match w.pollFlush with
        | (.pending, w) => .ret .pending { s with copy := c, sink := w }
        | (.error e, w) => .ret (.error e) { s with copy := c, sink := w }
        | (.ready (), w) => .ret (.ready c.amt) { s with copy := c, sink := w }
      else .next { s with copy := c, sink := w }

def copyPot (s : Copying) : Nat :=
  2 * sockWeight s.source.answers + if s.copy.pos < s.copy.cap then 1 else 0

def pollCopy (s : Copying) : Poll IoError UInt64 × Copying := loopUntil copyRound copyPot .pending s

inductive TransferState where
  | running (buf : CopyBuffer)
  | shuttingDown (count : UInt64)
  | done (count : UInt64)

structure Direction where
  state : TransferState
  source : Source
  sink : Sink

def shutDown (count : UInt64) (r : Source) (w : Sink) : Poll IoError UInt64 × Direction :=
  match w.pollShutdown with
  | (.pending, w) => (.pending, ⟨.shuttingDown count, r, w⟩)
  | (.error e, w) => (.error e, ⟨.shuttingDown count, r, w⟩)
  | (.ready (), w) => (.ready count, ⟨.done count, r, w⟩)

def transferOneDirection (d : Direction) : Poll IoError UInt64 × Direction :=
  match d.state with
  | .running buf =>
    match pollCopy ⟨buf, d.source, d.sink⟩ with
    | (.pending, s) => (.pending, ⟨.running s.copy, s.source, s.sink⟩)
    | (.error e, s) => (.error e, ⟨.running s.copy, s.source, s.sink⟩)
    | (.ready count, s) => shutDown count s.source s.sink
  | .shuttingDown count => shutDown count d.source d.sink
  | .done count => (.ready count, d)

structure CopyBidirectional where
  (a b : Duplex)
  (aToB bToA : TransferState)

variable (s : CopyBidirectional)

def CopyBidirectional.forth : Direction := ⟨s.aToB, s.a.source, s.b.sink⟩

def CopyBidirectional.back : Direction := ⟨s.bToA, s.b.source, s.a.sink⟩

def CopyBidirectional.setForth (d : Direction) : CopyBidirectional :=
  { s with aToB := d.state, a.source := d.source, b.sink := d.sink }

def CopyBidirectional.setBack (d : Direction) : CopyBidirectional :=
  { s with bToA := d.state, b.source := d.source, a.sink := d.sink }

def pollImpl : Poll IoError (UInt64 × UInt64) × CopyBidirectional :=
  match transferOneDirection s.forth with
  | (.error e, d) => (.error e, s.setForth d)
  | (.pending, d) =>
    match transferOneDirection (s.setForth d).back with
    | (.error e, d') => (.error e, (s.setForth d).setBack d')
    | (_, d') => (.pending, (s.setForth d).setBack d')
  | (.ready aToB, d) =>
    match transferOneDirection (s.setForth d).back with
    | (.error e, d') => (.error e, (s.setForth d).setBack d')
    | (.pending, d') => (.pending, (s.setForth d).setBack d')
    | (.ready bToA, d') => (.ready (aToB, bToA), (s.setForth d).setBack d')

def plainReadBufferSize : CipherKind → Nat
  | .aead _ => V1.maxPacketSize
  | .stream _ => 1 <<< 14
  | .none => 1 <<< 14
  | .aead2022 _ => V2.maxPacketSize

def Duplex.new (answers : ReadSock) (writes : List WriteEvent) (controls : List Answer) : Duplex :=
  ⟨⟨answers, []⟩, ⟨writes, controls, []⟩⟩

def copyEncryptedBidirectional (method : CipherKind) (encrypted plain : Duplex) : CopyBidirectional where
  a := encrypted
  b := plain
  aToB := .running (.new (plainReadBufferSize method))
  bToA := .running (.new (plainReadBufferSize method))

/-! ## 3. One operation -/

def Source.bytes (r : Source) : Bytes := r.delivered.flatten

def Done.bytes : Done → Bytes
  | .wrote bs => bs
  | _ => []

def Sink.bytes (w : Sink) : Bytes := w.done.flatMap Done.bytes

structure Smooth (r : Source) (w : Sink) : Prop where
  reads : Orderly r.answers
  writes : Willing ⟨w.writes, []⟩
  controls : ∀ code, .error code ∉ w.controls

def weight (r : Source) (w : Sink) : Nat :=
  sockWeight r.answers + w.writes.length + w.controls.length

structure Onward (r : Source) (w : Sink) (r' : Source) (w' : Sink) : Prop where
  input : r'.bytes ++ sockBytes r'.answers = r.bytes ++ sockBytes r.answers
  smooth : Smooth r w → Smooth r' w'
  weight : weight r' w' ≤ weight r w

theorem onward_refl (r : Source) (w : Sink) : Onward r w r w := ⟨rfl, id, le_rfl⟩

variable {w' : Sink} {r' : Source}

theorem Onward.trans {r r'' : Source} {w w'' : Sink} (h : Onward r w r' w') (h' : Onward r' w' r'' w'') :
    Onward r w r'' w'' :=
  ⟨h'.input.trans h.input, h'.smooth ∘ h.smooth, le_trans h'.weight h.weight⟩

def Goes {σ α : Type} (source : σ → Source) (sink : σ → Sink) (r : Source) (w : Sink) (Waits : σ → Prop)
    (Ready : α → σ → Prop) : Poll IoError α × σ → Prop
  | (.pending, s) => Waits s ∧ Onward r w (source s) (sink s) ∧ weight (source s) (sink s) < weight r w
  | (.error _, s) => Waits s ∧ ¬ Smooth r w
  | (.ready a, s) => Ready a s ∧ Onward r w (source s) (sink s)

variable {w : Sink}

theorem Goes.later {σ α : Type} {source : σ → Source} {sink : σ → Sink} {r : Source} {Waits : σ → Prop}
    {Ready : α → σ → Prop} {x : Poll IoError α × σ} (h : Onward r w r' w') (hx : Goes source sink r' w' Waits Ready x) :
    Goes source sink r w Waits Ready x := by
  obtain ⟨_ | a | e, s⟩ := x
  · obtain ⟨hwaits, honward, hlt⟩ := hx
    exact ⟨hwaits, h.trans honward, lt_of_lt_of_le hlt h.weight⟩
  · exact ⟨hx.1, h.trans hx.2⟩
  · exact ⟨hx.1, fun hs => hx.2 (h.smooth hs)⟩

section

variable {r : Source} {w : Sink}

theorem pollRead_goes {cap : Nat} (hcap : 0 < cap) : Goes id (fun _ => w) r w (fun r' => r'.delivered = r.delivered)
      (fun bs r' => r'.delivered = r.delivered ++ [bs] ∧ bs.length ≤ cap ∧ (bs = [] → Smooth r w → r'.answers = []) ∧
        (bs ≠ [] → sockWeight r'.answers < sockWeight r.answers)) (r.pollRead cap) := by
  have hstep := pollRead_step hcap r.answers
  unfold Source.pollRead
  rcases hr : Lib.pollRead cap r.answers with ⟨res, answers⟩
  rw [hr] at hstep
  cases hstep with
  | pending _ hb hw ho =>
    refine ⟨rfl, ⟨?_, fun hs => ⟨ho hs.reads, hs.writes, hs.controls⟩, ?_⟩, ?_⟩
    · rw [hb]
      rfl
    · simp only [weight, id]
      omega
    · simp only [weight, id]
      omega
  | error code _ hb hw ho => exact ⟨rfl, fun hs => ho hs.reads⟩
  | eof _ hb hw ho =>
    refine ⟨⟨rfl, zero_le, fun _ hs => (ho hs.reads).2, fun hne => absurd rfl hne⟩, ?_, ?_, ?_⟩
    · simp only [id, Source.bytes, flatten_append, flatten_singleton, append_nil, hb]
    · intro hs
      exact ⟨(ho hs.reads).2 ▸ orderly_nil, hs.writes, hs.controls⟩
    · simp only [weight, id]
      omega
  | data b bs _ hlen hb hw ho =>
    refine ⟨⟨rfl, hlen, fun hnil => ?_, fun _ => ?_⟩, ?_, ?_, ?_⟩
    · cases hnil
    · show sockWeight answers < sockWeight r.answers
      rw [length_cons] at hw
      omega
    · simp only [id, Source.bytes, flatten_append, flatten_singleton, append_assoc, hb]
    · exact fun hs => ⟨ho hs.reads, hs.writes, hs.controls⟩
    · simp only [weight, id]
      omega

theorem pollWrite_goes (buf : Bytes) : Goes (fun _ => r) id r w (fun w' => w'.done = w.done)
      (fun n w' => w'.done = w.done ++ [.wrote (buf.take n)] ∧ n ≤ buf.length ∧
        (Smooth r w → buf ≠ [] → n ≠ 0)) (w.pollWrite buf) := by
  have hstep := pollWrite_step buf ⟨w.writes, []⟩
  unfold Sink.pollWrite
  rcases hr : Lib.pollWrite buf ⟨w.writes, []⟩ with ⟨res, sock⟩
  rw [hr] at hstep
  cases hstep with
  | pending _ hw he hwill =>
    have he : sock.events.length < w.writes.length := he
    refine ⟨rfl, ⟨rfl, fun hs => ⟨hs.reads, ?_, hs.controls⟩, ?_⟩, ?_⟩
    · exact hwill hs.writes
    · simp only [weight, id]
      omega
    · simp only [weight, id]
      omega
  | error code _ hw hwill => exact ⟨rfl, fun hs => hwill hs.writes⟩
  | ready n _ hn hw he hwill =>
    have he : sock.events.length ≤ w.writes.length := he
    have hw : sock.wire = buf.take n := hw
    refine ⟨⟨by rw [hw], hn, fun hs hne => ?_⟩, rfl, fun hs => ?_, ?_⟩
    · have := (hwill hs.writes).2 hne
      omega
    · exact ⟨hs.reads, (hwill hs.writes).1, hs.controls⟩
    · simp only [weight, id]
      omega

theorem pollAnswer_cases (answers : List Answer) :
    (∃ rest, pollAnswer answers = (.pending, rest) ∧ answers = .pending :: rest) ∨
      (∃ code rest, pollAnswer answers = (.error (.os code), rest) ∧ answers = .error code :: rest) ∨
      (∃ rest, pollAnswer answers = (.ready (), rest) ∧ rest.length ≤ answers.length ∧ rest ⊆ answers) := by
  cases answers with
  | nil => exact .inr (.inr ⟨[], rfl, le_rfl, List.Subset.refl _⟩)
  | cons x rest =>
    cases x with
    | pending => exact .inl ⟨rest, rfl, rfl⟩
    | ok => exact .inr (.inr ⟨rest, rfl, Nat.le_succ _, subset_cons_self _ _⟩)
    | error code => exact .inr (.inl ⟨code, rest, rfl, rfl⟩)

theorem pollControl_goes (x : Done) :
    Goes (fun _ => r) id r w (fun w' => w'.done = w.done) (fun () w' => w'.done = w.done ++ [x])
      (w.pollControl x) := by
  unfold Sink.pollControl
  rcases pollAnswer_cases w.controls with ⟨rest, he, hw⟩ | ⟨code, rest, he, hw⟩ | ⟨rest, he, hle, hsub⟩
  · rw [he]
    have hlen := congrArg length hw
    rw [length_cons] at hlen
    refine ⟨rfl, ⟨rfl, fun hs => ⟨hs.reads, hs.writes, fun code hmem => ?_⟩, ?_⟩, ?_⟩
    · exact hs.controls code (hw ▸ mem_cons_of_mem _ hmem)
    · simp only [weight, id]
      omega
    · simp only [weight, id]
      omega
  · rw [he]
    exact ⟨rfl, fun hs => hs.controls code (hw ▸ mem_cons_self)⟩
  rw [he]
  refine ⟨rfl, rfl, fun hs => ⟨hs.reads, hs.writes, fun code hmem => ?_⟩, ?_⟩
  · exact hs.controls code (hsub hmem)
  · simp only [weight, id]
    omega

end

/-! ## 4. One direction -/

def Written (last : List Done) (w : Sink) : Prop := ∃ parts : List Bytes, w.done = parts.map .wrote ++ last

def Ended (r : Source) : Prop := ∃ body, r.delivered = body ++ [[]] ∧ [] ∉ body

/-- **A direction under way**: what was written and buffered is what was read. -/
structure Moving (calm : Prop) (c : CopyBuffer) (r : Source) (w : Sink) : Prop where
  inBuffer : c.pos ≤ c.cap ∧ c.cap ≤ c.buf.length
  room : 0 < c.buf.length
  moved : w.bytes ++ c.rest = r.bytes
  written : Written [] w
  amt : c.amt = UInt64.ofNat w.bytes.length
  begun : c.readDone = false → [] ∉ r.delivered
  ended : c.readDone = true → c.pos = c.cap ∧ Ended r ∧ (calm → r.answers = [])
  smooth : calm → Smooth r w

/-- **A direction at its end**: everything that was read was written, and then `last` was done. -/
structure Finished (calm : Prop) (last : List Done) (count : UInt64) (r : Source) (w : Sink) : Prop where
  ended : Ended r
  written : Written last w
  moved : w.bytes = r.bytes
  count : count = UInt64.ofNat w.bytes.length
  exhausted : calm → r.answers = []
  smooth : calm → Smooth r w

section

variable {calm : Prop} {c : CopyBuffer} {r : Source} {w : Sink}

theorem Sink.bytes_concat {x : Done} (h : w'.done = w.done ++ [x]) : w'.bytes = w.bytes ++ x.bytes := by
  rw [bytes, bytes, h, flatMap_append, flatMap_singleton]

theorem Sink.bytes_same (h : w'.done = w.done) : w'.bytes = w.bytes := by
  rw [bytes, bytes, h]

theorem CopyBuffer.rest_length (h : c.pos ≤ c.cap ∧ c.cap ≤ c.buf.length) : c.rest.length = c.cap - c.pos := by
  rw [rest, length_drop, length_take, min_eq_left h.2]

theorem Moving.sink (h : Moving calm c r w) (hdone : w'.done = w.done) (hsmooth : calm → Smooth r w') :
    Moving calm c r w' :=
  { h with
    moved := by rw [Sink.bytes_same hdone, h.moved]
    written := by rw [Written, hdone]; exact h.written
    amt := by rw [Sink.bytes_same hdone, h.amt]
    smooth := hsmooth }

theorem Moving.rest_nil (h : Moving calm c r w) (hempty : c.pos = c.cap) : c.rest = [] := by
  apply eq_nil_of_length_eq_zero
  rw [c.rest_length h.inBuffer, hempty, Nat.sub_self]

theorem Moving.wrote (h : Moving calm c r w) (hlt : c.pos < c.cap) {n : Nat}
    (hdone : w'.done = w.done ++ [.wrote (c.rest.take n)]) (hn : n ≤ c.rest.length) (hsmooth : calm → Smooth r w') :
    Moving calm { c with pos := c.pos + n, amt := c.amt + UInt64.ofNat n } r w' := by
  have hbytes : w'.bytes = w.bytes ++ c.rest.take n := Sink.bytes_concat hdone
  rw [c.rest_length h.inBuffer] at hn
  have hopen : c.readDone = false := by
    by_contra hdone
    have := (h.ended (by simpa using hdone)).1
    omega
  refine ⟨⟨?_, h.inBuffer.2⟩, h.room, ?_, ?_, ?_, h.begun, fun hdone => ?_, hsmooth⟩
  · show c.pos + n ≤ c.cap
    omega
  · show w'.bytes ++ (c.buf.take c.cap).drop (c.pos + n) = r.bytes
    rw [hbytes, ← drop_drop, append_assoc, ← CopyBuffer.rest, take_append_drop, h.moved]
  · obtain ⟨parts, hparts⟩ := h.written
    refine ⟨parts ++ [c.rest.take n], ?_⟩
    rw [hdone, hparts, append_nil, append_nil, map_append]
    rfl
  · rw [hbytes, length_append, length_take, c.rest_length h.inBuffer, min_eq_left hn, h.amt, UInt64.ofNat_add]
  · rw [hopen] at hdone
    cases hdone

abbrev WriteGoes (calm : Prop) (readDone : Bool) (r : Source) (w : Sink) :
    Poll IoError Unit × CopyBuffer × Sink → Prop :=
  Goes (fun _ => r) Prod.snd r w (fun s => Moving calm s.1 r s.2)
    (fun () s => Moving calm s.1 r s.2 ∧ s.1.pos = s.1.cap ∧ s.1.readDone = readDone)

theorem writeRound_goes (h : Moving calm c r w) : match writeRound (c, w) with
    | .next s => (Moving calm s.1 r s.2 ∧ s.1.readDone = c.readDone) ∧ Onward r w r s.2 ∧ writePot s < writePot (c, w)
    | .ret res s => WriteGoes calm c.readDone r w (res, s) := by
  have hwrite := pollWrite_goes (r := r) (w := w) c.rest
  unfold writeRound
  dsimp only
  by_cases hlt : c.pos < c.cap
  · rw [if_pos hlt]
    rcases hr : w.pollWrite c.rest with ⟨res, w'⟩
    rw [hr] at hwrite
    cases res with
    | pending => exact ⟨h.sink hwrite.1 (hwrite.2.1.smooth ∘ h.smooth), hwrite.2⟩
    | error e => exact ⟨h.sink hwrite.1 fun hcalm => absurd (h.smooth hcalm) hwrite.2, hwrite.2⟩
    | ready n =>
      obtain ⟨⟨hlog, hn, hsome⟩, honward⟩ := hwrite
      have hmove := h.wrote hlt hlog hn (honward.smooth ∘ h.smooth)
      dsimp only
      by_cases hzero : n = 0
      · rw [if_pos hzero]
        have hne : c.rest ≠ [] := ne_nil_of_length_pos (by
          rw [c.rest_length h.inBuffer]
          omega)
        refine ⟨?_, fun hs => hsome hs hne hzero⟩
        subst hzero
        rwa [add_zero, show c.amt + UInt64.ofNat 0 = c.amt from UInt64.add_zero _] at hmove
      · rw [if_neg hzero]
        refine ⟨⟨hmove, rfl⟩, honward, ?_⟩
        show c.cap - (c.pos + n) < c.cap - c.pos
        omega
  · rw [if_neg hlt]
    have hempty : c.pos = c.cap := le_antisymm h.inBuffer.1 (not_lt.mp hlt)
    exact ⟨⟨h, hempty, rfl⟩, onward_refl r w⟩

theorem writeOut_goes (h : Moving calm c r w) : WriteGoes calm c.readDone r w (writeOut c w) := by
  have hstart : (Moving calm c r w ∧ c.readDone = c.readDone) ∧ Onward r w r w := ⟨⟨h, rfl⟩, onward_refl r w⟩
  refine loopUntil_inv (s := (c, w))
    (P := fun s => (Moving calm s.1 r s.2 ∧ s.1.readDone = c.readDone) ∧ Onward r w r s.2)
    (Q := fun res s => WriteGoes calm c.readDone r w (res, s)) ?_ ?_ hstart
  · rintro s s' ⟨⟨hmove, hread⟩, honward⟩ hround
    have hgoes := writeRound_goes hmove
    rw [hround] at hgoes
    obtain ⟨⟨hmove', hread'⟩, honward', hpot⟩ := hgoes
    exact ⟨⟨⟨hmove', hread'.trans hread⟩, honward.trans honward'⟩, hpot⟩
  · rintro s res s' ⟨⟨hmove, hread⟩, honward⟩ hround
    have hgoes := writeRound_goes hmove
    rw [hround, hread] at hgoes
    exact Goes.later honward hgoes

theorem Moving.source (h : Moving calm c r w) (hopen : c.readDone = false) (hdone : r'.delivered = r.delivered)
    (hsmooth : calm → Smooth r' w) : Moving calm c r' w :=
  { h with
    moved := by rw [Source.bytes, hdone]; exact h.moved
    begun := by rw [hdone]; exact h.begun
    ended hread := by rw [hopen] at hread; cases hread
    smooth := hsmooth }

theorem Moving.filled (h : Moving calm c r w) (hempty : c.pos = c.cap) (hopen : c.readDone = false) {bs : Bytes}
    (hne : bs ≠ []) (hlen : bs.length ≤ c.buf.length) (hdone : r'.delivered = r.delivered ++ [bs])
    (hsmooth : calm → Smooth r' w) :
    Moving calm { c with pos := 0, cap := bs.length, buf := bs ++ c.buf.drop bs.length } r' w := by
  have hbytes : r'.bytes = w.bytes ++ bs := by
    rw [Source.bytes, hdone, flatten_append, flatten_singleton, ← Source.bytes, ← h.moved, h.rest_nil hempty, append_nil]
  refine ⟨⟨zero_le, ?_⟩, ?_, ?_, h.written, h.amt, fun _ => ?_, fun hread => ?_, hsmooth⟩
  · rw [length_append]
    exact Nat.le_add_right _ _
  · rw [length_append, length_drop]
    have := h.room
    omega
  · show w.bytes ++ ((bs ++ c.buf.drop bs.length).take bs.length).drop 0 = r'.bytes
    rw [take_left, drop_zero, hbytes]
  · rw [hdone]
    intro hmem
    rcases mem_append.mp hmem with hmem | hmem
    · exact h.begun hopen hmem
    · exact hne (mem_singleton.mp hmem).symm
  · rw [hopen] at hread
    cases hread

theorem Moving.eof (h : Moving calm c r w) (hempty : c.pos = c.cap) (hopen : c.readDone = false)
    (hdone : r'.delivered = r.delivered ++ [[]]) (hlast : calm → r'.answers = []) (hsmooth : calm → Smooth r' w) :
    Moving calm { c with readDone := true } r' w := by
  refine ⟨h.inBuffer, h.room, ?_, h.written, h.amt, fun hread => ?_, fun _ => ?_, hsmooth⟩
  · show w.bytes ++ c.rest = r'.bytes
    rw [h.moved, Source.bytes, Source.bytes, hdone, flatten_append, flatten_singleton, append_nil]
  · cases hread
  · exact ⟨hempty, ⟨r.delivered, hdone, h.begun hopen⟩, hlast⟩

abbrev Copying.Ok (calm : Prop) (s : Copying) : Prop := Moving calm s.copy s.source s.sink

variable {s : Copying}

theorem readMore_goes (h : s.Ok calm) :
    Goes Copying.source Copying.sink s.source s.sink (Copying.Ok calm)
      (fun () s' => s'.Ok calm ∧ (s'.copy.readDone = false → 2 * sockWeight s'.source.answers < copyPot s)) (readMore s) := by
  have hread := pollRead_goes (r := s.source) (w := s.sink) h.room
  unfold readMore
  by_cases hcond : s.copy.pos = s.copy.cap ∧ s.copy.readDone = false
  · obtain ⟨hempty, hopen⟩ := hcond
    rw [if_pos ⟨hempty, hopen⟩]
    rcases hr : s.source.pollRead s.copy.buf.length with ⟨res, r⟩
    rw [hr] at hread
    cases res with
    | pending => exact ⟨h.source hopen hread.1 (hread.2.1.smooth ∘ h.smooth), hread.2⟩
    | error e => exact ⟨h.source hopen hread.1 fun hcalm => absurd (h.smooth hcalm) hread.2, hread.2⟩
    | ready bs =>
      obtain ⟨⟨hdone, hlen, hlast, hlt⟩, honward⟩ := hread
      have hsmooth : calm → Smooth r s.sink := honward.smooth ∘ h.smooth
      dsimp only
      by_cases hzero : bs.length = 0
      · have hnil := eq_nil_of_length_eq_zero hzero
        subst hnil
        refine ⟨⟨h.eof hempty hopen hdone (fun hcalm => hlast rfl (h.smooth hcalm)) hsmooth, ?_⟩, honward⟩
        intro hread
        cases hread
      have hne : bs ≠ [] := ne_nil_of_length_pos (pos_of_ne_zero hzero)
      rw [if_neg hzero]
      refine ⟨⟨h.filled hempty hopen hne hlen hdone hsmooth, fun _ => ?_⟩, honward⟩
      have := hlt hne
      show 2 * sockWeight r.answers < copyPot s
      unfold copyPot
      omega
  rw [if_neg hcond]
  refine ⟨⟨h, fun hopen => ?_⟩, onward_refl _ _⟩
  have hlt : s.copy.pos < s.copy.cap :=
    Nat.lt_of_le_of_ne h.inBuffer.1 fun hempty => hcond ⟨hempty, hopen⟩
  rw [copyPot, if_pos hlt]
  omega

theorem Moving.flushed (h : Moving calm c r w) (hread : c.readDone = true) (hdone : w'.done = w.done ++ [.flushed])
    (hsmooth : calm → Smooth r w') : Finished calm [.flushed] c.amt r w' := by
  obtain ⟨hempty, hended, hlast⟩ := h.ended hread
  have hbytes : w'.bytes = w.bytes := (Sink.bytes_concat hdone).trans (append_nil _)
  have hmoved := h.moved
  rw [h.rest_nil hempty, append_nil] at hmoved
  refine ⟨hended, ?_, hbytes.trans hmoved, ?_, hlast, hsmooth⟩
  · obtain ⟨parts, hparts⟩ := h.written
    exact ⟨parts, by rw [hdone, hparts, append_nil]⟩
  · rw [hbytes]
    exact h.amt

abbrev CopyGoes (calm : Prop) (s : Copying) : Poll IoError UInt64 × Copying → Prop :=
  Goes Copying.source Copying.sink s.source s.sink (Copying.Ok calm)
    (fun count s' => Finished calm [.flushed] count s'.source s'.sink)

theorem copyRound_goes (h : s.Ok calm) : match copyRound s with
    | .next s' => s'.Ok calm ∧ Onward s.source s.sink s'.source s'.sink ∧ copyPot s' < copyPot s
    | .ret res s' => CopyGoes calm s (res, s') := by
  have hread := readMore_goes h
  unfold copyRound
  rcases hr : readMore s with ⟨res, s₁⟩
  rw [hr] at hread
  cases res with
  | pending | error e => exact hread
  | ready u =>
    obtain ⟨⟨hmove, hpot⟩, honward⟩ := hread
    have hwrite := writeOut_goes hmove
    dsimp only
    rcases hw : writeOut s₁.copy s₁.sink with ⟨res, c, w⟩
    rw [hw] at hwrite
    cases res with
    | pending =>
      have hwaits : CopyGoes calm s₁ (.pending, { s₁ with copy := c, sink := w }) := hwrite
      exact Goes.later honward hwaits
    | error e => exact ⟨hwrite.1, fun hs => hwrite.2 (honward.smooth hs)⟩
    | ready u =>
      obtain ⟨⟨hmove', hempty, hdone⟩, honward'⟩ := hwrite
      dsimp only at hmove' hempty hdone honward' ⊢
      by_cases hlast : c.pos = c.cap ∧ c.readDone = true
      · rw [if_pos hlast]
        have hflush := pollControl_goes (r := s₁.source) (w := w) .flushed
        rw [← Sink.pollFlush] at hflush
        rcases hf : w.pollFlush with ⟨res, w'⟩
        rw [hf] at hflush
        cases res with
        | pending =>
          have hmove'' := hmove'.sink hflush.1 (hflush.2.1.smooth ∘ hmove'.smooth)
          refine ⟨hmove'', (honward.trans honward').trans hflush.2.1, ?_⟩
          exact lt_of_lt_of_le hflush.2.2 (honward.trans honward').weight
        | error e =>
          have hnot : ¬ Smooth s.source s.sink := fun hs =>
            hflush.2 ((honward.trans honward').smooth hs)
          exact ⟨hmove'.sink hflush.1 fun hcalm => absurd (h.smooth hcalm) hnot, hnot⟩
        | ready u =>
          refine ⟨?_, (honward.trans honward').trans hflush.2⟩
          exact hmove'.flushed hlast.2 hflush.1 (hflush.2.smooth ∘ hmove'.smooth)
      rw [if_neg hlast]
      have hopen : c.readDone = false := by
        simpa using fun hread => hlast ⟨hempty, hread⟩
      refine ⟨hmove', honward.trans honward', ?_⟩
      show 2 * sockWeight s₁.source.answers + (if c.pos < c.cap then 1 else 0) < copyPot s
      rw [if_neg (by omega), add_zero]
      exact hpot (hdone ▸ hopen)

theorem pollCopy_goes (h : s.Ok calm) : CopyGoes calm s (pollCopy s) := by
  have hstart : s.Ok calm ∧ Onward s.source s.sink s.source s.sink := ⟨h, onward_refl _ _⟩
  refine loopUntil_inv (s := s) (P := fun t => t.Ok calm ∧ Onward s.source s.sink t.source t.sink)
    (Q := fun res t => CopyGoes calm s (res, t)) ?_ ?_ hstart
  · rintro t t' ⟨hmove, honward⟩ hround
    have hgoes := copyRound_goes hmove
    rw [hround] at hgoes
    exact ⟨⟨hgoes.1, honward.trans hgoes.2.1⟩, hgoes.2.2⟩
  · rintro t res t' ⟨hmove, honward⟩ hround
    have hgoes := copyRound_goes hmove
    rw [hround] at hgoes
    exact Goes.later honward hgoes

def TransferOk (calm : Prop) (d : Direction) : Prop :=
  match d.state with
  | .running c => Moving calm c d.source d.sink
  | .shuttingDown count => Finished calm [.flushed] count d.source d.sink
  | .done count => Finished calm [.flushed, .shutDown] count d.source d.sink

theorem Finished.sink {last : List Done} {count : UInt64} (h : Finished calm last count r w)
    (hdone : w'.done = w.done) (hsmooth : calm → Smooth r w') : Finished calm last count r w' :=
  { h with
    written := by rw [Written, hdone]; exact h.written
    moved := by rw [Sink.bytes_same hdone, h.moved]
    count := by rw [Sink.bytes_same hdone, h.count]
    smooth := hsmooth }

theorem shutDown_goes {count : UInt64} (h : Finished calm [.flushed] count r w) :
    Goes Direction.source Direction.sink r w (TransferOk calm)
      (fun n d => d.state = .done n ∧ Finished calm [.flushed, .shutDown] n d.source d.sink)
      (shutDown count r w) := by
  have hshut := pollControl_goes (r := r) (w := w) .shutDown
  rw [← Sink.pollShutdown] at hshut
  unfold shutDown
  rcases hr : w.pollShutdown with ⟨res, w'⟩
  rw [hr] at hshut
  cases res with
  | pending => exact ⟨h.sink hshut.1 (hshut.2.1.smooth ∘ h.smooth), hshut.2⟩
  | error e => exact ⟨h.sink hshut.1 fun hcalm => absurd (h.smooth hcalm) hshut.2, hshut.2⟩
  | ready u =>
    have hbytes : w'.bytes = w.bytes := (Sink.bytes_concat hshut.1).trans (append_nil _)
    refine ⟨⟨rfl, h.ended, ?_, hbytes.trans h.moved, ?_, h.exhausted, hshut.2.smooth ∘ h.smooth⟩, hshut.2⟩
    · obtain ⟨parts, hparts⟩ := h.written
      exact ⟨parts, by rw [hshut.1, hparts, append_assoc]; rfl⟩
    · rw [hbytes]
      exact h.count

variable {d : Direction}

theorem transfer_goes (h : TransferOk calm d) : Goes Direction.source Direction.sink d.source d.sink (TransferOk calm)
      (fun n d' => d'.state = .done n ∧ Finished calm [.flushed, .shutDown] n d'.source d'.sink)
      (transferOneDirection d) := by
  obtain ⟨state, r, w⟩ := d
  unfold transferOneDirection
  cases state with
  | running c =>
    have hcopy := pollCopy_goes (s := ⟨c, r, w⟩) h
    dsimp only
    rcases hr : pollCopy ⟨c, r, w⟩ with ⟨res, s⟩
    rw [hr] at hcopy
    cases res with
    | pending | error e => exact hcopy
    | ready count => exact Goes.later hcopy.2 (shutDown_goes hcopy.1)
  | shuttingDown count => exact shutDown_goes h
  | done count => exact ⟨⟨rfl, h⟩, onward_refl _ _⟩

theorem TransferOk.smooth (h : TransferOk calm d) : calm → Smooth d.source d.sink := by
  obtain ⟨state, r, w⟩ := d
  cases state with
  | running c => exact Moving.smooth h
  | shuttingDown count | done count => exact Finished.smooth h

theorem TransferOk.within (h : TransferOk calm d) : d.sink.bytes <+: d.source.bytes := by
  obtain ⟨state, r, w⟩ := d
  cases state with
  | running c => exact ⟨c.rest, Moving.moved h⟩
  | shuttingDown count | done count => exact ⟨[], (append_nil _).trans (Finished.moved h)⟩

end

/-! ## 5. Both directions -/

structure CopyOk (calm : Prop) (s : CopyBidirectional) : Prop where
  forth : TransferOk calm s.forth
  back : TransferOk calm s.back

def CopyBidirectional.weight : Nat :=
  Copy.weight s.a.source s.b.sink + Copy.weight s.b.source s.a.sink

def CopyBidirectional.inputs : Bytes × Bytes :=
  (s.a.source.bytes ++ sockBytes s.a.source.answers, s.b.source.bytes ++ sockBytes s.b.source.answers)

variable {calm : Prop} {s : CopyBidirectional}

theorem pollImpl_goes (h : CopyOk calm s) : match pollImpl s with
    | (.pending, s') => CopyOk calm s' ∧ s'.inputs = s.inputs ∧ s'.weight < s.weight
    | (.error _, s') => CopyOk calm s' ∧ ¬ calm
    | (.ready (x, y), s') => Finished calm [.flushed, .shutDown] x s'.a.source s'.b.sink ∧
        Finished calm [.flushed, .shutDown] y s'.b.source s'.a.sink ∧ s'.inputs = s.inputs ∧
        s'.weight ≤ s.weight := by
  have hforth := transfer_goes h.forth
  have hdone : ∀ {n : UInt64} {d : Direction}, d.state = .done n ∧ Finished calm [.flushed, .shutDown] n d.source
      d.sink → TransferOk calm d := by
    rintro n ⟨state, r, w⟩ ⟨hstate, hfinished⟩
    subst hstate
    exact hfinished
  have hinputs : ∀ {d d' : Direction}, Onward s.forth.source s.forth.sink d.source d.sink →
      Onward s.back.source s.back.sink d'.source d'.sink → ((s.setForth d).setBack d').inputs = s.inputs :=
    fun hd hd' => Prod.ext hd.input hd'.input
  unfold pollImpl
  rcases hr : transferOneDirection s.forth with ⟨res, d⟩
  rw [hr] at hforth
  have hback : Goes _ _ _ _ _ _ (transferOneDirection (s.setForth d).back) := transfer_goes h.back
  rcases hr' : transferOneDirection (s.setForth d).back with ⟨res', d'⟩
  rw [hr'] at hback
  cases res with
  | error e => exact ⟨⟨hforth.1, h.back⟩, fun hcalm => hforth.2 (h.forth.smooth hcalm)⟩
  | pending =>
    obtain ⟨hd, honward, hlt⟩ := hforth
    dsimp only
    rw [hr']
    cases res' with
    | error e => exact ⟨⟨hd, hback.1⟩, fun hcalm => hback.2 (h.back.smooth hcalm)⟩
    | pending =>
      refine ⟨⟨hd, hback.1⟩, hinputs honward hback.2.1, ?_⟩
      exact Nat.add_lt_add_of_lt_of_le hlt hback.2.1.weight
    | ready y =>
      refine ⟨⟨hd, hdone hback.1⟩, hinputs honward hback.2, ?_⟩
      exact Nat.add_lt_add_of_lt_of_le hlt hback.2.weight
  | ready x =>
    obtain ⟨hd, honward⟩ := hforth
    dsimp only
    rw [hr']
    cases res' with
    | error e => exact ⟨⟨hdone hd, hback.1⟩, fun hcalm => hback.2 (h.back.smooth hcalm)⟩
    | pending =>
      refine ⟨⟨hdone hd, hback.1⟩, hinputs honward hback.2.1, ?_⟩
      exact Nat.add_lt_add_of_le_of_lt honward.weight hback.2.2
    | ready y =>
      refine ⟨hd.2, hback.1.2, hinputs honward hback.2, ?_⟩
      exact Nat.add_le_add honward.weight hback.2.weight

/-- **A complete direction**: read to its end, all written, flushed and shut down; `count` bytes. -/
structure Completed (count : UInt64) (r : Source) (w : Sink) : Prop where
  ended : Ended r
  moved : w.bytes = r.bytes
  written : Written [.flushed, .shutDown] w
  count : count = UInt64.ofNat w.bytes.length

theorem Finished.completed {count : UInt64} {r : Source}
    (h : Finished calm [.flushed, .shutDown] count r w) : Completed count r w :=
  ⟨h.ended, h.moved, h.written, h.count⟩

theorem plainReadBufferSize_pos (method : CipherKind) : 0 < plainReadBufferSize method := by
  cases method with
  | none | stream S => exact Nat.zero_lt_of_ne_zero (show 1 <<< 14 ≠ 0 by decide)
  | aead M => exact Nat.zero_lt_of_ne_zero (show V1.maxPacketSize ≠ 0 by decide)
  | aead2022 M => exact Nat.zero_lt_of_ne_zero (show V2.maxPacketSize ≠ 0 by decide)

theorem moving_new {n : Nat} (hn : 0 < n) (answers : ReadSock) (writes : List WriteEvent) (controls : List Answer)
    (hsmooth : calm → Smooth ⟨answers, []⟩ ⟨writes, controls, []⟩) :
    Moving calm (.new n) ⟨answers, []⟩ ⟨writes, controls, []⟩ where
  inBuffer := ⟨le_rfl, zero_le⟩
  room := by rwa [CopyBuffer.new, length_replicate]
  moved := rfl
  written := ⟨[], rfl⟩
  amt := rfl
  begun _ := not_mem_nil
  ended hread := by cases hread
  smooth := hsmooth

section

variable (method : CipherKind) (answers answers' : ReadSock) (writes writes' : List WriteEvent)
  (controls controls' : List Answer)

def fresh : CopyBidirectional :=
  copyEncryptedBidirectional method (.new answers writes controls) (.new answers' writes' controls')

theorem fresh_weight : (fresh method answers answers' writes writes' controls controls').weight =
    sockWeight answers + writes'.length + controls'.length + weight ⟨answers', []⟩ ⟨writes, controls, []⟩ := rfl

theorem copyOk_fresh (hforth : calm → Smooth ⟨answers, []⟩ ⟨writes', controls', []⟩)
    (hback : calm → Smooth ⟨answers', []⟩ ⟨writes, controls, []⟩) :
    CopyOk calm (fresh method answers answers' writes writes' controls controls') :=
  ⟨moving_new (plainReadBufferSize_pos method) _ _ _ hforth, moving_new (plainReadBufferSize_pos method) _ _ _ hback⟩

def BothCompleted (counts : UInt64 × UInt64) (s : CopyBidirectional) : Prop :=
  Completed counts.1 s.a.source s.b.sink ∧ Completed counts.2 s.b.source s.a.sink

theorem await_copy (n : Nat) : Ends (CopyOk False) BothCompleted (fun _ => CopyOk False)
      (await (fun () => pollImpl) (fresh method answers answers' writes writes' controls controls')
        (replicate n ())) := by
  refine await_inv (fun () => pollImpl) ?_ ?_ ?_ (replicate n ())
    (copyOk_fresh method answers answers' writes writes' controls controls' False.elim False.elim)
  · rintro ⟨⟩ s s' hs hr
    have hgoes := pollImpl_goes hs
    rw [hr] at hgoes
    exact hgoes.1
  · rintro ⟨⟩ s counts s' hs hr
    have hgoes := pollImpl_goes hs
    rw [hr] at hgoes
    exact ⟨hgoes.1.completed, hgoes.2.1.completed⟩
  · rintro ⟨⟩ s e s' hs hr
    have hgoes := pollImpl_goes hs
    rw [hr] at hgoes
    exact hgoes.1

/-- **`copy_encrypted_bidirectional`**: what was written is always a prefix of what was read; after `Ok` both
directions are complete. -/
theorem copy_sound (n : Nat) (result : Await IoError (UInt64 × UInt64)) (s : CopyBidirectional) (rest : List Unit)
    (h : await (fun () => pollImpl) (fresh method answers answers' writes writes' controls controls')
      (replicate n ()) = (result, s, rest)) :
    (s.b.sink.bytes <+: s.a.source.bytes ∧ s.a.sink.bytes <+: s.b.source.bytes) ∧
      ∀ counts, result = .done counts → BothCompleted counts s := by
  have hinv := await_copy method answers answers' writes writes' controls controls' n
  rw [h] at hinv
  cases result with
  | waiting | failed e => exact ⟨⟨hinv.forth.within, hinv.back.within⟩, fun counts hr => by cases hr⟩
  | done counts =>
    obtain ⟨hforth, hback⟩ := hinv
    refine ⟨⟨⟨[], ?_⟩, ⟨[], ?_⟩⟩, fun counts' hr => ?_⟩
    · rw [append_nil]
      exact hforth.moved
    · rw [append_nil]
      exact hback.moved
    · cases hr
      exact ⟨hforth, hback⟩

theorem pollImpl_smooth (h : CopyOk True s) (inputs : Bytes × Bytes) (hin : s.inputs = inputs) :
    AwaitStep (fun s => CopyOk True s ∧ s.inputs = inputs)
      (fun counts s => BothCompleted counts s ∧ s.inputs = inputs ∧ s.a.source.answers = [] ∧
        s.b.source.answers = []) CopyBidirectional.weight s (pollImpl s) := by
  have hgoes := pollImpl_goes h
  rcases hr : pollImpl s with ⟨res, s'⟩
  rw [hr] at hgoes
  cases res with
  | pending => exact .inl ⟨s', rfl, ⟨hgoes.1, hgoes.2.1.trans hin⟩, hgoes.2.2⟩
  | error e => exact absurd trivial hgoes.2
  | ready counts =>
    obtain ⟨hx, hy, hsame, hle⟩ := hgoes
    exact .inr ⟨_, s', rfl, ⟨⟨hx.completed, hy.completed⟩, hsame.trans hin, hx.exhausted trivial,
      hy.exhausted trivial⟩, hle⟩

theorem copy_within (hforth : Smooth ⟨answers, []⟩ ⟨writes', controls', []⟩)
    (hback : Smooth ⟨answers', []⟩ ⟨writes, controls, []⟩) (n : Nat) :
    (await (fun () => pollImpl) (fresh method answers answers' writes writes' controls controls')
      (replicate n ())).2.1.b.sink.bytes <+: sockBytes answers := by
  have hok : CopyOk True (fresh method answers answers' writes writes' controls controls') :=
    copyOk_fresh method answers answers' writes writes' controls controls' (fun _ => hforth) fun _ => hback
  generalize hs : fresh method answers answers' writes writes' controls controls' = s₀ at hok ⊢
  have hfirst : s₀.inputs.1 = sockBytes answers := by
    rw [← hs]
    rfl
  have hread : ∀ {s : CopyBidirectional}, s.inputs = s₀.inputs → s.a.source.bytes <+: sockBytes answers := by
    intro s hin
    rw [← hfirst, ← hin]
    exact prefix_append _ _
  have hends : Ends (fun s => CopyOk True s ∧ s.inputs = s₀.inputs)
      (fun _ s => s.b.sink.bytes = s.a.source.bytes ∧ s.inputs = s₀.inputs) (fun _ _ => False)
      (await (fun () => pollImpl) s₀ (replicate n ())) := by
    refine await_inv (P := fun s => CopyOk True s ∧ s.inputs = s₀.inputs) (fun () => pollImpl) ?_ ?_ ?_ _ ⟨hok, rfl⟩
    · intro () s s' hs hr
      rcases pollImpl_smooth hs.1 _ hs.2 with ⟨t, ht, hP, -⟩ | ⟨c, t, ht, -, -⟩
      · cases hr.symm.trans ht
        exact hP
      · cases hr.symm.trans ht
    · intro () s counts s' hs hr
      rcases pollImpl_smooth hs.1 _ hs.2 with ⟨t, ht, -, -⟩ | ⟨c, t, ht, ⟨hboth, hin, -⟩, -⟩
      · cases hr.symm.trans ht
      · cases hr.symm.trans ht
        exact ⟨hboth.1.moved, hin⟩
    · intro () s e s' hs hr
      rcases pollImpl_smooth hs.1 _ hs.2 with ⟨t, ht, -, -⟩ | ⟨c, t, ht, -, -⟩ <;> cases hr.symm.trans ht
  generalize await (fun () => pollImpl) s₀ (replicate n ()) = x at hends ⊢
  obtain ⟨counts | e | _, s, rest⟩ := x
  · rw [hends.1]
    exact hread hends.2
  · exact hends.elim
  · exact hends.1.forth.within.trans (hread hends.2)

theorem copy_completes (hforth : Smooth ⟨answers, []⟩ ⟨writes', controls', []⟩)
    (hback : Smooth ⟨answers', []⟩ ⟨writes, controls, []⟩) {n : Nat}
    (hn : (fresh method answers answers' writes writes' controls controls').weight < n) :
    ∃ counts s rest, await (fun () => pollImpl) (fresh method answers answers' writes writes' controls controls')
        (replicate n ()) = (.done counts, s, rest) ∧
      BothCompleted counts s ∧ s.a.source.bytes = sockBytes answers ∧ s.b.source.bytes = sockBytes answers' := by
  generalize hs : fresh method answers answers' writes writes' controls controls' = s₀ at hn ⊢
  have hok : CopyOk True s₀ := hs ▸ copyOk_fresh method answers answers' writes writes' controls controls'
    (fun _ => hforth) fun _ => hback
  have hinputs : s₀.inputs = (sockBytes answers, sockBytes answers') := by
    rw [← hs]
    rfl
  obtain ⟨m, rfl⟩ := Nat.exists_eq_succ_of_ne_zero (by omega : n ≠ 0)
  have hlen : s₀.weight + 0 < (() :: replicate m ()).length := by
    rw [length_cons, length_replicate]
    omega
  have hstep : ∀ (u : Unit) (s : CopyBidirectional), CopyOk True s ∧ s.inputs = s₀.inputs →
      AwaitStep _ _ _ s (pollImpl s) := fun _ s hs => pollImpl_smooth hs.1 s₀.inputs hs.2
  obtain ⟨counts, s, rest, he, ⟨hboth, hin, hlast, hlast'⟩, -⟩ := await_ok hstep (hstep () s₀ ⟨hok, rfl⟩) hlen
  refine ⟨counts, s, rest, he, hboth, ?_⟩
  rw [hinputs] at hin
  obtain ⟨ha, hb⟩ := Prod.mk.inj hin
  rw [hlast] at ha
  rw [hlast'] at hb
  exact ⟨(append_nil _).symm.trans ha, (append_nil _).symm.trans hb⟩

end

def slowCopy : Await IoError (UInt64 × UInt64) × CopyBidirectional × List Unit :=
  await (fun () => pollImpl) (fresh .none [.data [1, 2], .pending, .data [3]] [.data [9]] [] [.accept 1, .pending]
    [.pending] []) (replicate 4 ())

theorem copy_sound_slow : slowCopy.1 = .done (3, 1) ∧ BothCompleted (3, 1) slowCopy.2.1 := by
  have hdone : slowCopy.1 = .done (3, 1) := by decide +kernel
  refine ⟨hdone, ?_⟩
  rcases hs : slowCopy with ⟨result, s, rest⟩
  rw [hs] at hdone
  exact (copy_sound .none [.data [1, 2], .pending, .data [3]] [.data [9]] [] [.accept 1, .pending] [.pending] []
    4 result s rest hs).2 (3, 1) hdone

theorem copy_atOnce (method : CipherKind) {xs : Bytes} (hxs : xs ≠ []) :
    ∃ n s rest, await (fun () => pollImpl) (fresh method [.data xs] [] [] [] [] []) (replicate n ()) =
        (.done (UInt64.ofNat xs.length, 0), s, rest) ∧ s.b.sink.bytes = xs := by
  have hforth : Smooth ⟨[.data xs], []⟩ ⟨[], [], []⟩ :=
    ⟨orderly_single hxs, willing_nil [], fun _ => not_mem_nil⟩
  have hback : Smooth ⟨[], []⟩ ⟨[], [], []⟩ := ⟨orderly_nil, willing_nil [], fun _ => not_mem_nil⟩
  obtain ⟨⟨x, y⟩, s, rest, he, ⟨hx, hy⟩, ha, hb⟩ := copy_completes method [.data xs] [] [] [] [] [] hforth hback
    (Nat.lt_succ_self _)
  have hbytes : s.b.sink.bytes = xs := by
    rw [hx.moved, ha, sockBytes, flatMap_singleton, ReadEvent.bytes]
  have hnil : s.a.sink.bytes = [] := by
    rw [hy.moved, hb]
    rfl
  have hcounts : (x, y) = (UInt64.ofNat xs.length, 0) := by
    refine Prod.ext (hx.count.trans ?_) (hy.count.trans ?_)
    · rw [hbytes]
    · rw [hnil]
      rfl
  rw [hcounts] at he
  exact ⟨_, s, rest, he, hbytes⟩

/-- **A count that is off**: 2^64 bytes are copied, and the count is zero. -/
theorem copy_wraps : ∃ n s rest, await (fun () => pollImpl)
        (fresh .none [.data (replicate UInt64.size 7)] [] [] [] [] []) (replicate n ()) =
          (.done (0, 0), s, rest) ∧
      s.b.sink.bytes.length = UInt64.size := by
  have hlen : (replicate UInt64.size (7 : UInt8)).length = UInt64.size := length_replicate
  generalize replicate UInt64.size (7 : UInt8) = xs at hlen ⊢
  have hxs : xs ≠ [] := ne_nil_of_length_pos (by rw [hlen]; decide)
  obtain ⟨n, s, rest, he, hbytes⟩ := copy_atOnce .none hxs
  rw [hlen] at he
  exact ⟨n, s, rest, he, hbytes ▸ hlen⟩

end Shadowsocks.Tcp.Copy
