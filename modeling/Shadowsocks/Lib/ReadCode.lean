/-
  Subject:   READING CODE: what asynchronous code makes of a stream, whatever the pieces it comes in. `run` is the
  code over a polled reader, `parse` the code over the bytes that are there, and by `run_agrees` the two are the
  same.
-/
import Shadowsocks.Lib.Reader

namespace Lib

open List

/-! ## 1. Code -/

inductive ReadCode (β : Prop) (ε α : Type) where
  | ret (a : α)
  | fail (e : ε)
  /-- What is written goes out at once. -/
  | say (bs : Bytes) (next : ReadCode β ε α)
  /-- Read `n` bytes. -/
  | fill (n : Nat) (next : Bytes → ReadCode β ε α) (short : ε → Bytes → Except ε α)
  /-- Read and drop `limit` bytes through a buffer of `room` bytes. -/
  | drop (room limit : Nat) (hroom : 0 < room) (next : ReadCode β ε α) (short : ε → Except ε α)
  /-- Read to the first `b`. -/
  | upTo (hβ : β) (b : UInt8) (next : Bytes → ReadCode β ε α) (short : ε → Bytes → Except ε α)

namespace ReadCode

variable {β : Prop} {ε α γ : Type}

def final (eof : ε) : ReadCode β ε α → Except ε α
  | .ret a => .ok a
  | .fail e => .error e
  | .say _ next => next.final eof
  | .fill n next short => if n = 0 then (next []).final eof else short eof []
  | .drop _ limit _ next short => if limit = 0 then next.final eof else short eof
  | .upTo _ _ _ short => short eof []

def bind : ReadCode β ε α → (α → ReadCode β ε γ) → ReadCode β ε γ
  | .ret a, f => f a
  | .fail e, _ => .fail e
  | .say bs next, f => .say bs (next.bind f)
  | .fill n next short, f =>
    .fill n (fun bs => (next bs).bind f) fun e bs => (short e bs).bind fun a => (f a).final e
  | .drop room limit hroom next short, f =>
    .drop room limit hroom (next.bind f) fun e => (short e).bind fun a => (f a).final e
  | .upTo hβ b next short, f =>
    .upTo hβ b (fun bs => (next bs).bind f) fun e bs => (short e bs).bind fun a => (f a).final e

instance : Monad (ReadCode β ε) where
  pure := .ret
  bind := ReadCode.bind

variable (n : Nat)

def exactly : ReadCode β ε Bytes := .fill n .ret fun e _ => .error e

def attempt : ReadCode β ε Bytes :=
  .fill n .ret fun _ bs => .ok (bs ++ replicate (n - bs.length) 0)

def skipping (room limit : Nat) (hroom : 0 < room) : ReadCode β ε Unit :=
  .drop room limit hroom (.ret ()) fun _ => .ok ()

def through (hβ : β) (b : UInt8) : ReadCode β ε Bytes := .upTo hβ b .ret fun _ bs => .ok bs

variable (bs : Bytes)

def send : ReadCode β ε Unit := .say bs (.ret ())

def onError (f : ε → ε) : ReadCode β ε α → ReadCode β ε α
  | .ret a => .ret a
  | .fail e => .fail (f e)
  | .say bs next => .say bs (next.onError f)
  | .fill n next short => .fill n (fun bs => (next bs).onError f) fun e bs => (short e bs).mapError f
  | .drop room limit hroom next short => .drop room limit hroom (next.onError f) fun e => (short e).mapError f
  | .upTo hβ b next short => .upTo hβ b (fun bs => (next bs).onError f) fun e bs => (short e bs).mapError f

/-! ## 2. The code over the bytes that are there -/

inductive Parsed (ε α : Type) where
  | done (a : α) (rest : Bytes)
  | failed (e : ε)
  | ended (r : Except ε α)

def parse (eof : ε) : ReadCode β ε α → Bytes → Parsed ε α
  | .ret a, X => .done a X
  | .fail e, _ => .failed e
  | .say _ next, X => next.parse eof X
  | .fill n next short, X =>
    if n ≤ X.length then (next (X.take n)).parse eof (X.drop n) else .ended (short eof X)
  | .drop _ limit _ next short, X =>
    if limit ≤ X.length then next.parse eof (X.drop limit) else .ended (short eof)
  | .upTo _ b next short, X =>
    if b ∈ X then (next (X.take (X.idxOf b + 1))).parse eof (X.drop (X.idxOf b + 1)) else .ended (short eof X)

def Parsed.andThen (eof : ε) (f : α → ReadCode β ε γ) : Parsed ε α → Parsed ε γ
  | .done a rest => (f a).parse eof rest
  | .failed e => .failed e
  | .ended r => .ended (r.bind fun a => (f a).final eof)

section

variable {eof : ε} {X : Bytes}

@[simp] theorem parse_pure (a : α) : (pure a : ReadCode β ε α).parse eof X = .done a X := rfl

@[simp] theorem parse_fail (e : ε) : (fail e : ReadCode β ε α).parse eof X = .failed e := rfl

@[simp] theorem parse_send : (send bs : ReadCode β ε Unit).parse eof X = .done () X := rfl

theorem parse_exactly : (exactly n : ReadCode β ε Bytes).parse eof X =
    if n ≤ X.length then .done (X.take n) (X.drop n) else .ended (.error eof) := rfl

theorem parse_skipping (room limit : Nat) (hroom : 0 < room) :
    (skipping room limit hroom : ReadCode β ε Unit).parse eof X =
    if limit ≤ X.length then .done () (X.drop limit) else .ended (.ok ()) := rfl

theorem parse_through (hβ : β) (b : UInt8) : (through hβ b : ReadCode β ε Bytes).parse eof X =
    if b ∈ X then .done (X.take (X.idxOf b + 1)) (X.drop (X.idxOf b + 1)) else .ended (.ok X) := rfl

theorem parse_bind (c : ReadCode β ε α) (f : α → ReadCode β ε γ) :
    (c >>= f).parse eof X = (c.parse eof X).andThen eof f := by
  show (c.bind f).parse eof X = _
  induction c generalizing X with
  | ret a | fail e => rfl
  | say bs next ih => exact ih
  | fill n next short ih | upTo hβ b next short ih =>
    rw [ReadCode.bind, parse, parse]
    split
    · exact ih _
    · rfl
  | drop room limit hroom next short ih =>
    rw [ReadCode.bind, parse, parse]
    split
    · exact ih
    · rfl

variable {c : ReadCode β ε α}

theorem parse_bind_done {f : α → ReadCode β ε γ} {b : γ} {Z : Bytes} :
    (c >>= f).parse eof X = .done b Z ↔ ∃ a Y, c.parse eof X = .done a Y ∧ (f a).parse eof Y = .done b Z := by
  rw [parse_bind]
  cases c.parse eof X with
  | done a Y => exact ⟨fun h => ⟨a, Y, rfl, h⟩, fun ⟨_, _, h, hf⟩ => by cases h; exact hf⟩
  | failed e | ended r => exact ⟨fun h => (by cases h), fun ⟨_, _, h, _⟩ => (by cases h)⟩

theorem parse_exactly_done {n : Nat} {bs Y : Bytes} :
    (exactly n : ReadCode β ε Bytes).parse eof X = .done bs Y ↔ X = bs ++ Y ∧ bs.length = n := by
  rw [parse_exactly]
  constructor
  · intro h
    split at h
    · cases h
      exact ⟨(take_append_drop _ _).symm, length_take_of_le ‹_›⟩
    · cases h
  · intro ⟨hX, hn⟩
    rw [hX, if_pos (by rw [length_append]; omega), take_left' hn, drop_left' hn]

theorem parse_exactly_bind {n : Nat} {f : Bytes → ReadCode β ε γ} {b : γ} {Z : Bytes} :
    (exactly n >>= f).parse eof X = .done b Z ↔
      ∃ bs Y, X = bs ++ Y ∧ bs.length = n ∧ (f bs).parse eof Y = .done b Z := by
  simp only [parse_bind_done, parse_exactly_done, and_assoc]

def Parsed.onError (f : ε → ε) : Parsed ε α → Parsed ε α
  | .done a rest => .done a rest
  | .failed e => .failed (f e)
  | .ended r => .ended (r.mapError f)

theorem parse_onError (c : ReadCode β ε α) (f : ε → ε) : (c.onError f).parse eof X = (c.parse eof X).onError f := by
  induction c generalizing X with
  | ret a | fail e => rfl
  | say bs next ih => exact ih
  | fill n next short ih | upTo hβ b next short ih =>
    rw [onError, parse, parse]
    split
    · exact ih _
    · rfl
  | drop room limit hroom next short ih =>
    rw [onError, parse, parse]
    split
    · exact ih
    · rfl

theorem parse_onError_done {f : ε → ε} {a : α} {Y : Bytes} :
    (c.onError f).parse eof X = .done a Y ↔ c.parse eof X = .done a Y := by
  rw [parse_onError]
  cases c.parse eof X with
  | done a Y => exact Iff.rfl
  | failed e | ended r => exact ⟨fun h => (by cases h), fun h => (by cases h)⟩

def Parsed.before (Y : Bytes) : Parsed ε α → Parsed ε α
  | .done a rest => .done a (rest ++ Y)
  | .failed e => .failed e
  | .ended r => .ended r

theorem parse_append (h : ∀ r, c.parse eof X ≠ .ended r) (Y : Bytes) :
    c.parse eof (X ++ Y) = (c.parse eof X).before Y := by
  induction c generalizing X with
  | ret b | fail e => rfl
  | say bs next ih => exact ih h
  | fill n next short ih =>
    rw [parse] at h ⊢
    rw [parse]
    split at h
    · rename_i hn
      rw [if_pos (by rw [length_append]; omega), if_pos hn, take_append_of_le_length hn, drop_append_of_le_length hn]
      exact ih _ h
    · exact absurd rfl (h _)
  | drop room limit hroom next short ih =>
    rw [parse] at h ⊢
    rw [parse]
    split at h
    · rename_i hn
      rw [if_pos (by rw [length_append]; omega), if_pos hn, drop_append_of_le_length hn]
      exact ih h
    · exact absurd rfl (h _)
  | upTo hβ b next short ih =>
    rw [parse] at h ⊢
    rw [parse]
    split at h
    · rename_i hb
      have hn : X.idxOf b + 1 ≤ X.length := idxOf_lt_length_of_mem hb
      rw [if_pos (mem_append_left Y hb), if_pos hb, idxOf_append_of_mem hb,
        take_append_of_le_length hn, drop_append_of_le_length hn]
      exact ih _ h
    · exact absurd rfl (h _)

theorem parse_done_append {a : α} {rest : Bytes} (h : c.parse eof X = .done a rest) (Y : Bytes) :
    c.parse eof (X ++ Y) = .done a (rest ++ Y) := by
  rw [parse_append (fun r he => (by cases h.symm.trans he)) Y, h]
  rfl

theorem parse_failed_append {e : ε} (h : c.parse eof X = .failed e) (Y : Bytes) :
    c.parse eof (X ++ Y) = .failed e := by
  rw [parse_append (fun r he => (by cases h.symm.trans he)) Y, h]
  rfl

def Parsed.soFar (closed : Bool) : Parsed ε α → Option (Except ε α)
  | .done a _ => some (.ok a)
  | .failed e => some (.error e)
  | .ended r => if closed then some r else none

theorem soFar_append {r : Except ε α} (h : (c.parse eof X).soFar false = some r) (closed : Bool) (Y : Bytes) :
    (c.parse eof (X ++ Y)).soFar closed = some r := by
  have hended : ∀ r, c.parse eof X ≠ .ended r := by
    intro r he
    rw [he] at h
    cases h
  rw [parse_append hended]
  cases hp : c.parse eof X with
  | done a rest | failed e => rwa [hp] at h
  | ended r' => exact absurd hp (hended r')

end

/-! ## 3. The code over a polled reader -/

structure Source (E σ ε : Type) where
  read : E → Nat → σ → Poll ε Bytes × σ
  fill : E → σ → Poll ε Bytes × σ
  consume : Nat → σ → σ
  write : Bytes → σ → σ

section

variable {E σ : Type}

def fillFrom (poll : PollRead E σ ε) (eof : ε) (n : Nat) :
    Bytes → σ → List E → Await (ε × Bytes) Bytes × σ × List E
  | acc, s, [] => if n ≤ acc.length then (.done acc, s, []) else (.waiting, s, [])
  | acc, s, env :: envs =>
    if n ≤ acc.length then (.done acc, s, env :: envs)
    else
      match poll env (n - acc.length) s with
      | (.pending, s') => fillFrom poll eof n acc s' envs
      | (.ready [], s') => (.failed (eof, acc), s', envs)
      | (.ready (b :: bs), s') => fillFrom poll eof n (acc ++ b :: bs) s' envs
      | (.error e, s') => (.failed (e, acc), s', envs)

theorem readExactFrom_eq (poll : PollRead E σ ε) (eof : ε) (n : Nat) (acc : Bytes) (s : σ)
    (envs : List E) : readExactFrom poll eof n acc s envs =
      ((fillFrom poll eof n acc s envs).1.mapError Prod.fst, (fillFrom poll eof n acc s envs).2) := by
  induction envs generalizing acc s with
  | nil =>
    rw [readExactFrom, fillFrom]
    split <;> rfl
  | cons env envs ih =>
    rw [readExactFrom, fillFrom]
    split
    · rfl
    rcases poll env (n - acc.length) s with ⟨_ | (_ | ⟨b, bs⟩) | e, s'⟩
    · exact ih acc s'
    · rfl
    · exact ih (acc ++ b :: bs) s'
    · rfl

def dropFrom (poll : PollRead E σ ε) (room : Nat) :
    Nat → σ → List E → Await ε Bool × σ × List E
  | limit, s, [] => if limit = 0 then (.done true, s, []) else (.waiting, s, [])
  | limit, s, env :: envs =>
    if limit = 0 then (.done true, s, env :: envs)
    else
      match poll env (min room limit) s with
      | (.pending, s') => dropFrom poll room limit s' envs
      | (.ready [], s') => (.done false, s', envs)
      | (.ready (b :: bs), s') => dropFrom poll room (limit - (b :: bs).length) s' envs
      | (.error e, s') => (.failed e, s', envs)

def untilFrom (R : Source E σ ε) (b : UInt8) : Bytes → σ → List E → Await ε (Bytes × Bool) × σ × List E
  | _, s, [] => (.waiting, s, [])
  | acc, s, env :: envs =>
    match R.fill env s with
    | (.pending, s') => untilFrom R b acc s' envs
    | (.error e, s') => (.failed e, s', envs)
    | (.ready [], s') => (.done (acc, false), s', envs)
    | (.ready bs, s') =>
      if b ∈ bs then (.done (acc ++ bs.take (bs.idxOf b + 1), true), R.consume (bs.idxOf b + 1) s', envs)
      else untilFrom R b (acc ++ bs) (R.consume bs.length s') envs

def ofExcept : Except ε α → Await ε α
  | .ok a => .done a
  | .error e => .failed e

def run (R : Source E σ ε) (eof : ε) : ReadCode β ε α → Async σ E ε α
  | .ret a => pure a
  | .fail e => Async.fail e
  | .say bs next => fun s envs => next.run R eof (R.write bs s) envs
  | .fill n next short => fun s envs =>
    match fillFrom R.read eof n [] s envs with
    | (.done bs, s', envs') => (next bs).run R eof s' envs'
    | (.failed (e, bs), s', envs') => (ofExcept (short e bs), s', envs')
    | (.waiting, s', envs') => (.waiting, s', envs')
  | .drop room limit _ next short => fun s envs =>
    match dropFrom R.read room limit s envs with
    | (.done true, s', envs') => next.run R eof s' envs'
    | (.done false, s', envs') => (ofExcept (short eof), s', envs')
    | (.failed e, s', envs') => (.failed e, s', envs')
    | (.waiting, s', envs') => (.waiting, s', envs')
  | .upTo _ b next short => fun s envs =>
    match untilFrom R b [] s envs with
    | (.done (bs, true), s', envs') => (next bs).run R eof s' envs'
    | (.done (bs, false), s', envs') => (ofExcept (short eof bs), s', envs')
    | (.failed e, s', envs') => (.failed e, s', envs')
    | (.waiting, s', envs') => (.waiting, s', envs')

end

/-! ## 4. Readers that deliver a byte string -/

inductive FillStep {σ : Type} (consume : Nat → σ → σ) (I : σ → Bytes → Prop) (μ : σ → Nat) (s : σ) (X : Bytes) :
    Poll ε Bytes × σ → Prop where
  | pending (s' : σ) (h : I s' X) (hμ : μ s' < μ s) : FillStep consume I μ s X (.pending, s')
  | data (bs Y : Bytes) (s' : σ) (hne : bs ≠ []) (hX : X = bs ++ Y)
      (h : ∀ n, 0 < n → n ≤ bs.length → I (consume n s') (X.drop n) ∧ μ (consume n s') < μ s) :
      FillStep consume I μ s X (.ready bs, s')
  | eof (s' : σ) (hX : X = []) (h : I s' []) : FillStep consume I μ s X (.ready [], s')

/-- **The stream delivers** the bytes `I` says are to come, then the end of the file, in finitely
many polls. -/
structure Delivers {E σ : Type} (β : Prop) (R : Source E σ ε) (I : σ → Bytes → Prop) (μ : σ → Nat) : Prop where
  serves : Serves R.read (fun _ _ => True) I μ
  bounded : Bounded R.read
  fills : β → ∀ s X env, I s X → FillStep R.consume I μ s X (R.fill env s)
  writes : ∀ bs s X, I s X → I (R.write bs s) X ∧ μ (R.write bs s) = μ s

section

variable {E σ : Type} {R : Source E σ ε} {I : σ → Bytes → Prop} {μ : σ → Nat} (eof : ε) {envs : List E}

theorem fillFrom_short (hS : Serves R.read (fun _ _ => True) I μ) (n : Nat) :
    ∀ (acc : Bytes) {X : Bytes} {s : σ}, I s X → acc.length + X.length < n → μ s < envs.length →
      ∃ s' envs', fillFrom R.read eof n acc s envs = (.failed (eof, acc ++ X), s', envs') ∧ I s' [] := by
  induction envs with
  | nil => exact fun _ _ _ _ _ hμ => absurd hμ (Nat.not_lt_zero _)
  | cons env envs ih =>
    intro acc X s hI hn hμ
    rw [fillFrom, if_neg (by omega)]
    have hstep := hS s X env (n - acc.length) hI trivial (by omega)
    rw [length_cons] at hμ
    rcases hr : R.read env (n - acc.length) s with ⟨r, s'⟩
    rw [hr] at hstep
    cases hstep with
    | pending _ h hlt => exact ih acc h hn (by omega)
    | data bs Y _ hne hX h hlt =>
      obtain ⟨b, bs, rfl⟩ := exists_cons_of_ne_nil hne
      subst hX
      rw [length_append] at hn
      rw [← append_assoc]
      exact ih _ h (by rw [length_append]; omega) (by omega)
    | eof _ hX h =>
      subst hX
      rw [append_nil]
      exact ⟨s', envs, rfl, h⟩

theorem fillFrom_done (hR : Delivers β R I μ) {xs Y : Bytes} {s : σ} (hI : I s (xs ++ Y)) (hμ : μ s < envs.length) :
    ∃ s' envs', fillFrom R.read eof xs.length [] s envs = (.done xs, s', envs') ∧ I s' Y ∧ μ s' < envs'.length := by
  have hfine : Fine R.read (fun _ _ => True) s envs := fine_of_forall (fun _ _ _ => trivial) s
  obtain ⟨s', envs', he, hI', hμ', -⟩ : ∃ s' envs', readExactFrom R.read eof xs.length [] s envs =
      (.done ([] ++ xs), s', envs') ∧ I s' Y ∧ μ s' < envs'.length ∧ Fine R.read (fun _ _ => True) s' envs' :=
    readExactFrom_spec hR.serves hR.bounded eof hfine hI (zero_add _) hμ
  rw [readExactFrom_eq] at he
  refine ⟨s', envs', ?_, hI', hμ'⟩
  rcases hr : fillFrom R.read eof xs.length [] s envs with ⟨r, x⟩
  rw [hr] at he
  cases r with
  | done bs =>
    cases he
    rfl
  | failed e | waiting => cases he

theorem dropFrom_spec (hR : Delivers β R I μ) {room : Nat} (hroom : 0 < room) :
    ∀ (limit : Nat) {X : Bytes} {s : σ}, I s X → μ s < envs.length →
      ∃ s' envs', dropFrom R.read room limit s envs = (.done (decide (limit ≤ X.length)), s', envs') ∧
        I s' (X.drop limit) ∧ (limit ≤ X.length → μ s' < envs'.length) := by
  induction envs with
  | nil => exact fun _ _ _ _ hμ => absurd hμ (Nat.not_lt_zero _)
  | cons env envs ih =>
    intro limit X s hI hμ
    rw [dropFrom]
    by_cases hzero : limit = 0
    · subst hzero
      exact ⟨s, env :: envs, by simp, hI, fun _ => hμ⟩
    rw [if_neg hzero]
    have hstep := hR.serves s X env (min room limit) hI trivial (by omega)
    rw [length_cons] at hμ
    rcases hr : R.read env (min room limit) s with ⟨r, s'⟩
    rw [hr] at hstep
    cases hstep with
    | pending _ h hlt => exact ih limit h (by omega)
    | data bs Y _ hne hX h hlt =>
      have hle := hR.bounded env (min room limit) s bs s' hr
      obtain ⟨b, bs, rfl⟩ := exists_cons_of_ne_nil hne
      obtain ⟨s'', envs'', he, hI', hμ'⟩ := ih (limit - (b :: bs).length) h (by omega)
      have hsub : limit - (b :: bs).length ≤ Y.length ↔ limit ≤ X.length := by
        rw [hX, length_append]
        omega
      rw [decide_eq_decide.mpr hsub] at he
      refine ⟨s'', envs'', he, ?_, fun h => hμ' (hsub.mpr h)⟩
      rw [hX, drop_append, drop_eq_nil_of_le (by omega), nil_append]
      exact hI'
    | eof _ hX h =>
      subst hX
      refine ⟨s', envs, by simp [hzero], by simpa using h, fun hle => ?_⟩
      rw [length_nil] at hle
      omega

theorem untilFrom_spec (hR : Delivers β R I μ) (hβ : β) {b : UInt8} :
    ∀ (acc : Bytes) {X : Bytes} {s : σ}, I s X → μ s < envs.length →
      ∃ s' envs', untilFrom R b acc s envs = (.done (acc ++ X.take (X.idxOf b + 1), decide (b ∈ X)), s', envs') ∧
        I s' (X.drop (X.idxOf b + 1)) ∧ (b ∈ X → μ s' < envs'.length) := by
  induction envs with
  | nil => exact fun _ _ _ _ hμ => absurd hμ (Nat.not_lt_zero _)
  | cons env envs ih =>
    intro acc X s hI hμ
    rw [untilFrom]
    have hstep := hR.fills hβ s X env hI
    rw [length_cons] at hμ
    rcases hr : R.fill env s with ⟨r, s'⟩
    rw [hr] at hstep
    cases hstep with
    | pending _ h hlt => exact ih acc h (by omega)
    | eof _ hX h =>
      subst hX
      exact ⟨s', envs, by simp, h, nofun⟩
    | data bs Y _ hne hX h =>
      obtain ⟨c, cs, rfl⟩ := exists_cons_of_ne_nil hne
      dsimp only
      subst hX
      by_cases hin : b ∈ c :: cs
      · have hle : (c :: cs).idxOf b + 1 ≤ (c :: cs).length := idxOf_lt_length_of_mem hin
        obtain ⟨hI', hlt⟩ := h ((c :: cs).idxOf b + 1) (Nat.succ_pos _) hle
        rw [if_pos hin, idxOf_append_of_mem hin, take_append_of_le_length hle,
          decide_eq_true (mem_append_left Y hin)]
        exact ⟨_, envs, rfl, hI', fun _ => by omega⟩
      obtain ⟨hI', hlt⟩ := h _ (length_pos_iff.mpr hne) le_rfl
      rw [drop_left] at hI'
      obtain ⟨s'', envs'', he, hI'', hμ''⟩ := ih (acc ++ c :: cs) hI' (by omega)
      have hidx : (c :: cs ++ Y).idxOf b = (c :: cs).length + Y.idxOf b := by
        rw [idxOf_append_of_notMem hin, add_comm]
      have hmem : b ∈ c :: cs ++ Y ↔ b ∈ Y := mem_append.trans (or_iff_right hin)
      rw [if_neg hin, hidx, add_assoc, take_length_add_append, drop_length_add_append,
        ← append_assoc, decide_eq_decide.mpr hmem]
      exact ⟨s'', envs'', he, hI'', fun hb => hμ'' (hmem.mp hb)⟩

def Agrees (I : σ → Bytes → Prop) (μ : σ → Nat) : Parsed ε α → Await ε α × σ × List E → Prop
  | .done a rest, (r, s, envs) => r = .done a ∧ I s rest ∧ μ s < envs.length
  | .failed e, (r, _, _) => r = .failed e
  | .ended (.ok a), (r, s, _) => r = .done a ∧ I s []
  | .ended (.error e), (r, _, _) => r = .failed e

theorem agrees_ended (r : Except ε α) {s : σ} (envs : List E) (h : I s []) :
    Agrees I μ (.ended r) (ofExcept r, s, envs) := by
  cases r with
  | ok a => exact ⟨rfl, h⟩
  | error e => rfl

theorem run_agrees (hR : Delivers β R I μ) (c : ReadCode β ε α) {s : σ} {X : Bytes} (hI : I s X)
    (hμ : μ s < envs.length) : Agrees I μ (c.parse eof X) (c.run R eof s envs) := by
  induction c generalizing s X envs with
  | ret a => exact ⟨rfl, hI, hμ⟩
  | fail e => rfl
  | say bs next ih =>
    obtain ⟨hI', hμ'⟩ := hR.writes bs s X hI
    exact ih hI' (hμ' ▸ hμ)
  | fill n next short ih =>
    rw [parse, run]
    dsimp only
    split
    · rename_i hn
      have hlen : (X.take n).length = n := length_take_of_le hn
      rw [← take_append_drop n X] at hI
      obtain ⟨s', envs', he, hI', hμ'⟩ := fillFrom_done eof hR hI hμ
      rw [hlen] at he
      rw [he]
      exact ih _ hI' hμ'
    · obtain ⟨s', envs', he, hI'⟩ := fillFrom_short eof hR.serves n [] hI
        (by rw [length_nil]; omega) hμ
      rw [he]
      exact agrees_ended _ envs' hI'
  | drop room limit hroom next short ih =>
    obtain ⟨s', envs', he, hI', hμ'⟩ := dropFrom_spec hR hroom limit hI hμ
    rw [parse, run]
    dsimp only
    rw [he]
    split <;> rename_i hn
    · rw [decide_eq_true hn]
      exact ih hI' (hμ' hn)
    · rw [decide_eq_false hn]
      rw [drop_eq_nil_of_le (by omega)] at hI'
      exact agrees_ended _ envs' hI'
  | upTo hβ b next short ih =>
    obtain ⟨s', envs', he, hI', hμ'⟩ := untilFrom_spec hR hβ [] hI hμ
    rw [parse, run]
    dsimp only
    rw [he]
    split
    · rename_i hb
      rw [decide_eq_true hb]
      exact ih _ hI' (hμ' hb)
    rename_i hb
    have hlen : X.length ≤ X.idxOf b + 1 := by
      rw [idxOf_of_notMem hb]
      exact Nat.le_succ _
    rw [drop_eq_nil_of_le hlen] at hI'
    rw [decide_eq_false hb, take_of_length_le hlen]
    exact agrees_ended _ envs' hI'

end

/-! ## 5. What the code does over every reader -/

def Parsed.outcome : Parsed ε α → Except ε (α × Bytes)
  | .done a rest => .ok (a, rest)
  | .failed e => .error e
  | .ended r => r.map fun a => (a, [])

def Returns (eof : ε) (c : ReadCode β ε α) (X : Bytes) (a : α) (rest : Bytes) : Prop :=
  ∀ (E σ : Type) (R : Source E σ ε) (I : σ → Bytes → Prop) (μ : σ → Nat), Delivers β R I μ →
    ∀ s envs, I s X → μ s < envs.length → ∃ s' envs', c.run R eof s envs = (.done a, s', envs') ∧ I s' rest

def Fails (eof : ε) (c : ReadCode β ε α) (X : Bytes) (e : ε) : Prop :=
  ∀ (E σ : Type) (R : Source E σ ε) (I : σ → Bytes → Prop) (μ : σ → Nat), Delivers β R I μ →
    ∀ s envs, I s X → μ s < envs.length → ∃ s' envs', c.run R eof s envs = (.failed e, s', envs')

def Source.bytes : Source Unit Bytes ε where
  read _ cap s := (.ready (s.take cap), s.drop cap)
  fill _ s := (.ready s, s)
  consume n s := s.drop n
  write _ s := s

theorem delivers_bytes : Delivers β (Source.bytes : Source Unit Bytes ε) (fun s X => s = X) List.length where
  serves s X env cap hI _ hcap := by
    subst hI
    cases s with
    | nil =>
      show PollStep _ _ _ _ (.ready (List.take cap []), List.drop cap [])
      rw [take_nil, drop_nil]
      exact .eof _ rfl rfl
    | cons b s =>
      refine .data ((b :: s).take cap) ((b :: s).drop cap) _ ?_ (take_append_drop _ _).symm rfl ?_
      · obtain ⟨n, rfl⟩ := Nat.exists_eq_succ_of_ne_zero (pos_iff_ne_zero.mp hcap)
        simp
      · rw [length_drop, length_cons]
        omega
  bounded env cap s bs s' h := by
    cases h
    exact length_take_le _ _
  fills _ s X env hI := by
    subst hI
    cases s with
    | nil => exact .eof _ rfl rfl
    | cons b s =>
      refine .data (b :: s) [] _ (cons_ne_nil _ _) (append_nil _).symm fun n hn hle => ⟨rfl, ?_⟩
      show (List.drop n (b :: s)).length < _
      rw [length_drop, length_cons] at *
      omega
  writes _ _ _ h := ⟨h, rfl⟩

section

variable {eof : ε} {c : ReadCode β ε α} {X : Bytes}

theorem returns_of_outcome {a : α} {rest : Bytes} (h : (c.parse eof X).outcome = .ok (a, rest)) :
    Returns eof c X a rest := by
  intro E σ R I μ hR s envs hI hμ
  have hrun := run_agrees eof hR c hI hμ
  generalize c.parse eof X = p at h hrun
  cases p with
  | done a' rest' =>
    cases h
    exact ⟨_, _, Prod.ext hrun.1 rfl, hrun.2.1⟩
  | failed e => cases h
  | ended r =>
    cases r with
    | error e => cases h
    | ok a' =>
      cases h
      exact ⟨_, _, Prod.ext hrun.1 rfl, hrun.2⟩

theorem fails_of_outcome {e : ε} (h : (c.parse eof X).outcome = .error e) : Fails eof c X e := by
  intro E σ R I μ hR s envs hI hμ
  have hrun := run_agrees eof hR c hI hμ
  generalize c.parse eof X = p at h hrun
  cases p with
  | done a' rest' => cases h
  | failed e' =>
    cases h
    exact ⟨_, _, Prod.ext hrun rfl⟩
  | ended r =>
    cases r with
    | ok a => cases h
    | error e' =>
      cases h
      exact ⟨_, _, Prod.ext hrun rfl⟩

theorem returns_iff {a : α} {rest : Bytes} : Returns eof c X a rest ↔ (c.parse eof X).outcome = .ok (a, rest) := by
  refine ⟨fun h => ?_, returns_of_outcome⟩
  have hlen : X.length < (replicate (X.length + 1) ()).length := by
    rw [length_replicate]
    exact Nat.lt_succ_self _
  obtain ⟨s', envs', he, rfl⟩ := h _ _ _ _ _ delivers_bytes X _ rfl hlen
  cases ho : (c.parse eof X).outcome with
  | error e =>
    obtain ⟨s'', envs'', he'⟩ := fails_of_outcome ho _ _ _ _ _ delivers_bytes X _ rfl hlen
    cases he.symm.trans he'
  | ok x =>
    obtain ⟨s'', envs'', he', rfl⟩ := returns_of_outcome ho _ _ _ _ _ delivers_bytes X _ rfl hlen
    cases he.symm.trans he'
    rfl

theorem fails_iff {e : ε} : Fails eof c X e ↔ (c.parse eof X).outcome = .error e := by
  refine ⟨fun h => ?_, fails_of_outcome⟩
  have hlen : X.length < (replicate (X.length + 1) ()).length := by
    rw [length_replicate]
    exact Nat.lt_succ_self _
  obtain ⟨s', envs', he⟩ := h _ _ _ _ _ delivers_bytes X _ rfl hlen
  cases ho : (c.parse eof X).outcome with
  | error e' =>
    obtain ⟨s'', envs'', he'⟩ := fails_of_outcome ho _ _ _ _ _ delivers_bytes X _ rfl hlen
    cases he.symm.trans he'
    rfl
  | ok x =>
    obtain ⟨s'', envs'', he', -⟩ := returns_of_outcome ho _ _ _ _ _ delivers_bytes X _ rfl hlen
    cases he.symm.trans he'

end

/-! ## 6. Reading back, and early ends -/

section

variable {eof : ε} {c : ReadCode β ε α} {f : α → ReadCode β ε γ} {xs ys : Bytes} {a : α} {b : γ}

def Reads (eof : ε) (c : ReadCode β ε α) (xs : Bytes) (a : α) : Prop := ∀ Y, c.parse eof (xs ++ Y) = .done a Y

theorem reads_pure (a : α) : Reads eof (pure a : ReadCode β ε α) [] a := fun _ => rfl

theorem reads_send : Reads eof (send bs : ReadCode β ε Unit) [] () := fun _ => rfl

theorem Reads.bind (hc : Reads eof c xs a) (hf : Reads eof (f a) ys b) : Reads eof (c >>= f) (xs ++ ys) b := by
  intro Y
  rw [parse_bind, append_assoc, hc]
  exact hf Y

theorem Reads.last (hc : Reads eof c xs a) (hf : f a = pure b) : Reads eof (c >>= f) xs b := by
  have h := hc.bind (f := f) (hf ▸ reads_pure b)
  rwa [append_nil] at h

theorem reads_exactly (xs : Bytes) {n : Nat} (h : xs.length = n) : Reads eof (exactly n : ReadCode β ε Bytes) xs xs := by
  intro Y
  rw [parse_exactly, if_pos (by rw [length_append]; omega), take_left' h, drop_left' h]

theorem reads_skipping (xs : Bytes) {room limit : Nat} (hroom : 0 < room) (h : xs.length = limit) :
    Reads eof (skipping room limit hroom : ReadCode β ε Unit) xs () := by
  intro Y
  rw [parse_skipping, if_pos (by rw [length_append]; omega), drop_left' h]

theorem reads_through {hβ : β} {b : UInt8} (h : b ∉ xs) :
    Reads eof (through hβ b : ReadCode β ε Bytes) (xs ++ [b]) (xs ++ [b]) := by
  intro Y
  have hidx : (xs ++ [b] ++ Y).idxOf b + 1 = (xs ++ [b]).length := by
    rw [append_assoc, idxOf_append_of_notMem h, singleton_append, idxOf_cons_self, length_append, length_singleton]
  rw [parse_through, if_pos (by simp), hidx, take_left, drop_left]

theorem Reads.onError (h : Reads eof c xs a) (g : ε → ε) : Reads eof (c.onError g) xs a :=
  fun Y => parse_onError_done.mpr (h Y)

theorem Reads.returns (h : Reads eof c xs a) (Y : Bytes) : Returns eof c (xs ++ Y) a Y :=
  returns_of_outcome (by rw [h Y]; rfl)

theorem Reads.ended (h : Reads eof c xs a) (hys : ys <+: xs) (hne : ys ≠ xs) : ∃ r, c.parse eof ys = .ended r := by
  obtain ⟨zs, rfl⟩ := hys
  have hwhole := h []
  rw [append_nil] at hwhole
  cases hp : c.parse eof ys with
  | ended r => exact ⟨r, rfl⟩
  | failed e => cases hwhole.symm.trans (parse_failed_append hp zs)
  | done a' rest =>
    cases hrest : rest ++ zs with
    | nil =>
      rw [(append_eq_nil_iff.mp hrest).2, append_nil] at hne
      exact absurd rfl hne
    | cons z rest' =>
      have hmore := parse_done_append hp zs
      rw [hrest] at hmore
      cases hwhole.symm.trans hmore

def Strict : ReadCode β ε α → Prop
  | .ret _ => True
  | .fail _ => True
  | .say _ next => next.Strict
  | .fill n next short => (∀ e bs, bs.length < n → ∃ e', short e bs = .error e') ∧ ∀ bs, (next bs).Strict
  | .drop _ limit _ next short => (0 < limit → ∀ e, ∃ e', short e = .error e') ∧ next.Strict
  | .upTo _ b next short => (∀ e bs, b ∉ bs → ∃ e', short e bs = .error e') ∧ ∀ bs, (next bs).Strict

theorem Strict.error (hc : c.Strict) {X : Bytes} {r : Except ε α} (h : c.parse eof X = .ended r) :
    ∃ e, r = .error e := by
  induction c generalizing X with
  | ret a | fail e => cases h
  | say bs next ih => exact ih hc h
  | fill n next short ih =>
    rw [parse] at h
    split at h
    · exact ih _ (hc.2 _) h
    · cases h
      exact hc.1 _ _ (by omega)
  | drop room limit hroom next short ih =>
    rw [parse] at h
    split at h
    · exact ih hc.2 h
    · cases h
      exact hc.1 (by omega) _
  | upTo hβ b next short ih =>
    rw [parse] at h
    split at h
    · exact ih _ (hc.2 _) h
    · rename_i hb
      cases h
      exact hc.1 _ _ hb

theorem Strict.done (hc : c.Strict) {X rest : Bytes} (h : (c.parse eof X).outcome = .ok (a, rest)) :
    c.parse eof X = .done a rest := by
  generalize hp : c.parse eof X = p at h
  cases p with
  | done a' rest' =>
    cases h
    rfl
  | failed e => cases h
  | ended r =>
    obtain ⟨e, rfl⟩ := hc.error hp
    cases h

theorem Strict.fails_iff (hc : c.Strict) {X : Bytes} :
    (∃ e, Fails eof c X e) ↔ ∀ a rest, c.parse eof X ≠ .done a rest := by
  simp only [ReadCode.fails_iff]
  cases hp : c.parse eof X with
  | done a rest | failed e => simp [Parsed.outcome]
  | ended r =>
    obtain ⟨e, rfl⟩ := hc.error hp
    simp [Parsed.outcome, Except.map]

theorem Strict.soFar (hc : c.Strict) {X : Bytes} {closed : Bool} (h : (c.parse eof X).soFar closed = some (.ok a)) :
    ∃ rest, c.parse eof X = .done a rest := by
  generalize hp : c.parse eof X = p at h
  cases p with
  | done a' rest =>
    cases h
    exact ⟨rest, rfl⟩
  | failed e => cases h
  | ended r =>
    obtain ⟨e, rfl⟩ := hc.error hp
    cases closed <;> cases h

theorem strict_pure (a : α) : (pure a : ReadCode β ε α).Strict := trivial

theorem strict_fail (e : ε) : (fail e : ReadCode β ε α).Strict := trivial

theorem strict_send : (send bs : ReadCode β ε Unit).Strict := trivial

theorem strict_exactly : (exactly n : ReadCode β ε Bytes).Strict :=
  ⟨fun e _ _ => ⟨e, rfl⟩, fun _ => trivial⟩

theorem Strict.bind (hc : c.Strict) (hf : ∀ a, (f a).Strict) : (c >>= f).Strict := by
  have hshort : ∀ (r : Except ε α) (e : ε), (∃ e', r = .error e') →
      ∃ e', (r.bind fun a => (f a).final e) = .error e' := by
    intro r e ⟨e', he⟩
    exact ⟨e', by rw [he]; rfl⟩
  induction c with
  | ret a => exact hf a
  | fail e => trivial
  | say bs next ih => exact ih hc
  | fill n next short ih => exact ⟨fun e bs hn => hshort _ e (hc.1 e bs hn), fun bs => ih bs (hc.2 bs)⟩
  | drop room limit hroom next short ih => exact ⟨fun hl e => hshort _ e (hc.1 hl e), ih hc.2⟩
  | upTo hβ b next short ih => exact ⟨fun e bs hb => hshort _ e (hc.1 e bs hb), fun bs => ih bs (hc.2 bs)⟩

theorem Strict.onError (hc : c.Strict) (g : ε → ε) : (c.onError g).Strict := by
  have hshort : ∀ r : Except ε α, (∃ e', r = .error e') → ∃ e', r.mapError g = .error e' := by
    intro r ⟨e', he⟩
    exact ⟨g e', by rw [he]; rfl⟩
  induction c with
  | ret a | fail e => trivial
  | say bs next ih => exact ih hc
  | fill n next short ih => exact ⟨fun e bs hn => hshort _ (hc.1 e bs hn), fun bs => ih bs (hc.2 bs)⟩
  | drop room limit hroom next short ih => exact ⟨fun hl e => hshort _ (hc.1 hl e), ih hc.2⟩
  | upTo hβ b next short ih => exact ⟨fun e bs hb => hshort _ (hc.1 e bs hb), fun bs => ih bs (hc.2 bs)⟩

theorem strict_through {hβ : β} {b : UInt8} {g : Bytes → ReadCode β ε γ}
    (hshort : ∀ e bs, b ∉ bs → ∃ e', (g bs).final e = .error e') (hg : ∀ bs, (g bs).Strict) :
    (through hβ b >>= g).Strict :=
  ⟨hshort, hg⟩

theorem Reads.refuses (h : Reads eof c xs a) (hc : c.Strict) (hys : ys <+: xs) (hne : ys ≠ xs) :
    ∃ e, Fails eof c ys e := by
  obtain ⟨r, hr⟩ := h.ended hys hne
  obtain ⟨e, rfl⟩ := hc.error hr
  exact ⟨e, fails_of_outcome (by rw [hr]; rfl)⟩

end

section

variable {E σ : Type} {poll : PollRead E σ ε} {s : σ} {envs : List E} {eof : ε}

theorem readExact_takes (hcap : Bounded poll) {eofErr : ε} {n : Nat} :
    Takes poll (fun bs cs => Returns eof (exactly n : ReadCode β ε Bytes) cs bs []) s (readExact poll eofErr n s envs) := by
  refine (readExactFrom_takes hcap eofErr [] zero_le).imp ?_
  rintro _ cs ⟨rfl, hlen⟩
  simpa using (reads_exactly _ hlen).returns []

theorem takes_pure (a : α) :
    Takes poll (fun b bs => Returns eof (pure a : ReadCode β ε α) bs b []) s ((pure a : Async σ E ε α) s envs) := by
  refine takes_nothing fun b hb => ?_
  cases hb
  exact (reads_pure a).returns []

theorem Takes.code {δ : Type} {c : ReadCode β ε α} (hc : c.Strict) {g : α → ReadCode β ε γ} {m : Async σ E ε α}
    {f : α → Async σ E ε δ} {v : δ → γ} (hm : Takes poll (fun a bs => Returns eof c bs a []) s (m s envs))
    (hf : ∀ a t envs, Takes poll (fun b bs => Returns eof (g a) bs (v b) []) t (f a t envs)) :
    Takes poll (fun b bs => Returns eof (c >>= g) bs (v b) []) s ((m >>= f) s envs) := by
  refine hm.bind fun a bs t envs hP => ?_
  have hparse : ∀ cs, (c >>= g).parse eof (bs ++ cs) = (g a).parse eof cs := by
    intro cs
    rw [parse_bind, parse_done_append (hc.done (returns_iff.mp hP))]
    rfl
  simpa only [returns_iff, hparse] using hf a t envs

end

end ReadCode

end Lib
