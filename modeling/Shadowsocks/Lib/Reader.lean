/-
  Subject:   READERS: `Yields` is about a polled reader of honest input (`yields_of_inv`), `Sound` about one of
  untrusted input (`sound_of_inv`). `Async` is code that awaits a reader, and `Consumes` says what it reads.
-/
import Shadowsocks.Lib.Poll

namespace Lib

open List

/-! ## 1. What a reader yields -/

/-- A polled reader: with what comes in from outside and room for so many bytes. -/
abbrev PollRead (E σ ε : Type) : Type := E → Nat → σ → Poll ε Bytes × σ

section

variable {E σ ε : Type} {poll : PollRead E σ ε} {ok : E → σ → Prop}

def runPolls (poll : PollRead E σ ε) : σ → List (E × Nat) → List (Poll ε Bytes)
  | _, [] => []
  | s, (env, cap) :: rest => (poll env cap s).1 :: runPolls poll (poll env cap s).2 rest

def delivered : List (Poll ε Bytes) → Bytes
  | [] => []
  | .ready bs :: rest => bs ++ delivered rest
  | _ :: rest => delivered rest

theorem delivered_append (xs ys : List (Poll ε Bytes)) : delivered (xs ++ ys) = delivered xs ++ delivered ys := by
  induction xs with
  | nil => rfl
  | cons x xs ih => cases x <;> simp [delivered, ih]

def Admissible (poll : PollRead E σ ε) (ok : E → σ → Prop) :
    σ → List (E × Nat) → Prop
  | _, [] => True
  | s, (env, cap) :: rest => (ok env s ∧ 0 < cap) ∧ Admissible poll ok (poll env cap s).2 rest

variable {polls : List (E × Nat)} {ok' : E → σ → Prop}

theorem Admissible.weaken (hok : ∀ env s, ok env s → ok' env s) :
    ∀ {s : σ}, Admissible poll ok s polls → Admissible poll ok' s polls := by
  induction polls with
  | nil => exact fun _ => trivial
  | cons p polls ih => exact fun h => ⟨⟨hok _ _ h.1.1, h.1.2⟩, ih h.2⟩

/-- **The reader yields `X`, then the end**: it never fails, delivers a prefix of `X`, and ends when all was
delivered. -/
structure Yields (poll : PollRead E σ ε) (ok : E → σ → Prop) (s : σ) (X : Bytes) :
    Prop where
  noError : ∀ polls, Admissible poll ok s polls → ∀ e, Poll.error e ∉ runPolls poll s polls
  inOrder : ∀ polls, Admissible poll ok s polls → delivered (runPolls poll s polls) <+: X
  eofAtEnd : ∀ polls, Admissible poll ok s polls → ∀ pre post,
    runPolls poll s polls = pre ++ .ready [] :: post → delivered pre = X
  reachesEof : ∃ n, ∀ polls, Admissible poll ok s polls → n ≤ polls.length → Poll.ready [] ∈ runPolls poll s polls

variable {X : Bytes} {s : σ}

theorem Yields.weaken (h : Yields poll ok s X) (hok : ∀ env s, ok' env s → ok env s) : Yields poll ok' s X where
  noError polls hp := h.noError polls (hp.weaken hok)
  inOrder polls hp := h.inOrder polls (hp.weaken hok)
  eofAtEnd polls hp := h.eofAtEnd polls (hp.weaken hok)
  reachesEof := h.reachesEof.imp fun _ hn polls hp => hn polls (hp.weaken hok)

inductive PollStep (I : σ → Bytes → Prop) (μ : σ → Nat) (s : σ) (X : Bytes) :
    Poll ε Bytes × σ → Prop where
  | pending (s' : σ) (h : I s' X) (hμ : μ s' < μ s) : PollStep I μ s X (.pending, s')
  | data (bs Y : Bytes) (s' : σ) (hne : bs ≠ []) (hX : X = bs ++ Y) (h : I s' Y)
      (hμ : μ s' < μ s) : PollStep I μ s X (.ready bs, s')
  | eof (s' : σ) (hX : X = []) (h : I s' []) : PollStep I μ s X (.ready [], s')

inductive RoundStep (I : σ → Bytes → Prop) (μ : σ → Nat) (s : σ) (X : Bytes) :
    Ctl (Poll ε Bytes) σ → Prop where
  | next (s' : σ) (h : I s' X) (hμ : μ s' ≤ μ s) : RoundStep I μ s X (.next s')
  | ret (r : Poll ε Bytes) (s' : σ) (h : PollStep I μ s X (r, s')) : RoundStep I μ s X (.ret r s')

variable {I : σ → Bytes → Prop} {x : Poll ε Bytes × σ} {μ : σ → Nat}

theorem PollStep.of_le {t : σ} (hμ : μ t ≤ μ s) (h : PollStep I μ t X x) : PollStep I μ s X x := by
  cases h with
  | pending s' h hlt => exact .pending s' h (lt_of_lt_of_le hlt hμ)
  | data bs Y s' hne hX h hlt => exact .data bs Y s' hne hX h (lt_of_lt_of_le hlt hμ)
  | eof s' hX h => exact .eof s' hX h

variable {τ δ : Type} {J : τ → Bytes → Prop} {ν : τ → Nat} {y : Poll δ Bytes × τ} {t : τ}

theorem PollStep.transfer_cases (h : PollStep I μ s X x) (f : ε → δ) (hr : y.1 = x.1.mapError f)
    (hpend : x.1 = .pending → I x.2 X → J y.2 X)
    (hdata : ∀ bs Y, x.1 = .ready bs → bs ≠ [] → X = bs ++ Y → I x.2 Y → J y.2 Y)
    (heof : x.1 = .ready [] → X = [] → I x.2 [] → J y.2 []) (hμ : ν y.2 = μ x.2) (hν : ν t = μ s) :
    PollStep J ν t X y := by
  obtain ⟨r, t'⟩ := y
  subst hr
  cases h with
  | pending s' h hlt => exact .pending _ (hpend rfl h) (by rw [hμ, hν]; exact hlt)
  | data bs Y s' hne hX h hlt =>
    exact .data bs Y _ hne hX (hdata bs Y rfl hne hX h) (by rw [hμ, hν]; exact hlt)
  | eof s' hX h => exact .eof _ hX (heof rfl hX h)

theorem PollStep.transfer (h : PollStep I μ s X x) (f : ε → δ) (hr : y.1 = x.1.mapError f)
    (hJ : ∀ Y, I x.2 Y → J y.2 Y) (hμ : ν y.2 = μ x.2) (hν : ν t = μ s) : PollStep J ν t X y :=
  h.transfer_cases f hr (fun _ => hJ X) (fun _ Y _ _ _ => hJ Y) (fun _ _ => hJ []) hμ hν

theorem PollStep.map (f : σ → τ) (hI : ∀ s X, I s X → J (f s) X)
    (hμ : ∀ s, ν (f s) = μ s) (h : PollStep I μ s X x) : PollStep J ν (f s) X (x.1, f x.2) :=
  h.transfer id (by cases x.1 <;> rfl) (hI x.2) (hμ x.2) (hμ s)

theorem RoundStep.map (f : σ → τ) (hI : ∀ s X, I s X → J (f s) X)
    (hμ : ∀ s, ν (f s) = μ s) {x : Ctl (Poll ε Bytes) σ} (h : RoundStep I μ s X x) :
    RoundStep J ν (f s) X (x.map f) := by
  cases h with
  | next s' h hle => exact .next _ (hI _ _ h) (by rw [hμ, hμ]; exact hle)
  | ret r s' h => exact .ret _ _ (h.map f hI hμ)

variable {step : σ → Ctl (Poll ε Bytes) σ} {r₀ : Poll ε Bytes} {pot : σ → Nat}

theorem pollStep_of_rounds (hpot : ∀ s s', step s = .next s' → pot s' < pot s)
    (hround : ∀ s, I s X → RoundStep I μ s X (step s)) (h : I s X) :
    PollStep I μ s X (loopUntil step pot r₀ s) := by
  refine loopUntil_ind hpot (P := fun t => I t X ∧ μ t ≤ μ s)
    (Q := fun r t => PollStep I μ s X (r, t)) ?_ ?_ ⟨h, le_rfl⟩
  · intro t t' ht hs
    have hr := hround t ht.1
    rw [hs] at hr
    cases hr with
    | next _ h hμ => exact ⟨h, le_trans hμ ht.2⟩
  intro t r t' ht hs
  have hr := hround t ht.1
  rw [hs] at hr
  cases hr with
  | ret _ _ h => exact h.of_le ht.2

def Serves (poll : PollRead E σ ε) (ok : E → σ → Prop) (I : σ → Bytes → Prop)
    (μ : σ → Nat) : Prop :=
  ∀ s X env cap, I s X → ok env s → 0 < cap → PollStep I μ s X (poll env cap s)

variable {I : σ → Bytes → Prop} {μ : σ → Nat}

theorem Serves.mapError {E' δ : Type} (hS : Serves poll ok I μ) (g : E' → E) (f : ε → δ) :
    Serves (fun env cap s => ((poll (g env) cap s).1.mapError f, (poll (g env) cap s).2))
      (fun env s => ok (g env) s) I μ := by
  intro s X env cap hI henv hcap
  exact (hS s X (g env) cap hI henv hcap).transfer f rfl (fun _ h => h) rfl rfl

theorem serves_noError (hS : Serves poll ok I μ) (e : ε) : ∀ {s : σ} {X : Bytes}, I s X → Admissible poll ok s polls →
      Poll.error e ∉ runPolls poll s polls := by
  induction polls with
  | nil => exact fun _ _ => not_mem_nil
  | cons p polls ih =>
    intro s X hI hp hmem
    obtain ⟨⟨hok, hcap⟩, hp⟩ := hp
    have hstep := hS s X p.1 p.2 hI hok hcap
    rw [runPolls] at hmem
    rcases hr : poll p.1 p.2 s with ⟨r, s'⟩
    rw [hr] at hmem hstep hp
    cases hstep with
    | pending _ h _ | data _ Y _ _ _ h _ | eof _ _ h =>
      rcases mem_cons.mp hmem with he | hmem
      · cases he
      · exact ih h hp hmem

theorem serves_inOrder (hS : Serves poll ok I μ) : ∀ {s : σ} {X : Bytes}, I s X → Admissible poll ok s polls →
      delivered (runPolls poll s polls) <+: X ∧
      ∀ pre post, runPolls poll s polls = pre ++ .ready [] :: post → delivered pre = X := by
  induction polls with
  | nil =>
    intro s X _ _
    exact ⟨ nil_prefix, fun pre post h => absurd h.symm (append_ne_nil_of_right_ne_nil _ (by simp))⟩
  | cons p polls ih =>
    intro s X hI hp
    obtain ⟨⟨hok, hcap⟩, hp⟩ := hp
    have hstep := hS s X p.1 p.2 hI hok hcap
    rw [runPolls]
    rcases hr : poll p.1 p.2 s with ⟨r, s'⟩
    rw [hr] at hstep hp
    cases hstep with
    | pending _ h _ =>
      obtain ⟨h1, h2⟩ := ih h hp
      refine ⟨h1, fun pre post he => ?_⟩
      obtain ⟨rfl, hx⟩ | ⟨pre, rfl, hrest⟩ := cons_eq_append_iff.mp he
      · cases hx
      · exact h2 pre post hrest
    | data bs Y s' hne hX h _ =>
      obtain ⟨h1, h2⟩ := ih h hp
      subst hX
      refine ⟨(prefix_append_right_inj bs).mpr h1, fun pre post he => ?_⟩
      obtain ⟨rfl, hx⟩ | ⟨pre, rfl, hrest⟩ := cons_eq_append_iff.mp he
      · cases hx
        exact absurd rfl hne
      · exact congrArg (bs ++ ·) (h2 pre post hrest)
    | eof s' hX h =>
      obtain ⟨h1, h2⟩ := ih h hp
      subst hX
      refine ⟨h1, fun pre post he => ?_⟩
      obtain ⟨rfl, -⟩ | ⟨pre, rfl, hrest⟩ := cons_eq_append_iff.mp he
      · rfl
      · exact h2 pre post hrest

theorem serves_reachesEof (hS : Serves poll ok I μ) :
    ∀ {s : σ} {X : Bytes}, I s X → Admissible poll ok s polls → μ s < polls.length →
      Poll.ready [] ∈ runPolls poll s polls := by
  induction polls with
  | nil => exact fun _ _ hlen => absurd hlen (Nat.not_lt_zero _)
  | cons p polls ih =>
    intro s X hI hp hlen
    obtain ⟨⟨hok, hcap⟩, hp⟩ := hp
    have hstep := hS s X p.1 p.2 hI hok hcap
    rw [runPolls]
    rcases hr : poll p.1 p.2 s with ⟨r, s'⟩
    rw [hr] at hstep hp
    cases hstep with
    | pending _ h hμ | data _ _ _ _ _ h hμ =>
      exact mem_cons_of_mem _ (ih h hp (lt_of_lt_of_le hμ (Nat.le_of_lt_succ hlen)))
    | eof => exact mem_cons_self

theorem yields_of_inv (hS : Serves poll ok I μ) (h : I s X) : Yields poll ok s X where
  noError _ hp e := serves_noError hS e h hp
  inOrder _ hp := (serves_inOrder hS h hp).1
  eofAtEnd _ hp := (serves_inOrder hS h hp).2
  reachesEof := ⟨μ s + 1, fun _ hp hlen => serves_reachesEof hS h hp hlen⟩

/-! ## 2. Readers of untrusted input -/

def afterPolls (poll : PollRead E σ ε) : σ → List (E × Nat) → σ
  | s, [] => s
  | s, (env, cap) :: rest => afterPolls poll (poll env cap s).2 rest

/-- **Soundness of a reader** polled again only after errors that are `retry`: what it delivers and how it ends. -/
structure Sound (poll : PollRead E σ ε) (retry : ε → Prop) (s : σ)
    (Delivers : Bytes → Prop) (AtEof : Bytes → σ → Prop) : Prop where
  delivers : ∀ polls env cap, (∀ e, Poll.error e ∈ runPolls poll s polls → retry e) →
    Delivers (delivered (runPolls poll s (polls ++ [(env, cap)])))
  atEof : ∀ polls env cap, (∀ e, Poll.error e ∈ runPolls poll s polls → retry e) → 0 < cap →
    (poll env cap (afterPolls poll s polls)).1 = .ready [] →
    AtEof (delivered (runPolls poll s polls)) (poll env cap (afterPolls poll s polls)).2

inductive SoundStep (retry : ε → Prop) (I AtEof : Bytes → σ → Prop) (cap : Nat) (D : Bytes) :
    Poll ε Bytes × σ → Prop where
  | pending (s' : σ) (h : I D s') : SoundStep retry I AtEof cap D (.pending, s')
  | ready (bs : Bytes) (s' : σ) (h : I (D ++ bs) s') (heof : bs = [] → 0 < cap → AtEof D s') :
      SoundStep retry I AtEof cap D (.ready bs, s')
  | error (e : ε) (s' : σ) (h : retry e → I D s') : SoundStep retry I AtEof cap D (.error e, s')

inductive SoundRound (retry : ε → Prop) (I AtEof : Bytes → σ → Prop) (cap : Nat) (D : Bytes) :
    Ctl (Poll ε Bytes) σ → Prop where
  | next (s' : σ) (h : I D s') : SoundRound retry I AtEof cap D (.next s')
  | ret (r : Poll ε Bytes) (s' : σ) (h : SoundStep retry I AtEof cap D (r, s')) :
      SoundRound retry I AtEof cap D (.ret r s')

section

variable {retry : ε → Prop} {I AtEof : Bytes → σ → Prop} {cap : Nat} {D : Bytes}

variable {J AtEof' : Bytes → τ → Prop}

theorem SoundStep.map {retry' : δ → Prop}
    (h : SoundStep retry I AtEof cap D x) (f : ε → δ) (hr : y.1 = x.1.mapError f)
    (hretry : ∀ e, retry' (f e) → retry e) (hI : ∀ D, I D x.2 → J D y.2) (hE : AtEof D x.2 → AtEof' D y.2) :
    SoundStep retry' J AtEof' cap D y := by
  obtain ⟨r, t⟩ := y
  subst hr
  cases h with
  | pending s' h => exact .pending t (hI D h)
  | ready bs s' h heof => exact .ready bs t (hI _ h) fun hb hc => hE (heof hb hc)
  | error e s' h => exact .error (f e) t fun hr => hI D (h (hretry e hr))

theorem SoundRound.map (f : σ → τ) (hI : ∀ D s, I D s → J D (f s)) (hE : ∀ s, AtEof D s → AtEof' D (f s))
    {x : Ctl (Poll ε Bytes) σ} (h : SoundRound retry I AtEof cap D x) :
    SoundRound retry J AtEof' cap D (x.map f) := by
  cases h with
  | next s' h => exact .next _ (hI _ _ h)
  | ret r s' h =>
    refine .ret r (f s') (h.map id ?_ (fun _ => id) (fun D => hI D s') (hE s'))
    cases r <;> rfl

theorem soundStep_of_rounds (hpot : ∀ s s', step s = .next s' → pot s' < pot s)
    (hround : ∀ s, I D s → SoundRound retry I AtEof cap D (step s)) (h : I D s) :
    SoundStep retry I AtEof cap D (loopUntil step pot r₀ s) := by
  refine loopUntil_ind hpot (P := I D) (Q := fun r t => SoundStep retry I AtEof cap D (r, t)) ?_ ?_ h
  · intro t t' ht hs
    have hr := hround t ht
    rw [hs] at hr
    cases hr with
    | next _ h => exact h
  intro t r t' ht hs
  have hr := hround t ht
  rw [hs] at hr
  cases hr with
  | ret _ _ h => exact h

theorem runPolls_append (s : σ) (polls more : List (E × Nat)) :
    runPolls poll s (polls ++ more) = runPolls poll s polls ++ runPolls poll (afterPolls poll s polls) more := by
  induction polls generalizing s with
  | nil => rfl
  | cons p polls ih => exact congrArg _ (ih _)

theorem sound_after (hS : ∀ D s env cap, I D s → SoundStep retry I AtEof cap D (poll env cap s)) :
    ∀ {s : σ} {D : Bytes}, I D s → (∀ e, Poll.error e ∈ runPolls poll s polls → retry e) →
      I (D ++ delivered (runPolls poll s polls)) (afterPolls poll s polls) := by
  induction polls with
  | nil =>
    intro s D h _
    rwa [runPolls, delivered, append_nil]
  | cons p polls ih =>
    intro s D h he
    have hstep := hS D s p.1 p.2 h
    have htail := fun e hm => he e (mem_cons_of_mem _ hm)
    rw [runPolls, afterPolls]
    rw [runPolls] at he
    rcases hr : poll p.1 p.2 s with ⟨r, s'⟩
    rw [hr] at hstep htail he
    cases hstep with
    | pending _ h => exact ih h htail
    | ready bs _ h _ =>
      rw [delivered, ← append_assoc]
      exact ih h htail
    | error e _ h => exact ih (h (he e mem_cons_self)) htail

theorem sound_of_inv {Delivers : Bytes → Prop}
    (hS : ∀ D s env cap, I D s → SoundStep retry I AtEof cap D (poll env cap s)) (hD : ∀ D s, I D s → Delivers D)
    (h : I [] s) : Sound poll retry s Delivers AtEof where
  delivers polls env cap he := by
    have hI := sound_after hS h he
    have hstep := hS _ _ env cap hI
    rw [runPolls_append, delivered_append, runPolls, runPolls]
    rcases hr : poll env cap (afterPolls poll s polls) with ⟨r, s'⟩
    rw [hr] at hstep
    cases hstep with
    | pending _ h | ready bs _ h _ => exact hD _ _ (by simpa [delivered] using h)
    | error e _ _ => exact hD _ _ (by simpa [delivered] using hI)
  atEof polls env cap he hcap heof := by
    have hstep := hS _ _ env cap (sound_after hS h he)
    rcases hr : poll env cap (afterPolls poll s polls) with ⟨r, s'⟩
    rw [hr] at hstep heof
    subst heof
    cases hstep with
    | ready _ _ _ heof => exact heof rfl hcap

end

/-! ## 3. Asynchronous code -/

inductive Await (ε α : Type) where
  | done (a : α)
  | failed (e : ε)
  | waiting
  deriving DecidableEq

def Await.mapError {ε δ α : Type} (f : ε → δ) : Await ε α → Await δ α
  | .done a => .done a
  | .failed e => .failed (f e)
  | .waiting => .waiting

def Async (σ E ε α : Type) : Type := σ → List E → Await ε α × σ × List E

def Async.bind {α β : Type} (m : Async σ E ε α) (f : α → Async σ E ε β) : Async σ E ε β :=
  fun s envs =>
    match m s envs with
    | (.done a, s', envs') => f a s' envs'
    | (.failed e, s', envs') => (.failed e, s', envs')
    | (.waiting, s', envs') => (.waiting, s', envs')

instance : Monad (Async σ E ε) where
  pure a := fun s envs => (.done a, s, envs)
  bind := Async.bind

variable {s' : σ} {α β : Type} {m : Async σ E ε α} {f : α → Async σ E ε β} {envs envs' : List E} {a : α} {b : β}

theorem Async.bind_done (h : m s envs = (.done a, s', envs')) : (m >>= f) s envs = f a s' envs' := by
  show bind m f s envs = _
  rw [bind, h]

theorem Async.bind_failed {e : ε} (h : m s envs = (.failed e, s', envs')) :
    (m >>= f) s envs = (.failed e, s', envs') := by
  show bind m f s envs = _
  rw [bind, h]

theorem Async.bind_eq_done (h : (m >>= f) s envs = (.done b, s', envs')) :
    ∃ a s₁ envs₁, m s envs = (.done a, s₁, envs₁) ∧ f a s₁ envs₁ = (.done b, s', envs') := by
  have h : bind m f s envs = _ := h
  unfold bind at h
  rcases hr : m s envs with ⟨r, s₁, envs₁⟩
  rw [hr] at h
  cases r with
  | done a => exact ⟨a, s₁, envs₁, rfl, h⟩
  | failed e | waiting => cases h

def Async.fail (e : ε) : Async σ E ε α := fun s envs => (.failed e, s, envs)

def readExactFrom (poll : PollRead E σ ε) (eofErr : ε) (n : Nat) :
    Bytes → σ → List E → Await ε Bytes × σ × List E
  | acc, s, [] => if n ≤ acc.length then (.done acc, s, []) else (.waiting, s, [])
  | acc, s, env :: envs =>
    if n ≤ acc.length then (.done acc, s, env :: envs)
    else
      match poll env (n - acc.length) s with
      | (.pending, s') => readExactFrom poll eofErr n acc s' envs
      | (.ready [], s') => (.failed eofErr, s', envs)
      | (.ready (b :: bs), s') => readExactFrom poll eofErr n (acc ++ b :: bs) s' envs
      | (.error e, s') => (.failed e, s', envs)

def readExact (poll : PollRead E σ ε) (eofErr : ε) (n : Nat) : Async σ E ε Bytes :=
  readExactFrom poll eofErr n []

def skip (poll : PollRead E σ ε) (room : Nat) :
    Nat → σ → List E → Await ε Unit × σ × List E
  | limit, s, [] => if limit = 0 then (.done (), s, []) else (.waiting, s, [])
  | limit, s, env :: envs =>
    if limit = 0 then (.done (), s, env :: envs)
    else
      match poll env (min room limit) s with
      | (.pending, s') => skip poll room limit s' envs
      | (.ready [], s') => (.done (), s', envs)
      | (.ready (b :: bs), s') => skip poll room (limit - (b :: bs).length) s' envs
      | (.error e, s') => (.failed e, s', envs)

section

variable {f : σ → τ} {poll' : PollRead E τ ε}

variable (hpoll : ∀ env cap s, poll' env cap (f s) = ((poll env cap s).1, f (poll env cap s).2))
include hpoll

end

def Fine (poll : PollRead E σ ε) (ok : E → σ → Prop) : σ → List E → Prop
  | _, [] => True
  | s, env :: envs => ok env s ∧ ∀ cap, 0 < cap → Fine poll ok (poll env cap s).2 envs

theorem fine_of_forall : ∀ {envs : List E}, (∀ env ∈ envs, ∀ s, ok env s) → ∀ s, Fine poll ok s envs
  | [], _, _ => trivial
  | _ :: _, h, s => ⟨h _ mem_cons_self s, fun _ _ =>
    fine_of_forall (fun env he => h env (mem_cons_of_mem _ he)) _⟩

def Consumes (poll : PollRead E σ ε) (ok : E → σ → Prop) (I : σ → Bytes → Prop) (μ : σ → Nat)
    (m : Async σ E ε α) (xs : Bytes) (a : α) : Prop :=
  ∀ s Y envs, I s (xs ++ Y) → Fine poll ok s envs → μ s < envs.length →
    ∃ s' envs', m s envs = (.done a, s', envs') ∧ I s' Y ∧ μ s' < envs'.length ∧ Fine poll ok s' envs'

theorem consumes_pure (a : α) : Consumes poll ok I μ (pure a : Async σ E ε α) [] a :=
  fun s _ envs hI henv hμ => ⟨s, envs, rfl, hI, hμ, henv⟩

variable {xs ys : Bytes}

theorem consumes_bind (hm : Consumes poll ok I μ m xs a) (hf : Consumes poll ok I μ (f a) ys b) :
    Consumes poll ok I μ (m >>= f) (xs ++ ys) b := by
  intro s Y envs hI henv hμ
  rw [append_assoc] at hI
  obtain ⟨s', envs', he, hI', hμ', henv'⟩ := hm s (ys ++ Y) envs hI henv hμ
  obtain ⟨s'', envs'', he', h⟩ := hf s' Y envs' hI' henv' hμ'
  exact ⟨s'', envs'', (Async.bind_done he).trans he', h⟩

theorem consumes_cons {x : UInt8} (hm : Consumes poll ok I μ m [x] a) (hf : Consumes poll ok I μ (f a) ys b) :
    Consumes poll ok I μ (m >>= f) (x :: ys) b :=
  consumes_bind hm hf

theorem consumes_last (hm : Consumes poll ok I μ m xs a) (hf : f a = pure b) :
    Consumes poll ok I μ (m >>= f) xs b := by
  have h := consumes_bind hm (hf ▸ consumes_pure b)
  rwa [append_nil] at h

def Bounded (poll : PollRead E σ ε) : Prop :=
  ∀ env cap s bs s', poll env cap s = (.ready bs, s') → bs.length ≤ cap

theorem loopUntil_bounded {cap : Nat} (hpot : ∀ s s', step s = .next s' → pot s' < pot s)
    (hround : ∀ s s' bs, step s = .ret (.ready bs) s' → bs.length ≤ cap) {bs : Bytes}
    (h : loopUntil step pot r₀ s = (.ready bs, s')) : bs.length ≤ cap := by
  have hall : ∀ bs, (loopUntil step pot r₀ s).1 = .ready bs → bs.length ≤ cap :=
    loopUntil_ind hpot (P := fun _ => True) (Q := fun r _ => ∀ bs, r = .ready bs → bs.length ≤ cap)
      (fun _ _ _ _ => trivial) (fun t r t' _ hr bs he => hround t t' bs (he ▸ hr)) trivial
  exact hall bs (congrArg Prod.fst h)

theorem Serves.within (hS : Serves poll ok I μ) (hcap : Bounded poll) {env : E} {cap n : Nat} {Y : Bytes} {r : Poll ε Bytes}
    (hI : I s (xs ++ Y)) (hok : ok env s) (hpos : 0 < cap) (hle : cap ≤ xs.length) (hμ : μ s < n + 1)
    (hr : poll env cap s = (r, s')) : μ s' < n ∧ (r = .pending ∧ I s' (xs ++ Y) ∨
      ∃ b bs rest, r = .ready (b :: bs) ∧ xs = b :: bs ++ rest ∧ I s' (rest ++ Y)) := by
  have hstep := hS s (xs ++ Y) env cap hI hok hpos
  rw [hr] at hstep
  cases hstep with
  | pending _ h hlt => exact ⟨by omega, .inl ⟨rfl, h⟩⟩
  | data bs Z _ hne hX h hlt =>
    obtain ⟨rest, rfl⟩ : bs <+: xs := prefix_of_prefix_length_le (hX ▸ prefix_append bs Z) (prefix_append xs Y)
      (le_trans (hcap env cap s bs s' hr) hle)
    rw [append_assoc] at hX
    obtain ⟨b, bs, rfl⟩ := exists_cons_of_ne_nil hne
    exact ⟨by omega, .inr ⟨b, bs, rest, rfl, rfl, append_cancel_left hX ▸ h⟩⟩
  | eof _ hX _ =>
    have := congrArg length hX
    rw [length_append, length_nil] at this
    omega

theorem readExactFrom_spec (hS : Serves poll ok I μ) (hcap : Bounded poll) (eofErr : ε) {n : Nat} :
    ∀ {acc xs Y : Bytes} {s : σ}, Fine poll ok s envs → I s (xs ++ Y) → acc.length + xs.length = n →
      μ s < envs.length →
      ∃ s' envs', readExactFrom poll eofErr n acc s envs = (.done (acc ++ xs), s', envs') ∧ I s' Y ∧
        μ s' < envs'.length ∧ Fine poll ok s' envs' := by
  induction envs with
  | nil => exact fun _ _ _ hμ => absurd hμ (Nat.not_lt_zero _)
  | cons env envs ih =>
    intro acc xs Y s henv hI hn hμ
    rw [readExactFrom]
    by_cases hfull : n ≤ acc.length
    · have hxs : xs = [] := length_eq_zero_iff.mp (by omega)
      subst hxs
      rw [if_pos hfull, append_nil]
      exact ⟨s, env :: envs, rfl, hI, hμ, henv⟩
    rw [if_neg hfull]
    have henv' := henv.2 (n - acc.length) (by omega)
    rcases hr : poll env (n - acc.length) s with ⟨r, s'⟩
    rw [hr] at henv'
    obtain ⟨hlt, ⟨rfl, h⟩ | ⟨b, bs, rest, rfl, rfl, h⟩⟩ := hS.within hcap hI henv.1 (by omega) (by omega) hμ hr
    · exact ih henv' h hn hlt
    · rw [length_append] at hn
      rw [← append_assoc]
      exact ih henv' h (by rw [length_append]; omega) hlt

theorem readExact_consumes (hS : Serves poll ok I μ) (hcap : Bounded poll) (eofErr : ε) {n : Nat} (hn : xs.length = n) :
    Consumes poll ok I μ (readExact poll eofErr n) xs xs :=
  fun _ _ _ hI henv hμ => readExactFrom_spec hS hcap eofErr henv hI (by simpa using hn) hμ

theorem skip_consumes (hS : Serves poll ok I μ) (hcap : Bounded poll) {room : Nat} (hroom : 0 < room) {limit : Nat}
    (hn : xs.length = limit) : Consumes poll ok I μ (skip poll room limit) xs () := by
  intro s Y envs
  induction envs generalizing s xs limit with
  | nil => exact fun _ _ hμ => absurd hμ (Nat.not_lt_zero _)
  | cons env envs ih =>
    intro hI henv hμ
    rw [skip]
    by_cases hzero : limit = 0
    · obtain rfl : xs = [] := length_eq_zero_iff.mp (by omega)
      rw [if_pos hzero]
      exact ⟨s, env :: envs, rfl, hI, hμ, henv⟩
    rw [if_neg hzero]
    have henv' := henv.2 (min room limit) (by omega)
    rcases hr : poll env (min room limit) s with ⟨r, s'⟩
    rw [hr] at henv'
    obtain ⟨hlt, ⟨rfl, h⟩ | ⟨b, bs, rest, rfl, rfl, h⟩⟩ := hS.within hcap hI henv.1 (by omega) (by omega) hμ hr
    · exact ih hn s' h henv' hlt
    · rw [length_append] at hn
      exact ih (by omega) s' h henv' hlt

theorem afterPolls_append (s : σ) (polls more : List (E × Nat)) :
    afterPolls poll s (polls ++ more) = afterPolls poll (afterPolls poll s polls) more := by
  induction polls generalizing s with
  | nil => rfl
  | cons p polls ih => exact ih _

def Takes (poll : PollRead E σ ε) (P : α → Bytes → Prop) (s : σ) (r : Await ε α × σ × List E) : Prop :=
  ∃ polls, r.2.1 = afterPolls poll s polls ∧ ∀ a, r.1 = .done a →
    (∀ e, Poll.error e ∉ runPolls poll s polls) ∧ P a (delivered (runPolls poll s polls))

variable {P : α → Bytes → Prop} {Q : β → Bytes → Prop}

theorem Takes.imp {P' : α → Bytes → Prop} {r : Await ε α × σ × List E} (h : Takes poll P s r)
    (hP : ∀ a bs, P a bs → P' a bs) : Takes poll P' s r := by
  obtain ⟨polls, hend, hdone⟩ := h
  exact ⟨polls, hend, fun a ha => ⟨(hdone a ha).1, hP a _ (hdone a ha).2⟩⟩

theorem takes_nothing {r : Await ε α} (h : ∀ a, r = .done a → P a []) : Takes poll P s (r, s, envs) :=
  ⟨[], rfl, fun a ha => ⟨fun _ => not_mem_nil, h a ha⟩⟩

theorem takes_failed {e : ε} : Takes poll P s (.failed e, s, envs) := takes_nothing fun _ h => by cases h

theorem Takes.polled {env : E} {cap : Nat} {p : Poll ε Bytes} {r : Await ε α × σ × List E} (hp : poll env cap s = (p, s'))
    (he : ∀ a e, r.1 = .done a → p ≠ .error e) (h : Takes poll (fun a bs => P a (delivered [p] ++ bs)) s' r) :
    Takes poll P s r := by
  obtain ⟨polls, hend, hdone⟩ := h
  refine ⟨(env, cap) :: polls, ?_, fun a ha => ?_⟩
  · rw [afterPolls, hp, hend]
  obtain ⟨hok, hP⟩ := hdone a ha
  rw [runPolls, hp]
  exact ⟨fun e hm => (mem_cons.mp hm).elim (fun h => he a e ha h.symm) (hok e), delivered_append [p] _ ▸ hP⟩

theorem Takes.bind (hm : Takes poll P s (m s envs))
    (hf : ∀ a bs t envs, P a bs → Takes poll (fun b cs => Q b (bs ++ cs)) t (f a t envs)) :
    Takes poll Q s ((m >>= f) s envs) := by
  obtain ⟨polls, hend, hdone⟩ := hm
  show Takes poll Q s (Async.bind m f s envs)
  unfold Async.bind
  rcases hr : m s envs with ⟨a | e | _, t, envs'⟩
  all_goals rw [hr] at hend hdone
  · obtain ⟨hok, hP⟩ := hdone a rfl
    obtain ⟨more, hmore, hb⟩ := hf a _ t envs' hP
    obtain rfl : t = _ := hend
    refine ⟨polls ++ more, by rw [hmore, afterPolls_append], fun b hdone => ?_⟩
    rw [runPolls_append, delivered_append]
    exact ⟨fun e hm => (mem_append.mp hm).elim (hok e) ((hb b hdone).1 e), (hb b hdone).2⟩
  all_goals exact ⟨polls, hend, fun _ h => by cases h⟩

theorem readExactFrom_takes (hcap : Bounded poll) (eofErr : ε) {n : Nat} (acc : Bytes) (hacc : acc.length ≤ n) :
    Takes poll (fun bs cs => acc ++ cs = bs ∧ bs.length = n) s (readExactFrom poll eofErr n acc s envs) := by
  induction envs generalizing s acc with
  | nil =>
    rw [readExactFrom]
    split <;> refine takes_nothing fun a ha => ?_ <;> cases ha
    exact ⟨append_nil _, by omega⟩
  | cons env envs ih =>
    rw [readExactFrom]
    split
    · refine takes_nothing fun a ha => ?_
      cases ha
      exact ⟨append_nil _, by omega⟩
    rcases hp : poll env (n - acc.length) s with ⟨_ | (_ | ⟨b, bs⟩) | e, s'⟩ <;> refine .polled hp (by simp) ?_
    · exact ih acc hacc
    · exact takes_failed
    · have hle := hcap env _ s _ s' hp
      have hrest := ih (s := s') (acc ++ b :: bs) (by rw [length_append]; omega)
      simpa only [delivered, append_assoc, append_nil] using hrest
    · exact takes_failed

theorem skip_takes (hcap : Bounded poll) {room : Nat} (limit : Nat) :
    Takes poll (fun _ cs => cs.length ≤ limit) s (skip poll room limit s envs) := by
  induction envs generalizing s limit with
  | nil =>
    rw [skip]
    split <;> exact takes_nothing fun _ _ => zero_le
  | cons env envs ih =>
    rw [skip]
    split
    · exact takes_nothing fun _ _ => zero_le
    rcases hp : poll env (min room limit) s with ⟨_ | (_ | ⟨b, bs⟩) | e, s'⟩ <;> refine .polled hp (by simp) ?_
    · exact ih limit
    · exact takes_nothing fun _ _ => zero_le
    · have hle := hcap env _ s _ s' hp
      refine (ih (limit - (b :: bs).length)).imp fun _ cs hcs => ?_
      rw [length_append, delivered, delivered, append_nil]
      omega
    · exact takes_failed

end

/-! ## 4. Two halves of one stream -/

section

variable {O E σ ε α : Type}

def actAll (act : O → σ → σ) (ops : List O) (s : σ) : σ := ops.foldl (fun s o => act o s) s

def interleaved (act : O → σ → σ) (poll : PollRead E σ ε) (env : List O × E)
    (cap : Nat) (s : σ) : Poll ε Bytes × σ :=
  poll env.2 cap (actAll act env.1 s)

variable {P : σ → Prop} {act : O → σ → σ}

theorem actAll_ind (hact : ∀ o s, P s → P (act o s)) (ops : List O) {s : σ} (h : P s) :
    P (actAll act ops s) := by
  induction ops generalizing s with
  | nil => exact h
  | cons o ops ih => exact ih (hact o s h)

theorem Serves.interleaved {poll : PollRead E σ ε} {ok : E → σ → Prop}
    {I : σ → Bytes → Prop} {μ : σ → Nat} (hS : Serves poll ok I μ)
    (hI : ∀ o s X, I s X → I (act o s) X) (hok : ∀ o env s, ok env s → ok env (act o s))
    (hμ : ∀ o s, μ (act o s) = μ s) : Serves (interleaved act poll) (fun env s => ok env.2 s) I μ := by
  intro s X env cap h henv hcap
  have hle : μ (actAll act env.1 s) ≤ μ s :=
    actAll_ind (P := fun t => μ t ≤ μ s) (fun o t ht => le_trans (le_of_eq (hμ o t)) ht)
      env.1 le_rfl
  exact (hS _ X env.2 cap (actAll_ind (P := fun t => I t X) (fun o t => hI o t X) env.1 h)
    (actAll_ind (hok · env.2 ·) env.1 henv) hcap).of_le hle

def await (poll : E → σ → Poll ε α × σ) : σ → List E → Await ε α × σ × List E
  | s, [] => (.waiting, s, [])
  | s, env :: envs =>
    match poll env s with
    | (.pending, s') => await poll s' envs
    | (.ready a, s') => (.done a, s', envs)
    | (.error e, s') => (.failed e, s', envs)

def AwaitStep (P : σ → Prop) (Q : α → σ → Prop) (pot : σ → Nat) (s : σ) (x : Poll ε α × σ) : Prop :=
  (∃ s', x = (.pending, s') ∧ P s' ∧ pot s' < pot s) ∨ ∃ a s', x = (.ready a, s') ∧ Q a s' ∧ pot s' ≤ pot s

variable {Q : α → σ → Prop} {pot : σ → Nat} {s s' : σ} {envs envs' : List E} {poll : E → σ → Poll ε α × σ}
  {τ δ β : Type} {P' : τ → Prop} {Q' : β → τ → Prop} {x : Poll ε α × σ} {y : Poll δ β × τ}

theorem AwaitStep.transfer (h : AwaitStep P Q pot s x) {pot' : τ → Nat} {t : τ} (hpot : pot' t = pot s)
    (hpot' : pot' y.2 = pot x.2) (hwait : x.1 = .pending → P x.2 → y.1 = .pending ∧ P' y.2)
    (hready : ∀ a, x.1 = .ready a → Q a x.2 → ∃ b, y.1 = .ready b ∧ Q' b y.2) : AwaitStep P' Q' pot' t y := by
  rcases h with ⟨s', rfl, hP, hlt⟩ | ⟨a, s', rfl, hQ, hle⟩
  · obtain ⟨hy, hP'⟩ := hwait rfl hP
    exact .inl ⟨y.2, Prod.ext hy rfl, hP', by rw [hpot', hpot]; exact hlt⟩
  · obtain ⟨b, hy, hQ'⟩ := hready a rfl hQ
    exact .inr ⟨b, y.2, Prod.ext hy rfl, hQ', by rw [hpot', hpot]; exact hle⟩

theorem await_ok (hstep : ∀ env s, P s → AwaitStep P Q pot s (poll env s)) {n : Nat} :
    ∀ {env : E} {s : σ}, AwaitStep P Q pot s (poll env s) → pot s + n < (env :: envs).length →
      ∃ a s' envs', await poll s (env :: envs) = (.done a, s', envs') ∧ Q a s' ∧ pot s' + n ≤ envs'.length := by
  induction envs with
  | nil =>
    intro env s hfirst hlen
    rw [length_singleton] at hlen
    rw [await]
    rcases hfirst with ⟨s', he, _, hlt⟩ | ⟨a, s', he, hQ, hle⟩
    · omega
    · rw [he]
      exact ⟨a, s', [], rfl, hQ, by rw [length_nil]; omega⟩
  | cons env' envs ih =>
    intro env s hfirst hlen
    rw [length_cons] at hlen
    rw [await]
    rcases hfirst with ⟨s', he, hP, hlt⟩ | ⟨a, s', he, hQ, hle⟩
    · rw [he]
      exact ih (hstep env' s' hP) (by omega)
    · rw [he]
      exact ⟨a, s', env' :: envs, rfl, hQ, by omega⟩

def WaitStep (P : σ → Prop) (Q : α → σ → Prop) : Poll ε α × σ → Prop
  | (.pending, s) => P s
  | (.ready a, s) => Q a s
  | (.error _, _) => True

theorem WaitStep.transfer (h : WaitStep P Q x) (hwait : y.1 = .pending → x.1 = .pending ∧ (P x.2 → P' y.2))
    (hready : ∀ b, y.1 = .ready b → ∃ a, x.1 = .ready a ∧ (Q a x.2 → Q' b y.2)) : WaitStep P' Q' y := by
  obtain ⟨r, t⟩ := y
  obtain ⟨q, s⟩ := x
  cases r with
  | pending =>
    obtain ⟨hq, hP⟩ := hwait rfl
    subst hq
    exact hP h
  | error e => trivial
  | ready b =>
    obtain ⟨a, hq, hQ⟩ := hready b rfl
    subst hq
    exact hQ h

def Ends (P : σ → Prop) (Q : α → σ → Prop) (R : ε → σ → Prop) : Await ε α × σ × List E → Prop
  | (.waiting, s, _) => P s
  | (.done a, s, _) => Q a s
  | (.failed e, s, _) => R e s

theorem await_inv (poll : E → σ → Poll ε α × σ) {R : ε → σ → Prop}
    (hwait : ∀ env s s', P s → poll env s = (.pending, s') → P s')
    (hready : ∀ env s a s', P s → poll env s = (.ready a, s') → Q a s')
    (herror : ∀ env s e s', P s → poll env s = (.error e, s') → R e s') (envs : List E) :
    ∀ {s : σ}, P s → Ends P Q R (await poll s envs) := by
  induction envs with
  | nil => exact fun hs => hs
  | cons env envs ih =>
    intro s hs
    rw [await]
    rcases hr : poll env s with ⟨r, s'⟩
    cases r with
    | pending => exact ih (hwait env s s' hs hr)
    | ready a => exact hready env s a s' hs hr
    | error e => exact herror env s e s' hs hr

theorem await_done (hstep : ∀ env s, P s → WaitStep P Q (poll env s)) {a : α} :
    ∀ {env : E} {s : σ}, WaitStep P Q (poll env s) → await poll s (env :: envs) = (.done a, s', envs') → Q a s' := by
  intro env s hfirst hdone
  rw [await] at hdone
  rcases hr : poll env s with ⟨r, t⟩
  rw [hr] at hfirst hdone
  cases r with
  | error e => cases hdone
  | ready b =>
    cases hdone
    exact hfirst
  | pending =>
    have hends : Ends P Q (fun _ _ => True) (await poll t envs) := by
      refine await_inv poll ?_ ?_ (fun _ _ _ _ _ _ => trivial) envs hfirst
      · intro env s s' hs hr
        have hwait := hstep env s hs
        rwa [hr] at hwait
      · intro env s b s' hs hr
        have hready := hstep env s hs
        rwa [hr] at hready
    have hdone : await poll t envs = (.done a, s', envs') := hdone
    rwa [hdone] at hends

theorem awaitStep_after (act : O → σ → σ) (P₀ : σ → Prop)
    (hact : ∀ o s, P₀ s → P₀ (act o s) ∧ pot (act o s) = pot s) {env : E}
    (hstep : ∀ s, P₀ s → AwaitStep P Q pot s (poll env s)) (ops : List O) (h : P₀ s) :
    AwaitStep P Q pot s (poll env (actAll act ops s)) := by
  obtain ⟨hP, hpot⟩ : P₀ (actAll act ops s) ∧ pot (actAll act ops s) = pot s :=
    actAll_ind (P := fun t => P₀ t ∧ pot t = pot s)
      (fun o t ht => ⟨(hact o t ht.1).1, (hact o t ht.1).2.trans ht.2⟩) ops ⟨h, rfl⟩
  have := hstep _ hP
  rwa [AwaitStep, hpot] at this

def awaitEach {B : Type} (poll : B → E → σ → Poll ε α × σ) : List B → Async σ E ε (List α)
  | [] => pure []
  | b :: bs => do
      let a ← await (poll b)
      let as ← awaitEach poll bs
      pure (a :: as)

variable {B : Type} {poll : B → E → σ → Poll ε α × σ} {b : B} {bs : List B} {as : List α}

theorem awaitEach_cons {a : α} {s'' : σ} {envs'' : List E} (h : await (poll b) s envs = (.done a, s', envs'))
    (hs : awaitEach poll bs s' envs' = (.done as, s'', envs'')) :
    awaitEach poll (b :: bs) s envs = (.done (a :: as), s'', envs'') := by
  rw [awaitEach, Async.bind_done h, Async.bind_done hs]
  rfl

theorem awaitEach_cons_done (h : awaitEach poll (b :: bs) s envs = (.done as, s', envs')) :
    ∃ a as' s₁ envs₁, as = a :: as' ∧ await (poll b) s envs = (.done a, s₁, envs₁) ∧
      awaitEach poll bs s₁ envs₁ = (.done as', s', envs') := by
  obtain ⟨a, s₁, envs₁, hfirst, h⟩ := Async.bind_eq_done h
  obtain ⟨as', s₂, envs₂, hrest, h⟩ := Async.bind_eq_done h
  cases h
  exact ⟨a, as', s₁, envs₁, rfl, hfirst, hrest⟩

theorem awaitEach_ok {R : List B → σ → Prop} (pot : σ → Nat) {f : B → α}
    (hone : ∀ b bs s env envs n, R (b :: bs) s → pot s + n < (env :: envs).length →
      ∃ s' envs', await (poll b) s (env :: envs) = (.done (f b), s', envs') ∧ R bs s' ∧
        pot s' + n ≤ envs'.length) (bs : List B) :
    ∀ {s : σ} {envs : List E}, R bs s → pot s + bs.length ≤ envs.length →
      ∃ s' envs', awaitEach poll bs s envs = (.done (bs.map f), s', envs') ∧ R [] s' := by
  induction bs with
  | nil => exact fun {s envs} h _ => ⟨s, envs, rfl, h⟩
  | cons b bs ih =>
    intro s envs h hlen
    cases envs with
    | nil => rw [length_cons, length_nil] at hlen; omega
    | cons env envs =>
      obtain ⟨s', envs', he, hR, hle⟩ := hone b bs s env envs bs.length h
        (by rw [length_cons] at hlen; omega)
      obtain ⟨s'', envs'', he', hR'⟩ := ih hR hle
      exact ⟨s'', envs'', awaitEach_cons he he', hR'⟩

end

end Lib
