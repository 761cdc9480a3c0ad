/-
  Subject:   POLLING: loops with a potential that bounds them, and sockets as lists of their coming answers. A read
  socket whose list is used up is closed, a write socket takes everything.
-/
import Shadowsocks.Lib.Bytes

namespace Lib

open List

/-! ## 1. Loops -/

inductive Ctl (ρ σ : Type) where
  | ret (r : ρ) (s : σ)
  | next (s : σ)

def Ctl.map {ρ σ τ : Type} (f : σ → τ) : Ctl ρ σ → Ctl ρ τ
  | .ret r s => .ret r (f s)
  | .next s => .next (f s)

def Ctl.state {ρ σ : Type} : Ctl ρ σ → σ
  | .ret _ s => s
  | .next s => s

section

variable {ρ σ : Type} {step : σ → Ctl ρ σ} {pot : σ → Nat} {r₀ : ρ}

def loopN (step : σ → Ctl ρ σ) : Nat → σ → Option (ρ × σ)
  | 0, _ => none
  | n + 1, s =>
    match step s with
    | .ret r s' => some (r, s')
    | .next s' => loopN step n s'

def loopUntil (step : σ → Ctl ρ σ) (pot : σ → Nat) (r₀ : ρ) (s : σ) : ρ × σ :=
  (loopN step (pot s + 1) s).getD (r₀, s)

variable {s : σ}

theorem loopN_mono {n m : Nat} {x : ρ × σ} (h : loopN step n s = some x) (hnm : n ≤ m) : loopN step m s = some x := by
  induction n generalizing m s with
  | zero => cases h
  | succ n ih =>
    obtain ⟨m, rfl⟩ := Nat.exists_eq_succ_of_ne_zero (by omega : m ≠ 0)
    rw [loopN] at h ⊢
    split at h
    · exact h
    · exact ih h (by omega)

theorem loopN_some (hpot : ∀ s s', step s = .next s' → pot s' < pot s) {n : Nat} (hn : pot s < n) :
    ∃ x, loopN step n s = some x := by
  induction n generalizing s with
  | zero => omega
  | succ n ih =>
    rw [loopN]
    cases hs : step s with
    | ret r s' => exact ⟨(r, s'), rfl⟩
    | next s' =>
      have := hpot s s' hs
      exact ih (by omega)

theorem loopUntil_eq (hpot : ∀ s s', step s = .next s' → pot s' < pot s) (s : σ) : loopUntil step pot r₀ s =
      match step s with
      | .ret r s' => (r, s')
      | .next s' => loopUntil step pot r₀ s' := by
  rw [loopUntil, loopN]
  cases hs : step s with
  | ret r s' => rfl
  | next s' =>
    have hlt := hpot s s' hs
    obtain ⟨x, hx⟩ := loopN_some hpot (Nat.lt_succ_self (pot s'))
    show (loopN step (pot s) s').getD (r₀, s) = (loopN step (pot s' + 1) s').getD (r₀, s')
    rw [loopN_mono hx (by omega : pot s' + 1 ≤ pot s), hx]
    rfl

theorem loopUntil_inv {P : σ → Prop} {Q : ρ → σ → Prop}
    (hnext : ∀ s s', P s → step s = .next s' → P s' ∧ pot s' < pot s)
    (hret : ∀ s r s', P s → step s = .ret r s' → Q r s') (h : P s) :
    Q (loopUntil step pot r₀ s).1 (loopUntil step pot r₀ s).2 := by
  have hloop : ∀ n s, P s → pot s < n → ∃ r s', loopN step n s = some (r, s') ∧ Q r s' := by
    intro n
    induction n with
    | zero => exact fun s _ hn => absurd hn (Nat.not_lt_zero _)
    | succ n ih =>
      intro s hs hn
      rw [loopN]
      cases he : step s with
      | ret r s' => exact ⟨r, s', rfl, hret s r s' hs he⟩
      | next s' =>
        obtain ⟨hs', hlt⟩ := hnext s s' hs he
        exact ih s' hs' (by omega)
  obtain ⟨r, s', he, hQ⟩ := hloop (pot s + 1) s h (Nat.lt_succ_self _)
  unfold loopUntil
  rwa [he]

theorem loopUntil_ind (hpot : ∀ s s', step s = .next s' → pot s' < pot s) {P : σ → Prop} {Q : ρ → σ → Prop}
    (hnext : ∀ s s', P s → step s = .next s' → P s') (hret : ∀ s r s', P s → step s = .ret r s' → Q r s') (h : P s) :
    Q (loopUntil step pot r₀ s).1 (loopUntil step pot r₀ s).2 :=
  loopUntil_inv (fun s s' hs he => ⟨hnext s s' hs he, hpot s s' he⟩) hret h

theorem loopUntil_keeps (hpot : ∀ s s', step s = .next s' → pot s' < pot s) {P : σ → Prop}
    (h : ∀ s, P s → P (step s).state) (hs : P s) : P (loopUntil step pot r₀ s).2 := by
  refine loopUntil_ind hpot (P := P) (Q := fun _ t => P t) (fun t t' ht he => ?_)
    (fun t r t' ht he => ?_) hs
  · have := h t ht
    rwa [he] at this
  · have := h t ht
    rwa [he] at this

def visitedN (step : σ → Ctl ρ σ) : Nat → σ → List σ
  | 0, _ => []
  | n + 1, s =>
    match step s with
    | .ret _ _ => [s]
    | .next s' => s :: visitedN step n s'

def visited (step : σ → Ctl ρ σ) (pot : σ → Nat) (s : σ) : List σ := visitedN step (pot s + 1) s

theorem visitedN_enough (hpot : ∀ s s', step s = .next s' → pot s' < pot s) {n m : Nat} (hn : pot s < n)
    (hm : pot s < m) : visitedN step n s = visitedN step m s := by
  induction n generalizing m s with
  | zero => exact absurd hn (Nat.not_lt_zero _)
  | succ n ih =>
    cases m with
    | zero => exact absurd hm (Nat.not_lt_zero _)
    | succ m =>
      rw [visitedN, visitedN]
      cases hs : step s with
      | ret r s' => rfl
      | next s' =>
        have hlt := hpot s s' hs
        exact congrArg (s :: ·) (ih (by omega) (by omega))

theorem loopUntil_visited (hpot : ∀ s s', step s = .next s' → pot s' < pot s)
    {Q : σ → ρ → σ → List σ → Prop} (hret : ∀ s r s', step s = .ret r s' → Q s r s' [s])
    (hnext : ∀ s s' r t us, step s = .next s' → Q s' r t us → Q s r t (s :: us)) (s : σ) :
    Q s (loopUntil step pot r₀ s).1 (loopUntil step pot r₀ s).2 (visited step pot s) := by
  induction hp : pot s using Nat.strongRecOn generalizing s with
  | ind n ih =>
    rw [loopUntil_eq hpot, visited, visitedN]
    cases hs : step s with
    | ret r s' => exact hret s r s' hs
    | next s' =>
      have hlt := hpot s s' hs
      dsimp only
      rw [visitedN_enough hpot hlt (Nat.lt_succ_self _)]
      exact hnext s s' _ _ _ hs (ih (pot s') (hp ▸ hlt) s' rfl)

end

/-! ## 2. Sockets -/

inductive IoError where
  | os (code : Nat)
  | unexpectedEof
  | other (msg : String)
  deriving DecidableEq

inductive Poll (ε α : Type) where
  | pending
  | ready (a : α)
  | error (e : ε)
  deriving DecidableEq

def Poll.mapError {ε δ α : Type} (f : ε → δ) : Poll ε α → Poll δ α
  | .pending => .pending
  | .ready a => .ready a
  | .error e => .error (f e)

@[simp] theorem Poll.mapError_pending {ε δ α : Type} {f : ε → δ} {r : Poll ε α} :
    r.mapError f = .pending ↔ r = .pending := by
  cases r <;> simp [mapError]

@[simp] theorem Poll.mapError_ready {ε δ α : Type} {f : ε → δ} {r : Poll ε α} {a : α} :
    r.mapError f = .ready a ↔ r = .ready a := by
  cases r <;> simp [mapError]

inductive ReadEvent where
  | pending
  | data (bs : Bytes)
  | error (code : Nat)

abbrev ReadSock := List ReadEvent

def pollRead (cap : Nat) : ReadSock → Poll IoError Bytes × ReadSock
  | [] => (.ready [], [])
  | .pending :: evs => (.pending, evs)
  | .error code :: evs => (.error (.os code), evs)
  | .data bs :: evs =>
    if bs.length ≤ cap then (.ready bs, evs)
    else (.ready (bs.take cap), .data (bs.drop cap) :: evs)

variable {bs : Bytes} {cap : Nat}

theorem pollRead_bounded {sock sock' : ReadSock} (h : pollRead cap sock = (.ready bs, sock')) : bs.length ≤ cap := by
  cases sock with
  | nil =>
    cases h
    exact zero_le
  | cons ev evs =>
    cases ev with
    | pending | error code => cases h
    | data bs =>
      rw [pollRead] at h
      split at h
      · cases h
        assumption
      · cases h
        exact length_take_le _ _

def ReadEvent.bytes : ReadEvent → Bytes
  | .data bs => bs
  | _ => []

def sockBytes (sock : ReadSock) : Bytes := sock.flatMap ReadEvent.bytes

def sockWeight : ReadSock → Nat
  | [] => 0
  | ev :: evs => 1 + ev.bytes.length + sockWeight evs

def Orderly (sock : ReadSock) : Prop :=
  ∀ ev ∈ sock, ev = .pending ∨ ∃ bs, bs ≠ [] ∧ ev = .data bs

theorem pollRead_fits (h : bs.length ≤ cap) (evs : ReadSock) : pollRead cap (.data bs :: evs) = (.ready bs, evs) := by
  rw [pollRead, if_pos h]

theorem pollRead_splits (h : cap < bs.length) (evs : ReadSock) :
    pollRead cap (.data bs :: evs) = (.ready (bs.take cap), .data (bs.drop cap) :: evs) := by
  rw [pollRead, if_neg (by omega)]

inductive ReadStep (cap : Nat) (sock : ReadSock) : Poll IoError Bytes × ReadSock → Prop where
  | pending (sock' : ReadSock) (hb : sockBytes sock = sockBytes sock')
      (hw : sockWeight sock' < sockWeight sock) (ho : Orderly sock → Orderly sock') :
      ReadStep cap sock (.pending, sock')
  | error (code : Nat) (sock' : ReadSock) (hb : sockBytes sock = sockBytes sock')
      (hw : sockWeight sock' < sockWeight sock) (ho : ¬ Orderly sock) :
      ReadStep cap sock (.error (.os code), sock')
  | eof (sock' : ReadSock) (hb : sockBytes sock = sockBytes sock')
      (hw : sockWeight sock' ≤ sockWeight sock) (ho : Orderly sock → sock = [] ∧ sock' = []) :
      ReadStep cap sock (.ready [], sock')
  | data (b : UInt8) (bs : Bytes) (sock' : ReadSock) (hlen : (b :: bs).length ≤ cap)
      (hb : sockBytes sock = b :: bs ++ sockBytes sock')
      (hw : sockWeight sock' + (b :: bs).length ≤ sockWeight sock)
      (ho : Orderly sock → Orderly sock') : ReadStep cap sock (.ready (b :: bs), sock')

theorem orderly_tail {ev : ReadEvent} {evs : ReadSock} (h : Orderly (ev :: evs)) : Orderly evs :=
  fun e he => h e (mem_cons_of_mem _ he)

theorem orderly_nil : Orderly [] := nofun

theorem orderly_single (h : bs ≠ []) : Orderly [.data bs] := by
  intro ev hev
  rw [mem_singleton.mp hev]
  exact .inr ⟨bs, h, rfl⟩

theorem pollRead_step (hcap : 0 < cap) (sock : ReadSock) : ReadStep cap sock (pollRead cap sock) := by
  cases sock with
  | nil => exact .eof [] rfl le_rfl fun _ => ⟨rfl, rfl⟩
  | cons ev evs =>
    cases ev with
    | pending => exact .pending evs rfl (by simp [sockWeight, ReadEvent.bytes]) orderly_tail
    | error code =>
      refine .error code evs rfl (by simp [sockWeight, ReadEvent.bytes]) fun ho => ?_
      rcases ho _ mem_cons_self with h | ⟨_, _, h⟩ <;> cases h
    | data bs =>
      rcases lt_or_ge cap bs.length with hgt | hle
      · rw [pollRead_splits hgt]
        obtain ⟨b, bs, rfl⟩ := exists_cons_of_length_pos (by omega : 0 < bs.length)
        obtain ⟨cap, rfl⟩ := Nat.exists_eq_succ_of_ne_zero (by omega : cap ≠ 0)
        rw [length_cons] at hgt
        refine .data b (bs.take cap) _ (by rw [length_cons, length_take]; omega) ?_ ?_ fun ho => ?_
        · simp [sockBytes, ReadEvent.bytes, ← append_assoc]
        · simp [sockWeight, ReadEvent.bytes]
          omega
        intro e he
        rcases mem_cons.mp he with rfl | he
        · refine .inr ⟨bs.drop cap, fun e => ?_, rfl⟩
          have := congrArg length e
          simp only [length_drop, length_nil] at this
          omega
        · exact ho e (mem_cons_of_mem _ he)
      rw [pollRead_fits hle]
      cases bs with
      | nil =>
        refine .eof evs rfl (by simp [sockWeight, ReadEvent.bytes]) fun ho => ?_
        rcases ho _ mem_cons_self with h | ⟨bs, hne, h⟩
        · cases h
        · injection h with h
          exact absurd h.symm hne
      | cons b bs =>
        exact .data b bs evs hle rfl (by simp [sockWeight, ReadEvent.bytes]; omega) orderly_tail

def WholeFirst (n : Nat) : ReadSock → Prop
  | [] => False
  | .pending :: evs => WholeFirst n evs
  | .error _ :: _ => False
  | .data bs :: _ => n ≤ bs.length

instance (n : Nat) : (sock : ReadSock) → Decidable (WholeFirst n sock)
  | [] => inferInstanceAs (Decidable False)
  | .pending :: evs => instDecidableWholeFirst n evs
  | .error _ :: _ => inferInstanceAs (Decidable False)
  | .data bs :: _ => inferInstanceAs (Decidable (n ≤ bs.length))

theorem pollRead_whole {n : Nat} (hn : 0 < n) {sock : ReadSock} (ho : Orderly sock)
    (hw : WholeFirst n sock) {w tail : Bytes} (hb : sockBytes sock = w ++ tail) (hlen : w.length = n) :
    (∃ sock', pollRead n sock = (.pending, sock') ∧ sockBytes sock' = w ++ tail ∧
      WholeFirst n sock' ∧ Orderly sock' ∧ sockWeight sock' < sockWeight sock) ∨
    (∃ sock', pollRead n sock = (.ready w, sock') ∧ sockBytes sock' = tail ∧ Orderly sock' ∧
      sockWeight sock' + n ≤ sockWeight sock) := by
  have hstep := pollRead_step hn sock
  match sock, hw with
  | .pending :: evs, hw =>
    exact .inl ⟨evs, rfl, hb, hw, orderly_tail ho, by simp [sockWeight, ReadEvent.bytes]⟩
  | .data bs :: evs, hw =>
    have hread : (pollRead n (.data bs :: evs)).1 = .ready (bs.take n) := by
      rw [pollRead]
      split
      · rw [take_of_length_le ‹_›]
      · rfl
    have hgot : (bs.take n).length = n := by rw [length_take, min_eq_left hw]
    rcases hr : pollRead n (.data bs :: evs) with ⟨r, sock'⟩
    rw [hr] at hread hstep
    subst hread
    cases hx : bs.take n with
    | nil => rw [hx, length_nil] at hgot; omega
    | cons b bs' =>
      rw [hx] at hstep hgot
      cases hstep with
      | data _ _ _ _ hb' hwt ho' =>
        obtain ⟨rfl, htail⟩ := append_inj (hb.symm.trans hb') (hlen.trans hgot.symm)
        exact .inr ⟨sock', rfl, htail.symm, ho' ho, by omega⟩

inductive WriteEvent where
  | pending
  | accept (n : Nat)
  | error (code : Nat)

structure WriteSock where
  events : List WriteEvent
  wire : Bytes

def pollWrite (buf : Bytes) (sock : WriteSock) : Poll IoError Nat × WriteSock :=
  match sock.events with
  | [] => (.ready buf.length, ⟨[], sock.wire ++ buf⟩)
  | .pending :: evs => (.pending, ⟨evs, sock.wire⟩)
  | .error code :: evs => (.error (.os code), ⟨evs, sock.wire⟩)
  | .accept n :: evs => (.ready (min n buf.length), ⟨evs, sock.wire ++ buf.take n⟩)

def Willing (sock : WriteSock) : Prop :=
  ∀ ev ∈ sock.events, ev = .pending ∨ ∃ n, 0 < n ∧ ev = .accept n

theorem willing_tail {ev : WriteEvent} {evs : List WriteEvent} {wire wire' : Bytes}
    (h : Willing ⟨ev :: evs, wire⟩) : Willing ⟨evs, wire'⟩ :=
  fun e he => h e (mem_cons_of_mem _ he)

theorem willing_nil (wire : Bytes) : Willing ⟨[], wire⟩ := nofun

inductive WriteStep (buf : Bytes) (sock : WriteSock) : Poll IoError Nat × WriteSock → Prop where
  | pending (sock' : WriteSock) (hw : sock'.wire = sock.wire)
      (he : sock'.events.length < sock.events.length) (hwill : Willing sock → Willing sock') :
      WriteStep buf sock (.pending, sock')
  | error (code : Nat) (sock' : WriteSock) (hw : sock'.wire = sock.wire)
      (hwill : ¬ Willing sock) : WriteStep buf sock (.error (.os code), sock')
  | ready (n : Nat) (sock' : WriteSock) (hn : n ≤ buf.length)
      (hw : sock'.wire = sock.wire ++ buf.take n)
      (he : sock'.events.length ≤ sock.events.length)
      (hwill : Willing sock → Willing sock' ∧ (buf ≠ [] → 0 < n)) :
      WriteStep buf sock (.ready n, sock')

theorem pollWrite_step (buf : Bytes) (sock : WriteSock) : WriteStep buf sock (pollWrite buf sock) := by
  obtain ⟨events, wire⟩ := sock
  cases events with
  | nil =>
    refine .ready _ _ le_rfl ?_ le_rfl fun h => ⟨nofun, ?_⟩
    · rw [take_length]
    · exact length_pos_of_ne_nil
  | cons ev evs =>
    cases ev with
    | pending => exact .pending _ rfl (Nat.lt_succ_self _) willing_tail
    | error code =>
      refine .error code _ rfl fun h => ?_
      rcases h _ mem_cons_self with h | ⟨_, _, h⟩ <;> cases h
    | accept n =>
      refine .ready _ _ (min_le_right _ _) ?_ (Nat.le_succ _) fun h => ⟨willing_tail h, ?_⟩
      · rw [← take_take, take_length]
      intro hne
      have := length_pos_of_ne_nil hne
      rcases h _ mem_cons_self with h | ⟨m, hm, h⟩
      · cases h
      · injection h with h
        omega

def untilReady {ε α σ : Type} (poll : σ → Poll ε α × σ) (pot : σ → Nat) (e₀ : ε) (s : σ) :
    Except ε α × σ :=
  loopUntil (fun s =>
    match poll s with
    | (.pending, s') => .next s'
    | (.ready a, s') => .ret (.ok a) s'
    | (.error e, s') => .ret (.error e) s') pot (.error e₀) s

theorem untilReady_ok {ε α σ : Type} {poll : σ → Poll ε α × σ} {pot : σ → Nat} (e₀ : ε)
    (hpot : ∀ s s', poll s = (.pending, s') → pot s' < pot s) {P : σ → Prop} {Q : α → σ → Prop}
    (hstep : ∀ s, P s → (∃ s', poll s = (.pending, s') ∧ P s') ∨
      ∃ a s', poll s = (.ready a, s') ∧ Q a s') {s : σ} (h : P s) :
    ∃ a s', untilReady poll pot e₀ s = (.ok a, s') ∧ Q a s' := by
  suffices hs : (fun r t => ∃ a, r = Except.ok a ∧ Q a t) (untilReady poll pot e₀ s).1
      (untilReady poll pot e₀ s).2 by
    obtain ⟨a, ha, hQ⟩ := hs
    exact ⟨a, _, Prod.ext ha rfl, hQ⟩
  refine loopUntil_ind ?_ (P := P) (Q := fun r t => ∃ a, r = Except.ok a ∧ Q a t) ?_ ?_ h
  · intro t t' ht
    split at ht
    · injection ht with ht
      exact ht ▸ hpot t _ ‹_›
    · cases ht
    · cases ht
  · intro t t' hP ht
    rcases hstep t hP with ⟨u, hu, hPu⟩ | ⟨a, u, hu, _⟩ <;> rw [hu] at ht <;> cases ht
    exact hPu
  · intro t r t' hP ht
    rcases hstep t hP with ⟨u, hu, _⟩ | ⟨a, u, hu, hQ⟩ <;> rw [hu] at ht <;> cases ht
    exact ⟨a, rfl, hQ⟩

end Lib
