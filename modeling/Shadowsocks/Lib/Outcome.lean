/-
  Subject:   CODE THAT MAY PANIC, and reading from a cursor: as for `bytes::Buf`, reading more than remains is a
  panic.
-/
import Mathlib.Data.List.Forall2
import Shadowsocks.Lib.Bytes

namespace Lib

open List

inductive Outcome (ε α : Type) where
  | ok (a : α)
  | err (e : ε)
  | panic
  deriving DecidableEq

variable {ε α β : Type}

def Outcome.bind (m : Outcome ε α) (f : α → Outcome ε β) : Outcome ε β :=
  match m with
  | .ok a => f a
  | .err e => .err e
  | .panic => .panic

instance : Monad (Outcome ε) where
  pure := .ok
  bind := Outcome.bind

@[simp] theorem Outcome.ok_bind (a : α) (f : α → Outcome ε β) : (ok a >>= f) = f a := rfl

@[simp] theorem Outcome.err_bind (e : ε) (f : α → Outcome ε β) : (err e >>= f) = .err e := rfl

@[simp] theorem Outcome.panic_bind (f : α → Outcome ε β) : (panic >>= f) = .panic := rfl

@[simp] theorem Outcome.pure_eq (a : α) : (pure a : Outcome ε α) = .ok a := rfl

variable {m : Outcome ε α} {f : α → Outcome ε β}

theorem Outcome.bind_panic_iff : (m >>= f) = .panic ↔ m = .panic ∨ ∃ a, m = .ok a ∧ f a = .panic := by
  cases m with
  | ok a | err e | panic => simp

variable {b : β}

theorem Outcome.bind_ok_iff : (m >>= f) = .ok b ↔ ∃ a, m = .ok a ∧ f a = .ok b := by
  cases m with
  | ok a | err e | panic => simp

def Outcome.mapErr {δ : Type} (f : ε → δ) : Outcome ε α → Outcome δ α
  | .ok a => .ok a
  | .err e => .err (f e)
  | .panic => .panic

def Outcome.map (f : α → β) : Outcome ε α → Outcome ε β
  | .ok a => .ok (f a)
  | .err e => .err e
  | .panic => .panic

def Outcome.toOption : Outcome ε α → Option α
  | .ok a => some a
  | _ => none

@[simp] theorem Outcome.map_ok (f : α → β) (a : α) : (ok a : Outcome ε α).map f = .ok (f a) := rfl

theorem Outcome.map_ok_iff {f : α → β} : m.map f = .ok b ↔ ∃ a, m = .ok a ∧ f a = b := by
  cases m <;> simp [map]

theorem Outcome.map_panic_iff {f : α → β} : m.map f = .panic ↔ m = .panic := by
  cases m <;> simp [map]

variable {δ : Type}

@[simp] theorem Outcome.mapErr_ok (f : ε → δ) (a : α) : (ok a).mapErr f = .ok a := rfl

variable {a : α}

theorem Outcome.mapErr_ok_iff {f : ε → δ} : m.mapErr f = .ok a ↔ m = .ok a := by
  cases m <;> simp [mapErr]

theorem Outcome.mapErr_panic_iff {f : ε → δ} : m.mapErr f = .panic ↔ m = .panic := by
  cases m <;> simp [mapErr]

/-! ## Code that cannot panic, and loops -/

def Outcome.ofExcept : Except ε α → Outcome ε α
  | .ok a => .ok a
  | .error e => .err e

@[simp] theorem Outcome.ofExcept_ok (a : α) : ofExcept (.ok a : Except ε α) = .ok a := rfl

@[simp] theorem Outcome.ofExcept_error (e : ε) : ofExcept (.error e : Except ε α) = .err e := rfl

variable {x : Except ε α}

theorem Outcome.ofExcept_ok_iff : ofExcept x = .ok a ↔ x = .ok a := by
  cases x <;> simp

theorem Outcome.ofExcept_ne_panic (x : Except ε α) : ofExcept x ≠ .panic := by
  cases x <;> simp

variable {as : List α} {bs : List β}

theorem forall₂_mem_right {R : α → β → Prop} (h : Forall₂ R as bs) (hb : b ∈ bs) : ∃ a ∈ as, R a b := by
  induction h with
  | nil => cases hb
  | cons hab _ ih =>
    rcases mem_cons.mp hb with rfl | hb
    · exact ⟨_, mem_cons_self, hab⟩
    · obtain ⟨a, ha, hR⟩ := ih hb
      exact ⟨a, mem_cons_of_mem _ ha, hR⟩

def Outcome.each (f : α → Outcome ε β) : List α → Outcome ε (List β)
  | [] => .ok []
  | a :: as => do
      let b ← f a
      let bs ← each f as
      pure (b :: bs)

theorem Outcome.each_ok_iff : each f as = .ok bs ↔ Forall₂ (fun a b => f a = .ok b) as bs := by
  induction as generalizing bs with
  | nil => simp [each, eq_comm]
  | cons a as ih =>
    simp only [each, bind_ok_iff, ih, forall₂_cons_left_iff]
    simp [eq_comm]

theorem Outcome.each_ne_panic (h : ∀ a, f a ≠ .panic) : each f as ≠ .panic := by
  induction as with
  | nil => exact nofun
  | cons a as ih => simp [each, bind_panic_iff, h a, ih]

variable {f : α → Except ε β}

theorem except_bind_ok_iff : (x >>= f) = .ok b ↔ ∃ a, x = .ok a ∧ f a = .ok b := by
  cases x with
  | error e | ok a => simp [bind, Except.bind]

theorem except_map_ok_iff {f : α → β} : x.map f = .ok b ↔ ∃ a, x = .ok a ∧ f a = b := by
  cases x <;> simp [Except.map]

theorem except_mapM_ok_iff :
    as.mapM f = .ok bs ↔ Forall₂ (fun a b => f a = .ok b) as bs := by
  induction as generalizing bs with
  | nil => simp [pure, Except.pure, eq_comm]
  | cons a as ih =>
    simp only [mapM_cons, except_bind_ok_iff, ih, forall₂_cons_left_iff, pure, Except.pure]
    simp [eq_comm]

/-! ## Slices -/

def splitAt (n : Nat) (bs : Bytes) : Outcome ε (Bytes × Bytes) :=
  if n ≤ bs.length then .ok (bs.take n, bs.drop n) else .panic

def slice (i j : Nat) (bs : Bytes) : Outcome ε Bytes :=
  if i ≤ j ∧ j ≤ bs.length then .ok ((bs.take j).drop i) else .panic

def copyWithin (i j : Nat) (bs : Bytes) : Outcome ε Bytes :=
  if i ≤ j ∧ j ≤ bs.length then .ok ((bs.take j).drop i ++ bs.drop (j - i)) else .panic

variable {n : Nat} {bs : Bytes}

theorem splitAt_ok (h : n ≤ bs.length) :
    (splitAt n bs : Outcome ε _) = .ok (bs.take n, bs.drop n) := if_pos h

variable {xs : Bytes}

theorem splitAt_append (ys : Bytes) (h : xs.length = n) : (splitAt n (xs ++ ys) : Outcome ε _) = .ok (xs, ys) := by
  rw [splitAt_ok (by rw [length_append]; omega), take_left' h, drop_left' h]

variable {f : Bytes → α} {i j : Nat}

theorem slice_ok (hi : i ≤ j) (hj : j ≤ bs.length) :
    (slice i j bs : Outcome ε _) = .ok ((bs.take j).drop i) := if_pos ⟨hi, hj⟩

theorem copyWithin_ok (hi : i ≤ j) (hj : j ≤ bs.length) :
    (copyWithin i j bs : Outcome ε _) = .ok ((bs.take j).drop i ++ bs.drop (j - i)) := if_pos ⟨hi, hj⟩

theorem drop_take_append (xs ys zs : Bytes) :
    ((xs ++ (ys ++ zs)).take (xs.length + ys.length)).drop xs.length = ys := by
  rw [← append_assoc, take_left' length_append, drop_left]

theorem slice_append (xs ys zs : Bytes) (hi : i = xs.length) (hj : j = xs.length + ys.length) :
    (slice i j (xs ++ (ys ++ zs)) : Outcome ε _) = .ok ys := by
  subst hi hj
  rw [slice_ok (by omega) (by simp only [length_append]; omega), drop_take_append]

theorem copyWithin_append (xs ys zs : Bytes) (hi : i = xs.length) (hj : j = xs.length + ys.length) :
    ∃ tail, (copyWithin i j (xs ++ (ys ++ zs)) : Outcome ε _) = .ok (ys ++ tail) := by
  subst hi hj
  refine ⟨(xs ++ (ys ++ zs)).drop (xs.length + ys.length - xs.length), ?_⟩
  rw [copyWithin_ok (by omega) (by simp only [length_append]; omega), drop_take_append]

/-! ## Cursors -/

structure Cursor where
  buf : Bytes
  pos : Nat
  deriving DecidableEq

variable (c : Cursor)

def Cursor.rest : Bytes := c.buf.drop c.pos

def Cursor.remaining : Nat := c.rest.length

def Cursor.advance (n : Nat) : Cursor := { c with pos := c.pos + n }

def Cursor.get (n : Nat) (f : Bytes → α) (c : Cursor) : Outcome ε (α × Cursor) :=
  if n ≤ c.remaining then .ok (f (c.rest.take n), c.advance n) else .panic

def Cursor.take (n : Nat) (c : Cursor) : Outcome ε (Bytes × Cursor) := c.get n id

def Cursor.getU8 : Outcome ε (UInt8 × Cursor) := c.get 1 fun bs => UInt8.ofNat (beNat bs)

def Cursor.getU16 : Outcome ε (UInt16 × Cursor) := c.get 2 get16

def Cursor.getU64 : Outcome ε (UInt64 × Cursor) := c.get 8 get64

@[simp] theorem Cursor.rest_advance (n : Nat) : (c.advance n).rest = c.rest.drop n := by
  unfold rest advance
  rw [drop_drop]

@[simp] theorem Cursor.remaining_advance (n : Nat) : (c.advance n).remaining = c.remaining - n := by
  rw [remaining, rest_advance, length_drop, remaining]

@[simp] theorem Cursor.advance_advance (n m : Nat) : (c.advance n).advance m = c.advance (n + m) := by
  unfold advance
  rw [add_assoc]

variable {c : Cursor} {ys : Bytes}

theorem Cursor.remaining_of_rest (h : c.rest = xs ++ ys) : xs.length ≤ c.remaining := by
  rw [remaining, h, length_append]
  omega

theorem Cursor.buf_of_rest (hc : c.pos ≤ c.buf.length) (h : c.rest = xs ++ ys) :
    ∃ pre, c.buf = pre ++ ys ∧ pre.length = c.pos + xs.length := by
  refine ⟨c.buf.take c.pos ++ xs, ?_, ?_⟩
  · rw [append_assoc, ← h, rest, take_append_drop]
  · rw [length_append, length_take, min_eq_left hc]

theorem Cursor.get_ok (h : n ≤ c.remaining) (f : Bytes → α) :
    c.get n f = (.ok (f (c.rest.take n), c.advance n) : Outcome ε (α × Cursor)) := if_pos h

theorem Cursor.get_ok_iff {x : α × Cursor} : (c.get n f : Outcome ε (α × Cursor)) = .ok x ↔
      n ≤ c.remaining ∧ (f (c.rest.take n), c.advance n) = x := by
  unfold get
  split <;> rename_i h
  · simp [h]
  · simp [h]

theorem Cursor.get_panic_iff : (c.get n f : Outcome ε (α × Cursor)) = .panic ↔ c.remaining < n := by
  unfold get
  split <;> simp <;> omega

structure Cursor.Within (c c' : Cursor) : Prop where
  same : c'.buf = c.buf
  inside : c'.pos ≤ c.buf.length

theorem Cursor.get_within {c' : Cursor}
    (h : c.get n f = (.ok (a, c') : Outcome ε (α × Cursor))) (hc : 0 < n ∨ c.pos ≤ c.buf.length) :
    c.Within c' := by
  unfold get at h
  split at h
  · rename_i hn
    cases h
    rw [remaining, rest, length_drop] at hn
    refine ⟨rfl, ?_⟩
    show c.pos + n ≤ c.buf.length
    omega
  · cases h

theorem Cursor.Within.get {c' c'' : Cursor} (hc : c.Within c')
    (h : c'.get n f = (.ok (a, c'') : Outcome ε (α × Cursor))) : c.Within c'' := by
  have := get_within h (.inr (hc.same ▸ hc.inside))
  exact ⟨this.same.trans hc.same, hc.same ▸ this.inside⟩

theorem Cursor.get_of_rest (h : c.rest = xs ++ ys) (hn : xs.length = n) (f : Bytes → α) :
    c.get n f = (.ok (f xs, c.advance n) : Outcome ε (α × Cursor)) ∧ (c.advance n).rest = ys := by
  subst hn
  refine ⟨?_, ?_⟩
  · rw [get_ok (remaining_of_rest h), h, take_left]
  · rw [rest_advance, h, drop_left]

theorem Cursor.getU8_of_rest {b : UInt8} (h : c.rest = b :: ys) :
    c.getU8 = (.ok (b, c.advance 1) : Outcome ε (UInt8 × Cursor)) ∧ (c.advance 1).rest = ys := by
  have hb : c.rest = [b] ++ ys := h
  have := get_of_rest (ε := ε) hb rfl fun bs => UInt8.ofNat (beNat bs)
  rwa [beNat_singleton] at this

theorem Cursor.getU16_of_rest {x : UInt16} (h : c.rest = put16 x ++ ys) :
    c.getU16 = (.ok (x, c.advance 2) : Outcome ε (UInt16 × Cursor)) ∧ (c.advance 2).rest = ys := by
  have := get_of_rest (ε := ε) h (put16_length x) get16
  rwa [get16_put16] at this

theorem Cursor.getU64_of_rest {x : UInt64} (h : c.rest = put64 x ++ ys) :
    c.getU64 = (.ok (x, c.advance 8) : Outcome ε (UInt64 × Cursor)) ∧ (c.advance 8).rest = ys := by
  have := get_of_rest (ε := ε) h (put64_length x) get64
  rwa [get64_put64] at this

end Lib
