/-
  Subject:   A READER AS THE LIST OF ITS ANSWERS, and reads and writes that go on until a buffer is done.
-/
import Shadowsocks.Lib.Reader

namespace Lib

open List

/-! ## 1. What is heard of a reader -/

section

variable {E σ ε : Type} {poll : PollRead E σ ε} {ok : E → σ → Prop} {I : σ → Bytes → Prop}
  {μ : σ → Nat} {cap n : Nat}

def heard (poll : PollRead E σ ε) (cap n : Nat) : σ → List E → ReadSock
  | _, [] => replicate n .pending
  | s, env :: envs =>
    match poll env cap s with
    | (.pending, s') => .pending :: heard poll cap n s' envs
    | (.ready [], _) => []
    | (.ready (b :: bs), s') => .data (b :: bs) :: heard poll cap n s' envs
    | (.error _, _) => [.error 0]

theorem orderly_cons {ev : ReadEvent} {evs : ReadSock} (hev : ev = .pending ∨ ∃ bs, bs ≠ [] ∧ ev = .data bs)
    (h : Orderly evs) : Orderly (ev :: evs) := by
  intro e he
  rcases mem_cons.mp he with rfl | he
  · exact hev
  · exact h e he

variable {envs : List E}

theorem heard_serves (hS : Serves poll ok I μ) (hcap : 0 < cap) : ∀ {s : σ} {X : Bytes}, I s X → Fine poll ok s envs →
      Orderly (heard poll cap n s envs) ∧ sockBytes (heard poll cap n s envs) <+: X ∧
        (μ s < envs.length → sockBytes (heard poll cap n s envs) = X ∧
          sockWeight (heard poll cap n s envs) ≤ envs.length + X.length) := by
  induction envs with
  | nil =>
    intro s X _ _
    have hsilent : sockBytes (replicate n .pending) = [] := by
      rw [sockBytes, flatMap_eq_nil_iff]
      intro ev hev
      rw [eq_of_mem_replicate hev]
      rfl
    refine ⟨fun ev hev => .inl (eq_of_mem_replicate hev), ?_, fun h => absurd h (Nat.not_lt_zero _)⟩
    rw [heard, hsilent]
    exact ⟨X, rfl⟩
  | cons env envs ih =>
    intro s X hI hfine
    have hstep := hS s X env cap hI hfine.1 hcap
    have hfine := hfine.2 cap hcap
    rw [heard, length_cons]
    rcases hr : poll env cap s with ⟨r, s'⟩
    rw [hr] at hstep hfine
    cases hstep with
    | pending _ hI' hlt =>
      obtain ⟨ho, hpre, hall⟩ := ih hI' hfine
      refine ⟨orderly_cons (.inl rfl) ho, hpre, fun h => ?_⟩
      obtain ⟨hbytes, hweight⟩ := hall (by omega)
      refine ⟨hbytes, ?_⟩
      show 1 + 0 + _ ≤ _
      omega
    | data bs Y _ hne hX hI' hlt =>
      obtain ⟨ho, hpre, hall⟩ := ih hI' hfine
      obtain ⟨b, bs, rfl⟩ := exists_cons_of_ne_nil hne
      subst hX
      refine ⟨orderly_cons (.inr ⟨b :: bs, hne, rfl⟩) ho, ?_, fun h => ?_⟩
      · exact (prefix_append_right_inj (b :: bs)).mpr hpre
      obtain ⟨hbytes, hweight⟩ := hall (by omega)
      refine ⟨congrArg (b :: bs ++ ·) hbytes, ?_⟩
      rw [sockWeight, length_append]
      show 1 + (b :: bs).length + _ ≤ _
      omega
    | eof _ hX _ =>
      subst hX
      exact ⟨orderly_nil, ⟨[], rfl⟩, fun _ => ⟨rfl, zero_le⟩⟩

variable {envs' : List E} {s s' : σ}

theorem readExactFrom_delivered {eofErr : ε} {n : Nat} :
    ∀ {acc bs : Bytes} {s s' : σ}, readExactFrom poll eofErr n acc s envs = (.done bs, s', envs') →
      ∃ polls : List (E × Nat), polls.map Prod.fst ++ envs' = envs ∧ s' = afterPolls poll s polls ∧
        bs = acc ++ delivered (runPolls poll s polls) := by
  induction envs with
  | nil =>
    intro acc bs s s' h
    rw [readExactFrom] at h
    split at h
    · cases h
      exact ⟨[], rfl, rfl, (append_nil _).symm⟩
    · cases h
  | cons env envs ih =>
    intro acc bs s s' h
    rw [readExactFrom] at h
    split at h
    · cases h
      exact ⟨[], rfl, rfl, (append_nil _).symm⟩
    rcases hr : poll env (n - acc.length) s with ⟨_ | (_ | ⟨b, data⟩) | e, t⟩ <;> rw [hr] at h
    · obtain ⟨polls, henvs, hs, hbs⟩ := ih h
      refine ⟨(env, n - acc.length) :: polls, congrArg (env :: ·) henvs, ?_⟩
      rw [afterPolls, runPolls, hr]
      exact ⟨hs, hbs⟩
    · cases h
    · obtain ⟨polls, henvs, hs, hbs⟩ := ih h
      refine ⟨(env, n - acc.length) :: polls, congrArg (env :: ·) henvs, ?_⟩
      rw [afterPolls, runPolls, hr]
      exact ⟨hs, hbs.trans (append_assoc _ _ _)⟩
    · cases h

theorem readExact_delivered {eofErr : ε} {n : Nat} {bs : Bytes}
    (h : readExact poll eofErr n s envs = (.done bs, s', envs')) :
    ∃ polls : List (E × Nat), polls.map Prod.fst ++ envs' = envs ∧ s' = afterPolls poll s polls ∧
      delivered (runPolls poll s polls) = bs := by
  obtain ⟨polls, henvs, hs, hbs⟩ := readExactFrom_delivered h
  exact ⟨polls, henvs, hs, hbs.symm⟩

theorem Fine.of_view {τ δ : Type} {poll' : PollRead E τ δ} (view : τ → σ) {P : τ → Prop}
    (hview : ∀ env cap t, P t → P (poll' env cap t).2 ∧ view (poll' env cap t).2 = (poll env cap (view t)).2) :
    ∀ {t : τ}, P t → Fine poll ok (view t) envs → Fine poll' (fun env t => ok env (view t)) t envs := by
  induction envs with
  | nil => exact fun _ _ => trivial
  | cons env envs ih =>
    intro t ht hfine
    refine ⟨hfine.1, fun cap hcap => ?_⟩
    obtain ⟨ht', hsame⟩ := hview env cap t ht
    refine ih ht' ?_
    rw [hsame]
    exact hfine.2 cap hcap

theorem Fine.mapError {δ : Type} (f : ε → δ) {s : σ} (h : Fine poll ok s envs) :
    Fine (fun env cap s => ((poll env cap s).1.mapError f, (poll env cap s).2)) ok s envs := by
  have hview : ∀ env cap t, True → True ∧
      ((poll env cap t).1.mapError f, (poll env cap t).2).2 = (poll env cap t).2 := fun _ _ _ _ => ⟨trivial, rfl⟩
  exact of_view (fun t => t) hview trivial h

def Async.mapError {δ α : Type} (f : ε → δ) (m : Async σ E ε α) : Async σ E δ α :=
  fun s envs => ((m s envs).1.mapError f, (m s envs).2)

theorem Async.mapError_done {δ α : Type} {f : ε → δ} {m : Async σ E ε α} {a : α} :
    m.mapError f s envs = (.done a, s', envs') ↔ m s envs = (.done a, s', envs') := by
  unfold mapError
  rcases m s envs with ⟨r | e | _, t, rest⟩ <;> simp [Await.mapError]

end

/-! ## 2. Writes to the end of a buffer -/

section

variable {E σ ε : Type} {poll : Bytes → E → σ → Poll ε Nat × σ} {zeroErr : ε}

def writeAll (poll : Bytes → E → σ → Poll ε Nat × σ) (zeroErr : ε) : Bytes → Async σ E ε Unit
  | [], s, envs => (.done (), s, envs)
  | _ :: _, s, [] => (.waiting, s, [])
  | b :: bs, s, env :: envs =>
    match poll (b :: bs) env s with
    | (.pending, s') => writeAll poll zeroErr (b :: bs) s' envs
    | (.ready 0, s') => (.failed zeroErr, s', envs)
    | (.ready (n + 1), s') => writeAll poll zeroErr ((b :: bs).drop (n + 1)) s' envs
    | (.error e, s') => (.failed e, s', envs)

theorem writeAll_once {buf : Bytes} (hbuf : buf ≠ []) {envs envs' : List E} :
    ∀ {s s' : σ}, (∀ n t rest, await (poll buf) s envs = (.done n, t, rest) → n = buf.length) →
      writeAll poll zeroErr buf s envs = (.done (), s', envs') →
      await (poll buf) s envs = (.done buf.length, s', envs') := by
  obtain ⟨b, bs, rfl⟩ := exists_cons_of_ne_nil hbuf
  induction envs with
  | nil =>
    intro s s' _ h
    cases h
  | cons env envs ih =>
    intro s s' hall h
    rw [await] at hall ⊢
    rw [writeAll] at h
    rcases hr : poll (b :: bs) env s with ⟨r, t⟩
    rw [hr] at hall h
    rcases r with _ | (_ | n) | e
    · exact ih hall h
    · cases h
    · have hn : n + 1 = (b :: bs).length := hall (n + 1) t envs rfl
      have h : writeAll poll zeroErr ((b :: bs).drop (n + 1)) t envs = (.done (), s', envs') := h
      rw [hn, drop_length, writeAll] at h
      cases h
      rw [hn]
    · cases h

end

end Lib
