/-
  Subject:   A CACHE WITH EXPIRY AND CAPACITY, as `lru_time_cache` documents it. The entries stand in the order of
  their last access, the longest unused one first.
-/
import Mathlib.Data.List.Nodup

namespace Lib

open List Option

structure LruEntry (K V : Type) where
  key : K
  value : V
  used : Nat

structure LruCache (K V : Type) where
  entries : List (LruEntry K V)
  ttl : Nat
  capacity : Option Nat

variable {K V : Type}

def LruCache.withExpiryDuration (ttl : Nat) : LruCache K V := ⟨[], ttl, none⟩

def LruCache.withExpiryDurationAndCapacity (ttl capacity : Nat) : LruCache K V :=
  ⟨[], ttl, some capacity⟩

def LruCache.alive (c : LruCache K V) (now : Nat) : List (LruEntry K V) :=
  c.entries.filter fun e => now ≤ e.used + c.ttl

def evict (capacity : Option Nat) (es : List (LruEntry K V)) : List (LruEntry K V) :=
  match capacity with
  | none => es
  | some cap => es.drop (es.length + 1 - cap)

def LruCache.sweep (c : LruCache K V) (now : Nat) : LruCache K V := { c with entries := c.alive now }

def LruCache.values (c : LruCache K V) : List V := c.entries.map LruEntry.value

variable [DecidableEq K]

def LruCache.lookup (c : LruCache K V) (now : Nat) (k : K) : Option V :=
  ((c.alive now).find? fun e => e.key = k).map LruEntry.value

def LruCache.touch (c : LruCache K V) (now : Nat) (k : K) (v : V) : LruCache K V :=
  { c with entries := ((c.alive now).filter fun e => e.key ≠ k) ++ [⟨k, v, now⟩] }

def LruCache.get (c : LruCache K V) (now : Nat) (k : K) : Option V × LruCache K V :=
  match c.lookup now k with
  | some v => (some v, c.touch now k v)
  | none => (none, c.sweep now)

def LruCache.insert (c : LruCache K V) (now : Nat) (k : K) (v : V) : LruCache K V :=
  match c.lookup now k with
  | some _ => c.touch now k v
  | none => { c with entries := evict c.capacity (c.alive now) ++ [⟨k, v, now⟩] }

def LruCache.remove (c : LruCache K V) (k : K) : LruCache K V := { c with entries := c.entries.filter fun e => e.key ≠ k }

def LruCache.pushedOut (c : LruCache K V) (now : Nat) (k : K) : List (LruEntry K V) :=
  match c.capacity, c.lookup now k with
  | some cap, none => (c.alive now).take ((c.alive now).length + 1 - cap)
  | _, _ => []

/-! ## 1. One entry for a key -/

def LruCache.Unique (c : LruCache K V) : Prop := (c.entries.map LruEntry.key).Nodup

variable {c : LruCache K V} {e : LruEntry K V} {now : Nat}

omit [DecidableEq K] in
theorem LruCache.mem_alive : e ∈ c.alive now ↔ e ∈ c.entries ∧ now ≤ e.used + c.ttl := by
  simp [LruCache.alive]

omit [DecidableEq K] in
theorem LruCache.Unique.eq (h : c.Unique) {e' : LruEntry K V} (he : e ∈ c.entries) (he' : e' ∈ c.entries)
    (hkey : e.key = e'.key) : e = e' :=
  inj_on_of_nodup_map h he he' hkey

variable {k : K} {v : V}

theorem LruCache.lookup_eq_some (h : c.Unique) :
    c.lookup now k = some v ↔ ∃ e ∈ c.alive now, e.key = k ∧ e.value = v := by
  unfold lookup
  constructor
  · intro hv
    obtain ⟨e, he, rfl⟩ := map_eq_some_iff.mp hv
    exact ⟨e, mem_of_find?_eq_some he, by simpa using find?_some he, rfl⟩
  rintro ⟨e, he, rfl, rfl⟩
  cases hf : (c.alive now).find? fun x => x.key = e.key with
  | none =>
    have hne := find?_eq_none.mp hf e he
    simp at hne
  | some e' =>
    have hkey : e'.key = e.key := by simpa using find?_some hf
    have := h.eq (mem_alive.mp (mem_of_find?_eq_some hf)).1 (mem_alive.mp he).1 hkey
    rw [this]
    rfl

theorem LruCache.lookup_eq_none : c.lookup now k = none ↔ ∀ e ∈ c.alive now, e.key ≠ k := by
  simp [lookup]

omit [DecidableEq K] in
theorem LruCache.Unique.sweep (h : c.Unique) (now : Nat) : (c.sweep now).Unique :=
  (filter_sublist.map LruEntry.key).nodup h

theorem LruCache.Unique.touch (h : c.Unique) (now : Nat) (k : K) (v : V) : (c.touch now k v).Unique := by
  unfold LruCache.Unique LruCache.touch
  simp only [map_append, map_cons, map_nil]
  refine nodup_append.mpr ⟨?_, nodup_singleton k, ?_⟩
  · exact ((filter_sublist.trans filter_sublist).map LruEntry.key).nodup h
  · intro a ha b hb
    obtain ⟨e, he, rfl⟩ := mem_map.mp ha
    rw [mem_singleton.mp hb]
    simpa using (mem_filter.mp he).2

theorem LruCache.Unique.get (h : c.Unique) (now : Nat) (k : K) : (c.get now k).2.Unique := by
  unfold LruCache.get
  split
  · exact h.touch now k _
  · exact h.sweep now

omit [DecidableEq K] in
theorem evict_sublist (capacity : Option Nat) (es : List (LruEntry K V)) : (evict capacity es).Sublist es := by
  cases capacity with
  | none => exact List.Sublist.refl es
  | some cap => exact drop_sublist _ es

theorem LruCache.Unique.insert (h : c.Unique) (now : Nat) (k : K) (v : V) : (c.insert now k v).Unique := by
  unfold LruCache.insert
  split
  · exact h.touch now k v
  rename_i hnone
  unfold LruCache.Unique
  simp only [map_append, map_cons, map_nil]
  refine nodup_append.mpr ⟨?_, nodup_singleton k, ?_⟩
  · exact (((evict_sublist _ _).trans filter_sublist).map LruEntry.key).nodup h
  · intro a ha b hb
    obtain ⟨e, he, rfl⟩ := mem_map.mp ha
    rw [mem_singleton.mp hb]
    exact lookup_eq_none.mp hnone e ((evict_sublist _ _).subset he)

omit [DecidableEq K] in
@[simp] theorem LruCache.alive_sweep (c : LruCache K V) (now : Nat) : (c.sweep now).alive now = c.alive now := by
  refine filter_eq_self.mpr fun e he => ?_
  exact decide_eq_true (mem_alive.mp he).2

@[simp] theorem LruCache.lookup_sweep (c : LruCache K V) (now : Nat) (k : K) :
    (c.sweep now).lookup now k = c.lookup now k := by
  simp [lookup]

theorem LruCache.insert_sweep (c : LruCache K V) (now : Nat) (k : K) (v : V) :
    (c.sweep now).insert now k v = c.insert now k v := by
  simp [insert, touch]
  rfl

theorem LruCache.get_ttl (c : LruCache K V) (now : Nat) (k : K) : (c.get now k).2.ttl = c.ttl := by
  unfold get
  split
  · rfl
  · rfl

theorem LruCache.insert_ttl (c : LruCache K V) (now : Nat) (k : K) (v : V) : (c.insert now k v).ttl = c.ttl := by
  unfold insert
  split
  · rfl
  · rfl

theorem LruCache.mem_of_lookup (h : c.lookup now k = some v) : ∃ e ∈ c.entries, e.key = k ∧ e.value = v := by
  obtain ⟨e, he, hv⟩ := map_eq_some_iff.mp h
  exact ⟨e, (mem_alive.mp (mem_of_find?_eq_some he)).1, by simpa using find?_some he, hv⟩

theorem LruCache.mem_of_touch (h : e ∈ (c.touch now k v).entries) : e ∈ c.entries ∨ e = ⟨k, v, now⟩ := by
  rcases mem_append.mp h with hold | hnew
  · exact .inl (mem_alive.mp (mem_of_mem_filter hold)).1
  · exact .inr (mem_singleton.mp hnew)

theorem LruCache.mem_of_insert (h : e ∈ (c.insert now k v).entries) : e ∈ c.entries ∨ e = ⟨k, v, now⟩ := by
  unfold insert at h
  split at h
  · exact mem_of_touch h
  · rcases mem_append.mp h with hold | hnew
    · exact .inl (mem_alive.mp ((evict_sublist _ _).subset hold)).1
    · exact .inr (mem_singleton.mp hnew)

/-! ## 2. What stays -/

def LruCache.Kept (c : LruCache K V) (k : K) (v : V) (t : Nat) : Prop :=
  ∃ e ∈ c.entries, e.key = k ∧ e.value = v ∧ t ≤ e.used

variable {c : LruCache K V} {k k' : K} {v : V} {t now : Nat}

omit [DecidableEq K] in
theorem LruCache.Kept.mem_values (h : c.Kept k v t) : v ∈ c.values := by
  obtain ⟨e, he, -, rfl, -⟩ := h
  exact mem_map_of_mem he

theorem LruCache.kept_touch (c : LruCache K V) (now : Nat) (k : K) (v : V) : (c.touch now k v).Kept k v now :=
  ⟨⟨k, v, now⟩, mem_append_right _ mem_cons_self, rfl, rfl, Nat.le_refl _⟩

theorem LruCache.kept_get (hl : c.lookup now k = some v) : (c.get now k).2.Kept k v now := by
  simp only [get, hl]
  exact c.kept_touch now k v

theorem LruCache.kept_insert (c : LruCache K V) (now : Nat) (k : K) (v : V) : (c.insert now k v).Kept k v now := by
  unfold insert
  split
  · exact c.kept_touch now k v
  · exact ⟨⟨k, v, now⟩, mem_append_right _ mem_cons_self, rfl, rfl, Nat.le_refl _⟩

omit [DecidableEq K] in
theorem LruCache.Kept.sweep (h : c.Kept k v t) (hlive : now ≤ t + c.ttl) : (c.sweep now).Kept k v t := by
  obtain ⟨e, he, hk, hv, ht⟩ := h
  exact ⟨e, mem_alive.mpr ⟨he, by omega⟩, hk, hv, ht⟩

theorem LruCache.Kept.lookup (hu : c.Unique) (h : c.Kept k v t) (hlive : now ≤ t + c.ttl) :
    c.lookup now k = some v := by
  obtain ⟨e, he, hk, hv, ht⟩ := h
  exact (lookup_eq_some hu).mpr ⟨e, mem_alive.mpr ⟨he, by omega⟩, hk, hv⟩

theorem LruCache.Kept.get (hu : c.Unique) (h : c.Kept k v t) (hlive : now ≤ t + c.ttl)
    (hnow : t ≤ now) : (c.get now k').2.Kept k v t := by
  unfold LruCache.get
  by_cases hk : k' = k
  · subst hk
    rw [h.lookup hu hlive]
    exact ⟨⟨k', v, now⟩, by simp [LruCache.touch], rfl, rfl, hnow⟩
  split
  · obtain ⟨e, he, rfl, hv, ht⟩ := h
    refine ⟨e, ?_, rfl, hv, ht⟩
    have halive : e ∈ c.alive now := mem_alive.mpr ⟨he, by omega⟩
    exact mem_append_left _ (mem_filter.mpr ⟨halive, by simpa using fun h => hk h.symm⟩)
  · exact h.sweep hlive

theorem LruCache.mem_insert (he : e ∈ c.alive now) (hnew : c.lookup now k' = none) (hroom : e ∉ c.pushedOut now k')
    (v' : V) : e ∈ (c.insert now k' v').entries := by
  simp only [insert, hnew]
  refine mem_append_left _ ?_
  cases hcap : c.capacity with
  | none => exact he
  | some cap =>
    simp only [pushedOut, hcap, hnew] at hroom
    rw [← take_append_drop ((c.alive now).length + 1 - cap) (c.alive now)] at he
    rcases mem_append.mp he with hout | hin
    · exact absurd hout hroom
    · exact hin

theorem LruCache.Kept.insert (h : c.Kept k v t) (hlive : now ≤ t + c.ttl)
    (hnew : c.lookup now k' = none) (hroom : ∀ e ∈ c.pushedOut now k', e.used < t) (v' : V) :
    (c.insert now k' v').Kept k v t := by
  obtain ⟨e, he, hk, hv, ht⟩ := h
  have hstays : e ∉ c.pushedOut now k' := fun hout => by
    have := hroom e hout
    omega
  exact ⟨e, mem_insert (mem_alive.mpr ⟨he, by omega⟩) hnew hstays v', hk, hv, ht⟩

theorem LruCache.lookup_get_other (hu : c.Unique) (h : c.lookup now k = some v) (hk : k' ≠ k) :
    (c.get now k').2.lookup now k = some v := by
  obtain ⟨e, he, rfl, rfl⟩ := (lookup_eq_some hu).mp h
  have hlive := (mem_alive.mp he).2
  refine (lookup_eq_some (hu.get now k')).mpr ⟨e, ?_, rfl, rfl⟩
  unfold get
  split
  · refine mem_alive.mpr ⟨mem_append_left _ (mem_filter.mpr ⟨he, ?_⟩), hlive⟩
    simpa using fun heq => hk heq.symm
  · exact mem_alive.mpr ⟨he, hlive⟩

theorem LruCache.lookup_insert_other (hu : c.Unique) (h : c.lookup now k = some v)
    (hnew : c.lookup now k' = none) (hroom : ∀ e ∈ c.pushedOut now k', e.key ≠ k) (v' : V) :
    (c.insert now k' v').lookup now k = some v := by
  obtain ⟨e, he, rfl, rfl⟩ := (lookup_eq_some hu).mp h
  have hstays : e ∉ c.pushedOut now k' := fun hout => hroom e hout rfl
  refine (lookup_eq_some (hu.insert now k' v')).mpr ⟨e, mem_alive.mpr ⟨?_, ?_⟩, rfl, rfl⟩
  · exact mem_insert he hnew hstays v'
  · rw [insert_ttl]
    exact (mem_alive.mp he).2

/-! ## 3. A cache as a memory of recent uses -/

structure LruCache.Recent (c : LruCache K V) (uses : List (K × Nat)) (now : Nat) : Prop where
  past : ∀ x ∈ uses, x.2 ≤ now
  found : ∀ now', now ≤ now' → ∀ k, (c.lookup now' k).isSome ↔ ∃ t, (k, t) ∈ uses ∧ now' ≤ t + c.ttl

theorem LruCache.lookup_isSome : (c.lookup now k).isSome ↔ ∃ e ∈ c.alive now, e.key = k := by
  rw [isSome_iff_ne_none, ne_eq, lookup_eq_none]
  simp

theorem LruCache.recent_empty (ttl now : Nat) : (withExpiryDuration ttl : LruCache K V).Recent [] now :=
  ⟨nofun, fun now' _ k => by simp [lookup, alive, withExpiryDuration]⟩

variable {uses : List (K × Nat)}

theorem LruCache.Recent.later {n : Nat} (h : c.Recent uses now) (hn : now ≤ n) : c.Recent uses n :=
  ⟨fun x hx => Nat.le_trans (h.past x hx) hn, fun now' hnow' => h.found now' (Nat.le_trans hn hnow')⟩

theorem LruCache.insert_unbounded (hcap : c.capacity = none) (now : Nat) (k : K) (v : V) :
    c.insert now k v = c.touch now k v := by
  unfold insert
  split
  · rfl
  · rename_i hnone
    have hall : ((c.alive now).filter fun e => e.key ≠ k) = c.alive now :=
      filter_eq_self.mpr fun e he => decide_eq_true (lookup_eq_none.mp hnone e he)
    rw [touch, hall, hcap, evict]

theorem LruCache.lookup_touch (c : LruCache K V) (now : Nat) (k k' : K) (v : V) :
    (c.touch now k v).lookup now k' = if k' = k then some v else c.lookup now k' := by
  have halive : (c.touch now k v).alive now = ((c.alive now).filter fun e => e.key ≠ k) ++ [⟨k, v, now⟩] := by
    refine filter_eq_self.mpr fun e he => ?_
    rcases mem_append.mp he with hold | hnew
    · exact decide_eq_true (mem_alive.mp (mem_of_mem_filter hold)).2
    · rw [mem_singleton.mp hnew]
      exact decide_eq_true (Nat.le_add_right _ _)
  unfold lookup
  rw [halive, find?_append, find?_filter]
  by_cases heq : k' = k
  · have hnone : (c.alive now).find? (fun _ => false) = none := by simp
    simp [heq, hnone]
  · have hsame : ∀ e : LruEntry K V, (e.key ≠ k ∧ e.key = k') ↔ e.key = k' :=
      fun e => and_iff_right_of_imp fun he => he ▸ heq
    simp [hsame, heq, Ne.symm heq]

theorem LruCache.mem_alive_touch {now' : Nat} (hnow : now ≤ now') (k : K) (v : V) : e ∈ (c.touch now k v).alive now' ↔
      (e ∈ c.alive now' ∧ e.key ≠ k) ∨ (e = ⟨k, v, now⟩ ∧ now' ≤ now + c.ttl) := by
  have httl : (c.touch now k v).ttl = c.ttl := rfl
  rw [mem_alive, mem_alive, httl]
  constructor
  · rintro ⟨hmem, hlive⟩
    rcases mem_append.mp hmem with hold | hnew
    · obtain ⟨hin, hkey⟩ := mem_filter.mp hold
      exact .inl ⟨⟨(mem_alive.mp hin).1, hlive⟩, of_decide_eq_true hkey⟩
    · obtain rfl := mem_singleton.mp hnew
      exact .inr ⟨rfl, hlive⟩
  · rintro (⟨⟨hin, hlive⟩, hkey⟩ | ⟨rfl, hlive⟩)
    · have hin' : e ∈ c.alive now := mem_alive.mpr ⟨hin, by omega⟩
      exact ⟨mem_append_left _ (mem_filter.mpr ⟨hin', decide_eq_true hkey⟩), hlive⟩
    · exact ⟨mem_append_right _ mem_cons_self, hlive⟩

theorem LruCache.Recent.touch {n : Nat} (h : c.Recent uses now) (hn : now ≤ n)
    (k : K) (v : V) : (c.touch n k v).Recent (uses ++ [(k, n)]) n := by
  refine ⟨fun x hx => ?_, fun now' hnow' k' => ?_⟩
  · rcases mem_append.mp hx with hold | hnew
    · exact Nat.le_trans (h.past x hold) hn
    · obtain rfl := mem_singleton.mp hnew
      exact Nat.le_refl n
  have hold := lookup_isSome.symm.trans (h.found now' (Nat.le_trans hn hnow') k')
  have httl : (c.touch n k v).ttl = c.ttl := rfl
  rw [lookup_isSome, httl]
  by_cases hk : k' = k
  · subst hk
    -- the new use is the latest, so it alone decides
    have hlatest : (∃ t, (k', t) ∈ uses ++ [(k', n)] ∧ now' ≤ t + c.ttl) ↔ now' ≤ n + c.ttl := by
      refine ⟨fun ⟨t, ht, hlive⟩ => ?_, fun hlive => ⟨n, by simp, hlive⟩⟩
      rcases mem_append.mp ht with hin | hin
      · have := h.past _ hin
        omega
      · obtain rfl : t = n := (Prod.mk.inj (mem_singleton.mp hin)).2
        exact hlive
    rw [hlatest]
    constructor
    · rintro ⟨e, he, hkey⟩
      rcases (mem_alive_touch hnow' k' v).mp he with ⟨-, hne⟩ | ⟨-, hlive⟩
      · exact absurd hkey hne
      · exact hlive
    · intro hlive
      exact ⟨⟨k', v, n⟩, (mem_alive_touch hnow' k' v).mpr (.inr ⟨rfl, hlive⟩), rfl⟩
  have huses : (∃ t, (k', t) ∈ uses ++ [(k, n)] ∧ now' ≤ t + c.ttl) ↔
      ∃ t, (k', t) ∈ uses ∧ now' ≤ t + c.ttl := by simp [hk]
  rw [huses, ← hold]
  constructor
  · rintro ⟨e, he, hkey⟩
    rcases (mem_alive_touch hnow' k v).mp he with ⟨hin, -⟩ | ⟨rfl, -⟩
    · exact ⟨e, hin, hkey⟩
    · exact absurd hkey.symm hk
  · rintro ⟨e, he, rfl⟩
    exact ⟨e, (mem_alive_touch hnow' k v).mpr (.inl ⟨he, hk⟩), rfl⟩

end Lib
