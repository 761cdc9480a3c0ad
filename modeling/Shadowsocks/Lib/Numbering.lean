/-
  Subject:   NUMBERS HANDED OUT UNDER NAMES. A pair of a name and a number is never handed out twice when a name
  counts upwards and a new name was not used before.
-/
import Mathlib.Data.List.Nodup
import Mathlib.Order.Lattice

namespace Lib

variable {S α : Type} [LinearOrder α]

structure Numbered (used : List (S × α)) (name : S) (last : α) : Prop where
  nodup : used.Nodup
  upTo : ∀ n, (name, n) ∈ used → n ≤ last

namespace Numbered

variable {used : List (S × α)} {name name' : S} {last last' : α}

theorem start (name : S) (last : α) : Numbered [] name last := ⟨List.nodup_nil, nofun⟩

theorem skip (h : Numbered used name last) (hle : last ≤ last') : Numbered used name last' :=
  ⟨h.nodup, fun n hn => (h.upTo n hn).trans hle⟩

theorem renew (h : used.Nodup) (hnew : ∀ n, (name, n) ∉ used) : Numbered used name last :=
  ⟨h, fun n hn => absurd hn (hnew n)⟩

theorem nodup_next (h : Numbered used name last) (hlt : last < last') : (used ++ [(name, last')]).Nodup := by
  refine List.nodup_append.mpr ⟨h.nodup, List.nodup_singleton _, ?_⟩
  intro x hx y hy hxy
  rw [List.mem_singleton.mp hy] at hxy
  subst hxy
  exact absurd (h.upTo last' hx) (not_le.mpr hlt)

theorem next (h : Numbered used name last) (hlt : last < last') : Numbered (used ++ [(name, last')]) name last' := by
  refine ⟨h.nodup_next hlt, fun n hn => ?_⟩
  rcases List.mem_append.mp hn with hold | hlast
  · exact (h.upTo n hold).trans hlt.le
  · rw [(Prod.mk.inj (List.mem_singleton.mp hlast)).2]

end Numbered

end Lib
