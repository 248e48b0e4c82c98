import Mathlib.Data.List.Nodup
import Mathlib.Data.List.Pairwise
import Mathlib.Order.Lattice

/-!
# Lists sorted by a key

Rows are compared by a key in a linear order; rows with equal keys may stand either
way round. A prefix of a sorted list is the same set of rows in every order the
database may choose, as long as no key has rows on both sides of the cut.
-/

namespace SortedByKey

set_option autoImplicit false

universe u v

variable {α : Type u} {κ : Type v} [LinearOrder κ] {key : α → κ}

def Sorted (key : α → κ) (l : List α) : Prop := l.Pairwise fun a b => key a ≤ key b

def Ascending (key : α → κ) (l : List α) : Prop := l.Pairwise fun a b => key a < key b

section AscendingLists

theorem Ascending.sorted {l : List α} (h : Ascending key l) : Sorted key l :=
  h.imp le_of_lt

theorem Ascending.nodup_map {l : List α} (h : Ascending key l) : (l.map key).Nodup := by
  rw [List.Nodup, List.pairwise_map]
  exact h.imp ne_of_lt

theorem Ascending.nodup {l : List α} (h : Ascending key l) : l.Nodup :=
  h.nodup_map.of_map key

theorem Ascending.le_last {l : List α} {last a : α} (h : Ascending key l)
    (hlast : l.getLast? = some last) (ha : a ∈ l) : key a ≤ key last := by
  obtain ⟨front, rfl⟩ := List.getLast?_eq_some_iff.mp hlast
  rcases List.mem_append.mp ha with hfront | ha
  · exact ((List.pairwise_append.mp h).2.2 a hfront last (List.mem_singleton_self _)).le
  · rw [List.mem_singleton.mp ha]

/-- Whoever is not behind the last of a prefix is in the prefix. -/
theorem Ascending.mem_take {l : List α} {last a : α} {n : Nat} (h : Ascending key l)
    (hlast : (l.take n).getLast? = some last) (ha : a ∈ l) (hle : key a ≤ key last) :
    a ∈ l.take n := by
  rw [← List.take_append_drop n l] at ha h
  rcases List.mem_append.mp ha with hfront | hback
  · exact hfront
  · have hlt := (List.pairwise_append.mp h).2.2 last (List.mem_of_getLast? hlast) a hback
    exact absurd hle (not_le.mpr hlt)

theorem ascending_of_nodup {l : List α} (h : Sorted key l) (hnodup : (l.map key).Nodup) :
    Ascending key l := by
  rw [List.Nodup, List.pairwise_map] at hnodup
  exact (h.and hnodup).imp fun hab => lt_of_le_of_ne hab.1 hab.2

/-- With one row a key there is one way to sort. -/
theorem eq_of_perm {l l' : List α} (h : Ascending key l) (h' : Ascending key l')
    (hperm : l.Perm l') : l = l' := by
  refine hperm.eq_of_pairwise ?_ h h'
  intro a b _ _ hab hba
  exact absurd hab hba.asymm

/-- Ascending lists with the same members are equal. -/
theorem Ascending.ext {l l' : List α} (h : Ascending key l) (h' : Ascending key l')
    (hmem : ∀ a, a ∈ l ↔ a ∈ l') : l = l' :=
  eq_of_perm h h' ((List.perm_ext_iff_of_nodup h.nodup h'.nodup).mpr hmem)

end AscendingLists

end SortedByKey
