import Mathlib.Data.List.TakeWhile

/-!
# Names joined by separators

A list cut at the first occurrence of a separator determines both of its parts. `cut` finds
them.
-/

namespace Separators

set_option autoImplicit false

universe u

variable {α : Type u} {sep : α} {a b c d : List α}

theorem append_sep_inj (ha : sep ∉ a) (hb : sep ∉ b) (h : a ++ sep :: c = b ++ sep :: d) :
    a = b ∧ c = d := by
  induction a generalizing b with
  | nil =>
    cases b with
    | nil => exact ⟨rfl, List.tail_eq_of_cons_eq h⟩
    | cons y b =>
      obtain rfl : sep = y := List.head_eq_of_cons_eq h
      exact absurd List.mem_cons_self hb
  | cons x a ih =>
    cases b with
    | nil =>
      obtain rfl : x = sep := List.head_eq_of_cons_eq h
      exact absurd List.mem_cons_self ha
    | cons y b =>
      obtain rfl : x = y := List.head_eq_of_cons_eq h
      simp only [List.mem_cons, not_or] at ha hb
      obtain ⟨rfl, rfl⟩ := ih ha.2 hb.2 (List.tail_eq_of_cons_eq h)
      exact ⟨rfl, rfl⟩

section Cuts

variable [DecidableEq α] {l : List α}

/-- What comes before the first separator, and what comes after it. -/
def cut (sep : α) : List α → Option (List α × List α)
  | [] => none
  | c :: l => if c = sep then some ([], l) else (cut sep l).map fun p => (c :: p.1, p.2)

theorem cut_append (ha : sep ∉ a) (b : List α) : cut sep (a ++ sep :: b) = some (a, b) := by
  induction a with
  | nil => rw [List.nil_append, cut, if_pos rfl]
  | cons c a ih =>
    have hc : c ≠ sep := fun h => ha (h ▸ List.mem_cons_self)
    rw [List.cons_append, cut, if_neg hc, ih fun h => ha (List.mem_cons_of_mem c h)]
    rfl

theorem eq_of_cut (h : cut sep l = some (a, b)) : sep ∉ a ∧ l = a ++ sep :: b := by
  induction l generalizing a with
  | nil => cases h
  | cons c l ih =>
    unfold cut at h
    split at h
    · rename_i hc
      cases h
      exact ⟨List.not_mem_nil, by rw [hc]; rfl⟩
    · rename_i hc
      obtain ⟨⟨a', b'⟩, hcut, heq⟩ := Option.map_eq_some_iff.mp h
      cases heq
      obtain ⟨hnot, rfl⟩ := ih hcut
      exact ⟨by simp [hnot, Ne.symm hc], rfl⟩

theorem cut_eq_some_iff : cut sep l = some (a, b) ↔ sep ∉ a ∧ l = a ++ sep :: b := by
  constructor
  · exact eq_of_cut
  · rintro ⟨ha, rfl⟩
    exact cut_append ha b

theorem takeWhile_append_sep (ha : sep ∉ a) (b : List α) :
    (a ++ sep :: b).takeWhile (· ≠ sep) = a := by
  have hall : ∀ c ∈ a, decide (c ≠ sep) = true := by
    intro c hc
    simpa using fun h : c = sep => ha (h ▸ hc)
  rw [List.takeWhile_append_of_pos hall, List.takeWhile_cons_of_neg (by simp), List.append_nil]

theorem takeWhile_of_not_mem (h : sep ∉ l) : l.takeWhile (· ≠ sep) = l := by
  apply List.takeWhile_eq_self_iff.mpr
  intro c hc
  simpa using fun heq : c = sep => h (heq ▸ hc)

/-- The front of a list is what it begins with, up to the separator or the end. -/
theorem takeWhile_eq_iff (ha : sep ∉ a) :
    l.takeWhile (· ≠ sep) = a ↔ l = a ∨ a ++ [sep] <+: l := by
  constructor
  · intro h
    by_cases hmem : sep ∈ l
    · obtain ⟨front, rest, rfl, hfront⟩ := List.eq_append_cons_of_mem hmem
      rw [takeWhile_append_sep hfront] at h
      subst h
      exact Or.inr ⟨rest, by simp⟩
    · rw [takeWhile_of_not_mem hmem] at h
      exact Or.inl h
  · rintro (rfl | ⟨rest, rfl⟩)
    · exact takeWhile_of_not_mem ha
    · rw [List.append_assoc]
      exact takeWhile_append_sep ha rest

end Cuts

end Separators
