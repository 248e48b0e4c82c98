import Mathlib.Data.List.Infix

/-!
# Reading a list in pieces

`reads n xs` are the pieces that repeated reads of at most `n` elements return before
the first empty one. Looking at one piece at a time finds a pattern if and only if
some occurrence of the pattern lies inside one piece.
-/

namespace Chunks

set_option autoImplicit false

universe u

variable {α : Type u} {n fuel fuel' p : Nat} {xs pattern : List α}

def readsFrom (n : Nat) : Nat → List α → List (List α)
  | 0, _ => []
  | _ + 1, [] => []
  | fuel + 1, x :: xs => (x :: xs).take n :: readsFrom n fuel ((x :: xs).drop n)

/-- One read for each element is enough. -/
def reads (n : Nat) (xs : List α) : List (List α) := readsFrom n xs.length xs

theorem readsFrom_eq (hn : 0 < n) (hf : xs.length ≤ fuel) (hf' : xs.length ≤ fuel') :
    readsFrom n fuel xs = readsFrom n fuel' xs := by
  induction fuel generalizing xs fuel' with
  | zero =>
    obtain rfl := List.length_eq_zero_iff.mp (Nat.le_zero.mp hf)
    cases fuel' <;> rfl
  | succ fuel ih =>
    cases xs with
    | nil => cases fuel' <;> rfl
    | cons x xs =>
      cases fuel' with
      | zero => cases hf'
      | succ fuel' =>
        rw [readsFrom, readsFrom]
        simp only [List.length_cons] at hf hf'
        congr 1
        refine ih ?_ ?_ <;> simp only [List.length_drop, List.length_cons] <;> omega

theorem reads_of_ne_nil (hn : 0 < n) (hxs : xs ≠ []) :
    reads n xs = xs.take n :: reads n (xs.drop n) := by
  obtain ⟨x, xs, rfl⟩ := List.exists_cons_of_ne_nil hxs
  rw [reads, List.length_cons, readsFrom]
  congr 1
  refine readsFrom_eq hn ?_ le_rfl
  simp only [List.length_drop, List.length_cons]
  omega

/-- What fits in one piece is read at once. -/
theorem reads_of_length_le (hxs : xs ≠ []) (hn : xs.length ≤ n) : reads n xs = [xs] := by
  have hpos := List.length_pos_of_ne_nil hxs
  rw [reads_of_ne_nil (by omega) hxs, List.take_of_length_le hn, List.drop_of_length_le hn]
  rfl

theorem flatten_reads (hn : 0 < n) (xs : List α) : (reads n xs).flatten = xs := by
  induction hl : xs.length using Nat.strong_induction_on generalizing xs with
  | _ l ih =>
    by_cases hxs : xs = []
    · subst hxs
      rfl
    · have hpos := List.length_pos_of_ne_nil hxs
      rw [reads_of_ne_nil hn hxs, List.flatten_cons,
        ih (xs.drop n).length (by rw [List.length_drop]; omega) _ rfl, List.take_append_drop]

theorem mem_reads (hn : 0 < n) {piece : List α} (h : piece ∈ reads n xs) :
    piece ≠ [] ∧ piece.length ≤ n := by
  induction hl : xs.length using Nat.strong_induction_on generalizing xs with
  | _ l ih =>
    by_cases hxs : xs = []
    · subst hxs
      cases h
    · have hpos := List.length_pos_of_ne_nil hxs
      rw [reads_of_ne_nil hn hxs] at h
      rcases List.mem_cons.mp h with rfl | h
      · constructor
        · apply List.ne_nil_of_length_pos
          rw [List.length_take]
          omega
        · exact List.length_take_le n xs
      · exact ih (xs.drop n).length (by rw [List.length_drop]; omega) h rfl

/-- The pattern stands at position `p`. -/
def OccursAt (pattern xs : List α) (p : Nat) : Prop := pattern <+: xs.drop p

theorem infix_iff_occursAt : pattern <:+: xs ↔ ∃ p, OccursAt pattern xs p := by
  constructor
  · rintro ⟨front, back, rfl⟩
    refine ⟨front.length, back, ?_⟩
    rw [List.append_assoc, List.drop_left]
  · rintro ⟨p, hp⟩
    exact hp.isInfix.trans (List.drop_suffix p xs).isInfix

theorem infix_take_iff (n : Nat) (xs pattern : List α) :
    pattern <:+: xs.take n ∧ pattern ≠ [] ↔
      ∃ p, p + pattern.length ≤ n ∧ OccursAt pattern xs p ∧ pattern ≠ [] := by
  constructor
  · rintro ⟨⟨front, back, hfront⟩, hne⟩
    have hlength := congrArg List.length hfront
    simp only [List.length_append, List.length_take] at hlength
    refine ⟨front.length, by omega, ⟨back ++ xs.drop n, ?_⟩, hne⟩
    have hxs : front ++ (pattern ++ (back ++ xs.drop n)) = xs := by
      rw [← List.append_assoc, ← List.append_assoc, hfront, List.take_append_drop]
    conv_rhs => rw [← hxs, List.drop_left]
  · rintro ⟨p, hle, ⟨back, hback⟩, hne⟩
    refine ⟨⟨xs.take p, back.take (n - (p + pattern.length)), ?_⟩, hne⟩
    have hp : p ≤ xs.length := by
      by_contra hlong
      rw [List.drop_of_length_le (by omega)] at hback
      exact hne (List.append_eq_nil_iff.mp hback).1
    rw [List.append_assoc]
    conv_rhs => rw [← List.take_append_drop p xs, ← hback]
    rw [List.take_append, List.take_append, List.length_take, Nat.min_eq_left hp,
      List.take_of_length_le (l := xs.take p) (by rw [List.length_take]; omega),
      List.take_of_length_le (l := pattern) (by omega)]
    congr 3
    omega

/-- Piece by piece the pattern is found if and only if one occurrence begins and ends in
the same piece. -/
theorem found_iff (xs : List α) (hn : 0 < n) (hne : pattern ≠ []) :
    (∃ piece ∈ reads n xs, pattern <:+: piece) ↔
      ∃ p, OccursAt pattern xs p ∧ p / n = (p + (pattern.length - 1)) / n := by
  have hpos := List.length_pos_of_ne_nil hne
  induction hl : xs.length using Nat.strong_induction_on generalizing xs with
  | _ l ih =>
    by_cases hxs : xs = []
    · subst hxs
      simp [reads, readsFrom, OccursAt, hne]
    · have hlength := List.length_pos_of_ne_nil hxs
      have hrest : (∃ piece ∈ reads n (xs.drop n), pattern <:+: piece) ↔ _ :=
        ih (xs.drop n).length (by rw [List.length_drop]; omega) (xs.drop n) rfl
      have hfirst := infix_take_iff n xs pattern
      simp only [hne, ne_eq, not_false_eq_true, and_true] at hfirst
      simp only [reads_of_ne_nil hn hxs, List.mem_cons, exists_eq_or_imp]
      rw [hrest, hfirst]
      constructor
      · rintro (⟨p, hle, hp⟩ | ⟨p, hp, hsame⟩)
        · refine ⟨p, hp, ?_⟩
          rw [Nat.div_eq_of_lt (by omega), Nat.div_eq_of_lt (by omega)]
        · refine ⟨p + n, ?_, ?_⟩
          · rwa [OccursAt, Nat.add_comm, ← List.drop_drop]
          · rw [Nat.add_right_comm, Nat.add_div_right _ hn, Nat.add_div_right _ hn, hsame]
      · rintro ⟨p, hp, hsame⟩
        rcases Nat.lt_or_ge p n with hlt | hge
        · refine .inl ⟨p, ?_, hp⟩
          rw [Nat.div_eq_of_lt hlt] at hsame
          have hlast := (Nat.div_eq_zero_iff_lt hn).mp hsame.symm
          omega
        · obtain ⟨q, rfl⟩ := Nat.exists_eq_add_of_le hge
          refine .inr ⟨q, ?_, ?_⟩
          · rwa [OccursAt, List.drop_drop]
          · rw [Nat.add_assoc, Nat.add_comm n, Nat.add_comm n, Nat.add_div_right _ hn,
              Nat.add_div_right _ hn] at hsame
            omega

end Chunks
