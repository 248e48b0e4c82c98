import Mathlib.Data.List.Basic

/-!
# Loops that an exception leaves

`visit raises xs` goes through `xs` and does something with each element that may raise. The
first exception ends the loop; the elements before it are done, the others are not tried.

`retry handle pauses missed xs` is a loop over arrivals that starts again after an exception,
but not at once: of what arrives in the meantime it misses as many as `pauses` says.
-/

namespace RaisingLoop

set_option autoImplicit false

universe u v

variable {α : Type u} {ε : Type v} {raises : α → Option ε} {xs : List α}

/-- The elements that are done, and the exception that ended the loop. -/
def visit (raises : α → Option ε) : List α → List α × Option ε
  | [] => ([], none)
  | x :: xs =>
    match raises x with
    | some e => ([], some e)
    | none => (x :: (visit raises xs).1, (visit raises xs).2)

theorem visit_cons_of_raises {x : α} {e : ε} (h : raises x = some e) :
    visit raises (x :: xs) = ([], some e) := by
  rw [visit, h]

theorem visit_cons_of_none {x : α} (h : raises x = none) :
    visit raises (x :: xs) = (x :: (visit raises xs).1, (visit raises xs).2) := by
  rw [visit, h]

/-- The loop comes to its end just when nothing raises. -/
theorem visit_returns_iff : (visit raises xs).2 = none ↔ ∀ x ∈ xs, raises x = none := by
  induction xs with
  | nil => simp [visit]
  | cons x xs ih =>
    cases hx : raises x with
    | some e => simp [visit_cons_of_raises hx, hx]
    | none => simp [visit_cons_of_none hx, hx, ih]

/-- Only elements that do not raise are done. -/
theorem visit_sublist_healthy :
    ((visit raises xs).1).Sublist (xs.filter fun x => (raises x).isNone) := by
  induction xs with
  | nil => exact List.Sublist.refl _
  | cons x xs ih =>
    cases hx : raises x with
    | some e =>
      rw [visit_cons_of_raises hx]
      exact List.nil_sublist _
    | none =>
      rw [visit_cons_of_none hx, List.filter_cons_of_pos (by rw [hx]; rfl)]
      exact ih.cons_cons x

/-- An element that raises comes after all that do not. -/
def RaisesLast (raises : α → Option ε) (xs : List α) : Prop :=
  ∀ front x back, xs = front ++ x :: back → raises x ≠ none → ∀ y ∈ back, raises y ≠ none

theorem raisesLast_cons_of_none {x : α} (h : raises x = none) :
    RaisesLast raises (x :: xs) ↔ RaisesLast raises xs := by
  constructor
  · intro hlast front y back heq
    exact hlast (x :: front) y back (by rw [heq, List.cons_append])
  · intro hlast front y back heq hy
    cases front with
    | nil =>
      obtain ⟨rfl, rfl⟩ := List.cons.inj heq
      exact absurd h hy
    | cons z front =>
      exact hlast front y back (List.cons.inj heq).2 hy

theorem raisesLast_cons_of_raises {x : α} (h : raises x ≠ none) :
    RaisesLast raises (x :: xs) ↔ ∀ y ∈ xs, raises y ≠ none := by
  constructor
  · intro hlast
    exact hlast [] x xs rfl h
  · intro hall front y back heq _ z hz
    cases front with
    | nil =>
      obtain ⟨rfl, rfl⟩ := List.cons.inj heq
      exact hall z hz
    | cons w front =>
      rw [(List.cons.inj heq).2] at hall
      exact hall z (List.mem_append_right front (List.mem_cons_of_mem y hz))

/-- No element that does not raise is left out just when the others come last. -/
theorem visit_eq_healthy_iff :
    (visit raises xs).1 = xs.filter (fun x => (raises x).isNone) ↔ RaisesLast raises xs := by
  induction xs with
  | nil => simp [visit, RaisesLast]
  | cons x xs ih =>
    cases hx : raises x with
    | some e =>
      rw [visit_cons_of_raises hx, List.filter_cons_of_neg (by rw [hx]; simp),
        raisesLast_cons_of_raises (by rw [hx]; simp), eq_comm, List.filter_eq_nil_iff]
      simp only [Option.isNone_iff_eq_none, ne_eq]
    | none =>
      rw [visit_cons_of_none hx, List.filter_cons_of_pos (by rw [hx]; rfl),
        raisesLast_cons_of_none hx, ← ih, List.cons_inj_right]

section Retry

variable {β : Type v}

def retry (handle : α → List β × Bool) : List Nat → Nat → List α → List β
  | _, _, [] => []
  | pauses, missed + 1, _ :: xs => retry handle pauses missed xs
  | pauses, 0, x :: xs =>
    if (handle x).2 then (handle x).1 ++ retry handle pauses.tail (pauses.headD 0) xs
    else (handle x).1 ++ retry handle pauses 0 xs

variable {handle : α → List β × Bool} {due : α → List β}

theorem retry_missed (pauses : List Nat) (xs : List α) :
    retry handle pauses xs.length xs = [] := by
  induction xs with
  | nil => rfl
  | cons x xs ih => exact ih

/-- A handler that does only what is due does no more under any pauses. -/
theorem retry_sublist (hpart : ∀ x, ((handle x).1).Sublist (due x)) (pauses : List Nat)
    (missed : Nat) (xs : List α) :
    (retry handle pauses missed xs).Sublist (xs.flatMap due) := by
  induction xs generalizing pauses missed with
  | nil => exact List.Sublist.refl _
  | cons x xs ih =>
    rw [List.flatMap_cons]
    cases missed with
    | succ missed => exact (ih pauses missed).trans (List.sublist_append_right _ _)
    | zero =>
      rw [retry]
      split
      · exact (hpart x).append (ih _ _)
      · exact (hpart x).append (ih _ _)

theorem append_eq_iff_of_sublist {as as' bs bs' : List β} (h : as.Sublist bs)
    (h' : as'.Sublist bs') : as ++ as' = bs ++ bs' ↔ as = bs ∧ as' = bs' := by
  constructor
  · intro heq
    have hlength := congrArg List.length heq
    rw [List.length_append, List.length_append] at hlength
    have hle := h.length_le
    have hle' := h'.length_le
    exact ⟨h.eq_of_length (by omega), h'.eq_of_length (by omega)⟩
  · rintro ⟨rfl, rfl⟩
    rfl

/-- Each place of a list with what comes behind it: the head and the places of the tail. -/
theorem forall_split_cons {P : α → List α → Prop} {x : α} :
    (∀ front y back, x :: xs = front ++ y :: back → P y back) ↔
      P x xs ∧ ∀ front y back, xs = front ++ y :: back → P y back := by
  constructor
  · intro hall
    refine ⟨hall [] x xs rfl, ?_⟩
    intro front y back heq
    exact hall (x :: front) y back (by rw [heq, List.cons_append])
  · rintro ⟨hfirst, hrest⟩ front y back heq
    cases front with
    | nil =>
      obtain ⟨rfl, rfl⟩ := List.cons.inj heq
      exact hfirst
    | cons z front => exact hrest front y back (List.cons.inj heq).2

/-- What is due is done under all pauses just when every element gets what is due to it where
it is handled, and nothing is due after one that raises. -/
theorem retry_eq_due_iff (hpart : ∀ x, ((handle x).1).Sublist (due x)) :
    (∀ pauses, retry handle pauses 0 xs = xs.flatMap due) ↔
      (∀ x ∈ xs, (handle x).1 = due x) ∧
      ∀ front x back, xs = front ++ x :: back → (handle x).2 = true → ∀ y ∈ back, due y = [] := by
  induction xs with
  | nil => simp [retry]
  | cons x xs ih =>
    rw [forall_split_cons (P := fun y back => (handle y).2 = true → ∀ z ∈ back, due z = []),
      List.forall_mem_cons, and_and_and_comm, ← ih]
    cases hx : (handle x).2 with
    | false =>
      simp only [retry, hx, List.flatMap_cons, Bool.false_eq_true, if_false, false_implies,
        and_true]
      constructor
      · intro hall
        have hsplit := fun pauses => (append_eq_iff_of_sublist (hpart x)
          (retry_sublist hpart pauses 0 xs)).mp (hall pauses)
        exact ⟨(hsplit []).1, fun pauses => (hsplit pauses).2⟩
      · rintro ⟨hdone, hrest⟩ pauses
        rw [hdone, hrest pauses]
    | true =>
      simp only [retry, hx, if_true, List.flatMap_cons, true_implies]
      constructor
      · intro hall
        -- the pause may last to the end
        have hlost := hall [xs.length]
        simp only [List.tail_cons, List.headD_cons, retry_missed] at hlost
        obtain ⟨hdone, hnil⟩ :=
          (append_eq_iff_of_sublist (hpart x) (List.nil_sublist _)).mp hlost
        refine ⟨⟨hdone, List.flatMap_eq_nil_iff.mp hnil.symm⟩, ?_⟩
        intro pauses
        have hrest := retry_sublist hpart pauses 0 xs
        rw [← hnil] at hrest ⊢
        exact List.sublist_nil.mp hrest
      · rintro ⟨⟨hdone, hnone⟩, _⟩ pauses
        have hnil : xs.flatMap due = [] := List.flatMap_eq_nil_iff.mpr hnone
        have hrest := retry_sublist hpart pauses.tail (pauses.headD 0) xs
        rw [hnil] at hrest ⊢
        rw [hdone, List.sublist_nil.mp hrest]

end Retry

end RaisingLoop
