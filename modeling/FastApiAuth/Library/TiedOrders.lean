import Mathlib.Data.List.Perm.Basic
import Mathlib.Data.List.Pairwise

/-!
# Lists sorted up to ties

`r a b` allows `a` to stand before `b`; rows for which both directions are allowed are
tied, and a list may have them either way round. Cutting a sorted list in two always
gives the same two sets of rows if the cut goes through no tie, and otherwise it need
not.
-/

namespace TiedOrders

set_option autoImplicit false

universe u

variable {α : Type u}

/-- Any two rows may stand in one order at least. -/
structure TotalPreorder (r : α → α → Prop) : Prop where
  total : ∀ a b, r a b ∨ r b a
  trans : ∀ {a b c}, r a b → r b c → r a c

theorem TotalPreorder.refl {r : α → α → Prop} (hr : TotalPreorder r) (a : α) : r a a :=
  (hr.total a a).elim id id

theorem TotalPreorder.pairwise_mergeSort {r : α → α → Prop} [DecidableRel r] (hr : TotalPreorder r)
    (l : List α) : (l.mergeSort fun a b => r a b).Pairwise r := by
  have hsorted := @List.pairwise_mergeSort α (fun a b => decide (r a b))
    (fun a b c hab hbc => by
      simp only [decide_eq_true_eq] at hab hbc ⊢
      exact hr.trans hab hbc)
    (fun a b => by simpa using hr.total a b) l
  exact hsorted.imp fun hab => by simpa using hab

section FrontParts

variable {p : α → Bool} {l : List α}

/-- A test that passes to every earlier row holds of as many rows as it counts. -/
theorem holds_iff_lt_countP (h : l.Pairwise fun a b => p b = true → p a = true) {i : Nat} {a : α}
    (ha : l[i]? = some a) : p a = true ↔ i < l.countP p := by
  induction l generalizing i with
  | nil => simp at ha
  | cons x l ih =>
    obtain ⟨hx, hl⟩ := List.pairwise_cons.mp h
    cases hp : p x with
    | true =>
      rw [List.countP_cons_of_pos hp]
      cases i with
      | zero =>
        obtain rfl : x = a := by simpa using ha
        simp [hp]
      | succ i =>
        rw [ih hl (by simpa using ha)]
        omega
    | false =>
      have hnone : ∀ b ∈ l, ¬ p b = true := fun b hb hpb => by
        rw [hx b hb hpb] at hp
        cases hp
      rw [List.countP_cons_of_neg (by simp [hp]), List.countP_eq_zero.mpr hnone]
      cases i with
      | zero =>
        obtain rfl : x = a := by simpa using ha
        simp [hp]
      | succ i =>
        have hmem := List.mem_of_getElem? (show l[i]? = some a by simpa using ha)
        simp [hnone a hmem]

theorem filter_eq_take (h : l.Pairwise fun a b => p b = true → p a = true) :
    l.filter p = l.take (l.countP p) := by
  induction l with
  | nil => rfl
  | cons x l ih =>
    obtain ⟨hx, hl⟩ := List.pairwise_cons.mp h
    cases hp : p x with
    | true =>
      rw [List.filter_cons_of_pos hp, List.countP_cons_of_pos hp, List.take_succ_cons, ih hl]
    | false =>
      have hnone : ∀ b ∈ l, ¬ p b = true := fun b hb hpb => by
        rw [hx b hb hpb] at hp
        cases hp
      rw [List.filter_cons_of_neg (by simp [hp]), List.countP_cons_of_neg (by simp [hp]),
        List.countP_eq_zero.mpr hnone, List.filter_eq_nil_iff.mpr hnone]
      rfl

end FrontParts

section Cuts

variable {r : α → α → Prop} [DecidableRel r] {l l' rows : List α} {n : Nat} {x y : α}

/-- Some row has rows tied with it on both sides of a cut after `n` rows: fewer than `n`
rows have to stand before it, and more than `n` may. -/
def Straddles (r : α → α → Prop) [DecidableRel r] (rows : List α) (n : Nat) : Prop :=
  ∃ x ∈ rows, rows.countP (fun a => ¬ r x a) < n ∧ n < rows.countP (fun a => r a x)

theorem Straddles.of_perm (h : Straddles r l n) (hperm : l.Perm l') : Straddles r l' n := by
  obtain ⟨x, hx, hbefore, hupto⟩ := h
  rw [hperm.countP_eq] at hbefore hupto
  exact ⟨x, hperm.mem_iff.mp hx, hbefore, hupto⟩

theorem pairwise_upto (hr : TotalPreorder r) (hl : l.Pairwise r) (x : α) :
    l.Pairwise fun a b => decide (r b x) = true → decide (r a x) = true := by
  refine hl.imp fun hab hb => ?_
  simp only [decide_eq_true_eq] at hb ⊢
  exact hr.trans hab hb

theorem pairwise_before (hr : TotalPreorder r) (hl : l.Pairwise r) (x : α) :
    l.Pairwise fun a b => decide (¬ r x b) = true → decide (¬ r x a) = true := by
  refine hl.imp fun hab hb => ?_
  simp only [decide_eq_true_eq] at hb ⊢
  exact fun ha => hb (hr.trans ha hab)

/-- In a sorted list the cut goes through a tie if the rows next to it are tied. -/
theorem straddles_iff (hr : TotalPreorder r) (hl : l.Pairwise r) (hx : l[n]? = some x)
    (hy : l[n + 1]? = some y) : Straddles r l (n + 1) ↔ r y x := by
  constructor
  · rintro ⟨z, _, hbefore, hupto⟩
    have hyz := (holds_iff_lt_countP (pairwise_upto hr hl z) hy).mpr hupto
    have hzx := (not_congr (holds_iff_lt_countP (pairwise_before hr hl z) hx)).mpr (by omega)
    simp only [decide_eq_true_eq, not_not] at hyz hzx
    exact hr.trans hyz hzx
  · intro hyx
    refine ⟨x, List.mem_of_getElem? hx, ?_, ?_⟩
    · have hself := (not_congr (holds_iff_lt_countP (pairwise_before hr hl x) hx)).mp
        (by simpa using hr.refl x)
      omega
    · exact (holds_iff_lt_countP (pairwise_upto hr hl x) hy).mp (by simpa using hyx)

/-- Every way of sorting has the same rows before a cut through no tie. -/
theorem take_perm (hr : TotalPreorder r) (hl : l.Pairwise r) (hl' : l'.Pairwise r)
    (hperm : l'.Perm l) (hcut : ¬ Straddles r l n) : (l'.take n).Perm (l.take n) := by
  by_cases hlong : l.length ≤ n
  · rw [List.take_of_length_le hlong, List.take_of_length_le (hperm.length_eq ▸ hlong)]
    exact hperm
  · cases n with
    | zero => simp
    | succ n =>
      have hx := List.getElem?_eq_getElem (l := l) (i := n) (by omega)
      have hy := List.getElem?_eq_getElem (l := l) (i := n + 1) (by omega)
      generalize l[n] = x at hx
      generalize l[n + 1] = y at hy
      have hyx := (not_congr (straddles_iff hr hl hx hy)).mp hcut
      have hat := (holds_iff_lt_countP (pairwise_upto hr hl x) hx).mp (by simpa using hr.refl x)
      have hnext := (not_congr (holds_iff_lt_countP (pairwise_upto hr hl x) hy)).mp
        (by simpa using hyx)
      have hcount : l.countP (fun a => r a x) = n + 1 := by omega
      have hcount' : l'.countP (fun a => r a x) = n + 1 := (hperm.countP_eq _).trans hcount
      rw [← hcount, ← filter_eq_take (pairwise_upto hr hl x), hcount, ← hcount',
        ← filter_eq_take (pairwise_upto hr hl' x)]
      exact hperm.filter _

/-- The two rows at a cut through a tie may change places. -/
theorem exists_swap (hr : TotalPreorder r) (hl : l.Pairwise r) (hcut : Straddles r l n) :
    ∃ front x y back, l = front ++ x :: y :: back ∧ n = front.length + 1 ∧
      (front ++ y :: x :: back).Pairwise r := by
  have hbounds : 0 < n ∧ n < l.length := by
    obtain ⟨z, _, hbefore, hupto⟩ := hcut
    exact ⟨by omega, Nat.lt_of_lt_of_le hupto List.countP_le_length⟩
  obtain ⟨n, rfl⟩ : ∃ m, n = m + 1 := ⟨n - 1, by omega⟩
  have hlength : (l.take n).length = n := by
    rw [List.length_take]
    omega
  have hsplit : l = l.take n ++ l[n] :: l[n + 1] :: l.drop (n + 2) := by
    rw [← List.drop_eq_getElem_cons, ← List.drop_eq_getElem_cons, List.take_append_drop]
  have hyx := (straddles_iff hr hl (List.getElem?_eq_getElem (by omega))
    (List.getElem?_eq_getElem (by omega))).mp hcut
  refine ⟨_, _, _, _, hsplit, by rw [hlength], ?_⟩
  rw [hsplit] at hl
  simp only [List.pairwise_append, List.pairwise_cons, List.mem_cons] at hl ⊢
  obtain ⟨hfront, ⟨hx, hy, hback⟩, hacross⟩ := hl
  refine ⟨hfront, ⟨?_, fun b hb => hx b (.inr hb), hback⟩, ?_⟩
  · rintro b (rfl | hb)
    · exact hyx
    · exact hy b hb
  · rintro a ha b (rfl | rfl | hb)
    · exact hacross a ha _ (.inr (.inl rfl))
    · exact hacross a ha _ (.inl rfl)
    · exact hacross a ha b (.inr (.inr hb))

end Cuts

end TiedOrders
