import Mathlib.Algebra.Order.Group.Defs
import Mathlib.Data.List.Induction

/-!
# Fixed windows over a sequence of calls

A window opens at the first call that finds none open and closes `length` later. The
calls of one client are the list of their instants, oldest first; of the calls in one
window the first `limit` are admitted. Nothing here counts: how many calls a window
has seen is read off the list.
-/

namespace FixedWindow

set_option autoImplicit false

universe u

variable {τ : Type u} [AddCommGroup τ] [LinearOrder τ]

/-- The opening of the window that a call at `t` falls into. -/
def opening (length : τ) : Option τ → τ → τ
  | some o, t => if t < o + length then o else t
  | none, t => t

/-- The opening of the latest window. -/
def lastOpening (length : τ) (ts : List τ) : Option τ :=
  ts.foldl (fun o t => some (opening length o t)) none

/-- How many of the earlier calls fall into the window of a call at `t`. -/
def callsInWindow (length : τ) (ts : List τ) (t : τ) : Nat :=
  ts.countP fun c => opening length (lastOpening length ts) t ≤ c

/-- The calls so far, and those of them that were admitted. -/
def record (limit : Nat) (length : τ) (p : List τ × List τ) (t : τ) : List τ × List τ :=
  (p.1 ++ [t], if callsInWindow length p.1 t < limit then p.2 ++ [t] else p.2)

def admitted (limit : Nat) (length : τ) (ts : List τ) : List τ :=
  (ts.foldl (record limit length) ([], [])).2

section Rules

variable {limit : Nat} {length o t : τ} {ts : List τ}

theorem lastOpening_snoc :
    lastOpening length (ts ++ [t]) = some (opening length (lastOpening length ts) t) := by
  simp [lastOpening]

theorem lastOpening_eq_none_iff : lastOpening length ts = none ↔ ts = [] := by
  induction ts using List.reverseRecOn with
  | nil => simp [lastOpening]
  | append_singleton ts t _ => simp [lastOpening_snoc]

theorem admitted_snoc : admitted limit length (ts ++ [t]) =
    admitted limit length ts ++ if callsInWindow length ts t < limit then [t] else [] := by
  have hfst : ∀ ts : List τ, (ts.foldl (record limit length) ([], [])).1 = ts := by
    intro ts
    induction ts using List.reverseRecOn with
    | nil => rfl
    | append_singleton ts t ih => simp [record, ih]
  simp only [admitted, List.foldl_append, List.foldl_cons, List.foldl_nil, record, hfst]
  split <;> simp

theorem admitted_sublist : (admitted limit length ts).Sublist ts := by
  induction ts using List.reverseRecOn with
  | nil => exact List.Sublist.refl _
  | append_singleton ts t ih =>
    rw [admitted_snoc]
    refine ih.append ?_
    split
    · exact List.Sublist.refl _
    · exact List.nil_sublist _

omit [AddCommGroup τ] in
theorem pairwise_snoc (hs : (ts ++ [t]).Pairwise (· ≤ ·)) :
    ts.Pairwise (· ≤ ·) ∧ ∀ c ∈ ts, c ≤ t := by
  obtain ⟨hts, _, hle⟩ := List.pairwise_append.mp hs
  exact ⟨hts, fun c hc => hle c hc t (List.mem_singleton_self t)⟩

/-- The latest window was opened by one of the calls. -/
theorem lastOpening_mem (ho : lastOpening length ts = some o) : o ∈ ts := by
  induction ts using List.reverseRecOn generalizing o with
  | nil => simp [lastOpening] at ho
  | append_singleton ts t ih =>
    rw [lastOpening_snoc] at ho
    obtain rfl := Option.some_inj.mp ho
    cases hl : lastOpening length ts with
    | none => simp [opening]
    | some o =>
      unfold opening
      dsimp only
      split
      · exact List.mem_append_left _ (ih hl)
      · simp

theorem lastOpening_le (hs : (ts ++ [t]).Pairwise (· ≤ ·))
    (ho : lastOpening length ts = some o) : o ≤ t :=
  (pairwise_snoc hs).2 o (lastOpening_mem ho)

variable (length) in
theorem opening_le (hs : (ts ++ [t]).Pairwise (· ≤ ·)) :
    opening length (lastOpening length ts) t ≤ t := by
  cases ho : lastOpening length ts with
  | none => exact le_rfl
  | some o =>
    unfold opening
    dsimp only
    split
    · exact lastOpening_le hs ho
    · exact le_rfl

/-- A call in the open window. -/
theorem callsInWindow_of_open (ho : lastOpening length ts = some o) (ht : t < o + length) :
    callsInWindow length ts t = ts.countP fun c => o ≤ c := by
  simp [callsInWindow, opening, ho, ht]

variable [IsOrderedAddMonoid τ]

/-- Every call so far came before the latest window closes. -/
theorem lt_closing (hlength : 0 < length) (hs : ts.Pairwise (· ≤ ·))
    (ho : lastOpening length ts = some o) : ∀ c ∈ ts, c < o + length := by
  induction ts using List.reverseRecOn generalizing o with
  | nil => simp [lastOpening] at ho
  | append_singleton ts t ih =>
    obtain ⟨hts, hle⟩ := pairwise_snoc hs
    rw [lastOpening_snoc] at ho
    have ht : t < o + length := by
      rw [← Option.some_inj.mp ho]
      unfold opening
      split
      · split
        · assumption
        · exact lt_add_of_pos_right _ hlength
      · exact lt_add_of_pos_right _ hlength
    intro c hc
    rcases List.mem_append.mp hc with hc | hc
    · exact (hle c hc).trans_lt ht
    · rwa [List.mem_singleton.mp hc]

/-- A call that opens a window. -/
theorem callsInWindow_of_closed (hlength : 0 < length) (hs : ts.Pairwise (· ≤ ·))
    (hclosed : ∀ o, lastOpening length ts = some o → o + length ≤ t) :
    opening length (lastOpening length ts) t = t ∧ callsInWindow length ts t = 0 := by
  cases ho : lastOpening length ts with
  | none =>
    obtain rfl := lastOpening_eq_none_iff.mp ho
    simp [callsInWindow, opening]
  | some o =>
    have hle := hclosed o ho
    have hopen : opening length (some o) t = t := by simp [opening, not_lt.mpr hle]
    refine ⟨hopen, ?_⟩
    rw [callsInWindow, ho, hopen, List.countP_eq_zero]
    intro c hc
    have hlt := lt_closing hlength hs ho c hc
    simpa using hlt.trans_le hle

/-- A rejected call leaves the window as it is. -/
theorem lastOpening_of_rejected (hlength : 0 < length) (hs : ts.Pairwise (· ≤ ·))
    (hlimit : 0 < limit) (hrejected : limit ≤ callsInWindow length ts t) :
    lastOpening length (ts ++ [t]) = lastOpening length ts := by
  rw [lastOpening_snoc]
  by_cases hclosed : ∀ o, lastOpening length ts = some o → o + length ≤ t
  · have hzero := (callsInWindow_of_closed hlength hs hclosed).2
    omega
  · simp only [not_forall, not_le] at hclosed
    obtain ⟨o, ho, ht⟩ := hclosed
    simp [opening, ho, ht]

variable (limit) in
/-- No window admits more than the limit, nor does the time of one window before it. -/
theorem countP_admitted_le (hlength : 0 < length) (hs : ts.Pairwise (· ≤ ·))
    (ho : lastOpening length ts = some o) :
    (admitted limit length ts).countP (fun c => o ≤ c) ≤ limit ∧
      (admitted limit length ts).countP (fun c => o - length ≤ c ∧ c < o) ≤ limit := by
  induction ts using List.reverseRecOn generalizing o with
  | nil => simp [lastOpening] at ho
  | append_singleton ts t ih =>
    have hts := (pairwise_snoc hs).1
    rw [lastOpening_snoc] at ho
    have hopening := Option.some_inj.mp ho
    by_cases hclosed : ∀ o, lastOpening length ts = some o → o + length ≤ t
    · -- the call opens a window: nothing admitted before falls into it
      obtain ⟨hopen, hzero⟩ := callsInWindow_of_closed hlength hts hclosed
      obtain rfl : t = o := hopen.symm.trans hopening
      have hnone : (admitted limit length ts).countP (fun c => t ≤ c) = 0 := by
        have hsub : (admitted limit length ts).Sublist ts := admitted_sublist
        have hle := hsub.countP_le (p := fun c => decide (t ≤ c))
        rw [callsInWindow, hopening] at hzero
        omega
      have hbefore : (admitted limit length ts).countP (fun c => t - length ≤ c ∧ c < t) ≤
          limit := by
        cases hl : lastOpening length ts with
        | none =>
          obtain rfl := lastOpening_eq_none_iff.mp hl
          simp [admitted]
        | some o =>
          refine le_trans (List.countP_mono_left fun c _ hc => ?_) (ih hts hl).1
          have hle : o ≤ t - length := le_sub_iff_add_le.mpr (hclosed o hl)
          simp only [decide_eq_true_eq] at hc ⊢
          exact hle.trans hc.1
      rw [admitted_snoc, hzero]
      split <;> simp only [List.countP_append, hnone]
      · refine ⟨?_, by simpa using hbefore⟩
        simp
        omega
      · exact ⟨by simp, by simpa using hbefore⟩
    · -- the call falls into the open window
      simp only [not_forall, not_le] at hclosed
      obtain ⟨o', ho', ht⟩ := hclosed
      obtain rfl : o' = o := by simpa [opening, ho', ht] using hopening
      obtain ⟨hin, hbefore⟩ := ih hts ho'
      have hle := lastOpening_le hs ho'
      rw [admitted_snoc]
      split
      · rename_i hadmits
        rw [callsInWindow_of_open ho' ht] at hadmits
        have hsublist : (admitted limit length ts).Sublist ts := admitted_sublist
        have hsub := hsublist.countP_le (p := fun c => decide (o' ≤ c))
        refine ⟨?_, ?_⟩
        · simp [List.countP_append, hle]
          omega
        · simpa [List.countP_append, not_lt.mpr hle] using hbefore
      · rw [List.append_nil]
        exact ⟨hin, hbefore⟩

/-- Windows do not overlap: a later one opens when the earlier one has closed. -/
theorem later_opening {before after : List τ} {o' : τ} (hlength : 0 < length)
    (hs : (before ++ after).Pairwise (· ≤ ·)) (ho : lastOpening length before = some o)
    (ho' : lastOpening length (before ++ after) = some o') : o' = o ∨ o + length ≤ o' := by
  induction after using List.reverseRecOn generalizing o' with
  | nil =>
    rw [List.append_nil, ho] at ho'
    exact .inl (Option.some_inj.mp ho').symm
  | append_singleton after t ih =>
    rw [← List.append_assoc] at hs ho'
    rw [lastOpening_snoc] at ho'
    have hopening := Option.some_inj.mp ho'
    cases hl : lastOpening length (before ++ after) with
    | none =>
      rw [List.append_eq_nil_iff.mp (lastOpening_eq_none_iff.mp hl) |>.1] at ho
      cases ho
    | some o₁ =>
      have hle := ih (pairwise_snoc hs).1 hl
      rw [hl, opening] at hopening
      split at hopening
      · rwa [hopening] at hle
      · rename_i hclosed
        rw [hopening, not_lt] at hclosed
        right
        rcases hle with rfl | hle
        · exact hclosed
        · exact hle.trans ((le_add_of_nonneg_right hlength.le).trans hclosed)

/-- Every window of `ts` has at most `limit` of the calls `admitted`. -/
def WithinWindows (limit : Nat) (length : τ) (ts admitted : List τ) : Prop :=
  ∀ before o, before <+: ts → lastOpening length before = some o →
    admitted.countP (fun c => o ≤ c ∧ c < o + length) ≤ limit

variable (limit) in
theorem admitted_withinWindows (hlength : 0 < length) (hs : ts.Pairwise (· ≤ ·)) :
    WithinWindows limit length ts (admitted limit length ts) := by
  intro before o hp ho
  induction ts using List.reverseRecOn with
  | nil => simp [admitted]
  | append_singleton ts t ih =>
    have inLast : lastOpening length (ts ++ [t]) = some o →
        (admitted limit length (ts ++ [t])).countP (fun c => o ≤ c ∧ c < o + length) ≤ limit := by
      intro hlast
      refine le_trans (List.countP_mono_left fun c _ hc => ?_)
        (countP_admitted_le limit hlength hs hlast).1
      simp only [decide_eq_true_eq] at hc ⊢
      exact hc.1
    rcases List.prefix_concat_iff.mp hp with rfl | hp
    · exact inLast ho
    · by_cases ht : t < o + length
      · obtain ⟨after, rfl⟩ := hp
        have hsplit := hs
        rw [List.append_assoc] at hsplit
        have hlast : lastOpening length (before ++ (after ++ [t])) =
            some (opening length (lastOpening length (before ++ after)) t) := by
          rw [← List.append_assoc, lastOpening_snoc]
        have hlater := later_opening hlength hsplit ho hlast
        have hle := opening_le length hs
        rcases hlater with heq | hlate
        · exact inLast (by rw [lastOpening_snoc, heq])
        · exact absurd (hlate.trans hle) (not_le.mpr ht)
      · have ih := ih (pairwise_snoc hs).1 hp
        rw [admitted_snoc]
        split
        · simpa [List.countP_append, ht] using ih
        · simpa using ih

theorem callsInWindow_replicate (hlength : 0 < length) (n : Nat) :
    callsInWindow length (List.replicate n t) t = n := by
  have hopening : ∀ n, opening length (lastOpening length (List.replicate n t)) t = t := by
    intro n
    induction n with
    | zero => rfl
    | succ n ih =>
      rw [List.replicate_succ', lastOpening_snoc, ih, opening,
        if_pos (lt_add_of_pos_right t hlength)]
  rw [callsInWindow, hopening, List.countP_replicate]
  simp

/-- Of calls at one instant the first `limit` are admitted. -/
theorem length_admitted_replicate (hlength : 0 < length) (n : Nat) :
    (admitted limit length (List.replicate n t)).length = min n limit := by
  induction n with
  | zero => simp [admitted]
  | succ n ih =>
    rw [List.replicate_succ', admitted_snoc, callsInWindow_replicate hlength, List.length_append,
      ih]
    split
    · simp only [List.length_singleton]
      omega
    · simp only [List.length_nil]
      omega

omit [AddCommGroup τ] [LinearOrder τ] [IsOrderedAddMonoid τ] in
theorem countP_le_add {p q r : τ → Bool} (h : ∀ c ∈ ts, p c = true → q c = true ∨ r c = true) :
    ts.countP p ≤ ts.countP q + ts.countP r := by
  induction ts with
  | nil => simp
  | cons c ts ih =>
    have ih := ih fun d hd => h d (List.mem_cons_of_mem c hd)
    have hc := h c List.mem_cons_self
    simp only [List.countP_cons]
    by_cases hp : p c = true
    · rcases hc hp with hq | hr
      · simp only [hp, hq]
        omega
      · simp only [hp, hr]
        omega
    · rw [if_neg hp]
      omega

/-- At most twice the limit is admitted in any time of one window's length. -/
theorem countP_interval_le (hlength : 0 < length) (hs : ts.Pairwise (· ≤ ·)) (a : τ) :
    (admitted limit length ts).countP (fun c => a ≤ c ∧ c ≤ a + length) ≤ 2 * limit := by
  induction ts using List.reverseRecOn with
  | nil => simp [admitted]
  | append_singleton ts t ih =>
    by_cases ht : a ≤ t ∧ t ≤ a + length
    · -- everything admitted since `a` belongs to the window of `t` or to the time before it
      obtain ⟨hin, hbefore⟩ := countP_admitted_le limit hlength hs lastOpening_snoc
      have hle := opening_le length hs
      refine (countP_le_add (q := fun c => opening length (lastOpening length ts) t ≤ c)
        (r := fun c => opening length (lastOpening length ts) t - length ≤ c ∧
          c < opening length (lastOpening length ts) t) fun c _ hc => ?_).trans (by omega)
      simp only [decide_eq_true_eq] at hc ⊢
      rcases le_or_gt (opening length (lastOpening length ts) t) c with hin | hbefore
      · exact .inl hin
      · refine .inr ⟨?_, hbefore⟩
        calc opening length (lastOpening length ts) t - length ≤ t - length := by gcongr
          _ ≤ a := sub_le_iff_le_add.mpr ht.2
          _ ≤ c := hc.1
    · have hts := (pairwise_snoc hs).1
      rw [admitted_snoc]
      split
      · simpa [List.countP_append, ht] using ih hts
      · simpa using ih hts

end Rules

end FixedWindow
