import Mathlib.Order.Lattice
import Mathlib.Logic.Function.Basic

/-!
# A key-value store whose entries may expire

An entry written with a deadline `d` is there at every instant before `d` and
gone from `d` on. Instants are taken from any linear order.
-/

set_option autoImplicit false

universe u v w

structure Entry (ν : Type v) (τ : Type w) where
  value : ν
  deadline : Option τ

/-- The entries ever written and not overwritten or deleted, expired ones included. -/
structure ExpiringStore (κ : Type u) (ν : Type v) (τ : Type w) where
  entry : κ → Option (Entry ν τ)

namespace ExpiringStore

variable {κ : Type u} {ν : Type v} {τ : Type w}

def empty : ExpiringStore κ ν τ := ⟨fun _ => none⟩

section Writes

variable [DecidableEq κ] {store : ExpiringStore κ ν τ} {k k' : κ} {e : Entry ν τ}

def put (store : ExpiringStore κ ν τ) (k : κ) (e : Entry ν τ) : ExpiringStore κ ν τ :=
  ⟨Function.update store.entry k (some e)⟩

def delete (store : ExpiringStore κ ν τ) (k : κ) : ExpiringStore κ ν τ :=
  ⟨Function.update store.entry k none⟩

@[simp] theorem entry_put_self : (store.put k e).entry k = some e := by
  simp [put]

@[simp] theorem entry_put_of_ne (h : k' ≠ k) : (store.put k e).entry k' = store.entry k' := by
  simp [put, h]

@[simp] theorem put_put {e' : Entry ν τ} : (store.put k e).put k e' = store.put k e' := by
  simp [put]

@[simp] theorem entry_delete_of_ne (h : k' ≠ k) : (store.delete k).entry k' = store.entry k' := by
  simp [delete, h]

end Writes

section Reads

variable [LinearOrder τ] {store : ExpiringStore κ ν τ} {now bound : τ} {k : κ} {e : Entry ν τ}

/-- The entry is still there at `now`. -/
def Live (e : Entry ν τ) (now : τ) : Prop := ∀ d ∈ e.deadline, now < d

instance (e : Entry ν τ) (now : τ) : Decidable (Live e now) :=
  match h : e.deadline with
  | none => isTrue (by simp [Live, h])
  | some d => decidable_of_iff (now < d) (by simp [Live, h])

def find (store : ExpiringStore κ ν τ) (now : τ) (k : κ) : Option (Entry ν τ) :=
  (store.entry k).filter fun e => Live e now

def get (store : ExpiringStore κ ν τ) (now : τ) (k : κ) : Option ν :=
  (store.find now k).map Entry.value

def contains (store : ExpiringStore κ ν τ) (now : τ) (k : κ) : Bool :=
  (store.find now k).isSome

theorem find_eq_some_iff : store.find now k = some e ↔ store.entry k = some e ∧ Live e now := by
  rw [find]
  simp only [Option.filter_eq_some_iff, decide_eq_true_eq]

theorem find_eq_none_iff :
    store.find now k = none ↔ ∀ e, store.entry k = some e → ¬ Live e now := by
  simp [find, Option.filter_eq_none_iff]

theorem contains_iff :
    store.contains now k = true ↔ ∃ e, store.entry k = some e ∧ Live e now := by
  rw [contains, Option.isSome_iff_exists]
  simp only [find_eq_some_iff]

/-- Every entry under `k` is gone from `bound` on. -/
def DeadBy (store : ExpiringStore κ ν τ) (k : κ) (bound : τ) : Prop :=
  ∀ e ∈ store.entry k, ∃ d ∈ e.deadline, d ≤ bound

theorem DeadBy.not_contains (h : store.DeadBy k bound) (hb : bound ≤ now) :
    store.contains now k = false := by
  cases hc : store.contains now k with
  | false => rfl
  | true =>
    obtain ⟨e, he, hl⟩ := contains_iff.mp hc
    obtain ⟨d, hd, hle⟩ := h e he
    exact absurd (hl d hd) (not_lt.mpr (le_trans hle hb))

variable [DecidableEq κ]

theorem find_put_self (h : Live e now) : (store.put k e).find now k = some e :=
  find_eq_some_iff.mpr ⟨entry_put_self, h⟩

theorem get_put_self (h : Live e now) : (store.put k e).get now k = some e.value := by
  rw [get, find_put_self h]
  rfl

theorem DeadBy.put_of_ne {k' : κ} (hk : k ≠ k') (h : store.DeadBy k bound) :
    (store.put k' e).DeadBy k bound := by
  intro e' he'
  rw [entry_put_of_ne hk] at he'
  exact h e' he'

theorem DeadBy.delete_of_ne {k' : κ} (hk : k ≠ k') (h : store.DeadBy k bound) :
    (store.delete k').DeadBy k bound := by
  intro e' he'
  rw [entry_delete_of_ne hk] at he'
  exact h e' he'

theorem DeadBy.put {d : τ} (he : e.deadline = some d) (hd : d ≤ bound) :
    (store.put k e).DeadBy k bound := by
  intro e' he'
  rw [entry_put_self] at he'
  cases he'
  exact ⟨d, he, hd⟩

/-- There is an entry under `k`, and it is not gone before `bound` has passed. -/
def HeldPast (store : ExpiringStore κ ν τ) (k : κ) (bound : τ) : Prop :=
  ∃ e, store.entry k = some e ∧ ∀ d ∈ e.deadline, bound < d

omit [DecidableEq κ] in
theorem HeldPast.contains (h : store.HeldPast k bound) (hle : now ≤ bound) :
    store.contains now k = true := by
  obtain ⟨e, he, hlasts⟩ := h
  apply contains_iff.mpr
  refine ⟨e, he, ?_⟩
  intro d hd
  exact hle.trans_lt (hlasts d hd)

theorem HeldPast.put (h : ∀ d ∈ e.deadline, bound < d) : (store.put k e).HeldPast k bound :=
  ⟨e, entry_put_self, h⟩

theorem HeldPast.put_of_ne {k' : κ} (hk : k ≠ k') (h : store.HeldPast k bound) :
    (store.put k' e).HeldPast k bound := by
  obtain ⟨e', he', hlasts⟩ := h
  exact ⟨e', (entry_put_of_ne hk).trans he', hlasts⟩

theorem HeldPast.delete_of_ne {k' : κ} (hk : k ≠ k') (h : store.HeldPast k bound) :
    (store.delete k').HeldPast k bound := by
  obtain ⟨e', he', hlasts⟩ := h
  exact ⟨e', (entry_delete_of_ne hk).trans he', hlasts⟩

end Reads

end ExpiringStore
