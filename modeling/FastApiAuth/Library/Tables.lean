import Mathlib.Data.List.Nodup

/-!
# Tables with key columns

Rows are kept in a list; a key column is a function on rows whose values do not
repeat. Insertion appends, an update rewrites the rows that match a key, and a
deletion filters.
-/

namespace Tables

set_option autoImplicit false

universe u v w

variable {α : Type u} {κ : Type v} {β : Type w} [DecidableEq κ]

/-- The first row with the key `k`. -/
def lookup (key : α → κ) (k : κ) (rows : List α) : Option α :=
  rows.find? fun r => key r = k

/-- Rewrite the rows with the key `k`. -/
def amend (key : α → κ) (k : κ) (f : α → α) (rows : List α) : List α :=
  rows.map fun r => if key r = k then f r else r

variable {key : α → κ} {k : κ} {rows : List α} {a b r : α} {f : α → α}

theorem lookup_some (h : lookup key k rows = some r) : r ∈ rows ∧ key r = k := by
  refine ⟨List.mem_of_find?_eq_some h, ?_⟩
  simpa using List.find?_some h

theorem lookup_eq_none_iff : lookup key k rows = none ↔ ∀ r ∈ rows, key r ≠ k := by
  simp [lookup]

theorem lookup_of_mem (hk : (rows.map key).Nodup) (ha : a ∈ rows) (h : key a = k) :
    lookup key k rows = some a := by
  cases hl : lookup key k rows with
  | none => exact absurd h (lookup_eq_none_iff.mp hl a ha)
  | some b =>
    obtain ⟨hb, hkb⟩ := lookup_some hl
    exact congrArg some (List.inj_on_of_nodup_map hk hb ha (hkb.trans h.symm))

theorem mem_amend : r ∈ amend key k f rows ↔ ∃ a ∈ rows, (if key a = k then f a else a) = r := by
  simp [amend]

/-- A column that the update does not touch keeps its values. -/
theorem map_amend (g : α → β) (hg : ∀ r, g (f r) = g r) :
    (amend key k f rows).map g = rows.map g := by
  simp only [amend, List.map_map]
  apply List.map_congr_left
  intro r _
  by_cases h : key r = k <;> simp [h, hg]

/-- A row of the updated table comes from one row of the old table with the same key. -/
theorem origin_of_mem_amend (hf : ∀ r, key (f r) = key r) (h : r ∈ amend key k f rows) :
    ∃ a ∈ rows, key a = key r ∧ (r = a ∨ (key a = k ∧ r = f a)) := by
  obtain ⟨a, ha, rfl⟩ := mem_amend.mp h
  by_cases hk : key a = k
  · exact ⟨a, ha, by simp [hk, hf], Or.inr ⟨hk, by simp [hk]⟩⟩
  · exact ⟨a, ha, by simp [hk], Or.inl (by simp [hk])⟩

theorem nodup_append_fresh {g : α → β} (hn : (rows.map g).Nodup) (hfresh : ∀ r ∈ rows, g r ≠ g a) :
    ((rows ++ [a]).map g).Nodup := by
  rw [List.map_append, List.nodup_append]
  refine ⟨hn, by simp, ?_⟩
  intro x hx y hy
  obtain ⟨r, hr, rfl⟩ := List.mem_map.mp hx
  simp only [List.map_cons, List.map_nil, List.mem_singleton] at hy
  subst hy
  exact hfresh r hr

theorem nodup_filter {g : α → β} (p : α → Bool) (hn : (rows.map g).Nodup) :
    ((rows.filter p).map g).Nodup :=
  hn.sublist (List.filter_sublist.map g)

/-- Among two rows with unique keys, one has another key than `k`. -/
theorem exists_key_ne (hn : (rows.map key).Nodup) (hlen : 1 < rows.length) (k : κ) :
    ∃ r ∈ rows, key r ≠ k := by
  match rows, hn, hlen with
  | a :: b :: _, hn, _ =>
    by_cases ha : key a = k
    · refine ⟨b, by simp, ?_⟩
      intro hb
      simp [ha, hb] at hn
    · exact ⟨a, by simp, ha⟩

/-- Writing `v` into a unique column of one row keeps the column unique when no
other row holds `v`. -/
theorem nodup_amend_of_free {g : α → β} {v : β} (hk : (rows.map key).Nodup)
    (hn : (rows.map g).Nodup) (hv : ∀ r, g (f r) = v) (hfree : ∀ r ∈ rows, key r ≠ k → g r ≠ v) :
    ((amend key k f rows).map g).Nodup := by
  induction rows with
  | nil => simp [amend]
  | cons a rows ih =>
    simp only [List.map_cons, List.nodup_cons, List.mem_map, not_exists, not_and] at hk hn
    have ih := ih hk.2 hn.2 (fun r hr => hfree r (List.mem_cons_of_mem a hr))
    simp only [amend, List.map_cons, List.nodup_cons] at ih ⊢
    refine ⟨?_, ih⟩
    rintro hm
    obtain ⟨x, hx, he⟩ := List.mem_map.mp hm
    obtain ⟨b, hb, rfl⟩ := List.mem_map.mp hx
    by_cases ha : key a = k
    · have hbk : key b ≠ k := fun h => hk.1 b hb (h.trans ha.symm)
      simp only [ha, if_true, if_neg hbk, hv] at he
      exact hfree b (List.mem_cons_of_mem a hb) hbk he
    · by_cases hbk : key b = k
      · simp only [hbk, if_true, if_neg ha, hv] at he
        exact hfree a List.mem_cons_self ha he.symm
      · simp only [if_neg ha, if_neg hbk] at he
        exact hn.1 b hb he

section OtherKeys

theorem lookup_append_of_ne (h : key a ≠ k) : lookup key k (rows ++ [a]) = lookup key k rows := by
  simp [lookup, List.find?_append, h]

/-- An update is not seen by a look-up of another row. -/
theorem lookup_amend_of_ne {κ' : Type*} [DecidableEq κ'] {key' : α → κ'} {k' : κ'}
    (h : ∀ r, key r = k → key' r ≠ k' ∧ key' (f r) ≠ k') :
    lookup key' k' (amend key k f rows) = lookup key' k' rows := by
  induction rows with
  | nil => rfl
  | cons a rows ih =>
    simp only [lookup, amend, List.map_cons, List.find?_cons] at ih ⊢
    by_cases ha : key a = k
    · simp only [ha, if_true, decide_eq_false (h a ha).1, decide_eq_false (h a ha).2]
      exact ih
    · simp only [ha, if_false]
      rw [ih]

theorem lookup_amend_self {κ' : Type*} [DecidableEq κ'] {key' : α → κ'} {k' : κ'}
    (hk : ∀ r, key' r = k' ↔ key r = k) (hf : ∀ r, key (f r) = key r) :
    lookup key' k' (amend key k f rows) = (lookup key' k' rows).map f := by
  induction rows with
  | nil => rfl
  | cons a rows ih =>
    simp only [lookup, amend, List.map_cons, List.find?_cons] at ih ⊢
    by_cases ha : key a = k
    · simp only [ha, if_true, (hk a).mpr ha, (hk (f a)).mpr ((hf a).trans ha), decide_true,
        Option.map_some]
    · simp only [ha, if_false, mt (hk a).mp ha, decide_false]
      exact ih

theorem lookup_filter_of_kept {p : α → Bool} (h : ∀ r ∈ rows, key r = k → p r = true) :
    lookup key k (rows.filter p) = lookup key k rows := by
  unfold lookup
  rw [List.find?_filter]
  induction rows with
  | nil => rfl
  | cons a rows ih =>
    have ih := ih fun r hr => h r (List.mem_cons_of_mem a hr)
    simp only [List.find?_cons]
    by_cases ha : key a = k
    · simp [ha, h a List.mem_cons_self ha]
    · simp only [ha, decide_false, Bool.false_eq_true, and_false]
      exact ih

theorem filter_filter_of_kept {p q : α → Bool} (h : ∀ r ∈ rows, p r = true → q r = true) :
    (rows.filter q).filter p = rows.filter p := by
  rw [List.filter_filter]
  apply List.filter_congr
  intro r hr
  cases hp : p r with
  | false => rfl
  | true => rw [h r hr hp]; rfl

end OtherKeys

end Tables
