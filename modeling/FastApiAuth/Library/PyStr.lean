import Mathlib.Data.List.Chain

/-!
# Strings of code points

A string of Python may hold any code point, surrogates included. What a decoder of
UTF-16 escapes gives back has no high surrogate directly before a low one: such a pair
is read as one code point.
-/

namespace PyStr

set_option autoImplicit false

abbrev CodePoint := Fin 0x110000

def isHigh (c : CodePoint) : Bool := 0xD800 ≤ c.val && c.val < 0xDC00

def isLow (c : CodePoint) : Bool := 0xDC00 ≤ c.val && c.val < 0xE000

def Joined (s : List CodePoint) : Prop :=
  s.IsChain fun hi lo => ¬ (isHigh hi = true ∧ isLow lo = true)

instance (s : List CodePoint) : Decidable (Joined s) :=
  inferInstanceAs (Decidable (s.IsChain _))

/-- The code point of a pair of surrogates. -/
def combine (hi lo : CodePoint) : CodePoint :=
  Fin.ofNat 0x110000 (0x10000 + (hi.val - 0xD800) * 0x400 + (lo.val - 0xDC00))

def join : List CodePoint → List CodePoint
  | hi :: lo :: rest =>
    if isHigh hi ∧ isLow lo then combine hi lo :: join rest else hi :: join (lo :: rest)
  | s => s

/-- The halves of a code point beyond the basic plane. -/
def highOf (c : CodePoint) : CodePoint := Fin.ofNat 0x110000 (0xD800 + (c.val - 0x10000) / 0x400)

def lowOf (c : CodePoint) : CodePoint := Fin.ofNat 0x110000 (0xDC00 + (c.val - 0x10000) % 0x400)

def units (c : CodePoint) : List CodePoint :=
  if c.val < 0x10000 then [c] else [highOf c, lowOf c]

section Surrogates

variable {c hi lo : CodePoint} {s rest : List CodePoint}

theorem isHigh_iff : isHigh c = true ↔ 0xD800 ≤ c.val ∧ c.val < 0xDC00 := by simp [isHigh]

theorem isLow_iff : isLow c = true ↔ 0xDC00 ≤ c.val ∧ c.val < 0xE000 := by simp [isLow]

theorem val_combine (hhi : isHigh hi = true) (hlo : isLow lo = true) :
    (combine hi lo).val = 0x10000 + (hi.val - 0xD800) * 0x400 + (lo.val - 0xDC00) := by
  have hhi := isHigh_iff.mp hhi
  have hlo := isLow_iff.mp hlo
  refine Nat.mod_eq_of_lt ?_
  omega

theorem isLow_combine (hhi : isHigh hi = true) (hlo : isLow lo = true) :
    isLow (combine hi lo) = false := by
  rw [Bool.eq_false_iff, Ne, isLow_iff, val_combine hhi hlo]
  omega

theorem isHigh_combine (hhi : isHigh hi = true) (hlo : isLow lo = true) :
    isHigh (combine hi lo) = false := by
  rw [Bool.eq_false_iff, Ne, isHigh_iff, val_combine hhi hlo]
  omega

theorem val_highOf (h : 0x10000 ≤ c.val) : (highOf c).val = 0xD800 + (c.val - 0x10000) / 0x400 :=
  Nat.mod_eq_of_lt (by have := c.isLt; omega)

theorem val_lowOf (c : CodePoint) : (lowOf c).val = 0xDC00 + (c.val - 0x10000) % 0x400 :=
  Nat.mod_eq_of_lt (by omega)

theorem isHigh_highOf (h : 0x10000 ≤ c.val) : isHigh (highOf c) = true := by
  rw [isHigh_iff, val_highOf h]
  have := c.isLt
  omega

theorem isLow_lowOf (c : CodePoint) : isLow (lowOf c) = true := by
  rw [isLow_iff, val_lowOf]
  omega

theorem combine_highOf_lowOf (h : 0x10000 ≤ c.val) : combine (highOf c) (lowOf c) = c := by
  apply Fin.ext
  rw [val_combine (isHigh_highOf h) (isLow_lowOf c), val_highOf h, val_lowOf]
  omega

theorem units_of_lt (h : c.val < 0x10000) : units c = [c] := if_pos h

theorem units_of_le (h : 0x10000 ≤ c.val) : units c = [highOf c, lowOf c] :=
  if_neg (not_lt.mpr h)

theorem val_of_mem_units {u : CodePoint} (h : u ∈ units c) : u.val < 0x10000 := by
  rcases Nat.lt_or_ge c.val 0x10000 with hc | hc
  · rw [units_of_lt hc] at h
    rwa [List.mem_singleton.mp h]
  · rw [units_of_le hc] at h
    have hhigh := isHigh_iff.mp (isHigh_highOf hc)
    have hlow := isLow_iff.mp (isLow_lowOf c)
    simp only [List.mem_cons, List.not_mem_nil, or_false] at h
    rcases h with rfl | rfl <;> omega

theorem join_pair (hhi : isHigh hi = true) (hlo : isLow lo = true) :
    join (hi :: lo :: rest) = combine hi lo :: join rest := by
  rw [join, if_pos ⟨hhi, hlo⟩]

theorem join_cons (h : ∀ lo, rest.head? = some lo → ¬ (isHigh hi = true ∧ isLow lo = true)) :
    join (hi :: rest) = hi :: join rest := by
  cases rest with
  | nil => rfl
  | cons lo rest => rw [join, if_neg (h lo rfl)]

/-- A low surrogate stands first in what is joined only if it did before. -/
theorem head_join_low (hhead : (join s).head? = some lo) (hlo : isLow lo = true) :
    s.head? = some lo := by
  cases s with
  | nil => cases hhead
  | cons hi rest =>
    by_cases hpair : ∃ c, rest.head? = some c ∧ isHigh hi = true ∧ isLow c = true
    · obtain ⟨c, hc, hhigh, hlow⟩ := hpair
      cases rest with
      | nil => cases hc
      | cons c' rest =>
        obtain rfl : c' = c := Option.some_inj.mp hc
        rw [join_pair hhigh hlow] at hhead
        obtain rfl : combine hi c' = lo := Option.some_inj.mp hhead
        rw [isLow_combine hhigh hlow] at hlo
        cases hlo
    · rw [join_cons fun c hc h => hpair ⟨c, hc, h⟩] at hhead
      exact hhead

theorem joined_join (s : List CodePoint) : Joined (join s) := by
  fun_induction join s with
  | case1 hi lo rest hpair ih =>
    refine List.isChain_cons.mpr ⟨fun c _ h => ?_, ih⟩
    rw [isHigh_combine hpair.1 hpair.2] at h
    cases h.1
  | case2 hi lo rest hpair ih =>
    refine List.isChain_cons.mpr ⟨fun c hc h => hpair ⟨h.1, ?_⟩, ih⟩
    have hhead := head_join_low hc h.2
    cases hhead
    exact h.2
  | case3 s hshort =>
    cases s with
    | nil => exact .nil
    | cons a s =>
      cases s with
      | nil => exact .singleton a
      | cons b s => exact absurd rfl (hshort a b s)

theorem Joined.tail (h : Joined (c :: s)) : Joined s := List.IsChain.tail h

/-- A low unit stands first among the units of `s` only if it does in `s`. -/
theorem head_units_low (hhead : (s.flatMap units).head? = some lo) (hlo : isLow lo = true) :
    s.head? = some lo := by
  cases s with
  | nil => cases hhead
  | cons c s =>
    rw [List.flatMap_cons] at hhead
    rcases Nat.lt_or_ge c.val 0x10000 with hc | hc
    · rw [units_of_lt hc] at hhead
      exact hhead
    · rw [units_of_le hc] at hhead
      obtain rfl : highOf c = lo := Option.some_inj.mp hhead
      have hhigh := isHigh_iff.mp (isHigh_highOf hc)
      have hlow := isLow_iff.mp hlo
      omega

/-- Splitting every code point into its units and joining them again changes nothing. -/
theorem join_units (h : Joined s) : join (s.flatMap units) = s := by
  induction s with
  | nil => rfl
  | cons c s ih =>
    have hrest := ih h.tail
    rw [List.flatMap_cons]
    rcases Nat.lt_or_ge c.val 0x10000 with hc | hc
    · rw [units_of_lt hc, List.singleton_append, join_cons, hrest]
      intro lo hhead hpair
      exact (List.isChain_cons.mp h).1 lo (head_units_low hhead hpair.2) hpair
    · rw [units_of_le hc, List.cons_append, List.singleton_append,
        join_pair (isHigh_highOf hc) (isLow_lowOf c), combine_highOf_lowOf hc, hrest]

end Surrogates
end PyStr

/-- A string as a decoder gives it. -/
structure PyStr where
  codePoints : List PyStr.CodePoint
  joined : PyStr.Joined codePoints
  deriving DecidableEq

namespace PyStr

theorem ext {s t : PyStr} (h : s.codePoints = t.codePoints) : s = t := by
  cases s
  cases t
  cases h
  rfl

def ofUnits (us : List CodePoint) : PyStr := ⟨join us, joined_join us⟩

theorem ofUnits_units (s : PyStr) : ofUnits (s.codePoints.flatMap units) = s :=
  ext (join_units s.joined)

/-- The code point of this number. -/
def point (n : Nat) : CodePoint := Fin.ofNat 0x110000 n

theorem val_point (n : Nat) : (point n).val = n % 0x110000 := rfl

def codePoint (c : Char) : CodePoint := point c.toNat

theorem val_codePoint (c : Char) : (codePoint c).val = c.toNat := by
  have hvalid : c.toNat < 0xD800 ∨ 0xDFFF < c.toNat ∧ c.toNat < 0x110000 := c.valid
  exact Nat.mod_eq_of_lt (by omega)

/-- A character is no surrogate. -/
theorem not_isHigh_codePoint (c : Char) : isHigh (codePoint c) = false := by
  have hvalid : c.toNat < 0xD800 ∨ 0xDFFF < c.toNat ∧ c.toNat < 0x110000 := c.valid
  rw [Bool.eq_false_iff, Ne, isHigh_iff, val_codePoint]
  omega

theorem not_isLow_codePoint (c : Char) : isLow (codePoint c) = false := by
  have hvalid : c.toNat < 0xD800 ∨ 0xDFFF < c.toNat ∧ c.toNat < 0x110000 := c.valid
  rw [Bool.eq_false_iff, Ne, isLow_iff, val_codePoint]
  omega

def ofString (text : String) : PyStr where
  codePoints := text.toList.map codePoint
  joined := by
    refine List.isChain_iff_forall_rel_of_append_cons_cons.mpr ?_
    intro a b l₁ l₂ heq hpair
    have hmem : a ∈ text.toList.map codePoint := by
      rw [heq]
      simp
    obtain ⟨c, _, rfl⟩ := List.mem_map.mp hmem
    rw [not_isHigh_codePoint] at hpair
    cases hpair.1

/-- A text with a surrogate in it cannot be sent: the encoder raises. -/
def encodable (s : PyStr) : Bool := s.codePoints.all fun c => !isHigh c && !isLow c

/-- The text as characters, none where the encoder raises. -/
def text? (s : PyStr) : Option String :=
  if s.encodable then some (String.ofList (s.codePoints.map fun c => Char.ofNat c.val)) else none

instance : Coe String PyStr := ⟨ofString⟩

theorem ofNat_val_codePoint (c : Char) : Char.ofNat (codePoint c).val = c := by
  rw [val_codePoint]
  exact Char.ofNat_toNat c

@[simp] theorem text?_ofString (text : String) : (ofString text).text? = some text := by
  have hplain : (ofString text).encodable = true := by
    simp [encodable, ofString, not_isHigh_codePoint, not_isLow_codePoint]
  have hchars : (ofString text).codePoints.map (fun c => Char.ofNat c.val) = text.toList := by
    simp [ofString, Function.comp_def, ofNat_val_codePoint]
  rw [text?, if_pos hplain, hchars, String.ofList_toList]

theorem text?_eq_none_iff (s : PyStr) : s.text? = none ↔ s.encodable = false := by
  unfold text?
  split
  · rename_i hplain
    simp [hplain]
  · rename_i hplain
    simp [hplain]

end PyStr
