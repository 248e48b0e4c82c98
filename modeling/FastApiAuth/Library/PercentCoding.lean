import FastApiAuth.Library.Utf8

/-!
# Percent-decoding

`decode` gives the bytes of a text with every `%` and two hexadecimal digits read as one
byte. It never gives more bytes than the text has, and gives the bytes of the text itself
just when nothing in it is such an escape.
-/

namespace PercentCoding

set_option autoImplicit false

open Utf8 (encode encode_cons length_pos_utf8EncodeChar)

def hexValue (c : Char) : Option Nat :=
  if '0' ≤ c ∧ c ≤ '9' then some (c.toNat - '0'.toNat)
  else if 'a' ≤ c ∧ c ≤ 'f' then some (c.toNat - 'a'.toNat + 10)
  else if 'A' ≤ c ∧ c ≤ 'F' then some (c.toNat - 'A'.toNat + 10)
  else none

/-- The byte that the three characters stand for, if they are an escape. -/
def escapeAt (c high low : Char) : Option UInt8 :=
  if c = '%' then do
    let a ← hexValue high
    let b ← hexValue low
    some (UInt8.ofNat (a * 16 + b))
  else none

def decode : List Char → List UInt8
  | c :: high :: low :: rest =>
    match escapeAt c high low with
    | some byte => byte :: decode rest
    | none => String.utf8EncodeChar c ++ decode (high :: low :: rest)
  | cs => encode cs

def Escaped (cs : List Char) : Prop :=
  ∃ before c high low after, cs = before ++ c :: high :: low :: after ∧
    (escapeAt c high low).isSome = true

variable {c high low : Char} {cs rest before : List Char}

theorem not_escaped_of_length (h : cs.length < 3) : ¬ Escaped cs := by
  rintro ⟨before, c, high, low, after, rfl, _⟩
  simp only [List.length_append, List.length_cons] at h
  omega

theorem escaped_cons (h : escapeAt c high low = none) :
    Escaped (c :: high :: low :: rest) ↔ Escaped (high :: low :: rest) := by
  constructor
  · rintro ⟨before, c', high', low', after, heq, hescape⟩
    cases before with
    | nil =>
      cases heq
      rw [h] at hescape
      cases hescape
    | cons _ before => exact ⟨before, c', high', low', after, (List.cons.inj heq).2, hescape⟩
  · rintro ⟨before, c', high', low', after, heq, hescape⟩
    exact ⟨c :: before, c', high', low', after, by rw [heq]; rfl, hescape⟩

theorem length_decode_le (cs : List Char) : (decode cs).length ≤ (encode cs).length := by
  fun_induction decode cs with
  | case1 c high low rest byte _ ih =>
    have h₁ := length_pos_utf8EncodeChar c
    simp only [encode_cons, List.length_append, List.length_cons]
    omega
  | case2 c high low rest _ ih =>
    rw [encode_cons, List.length_append, List.length_append]
    omega
  | case3 => exact Nat.le_refl _

/-- A text stands for itself just when it has no escape. -/
theorem decode_eq_iff (cs : List Char) : decode cs = encode cs ↔ ¬ Escaped cs := by
  fun_induction decode cs with
  | case1 c high low rest byte hbyte ih =>
    refine iff_of_false ?_ ?_
    · intro heq
      have hless := length_decode_le rest
      have hlength := congrArg List.length heq
      have h₁ := length_pos_utf8EncodeChar c
      have h₂ := length_pos_utf8EncodeChar high
      simp only [encode_cons, List.length_append, List.length_cons] at hlength
      omega
    · intro hnone
      exact hnone ⟨[], c, high, low, rest, rfl, by rw [hbyte]; rfl⟩
  | case2 c high low rest hnone ih =>
    rw [encode_cons, List.append_cancel_left_eq, ih, escaped_cons hnone]
  | case3 cs hshort =>
    refine iff_of_true rfl (not_escaped_of_length ?_)
    rcases cs with _ | ⟨a, _ | ⟨b, _ | ⟨c, rest⟩⟩⟩
    · exact Nat.zero_lt_succ 2
    · exact Nat.le_succ 2
    · exact Nat.le_refl 3
    · exact absurd rfl (hshort a b c rest)

theorem decode_cons_of_ne (h : c ≠ '%') (cs : List Char) :
    decode (c :: cs) = String.utf8EncodeChar c ++ decode cs := by
  rcases cs with _ | ⟨high, _ | ⟨low, rest⟩⟩
  · rfl
  · rfl
  · rw [decode, escapeAt, if_neg h]

theorem decode_append (h : '%' ∉ before) (cs : List Char) :
    decode (before ++ cs) = encode before ++ decode cs := by
  induction before with
  | nil => rfl
  | cons c before ih =>
    have hc : c ≠ '%' := fun heq => h (heq ▸ List.mem_cons_self)
    rw [List.cons_append, decode_cons_of_ne hc, encode_cons, List.append_assoc,
      ih fun hmem => h (List.mem_cons_of_mem c hmem)]

end PercentCoding
