import Mathlib.Data.Int.Notation

/-!
# Printing and parsing decimal integers

`str` on integers and `int` on strings: surrounding blanks, one sign, and single
underscores between the digits are accepted. Only the ASCII digits are read.
-/

namespace PyInt

set_option autoImplicit false

def str : Int → String
  | .ofNat n => toString n
  | .negSucc n => "-" ++ toString (n + 1)

def isSpace (c : Char) : Bool := c.isWhitespace || c = '\x0b' || c = '\x0c'

/-- Digits with single underscores between them, read on from `acc`; `joined`
says that the last character read was an underscore. -/
def digits : Nat → Bool → List Char → Option Nat
  | acc, joined, [] => if joined then none else some acc
  | acc, joined, c :: cs =>
    if c.isDigit then digits (10 * acc + (c.toNat - '0'.toNat)) false cs
    else if c = '_' ∧ joined = false then digits acc true cs
    else none

def unsigned : List Char → Option Nat
  | c :: cs => if c.isDigit then digits 0 false (c :: cs) else none
  | [] => none

def signed : List Char → Option Int
  | '-' :: cs => (unsigned cs).map fun n => -(n : Int)
  | '+' :: cs => (unsigned cs).map fun n => (n : Int)
  | cs => (unsigned cs).map fun n => (n : Int)

def decimalDigits (value : Int) : Nat := (Nat.toDigits 10 value.natAbs).length

/-- `int(text)`; `none` is the ValueError. -/
def int (text : String) : Option Int :=
  signed (((text.toList.dropWhile isSpace).reverse.dropWhile isSpace).reverse)

theorem digits_of_all_digits {cs : List Char} (h : ∀ c ∈ cs, c.isDigit = true) (acc : Nat) :
    digits acc false cs = some (Nat.ofDigitChars 10 cs acc) := by
  induction cs generalizing acc with
  | nil => simp [digits]
  | cons c cs ih =>
    have hc := h c List.mem_cons_self
    simp only [digits, hc, if_true]
    rw [ih (fun d hd => h d (List.mem_cons_of_mem c hd)), Nat.ofDigitChars_cons]

theorem isSpace_of_isDigit {c : Char} (h : c.isDigit = true) : isSpace c = false := by
  simp only [Char.isDigit, ge_iff_le, Bool.and_eq_true, decide_eq_true_eq] at h
  have hle : (48 : UInt32).toNat ≤ c.val.toNat := UInt32.le_iff_toNat_le.mp h.1
  have hne : ∀ d : Char, d.val.toNat < 48 → c ≠ d := by
    intro d hd he
    subst he
    change 48 ≤ c.val.toNat at hle
    omega
  simp [isSpace, Char.isWhitespace, hne ' ' (by decide), hne '\t' (by decide),
    hne '\r' (by decide), hne '\n' (by decide), hne '\x0b' (by decide), hne '\x0c' (by decide)]

theorem strip_of_no_space {cs : List Char} (h : ∀ c ∈ cs, isSpace c = false) :
    ((cs.dropWhile isSpace).reverse.dropWhile isSpace).reverse = cs := by
  have keep : ∀ ds : List Char, (∀ c ∈ ds, isSpace c = false) → ds.dropWhile isSpace = ds := by
    intro ds hds
    cases ds with
    | nil => rfl
    | cons d ds => simp [hds d List.mem_cons_self]
  rw [keep cs h, keep cs.reverse (fun c hc => h c (List.mem_reverse.mp hc)), List.reverse_reverse]

theorem isDigit_of_mem_toDigits {c : Char} {n : Nat} (hc : c ∈ Nat.toDigits 10 n) :
    c.isDigit = true :=
  Nat.isDigit_of_mem_toDigits (by decide) (by decide) hc

theorem toList_toString (n : Nat) : (toString n).toList = Nat.toDigits 10 n :=
  Nat.toList_repr

theorem toList_str_ofNat (m : Nat) : (str (.ofNat m)).toList = Nat.toDigits 10 m :=
  toList_toString m

theorem toList_str_negSucc (m : Nat) :
    (str (.negSucc m)).toList = '-' :: Nat.toDigits 10 (m + 1) := by
  simp only [str, String.toList_append, toList_toString]
  rfl

theorem isDigit_of_mem_str {n : Nat} {c : Char} (hc : c ∈ (str n).toList) : c.isDigit = true :=
  isDigit_of_mem_toDigits (n := n) (toList_toString n ▸ hc)

theorem not_mem_str {n : Nat} {c : Char} (hc : c.isDigit = false) : c ∉ (str n).toList := by
  intro hmem
  rw [isDigit_of_mem_str hmem] at hc
  cases hc

theorem unsigned_toDigits (n : Nat) : unsigned (Nat.toDigits 10 n) = some n := by
  cases hcs : Nat.toDigits 10 n with
  | nil => exact absurd hcs Nat.toDigits_ne_nil
  | cons c cs =>
    have hd : ∀ d ∈ c :: cs, d.isDigit = true := fun d hm => isDigit_of_mem_toDigits (hcs ▸ hm)
    rw [unsigned, if_pos (hd c List.mem_cons_self), digits_of_all_digits hd, ← hcs,
      Nat.ofDigitChars_ten_toDigits]

theorem signed_toDigits (n : Nat) : signed (Nat.toDigits 10 n) = some (n : Int) := by
  have hu := unsigned_toDigits n
  have noSign : ∀ c ∈ Nat.toDigits 10 n, c ≠ '-' ∧ c ≠ '+' := by
    intro c hc
    have hd := isDigit_of_mem_toDigits hc
    constructor <;> (rintro rfl; exact absurd hd (by decide))
  unfold signed
  split
  · rename_i he
    exact absurd rfl (noSign '-' (he ▸ List.mem_cons_self)).1
  · rename_i he
    exact absurd rfl (noSign '+' (he ▸ List.mem_cons_self)).2
  · simp [hu]

/-- Parsing what was printed gives the number back. -/
theorem int_str (n : Int) : int (str n) = some n := by
  have noSpace : ∀ m, ∀ c ∈ Nat.toDigits 10 m, isSpace c = false :=
    fun m c hc => isSpace_of_isDigit (isDigit_of_mem_toDigits hc)
  cases n with
  | ofNat m =>
    rw [int, toList_str_ofNat, strip_of_no_space (noSpace m), signed_toDigits]
    rfl
  | negSucc m =>
    have hs : ∀ c ∈ '-' :: Nat.toDigits 10 (m + 1), isSpace c = false := by
      intro c hc
      rcases List.mem_cons.mp hc with rfl | hc
      · decide
      · exact noSpace _ c hc
    rw [int, toList_str_negSucc, strip_of_no_space hs]
    simp only [signed, unsigned_toDigits]
    rfl

end PyInt
