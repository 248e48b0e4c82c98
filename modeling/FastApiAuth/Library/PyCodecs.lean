import FastApiAuth.Library.Base64
import FastApiAuth.Library.PyInt
import FastApiAuth.Library.PyStr

/-!
# Texts, bytes and integers with the exceptions between them

What str.encode, bytes.decode, base64.urlsafe_b64decode, int and str raise: a surrogate that
cannot be encoded, an incomplete group of base64, bytes that are no UTF-8, a text that is no
integer, and the limit on the digits of an integer. All of these are ValueErrors.
-/

namespace PyCodecs

set_option autoImplicit false

open PyInt (decimalDigits)
open PyStr (CodePoint)

inductive ExceptionType where
  | valueError
  | unicodeEncodeError
  | unicodeDecodeError
  | binasciiError
  | typeError
  | overflowError
  deriving DecidableEq

/-- `issubclass(t, ValueError)` -/
def ExceptionType.isValueError : ExceptionType → Bool
  | valueError | unicodeEncodeError | unicodeDecodeError | binasciiError => true
  | typeError | overflowError => false

/-- An exception, with its text where the code gives it one. -/
structure PyException where
  type : ExceptionType
  text : Option String
  deriving DecidableEq

/-- `text.encode()` -/
def encodeText (text : List CodePoint) : Except PyException (List UInt8) :=
  if text.all fun c => !PyStr.isHigh c && !PyStr.isLow c then
    .ok (Utf8.encode (text.map fun c => Char.ofNat c.val))
  else .error ⟨.unicodeEncodeError, none⟩

/-- `base64.urlsafe_b64decode(data)` -/
def urlsafeB64decode (data : List UInt8) : Except PyException (List UInt8) :=
  match Base64.decodeBytes data with
  | some bytes => .ok bytes
  | none => .error ⟨.binasciiError, none⟩

/-- `data.decode()` -/
def decodeText (data : List UInt8) : Except PyException String :=
  match Utf8.decode data with
  | some text => .ok text
  | none => .error ⟨.unicodeDecodeError, none⟩

/-- What `int` reads of the characters beyond ASCII. -/
structure UnicodeData where
  isSpace : Char → Bool
  decimal : Char → Option (Fin 10)

/-- Decimals and blanks as ASCII, up to the first character that is neither. -/
def transformDecimalAndSpace (unicode : UnicodeData) : List Char → List Char
  | [] => []
  | c :: cs =>
    if c.toNat < 127 then c :: transformDecimalAndSpace unicode cs
    else if unicode.isSpace c then ' ' :: transformDecimalAndSpace unicode cs
    else
      match unicode.decimal c with
      | some d => Char.ofNat ('0'.toNat + d.val) :: transformDecimalAndSpace unicode cs
      | none => ['?']

def toAscii (unicode : UnicodeData) (text : List Char) : List Char :=
  if text.all fun c => c.toNat < 128 then text else transformDecimalAndSpace unicode text

/-- `sys.int_info.default_max_str_digits` -/
def maxStrDigits : Nat := 4300

/-- `int(text)`; signs, blanks and underscores do not count towards the limit. -/
def parseInt (unicode : UnicodeData) (text : String) : Except PyException Int :=
  let ascii := toAscii unicode text.toList
  match PyInt.int (String.ofList ascii) with
  | none => .error ⟨.valueError, none⟩
  | some value =>
    if maxStrDigits < (ascii.filter Char.isDigit).length then .error ⟨.valueError, none⟩
    else .ok value

/-- `str(value)` -/
def printInt (value : Int) : Except PyException String :=
  if maxStrDigits < decimalDigits value then .error ⟨.valueError, none⟩ else .ok (PyInt.str value)

def codePoints (text : String) : List CodePoint := text.toList.map PyStr.codePoint

/-- No character beyond ASCII is a digit or a blank. -/
def asciiOnly : UnicodeData := ⟨fun _ => false, fun _ => none⟩

section RoundTrips

variable {unicode : UnicodeData} {value : Int}

theorem encodeText_codePoints (text : String) :
    encodeText (codePoints text) = .ok (Utf8.encode text.toList) := by
  have hplain : (codePoints text).all (fun c => !PyStr.isHigh c && !PyStr.isLow c) = true := by
    simp [codePoints, PyStr.not_isHigh_codePoint, PyStr.not_isLow_codePoint]
  have hchars : (codePoints text).map (fun c => Char.ofNat c.val) = text.toList := by
    simp [codePoints, Function.comp_def, PyStr.val_codePoint]
  rw [encodeText, if_pos hplain, hchars]

theorem isDigit_or_sign_of_mem_str {c : Char} (hc : c ∈ (PyInt.str value).toList) :
    c.isDigit = true ∨ c = '-' := by
  cases value with
  | ofNat n =>
    rw [PyInt.toList_str_ofNat] at hc
    exact Or.inl (PyInt.isDigit_of_mem_toDigits hc)
  | negSucc n =>
    rw [PyInt.toList_str_negSucc] at hc
    rcases List.mem_cons.mp hc with hc | hc
    · exact Or.inr hc
    · exact Or.inl (PyInt.isDigit_of_mem_toDigits hc)

theorem filter_isDigit_str (value : Int) :
    ((PyInt.str value).toList.filter Char.isDigit).length = decimalDigits value := by
  have hdigits : ∀ n : Nat, (Nat.toDigits 10 n).filter Char.isDigit = Nat.toDigits 10 n := by
    intro n
    exact List.filter_eq_self.mpr fun c hc => PyInt.isDigit_of_mem_toDigits hc
  cases value with
  | ofNat n =>
    rw [PyInt.toList_str_ofNat, hdigits]
    rfl
  | negSucc n =>
    rw [PyInt.toList_str_negSucc, List.filter_cons_of_neg (by decide), hdigits]
    rfl

theorem toAscii_of_ascii {text : List Char} (h : ∀ c ∈ text, c.toNat < 128) :
    toAscii unicode text = text := by
  rw [toAscii, if_pos]
  exact List.all_eq_true.mpr fun c hc => decide_eq_true (h c hc)

/-- On an ASCII text within the limit, `int` is the parser of the decimal integers. -/
theorem parseInt_of_ascii {text : String} (h : ∀ c ∈ text.toList, c.toNat < 128)
    (hdigits : (text.toList.filter Char.isDigit).length ≤ maxStrDigits) :
    parseInt unicode text =
      match PyInt.int text with
      | none => .error ⟨.valueError, none⟩
      | some value => .ok value := by
  simp only [parseInt, toAscii_of_ascii h, String.ofList_toList]
  cases PyInt.int text with
  | none => rfl
  | some value => exact if_neg (Nat.not_lt.mpr hdigits)

theorem parseInt_str (hvalue : decimalDigits value ≤ maxStrDigits) :
    parseInt unicode (PyInt.str value) = .ok value := by
  have hascii : ∀ c ∈ (PyInt.str value).toList, c.toNat < 128 := by
    intro c hc
    rcases isDigit_or_sign_of_mem_str hc with hdigit | rfl
    · have hle := Char.isDigit_iff_toNat.mp hdigit
      have hnine : '9'.toNat = 57 := rfl
      omega
    · decide
  rw [parseInt_of_ascii hascii (by rw [filter_isDigit_str]; exact hvalue), PyInt.int_str]

/-- Printing succeeds just within the limit. -/
theorem printInt_ok {text : String} (h : printInt value = .ok text) :
    decimalDigits value ≤ maxStrDigits := by
  unfold printInt at h
  split at h
  · cases h
  case isFalse hwithin => exact Nat.not_lt.mp hwithin

end RoundTrips

section ValueErrors

variable {unicode : UnicodeData} {e : PyException}

theorem error_of_bind {α β : Type} {x : Except PyException α} {f : α → Except PyException β}
    (h : x.bind f = .error e) : x = .error e ∨ ∃ a, x = .ok a ∧ f a = .error e := by
  cases x with
  | error e' =>
    cases h
    exact Or.inl rfl
  | ok a => exact Or.inr ⟨a, rfl, h⟩

theorem encodeText_error {text : List CodePoint} (h : encodeText text = .error e) :
    e.type.isValueError = true := by
  unfold encodeText at h
  split at h <;> cases h
  rfl

theorem urlsafeB64decode_error {data : List UInt8} (h : urlsafeB64decode data = .error e) :
    e.type.isValueError = true := by
  unfold urlsafeB64decode at h
  split at h <;> cases h
  rfl

theorem decodeText_error {data : List UInt8} (h : decodeText data = .error e) :
    e.type.isValueError = true := by
  unfold decodeText at h
  split at h <;> cases h
  rfl

theorem parseInt_error {text : String} (h : parseInt unicode text = .error e) :
    e.type.isValueError = true := by
  simp only [parseInt] at h
  generalize PyInt.int (String.ofList (toAscii unicode text.toList)) = parsed at h
  cases parsed with
  | none =>
    cases h
    rfl
  | some value =>
    dsimp only at h
    split at h <;> cases h
    rfl

end ValueErrors

end PyCodecs
