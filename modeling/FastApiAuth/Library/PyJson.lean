import FastApiAuth.Library.PyInt
import FastApiAuth.Library.PyStr

/-!
# JSON texts

`loads` reads a text as Python's decoder does: NaN and the infinities are accepted, control
characters inside of strings are not, and of two fields with one name the later counts.
`dumps` writes an object of integers and strings in ASCII. What was written is read back.
-/

namespace PyJson

set_option autoImplicit false

open PyStr (CodePoint)

/-- A float is kept as its literal. -/
inductive Json where
  | null
  | bool (b : Bool)
  | int (n : Int)
  | float (literal : List Char)
  | str (s : PyStr)
  | array (items : List Json)
  | object (fields : List (PyStr × Json))

/-- `fields.get(key)`, none where the key is missing. -/
def get (fields : List (PyStr × Json)) (key : PyStr) : Option Json :=
  fields.reverse.findSome? fun field => if field.1 = key then some field.2 else none

mutual

/-- No string in the value has a surrogate, so that it can be sent as UTF-8. -/
def Json.encodable : Json → Bool
  | .str s => s.encodable
  | .array items => itemsEncodable items
  | .object fields => fieldsEncodable fields
  | _ => true

def itemsEncodable : List Json → Bool
  | [] => true
  | item :: items => item.encodable && itemsEncodable items

def fieldsEncodable : List (PyStr × Json) → Bool
  | [] => true
  | (key, value) :: fields => key.encodable && value.encodable && fieldsEncodable fields

end

section Reading

def isBlank (c : Char) : Bool := c = ' ' || c = '\t' || c = '\n' || c = '\r'

def skipBlanks (text : List Char) : List Char := text.dropWhile isBlank

/-- The escapes of one letter, by code point. -/
def shortEscapes : List (Nat × Char) :=
  [(0x22, '"'), (0x5C, '\\'), (0x08, 'b'), (0x0C, 'f'), (0x0A, 'n'), (0x0D, 'r'), (0x09, 't')]

/-- The letter may also be a slash. -/
def unescape (letter : Char) : Option CodePoint :=
  (shortEscapes ++ [(0x2F, '/')]).findSome? fun (value, letter') =>
    if letter' = letter then some (PyStr.point value) else none

def hexValue (c : Char) : Option Nat :=
  if '0' ≤ c ∧ c ≤ '9' then some (c.toNat - 48)
  else if 'a' ≤ c ∧ c ≤ 'f' then some (c.toNat - 87)
  else if 'A' ≤ c ∧ c ≤ 'F' then some (c.toNat - 55)
  else none

def hex4 (a b c d : Char) : Option CodePoint :=
  match hexValue a, hexValue b, hexValue c, hexValue d with
  | some a, some b, some c, some d =>
    some (PyStr.point (((a * 16 + b) * 16 + c) * 16 + d))
  | _, _, _, _ => none

/-- Put a unit before what the rest of the string gives. -/
def consUnit (u : CodePoint) (rest : Option (List CodePoint × List Char)) :
    Option (List CodePoint × List Char) :=
  rest.map fun (us, text) => (u :: us, text)

/-- The units up to the closing quote, and the text behind it. -/
def scanUnits : List Char → Option (List CodePoint × List Char)
  | '"' :: rest => some ([], rest)
  | '\\' :: 'u' :: a :: b :: c :: d :: rest =>
    (hex4 a b c d).bind fun u => consUnit u (scanUnits rest)
  | '\\' :: letter :: rest => (unescape letter).bind fun u => consUnit u (scanUnits rest)
  | c :: rest => if c.toNat < 0x20 then none else consUnit (PyStr.codePoint c) (scanUnits rest)
  | [] => none

def scanString (text : List Char) : Option (PyStr × List Char) :=
  (scanUnits text).map fun (us, rest) => (PyStr.ofUnits us, rest)

def digitsOf (text : List Char) : List Char := text.takeWhile Char.isDigit

/-- The fraction of a number, with its point. -/
def fractionOf : List Char → List Char
  | '.' :: rest => if digitsOf rest = [] then [] else '.' :: digitsOf rest
  | _ => []

/-- The exponent of a number, with its letter. -/
def exponentOf : List Char → List Char
  | e :: rest =>
    if e = 'e' ∨ e = 'E' then
      let sign := rest.take 1 |>.filter fun c => c = '+' ∨ c = '-'
      let digits := digitsOf (rest.drop sign.length)
      if digits = [] then [] else e :: sign ++ digits
    else []
  | [] => []

def signOf (text : List Char) : List Char := text.take 1 |>.filter fun c => c = '-'

/-- A number; one with a fraction or an exponent is a float. -/
def scanNumber (text : List Char) : Option (Json × List Char) :=
  let sign := signOf text
  let digits := digitsOf (text.drop sign.length)
  let rest := text.drop (sign.length + digits.length)
  let fraction := fractionOf rest
  let exponent := exponentOf (rest.drop fraction.length)
  if digits = [] ∨ (digits.head? = some '0' ∧ digits.length ≠ 1) then none
  else if fraction = [] ∧ exponent = [] then
    let n : Int := Nat.ofDigitChars 10 digits 0
    some (.int (if sign = [] then n else -n), rest)
  else
    some (.float (sign ++ digits ++ fraction ++ exponent),
      rest.drop (fraction.length + exponent.length))

/-- The text behind a word that stands at its beginning. -/
def dropWord (word : String) (text : List Char) : Option (List Char) :=
  if word.toList.isPrefixOf text then some (text.drop word.toList.length) else none

/-- The words that are values. -/
def words : List (String × Json) :=
  [("null", .null), ("true", .bool true), ("false", .bool false), ("NaN", .float "NaN".toList),
    ("Infinity", .float "Infinity".toList), ("-Infinity", .float "-Infinity".toList)]

def scanWord (text : List Char) : Option (Json × List Char) :=
  words.findSome? fun (word, value) => (dropWord word text).map fun rest => (value, rest)

mutual

/-- Every call reads at least one character before the next, so that a fuel beyond the
length of the text is never used up. -/
def scanValue : Nat → List Char → Option (Json × List Char)
  | _ + 1, '"' :: rest => (scanString rest).map fun (s, rest) => (.str s, rest)
  | fuel + 1, '\x7b' :: rest =>
    match skipBlanks rest with
    | '\x7d' :: rest => some (.object [], rest)
    | rest => (scanMembers fuel rest).map fun (fields, rest) => (.object fields, rest)
  | fuel + 1, '[' :: rest =>
    match skipBlanks rest with
    | ']' :: rest => some (.array [], rest)
    | rest => (scanItems fuel rest).map fun (items, rest) => (.array items, rest)
  | _ + 1, text => (scanWord text).or (scanNumber text)
  | 0, _ => none

def scanMembers : Nat → List Char → Option (List (PyStr × Json) × List Char)
  | fuel + 1, '"' :: rest =>
    match scanString rest with
    | none => none
    | some (key, rest) =>
      match skipBlanks rest with
      | ':' :: rest =>
        match scanValue fuel (skipBlanks rest) with
        | none => none
        | some (value, rest) =>
          match skipBlanks rest with
          | ',' :: rest =>
            (scanMembers fuel (skipBlanks rest)).map fun (fields, rest) =>
              ((key, value) :: fields, rest)
          | '\x7d' :: rest => some ([(key, value)], rest)
          | _ => none
      | _ => none
  | _, _ => none

def scanItems : Nat → List Char → Option (List Json × List Char)
  | fuel + 1, text =>
    match scanValue fuel text with
    | none => none
    | some (value, rest) =>
      match skipBlanks rest with
      | ',' :: rest =>
        (scanItems fuel (skipBlanks rest)).map fun (items, rest) => (value :: items, rest)
      | ']' :: rest => some ([value], rest)
      | _ => none
  | 0, _ => none

end

/-- `json.loads`; none is the JSONDecodeError. -/
def loads (text : List Char) : Option Json :=
  match scanValue (text.length + 1) (skipBlanks text) with
  | some (value, rest) => if skipBlanks rest = [] then some value else none
  | none => none

end Reading

section Writing

inductive Scalar where
  | int (n : Int)
  | str (s : PyStr)
  deriving DecidableEq

def Scalar.toJson : Scalar → Json
  | int n => .int n
  | str s => .str s

def hexDigit (d : Nat) : Char := if d < 10 then Char.ofNat (48 + d) else Char.ofNat (87 + d)

/-- `\uXXXX` -/
def hexEscape (v : Nat) : List Char :=
  ['\\', 'u', hexDigit (v / 0x1000), hexDigit (v / 0x100 % 16), hexDigit (v / 16 % 16),
    hexDigit (v % 16)]

def escapeUnit (u : CodePoint) : List Char :=
  match shortEscapes.lookup u.val with
  | some letter => ['\\', letter]
  | none => if 0x20 ≤ u.val ∧ u.val ≤ 0x7E then [Char.ofNat u.val] else hexEscape u.val

/-- A string without its opening quote. -/
def dumpsUnits (us : List CodePoint) : List Char := us.flatMap escapeUnit ++ ['"']

def dumpsString (s : PyStr) : List Char :=
  '"' :: dumpsUnits (s.codePoints.flatMap PyStr.units)

def Scalar.dumps : Scalar → List Char
  | int n => (PyInt.str n).toList
  | str s => dumpsString s

def dumpsField (field : PyStr × Scalar) : List Char :=
  dumpsString field.1 ++ ':' :: ' ' :: field.2.dumps

/-- The fields of an object without its opening brace. -/
def dumpsFields : List (PyStr × Scalar) → List Char
  | [] => ['\x7d']
  | [field] => dumpsField field ++ ['\x7d']
  | field :: fields => dumpsField field ++ ',' :: ' ' :: dumpsFields fields

/-- `json.dumps` of an object whose values are integers and strings. -/
def dumps (fields : List (PyStr × Scalar)) : List Char := '\x7b' :: dumpsFields fields

end Writing

section RoundTrip

variable {u : CodePoint} {us : List CodePoint} {rest : List Char}

theorem hexValue_hexDigit : ∀ d < 16, hexValue (hexDigit d) = some d := by decide

theorem scanUnits_hexEscape (hu : u.val < 0x10000) :
    scanUnits (hexEscape u.val ++ rest) = consUnit u (scanUnits rest) := by
  have h1 := hexValue_hexDigit (u.val / 0x1000) (by omega)
  have h2 := hexValue_hexDigit (u.val / 0x100 % 16) (by omega)
  have h3 := hexValue_hexDigit (u.val / 16 % 16) (by omega)
  have h4 := hexValue_hexDigit (u.val % 16) (by omega)
  have hvalue : PyStr.point (((u.val / 0x1000 * 16 + u.val / 0x100 % 16) * 16 +
      u.val / 16 % 16) * 16 + u.val % 16) = u := by
    apply Fin.ext
    rw [PyStr.val_point, Nat.mod_eq_of_lt] <;> omega
  simp only [hexEscape, List.cons_append, List.nil_append, scanUnits, hex4, h1, h2, h3, h4, hvalue,
    Option.bind_some]

theorem scanUnits_shortEscape {letter : Char} (h : shortEscapes.lookup u.val = some letter) :
    scanUnits ('\\' :: letter :: rest) = consUnit u (scanUnits rest) := by
  obtain ⟨_, _, hsplit, _⟩ := List.lookup_eq_some_iff.mp h
  have hmem : (u.val, letter) ∈ shortEscapes := by
    rw [hsplit]
    simp
  have hscan : ∀ entry ∈ shortEscapes, ∀ rest,
      scanUnits ('\\' :: entry.2 :: rest) =
        consUnit (PyStr.point entry.1) (scanUnits rest) := by
    simp only [shortEscapes, List.forall_mem_cons, List.not_mem_nil, false_imp_iff, implies_true,
      and_true]
    exact ⟨fun _ => rfl, fun _ => rfl, fun _ => rfl, fun _ => rfl, fun _ => rfl, fun _ => rfl,
      fun _ => rfl⟩
  have hu : PyStr.point u.val = u := Fin.ext (Nat.mod_eq_of_lt u.isLt)
  rw [hscan _ hmem, hu]

theorem scanUnits_char {c : Char} (hquote : c ≠ '"') (hslash : c ≠ '\\') (hc : 0x20 ≤ c.toNat) :
    scanUnits (c :: rest) = consUnit (PyStr.codePoint c) (scanUnits rest) := by
  rw [scanUnits.eq_def]
  split
  · rename_i heq
    cases heq
    exact absurd rfl hquote
  · rename_i heq
    cases heq
    exact absurd rfl hslash
  · rename_i heq
    cases heq
    exact absurd rfl hslash
  · rename_i heq
    cases heq
    rw [if_neg (by omega)]
  · rename_i heq
    cases heq

theorem scanUnits_escapeUnit (hu : u.val < 0x10000) :
    scanUnits (escapeUnit u ++ rest) = consUnit u (scanUnits rest) := by
  unfold escapeUnit
  split
  · rename_i letter hletter
    exact scanUnits_shortEscape hletter
  · rename_i hplain
    split
    · rename_i hascii
      have hval : (Char.ofNat u.val).toNat = u.val := by
        have hvalid : u.val.isValidChar := Or.inl (by omega)
        rw [Char.ofNat, dif_pos hvalid]
        rfl
      have hpoint : PyStr.codePoint (Char.ofNat u.val) = u := by
        apply Fin.ext
        rw [PyStr.val_codePoint, hval]
      -- a quote or a backslash is among the short escapes
      have hother : ∀ c, (c.toNat, c) ∈ shortEscapes → Char.ofNat u.val ≠ c := by
        rintro c hmem rfl
        rw [hval] at hmem
        simpa using List.lookup_eq_none_iff.mp hplain _ hmem
      rw [List.singleton_append, scanUnits_char, hpoint]
      · exact hother '"' (by decide)
      · exact hother '\\' (by decide)
      · omega
    · exact scanUnits_hexEscape hu

theorem scanUnits_dumpsUnits (hus : ∀ u ∈ us, u.val < 0x10000) :
    scanUnits (dumpsUnits us ++ rest) = some (us, rest) := by
  unfold dumpsUnits
  induction us with
  | nil => rfl
  | cons u us ih =>
    have hrest := ih fun v hv => hus v (List.mem_cons_of_mem u hv)
    rw [List.flatMap_cons, List.append_assoc, List.append_assoc,
      scanUnits_escapeUnit (hus u List.mem_cons_self), ← List.append_assoc, hrest]
    rfl

theorem scanString_dumps (s : PyStr) :
    scanString (dumpsUnits (s.codePoints.flatMap PyStr.units) ++ rest) = some (s, rest) := by
  unfold scanString
  rw [scanUnits_dumpsUnits]
  · exact congrArg (fun s => some (s, rest)) (PyStr.ofUnits_units s)
  · intro u hu
    obtain ⟨c, _, hc⟩ := List.mem_flatMap.mp hu
    exact PyStr.val_of_mem_units hc

/-- What follows a value in an object. -/
inductive Ends : List Char → Prop where
  | comma {rest : List Char} : Ends (',' :: rest)
  | brace {rest : List Char} : Ends ('\x7d' :: rest)

/-- No number goes on here. -/
structure Stops (rest : List Char) : Prop where
  digits : digitsOf rest = []
  fraction : fractionOf rest = []
  exponent : exponentOf rest = []

theorem Ends.stops (h : Ends rest) : Stops rest := by
  cases h <;> exact ⟨rfl, rfl, rfl⟩

theorem digitsOf_append {digits : List Char} (hd : ∀ c ∈ digits, c.isDigit = true)
    (hrest : digitsOf rest = []) : digitsOf (digits ++ rest) = digits := by
  unfold digitsOf at hrest ⊢
  rw [List.takeWhile_append_of_pos hd, hrest, List.append_nil]

/-- Only zero is written with a zero in front. -/
theorem head_toDigits (m : Nat) (h : (Nat.toDigits 10 m).head? = some '0') : m = 0 := by
  induction m using Nat.strong_induction_on with
  | _ m ih =>
    rcases Nat.lt_or_ge m 10 with hm | hm
    · rw [Nat.toDigits_of_lt_base hm] at h
      have hzero : ∀ d < 10, Nat.digitChar d = '0' → d = 0 := by decide
      exact hzero m hm (Option.some_inj.mp h)
    · rw [Nat.toDigits_of_base_le (by decide) hm,
        List.head?_append_of_ne_nil _ Nat.toDigits_ne_nil] at h
      have hdiv := ih (m / 10) (by omega) h
      omega

/-- A number is read part by part. -/
theorem scanNumber_parts {sign digits fraction exponent : List Char}
    (hsign : sign = [] ∨ sign = ['-']) (hdigits : ∀ c ∈ digits, c.isDigit = true)
    (hne : digits ≠ []) (hzero : digits.head? = some '0' → digits.length = 1)
    (hstop : digitsOf (fraction ++ (exponent ++ rest)) = [])
    (hfraction : fractionOf (fraction ++ (exponent ++ rest)) = fraction)
    (hexponent : exponentOf (exponent ++ rest) = exponent) :
    scanNumber (sign ++ (digits ++ (fraction ++ (exponent ++ rest)))) =
      if fraction = [] ∧ exponent = [] then
        some (.int (if sign = [] then (Nat.ofDigitChars 10 digits 0 : Int)
          else -(Nat.ofDigitChars 10 digits 0 : Int)), rest)
      else some (.float (sign ++ digits ++ fraction ++ exponent), rest) := by
  have hsignOf : signOf (sign ++ (digits ++ (fraction ++ (exponent ++ rest)))) = sign := by
    rcases hsign with rfl | rfl
    · cases digits with
      | nil => exact absurd rfl hne
      | cons d ds =>
        have hd : d ≠ '-' := by
          rintro rfl
          exact absurd (hdigits '-' List.mem_cons_self) (by decide)
        simp [signOf, hd]
    · rfl
  have hvalid : ¬ (digits = [] ∨ (digits.head? = some '0' ∧ digits.length ≠ 1)) := by
    rintro (hnil | ⟨hhead, hlength⟩)
    · exact hne hnil
    · exact hlength (hzero hhead)
  unfold scanNumber
  simp only [hsignOf, List.drop_left, digitsOf_append hdigits hstop, ← List.drop_drop, hfraction,
    hexponent, if_neg hvalid]
  by_cases hint : fraction = [] ∧ exponent = []
  · obtain ⟨rfl, rfl⟩ := hint
    rfl
  · rw [if_neg hint, if_neg hint]

theorem scanNumber_toDigits {sign : List Char} (m : Nat) (hsign : sign = [] ∨ sign = ['-'])
    (hrest : Stops rest) :
    scanNumber (sign ++ (Nat.toDigits 10 m ++ rest)) =
      some (.int (if sign = [] then (m : Int) else -(m : Int)), rest) := by
  have hscan := @scanNumber_parts rest sign (Nat.toDigits 10 m) [] [] hsign
    (fun _ => PyInt.isDigit_of_mem_toDigits) Nat.toDigits_ne_nil
    (fun hzero => by rw [head_toDigits m hzero]; rfl) hrest.digits hrest.fraction hrest.exponent
  simpa only [List.nil_append, and_self, if_true, Nat.ofDigitChars_ten_toDigits] using hscan

theorem scanNumber_str (n : Int) (hrest : Stops rest) :
    scanNumber ((PyInt.str n).toList ++ rest) = some (.int n, rest) := by
  cases n with
  | ofNat m =>
    have hscan := scanNumber_toDigits m (.inl rfl) hrest
    rw [PyInt.toList_str_ofNat]
    simpa using hscan
  | negSucc m =>
    have hscan := scanNumber_toDigits (m + 1) (.inr rfl) hrest
    rw [PyInt.toList_str_negSucc]
    simpa [Int.negSucc_eq] using hscan

theorem scanWord_of_digit {c : Char} {text : List Char} (hc : c.isDigit = true) :
    scanWord (c :: text) = none ∧ scanWord ('-' :: c :: text) = none := by
  have hother : ∀ d, d.isDigit = false → d ≠ c := by
    rintro d hd rfl
    rw [hc] at hd
    cases hd
  have hn := hother 'n' (by decide)
  have ht := hother 't' (by decide)
  have hf := hother 'f' (by decide)
  have hN := hother 'N' (by decide)
  have hI := hother 'I' (by decide)
  have hminus := hother '-' (by decide)
  constructor <;>
    simp [scanWord, words, dropWord, hn, ht, hf, hN, hI, hminus]

theorem scanValue_plain (fuel : Nat) {c : Char} {text : List Char} (hquote : c ≠ '"')
    (hbrace : c ≠ '\x7b') (hbracket : c ≠ '[') :
    scanValue (fuel + 1) (c :: text) = (scanWord (c :: text)).or (scanNumber (c :: text)) := by
  rw [scanValue]
  · intro rest heq
    exact hquote (List.cons.inj heq).1
  · intro rest heq
    exact hbrace (List.cons.inj heq).1
  · intro rest heq
    exact hbracket (List.cons.inj heq).1

/-- A number begins with a digit, or with a minus before one. -/
theorem str_begins (n : Int) : ∃ c text, c.isDigit = true ∧
    ((PyInt.str n).toList = c :: text ∨ (PyInt.str n).toList = '-' :: c :: text) := by
  have hfirst : ∀ m, ∃ c text, c.isDigit = true ∧ Nat.toDigits 10 m = c :: text := by
    intro m
    cases hds : Nat.toDigits 10 m with
    | nil => exact absurd hds Nat.toDigits_ne_nil
    | cons c text => exact ⟨c, text, PyInt.isDigit_of_mem_toDigits (hds ▸ List.mem_cons_self), rfl⟩
  cases n with
  | ofNat m =>
    obtain ⟨c, text, hc, hds⟩ := hfirst m
    exact ⟨c, text, hc, .inl ((PyInt.toList_str_ofNat m).trans hds)⟩
  | negSucc m =>
    obtain ⟨c, text, hc, hds⟩ := hfirst (m + 1)
    exact ⟨c, text, hc, .inr ((PyInt.toList_str_negSucc m).trans (congrArg _ hds))⟩

theorem scanValue_dumps (fuel : Nat) (value : Scalar) (hends : Ends rest) :
    scanValue (fuel + 1) (value.dumps ++ rest) = some (value.toJson, rest) := by
  cases value with
  | str s =>
    rw [Scalar.dumps, dumpsString, List.cons_append, scanValue, scanString_dumps]
    rfl
  | int n =>
    have hnumber := scanNumber_str n hends.stops
    obtain ⟨c, text, hc, htext | htext⟩ := str_begins n
    · have hplain : c ≠ '"' ∧ c ≠ '\x7b' ∧ c ≠ '[' := by
        refine ⟨?_, ?_, ?_⟩ <;> rintro rfl <;> exact absurd hc (by decide)
      rw [htext, List.cons_append] at hnumber
      rw [Scalar.dumps, htext, List.cons_append,
        scanValue_plain fuel hplain.1 hplain.2.1 hplain.2.2, (scanWord_of_digit hc).1, hnumber]
      rfl
    · rw [htext, List.cons_append, List.cons_append] at hnumber
      rw [Scalar.dumps, htext, List.cons_append, List.cons_append,
        scanValue_plain fuel (by decide) (by decide) (by decide), (scanWord_of_digit hc).2, hnumber]
      rfl

theorem skipBlanks_cons {c : Char} {text : List Char} (hc : isBlank c = false) :
    skipBlanks (c :: text) = c :: text := List.dropWhile_cons_of_neg (by simp [hc])

theorem skipBlanks_dumps (value : Scalar) (rest : List Char) :
    skipBlanks (value.dumps ++ rest) = value.dumps ++ rest := by
  cases value with
  | str s => rfl
  | int n =>
    obtain ⟨c, text, hc, htext | htext⟩ := str_begins n
    · rw [Scalar.dumps, htext, List.cons_append, skipBlanks_cons]
      by_contra hblank
      simp only [isBlank, Bool.not_eq_false, Bool.or_eq_true, decide_eq_true_eq] at hblank
      rcases hblank with ((rfl | rfl) | rfl) | rfl <;> exact absurd hc (by decide)
    · rw [Scalar.dumps, htext]
      rfl

theorem scanMembers_dumpsField (fuel : Nat) (field : PyStr × Scalar) (hends : Ends rest) :
    scanMembers (fuel + 2) (dumpsField field ++ rest) =
      match rest with
      | ',' :: rest => (scanMembers (fuel + 1) (skipBlanks rest)).map fun (fields, rest) =>
          ((field.1, field.2.toJson) :: fields, rest)
      | '\x7d' :: rest => some ([(field.1, field.2.toJson)], rest)
      | _ => none := by
  have hcolon : skipBlanks (':' :: ' ' :: (field.2.dumps ++ rest)) =
      ':' :: ' ' :: (field.2.dumps ++ rest) := rfl
  have hspace : skipBlanks (' ' :: (field.2.dumps ++ rest)) = field.2.dumps ++ rest :=
    skipBlanks_dumps field.2 rest
  rw [dumpsField, dumpsString, List.cons_append, List.cons_append, List.append_assoc,
    List.cons_append, List.cons_append, scanMembers, scanString_dumps]
  simp only [hcolon, hspace, scanValue_dumps fuel field.2 hends]
  cases hends <;> rfl

theorem dumpsFields_quote (field : PyStr × Scalar) (fields : List (PyStr × Scalar)) :
    ∃ text, dumpsFields (field :: fields) = '"' :: text := by
  cases fields <;> exact ⟨_, rfl⟩

theorem length_lt_dumpsFields (fields : List (PyStr × Scalar)) :
    fields.length < (dumpsFields fields).length := by
  induction fields with
  | nil => exact Nat.one_pos
  | cons field fields ih =>
    cases fields with
    | nil =>
      simp only [dumpsFields, dumpsField, List.length_append, List.length_cons, List.length_nil]
      omega
    | cons next fields =>
      rw [dumpsFields]
      · simp only [List.length_append, List.length_cons] at ih ⊢
        omega
      · exact fun hnil => List.cons_ne_nil _ _ hnil

theorem scanMembers_dumpsFields (fields : List (PyStr × Scalar)) (hne : fields ≠ [])
    (fuel : Nat) (hfuel : fields.length < fuel) :
    scanMembers fuel (dumpsFields fields) =
      some (fields.map fun field => (field.1, field.2.toJson), []) := by
  induction fields generalizing fuel with
  | nil => exact absurd rfl hne
  | cons field fields ih =>
    rw [List.length_cons] at hfuel
    obtain ⟨fuel, rfl⟩ : ∃ n, fuel = n + 2 := ⟨fuel - 2, by omega⟩
    cases fields with
    | nil => exact scanMembers_dumpsField fuel field .brace
    | cons next fields =>
      have hrest := ih (List.cons_ne_nil next fields) (fuel + 1) (by omega)
      obtain ⟨text, htext⟩ := dumpsFields_quote next fields
      have hspace : skipBlanks (' ' :: dumpsFields (next :: fields)) =
          dumpsFields (next :: fields) := by
        rw [htext]
        rfl
      rw [dumpsFields, scanMembers_dumpsField fuel field .comma]
      · simp only [hspace, hrest]
        rfl
      · exact fun hnil => List.cons_ne_nil _ _ hnil

/-- What was written is read back. -/
theorem loads_dumps (fields : List (PyStr × Scalar)) :
    loads (dumps fields) = some (.object (fields.map fun field => (field.1, field.2.toJson))) := by
  cases fields with
  | nil => rfl
  | cons field fields =>
    obtain ⟨text, htext⟩ := dumpsFields_quote field fields
    have hmembers := scanMembers_dumpsFields (field :: fields) (List.cons_ne_nil _ _)
      (dumps (field :: fields)).length (Nat.lt_succ_of_lt (length_lt_dumpsFields _))
    have hbrace : skipBlanks (dumps (field :: fields)) =
        '\x7b' :: dumpsFields (field :: fields) := rfl
    have hquote : skipBlanks (dumpsFields (field :: fields)) = '"' :: text := by
      rw [htext]
      rfl
    have hvalue : scanValue ((dumps (field :: fields)).length + 1)
        ('\x7b' :: dumpsFields (field :: fields)) =
        (scanMembers (dumps (field :: fields)).length ('"' :: text)).map fun (fields, rest) =>
          (.object fields, rest) := by
      rw [scanValue, hquote]
      rfl
    rw [htext] at hmembers
    rw [loads, hbrace, hvalue, hmembers]
    rfl

end RoundTrip

end PyJson
