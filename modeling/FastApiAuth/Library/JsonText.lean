import FastApiAuth.Library.PyJson

/-!
# Values as texts, and texts as lines

`Json.text` is what Python's encoder writes of a value, in ASCII and on one line. `loads`
reads it back, and a stream of such lines falls apart into the values again.
-/

namespace PyJson

set_option autoImplicit false

open PyStr (CodePoint)

section Values

mutual

/-- `json.dumps` -/
def Json.text : Json → List Char
  | .null => "null".toList
  | .bool true => "true".toList
  | .bool false => "false".toList
  | .int n => (PyInt.str n).toList
  | .float literal => literal
  | .str s => dumpsString s
  | .array items => '[' :: itemsText items
  | .object fields => '\x7b' :: fieldsText fields

/-- The items of an array without its opening bracket. -/
def itemsText : List Json → List Char
  | [] => [']']
  | [item] => item.text ++ [']']
  | item :: items => item.text ++ ',' :: ' ' :: itemsText items

/-- The fields of an object without its opening brace. -/
def fieldsText : List (PyStr × Json) → List Char
  | [] => ['\x7d']
  | [(key, value)] => dumpsString key ++ ':' :: ' ' :: value.text ++ ['\x7d']
  | (key, value) :: fields =>
    dumpsString key ++ ':' :: ' ' :: value.text ++ ',' :: ' ' :: fieldsText fields

end

/-- The texts of floats, as float.__repr__ writes them. -/
inductive FloatText : List Char → Prop where
  | word {literal : List Char} :
      literal ∈ ["NaN".toList, "Infinity".toList, "-Infinity".toList] → FloatText literal
  | point {sign digits fraction : List Char} :
      sign = [] ∨ sign = ['-'] → (∀ c ∈ digits, c.isDigit = true) → digits ≠ [] →
      (digits.head? = some '0' → digits.length = 1) →
      (∀ c ∈ fraction, c.isDigit = true) → fraction ≠ [] →
      FloatText (sign ++ digits ++ '.' :: fraction)
  | exponent {sign digits fraction exponentSign exponent : List Char} :
      sign = [] ∨ sign = ['-'] → (∀ c ∈ digits, c.isDigit = true) → digits ≠ [] →
      (digits.head? = some '0' → digits.length = 1) →
      (fraction = [] ∨ ∃ ds, fraction = '.' :: ds ∧ ds ≠ [] ∧ ∀ c ∈ ds, c.isDigit = true) →
      exponentSign = ['+'] ∨ exponentSign = ['-'] → (∀ c ∈ exponent, c.isDigit = true) →
      exponent ≠ [] → FloatText (sign ++ digits ++ fraction ++ 'e' :: (exponentSign ++ exponent))

mutual

/-- All floats in the value are texts of floats. -/
def Json.Written : Json → Prop
  | .float literal => FloatText literal
  | .array items => ItemsWritten items
  | .object fields => FieldsWritten fields
  | _ => True

def ItemsWritten : List Json → Prop
  | [] => True
  | item :: items => item.Written ∧ ItemsWritten items

def FieldsWritten : List (PyStr × Json) → Prop
  | [] => True
  | (_, value) :: fields => value.Written ∧ FieldsWritten fields

end

theorem fieldsWritten_iff {fields : List (PyStr × Json)} :
    FieldsWritten fields ↔ ∀ field ∈ fields, field.2.Written := by
  induction fields with
  | nil => simp [FieldsWritten]
  | cons field fields ih => rw [FieldsWritten, ih, List.forall_mem_cons]

end Values

section Numbers

variable {rest : List Char}

theorem stops_comma : Stops (',' :: rest) := ⟨rfl, rfl, rfl⟩

theorem stops_brace : Stops ('\x7d' :: rest) := ⟨rfl, rfl, rfl⟩

theorem stops_bracket : Stops (']' :: rest) := ⟨rfl, rfl, rfl⟩

theorem stops_nil : Stops [] := ⟨rfl, rfl, rfl⟩

theorem fractionOf_point {ds text : List Char} (hds : ∀ c ∈ ds, c.isDigit = true)
    (hne : ds ≠ []) (htext : digitsOf text = []) :
    fractionOf ('.' :: (ds ++ text)) = '.' :: ds := by
  simp only [fractionOf, digitsOf_append hds htext, if_neg hne]

theorem exponentOf_letter {sign ds : List Char} (hsign : sign = ['+'] ∨ sign = ['-'])
    (hds : ∀ c ∈ ds, c.isDigit = true) (hne : ds ≠ []) (hrest : Stops rest) :
    exponentOf ('e' :: (sign ++ ds) ++ rest) = 'e' :: (sign ++ ds) := by
  have hdigits : digitsOf (ds ++ rest) = ds := digitsOf_append hds hrest.digits
  rcases hsign with rfl | rfl <;>
    simp [exponentOf, hdigits, hne]

theorem scanNumber_point {sign digits fraction : List Char} (hsign : sign = [] ∨ sign = ['-'])
    (hdigits : ∀ c ∈ digits, c.isDigit = true) (hne : digits ≠ [])
    (hzero : digits.head? = some '0' → digits.length = 1)
    (hfraction : ∀ c ∈ fraction, c.isDigit = true) (hne' : fraction ≠ []) (hrest : Stops rest) :
    scanNumber (sign ++ digits ++ '.' :: fraction ++ rest) =
      some (.float (sign ++ digits ++ '.' :: fraction), rest) := by
  have hscan := @scanNumber_parts rest sign digits ('.' :: fraction) [] hsign hdigits hne hzero rfl
    (fractionOf_point hfraction hne' hrest.digits) hrest.exponent
  simpa using hscan

theorem scanNumber_exponent {sign digits fraction exponentSign exponent : List Char}
    (hsign : sign = [] ∨ sign = ['-']) (hdigits : ∀ c ∈ digits, c.isDigit = true)
    (hne : digits ≠ []) (hzero : digits.head? = some '0' → digits.length = 1)
    (hfraction : fraction = [] ∨
      ∃ ds, fraction = '.' :: ds ∧ ds ≠ [] ∧ ∀ c ∈ ds, c.isDigit = true)
    (hexponentSign : exponentSign = ['+'] ∨ exponentSign = ['-'])
    (hexponent : ∀ c ∈ exponent, c.isDigit = true) (hne' : exponent ≠ []) (hrest : Stops rest) :
    scanNumber (sign ++ digits ++ fraction ++ 'e' :: (exponentSign ++ exponent) ++ rest) =
      some (.float (sign ++ digits ++ fraction ++ 'e' :: (exponentSign ++ exponent)), rest) := by
  have hletter := exponentOf_letter hexponentSign hexponent hne' hrest
  have hparts : digitsOf (fraction ++ ('e' :: (exponentSign ++ exponent) ++ rest)) = [] ∧
      fractionOf (fraction ++ ('e' :: (exponentSign ++ exponent) ++ rest)) = fraction := by
    rcases hfraction with rfl | ⟨ds, rfl, hds, hall⟩
    · exact ⟨rfl, rfl⟩
    · exact ⟨rfl, fractionOf_point hall hds rfl⟩
  have hscan := scanNumber_parts hsign hdigits hne hzero hparts.1 hparts.2 hletter
  rw [if_neg fun h => List.cons_ne_nil _ _ h.2] at hscan
  simpa only [List.append_assoc] using hscan

theorem scanValue_number (fuel : Nat) {c : Char} {l text : List Char} (hc : c.isDigit = true)
    (hl : l = c :: text ∨ l = '-' :: c :: text) : scanValue (fuel + 1) l = scanNumber l := by
  rcases hl with rfl | rfl
  · have hplain : c ≠ '"' ∧ c ≠ '\x7b' ∧ c ≠ '[' := by
      refine ⟨?_, ?_, ?_⟩ <;> rintro rfl <;> exact absurd hc (by decide)
    rw [scanValue_plain fuel hplain.1 hplain.2.1 hplain.2.2, (scanWord_of_digit hc).1]
    rfl
  · rw [scanValue_plain fuel (by decide) (by decide) (by decide), (scanWord_of_digit hc).2]
    rfl

theorem signed_begins {sign digits : List Char} (hsign : sign = [] ∨ sign = ['-'])
    (hdigits : ∀ c ∈ digits, c.isDigit = true) (hne : digits ≠ []) (more : List Char) :
    ∃ c text, c.isDigit = true ∧
      (sign ++ digits ++ more = c :: text ∨ sign ++ digits ++ more = '-' :: c :: text) := by
  cases digits with
  | nil => exact absurd rfl hne
  | cons c ds =>
    refine ⟨c, ds ++ more, hdigits c List.mem_cons_self, ?_⟩
    rcases hsign with rfl | rfl
    · exact .inl rfl
    · exact .inr rfl

/-- The text of a float is a word, or begins as a number does. -/
theorem FloatText.begins {literal : List Char} (h : FloatText literal) :
    literal ∈ ["NaN".toList, "Infinity".toList, "-Infinity".toList] ∨
    ∃ c text, c.isDigit = true ∧ (literal = c :: text ∨ literal = '-' :: c :: text) := by
  cases h with
  | word h => exact .inl h
  | point hsign hdigits hne _ _ _ => exact .inr (signed_begins hsign hdigits hne _)
  | exponent hsign hdigits hne _ _ _ _ _ =>
    rw [List.append_assoc (_ ++ _)]
    exact .inr (signed_begins hsign hdigits hne _)

theorem begins_append {c : Char} {l text : List Char} (hl : l = c :: text ∨ l = '-' :: c :: text) :
    l ++ rest = c :: (text ++ rest) ∨ l ++ rest = '-' :: c :: (text ++ rest) := by
  rcases hl with rfl | rfl
  · exact .inl rfl
  · exact .inr rfl

theorem FloatText.scanValue {literal : List Char} (h : FloatText literal) (fuel : Nat)
    (hrest : Stops rest) :
    PyJson.scanValue (fuel + 1) (literal ++ rest) = some (.float literal, rest) := by
  cases h with
  | word h =>
    simp only [List.mem_cons, List.not_mem_nil, or_false] at h
    rcases h with rfl | rfl | rfl <;> rfl
  | point hsign hdigits hne hzero hfraction hne' =>
    obtain ⟨c, text, hc, hbegins⟩ := signed_begins hsign hdigits hne _
    rw [scanValue_number fuel hc (begins_append hbegins)]
    exact scanNumber_point hsign hdigits hne hzero hfraction hne' hrest
  | exponent hsign hdigits hne hzero hfraction hexponentSign hexponent hne' =>
    obtain ⟨c, text, hc, hbegins⟩ := signed_begins hsign hdigits hne _
    rw [List.append_assoc (_ ++ _) _ ('e' :: _),
      scanValue_number fuel hc (begins_append hbegins), ← List.append_assoc (_ ++ _) _ ('e' :: _)]
    exact scanNumber_exponent hsign hdigits hne hzero hfraction hexponentSign hexponent hne' hrest

end Numbers

section RoundTrip

/-- The first character of a value. -/
def begins (c : Char) : Bool :=
  c = '"' || c = '\x7b' || c = '[' || c = '-' || c.isDigit || c = 'n' || c = 't' || c = 'f' ||
    c = 'N' || c = 'I'

theorem begins_of_isDigit {c : Char} (h : c.isDigit = true) : begins c = true := by
  simp [begins, h]

theorem text_begins (v : Json) (hv : v.Written) :
    ∃ c text, v.text = c :: text ∧ begins c = true := by
  have number : ∀ {l : List Char}, (∃ c text, c.isDigit = true ∧
      (l = c :: text ∨ l = '-' :: c :: text)) → ∃ c text, l = c :: text ∧ begins c = true := by
    rintro l ⟨c, text, hc, rfl | rfl⟩
    · exact ⟨c, text, rfl, begins_of_isDigit hc⟩
    · exact ⟨'-', c :: text, rfl, rfl⟩
  cases v with
  | null => exact ⟨'n', _, by rw [Json.text]; rfl, rfl⟩
  | bool b =>
    cases b with
    | true => exact ⟨'t', _, by rw [Json.text]; rfl, rfl⟩
    | false => exact ⟨'f', _, by rw [Json.text]; rfl, rfl⟩
  | int n =>
    rw [Json.text]
    exact number (str_begins n)
  | float literal =>
    rw [Json.text]
    rw [Json.Written] at hv
    rcases hv.begins with hword | hnumber
    · simp only [List.mem_cons, List.not_mem_nil, or_false] at hword
      rcases hword with rfl | rfl | rfl <;> exact ⟨_, _, rfl, rfl⟩
    · exact number hnumber
  | str s => exact ⟨'"', _, by rw [Json.text]; rfl, rfl⟩
  | array items => exact ⟨'[', _, by rw [Json.text], rfl⟩
  | object fields => exact ⟨'\x7b', _, by rw [Json.text], rfl⟩

theorem not_isBlank_of_begins {c : Char} (h : begins c = true) :
    isBlank c = false ∧ c ≠ ']' ∧ c ≠ '\x7d' := by
  refine ⟨?_, ?_, ?_⟩
  · by_contra hblank
    simp only [isBlank, Bool.not_eq_false, Bool.or_eq_true, decide_eq_true_eq] at hblank
    rcases hblank with ((rfl | rfl) | rfl) | rfl <;> exact absurd h (by decide)
  · rintro rfl
    exact absurd h (by decide)
  · rintro rfl
    exact absurd h (by decide)

theorem skipBlanks_text (v : Json) (hv : v.Written) (rest : List Char) :
    skipBlanks (v.text ++ rest) = v.text ++ rest := by
  obtain ⟨c, text, htext, hc⟩ := text_begins v hv
  rw [htext, List.cons_append, skipBlanks_cons (not_isBlank_of_begins hc).1]

theorem itemsText_cons (item : Json) (items : List Json) :
    ∃ more, itemsText (item :: items) = item.text ++ more := by
  cases items with
  | nil => exact ⟨[']'], by rw [itemsText]⟩
  | cons next items =>
    refine ⟨',' :: ' ' :: itemsText (next :: items), ?_⟩
    rw [itemsText]
    exact fun hnil => List.cons_ne_nil _ _ hnil

theorem skipBlanks_itemsText {items : List Json} (hne : items ≠ []) (hw : ItemsWritten items)
    (rest : List Char) : skipBlanks (itemsText items ++ rest) = itemsText items ++ rest := by
  cases items with
  | nil => exact absurd rfl hne
  | cons item items =>
    rw [ItemsWritten] at hw
    obtain ⟨more, hmore⟩ := itemsText_cons item items
    rw [hmore, List.append_assoc, skipBlanks_text item hw.1]

theorem fieldsText_cons (key : PyStr) (value : Json) (fields : List (PyStr × Json)) :
    ∃ more, fieldsText ((key, value) :: fields) = '"' :: more := by
  cases fields with
  | nil => exact ⟨_, by rw [fieldsText, dumpsString]; rfl⟩
  | cons next fields =>
    rw [fieldsText]
    · exact ⟨_, rfl⟩
    · exact fun hnil => List.cons_ne_nil _ _ hnil

/-- The end of an array with items, once the bracket is read. -/
theorem scanValue_array (fuel : Nat) {items : List Json} (hne : items ≠ [])
    (hw : ItemsWritten items) (rest : List Char) :
    scanValue (fuel + 1) ('[' :: (itemsText items ++ rest)) =
      (scanItems fuel (itemsText items ++ rest)).map fun (items, rest) => (.array items, rest) := by
  rw [scanValue, skipBlanks_itemsText hne hw]
  cases items with
  | nil => exact absurd rfl hne
  | cons item items =>
    rw [ItemsWritten] at hw
    obtain ⟨more, hmore⟩ := itemsText_cons item items
    obtain ⟨c, text, htext, hc⟩ := text_begins item hw.1
    rw [hmore, htext, List.append_assoc, List.cons_append]
    split
    · rename_i heq
      cases heq
      exact absurd rfl (not_isBlank_of_begins hc).2.1
    · rfl

theorem scanValue_object (fuel : Nat) {key : PyStr} {value : Json} {fields : List (PyStr × Json)}
    (rest : List Char) :
    scanValue (fuel + 1) ('\x7b' :: (fieldsText ((key, value) :: fields) ++ rest)) =
      (scanMembers fuel (fieldsText ((key, value) :: fields) ++ rest)).map
        fun (fields, rest) => (.object fields, rest) := by
  obtain ⟨more, hmore⟩ := fieldsText_cons key value fields
  have hquote : skipBlanks ('"' :: more ++ rest) = '"' :: more ++ rest := rfl
  rw [hmore, scanValue, hquote]
  rfl

mutual

theorem scanValue_text (v : Json) (hv : v.Written) (fuel : Nat) (rest : List Char)
    (hfuel : v.text.length < fuel) (hrest : Stops rest) :
    scanValue fuel (v.text ++ rest) = some (v, rest) := by
  obtain ⟨fuel, rfl⟩ : ∃ n, fuel = n + 1 := ⟨fuel - 1, by omega⟩
  match v with
  | .null => rw [Json.text]; rfl
  | .bool true => rw [Json.text]; rfl
  | .bool false => rw [Json.text]; rfl
  | .int n =>
    obtain ⟨c, text, hc, htext⟩ := str_begins n
    rw [Json.text, scanValue_number fuel hc (begins_append htext)]
    exact scanNumber_str n hrest
  | .float literal =>
    rw [Json.Written] at hv
    rw [Json.text]
    exact hv.scanValue fuel hrest
  | .str s =>
    rw [Json.text, dumpsString, List.cons_append, scanValue, scanString_dumps]
    rfl
  | .array [] => rw [Json.text, itemsText]; rfl
  | .array (item :: items) =>
    rw [Json.Written] at hv
    rw [Json.text, List.length_cons] at hfuel
    have hitems := scanItems_text (item :: items) hv (List.cons_ne_nil _ _) fuel rest (by omega)
    rw [Json.text, List.cons_append, scanValue_array fuel (List.cons_ne_nil _ _) hv, hitems]
    rfl
  | .object [] => rw [Json.text, fieldsText]; rfl
  | .object ((key, value) :: fields) =>
    rw [Json.Written] at hv
    rw [Json.text, List.length_cons] at hfuel
    have hfields :=
      scanMembers_text ((key, value) :: fields) hv (List.cons_ne_nil _ _) fuel rest (by omega)
    rw [Json.text, List.cons_append, scanValue_object fuel, hfields]
    rfl

theorem scanItems_text (items : List Json) (hw : ItemsWritten items) (hne : items ≠ [])
    (fuel : Nat) (rest : List Char) (hfuel : (itemsText items).length < fuel) :
    scanItems fuel (itemsText items ++ rest) = some (items, rest) := by
  obtain ⟨fuel, rfl⟩ : ∃ n, fuel = n + 1 := ⟨fuel - 1, by omega⟩
  match items with
  | [] => exact absurd rfl hne
  | [item] =>
    rw [ItemsWritten] at hw
    rw [itemsText, List.length_append, List.length_singleton] at hfuel
    have hitem := scanValue_text item hw.1 fuel (']' :: rest) (by omega) stops_bracket
    rw [itemsText, List.append_assoc, List.singleton_append, scanItems, hitem]
    rfl
  | item :: next :: items =>
    rw [ItemsWritten] at hw
    have htext : itemsText (item :: next :: items) =
        item.text ++ ',' :: ' ' :: itemsText (next :: items) := by
      rw [itemsText]
      exact fun hnil => List.cons_ne_nil _ _ hnil
    rw [htext, List.length_append, List.length_cons, List.length_cons] at hfuel
    have hitem := scanValue_text item hw.1 fuel
      (',' :: ' ' :: (itemsText (next :: items) ++ rest)) (by omega) stops_comma
    have hitems :=
      scanItems_text (next :: items) hw.2 (List.cons_ne_nil _ _) fuel rest (by omega)
    have hspace : skipBlanks (' ' :: (itemsText (next :: items) ++ rest)) =
        itemsText (next :: items) ++ rest := skipBlanks_itemsText (List.cons_ne_nil _ _) hw.2 rest
    have hcomma : skipBlanks (',' :: ' ' :: (itemsText (next :: items) ++ rest)) =
        ',' :: ' ' :: (itemsText (next :: items) ++ rest) := rfl
    rw [htext, List.append_assoc, List.cons_append, List.cons_append, scanItems, hitem]
    simp only [hcomma, hspace, hitems]
    rfl

theorem scanMembers_text (fields : List (PyStr × Json)) (hw : FieldsWritten fields)
    (hne : fields ≠ []) (fuel : Nat) (rest : List Char)
    (hfuel : (fieldsText fields).length < fuel) :
    scanMembers fuel (fieldsText fields ++ rest) = some (fields, rest) := by
  obtain ⟨fuel, rfl⟩ : ∃ n, fuel = n + 1 := ⟨fuel - 1, by omega⟩
  match fields with
  | [] => exact absurd rfl hne
  | [(key, value)] =>
    rw [FieldsWritten] at hw
    rw [fieldsText] at hfuel
    simp only [List.length_append, List.length_cons] at hfuel
    have hvalue := scanValue_text value hw.1 fuel ('\x7d' :: rest) (by omega) stops_brace
    have hspace : skipBlanks (' ' :: (value.text ++ '\x7d' :: rest)) =
        value.text ++ '\x7d' :: rest := skipBlanks_text value hw.1 _
    have hcolon : skipBlanks (':' :: ' ' :: (value.text ++ '\x7d' :: rest)) =
        ':' :: ' ' :: (value.text ++ '\x7d' :: rest) := rfl
    rw [fieldsText, dumpsString]
    simp only [List.append_assoc, List.cons_append, List.nil_append]
    rw [scanMembers, scanString_dumps]
    simp only [hcolon, hspace, hvalue]
    rfl
  | (key, value) :: next :: fields =>
    rw [FieldsWritten] at hw
    have htext : fieldsText ((key, value) :: next :: fields) = dumpsString key ++
        ':' :: ' ' :: value.text ++ ',' :: ' ' :: fieldsText (next :: fields) := by
      rw [fieldsText]
      exact fun hnil => List.cons_ne_nil _ _ hnil
    rw [htext] at hfuel
    simp only [List.length_append, List.length_cons] at hfuel
    have hvalue := scanValue_text value hw.1 fuel
      (',' :: ' ' :: (fieldsText (next :: fields) ++ rest)) (by omega) stops_comma
    have hfields :=
      scanMembers_text (next :: fields) hw.2 (List.cons_ne_nil _ _) fuel rest (by omega)
    obtain ⟨more, hmore⟩ := fieldsText_cons next.1 next.2 fields
    have hblank : skipBlanks (' ' :: (fieldsText (next :: fields) ++ rest)) =
        fieldsText (next :: fields) ++ rest := by
      rw [hmore]
      rfl
    have hspace : skipBlanks (' ' :: (value.text ++
        ',' :: ' ' :: (fieldsText (next :: fields) ++ rest))) =
        value.text ++ ',' :: ' ' :: (fieldsText (next :: fields) ++ rest) :=
      skipBlanks_text value hw.1 _
    have hcolon : ∀ text, skipBlanks (':' :: text) = ':' :: text := fun _ => rfl
    have hcomma : ∀ text, skipBlanks (',' :: text) = ',' :: text := fun _ => rfl
    rw [htext, dumpsString]
    simp only [List.append_assoc, List.cons_append]
    rw [scanMembers, scanString_dumps]
    simp only [hcolon, hspace, hvalue, hcomma, hblank, hfields]
    rfl

end

/-- What was written is read back. -/
theorem loads_text (v : Json) (hv : v.Written) : loads v.text = some v := by
  have hblank := skipBlanks_text v hv []
  have hvalue := scanValue_text v hv (v.text.length + 1) [] (Nat.lt_succ_self _) stops_nil
  rw [List.append_nil] at hblank hvalue
  unfold loads
  rw [hblank, hvalue]
  rfl

end RoundTrip

section Lines

def printable (c : Char) : Bool := 0x20 ≤ c.toNat && c.toNat ≤ 0x7E

/-- For a text that is written out. -/
theorem printable_of_all {text : List Char} (h : text.all printable = true) :
    ∀ c ∈ text, printable c = true :=
  List.all_eq_true.mp h

theorem printable_of_isDigit {c : Char} (h : c.isDigit = true) : printable c = true := by
  simp only [Char.isDigit, Bool.and_eq_true, decide_eq_true_eq] at h
  have h0 : 48 ≤ c.toNat := h.1
  have h9 : c.toNat ≤ 57 := h.2
  simp only [printable, Bool.and_eq_true, decide_eq_true_eq]
  omega

theorem printable_hexDigit : ∀ d < 16, printable (hexDigit d) = true := by decide

theorem printable_escapeUnit {u : CodePoint} (hu : u.val < 0x10000) :
    ∀ c ∈ escapeUnit u, printable c = true := by
  intro c hc
  unfold escapeUnit at hc
  split at hc
  · rename_i letter hletter
    obtain ⟨_, _, hsplit, _⟩ := List.lookup_eq_some_iff.mp hletter
    have hmem : (u.val, letter) ∈ shortEscapes := by
      rw [hsplit]
      simp
    have hletters : ∀ entry ∈ shortEscapes, printable entry.2 = true := by decide
    rcases List.mem_cons.mp hc with rfl | hc
    · rfl
    · rw [List.mem_singleton.mp hc]
      exact hletters _ hmem
  · split at hc
    · rename_i hascii
      rw [List.mem_singleton.mp hc]
      have hvalid : u.val.isValidChar := Or.inl (by omega)
      have hval : (Char.ofNat u.val).toNat = u.val := by
        rw [Char.ofNat, dif_pos hvalid]
        rfl
      simp only [printable, hval, Bool.and_eq_true, decide_eq_true_eq]
      exact hascii
    · simp only [hexEscape, List.mem_cons, List.not_mem_nil, or_false] at hc
      rcases hc with rfl | rfl | rfl | rfl | rfl | rfl
      · rfl
      · rfl
      · exact printable_hexDigit _ (by omega)
      · exact printable_hexDigit _ (by omega)
      · exact printable_hexDigit _ (by omega)
      · exact printable_hexDigit _ (by omega)

theorem printable_dumpsString (s : PyStr) : ∀ c ∈ dumpsString s, printable c = true := by
  intro c hc
  rcases List.mem_cons.mp hc with rfl | hc
  · rfl
  rcases List.mem_append.mp hc with hc | hc
  · obtain ⟨u, hu, hc⟩ := List.mem_flatMap.mp hc
    obtain ⟨p, _, hp⟩ := List.mem_flatMap.mp hu
    exact printable_escapeUnit (PyStr.val_of_mem_units hp) c hc
  · rw [List.mem_singleton.mp hc]
    rfl

theorem printable_str (n : Int) : ∀ c ∈ (PyInt.str n).toList, printable c = true := by
  intro c hc
  have hdigits : ∀ m, c ∈ Nat.toDigits 10 m → printable c = true := fun m h =>
    printable_of_isDigit (PyInt.isDigit_of_mem_toDigits h)
  cases n with
  | ofNat m =>
    rw [PyInt.toList_str_ofNat] at hc
    exact hdigits m hc
  | negSucc m =>
    rw [PyInt.toList_str_negSucc] at hc
    rcases List.mem_cons.mp hc with rfl | hc
    · rfl
    · exact hdigits (m + 1) hc

theorem FloatText.printable {literal : List Char} (h : FloatText literal) :
    ∀ c ∈ literal, PyJson.printable c = true := by
  have hsigned : ∀ {sign : List Char}, sign = [] ∨ sign = ['-'] →
      ∀ c ∈ sign, PyJson.printable c = true := by
    rintro sign (rfl | rfl) <;> simp [PyJson.printable]
  have hdigit : ∀ {ds : List Char}, (∀ c ∈ ds, c.isDigit = true) →
      ∀ c ∈ ds, PyJson.printable c = true := fun hds c hc => printable_of_isDigit (hds c hc)
  cases h with
  | word h =>
    simp only [List.mem_cons, List.not_mem_nil, or_false] at h
    rcases h with rfl | rfl | rfl
    · exact printable_of_all rfl
    · exact printable_of_all rfl
    · exact printable_of_all rfl
  | point hsign hdigits _ _ hfraction _ =>
    intro c hc
    simp only [List.mem_append, List.mem_cons] at hc
    rcases hc with (hc | hc) | rfl | hc
    · exact hsigned hsign c hc
    · exact hdigit hdigits c hc
    · rfl
    · exact hdigit hfraction c hc
  | exponent hsign hdigits _ _ hfraction hexponentSign hexponent _ =>
    intro c hc
    simp only [List.mem_append, List.mem_cons] at hc
    rcases hc with ((hc | hc) | hc) | rfl | hc | hc
    · exact hsigned hsign c hc
    · exact hdigit hdigits c hc
    · rcases hfraction with rfl | ⟨ds, rfl, _, hds⟩
      · cases hc
      · rcases List.mem_cons.mp hc with rfl | hc
        · rfl
        · exact hdigit hds c hc
    · rfl
    · rcases hexponentSign with rfl | rfl <;>
        (rw [List.mem_singleton.mp hc]; rfl)
    · exact hdigit hexponent c hc

mutual

theorem printable_text (v : Json) (hv : v.Written) : ∀ c ∈ v.text, printable c = true := by
  match v with
  | .null => rw [Json.text]; exact printable_of_all rfl
  | .bool true => rw [Json.text]; exact printable_of_all rfl
  | .bool false => rw [Json.text]; exact printable_of_all rfl
  | .int n => rw [Json.text]; exact printable_str n
  | .float literal =>
    rw [Json.Written] at hv
    rw [Json.text]
    exact hv.printable
  | .str s => rw [Json.text]; exact printable_dumpsString s
  | .array items =>
    rw [Json.Written] at hv
    rw [Json.text, List.forall_mem_cons]
    exact ⟨rfl, printable_itemsText items hv⟩
  | .object fields =>
    rw [Json.Written] at hv
    rw [Json.text, List.forall_mem_cons]
    exact ⟨rfl, printable_fieldsText fields hv⟩

theorem printable_itemsText (items : List Json) (hw : ItemsWritten items) :
    ∀ c ∈ itemsText items, printable c = true := by
  match items with
  | [] => rw [itemsText]; exact printable_of_all rfl
  | [item] =>
    rw [ItemsWritten] at hw
    rw [itemsText, List.forall_mem_append, List.forall_mem_singleton]
    exact ⟨printable_text item hw.1, rfl⟩
  | item :: next :: items =>
    rw [ItemsWritten] at hw
    rw [itemsText, List.forall_mem_append, List.forall_mem_cons, List.forall_mem_cons]
    · exact ⟨printable_text item hw.1, rfl, rfl, printable_itemsText (next :: items) hw.2⟩
    · exact fun hnil => List.cons_ne_nil _ _ hnil

theorem printable_fieldsText (fields : List (PyStr × Json)) (hw : FieldsWritten fields) :
    ∀ c ∈ fieldsText fields, printable c = true := by
  match fields with
  | [] => rw [fieldsText]; exact printable_of_all rfl
  | [(key, value)] =>
    rw [FieldsWritten] at hw
    rw [fieldsText, List.forall_mem_append, List.forall_mem_append, List.forall_mem_cons,
      List.forall_mem_cons, List.forall_mem_singleton]
    exact ⟨⟨printable_dumpsString key, rfl, rfl, printable_text value hw.1⟩, rfl⟩
  | (key, value) :: next :: fields =>
    rw [FieldsWritten] at hw
    rw [fieldsText, List.forall_mem_append, List.forall_mem_append, List.forall_mem_cons,
      List.forall_mem_cons, List.forall_mem_cons, List.forall_mem_cons]
    · exact ⟨⟨printable_dumpsString key, rfl, rfl, printable_text value hw.1⟩, rfl, rfl,
        printable_fieldsText (next :: fields) hw.2⟩
    · exact fun hnil => List.cons_ne_nil _ _ hnil

end

def writeLines (values : List Json) : List Char := values.flatMap fun v => v.text ++ ['\n']

/-- The values of the lines, with none for a line that is not JSON; what comes behind the last
line end does not count. -/
def readLines (stream : List Char) : List (Option Json) :=
  (stream.splitOn '\n').dropLast.map loads

theorem splitOn_writeLines (values : List Json) (hw : ∀ v ∈ values, v.Written) :
    (writeLines values).splitOn '\n' = values.map Json.text ++ [[]] := by
  induction values with
  | nil => rfl
  | cons v values ih =>
    have hline : '\n' ∉ v.text := by
      intro hc
      exact absurd (printable_text v (hw v List.mem_cons_self) '\n' hc) (by decide)
    have hstream : writeLines (v :: values) = v.text ++ '\n' :: writeLines values := by
      simp [writeLines]
    rw [hstream, List.splitOn_append_cons_self_of_not_mem hline,
      ih fun w hw' => hw w (List.mem_cons_of_mem v hw')]
    rfl

/-- A stream of lines is read back, whatever is in the values. -/
theorem readLines_writeLines (values : List Json) (hw : ∀ v ∈ values, v.Written) :
    readLines (writeLines values) = values.map some := by
  unfold readLines
  rw [splitOn_writeLines values hw, List.dropLast_concat, List.map_map]
  apply List.map_congr_left
  intro v hv
  exact loads_text v (hw v hv)

end Lines

end PyJson
