import FastApiAuth.Library.PyJson

/-!
# JSON texts within the limits of the interpreter

`int` refuses a literal with too many digits, with a ValueError that is no JSONDecodeError, and
the decoder calls itself once for each bracket that is open, up to a depth. What is read within
the limits is what `loads` reads, and every text that `loads` reads is read if its value keeps
to them.
-/

namespace PyJson

set_option autoImplicit false

open PyInt (decimalDigits)

structure Limits where
  maxStrDigits : Nat
  depth : Nat

inductive LoadsError where
  | jsonDecodeError
  | valueError
  | recursionError
  deriving DecidableEq

def found {α : Type} : Option α → Except LoadsError α
  | some a => .ok a
  | none => .error .jsonDecodeError

/-- A word or a number; a number without fraction and exponent goes through `int`. -/
def readScalar (maxStrDigits : Nat) (text : List Char) : Except LoadsError (Json × List Char) :=
  match (scanWord text).or (scanNumber text) with
  | some (.int n, rest) =>
    if maxStrDigits < decimalDigits n then .error .valueError else .ok (.int n, rest)
  | scanned => found scanned

mutual

/-- `depth` counts the brackets that may still be opened. -/
def readValue (maxStrDigits : Nat) : Nat → Nat → List Char →
    Except LoadsError (Json × List Char)
  | _ + 1, _, '"' :: rest => (found (scanString rest)).map fun (s, rest) => (.str s, rest)
  | fuel + 1, depth, '\x7b' :: rest =>
    match depth with
    | 0 => .error .recursionError
    | depth + 1 =>
      match skipBlanks rest with
      | '\x7d' :: rest => .ok (.object [], rest)
      | rest => (readMembers maxStrDigits fuel depth rest).map fun (fields, rest) =>
          (.object fields, rest)
  | fuel + 1, depth, '[' :: rest =>
    match depth with
    | 0 => .error .recursionError
    | depth + 1 =>
      match skipBlanks rest with
      | ']' :: rest => .ok (.array [], rest)
      | rest => (readItems maxStrDigits fuel depth rest).map fun (items, rest) =>
          (.array items, rest)
  | _ + 1, _, text => readScalar maxStrDigits text
  | 0, _, _ => .error .jsonDecodeError

def readMembers (maxStrDigits : Nat) : Nat → Nat → List Char →
    Except LoadsError (List (PyStr × Json) × List Char)
  | fuel + 1, depth, '"' :: rest =>
    match scanString rest with
    | none => .error .jsonDecodeError
    | some (key, rest) =>
      match skipBlanks rest with
      | ':' :: rest =>
        match readValue maxStrDigits fuel depth (skipBlanks rest) with
        | .error e => .error e
        | .ok (value, rest) =>
          match skipBlanks rest with
          | ',' :: rest =>
            (readMembers maxStrDigits fuel depth (skipBlanks rest)).map fun (fields, rest) =>
              ((key, value) :: fields, rest)
          | '\x7d' :: rest => .ok ([(key, value)], rest)
          | _ => .error .jsonDecodeError
      | _ => .error .jsonDecodeError
  | _, _, _ => .error .jsonDecodeError

def readItems (maxStrDigits : Nat) : Nat → Nat → List Char →
    Except LoadsError (List Json × List Char)
  | fuel + 1, depth, text =>
    match readValue maxStrDigits fuel depth text with
    | .error e => .error e
    | .ok (value, rest) =>
      match skipBlanks rest with
      | ',' :: rest =>
        (readItems maxStrDigits fuel depth (skipBlanks rest)).map fun (items, rest) =>
          (value :: items, rest)
      | ']' :: rest => .ok ([value], rest)
      | _ => .error .jsonDecodeError
  | 0, _, _ => .error .jsonDecodeError

end

/-- `json.loads` of an interpreter with these limits. -/
def loadsWithin (limits : Limits) (text : List Char) : Except LoadsError Json :=
  match readValue limits.maxStrDigits (text.length + 1) limits.depth (skipBlanks text) with
  | .error e => .error e
  | .ok (value, rest) => if skipBlanks rest = [] then .ok value else .error .jsonDecodeError

mutual

/-- No integer of the value has more digits, and no more brackets are open at a time. -/
def Json.within (maxStrDigits : Nat) : Nat → Json → Bool
  | _, .int n => decimalDigits n ≤ maxStrDigits
  | depth, .array items => 0 < depth && itemsWithin maxStrDigits (depth - 1) items
  | depth, .object fields => 0 < depth && fieldsWithin maxStrDigits (depth - 1) fields
  | _, _ => true

def itemsWithin (maxStrDigits : Nat) : Nat → List Json → Bool
  | _, [] => true
  | depth, item :: items => item.within maxStrDigits depth && itemsWithin maxStrDigits depth items

def fieldsWithin (maxStrDigits : Nat) : Nat → List (PyStr × Json) → Bool
  | _, [] => true
  | depth, (_, value) :: fields =>
    value.within maxStrDigits depth && fieldsWithin maxStrDigits depth fields

end

section Reading

variable {maxStrDigits fuel depth : Nat} {text : List Char}

/-- What is read within the limits is what was scanned, where it keeps to them. -/
def Agrees {α : Type} (keeps : α → Bool) (read : Except LoadsError (α × List Char))
    (scanned : Option (α × List Char)) : Prop :=
  ∀ a rest, read = .ok (a, rest) ↔ scanned = some (a, rest) ∧ keeps a = true

section Agreement

variable {α β : Type} {keeps : α → Bool} {keeps' : β → Bool} {f : α → β}
variable {read : Except LoadsError (α × List Char)} {scanned : Option (α × List Char)}

theorem Agrees.error_of_none (h : Agrees keeps read none) : ∃ e, read = .error e := by
  cases hread : read with
  | error e => exact ⟨e, rfl⟩
  | ok value =>
    have hsome := ((h value.1 value.2).mp hread).1
    cases hsome

theorem Agrees.of_some {a : α} {rest : List Char} (h : Agrees keeps read (some (a, rest))) :
    (keeps a = true ∧ read = .ok (a, rest)) ∨ keeps a = false ∧ ∃ e, read = .error e := by
  cases hkeeps : keeps a with
  | true => exact .inl ⟨rfl, (h a rest).mpr ⟨rfl, hkeeps⟩⟩
  | false =>
    refine .inr ⟨rfl, ?_⟩
    cases hread : read with
    | error e => exact ⟨e, rfl⟩
    | ok value =>
      obtain ⟨hsome, hkept⟩ := (h value.1 value.2).mp hread
      obtain rfl := congrArg Prod.fst (Option.some.inj hsome)
      rw [hkeeps] at hkept
      cases hkept

theorem Agrees.map (h : Agrees keeps read scanned) (hf : ∀ a, keeps' (f a) = keeps a) :
    Agrees keeps' (read.map fun (a, rest) => (f a, rest))
      (scanned.map fun (a, rest) => (f a, rest)) := by
  intro b rest
  cases scanned with
  | none =>
    obtain ⟨e, rfl⟩ := h.error_of_none
    simp [Except.map]
  | some value =>
    obtain ⟨a, rest'⟩ := value
    rcases h.of_some with ⟨hkeeps, rfl⟩ | ⟨hkeeps, e, rfl⟩
    · simp only [Except.map, Option.map_some, Except.ok.injEq, Option.some.injEq]
      constructor
      · intro heq
        obtain ⟨rfl, rfl⟩ := Prod.mk.inj heq
        exact ⟨rfl, (hf a).trans hkeeps⟩
      · exact And.left
    · simp only [Except.map, Option.map_some, Option.some.injEq]
      apply iff_of_false nofun
      rintro ⟨heq, hkept⟩
      obtain ⟨rfl, rfl⟩ := Prod.mk.inj heq
      rw [hf, hkeeps] at hkept
      cases hkept

theorem agrees_errors (e : LoadsError) : Agrees keeps (.error e) none := by
  intro a rest
  exact iff_of_false nofun nofun

theorem agrees_ok {a : α} {rest : List Char} (hkeeps : keeps a = true) :
    Agrees keeps (.ok (a, rest)) (some (a, rest)) := by
  intro b rest'
  constructor
  · intro heq
    obtain ⟨rfl, rfl⟩ := Prod.mk.inj (Except.ok.inj heq)
    exact ⟨rfl, hkeeps⟩
  · rintro ⟨heq, _⟩
    exact congrArg Except.ok (Option.some.inj heq)

/-- Nothing that was scanned keeps to the limits. -/
theorem agrees_error {e : LoadsError} (hbeyond : ∀ a rest, scanned = some (a, rest) →
    keeps a = false) : Agrees keeps (.error e) scanned := by
  intro a rest
  apply iff_of_false nofun
  rintro ⟨hscanned, hkeeps⟩
  rw [hbeyond a rest hscanned] at hkeeps
  cases hkeeps

end Agreement

/-- A word is within all limits, and of the numbers only the integers may be beyond them. -/
theorem scanWord_within {value : Json} {rest : List Char} (h : scanWord text = some (value, rest)) :
    (∀ n, value ≠ .int n) ∧ value.within maxStrDigits depth = true := by
  obtain ⟨entry, hentry, hvalue⟩ := List.exists_of_findSome?_eq_some h
  obtain ⟨_, _, heq⟩ := Option.map_eq_some_iff.mp hvalue
  obtain ⟨rfl, rfl⟩ := Prod.mk.inj heq
  have hall : ∀ entry ∈ words, (∀ n, entry.2 ≠ .int n) ∧
      entry.2.within maxStrDigits depth = true := by
    simp [words, Json.within]
  exact hall entry hentry

theorem scanNumber_cases {value : Json} {rest : List Char}
    (h : scanNumber text = some (value, rest)) :
    (∃ n, value = .int n) ∨ ∃ literal, value = .float literal := by
  simp only [scanNumber] at h
  split at h
  · cases h
  split at h
  · obtain ⟨rfl, _⟩ := Prod.mk.inj (Option.some.inj h)
    exact .inl ⟨_, rfl⟩
  · obtain ⟨rfl, _⟩ := Prod.mk.inj (Option.some.inj h)
    exact .inr ⟨_, rfl⟩

theorem scanScalar_within {value : Json} {rest : List Char}
    (h : (scanWord text).or (scanNumber text) = some (value, rest)) :
    (∃ n, value = .int n) ∨
      (∀ n, value ≠ .int n) ∧ value.within maxStrDigits depth = true := by
  rcases Option.or_eq_some_iff.mp h with hword | ⟨_, hnumber⟩
  · exact .inr (scanWord_within hword)
  · rcases scanNumber_cases hnumber with hint | ⟨literal, rfl⟩
    · exact .inl hint
    · exact .inr ⟨nofun, by simp [Json.within]⟩

theorem readScalar_agrees : Agrees (Json.within maxStrDigits depth)
    (readScalar maxStrDigits text) ((scanWord text).or (scanNumber text)) := by
  unfold readScalar
  cases hscanned : (scanWord text).or (scanNumber text) with
  | none => exact agrees_errors _
  | some scanned =>
    obtain ⟨value, rest⟩ := scanned
    rcases scanScalar_within hscanned with ⟨n, rfl⟩ | ⟨hother, hwithin⟩
    · dsimp only
      split
      · rename_i hlong
        apply agrees_error
        intro value' rest' heq
        obtain ⟨rfl, rfl⟩ := Prod.mk.inj (Option.some.inj heq)
        simp [Json.within, hlong]
      · rename_i hshort
        exact agrees_ok (by simpa [Json.within] using hshort)
    · split
      · rename_i n _ heq
        exact absurd (congrArg Prod.fst (Option.some.inj heq)) (hother n)
      · exact agrees_ok hwithin

theorem readValue_plain {c : Char} (hquote : c ≠ '"') (hbrace : c ≠ '\x7b')
    (hbracket : c ≠ '[') : readValue maxStrDigits (fuel + 1) depth (c :: text) =
      readScalar maxStrDigits (c :: text) := by
  rw [readValue]
  · intro rest heq
    exact hquote (List.cons.inj heq).1
  · intro rest heq
    exact hbrace (List.cons.inj heq).1
  · intro rest heq
    exact hbracket (List.cons.inj heq).1

theorem string_agrees {rest : List Char} : Agrees (Json.within maxStrDigits depth)
    ((found (scanString rest)).map fun (s, rest) => (Json.str s, rest))
    ((scanString rest).map fun (s, rest) => (Json.str s, rest)) := by
  cases scanString rest with
  | none => exact agrees_errors _
  | some scanned => exact agrees_ok (by simp [Json.within])

/-- The fields of an object without its opening brace, one bracket deeper. -/
theorem object_agrees
    (ih : ∀ depth text, Agrees (fieldsWithin maxStrDigits depth)
      (readMembers maxStrDigits fuel depth text) (scanMembers fuel text)) :
    Agrees (Json.within maxStrDigits depth)
      (readValue maxStrDigits (fuel + 1) depth ('\x7b' :: text))
      (scanValue (fuel + 1) ('\x7b' :: text)) := by
  cases depth with
  | zero =>
    rw [scanValue]
    apply agrees_error
    intro value rest hscanned
    split at hscanned
    · obtain ⟨rfl, _⟩ := Prod.mk.inj (Option.some.inj hscanned)
      simp [Json.within]
    · obtain ⟨_, _, heq⟩ := Option.map_eq_some_iff.mp hscanned
      obtain ⟨rfl, _⟩ := Prod.mk.inj heq
      simp [Json.within]
  | succ depth =>
    rw [readValue, scanValue]
    generalize skipBlanks text = inner
    change Agrees (Json.within maxStrDigits (depth + 1))
      (match inner with
      | '\x7d' :: rest => .ok (.object [], rest)
      | rest => (readMembers maxStrDigits fuel depth rest).map fun (fields, rest) =>
          (.object fields, rest))
      (match inner with
      | '\x7d' :: rest => some (.object [], rest)
      | rest => (scanMembers fuel rest).map fun (fields, rest) => (.object fields, rest))
    split
    · exact agrees_ok (by simp [Json.within, fieldsWithin])
    · exact (ih depth _).map fun fields => by simp [Json.within]

theorem array_agrees
    (ih : ∀ depth text, Agrees (itemsWithin maxStrDigits depth)
      (readItems maxStrDigits fuel depth text) (scanItems fuel text)) :
    Agrees (Json.within maxStrDigits depth)
      (readValue maxStrDigits (fuel + 1) depth ('[' :: text))
      (scanValue (fuel + 1) ('[' :: text)) := by
  cases depth with
  | zero =>
    rw [scanValue]
    apply agrees_error
    intro value rest hscanned
    split at hscanned
    · obtain ⟨rfl, _⟩ := Prod.mk.inj (Option.some.inj hscanned)
      simp [Json.within]
    · obtain ⟨_, _, heq⟩ := Option.map_eq_some_iff.mp hscanned
      obtain ⟨rfl, _⟩ := Prod.mk.inj heq
      simp [Json.within]
  | succ depth =>
    rw [readValue, scanValue]
    generalize skipBlanks text = inner
    change Agrees (Json.within maxStrDigits (depth + 1))
      (match inner with
      | ']' :: rest => .ok (.array [], rest)
      | rest => (readItems maxStrDigits fuel depth rest).map fun (items, rest) =>
          (.array items, rest))
      (match inner with
      | ']' :: rest => some (.array [], rest)
      | rest => (scanItems fuel rest).map fun (items, rest) => (.array items, rest))
    split
    · exact agrees_ok (by simp [Json.within, itemsWithin])
    · exact (ih depth _).map fun items => by simp [Json.within]

theorem items_agree
    (ihValue : ∀ depth text, Agrees (Json.within maxStrDigits depth)
      (readValue maxStrDigits fuel depth text) (scanValue fuel text))
    (ih : ∀ depth text, Agrees (itemsWithin maxStrDigits depth)
      (readItems maxStrDigits fuel depth text) (scanItems fuel text)) :
    Agrees (itemsWithin maxStrDigits depth) (readItems maxStrDigits (fuel + 1) depth text)
      (scanItems (fuel + 1) text) := by
  rw [readItems, scanItems]
  have hvalue := ihValue depth text
  cases hscanned : scanValue fuel text with
  | none =>
    rw [hscanned] at hvalue
    obtain ⟨e, hread⟩ := hvalue.error_of_none
    rw [hread]
    exact agrees_errors e
  | some scanned =>
    obtain ⟨value, rest⟩ := scanned
    rw [hscanned] at hvalue
    dsimp only
    rcases hvalue.of_some with ⟨hwithin, hread⟩ | ⟨hbeyond, e, hread⟩
    · rw [hread]
      dsimp only
      generalize skipBlanks rest = after
      change Agrees (itemsWithin maxStrDigits depth)
        (match after with
        | ',' :: rest =>
          (readItems maxStrDigits fuel depth (skipBlanks rest)).map fun (items, rest) =>
            (value :: items, rest)
        | ']' :: rest => .ok ([value], rest)
        | _ => .error .jsonDecodeError)
        (match after with
        | ',' :: rest =>
          (scanItems fuel (skipBlanks rest)).map fun (items, rest) => (value :: items, rest)
        | ']' :: rest => some ([value], rest)
        | _ => none)
      split
      · exact (ih depth _).map fun items => by simp [itemsWithin, hwithin]
      · exact agrees_ok (by simp [itemsWithin, hwithin])
      · exact agrees_errors _
    · rw [hread]
      apply agrees_error
      intro items rest' heq
      split at heq
      · obtain ⟨_, _, heq⟩ := Option.map_eq_some_iff.mp heq
        obtain ⟨rfl, _⟩ := Prod.mk.inj heq
        simp [itemsWithin, hbeyond]
      · obtain ⟨rfl, _⟩ := Prod.mk.inj (Option.some.inj heq)
        simp [itemsWithin, hbeyond]
      · cases heq

/-- One field, from behind its key. -/
theorem field_agrees
    (ihValue : ∀ depth text, Agrees (Json.within maxStrDigits depth)
      (readValue maxStrDigits fuel depth text) (scanValue fuel text))
    (ih : ∀ depth text, Agrees (fieldsWithin maxStrDigits depth)
      (readMembers maxStrDigits fuel depth text) (scanMembers fuel text))
    (key : PyStr) (text : List Char) :
    Agrees (fieldsWithin maxStrDigits depth)
      (match skipBlanks text with
      | ':' :: rest =>
        match readValue maxStrDigits fuel depth (skipBlanks rest) with
        | .error e => .error e
        | .ok (value, rest) =>
          match skipBlanks rest with
          | ',' :: rest =>
            (readMembers maxStrDigits fuel depth (skipBlanks rest)).map fun (fields, rest) =>
              ((key, value) :: fields, rest)
          | '\x7d' :: rest => .ok ([(key, value)], rest)
          | _ => .error .jsonDecodeError
      | _ => .error .jsonDecodeError)
      (match skipBlanks text with
      | ':' :: rest =>
        match scanValue fuel (skipBlanks rest) with
        | none => none
        | some (value, rest) =>
          match skipBlanks rest with
          | ',' :: rest =>
            (scanMembers fuel (skipBlanks rest)).map fun (fields, rest) =>
              ((key, value) :: fields, rest)
          | '\x7d' :: rest => some ([(key, value)], rest)
          | _ => none
      | _ => none) := by
  generalize skipBlanks text = after
  split
  · rename_i rest'
    have hvalue := ihValue depth (skipBlanks rest')
    cases hscanned : scanValue fuel (skipBlanks rest') with
    | none =>
      rw [hscanned] at hvalue
      obtain ⟨e, hread⟩ := hvalue.error_of_none
      simp only [hread]
      exact agrees_errors e
    | some scanned =>
      obtain ⟨value, rest⟩ := scanned
      rw [hscanned] at hvalue
      dsimp only
      rcases hvalue.of_some with ⟨hwithin, hread⟩ | ⟨hbeyond, e, hread⟩
      · simp only [hread]
        generalize skipBlanks rest = after
        split
        · exact (ih depth _).map fun fields => by simp [fieldsWithin, hwithin]
        · exact agrees_ok (by simp [fieldsWithin, hwithin])
        · exact agrees_errors _
      · simp only [hread]
        apply agrees_error
        intro fields rest' heq
        split at heq
        · obtain ⟨_, _, heq⟩ := Option.map_eq_some_iff.mp heq
          obtain ⟨rfl, _⟩ := Prod.mk.inj heq
          simp [fieldsWithin, hbeyond]
        · obtain ⟨rfl, _⟩ := Prod.mk.inj (Option.some.inj heq)
          simp [fieldsWithin, hbeyond]
        · cases heq
  · exact agrees_errors _

theorem members_agree
    (ihValue : ∀ depth text, Agrees (Json.within maxStrDigits depth)
      (readValue maxStrDigits fuel depth text) (scanValue fuel text))
    (ih : ∀ depth text, Agrees (fieldsWithin maxStrDigits depth)
      (readMembers maxStrDigits fuel depth text) (scanMembers fuel text)) :
    Agrees (fieldsWithin maxStrDigits depth) (readMembers maxStrDigits (fuel + 1) depth text)
      (scanMembers (fuel + 1) text) := by
  cases text with
  | nil => exact agrees_errors .jsonDecodeError
  | cons c text =>
    by_cases hquote : c = '"'
    · rw [hquote, readMembers, scanMembers]
      cases scanString text with
      | none => exact agrees_errors _
      | some scanned => exact field_agrees ihValue ih scanned.1 scanned.2
    · have hother : ∀ rest, c :: text ≠ '"' :: rest :=
        fun rest heq => hquote (List.cons.inj heq).1
      rw [readMembers, scanMembers]
      · exact agrees_errors _
      · exact fun _ rest _ heq => hother rest heq
      · exact fun _ rest _ heq => hother rest heq

/-- By induction on the fuel that both readers use up alike. -/
theorem read_agrees (maxStrDigits fuel : Nat) :
    (∀ depth text, Agrees (Json.within maxStrDigits depth)
      (readValue maxStrDigits fuel depth text) (scanValue fuel text)) ∧
    (∀ depth text, Agrees (fieldsWithin maxStrDigits depth)
      (readMembers maxStrDigits fuel depth text) (scanMembers fuel text)) ∧
    ∀ depth text, Agrees (itemsWithin maxStrDigits depth)
      (readItems maxStrDigits fuel depth text) (scanItems fuel text) := by
  induction fuel with
  | zero =>
    refine ⟨?_, ?_, ?_⟩ <;> intro depth text <;> exact agrees_errors _
  | succ fuel ih =>
    obtain ⟨ihValue, ihMembers, ihItems⟩ := ih
    refine ⟨?_, fun _ _ => members_agree ihValue ihMembers, fun _ _ => items_agree ihValue ihItems⟩
    intro depth text
    cases text with
    | nil => exact @readScalar_agrees maxStrDigits depth []
    | cons c text =>
      by_cases hquote : c = '"'
      · rw [hquote]
        exact string_agrees
      by_cases hbrace : c = '\x7b'
      · rw [hbrace]
        exact object_agrees ihMembers
      by_cases hbracket : c = '['
      · rw [hbracket]
        exact array_agrees ihItems
      rw [readValue_plain hquote hbrace hbracket, scanValue_plain fuel hquote hbrace hbracket]
      exact readScalar_agrees

/-- A text is read within the limits just when it is JSON and its value keeps to them. -/
theorem loadsWithin_ok_iff {limits : Limits} {value : Json} :
    loadsWithin limits text = .ok value ↔
      loads text = some value ∧ value.within limits.maxStrDigits limits.depth = true := by
  have hread := (read_agrees limits.maxStrDigits (text.length + 1)).1
    limits.depth (skipBlanks text)
  unfold loadsWithin loads
  cases hscanned : scanValue (text.length + 1) (skipBlanks text) with
  | none =>
    rw [hscanned] at hread
    obtain ⟨e, he⟩ := hread.error_of_none
    rw [he]
    exact iff_of_false nofun nofun
  | some scanned =>
    obtain ⟨value', rest⟩ := scanned
    rw [hscanned] at hread
    dsimp only
    rcases hread.of_some with ⟨hwithin, he⟩ | ⟨hbeyond, e, he⟩
    · rw [he]
      dsimp only
      split
      · constructor
        · intro heq
          obtain rfl := Except.ok.inj heq
          exact ⟨rfl, hwithin⟩
        · rintro ⟨heq, _⟩
          exact congrArg Except.ok (Option.some.inj heq)
      · exact iff_of_false nofun nofun
    · rw [he]
      apply iff_of_false nofun
      rintro ⟨heq, hwithin⟩
      split at heq
      · obtain rfl := Option.some.inj heq
        rw [hbeyond] at hwithin
        cases hwithin
      · cases heq

theorem loads_of_loadsWithin {limits : Limits} {value : Json}
    (h : loadsWithin limits text = .ok value) : loads text = some value :=
  (loadsWithin_ok_iff.mp h).1

end Reading

end PyJson
