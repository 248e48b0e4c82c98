import Mathlib.Data.List.Basic

/-!
# The first row of csv.reader

The reader of Python's csv module in its default dialect: one state machine over the
characters of a line, with an end-of-line mark after each, until a record is complete.
Lines end at the newline character and keep it.
-/

namespace PyCsv

set_option autoImplicit false

inductive State where
  | startRecord
  | startField
  | inField
  | inQuotedField
  | quoteInQuotedField
  | eatCrnl
  deriving DecidableEq

structure Reader where
  state : State := .startRecord
  field : List Char := []
  fields : List (List Char) := []

def delimiter : Char := ','

def quotechar : Char := '"'

/-- `csv.field_size_limit()` -/
def fieldLimit : Nat := 131072

namespace Reader

def saveField (r : Reader) (state : State) : Reader :=
  { state, field := [], fields := r.fields ++ [r.field] }

/-- `none` is the csv.Error of a field that grows too long. -/
def addChar (r : Reader) (c : Char) (state : State) : Option Reader :=
  if r.field.length ≥ fieldLimit then none
  else some { r with state, field := r.field ++ [c] }

/-- The mark after a line is `none`. -/
def atFieldStart (r : Reader) : Option Char → Option Reader
  | none => some (r.saveField .startRecord)
  | some c =>
    if c = '\n' ∨ c = '\r' then some (r.saveField .eatCrnl)
    else if c = quotechar then some { r with state := .inQuotedField }
    else if c = delimiter then some (r.saveField .startField)
    else r.addChar c .inField

/-- `none` is a csv.Error. -/
def processChar (r : Reader) (c : Option Char) : Option Reader :=
  match r.state, c with
  | .startRecord, none => some r
  | .startRecord, some c =>
    if c = '\n' ∨ c = '\r' then some { r with state := .eatCrnl }
    else r.atFieldStart (some c)
  | .startField, c => r.atFieldStart c
  | .inField, none => some (r.saveField .startRecord)
  | .inField, some c =>
    if c = '\n' ∨ c = '\r' then some (r.saveField .eatCrnl)
    else if c = delimiter then some (r.saveField .startField)
    else r.addChar c .inField
  | .inQuotedField, none => some r
  | .inQuotedField, some c =>
    if c = quotechar then some { r with state := .quoteInQuotedField }
    else r.addChar c .inQuotedField
  | .quoteInQuotedField, none => some (r.saveField .startRecord)
  | .quoteInQuotedField, some c =>
    if c = quotechar then r.addChar c .inQuotedField
    else if c = delimiter then some (r.saveField .startField)
    else if c = '\n' ∨ c = '\r' then some (r.saveField .eatCrnl)
    else r.addChar c .inField
  | .eatCrnl, none => some { r with state := .startRecord }
  | .eatCrnl, some c => if c = '\n' ∨ c = '\r' then some r else none

def processLine (r : Reader) (line : List Char) : Option Reader :=
  (line.foldlM (fun (r : Reader) c => r.processChar (some c)) r).bind fun r => r.processChar none

end Reader

def lines : List Char → List (List Char)
  | [] => []
  | c :: text =>
    if c = '\n' then [c] :: lines text
    else
      match lines text with
      | [] => [[c]]
      | line :: rest => (c :: line) :: rest

/-- What `next(reader)` does: StopIteration, csv.Error or a row. -/
inductive Next where
  | exhausted
  | malformed
  | row (fields : List (List Char))
  deriving DecidableEq

def nextFrom (r : Reader) : List (List Char) → Next
  | [] =>
    if r.field ≠ [] ∨ r.state = .inQuotedField then .row (r.saveField .startRecord).fields
    else .exhausted
  | line :: rest =>
    match r.processLine line with
    | none => .malformed
    | some r => if r.state = .startRecord then .row r.fields else nextFrom r rest

def next (text : List Char) : Next := nextFrom {} (lines text)

/-- A line leaves the reader between two records or inside quotes. -/
theorem processChar_none {r r' : Reader} (h : r.processChar none = some r') :
    r'.state = .startRecord ∨ r'.state = .inQuotedField := by
  cases hstate : r.state <;> simp only [Reader.processChar, hstate] at h
  case startField => exact .inl (by cases h; rfl)
  all_goals
    obtain rfl := Option.some.inj h
    simp [Reader.saveField, hstate]

theorem processLine_state {r r' : Reader} {line : List Char} (h : r.processLine line = some r') :
    r'.state = .startRecord ∨ r'.state = .inQuotedField := by
  obtain ⟨_, _, hlast⟩ := Option.bind_eq_some_iff.mp h
  exact processChar_none hlast

theorem nextFrom_ne_exhausted {r : Reader} {rest : List (List Char)}
    (h : r.state = .inQuotedField) : nextFrom r rest ≠ .exhausted := by
  induction rest generalizing r with
  | nil => simp [nextFrom, h]
  | cons line rest ih =>
    rw [nextFrom]
    split
    · simp
    · rename_i r' hline
      rcases processLine_state hline with hstate | hstate
      · simp [hstate]
      · rw [if_neg (by simp [hstate])]
        exact ih hstate

theorem lines_ne_nil {text : List Char} (h : text ≠ []) : lines text ≠ [] := by
  cases text with
  | nil => exact absurd rfl h
  | cons c text =>
    rw [lines]
    split
    · simp
    · split <;> simp

/-- Only an empty text has no first row. -/
theorem next_eq_exhausted_iff {text : List Char} : next text = .exhausted ↔ text = [] := by
  constructor
  · intro hnext
    by_contra hne
    obtain ⟨line, rest, hlines⟩ := List.exists_cons_of_ne_nil (lines_ne_nil hne)
    rw [next, hlines, nextFrom] at hnext
    split at hnext
    · cases hnext
    · rename_i r hline
      rcases processLine_state hline with hstate | hstate
      · simp [hstate] at hnext
      · rw [if_neg (by simp [hstate])] at hnext
        exact nextFrom_ne_exhausted hstate hnext
  · rintro rfl
    rfl

example : next "a,\"b\"\"c\nd\"\r\ne".toList =
    .row ["a".toList, "b\"c\nd".toList] := by decide +kernel

example : next "a\rb".toList = .malformed := by decide +kernel

end PyCsv
