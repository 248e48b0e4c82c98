import FastApiAuth.Library.PyCsv

/-!
# Carriage returns in the first row of a CSV text

The reader has one complaint about a short text: a carriage return outside quotes in the
middle of a line of the first record. Which characters stand outside quotes is said here
without the reader, by the place of a character in its field.
-/

namespace PyCsv

set_option autoImplicit false

inductive Place where
  | fieldStart
  | bare
  | quoted
  /-- Behind a quote that closes the field, unless another one follows. -/
  | closing
  deriving DecidableEq

def Place.next (p : Place) (c : Char) : Place :=
  if p = .quoted then if c = quotechar then .closing else .quoted
  else if c = '\n' ∨ c = delimiter then .fieldStart
  else if c = quotechar ∧ p ≠ .bare then .quoted
  else .bare

theorem Place.next_return {p : Place} (hp : p ≠ .quoted) : p.next '\r' = .bare := by
  simp [Place.next, hp, delimiter, quotechar]

theorem Place.next_delimiter {p : Place} (hp : p ≠ .quoted) : p.next delimiter = .fieldStart := by
  simp [Place.next, hp]

theorem Place.next_other {p : Place} {c : Char} (hp : p ≠ .quoted) (hn : c ≠ '\n')
    (hdelimiter : c ≠ delimiter) (hquote : c ≠ quotechar ∨ p = .bare) : p.next c = .bare := by
  rcases hquote with hquote | rfl
  · simp [Place.next, hp, hn, hdelimiter, hquote]
  · simp [Place.next, hn, hdelimiter]

def placeFrom (p : Place) (text : List Char) : Place := text.foldl Place.next p

/-- A character after this text stands outside quotes. -/
def Outside (text : List Char) : Prop := placeFrom .fieldStart text ≠ .quoted

/-- No record ends in the text: every line end in it is quoted. -/
def FirstRecordFrom (p : Place) (text : List Char) : Prop :=
  ∀ front, front ++ ['\n'] <+: text → placeFrom p front = .quoted

/-- Somewhere in the first record a carriage return outside quotes is followed by neither
a carriage return nor a newline. -/
def StrayReturnFrom (p : Place) (text : List Char) : Prop :=
  ∃ before c rest, text = before ++ '\r' :: c :: rest ∧ c ≠ '\r' ∧ c ≠ '\n' ∧
    placeFrom p before ≠ .quoted ∧ FirstRecordFrom p before

def StrayReturn : List Char → Prop := StrayReturnFrom .fieldStart

/-- Every carriage return outside quotes is followed by a newline. -/
def PairedReturns (text : List Char) : Prop :=
  ∀ before rest, text = before ++ '\r' :: rest → Outside before → ∃ rest', rest = '\n' :: rest'

/-- The text goes on with something else than the end of a line. -/
def StartsMidLine (text : List Char) : Prop := ∃ c rest, text = c :: rest ∧ c ≠ '\r' ∧ c ≠ '\n'

theorem StartsMidLine.of_append {front back : List Char} (h : StartsMidLine (front ++ back))
    (hne : front ≠ []) : StartsMidLine front := by
  obtain ⟨c, rest, heq, hr, hn⟩ := h
  cases front with
  | nil => exact absurd rfl hne
  | cons d front =>
    obtain ⟨rfl, _⟩ := List.cons.inj heq
    exact ⟨d, front, rfl, hr, hn⟩

section Places

variable {p : Place} {c : Char} {text before : List Char}

theorem firstRecordFrom_nil (p : Place) : FirstRecordFrom p [] := by
  intro front h
  have := h.length_le
  simp at this

theorem firstRecordFrom_cons :
    FirstRecordFrom p (c :: text) ↔ (c = '\n' → p = .quoted) ∧ FirstRecordFrom (p.next c) text := by
  constructor
  · intro h
    constructor
    · rintro rfl
      exact h [] (List.cons_prefix_cons.mpr ⟨rfl, List.nil_prefix⟩)
    · intro front hfront
      exact h (c :: front) (List.cons_prefix_cons.mpr ⟨rfl, hfront⟩)
  · rintro ⟨hc, h⟩ front hfront
    cases front with
    | nil =>
      obtain ⟨heq, _⟩ := List.cons_prefix_cons.mp hfront
      exact hc heq.symm
    | cons d front =>
      obtain ⟨rfl, hrest⟩ := List.cons_prefix_cons.mp hfront
      exact h front hrest

theorem not_strayReturnFrom_nil (p : Place) : ¬ StrayReturnFrom p [] := by
  rintro ⟨before, c, rest, h, _⟩
  simp at h

theorem strayReturnFrom_cons :
    StrayReturnFrom p (c :: text) ↔
      (p ≠ .quoted ∧ c = '\r' ∧ StartsMidLine text) ∨
        ((c = '\n' → p = .quoted) ∧ StrayReturnFrom (p.next c) text) := by
  constructor
  · rintro ⟨before, d, rest, h, hd, hd', hout, hfirst⟩
    cases before with
    | nil =>
      obtain ⟨rfl, rfl⟩ := List.cons.inj h
      exact Or.inl ⟨hout, rfl, d, rest, rfl, hd, hd'⟩
    | cons b before =>
      obtain ⟨rfl, rfl⟩ := List.cons.inj h
      obtain ⟨hc, hfirst⟩ := firstRecordFrom_cons.mp hfirst
      exact Or.inr ⟨hc, before, d, rest, rfl, hd, hd', hout, hfirst⟩
  · rintro (⟨hout, rfl, d, rest, rfl, hd, hd'⟩ | ⟨hc, before, d, rest, rfl, hd, hd', hout, hfirst⟩)
    · exact ⟨[], d, rest, rfl, hd, hd', hout, firstRecordFrom_nil p⟩
    · exact ⟨c :: before, d, rest, rfl, hd, hd', hout, firstRecordFrom_cons.mpr ⟨hc, hfirst⟩⟩

/-- With paired returns no beginning of the text has a stray one. -/
theorem not_strayReturn_of_paired (h : PairedReturns text) (hfront : before <+: text) :
    ¬ StrayReturn before := by
  rintro ⟨front, c, rest, rfl, _, hc, hout, _⟩
  obtain ⟨back, rfl⟩ := hfront
  obtain ⟨rest', hrest⟩ := h front (c :: rest ++ back) (by simp) hout
  exact hc (List.cons.inj hrest).1

end Places

section ReaderCharacter

def State.place : State → Place
  | .startRecord | .startField => .fieldStart
  | .inField | .eatCrnl => .bare
  | .inQuotedField => .quoted
  | .quoteInQuotedField => .closing

/-- Something of the record has been read. -/
def Reader.Begun (r : Reader) : Prop :=
  r.fields ≠ [] ∨ r.state ≠ .startRecord ∧ r.state ≠ .eatCrnl

end ReaderCharacter

section Steps

variable {r r' : Reader} {c : Char}

theorem saveField_ne_nil (r : Reader) (s : State) : (r.saveField s).fields ≠ [] := by
  simp [Reader.saveField]

theorem addChar_of_lt (h : r.field.length < fieldLimit) (c : Char) (s : State) :
    r.addChar c s = some { r with state := s, field := r.field ++ [c] } := by
  rw [Reader.addChar, if_neg (by omega)]

/-- What a character of a line makes of the reader. -/
structure Takes (r : Reader) (c : Char) (r' : Reader) : Prop where
  length : r'.field.length ≤ r.field.length + 1
  ended_iff : r'.state = .eatCrnl ↔ r.state.place ≠ .quoted ∧ (c = '\n' ∨ c = '\r')
  place : c ≠ '\n' ∨ r.state.place = .quoted → r'.state.place = r.state.place.next c
  begun : r.Begun ∨ (c ≠ '\n' ∧ c ≠ '\r') → r'.Begun

theorem takes_saveField_eatCrnl (hplace : r.state.place ≠ .quoted) (hc : c = '\n' ∨ c = '\r') :
    Takes r c (r.saveField .eatCrnl) := by
  constructor
  · exact Nat.zero_le _
  · exact ⟨fun _ => ⟨hplace, hc⟩, fun _ => rfl⟩
  · rintro (hn | hquoted)
    · obtain rfl := hc.resolve_left hn
      exact (Place.next_return hplace).symm
    · exact absurd hquoted hplace
  · intro _
    exact Or.inl (saveField_ne_nil r _)

theorem takes_saveField_startField (hplace : r.state.place ≠ .quoted) (hc : c = delimiter) :
    Takes r c (r.saveField .startField) := by
  subst hc
  constructor
  · exact Nat.zero_le _
  · simp [Reader.saveField, delimiter]
  · intro _
    exact (Place.next_delimiter hplace).symm
  · intro _
    exact Or.inl (saveField_ne_nil r _)

/-- The character goes into the field or opens or closes quotes. -/
theorem takes_inside {s : State} {field : List Char} (hfield : field.length ≤ r.field.length + 1)
    (hs : s ≠ .startRecord ∧ s ≠ .eatCrnl) (hplace : s.place = r.state.place.next c)
    (hc : r.state.place = .quoted ∨ (c ≠ '\n' ∧ c ≠ '\r')) :
    Takes r c { r with state := s, field } := by
  constructor
  · exact hfield
  · constructor
    · intro h
      exact absurd h hs.2
    · rintro ⟨hout, hend⟩
      obtain ⟨hn, hr⟩ := hc.resolve_left hout
      rcases hend with h | h
      · exact absurd h hn
      · exact absurd h hr
  · intro _
    exact hplace
  · intro _
    exact Or.inr hs

theorem atFieldStart_takes (hlength : r.field.length < fieldLimit)
    (hplace : r.state.place = .fieldStart) :
    ∃ r', r.atFieldStart (some c) = some r' ∧ Takes r c r' := by
  have hout : r.state.place ≠ .quoted := by
    rw [hplace]
    decide
  rw [Reader.atFieldStart]
  split
  · rename_i hc
    exact ⟨_, rfl, takes_saveField_eatCrnl hout hc⟩
  rename_i hc
  rw [not_or] at hc
  split
  · rename_i hquote
    refine ⟨_, rfl, takes_inside (Nat.le_succ _) (by decide) ?_ (Or.inr hc)⟩
    subst hquote
    rw [hplace]
    rfl
  rename_i hquote
  split
  · rename_i hdelimiter
    exact ⟨_, rfl, takes_saveField_startField hout hdelimiter⟩
  rename_i hdelimiter
  refine ⟨_, addChar_of_lt hlength c _, takes_inside (by simp) (by decide) ?_ (Or.inr hc)⟩
  exact (Place.next_other hout hc.1 hdelimiter (Or.inl hquote)).symm

/-- Between two records and behind the end of a line nothing is in the field. -/
theorem takes_eatCrnl (hs : r.state = .startRecord ∨ r.state = .eatCrnl)
    (hc : c = '\n' ∨ c = '\r') : Takes r c { r with state := .eatCrnl } := by
  have hout : r.state.place ≠ .quoted := by
    rcases hs with hs | hs <;> rw [hs] <;> decide
  constructor
  · exact Nat.le_succ _
  · exact ⟨fun _ => ⟨hout, hc⟩, fun _ => rfl⟩
  · rintro (hn | hquoted)
    · obtain rfl := hc.resolve_left hn
      exact (Place.next_return hout).symm
    · exact absurd hquoted hout
  · rintro (hbegun | ⟨hn, hr⟩)
    · apply Or.inl
      apply hbegun.resolve_right
      rintro ⟨hstart, hend⟩
      exact hs.elim hstart hend
    · exact absurd hc (not_or.mpr ⟨hn, hr⟩)

theorem startRecord_takes (hlength : r.field.length < fieldLimit) (hs : r.state = .startRecord) :
    ∃ r', r.processChar (some c) = some r' ∧ Takes r c r' := by
  simp only [Reader.processChar, hs]
  split
  · rename_i hc
    exact ⟨_, rfl, takes_eatCrnl (Or.inl hs) hc⟩
  · exact atFieldStart_takes hlength (by rw [hs]; rfl)

theorem inField_takes (hlength : r.field.length < fieldLimit) (hs : r.state = .inField) :
    ∃ r', r.processChar (some c) = some r' ∧ Takes r c r' := by
  have hplace : r.state.place = .bare := by
    rw [hs]
    rfl
  have hout : r.state.place ≠ .quoted := by
    rw [hplace]
    decide
  simp only [Reader.processChar, hs]
  split
  · rename_i hc
    exact ⟨_, rfl, takes_saveField_eatCrnl hout hc⟩
  rename_i hc
  rw [not_or] at hc
  split
  · rename_i hdelimiter
    exact ⟨_, rfl, takes_saveField_startField hout hdelimiter⟩
  rename_i hdelimiter
  refine ⟨_, addChar_of_lt hlength c _, takes_inside (by simp) (by decide) ?_ (Or.inr hc)⟩
  exact (Place.next_other hout hc.1 hdelimiter (Or.inr hplace)).symm

theorem inQuotedField_takes (hlength : r.field.length < fieldLimit)
    (hs : r.state = .inQuotedField) : ∃ r', r.processChar (some c) = some r' ∧ Takes r c r' := by
  have hquoted : r.state.place = .quoted := by
    rw [hs]
    rfl
  simp only [Reader.processChar, hs]
  split
  · rename_i hquote
    refine ⟨_, rfl, takes_inside (Nat.le_succ _) (by decide) ?_ (Or.inl hquoted)⟩
    rw [hquoted, hquote]
    rfl
  · rename_i hquote
    refine ⟨_, addChar_of_lt hlength c _,
      takes_inside (by simp) (by decide) ?_ (Or.inl hquoted)⟩
    rw [hquoted, Place.next, if_pos rfl, if_neg hquote]
    rfl

theorem quoteInQuotedField_takes (hlength : r.field.length < fieldLimit)
    (hs : r.state = .quoteInQuotedField) :
    ∃ r', r.processChar (some c) = some r' ∧ Takes r c r' := by
  have hout : r.state.place ≠ .quoted := by
    rw [hs]
    decide
  simp only [Reader.processChar, hs]
  split
  · rename_i hquote
    subst hquote
    refine ⟨_, addChar_of_lt hlength _ _,
      takes_inside (by simp) (by decide) ?_ (Or.inr (by decide))⟩
    rw [hs]
    rfl
  rename_i hquote
  split
  · rename_i hdelimiter
    exact ⟨_, rfl, takes_saveField_startField hout hdelimiter⟩
  rename_i hdelimiter
  split
  · rename_i hc
    exact ⟨_, rfl, takes_saveField_eatCrnl hout hc⟩
  rename_i hc
  rw [not_or] at hc
  refine ⟨_, addChar_of_lt hlength c _, takes_inside (by simp) (by decide) ?_ (Or.inr hc)⟩
  exact (Place.next_other hout hc.1 hdelimiter (Or.inl hquote)).symm

/-- A reader that holds less than the limit takes every character, unless the line seemed
to have ended. -/
theorem processChar_takes (hlength : r.field.length < fieldLimit)
    (hstate : r.state = .eatCrnl → c = '\n' ∨ c = '\r') :
    ∃ r', r.processChar (some c) = some r' ∧ Takes r c r' := by
  cases hs : r.state with
  | startRecord => exact startRecord_takes hlength hs
  | startField =>
    simp only [Reader.processChar, hs]
    exact atFieldStart_takes hlength (by rw [hs]; rfl)
  | inField => exact inField_takes hlength hs
  | inQuotedField => exact inQuotedField_takes hlength hs
  | quoteInQuotedField => exact quoteInQuotedField_takes hlength hs
  | eatCrnl =>
    have hc := hstate hs
    have hkept : { r with state := .eatCrnl } = r := by rw [← hs]
    have htakes := takes_eatCrnl (Or.inr hs) hc
    rw [hkept] at htakes
    refine ⟨r, ?_, htakes⟩
    simp only [Reader.processChar, hs, if_pos hc]

theorem processChar_eatCrnl (hs : r.state = .eatCrnl) (hn : c ≠ '\n') (hr : c ≠ '\r') :
    r.processChar (some c) = none := by
  simp [Reader.processChar, hs, hn, hr]

/-- The end of a line ends the record, unless it is quoted. -/
theorem processChar_lineEnd (r : Reader) :
    ∃ r', r.processChar none = some r' ∧
      (if r.state = .inQuotedField then r' = r else r'.state = .startRecord) ∧
      (r.Begun → r'.Begun) := by
  cases hs : r.state with
  | startRecord =>
    simp only [Reader.processChar, hs]
    exact ⟨r, rfl, by simp [hs], id⟩
  | inQuotedField =>
    simp only [Reader.processChar, hs]
    exact ⟨r, rfl, by simp, id⟩
  | eatCrnl =>
    simp only [Reader.processChar, hs]
    refine ⟨_, rfl, by simp, ?_⟩
    intro hbegun
    exact Or.inl (hbegun.resolve_right fun h => h.2 hs)
  | startField | inField | quoteInQuotedField =>
    simp only [Reader.processChar, hs]
    exact ⟨_, rfl, by simp [Reader.saveField], fun _ => Or.inl (saveField_ne_nil r _)⟩

end Steps

section Records

variable {r : Reader} {c : Char} {text : List Char} {fields : List (List Char)}

theorem nextFrom_cons_cons (r : Reader) (c : Char) (line : List Char) (rest : List (List Char)) :
    nextFrom r ((c :: line) :: rest) =
      match r.processChar (some c) with
      | none => .malformed
      | some r' => nextFrom r' (line :: rest) := by
  rw [nextFrom, Reader.processLine, List.foldlM_cons]
  cases r.processChar (some c) with
  | none => rfl
  | some r' => rfl

theorem lines_cons_of_ne (text : List Char) (hc : c ≠ '\n') :
    ∃ line rest, lines (c :: text) = (c :: line) :: rest ∧
      (if text = [] then line = [] ∧ rest = [] else lines text = line :: rest) := by
  rw [lines, if_neg hc]
  split
  · rename_i hnil
    have htext : text = [] := by
      by_contra hne
      exact lines_ne_nil hne hnil
    exact ⟨[], [], rfl, by rw [if_pos htext]; exact ⟨rfl, rfl⟩⟩
  · rename_i line rest hlines
    refine ⟨line, rest, rfl, ?_⟩
    rw [if_neg]
    · exact hlines
    · rintro rfl
      cases hlines

/-- The reader at the end of a line goes on in quotes, or has its record. -/
theorem nextFrom_lineEnd (r : Reader) (rest : List (List Char)) :
    if r.state = .inQuotedField then nextFrom r ([] :: rest) = nextFrom r rest
    else ∃ fields, nextFrom r ([] :: rest) = .row fields ∧ (r.Begun → fields ≠ []) := by
  obtain ⟨r', hend, hstate, hbegun⟩ := processChar_lineEnd r
  have hline : r.processLine [] = some r' := hend
  rw [nextFrom, hline]
  dsimp only
  split
  · rename_i hs
    rw [if_pos hs] at hstate
    subst hstate
    rw [if_neg]
    rw [hs]
    decide
  · rename_i hs
    rw [if_neg hs] at hstate
    rw [if_pos hstate]
    refine ⟨r'.fields, rfl, ?_⟩
    intro hr
    exact (hbegun hr).resolve_right fun h => h.1 hstate

theorem nextFrom_nil (r : Reader) :
    nextFrom r [] = .exhausted ∨ ∃ fields, nextFrom r [] = .row fields ∧ fields ≠ [] := by
  rw [nextFrom]
  split
  · exact Or.inr ⟨_, rfl, saveField_ne_nil r _⟩
  · exact Or.inl rfl

theorem nextFrom_nil_ne_malformed (r : Reader) : nextFrom r [] ≠ .malformed := by
  intro h
  rcases nextFrom_nil r with hnil | ⟨fields, hnil, _⟩
  · cases hnil.symm.trans h
  · cases hnil.symm.trans h

/-- The end of the text is no reason to complain. -/
theorem nextFrom_lastLine_ne_malformed (r : Reader) : nextFrom r [[]] ≠ .malformed := by
  have hend := nextFrom_lineEnd r []
  split at hend
  · rw [hend]
    exact nextFrom_nil_ne_malformed r
  · obtain ⟨fields, hrow, _⟩ := hend
    rw [hrow]
    nofun

/-- What one character does to the reading of the first record. -/
theorem nextFrom_lines_cons (c : Char) (text : List Char) (hlength : r.field.length < fieldLimit) :
    (r.state = .eatCrnl ∧ StartsMidLine (c :: text) ∧ nextFrom r (lines (c :: text)) = .malformed) ∨
      ¬ (r.state = .eatCrnl ∧ StartsMidLine (c :: text)) ∧ ∃ r', Takes r c r' ∧
        nextFrom r (lines (c :: text)) =
          if c = '\n' ∨ text = [] then nextFrom r' ([] :: lines text)
          else nextFrom r' (lines text) := by
  by_cases hstray : r.state = .eatCrnl ∧ StartsMidLine (c :: text)
  · obtain ⟨hs, d, rest, heq, hr, hn⟩ := hstray
    obtain ⟨rfl, rfl⟩ := List.cons.inj heq
    refine Or.inl ⟨hs, ⟨c, text, rfl, hr, hn⟩, ?_⟩
    obtain ⟨line, rest, hlines, _⟩ := lines_cons_of_ne text hn
    rw [hlines, nextFrom_cons_cons, processChar_eatCrnl hs hn hr]
  · refine Or.inr ⟨hstray, ?_⟩
    have hstate : r.state = .eatCrnl → c = '\n' ∨ c = '\r' := by
      intro hs
      by_contra hc
      rw [not_or] at hc
      exact hstray ⟨hs, c, text, rfl, hc.2, hc.1⟩
    obtain ⟨r', hprocess, htakes⟩ := processChar_takes hlength hstate
    refine ⟨r', htakes, ?_⟩
    by_cases hn : c = '\n'
    · rw [if_pos (Or.inl hn), lines, if_pos hn, nextFrom_cons_cons, hprocess]
    · obtain ⟨line, rest, hlines, htail⟩ := lines_cons_of_ne text hn
      rw [hlines, nextFrom_cons_cons, hprocess]
      by_cases htext : text = []
      · rw [if_pos htext] at htail
        rw [if_pos (Or.inr htext), htail.1, htail.2, htext]
        rfl
      · rw [if_neg htext] at htail
        rw [if_neg (by simp [hn, htext]), htail]

theorem place_eq_quoted_iff {s : State} : s.place = .quoted ↔ s = .inQuotedField := by
  cases s <;> simp [State.place]

/-- A reader complains about a short text exactly when a carriage return strays. -/
theorem nextFrom_eq_malformed_iff (hlength : r.field.length + text.length ≤ fieldLimit) :
    nextFrom r (lines text) = .malformed ↔
      (r.state = .eatCrnl ∧ StartsMidLine text) ∨ StrayReturnFrom r.state.place text := by
  induction text generalizing r with
  | nil =>
    apply iff_of_false (nextFrom_nil_ne_malformed r)
    rintro (⟨_, _, _, h, _⟩ | h)
    · cases h
    · exact not_strayReturnFrom_nil _ h
  | cons c text ih =>
    rw [List.length_cons] at hlength
    rcases nextFrom_lines_cons c text (show r.field.length < fieldLimit by omega) with
      ⟨hs, hmiddle, hmalformed⟩ | ⟨hstray, r', htakes, hnext⟩
    · exact ⟨fun _ => Or.inl ⟨hs, hmiddle⟩, fun _ => hmalformed⟩
    have hlength' : r'.field.length + text.length ≤ fieldLimit := by
      have := htakes.length
      omega
    rw [or_iff_right hstray, strayReturnFrom_cons, hnext]
    by_cases hn : c = '\n'
    · subst hn
      rw [if_pos (Or.inl rfl)]
      have hend := nextFrom_lineEnd r' (lines text)
      by_cases hquoted : r.state.place = .quoted
      · have hplace := htakes.place (Or.inr hquoted)
        rw [hquoted] at hplace
        have hs : r'.state = .inQuotedField := place_eq_quoted_iff.mp hplace
        rw [if_pos hs] at hend
        rw [hend, ih hlength', hplace, hs, hquoted]
        simp [Place.next, quotechar]
      · have hs := htakes.ended_iff.mpr ⟨hquoted, Or.inl rfl⟩
        rw [hs, if_neg (by decide)] at hend
        obtain ⟨fields, hrow, _⟩ := hend
        rw [hrow]
        simp [hquoted]
    · have hplace := htakes.place (Or.inl hn)
      have hended : r'.state = .eatCrnl ↔ r.state.place ≠ .quoted ∧ c = '\r' := by
        rw [htakes.ended_iff]
        simp [hn]
      by_cases htext : text = []
      · subst htext
        rw [if_pos (Or.inr rfl)]
        apply iff_of_false (nextFrom_lastLine_ne_malformed r')
        rintro (⟨_, _, _, _, h, _⟩ | ⟨_, h⟩)
        · cases h
        · exact not_strayReturnFrom_nil _ h
      · rw [if_neg (by simp [hn, htext]), ih hlength', hended, hplace]
        simp [hn, and_assoc]

/-- A record of which something has been read, or still comes on this line, has a field. -/
theorem row_ne_nil (hlength : r.field.length + text.length ≤ fieldLimit)
    (hbegun : r.Begun ∨ StartsMidLine text) (hrow : nextFrom r (lines text) = .row fields) :
    fields ≠ [] := by
  induction text generalizing r with
  | nil =>
    rcases nextFrom_nil r with hnil | ⟨fields', hnil, hne⟩
    · cases hnil.symm.trans hrow
    · cases hnil.symm.trans hrow
      exact hne
  | cons c text ih =>
    rw [List.length_cons] at hlength
    rcases nextFrom_lines_cons c text (show r.field.length < fieldLimit by omega) with
      ⟨_, _, hmalformed⟩ | ⟨_, r', htakes, hnext⟩
    · cases hmalformed.symm.trans hrow
    have hlength' : r'.field.length + text.length ≤ fieldLimit := by
      have := htakes.length
      omega
    have hbegun' : r'.Begun := by
      apply htakes.begun
      rcases hbegun with hbegun | ⟨d, rest, heq, hr, hn⟩
      · exact Or.inl hbegun
      · obtain ⟨rfl, _⟩ := List.cons.inj heq
        exact Or.inr ⟨hn, hr⟩
    rw [hnext] at hrow
    split at hrow
    · have hend := nextFrom_lineEnd r' (lines text)
      split at hend
      · rw [hend] at hrow
        exact ih hlength' (Or.inl hbegun') hrow
      · obtain ⟨fields', hrow', hne⟩ := hend
        cases hrow'.symm.trans hrow
        exact hne hbegun'
    · exact ih hlength' (Or.inl hbegun') hrow

end Records

section FirstRow

theorem next_eq_malformed_iff {text : List Char} (hlength : text.length ≤ fieldLimit) :
    next text = .malformed ↔ StrayReturn text := by
  have hstart : (({} : Reader).field).length + text.length ≤ fieldLimit := by simpa using hlength
  rw [next, nextFrom_eq_malformed_iff hstart]
  constructor
  · rintro (⟨h, _⟩ | h)
    · cases h
    · exact h
  · exact Or.inr

/-- The first row has a field unless the first line is empty. -/
theorem next_row_ne_nil {text : List Char} {fields : List (List Char)}
    (hlength : text.length ≤ fieldLimit) (hline : StartsMidLine text)
    (hrow : next text = .row fields) : fields ≠ [] := by
  have hstart : (({} : Reader).field).length + text.length ≤ fieldLimit := by simpa using hlength
  exact row_ne_nil hstart (Or.inr hline) hrow

end FirstRow

end PyCsv
