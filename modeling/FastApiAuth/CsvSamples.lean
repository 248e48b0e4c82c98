import FastApiAuth.FileValidation
import FastApiAuth.Library.CsvLineEnds
import FastApiAuth.Library.Utf8

/-!
# The sample that validate_csv_content looks at

The sample is the first 8192 bytes, wherever that cuts the file. The cut does no harm to
the csv reader, but it may go through a character. And the reader may raise an error that
is not caught, on a carriage return in the middle of a line.
-/

namespace FastApiAuth.CsvSamples

set_option autoImplicit false

open PyCsv Utf8

structure UploadStream where
  content : Bytes
  position : Nat

/-- `validate_csv_content`: `seek(0)` comes right after the read, before anything can raise. -/
def validateCsvUpload (upload : UploadStream) : Except HttpException Unit × UploadStream :=
  (validateCsvContent (upload.content.drop upload.position), { upload with position := 0 })

section Samples

variable {content : Bytes} {text : String}

theorem sample_length (h : decode (content.take 8192) = some text) :
    text.toList.length ≤ fieldLimit := by
  have hchars := length_toList_le h
  have hbytes := List.length_take_le 8192 content
  unfold fieldLimit
  omega

theorem validateCsvContent_of_none (h : decode (content.take 8192) = none) :
    validateCsvContent content = .error (invalidCsv "CSV file is not valid UTF-8 text") := by
  rw [validateCsvContent, show String.fromUTF8? ⟨(content.take 8192).toArray⟩ = none from h]

theorem validateCsvContent_of_some (h : decode (content.take 8192) = some text) :
    validateCsvContent content =
      match PyCsv.next text.toList with
      | .exhausted => .error (invalidCsv "CSV file has no rows")
      | .malformed => .error internalServerError
      | .row fields =>
        if fields = [] then .error (invalidCsv "CSV file has no columns") else .ok () := by
  have hdecode : String.fromUTF8? ⟨(content.take 8192).toArray⟩ = some text := h
  cases hnext : PyCsv.next text.toList with
  | exhausted => simp only [validateCsvContent, hdecode, hnext]
  | malformed => simp only [validateCsvContent, hdecode, hnext]
  | row fields => simp only [validateCsvContent, hdecode, hnext]

end Samples

section Escapes

def FailsOnlyWith400 (answer : Except HttpException Unit) : Prop :=
  ∀ e, answer = .error e → e.statusCode = 400

/-- The sample is a text, and a carriage return strays in its first record. -/
def SampleStrays (content : Bytes) : Prop :=
  ∃ text, decode (content.take 8192) = some text ∧ StrayReturn text.toList

theorem sampleStrays_iff {content : Bytes} {text : String}
    (h : decode (content.take 8192) = some text) :
    SampleStrays content ↔ PyCsv.next text.toList = .malformed := by
  rw [next_eq_malformed_iff (sample_length h)]
  constructor
  · rintro ⟨text', htext', hstray⟩
    cases h.symm.trans htext'
    exact hstray
  · intro hstray
    exact ⟨text, h, hstray⟩

theorem failsOnlyWith400_iff (content : Bytes) :
    FailsOnlyWith400 (validateCsvContent content) ↔ ¬ SampleStrays content := by
  cases hdecode : decode (content.take 8192) with
  | none =>
    rw [validateCsvContent_of_none hdecode]
    constructor
    · rintro _ ⟨text, htext, _⟩
      cases hdecode.symm.trans htext
    · intro _ e he
      cases he
      rfl
  | some text =>
    rw [validateCsvContent_of_some hdecode, sampleStrays_iff hdecode]
    cases hnext : PyCsv.next text.toList with
    | malformed =>
      apply iff_of_false
      · intro h
        cases h internalServerError rfl
      · exact not_not.mpr rfl
    | exhausted =>
      apply iff_of_true
      · intro e he
        cases he
        rfl
      · nofun
    | row fields =>
      apply iff_of_true
      · intro e he
        dsimp only at he
        split at he
        · cases he
          rfl
        · cases he
      · nofun

/-- The validation returns or raises a 400, with the file rewound, if and only if no
carriage return outside quotes stands in the middle of a line of the sample's first record. -/
theorem csv_fails_only_with_400_iff (upload : UploadStream) :
    FailsOnlyWith400 (validateCsvUpload upload).1 ∧ (validateCsvUpload upload).2.position = 0 ↔
      ¬ SampleStrays (upload.content.drop upload.position) := by
  rw [← failsOnlyWith400_iff]
  exact and_iff_left rfl

theorem lone_return_escapes :
    ¬ FailsOnlyWith400 (validateCsvUpload ⟨bytesOf "a,b\rc,d\r", 0⟩).1 := by
  intro h
  have hescapes : (validateCsvUpload ⟨bytesOf "a,b\rc,d\r", 0⟩).1 =
      .error internalServerError := by
    decide +kernel
  cases h internalServerError hescapes

end Escapes

section GoodFiles

variable {content : Bytes} {text : String}

/-- A file in UTF-8 whose line ends outside quotes are LF or CRLF and whose first line is
not empty is accepted if and only if the cut behind the sample goes through no character. -/
theorem good_csv_accepted_iff (htext : decode content = some text)
    (hends : PairedReturns text.toList) (hline : StartsMidLine text.toList) :
    validateCsvContent content = .ok () ↔ ¬ SplitsCharacter content 8192 := by
  rw [← decode_take_eq_none_iff htext]
  cases hdecode : decode (content.take 8192) with
  | none =>
    rw [validateCsvContent_of_none hdecode]
    constructor
    · intro h
      cases h
    · intro h
      exact absurd rfl h
  | some front =>
    have hlength := sample_length hdecode
    have hwhole : text ≠ "" := by
      rintro rfl
      obtain ⟨c, rest, hcons, _⟩ := hline
      cases hcons
    have hne := decode_take_ne_empty htext hdecode (by decide) hwhole
    obtain ⟨back, rfl⟩ := decode_take_append htext hdecode
    rw [String.toList_append] at hends hline
    have hfront : StartsMidLine front.toList :=
      hline.of_append fun hempty => hne (String.toList_eq_nil_iff.mp hempty)
    have hstray := not_strayReturn_of_paired hends (List.prefix_append front.toList back.toList)
    rw [validateCsvContent_of_some hdecode]
    cases hnext : PyCsv.next front.toList with
    | malformed => exact absurd ((next_eq_malformed_iff hlength).mp hnext) hstray
    | exhausted =>
      obtain ⟨c, rest, hcons, _⟩ := hfront
      rw [next_eq_exhausted_iff.mp hnext] at hcons
      cases hcons
    | row fields =>
      dsimp only
      rw [if_neg (next_row_ne_nil hlength hfront hnext)]
      simp

end GoodFiles

theorem pairedReturns_of_no_return {text : List Char} (h : '\r' ∉ text) : PairedReturns text := by
  rintro before rest rfl
  exact absurd (by simp) h

theorem decode_bytesOf (text : String) : decode (bytesOf text) = some text :=
  decode_eq_some_iff.mpr rfl

theorem good_csv_accepted_iff_sample :
    validateCsvContent (bytesOf "name,town\nAda,London\n") = .ok () ↔
      ¬ SplitsCharacter (bytesOf "name,town\nAda,London\n") 8192 := by
  apply good_csv_accepted_iff (decode_bytesOf "name,town\nAda,London\n")
  · exact pairedReturns_of_no_return (by decide +kernel)
  · exact ⟨'n', "ame,town\nAda,London\n".toList, by decide +kernel, by decide, by decide⟩

/-- One line of letters, of which the last has two bytes. -/
def lineOf (n : Nat) : String := String.ofList (List.replicate n 'a' ++ ['é'])

theorem utf8Encode_replicate (n : Nat) :
    (List.replicate n 'a').utf8Encode.data.toList = List.replicate n 97 := by
  induction n with
  | zero => rfl
  | succ n ih =>
    rw [List.replicate_succ, ← List.singleton_append, List.utf8Encode_append,
      ByteArray.data_append, Array.toList_append, ih, List.replicate_succ]
    rfl

theorem lineOf_bytes (n : Nat) : bytesOf (lineOf n) = List.replicate n 97 ++ [0xc3, 0xa9] := by
  have hlast : ['é'].utf8Encode.data.toList = [0xc3, 0xa9] := by decide
  rw [bytesOf, String.toUTF8_eq_toByteArray, lineOf, String.toByteArray_ofList,
    List.utf8Encode_append, ByteArray.data_append, Array.toList_append, utf8Encode_replicate,
    hlast]

theorem lineOf_splits (n : Nat) : SplitsCharacter (bytesOf (lineOf n)) (n + 1) := by
  refine ⟨0xa9, ?_, by decide⟩
  rw [lineOf_bytes, List.getElem?_append_right (by simp)]
  simp

theorem lineOf_good (n : Nat) :
    PairedReturns (lineOf n).toList ∧ StartsMidLine (lineOf n).toList := by
  have hchars : (lineOf n).toList = List.replicate n 'a' ++ ['é'] := String.toList_ofList
  rw [hchars]
  constructor
  · apply pairedReturns_of_no_return
    simp
  · cases n with
    | zero => exact ⟨'é', [], rfl, by decide, by decide⟩
    | succ n => exact ⟨'a', List.replicate n 'a' ++ ['é'], rfl, by decide, by decide⟩

/-- The file is as good as any, and is called invalid UTF-8. -/
theorem long_line_rejected :
    decode (bytesOf (lineOf 8191)) = some (lineOf 8191) ∧
      PairedReturns (lineOf 8191).toList ∧ StartsMidLine (lineOf 8191).toList ∧
      validateCsvContent (bytesOf (lineOf 8191)) =
        .error (invalidCsv "CSV file is not valid UTF-8 text") := by
  have hdecode := decode_bytesOf (lineOf 8191)
  obtain ⟨hends, hline⟩ := lineOf_good 8191
  refine ⟨hdecode, hends, hline, ?_⟩
  apply validateCsvContent_of_none
  exact (decode_take_eq_none_iff hdecode).mpr (lineOf_splits 8191)

end FastApiAuth.CsvSamples
