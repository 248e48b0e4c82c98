import FastApiAuth.FileValidation

/-!
# The verdict on an upload does not depend on how it is read

The file may hand out its bytes in any pieces. The loop's total and head are those of
what has been read so far, so that the answer is a function of the whole content.
-/

namespace FastApiAuth.StreamValidation

set_option autoImplicit false

open Chunks

/-- The loop over what the reads return: its outcome, and the position in the file. -/
def readLoop (category : UploadCategory) :
    StreamScan → Nat → List Bytes → Except HttpException StreamScan × Nat
  | scan, position, [] => (.ok scan, position)
  | scan, position, chunk :: chunks =>
    if chunk = [] then (.ok scan, position)
    else
      match readChunk category scan chunk with
      | .error e => (.error e, position + chunk.length)
      | .ok scan => readLoop category scan (position + chunk.length) chunks

/-- `read_and_validate_stream` of a file whose reads return these chunks: the answer, and
the position it leaves the file at. -/
def validateReads (category : UploadCategory) (chunks : List Bytes) :
    Except HttpException Nat × Nat :=
  match readLoop category {} 0 chunks with
  | (.error e, position) => (.error e, position)
  | (.ok scan, position) =>
    if scan.total = 0 then (.error emptyUpload, position)
    else if !passesSignature category scan.head then
      (.error (signatureMismatch category), position)
    else (.ok scan.total, 0)

section Loop

variable {category : UploadCategory} {chunks : List Bytes} {read : Bytes}

theorem readLoop_within (hne : ∀ chunk ∈ chunks, chunk ≠ [])
    (hclean : ∀ chunk ∈ chunks, ¬ eicarSignature <:+: chunk)
    (hsize : (read ++ chunks.flatten).length ≤ category.maxSizeBytes) :
    readLoop category (scanOf read) read.length chunks =
      (.ok (scanOf (read ++ chunks.flatten)), (read ++ chunks.flatten).length) := by
  induction chunks generalizing read with
  | nil => simp [readLoop]
  | cons chunk chunks ih =>
    have hchunk := hne chunk List.mem_cons_self
    have hscan := hclean chunk List.mem_cons_self
    rw [List.flatten_cons, ← List.append_assoc] at hsize ⊢
    have hfits : ¬ (read ++ chunk).length > category.maxSizeBytes := by
      rw [List.length_append] at hsize
      omega
    rw [readLoop, if_neg hchunk, readChunk_scanOf, if_neg hfits, if_neg hscan,
      ← List.length_append]
    apply ih
    · intro c hc
      exact hne c (List.mem_cons_of_mem _ hc)
    · intro c hc
      exact hclean c (List.mem_cons_of_mem _ hc)
    · exact hsize

theorem readLoop_beyond (hne : ∀ chunk ∈ chunks, chunk ≠ [] ∧ chunk.length ≤ chunkSize)
    (hclean : ∀ chunk ∈ chunks, ¬ eicarSignature <:+: chunk)
    (hread : read.length ≤ category.maxSizeBytes)
    (hsize : category.maxSizeBytes < (read ++ chunks.flatten).length) :
    ∃ position, readLoop category (scanOf read) read.length chunks =
      (.error (contentTooLarge category), position) ∧
        position ≤ category.maxSizeBytes + chunkSize := by
  induction chunks generalizing read with
  | nil =>
    rw [List.flatten_nil, List.append_nil] at hsize
    omega
  | cons chunk chunks ih =>
    obtain ⟨hchunk, hlength⟩ := hne chunk List.mem_cons_self
    have hscan := hclean chunk List.mem_cons_self
    rw [List.flatten_cons, ← List.append_assoc] at hsize
    rw [readLoop, if_neg hchunk, readChunk_scanOf]
    by_cases hover : (read ++ chunk).length > category.maxSizeBytes
    · rw [if_pos hover]
      exact ⟨_, rfl, by omega⟩
    · rw [if_neg hover, if_neg hscan, ← List.length_append]
      apply ih
      · intro c hc
        exact hne c (List.mem_cons_of_mem _ hc)
      · intro c hc
        exact hclean c (List.mem_cons_of_mem _ hc)
      · omega
      · exact hsize

end Loop

section Verdict

/-- The content is not empty, fits the category and begins as its files do. -/
structure Fits (category : UploadCategory) (content : Bytes) : Prop where
  pos : 0 < content.length
  le : content.length ≤ category.maxSizeBytes
  signature : passesSignature category (content.take signatureHeadSize) = true

/-- What is said of the content: its length, with the file rewound, or one of two errors. -/
structure Verdict (category : UploadCategory) (content : Bytes)
    (outcome : Except HttpException Nat × Nat) : Prop where
  accepts_iff : outcome = (.ok content.length, 0) ↔ Fits category content
  rejects_iff : (∃ e, outcome.1 = .error e) ↔ ¬ Fits category content
  tooLarge_iff : (∃ e, outcome.1 = .error e ∧ e.statusCode = 413) ↔
    category.maxSizeBytes < content.length
  otherwise : ∀ e, outcome.1 = .error e → e.statusCode = 413 ∨ e.statusCode = 400
  position_le : ∀ e, outcome.1 = .error e → e.statusCode = 413 →
    outcome.2 ≤ category.maxSizeBytes + chunkSize

end Verdict

section Verdicts

variable {category : UploadCategory} {content : Bytes} {chunks : List Bytes}

/-- An error that tells whether the content is too large. -/
theorem verdict_error {e : HttpException} {position : Nat} (hfits : ¬ Fits category content)
    (hcode : e.statusCode = 413 ∨ e.statusCode = 400)
    (hlarge : e.statusCode = 413 ↔ category.maxSizeBytes < content.length)
    (hposition : e.statusCode = 413 → position ≤ category.maxSizeBytes + chunkSize) :
    Verdict category content (.error e, position) := by
  constructor
  · apply iff_of_false
    · intro h
      cases h
    · exact hfits
  · exact ⟨fun _ => hfits, fun _ => ⟨e, rfl⟩⟩
  · rw [← hlarge]
    constructor
    · rintro ⟨e', he', hcode'⟩
      cases he'
      exact hcode'
    · intro hcode'
      exact ⟨e, rfl, hcode'⟩
  · intro e' he'
    cases he'
    exact hcode
  · intro e' he' hcode'
    cases he'
    exact hposition hcode'

theorem verdict_tooLarge {position : Nat} (hsize : category.maxSizeBytes < content.length)
    (hposition : position ≤ category.maxSizeBytes + chunkSize) :
    Verdict category content (.error (contentTooLarge category), position) := by
  apply verdict_error
  · intro h
    have := h.le
    omega
  · exact Or.inl rfl
  · exact ⟨fun _ => hsize, fun _ => rfl⟩
  · intro _
    exact hposition

theorem verdict_badRequest {e : HttpException} {position : Nat} (he : e.statusCode = 400)
    (hsize : content.length ≤ category.maxSizeBytes) (hfits : ¬ Fits category content) :
    Verdict category content (.error e, position) := by
  apply verdict_error hfits (Or.inr he)
  · rw [he]
    omega
  · rw [he]
    omega

theorem verdict_accepted (hfits : Fits category content) :
    Verdict category content (.ok content.length, 0) := by
  constructor
  · exact ⟨fun _ => hfits, fun _ => rfl⟩
  · constructor
    · rintro ⟨e, he⟩
      cases he
    · intro h
      exact absurd hfits h
  · constructor
    · rintro ⟨e, he, _⟩
      cases he
    · intro hlarge
      have := hfits.le
      omega
  · intro e he
    cases he
  · intro e he
    cases he

/-- However the reads split a content of which no piece holds the signature of the virus
scan, the verdict is the same. -/
theorem verdict_of_any_reads (category : UploadCategory) (content : Bytes)
    (hcontent : chunks.flatten = content)
    (hchunks : ∀ chunk ∈ chunks, chunk ≠ [] ∧ chunk.length ≤ chunkSize)
    (hclean : ∀ chunk ∈ chunks, ¬ eicarSignature <:+: chunk) :
    Verdict category content (validateReads category chunks) := by
  subst hcontent
  rcases Nat.lt_or_ge category.maxSizeBytes chunks.flatten.length with hlarge | hsize
  · obtain ⟨position, hloop, hposition⟩ :
        ∃ position, readLoop category (scanOf []) 0 chunks =
          (.error (contentTooLarge category), position) ∧
            position ≤ category.maxSizeBytes + chunkSize :=
      readLoop_beyond hchunks hclean (Nat.zero_le _) hlarge
    rw [scanOf_nil] at hloop
    rw [validateReads, hloop]
    exact verdict_tooLarge hlarge hposition
  · have hne : ∀ chunk ∈ chunks, chunk ≠ [] := fun chunk hchunk => (hchunks chunk hchunk).1
    have hloop : readLoop category (scanOf []) 0 chunks =
        (.ok (scanOf chunks.flatten), chunks.flatten.length) :=
      readLoop_within hne hclean hsize
    rw [scanOf_nil] at hloop
    rw [validateReads, hloop]
    dsimp only [scanOf]
    split
    · rename_i hzero
      apply verdict_badRequest rfl hsize
      intro h
      have := h.pos
      omega
    · rename_i hpos
      split
      · rename_i hsignature
        apply verdict_badRequest rfl hsize
        intro h
        rw [h.signature] at hsignature
        cases hsignature
      · rename_i hsignature
        apply verdict_accepted
        exact ⟨by omega, hsize, by simpa using hsignature⟩

/-- A PDF header, read byte by byte. -/
theorem verdict_of_any_reads_sample :
    Verdict pdfCategory (bytesOf "%PDF-") (validateReads pdfCategory
      ((bytesOf "%PDF-").map fun b => [b])) := by
  have hlength : ∀ chunk ∈ (bytesOf "%PDF-").map fun b => [b], chunk.length = 1 := by
    intro chunk hchunk
    obtain ⟨b, _, rfl⟩ := List.mem_map.mp hchunk
    rfl
  apply verdict_of_any_reads pdfCategory (bytesOf "%PDF-")
  · decide +kernel
  · intro chunk hchunk
    have hone := hlength chunk hchunk
    refine ⟨List.ne_nil_of_length_pos (by omega), ?_⟩
    rw [hone]
    decide
  · intro chunk hchunk hfound
    have hone := hlength chunk hchunk
    have hlong := hfound.length_le
    rw [eicarSignature_length] at hlong
    omega

theorem readLoop_answer (hne : ∀ chunk ∈ chunks, chunk ≠ []) (scan : StreamScan)
    (position : Nat) :
    (readLoop category scan position chunks).1 = chunks.foldlM (readChunk category) scan := by
  induction chunks generalizing scan position with
  | nil => rfl
  | cons chunk chunks ih =>
    rw [readLoop, if_neg (hne chunk List.mem_cons_self), List.foldlM_cons]
    cases hchunk : readChunk category scan chunk with
    | error e => rfl
    | ok scan' =>
      apply ih
      intro c hc
      exact hne c (List.mem_cons_of_mem _ hc)

/-- With full chunks the answer is that of the handler's model. -/
theorem validateReads_reads (category : UploadCategory) (content : Bytes) :
    (validateReads category (reads chunkSize content)).1 =
      readAndValidateStream content category := by
  have hne : ∀ chunk ∈ reads chunkSize content, chunk ≠ [] := by
    intro chunk hchunk
    exact (mem_reads chunkSize_pos hchunk).1
  have hloop : (readLoop category {} 0 (reads chunkSize content)).1 =
      (reads chunkSize content).foldlM (readChunk category) {} :=
    readLoop_answer hne {} 0
  unfold validateReads readAndValidateStream
  rw [← hloop]
  generalize readLoop category {} 0 (reads chunkSize content) = outcome
  obtain ⟨answer, position⟩ := outcome
  cases answer with
  | error e => rfl
  | ok scan =>
    dsimp only
    split
    · rfl
    · split <;> rfl

end Verdicts

end FastApiAuth.StreamValidation
