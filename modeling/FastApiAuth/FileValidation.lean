import FastApiAuth.Schemas
import FastApiAuth.Library.Chunks
import FastApiAuth.Library.PyCsv
import FastApiAuth.Library.PyInt

/-!
# app/services/file_validation.py and virus_scan.py

An upload is read in chunks of one mebibyte, each scanned by itself. What the loop makes
of a whole file is `readAndValidateStream_eq`, and it differs from a scan of the whole
file where the signature lies across the end of a chunk.
-/

namespace FastApiAuth

set_option autoImplicit false

open Chunks

abbrev Bytes := List UInt8

/-- A bytes literal of ASCII characters. -/
def bytesOf (text : String) : Bytes := text.toUTF8.data.toList

section VirusScan

def eicarSignature : Bytes :=
  bytesOf "X5O!P%@AP[4\\PZX54(P^)7CC)7\x7d$EICAR-STANDARD-ANTIVIRUS-TEST-FILE!$H+H*"

/-- True if the chunk is clean. -/
def scanChunkForViruses (chunk : Bytes) : Bool := ¬ eicarSignature <:+: chunk

end VirusScan

section SignaturesAndCategories

def chunkSize : Nat := 1024 * 1024

def signatureHeadSize : Nat := 32

def startsWith (head start : Bytes) : Bool := start.isPrefixOf head

/-- `bytes[start:stop]` -/
def slice (bytes : Bytes) (start stop : Nat) : Bytes := (bytes.take stop).drop start

def looksLikeJpeg (head : Bytes) : Bool := startsWith head [0xff, 0xd8, 0xff]

def looksLikePng (head : Bytes) : Bool := startsWith head (0x89 :: bytesOf "PNG\r\n\x1a\n")

def looksLikeGif (head : Bytes) : Bool :=
  startsWith head (bytesOf "GIF87a") || startsWith head (bytesOf "GIF89a")

def looksLikeWebp (head : Bytes) : Bool :=
  startsWith head (bytesOf "RIFF") && slice head 8 12 = bytesOf "WEBP"

def looksLikeImage (head : Bytes) : Bool :=
  [looksLikeJpeg, looksLikePng, looksLikeGif, looksLikeWebp].any fun check => check head

def looksLikePdf (head : Bytes) : Bool := startsWith head (bytesOf "%PDF-")

def looksLikeMp4OrMov (head : Bytes) : Bool :=
  head.length ≥ 8 && (["ftyp", "free", "wide", "moov"].map bytesOf).contains (slice head 4 8)

def looksLikeWebm (head : Bytes) : Bool := startsWith head [0x1a, 0x45, 0xdf, 0xa3]

def looksLikeVideo (head : Bytes) : Bool := looksLikeMp4OrMov head || looksLikeWebm head

structure UploadCategory where
  name : String
  allowedContentTypes : List String
  maxSizeBytes : Nat
  signatureCheck : Option (Bytes → Bool)

def imageCategory : UploadCategory :=
  { name := "image"
    allowedContentTypes := ["image/jpeg", "image/png", "image/webp", "image/gif"]
    maxSizeBytes := 10 * 1024 * 1024
    signatureCheck := some looksLikeImage }

def pdfCategory : UploadCategory :=
  { name := "pdf"
    allowedContentTypes := ["application/pdf"]
    maxSizeBytes := 20 * 1024 * 1024
    signatureCheck := some looksLikePdf }

def csvCategory : UploadCategory :=
  { name := "csv"
    allowedContentTypes := ["text/csv", "application/vnd.ms-excel"]
    maxSizeBytes := 20 * 1024 * 1024
    signatureCheck := none }

def videoCategory : UploadCategory :=
  { name := "video"
    allowedContentTypes := ["video/mp4", "video/webm", "video/quicktime"]
    maxSizeBytes := 200 * 1024 * 1024
    signatureCheck := some looksLikeVideo }

def categories : List UploadCategory := [imageCategory, pdfCategory, csvCategory, videoCategory]

/-- `CATEGORIES.get(name)` -/
def categoryNamed (name : String) : Option UploadCategory :=
  categories.find? fun category => category.name = name

theorem categoryNamed_some {name : String} {category : UploadCategory}
    (h : categoryNamed name = some category) : category ∈ categories ∧ category.name = name := by
  refine ⟨List.mem_of_find?_eq_some h, ?_⟩
  simpa using List.find?_some h

end SignaturesAndCategories

section ReadAndValidateStream

def contentTooLarge (category : UploadCategory) : HttpException :=
  { statusCode := 413
    detail := "File exceeds the " ++ PyInt.str category.maxSizeBytes ++ " byte limit for " ++
      category.name ++ " uploads" }

def failedVirusScan : HttpException := { statusCode := 422, detail := "File failed virus scan" }

def emptyUpload : HttpException := { statusCode := 400, detail := "Uploaded file is empty" }

def signatureMismatch (category : UploadCategory) : HttpException :=
  { statusCode := 400
    detail := "File content does not match a valid " ++ category.name ++ " file" }

/-- The variables of the loop. -/
structure StreamScan where
  total : Nat := 0
  head : Bytes := []

def readChunk (category : UploadCategory) (scan : StreamScan) (chunk : Bytes) :
    Except HttpException StreamScan :=
  let total := scan.total + chunk.length
  if total > category.maxSizeBytes then .error (contentTooLarge category)
  else
    let head :=
      if scan.head.length < signatureHeadSize then
        scan.head ++ chunk.take (signatureHeadSize - scan.head.length)
      else scan.head
    if !scanChunkForViruses chunk then .error failedVirusScan else .ok { total, head }

def passesSignature (category : UploadCategory) (head : Bytes) : Bool :=
  match category.signatureCheck with
  | none => true
  | some check => check head

/-- The size in bytes, or the rejection. -/
def readAndValidateStream (content : Bytes) (category : UploadCategory) :
    Except HttpException Nat :=
  match (reads chunkSize content).foldlM (readChunk category) {} with
  | .error e => .error e
  | .ok scan =>
    if scan.total = 0 then .error emptyUpload
    else if !passesSignature category scan.head then .error (signatureMismatch category)
    else .ok scan.total

end ReadAndValidateStream

section ValidateCsvContent

def invalidCsv (detail : String) : HttpException := { statusCode := 400, detail }

/-- The csv.Error of a malformed row is caught by nobody. -/
def validateCsvContent (content : Bytes) : Except HttpException Unit :=
  match String.fromUTF8? ⟨(content.take 8192).toArray⟩ with
  | none => .error (invalidCsv "CSV file is not valid UTF-8 text")
  | some text =>
    match PyCsv.next text.toList with
    | .exhausted => .error (invalidCsv "CSV file has no rows")
    | .malformed => .error internalServerError
    | .row fields => if fields = [] then .error (invalidCsv "CSV file has no columns") else .ok ()

/-- A file that is not empty has a first row or is malformed. -/
theorem validateCsvContent_ne_noRows {content : Bytes} (hne : content ≠ []) :
    validateCsvContent content ≠ .error (invalidCsv "CSV file has no rows") := by
  unfold validateCsvContent
  split
  · simp [invalidCsv]
  · rename_i text htext
    split
    · rename_i hnext
      have hempty : text = "" := String.toList_inj.mp (PyCsv.next_eq_exhausted_iff.mp hnext)
      unfold String.fromUTF8? at htext
      split at htext
      · have hbytes := congrArg (fun t => t.toByteArray.data.toList) (Option.some.inj htext)
        have hsample : content.take 8192 = [] := hbytes.trans (by rw [hempty]; rfl)
        rcases List.take_eq_nil_iff.mp hsample with hzero | hnil
        · cases hzero
        · exact absurd hnil hne
      · cases htext
    · simp [invalidCsv, internalServerError]
    · split <;> simp [invalidCsv]

end ValidateCsvContent

section WholeFile

/-- The loop has read these bytes and found nothing. -/
def scanOf (read : Bytes) : StreamScan := ⟨read.length, read.take signatureHeadSize⟩

theorem scanOf_nil : scanOf [] = {} := rfl

/-- Collecting the head chunk by chunk gives the first bytes of the file. -/
theorem head_snoc (read chunk : Bytes) :
    (if (read.take signatureHeadSize).length < signatureHeadSize then
      read.take signatureHeadSize ++
        chunk.take (signatureHeadSize - (read.take signatureHeadSize).length)
    else read.take signatureHeadSize) = (read ++ chunk).take signatureHeadSize := by
  rw [List.take_append, List.length_take]
  split
  · rw [Nat.min_eq_right (by omega)]
  · rw [show signatureHeadSize - read.length = 0 by omega, List.take_zero, List.append_nil]

theorem readChunk_scanOf {category : UploadCategory} {read chunk : Bytes} :
    readChunk category (scanOf read) chunk =
      if (read ++ chunk).length > category.maxSizeBytes then .error (contentTooLarge category)
      else if eicarSignature <:+: chunk then .error failedVirusScan
      else .ok (scanOf (read ++ chunk)) := by
  have hhead := head_snoc read chunk
  dsimp only [readChunk, scanOf]
  rw [hhead, ← List.length_append]
  simp [scanChunkForViruses]

/-- A file within the size limit is refused by the scan if some chunk holds the signature. -/
theorem foldlM_readChunk {category : UploadCategory} (chunks : List Bytes) {read : Bytes}
    (hsize : (read ++ chunks.flatten).length ≤ category.maxSizeBytes) :
    chunks.foldlM (readChunk category) (scanOf read) =
      if ∃ chunk ∈ chunks, eicarSignature <:+: chunk then .error failedVirusScan
      else .ok (scanOf (read ++ chunks.flatten)) := by
  induction chunks generalizing read with
  | nil => simp [pure, Except.pure]
  | cons chunk chunks ih =>
    rw [List.flatten_cons, ← List.append_assoc] at hsize
    have hchunk : ¬ (read ++ chunk).length > category.maxSizeBytes := by
      rw [List.length_append] at hsize
      omega
    rw [List.foldlM_cons, readChunk_scanOf, if_neg hchunk]
    by_cases hscan : eicarSignature <:+: chunk
    · rw [if_pos hscan, if_pos ⟨chunk, List.mem_cons_self, hscan⟩]
      rfl
    · rw [if_neg hscan]
      refine (ih hsize).trans ?_
      simp [hscan]

/-- A file beyond the limit passes no check. -/
theorem foldlM_readChunk_tooLarge {category : UploadCategory} (chunks : List Bytes)
    {read : Bytes} (hread : read.length ≤ category.maxSizeBytes)
    (hsize : category.maxSizeBytes < (read ++ chunks.flatten).length) :
    ∃ e, chunks.foldlM (readChunk category) (scanOf read) = .error e := by
  induction chunks generalizing read with
  | nil =>
    simp only [List.flatten_nil, List.append_nil] at hsize
    omega
  | cons chunk chunks ih =>
    rw [List.flatten_cons, ← List.append_assoc] at hsize
    rw [List.foldlM_cons, readChunk_scanOf]
    split
    · exact ⟨_, rfl⟩
    · split
      · exact ⟨_, rfl⟩
      · rename_i hchunk _
        exact ih (by omega) hsize

theorem chunkSize_pos : 0 < chunkSize := by decide

/-- What the handler makes of a file within the limit of its category. -/
theorem readAndValidateStream_eq {content : Bytes} {category : UploadCategory}
    (hsize : content.length ≤ category.maxSizeBytes) :
    readAndValidateStream content category =
      if ∃ chunk ∈ reads chunkSize content, eicarSignature <:+: chunk then .error failedVirusScan
      else if content.length = 0 then .error emptyUpload
      else if !passesSignature category (content.take signatureHeadSize) then
        .error (signatureMismatch category)
      else .ok content.length := by
  have hflat : (reads chunkSize content).flatten = content := flatten_reads chunkSize_pos content
  have hlength : ([] ++ (reads chunkSize content).flatten).length ≤ category.maxSizeBytes := by
    rwa [List.nil_append, hflat]
  have hscan := foldlM_readChunk (reads chunkSize content) hlength
  rw [scanOf_nil, List.nil_append, hflat] at hscan
  by_cases hfound : ∃ chunk ∈ reads chunkSize content, eicarSignature <:+: chunk
  · rw [if_pos hfound] at hscan ⊢
    rw [readAndValidateStream, hscan]
  · rw [if_neg hfound] at hscan ⊢
    rw [readAndValidateStream, hscan]
    rfl

theorem readAndValidateStream_tooLarge {content : Bytes} {category : UploadCategory}
    (hsize : category.maxSizeBytes < content.length) :
    ∃ e, readAndValidateStream content category = .error e := by
  have hflat : (reads chunkSize content).flatten = content := flatten_reads chunkSize_pos content
  have hlength : category.maxSizeBytes < ([] ++ (reads chunkSize content).flatten).length := by
    rwa [List.nil_append, hflat]
  obtain ⟨e, he⟩ := foldlM_readChunk_tooLarge (reads chunkSize content) (Nat.zero_le _) hlength
  rw [scanOf_nil] at he
  exact ⟨e, by rw [readAndValidateStream, he]⟩

/-- What an accepted file is known to be. -/
theorem readAndValidateStream_ok {content : Bytes} {category : UploadCategory} {size : Nat}
    (h : readAndValidateStream content category = .ok size) :
    size = content.length ∧ content ≠ [] ∧ content.length ≤ category.maxSizeBytes ∧
      passesSignature category (content.take signatureHeadSize) = true := by
  rcases Nat.lt_or_ge category.maxSizeBytes content.length with hlarge | hsize
  · obtain ⟨e, he⟩ := readAndValidateStream_tooLarge hlarge
    cases h.symm.trans he
  · rw [readAndValidateStream_eq hsize] at h
    split at h
    · cases h
    split at h
    · cases h
    split at h
    · cases h
    rename_i hne hsignature
    cases h
    exact ⟨rfl, fun hnil => hne (by rw [hnil]; rfl), hsize, by simpa using hsignature⟩

end WholeFile

section ChunkScan

/-- The answer is a 422. -/
def RejectedByScan (answer : Except HttpException Nat) : Prop :=
  ∃ e, answer = .error e ∧ e.statusCode = 422

theorem rejectedByScan_iff {content : Bytes} {category : UploadCategory}
    (hsize : content.length ≤ category.maxSizeBytes) :
    RejectedByScan (readAndValidateStream content category) ↔
      ∃ chunk ∈ reads chunkSize content, eicarSignature <:+: chunk := by
  rw [readAndValidateStream_eq hsize]
  constructor
  · rintro ⟨e, he, hcode⟩
    by_contra hfound
    rw [if_neg hfound] at he
    split at he
    · cases he
      cases hcode
    · split at he
      · cases he
        cases hcode
      · cases he
  · intro hfound
    exact ⟨failedVirusScan, if_pos hfound, rfl⟩

theorem eicarSignature_length : eicarSignature.length = 68 := by decide +kernel

theorem eicarSignature_ne_nil : eicarSignature ≠ [] :=
  List.ne_nil_of_length_pos (by rw [eicarSignature_length]; decide)

/-- Within the size limit of its category, a file is rejected with 422 exactly when it
holds the signature if and only if, should it hold the signature, some occurrence begins
and ends in the same chunk. -/
theorem scan_agrees_iff (category : UploadCategory) (content : Bytes)
    (hsize : content.length ≤ category.maxSizeBytes) :
    (RejectedByScan (readAndValidateStream content category) ↔ eicarSignature <:+: content) ↔
      (eicarSignature <:+: content →
        ∃ p, OccursAt eicarSignature content p ∧ p / chunkSize = (p + 67) / chunkSize) := by
  have hfound := found_iff content chunkSize_pos eicarSignature_ne_nil
  rw [eicarSignature_length] at hfound
  rw [rejectedByScan_iff hsize, hfound]
  constructor
  · exact Iff.mpr
  · intro hwithin
    refine ⟨fun ⟨p, hp, _⟩ => infix_iff_occursAt.mpr ⟨p, hp⟩, hwithin⟩

/-- The test file alone lies in one chunk. -/
theorem scan_agrees_iff_sample :
    RejectedByScan (readAndValidateStream eicarSignature csvCategory) := by
  have hsize : eicarSignature.length ≤ csvCategory.maxSizeBytes := by
    rw [eicarSignature_length]
    decide
  have hstart : OccursAt eicarSignature eicarSignature 0 := List.prefix_refl _
  exact ((scan_agrees_iff csvCategory eicarSignature hsize).mpr
    fun _ => ⟨0, hstart, by decide⟩).mpr (List.infix_refl _)

/-- The signature starts ten bytes before the end of the first chunk. -/
def straddlingUpload : Bytes := List.replicate (chunkSize - 10) 97 ++ eicarSignature

theorem straddlingUpload_length : straddlingUpload.length = chunkSize + 58 := by
  rw [straddlingUpload, List.length_append, List.length_replicate, eicarSignature_length]
  decide

theorem straddlingUpload_size : straddlingUpload.length ≤ csvCategory.maxSizeBytes := by
  rw [straddlingUpload_length]
  decide

theorem eicarSignature_countP : eicarSignature.countP (fun b => b ≠ 97) = 68 := by decide +kernel

/-- A piece with fewer other bytes than the signature has does not hold it. -/
theorem not_infix_of_countP {piece : Bytes} (h : piece.countP (fun b => b ≠ 97) < 68) :
    ¬ eicarSignature <:+: piece := by
  intro hinfix
  have hle := hinfix.sublist.countP_le (p := fun b => b ≠ 97)
  rw [eicarSignature_countP] at hle
  omega

theorem straddlingUpload_reads :
    reads chunkSize straddlingUpload =
      [List.replicate (chunkSize - 10) 97 ++ eicarSignature.take 10, eicarSignature.drop 10] := by
  have hlength : (List.replicate (chunkSize - 10) (97 : UInt8)).length = chunkSize - 10 :=
    List.length_replicate
  have hsplit : chunkSize = (List.replicate (chunkSize - 10) (97 : UInt8)).length + 10 := by
    rw [hlength]
    decide
  have hne : straddlingUpload ≠ [] := by
    rw [← List.length_pos_iff, straddlingUpload_length]
    decide
  have htake : straddlingUpload.take chunkSize =
      List.replicate (chunkSize - 10) 97 ++ eicarSignature.take 10 := by
    conv_lhs => rw [hsplit, straddlingUpload, List.take_length_add_append]
  have hdrop : straddlingUpload.drop chunkSize = eicarSignature.drop 10 := by
    conv_lhs => rw [hsplit, straddlingUpload, List.drop_length_add_append]
  have hrest : (eicarSignature.drop 10).length = 58 := by
    rw [List.length_drop, eicarSignature_length]
  rw [reads_of_ne_nil chunkSize_pos hne, htake, hdrop,
    reads_of_length_le (List.ne_nil_of_length_pos (by omega)) (by rw [hrest]; decide)]

/-- A harmless-looking text file that ends in the signature is accepted. -/
theorem straddling_signature_accepted :
    straddlingUpload.length ≤ csvCategory.maxSizeBytes ∧
      passesSignature csvCategory (straddlingUpload.take signatureHeadSize) = true ∧
      eicarSignature <:+: straddlingUpload ∧
      ¬ RejectedByScan (readAndValidateStream straddlingUpload csvCategory) := by
  refine ⟨straddlingUpload_size, rfl, (List.suffix_append _ _).isInfix, ?_⟩
  rw [rejectedByScan_iff straddlingUpload_size, straddlingUpload_reads]
  rintro ⟨piece, hpiece, hfound⟩
  refine not_infix_of_countP ?_ hfound
  rcases List.mem_pair.mp hpiece with rfl | rfl
  · rw [List.countP_append, List.countP_replicate, if_neg (by decide)]
    refine lt_of_le_of_lt (Nat.add_le_add_left List.countP_le_length 0) ?_
    rw [List.length_take, eicarSignature_length]
    decide
  · refine lt_of_le_of_lt List.countP_le_length ?_
    rw [List.length_drop, eicarSignature_length]
    decide

end ChunkScan

end FastApiAuth
