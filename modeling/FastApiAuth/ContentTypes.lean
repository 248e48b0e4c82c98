import FastApiAuth.FileAtomicity

/-!
# The declared type and the content

The declared type must be one of its category, and the content must carry one of the
signatures of the category. Nothing asks that the two are the same format.
-/

namespace FastApiAuth.ContentTypes

set_option autoImplicit false

/-- The formats that the signature checks tell apart. -/
inductive Format where
  | jpeg
  | png
  | gif
  | webp
  | pdf
  | isoMedia
  | webm
  deriving DecidableEq

namespace Format

def carries : Format → Bytes → Bool
  | jpeg => looksLikeJpeg
  | png => looksLikePng
  | gif => looksLikeGif
  | webp => looksLikeWebp
  | pdf => looksLikePdf
  | isoMedia => looksLikeMp4OrMov
  | webm => looksLikeWebm

def named : List (String × Format) :=
  [("image/jpeg", jpeg), ("image/png", png), ("image/gif", gif), ("image/webp", webp),
    ("application/pdf", pdf), ("video/webm", webm), ("video/mp4", isoMedia),
    ("video/quicktime", isoMedia)]

def ofCategory (category : String) : List Format :=
  match category with
  | "image" => [jpeg, png, gif, webp]
  | "pdf" => [pdf]
  | "video" => [isoMedia, webm]
  | _ => []

end Format

open Format FileAtomicity

/-- The content carries the signature of the format that the type names. -/
def CarriesSignature (contentType : String) (content : Bytes) : Prop :=
  ∃ f, named.lookup contentType = some f ∧ f.carries content = true

/-- Among the formats of the category the content has one signature, and that is of another
format than the type names. -/
def Disguised (category contentType : String) (content : Bytes) : Prop :=
  ∃ g ∈ ofCategory category, named.lookup contentType ≠ some g ∧
    ∀ f ∈ ofCategory category, f.carries content = true ↔ f = g

section Head

variable {content start : Bytes} {f g : Format}

theorem startsWith_take {n : Nat} (h : start.length ≤ n) :
    startsWith (content.take n) start = startsWith content start := by
  rw [Bool.eq_iff_iff, startsWith, startsWith, List.isPrefixOf_iff_prefix,
    List.isPrefixOf_iff_prefix, List.prefix_take_iff]
  exact and_iff_left h

theorem slice_take {n from' to' : Nat} (h : to' ≤ n) :
    slice (content.take n) from' to' = slice content from' to' := by
  rw [slice, List.take_take, Nat.min_eq_left h, slice]

theorem carries_take (f : Format) (content : Bytes) :
    f.carries (content.take signatureHeadSize) = f.carries content := by
  have hlength : (content.take signatureHeadSize).length ≥ 8 ↔ content.length ≥ 8 := by
    rw [List.length_take, signatureHeadSize]
    omega
  cases f with
  | jpeg => exact startsWith_take (by decide)
  | png => exact startsWith_take (by decide +kernel)
  | gif =>
    simp only [carries, looksLikeGif]
    rw [startsWith_take (by decide +kernel), startsWith_take (by decide +kernel)]
  | webp =>
    simp only [carries, looksLikeWebp]
    rw [startsWith_take (by decide +kernel), slice_take (by decide)]
  | pdf => exact startsWith_take (by decide +kernel)
  | isoMedia =>
    simp only [carries, looksLikeMp4OrMov]
    rw [slice_take (by decide), decide_eq_decide.mpr hlength]
  | webm => exact startsWith_take (by decide)

theorem head?_of_startsWith {b : UInt8} {bytes : Bytes} (h : startsWith content bytes = true)
    (hb : bytes.head? = some b) : content.head? = some b := by
  obtain ⟨rest, rfl⟩ := List.isPrefixOf_iff_prefix.mp h
  rw [List.head?_append, hb]
  rfl

def firstByte : Format → UInt8
  | jpeg => 0xff
  | png => 0x89
  | gif => 0x47
  | webp => 0x52
  | pdf => 0x25
  | isoMedia => 0
  | webm => 0x1a

theorem head?_of_carries (hf : f ∈ ofCategory "image") (h : f.carries content = true) :
    content.head? = some (firstByte f) := by
  cases f with
  | jpeg => exact head?_of_startsWith h rfl
  | png => exact head?_of_startsWith h rfl
  | gif =>
    rcases Bool.or_eq_true_iff.mp h with h | h
    · exact head?_of_startsWith h (by decide +kernel)
    · exact head?_of_startsWith h (by decide +kernel)
  | webp => exact head?_of_startsWith (Bool.and_eq_true_iff.mp h).1 (by decide +kernel)
  | pdf => exact absurd hf (by decide)
  | isoMedia => exact absurd hf (by decide)
  | webm => exact absurd hf (by decide)

theorem image_format_unique (hf : f ∈ ofCategory "image") (hg : g ∈ ofCategory "image")
    (hcf : f.carries content = true) (hcg : g.carries content = true) : f = g := by
  have hbytes : firstByte f = firstByte g :=
    Option.some.inj ((head?_of_carries hf hcf).symm.trans (head?_of_carries hg hcg))
  revert hbytes
  cases f <;> cases g <;> decide

end Head

section Gates

variable {storage : StorageEnv} {category contentType : String} {file : UploadFile}
variable {accepted : AcceptedUpload category file} {uploadCategory : UploadCategory}
variable {content : Bytes}

def HasFormats (category : String) : Prop := category ∈ ["image", "pdf", "video"]

theorem category_cases (hcategory : HasFormats category)
    (hnamed : categoryNamed category = some uploadCategory) :
    category = "image" ∧ uploadCategory = imageCategory ∨
      category = "pdf" ∧ uploadCategory = pdfCategory ∨
      category = "video" ∧ uploadCategory = videoCategory := by
  simp only [HasFormats, List.mem_cons, List.not_mem_nil, or_false] at hcategory
  rcases hcategory with rfl | rfl | rfl
  · exact Or.inl ⟨rfl, (Option.some.inj hnamed).symm⟩
  · exact Or.inr (Or.inl ⟨rfl, (Option.some.inj hnamed).symm⟩)
  · exact Or.inr (Or.inr ⟨rfl, (Option.some.inj hnamed).symm⟩)

/-- What holds of the declared types of each category holds of an allowed one. -/
theorem of_allowed {P : String → String → Prop}
    (h : ∀ c ∈ [("image", imageCategory), ("pdf", pdfCategory), ("video", videoCategory)],
      ∀ t ∈ c.2.allowedContentTypes, P c.1 t)
    (hcategory : HasFormats category) (hnamed : categoryNamed category = some uploadCategory)
    (hallowed : contentType ∈ uploadCategory.allowedContentTypes) : P category contentType := by
  apply h (category, uploadCategory) _ contentType hallowed
  rcases category_cases hcategory hnamed with ⟨rfl, rfl⟩ | ⟨rfl, rfl⟩ | ⟨rfl, rfl⟩ <;> simp

theorem named_of_allowed : HasFormats category →
    categoryNamed category = some uploadCategory →
    contentType ∈ uploadCategory.allowedContentTypes →
    ∃ f ∈ ofCategory category, named.lookup contentType = some f := by
  apply of_allowed (P := fun c t => ∃ f ∈ ofCategory c, named.lookup t = some f)
  decide

theorem varchar_of_allowed : HasFormats category →
    categoryNamed category = some uploadCategory →
    contentType ∈ uploadCategory.allowedContentTypes →
    varchar 100 contentType = some contentType := by
  apply of_allowed (P := fun _ t => varchar 100 t = some t)
  decide

theorem carries_of_passesSignature (hcategory : HasFormats category)
    (hnamed : categoryNamed category = some uploadCategory)
    (hpass : passesSignature uploadCategory (content.take signatureHeadSize) = true) :
    ∃ f ∈ ofCategory category, f.carries content = true := by
  have hformat : ∃ f ∈ ofCategory category,
      f.carries (content.take signatureHeadSize) = true := by
    rcases category_cases hcategory hnamed with ⟨rfl, rfl⟩ | ⟨rfl, rfl⟩ | ⟨rfl, rfl⟩
    · change looksLikeImage _ = true at hpass
      simpa [looksLikeImage, ofCategory, carries] using hpass
    · exact ⟨pdf, List.mem_singleton_self _, hpass⟩
    · change looksLikeVideo _ = true at hpass
      simpa [looksLikeVideo, ofCategory, carries] using hpass
  obtain ⟨f, hf, hcarries⟩ := hformat
  exact ⟨f, hf, (carries_take f content).symm.trans hcarries⟩

theorem validateUpload_ok (h : validateUpload storage category file = .ok accepted) :
    ∃ uploadCategory, categoryNamed category = some uploadCategory ∧
      file.contentType = some accepted.contentType ∧
      accepted.contentType ∈ uploadCategory.allowedContentTypes ∧
      passesSignature uploadCategory (file.content.take signatureHeadSize) = true := by
  unfold validateUpload at h
  split at h
  · cases h
  split at h
  · cases h
  rename_i uploadCategory hnamed
  split at h
  · cases h
  rename_i contentType hallowed
  split at h
  · cases h
  rename_i size hsize
  split at h
  · cases h
  cases h
  obtain ⟨htype, hmem⟩ := Option.filter_eq_some_iff.mp hallowed
  exact ⟨uploadCategory, hnamed, htype, by simpa using hmem,
    (readAndValidateStream_ok hsize).2.2.2⟩

/-- If it lacks one format of the category it carries at most one other: images have one
signature, and there are two video formats. -/
theorem carried_unique (hcategory : HasFormats category) {f g g' : Format}
    (hf : f ∈ ofCategory category) (hg : g ∈ ofCategory category)
    (hg' : g' ∈ ofCategory category) (hown : f.carries content ≠ true)
    (hc : g.carries content = true) (hc' : g'.carries content = true) : g' = g := by
  simp only [HasFormats, List.mem_cons, List.not_mem_nil, or_false] at hcategory
  rcases hcategory with rfl | rfl | rfl
  · exact image_format_unique hg' hg hc' hc
  · exact (List.mem_singleton.mp hg').trans (List.mem_singleton.mp hg).symm
  · have htwo : ∀ f ∈ ofCategory "video", ∀ g ∈ ofCategory "video", ∀ g' ∈ ofCategory "video",
        g ≠ f → g' ≠ f → g' = g := by
      decide
    apply htwo f hf g hg g' hg'
    · rintro rfl
      exact hown hc
    · rintro rfl
      exact hown hc'

/-- With one of the signatures the declared one is there unless the only one is another. -/
theorem carriesSignature_iff (hcategory : HasFormats category) {f : Format}
    (hf : f ∈ ofCategory category) (htype : named.lookup contentType = some f)
    (hcarries : ∃ g ∈ ofCategory category, g.carries content = true) :
    CarriesSignature contentType content ↔ ¬ Disguised category contentType content := by
  constructor
  · rintro ⟨f', hf', hown⟩ ⟨g, _, hne, honly⟩
    cases htype.symm.trans hf'
    apply hne
    rw [htype, (honly f hf).mp hown]
  · intro hnot
    by_contra hnone
    have hown : f.carries content ≠ true := by
      intro hown
      exact hnone ⟨f, htype, hown⟩
    obtain ⟨g, hg, hgc⟩ := hcarries
    refine hnot ⟨g, hg, ?_, ?_⟩
    · rintro hfg
      cases htype.symm.trans hfg
      exact hown hgc
    · intro g' hg'
      constructor
      · exact carried_unique hcategory hf hg hg' hown hgc
      · rintro rfl
        exact hgc

theorem saveRecord_ok {row : FileUpload} {faults : UploadFaults} {s : FileServer}
    {body : FileBody} (hok : (saveRecord row faults s).1 = .ok body) :
    ∃ record db, s.db.insertFileUpload row = some (record, db) ∧
      (saveRecord row faults s).2 = { s.withDb db with nextFileId := s.nextFileId + 1 } := by
  unfold saveRecord at hok ⊢
  cases hinsert : s.db.insertFileUpload row with
  | none =>
    rw [hinsert] at hok
    cases hok
  | some inserted =>
    rw [hinsert] at hok
    dsimp only at hok ⊢
    split at hok
    · rename_i hcommit
      rw [if_pos hcommit, hcommit.1]
      exact ⟨inserted.1, inserted.2, rfl, rfl⟩
    · cases hok

/-- An upload that is answered with a record has put its object and saved its row. -/
theorem storeUpload_ok {currentUser : User} {faults : UploadFaults} {s : FileServer}
    {body : FileBody}
    (hok : (storeUpload storage currentUser category file accepted faults s).1 = .ok body) :
    storeUpload storage currentUser category file accepted faults s =
      saveRecord (uploadRecord storage currentUser category file accepted s) faults
        (afterPut storage currentUser category file accepted s) := by
  unfold storeUpload at hok ⊢
  dsimp only at hok ⊢
  split at hok
  · cases hok
  rename_i hbucket
  rw [if_neg hbucket]
  split at hok
  · rename_i hput
    rw [if_pos hput, hput]
    rfl
  · cases hok

theorem uploadFile_ok {credentials : Token} {faults : UploadFaults} {s : FileServer}
    {body : FileBody} (hok : (uploadFile storage credentials category file faults s).1 = .ok body) :
    ∃ accepted currentUser, validateUpload storage category file = .ok accepted ∧
      uploadFile storage credentials category file faults s =
        storeUpload storage currentUser category file accepted faults s := by
  unfold uploadFile at hok ⊢
  split at hok
  · cases hok
  rename_i hreads
  rw [if_neg hreads]
  split at hok
  · cases hok
  rename_i currentUser huser
  split at hok
  · cases hok
  rename_i accepted haccepted
  exact ⟨accepted, currentUser, haccepted, rfl⟩

/-- The row and the object of an upload have the type that it was accepted with. -/
theorem uploadFile_stores {credentials : Token} {faults : UploadFaults} {s : FileServer}
    {body : FileBody} (hok : (uploadFile storage credentials category file faults s).1 = .ok body) :
    ∃ accepted, validateUpload storage category file = .ok accepted ∧
      (∃ record ∈ (uploadFile storage credentials category file faults s).2.db.fileUploads,
        varchar 100 accepted.contentType = some record.contentType) ∧
      ∃ key, (uploadFile storage credentials category file faults s).2.objects key =
        some (uploadObject accepted) := by
  obtain ⟨accepted, currentUser, haccepted, hupload⟩ := uploadFile_ok hok
  rw [hupload] at hok ⊢
  have hsave := storeUpload_ok hok
  rw [hsave] at hok ⊢
  obtain ⟨record, db, hinsert, htarget⟩ := saveRecord_ok hok
  obtain ⟨hfitted, _, _, rfl⟩ := insertFileUpload_some hinsert
  rw [htarget]
  refine ⟨accepted, haccepted, ⟨record, ?_, ?_⟩, uploadKey storage currentUser category file s,
    if_pos rfl⟩
  · exact List.mem_append_right _ (List.mem_singleton_self record)
  · unfold FileUpload.fitted at hfitted
    simp only [Option.bind_eq_bind, Option.bind_eq_some_iff] at hfitted
    obtain ⟨_, _, contentType, htype, _, _, _, _, hrow⟩ := hfitted
    split at hrow
    · cases hrow
      exact htype
    · cases hrow

end Gates

/-- An accepted upload is stored under its declared type, and its content carries the
signature of that type unless the only signature it carries is that of another. -/
theorem accepted_content_matches_iff {storage : StorageEnv} {credentials : Token}
    {category contentType : String} {file : UploadFile} {faults : UploadFaults} {s : FileServer}
    {body : FileBody} (hcategory : category ∈ ["image", "pdf", "video"])
    (htype : file.contentType = some contentType)
    (hok : (uploadFile storage credentials category file faults s).1 = .ok body) :
    (∃ record ∈ (uploadFile storage credentials category file faults s).2.db.fileUploads,
      record.contentType = contentType) ∧
    (∃ key, (uploadFile storage credentials category file faults s).2.objects key =
      some ⟨file.content, contentType⟩) ∧
    (CarriesSignature contentType file.content ↔
      ¬ Disguised category contentType file.content) := by
  obtain ⟨accepted, hvalid, ⟨record, hrecord, hstored⟩, key, hobject⟩ := uploadFile_stores hok
  obtain ⟨uploadCategory, hnamed, htype', hallowed, hpass⟩ := validateUpload_ok hvalid
  obtain rfl : contentType = accepted.contentType := Option.some.inj (htype.symm.trans htype')
  obtain ⟨f, hf, hlookup⟩ := named_of_allowed hcategory hnamed hallowed
  refine ⟨⟨record, hrecord, ?_⟩, ⟨key, hobject⟩, ?_⟩
  · exact Option.some.inj (hstored.symm.trans (varchar_of_allowed hcategory hnamed hallowed))
  · exact carriesSignature_iff hcategory hf hlookup
      (carries_of_passesSignature hcategory hnamed hpass)

def Succeeds (file : UploadFile) : Prop :=
  ∃ body, (uploadFile sampleStorage sampleToken "image" file {}
    sampleServer).1 = .ok body

theorem succeeds_of_isSome {file : UploadFile}
    (h : (uploadFile sampleStorage sampleToken "image" file {}
      sampleServer).1.toOption.isSome = true) : Succeeds file := by
  unfold Succeeds
  generalize (uploadFile sampleStorage sampleToken "image" file {}
    sampleServer).1 = reply at h ⊢
  cases reply with
  | ok body => exact ⟨body, rfl⟩
  | error e => cases h

theorem accepted_content_matches_iff_sample : CarriesSignature "image/gif" (bytesOf "GIF89a") := by
  have hok : Succeeds (gifUpload "a.gif") := succeeds_of_isSome (by decide +kernel)
  obtain ⟨body, hok⟩ := hok
  refine (accepted_content_matches_iff (by decide) rfl hok).2.2.mpr ?_
  unfold Disguised
  decide +kernel

/-- A JPEG that is declared as a PNG. -/
def jpegAsPng : UploadFile := ⟨some "a.png", some "image/png", [0xff, 0xd8, 0xff]⟩

theorem jpeg_stored_as_png :
    Succeeds jpegAsPng ∧ ¬ CarriesSignature "image/png" jpegAsPng.content := by
  refine ⟨succeeds_of_isSome (by decide +kernel), ?_⟩
  rintro ⟨f, hf, hcarries⟩
  obtain rfl : png = f := Option.some.inj hf
  revert hcarries
  decide +kernel

end FastApiAuth.ContentTypes
