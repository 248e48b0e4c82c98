import FastApiAuth.Files

/-!
# What a failed upload or deletion leaves behind

The bucket is written before the table and nothing undoes it. A request that stops
between the two writes leaves an object without a row, or a row without its object, and
that is the only way in which it is not all or nothing.
-/

namespace FastApiAuth.FileAtomicity

set_option autoImplicit false

/-- The objects and the table are as before. -/
def SameFiles (s s' : FileServer) : Prop :=
  s'.objects = s.objects ∧ s'.db.fileUploads = s.db.fileUploads

def AllOrNothing (s : FileServer) (outcome : FileOutcome) : Prop :=
  ¬ succeeded outcome.1 → SameFiles s outcome.2

/-- The table takes the record: it fits the columns, its key is new and its user exists. -/
def Insertable (s : FileServer) (record : FileUpload) : Prop :=
  (s.db.insertFileUpload record).isSome

/-- The upload writes something and does not get to its end. -/
structure UploadInterrupted (storage : StorageEnv) (currentUser : User) (category : String)
    (file : UploadFile) (accepted : AcceptedUpload category file) (faults : UploadFaults)
    (s : FileServer) : Prop where
  bucket : ensureBucket faults.head faults.create = true
  put : faults.put ≠ .raises
  stopped : ¬ (faults.put = .succeeds ∧
    Insertable s (uploadRecord storage currentUser category file accepted s) ∧
    faults.commit = .succeeds ∧ faults.refresh = true)
  left : s.objects (uploadKey storage currentUser category file s) ≠ some (uploadObject accepted) ∨
    (faults.put = .succeeds ∧
      Insertable s (uploadRecord storage currentUser category file accepted s) ∧
      faults.commit ≠ .raises)

/-- The deletion writes something and does not get to its end. -/
structure DeleteInterrupted (record : FileUpload) (faults : DeleteFaults) (s : FileServer) :
    Prop where
  delete : faults.delete ≠ .raises
  stopped : ¬ (faults.delete = .succeeds ∧ faults.commit = .succeeds)
  left : s.objects record.storageKey ≠ none ∨
    (faults.delete = .succeeds ∧ faults.commit ≠ .raises)

section Steps

variable {s s' : FileServer} {storage : StorageEnv} {currentUser : User} {category key : String}
variable {file : UploadFile} {accepted : AcceptedUpload category file} {faults : UploadFaults}
variable {record : FileUpload} {object : StoredObject} {e : HttpException} {body : FileBody}

theorem allOrNothing_error : AllOrNothing s (.error e, s') ↔ SameFiles s s' := by
  simp [AllOrNothing, succeeded]

theorem allOrNothing_ok : AllOrNothing s (.ok body, s') := by
  simp [AllOrNothing, succeeded]

theorem putObject_objects_iff :
    (FileServer.putObject key object s).objects = s.objects ↔ s.objects key = some object := by
  constructor
  · intro h
    have hkey := congrFun h key
    simpa [FileServer.putObject] using hkey.symm
  · intro h
    funext k
    by_cases hk : k = key
    · subst hk
      simp [FileServer.putObject, h]
    · simp [FileServer.putObject, hk]

theorem deleteObject_objects_iff :
    (FileServer.deleteObject key s).objects = s.objects ↔ s.objects key = none := by
  constructor
  · intro h
    have hkey := congrFun h key
    simpa [FileServer.deleteObject] using hkey.symm
  · intro h
    funext k
    by_cases hk : k = key
    · subst hk
      simp [FileServer.deleteObject, h]
    · simp [FileServer.deleteObject, hk]

/-- Inserting a row or deleting one that is there is seen in the table. -/
theorem insert_fileUploads_ne {db db' : Database} {row : FileUpload}
    (h : db.insertFileUpload row = some (record, db')) : db'.fileUploads ≠ db.fileUploads := by
  obtain ⟨_, _, _, rfl⟩ := insertFileUpload_some h
  simp

theorem delete_fileUploads_ne (h : record ∈ s.db.fileUploads) :
    (s.db.deleteFileUpload record.id).fileUploads ≠ s.db.fileUploads := by
  intro heq
  rw [← heq] at h
  simp [Database.deleteFileUpload] at h

/-- Once the object is in the bucket the commit decides. -/
theorem saveRecord_allOrNothing_iff {s₀ : FileServer} (hdb : s.db = s₀.db) :
    AllOrNothing s₀ (saveRecord record faults s) ↔
      (¬ (Insertable s₀ record ∧ faults.commit = .succeeds ∧ faults.refresh = true) →
        s.objects = s₀.objects ∧ ¬ (Insertable s₀ record ∧ faults.commit ≠ .raises)) := by
  unfold saveRecord Insertable
  rw [← hdb]
  cases hinsert : s.db.insertFileUpload record with
  | none => simp [allOrNothing_error, SameFiles, hdb]
  | some inserted =>
    obtain ⟨row, db⟩ := inserted
    have hrow : db.fileUploads ≠ s₀.db.fileUploads := hdb ▸ insert_fileUploads_ne hinsert
    simp only [Option.isSome_some, true_and]
    split
    · rename_i hdone
      simp [allOrNothing_ok, hdone]
    · rename_i hstopped
      rw [allOrNothing_error]
      cases hcommit : faults.commit with
      | raises => simp [SameFiles, hdb]
      | succeeds =>
        have hrefresh : faults.refresh ≠ true := fun hr => hstopped ⟨hcommit, hr⟩
        simp [SameFiles, FileServer.withDb, FileServer.db, hrefresh] at hrow ⊢
        exact fun _ => hrow
      | raisesLate =>
        simp [SameFiles, FileServer.withDb, FileServer.db] at hrow ⊢
        exact fun _ => hrow

theorem storeUpload_allOrNothing_iff :
    AllOrNothing s (storeUpload storage currentUser category file accepted faults s) ↔
      ¬ UploadInterrupted storage currentUser category file accepted faults s := by
  have hput : (FileServer.putObject (uploadKey storage currentUser category file s)
      (uploadObject accepted) { s with uuids := s.uuids + 1 }).objects = s.objects ↔
      s.objects (uploadKey storage currentUser category file s) = some (uploadObject accepted) :=
    putObject_objects_iff
  unfold storeUpload
  dsimp only
  cases hbucket : ensureBucket faults.head faults.create with
  | false =>
    refine iff_of_true (allOrNothing_error.mpr ⟨rfl, rfl⟩) fun h => ?_
    exact absurd (h.bucket.symm.trans hbucket) (by decide)
  | true =>
    cases hcall : faults.put with
    | raises => exact iff_of_true (allOrNothing_error.mpr ⟨rfl, rfl⟩) fun h => h.put hcall
    | raisesLate =>
      refine allOrNothing_error.trans ?_
      constructor
      · rintro ⟨hobjects, _⟩ h
        rcases h.left with hnew | ⟨hdone, _⟩
        · exact hnew (hput.mp hobjects)
        · exact absurd (hcall.symm.trans hdone) (by decide)
      · intro h
        refine
          ⟨hput.mpr (Classical.byContradiction fun hnew => h ⟨hbucket, ?_, ?_, .inl hnew⟩), rfl⟩
        · simp [hcall]
        · simp [hcall]
    | succeeds =>
      have hdb : (FileServer.putObject (uploadKey storage currentUser category file s)
          (uploadObject accepted) { s with uuids := s.uuids + 1 }).db = s.db := rfl
      refine (saveRecord_allOrNothing_iff hdb).trans ?_
      rw [hput]
      constructor
      · intro hkept h
        obtain ⟨hobject, hrow⟩ := hkept fun hdone => h.stopped ⟨hcall, hdone⟩
        exact h.left.elim (fun hnew => hnew hobject) fun hleft => hrow hleft.2
      · intro h hstopped
        have hall := fun left => h ⟨hbucket, by simp [hcall], fun hd => hstopped hd.2, left⟩
        exact ⟨Classical.byContradiction fun hnew => hall (.inl hnew),
          fun hleft => hall (.inr ⟨hcall, hleft⟩)⟩

theorem uploadFile_allOrNothing_iff (storage : StorageEnv) (credentials : Token)
    (category : String) (file : UploadFile) (faults : UploadFaults) (s : FileServer) :
    AllOrNothing s (uploadFile storage credentials category file faults s) ↔
      ∀ currentUser accepted, faults.reads = true →
        getCurrentUser s.server credentials = .ok currentUser →
        validateUpload storage category file = .ok accepted →
        ¬ UploadInterrupted storage currentUser category file accepted faults s := by
  unfold uploadFile
  cases hreads : faults.reads with
  | false => exact iff_of_true (allOrNothing_error.mpr ⟨rfl, rfl⟩) (by simp)
  | true =>
    cases huser : getCurrentUser s.server credentials with
    | error e => exact iff_of_true (allOrNothing_error.mpr ⟨rfl, rfl⟩) (by simp)
    | ok currentUser =>
      cases haccepted : validateUpload storage category file with
      | error e => exact iff_of_true (allOrNothing_error.mpr ⟨rfl, rfl⟩) (by simp)
      | ok accepted =>
        refine storeUpload_allOrNothing_iff.trans ⟨?_, fun h => h _ _ rfl rfl rfl⟩
        rintro h _ _ - ⟨⟩ ⟨⟩
        exact h

theorem removeFile_allOrNothing_iff {deleteFaults : DeleteFaults}
    (hrecord : record ∈ s.db.fileUploads) :
    AllOrNothing s (removeFile record deleteFaults s) ↔
      ¬ DeleteInterrupted record deleteFaults s := by
  have hdelete : (FileServer.deleteObject record.storageKey s).objects = s.objects ↔
      s.objects record.storageKey = none := deleteObject_objects_iff
  have hrow := delete_fileUploads_ne hrecord
  unfold removeFile
  dsimp only
  cases hcall : deleteFaults.delete with
  | raises => exact iff_of_true (allOrNothing_error.mpr ⟨rfl, rfl⟩) fun h => h.delete hcall
  | raisesLate =>
    refine allOrNothing_error.trans ?_
    constructor
    · rintro ⟨hobjects, _⟩ h
      rcases h.left with hthere | ⟨hdone, _⟩
      · exact hthere (hdelete.mp hobjects)
      · exact absurd (hcall.symm.trans hdone) (by decide)
    · intro h
      refine ⟨hdelete.mpr (Classical.byContradiction fun hthere =>
        h ⟨?_, ?_, .inl hthere⟩), rfl⟩
      · simp [hcall]
      · simp [hcall]
  | succeeds =>
    cases hcommit : deleteFaults.commit with
    | succeeds => exact iff_of_true allOrNothing_ok fun h => h.stopped ⟨hcall, hcommit⟩
    | raisesLate =>
      refine iff_of_false (fun h => hrow (allOrNothing_error.mp h).2) (not_not_intro ?_)
      exact ⟨by simp [hcall], by simp [hcommit], .inr ⟨hcall, by simp [hcommit]⟩⟩
    | raises =>
      refine allOrNothing_error.trans ?_
      constructor
      · rintro ⟨hobjects, _⟩ h
        rcases h.left with hthere | ⟨_, hdone⟩
        · exact hthere (hdelete.mp hobjects)
        · exact hdone hcommit
      · intro h
        refine ⟨hdelete.mpr (Classical.byContradiction fun hthere =>
          h ⟨?_, ?_, .inl hthere⟩), rfl⟩
        · simp [hcall]
        · simp [hcommit]

theorem deleteFile_allOrNothing_iff (storage : StorageEnv) (credentials : Token) (fileId : Int)
    (faults : DeleteFaults) (s : FileServer) :
    AllOrNothing s (deleteFile storage credentials fileId faults s) ↔
      ∀ currentUser record, faults.reads = true →
        getCurrentUser s.server credentials = .ok currentUser →
        ownFile s currentUser fileId = .ok record → storage.configured = true →
        ¬ DeleteInterrupted record faults s := by
  unfold deleteFile
  cases hreads : faults.reads with
  | false => exact iff_of_true (allOrNothing_error.mpr ⟨rfl, rfl⟩) (by simp)
  | true =>
    cases huser : getCurrentUser s.server credentials with
    | error e => exact iff_of_true (allOrNothing_error.mpr ⟨rfl, rfl⟩) (by simp)
    | ok currentUser =>
      cases hown : ownFile s currentUser fileId with
      | error e =>
        simp only [Bool.not_true, Bool.false_eq_true, if_false, hown]
        refine iff_of_true (allOrNothing_error.mpr ⟨rfl, rfl⟩) ?_
        rintro _ _ - ⟨⟩ hrecord
        cases hown.symm.trans hrecord
      | ok record =>
        simp only [Bool.not_true, Bool.false_eq_true, if_false, hown, requireStorageConfigured]
        cases hconfigured : storage.configured with
        | false => exact iff_of_true (allOrNothing_error.mpr ⟨rfl, rfl⟩) (by simp)
        | true =>
          refine (removeFile_allOrNothing_iff (ownFile_ok hown).1).trans ?_
          refine ⟨?_, fun h => h currentUser record trivial rfl hown rfl⟩
          rintro h _ _ - ⟨⟩ hrecord -
          cases hown.symm.trans hrecord
          exact h

end Steps

/-- An upload and a deletion are all or nothing if and only if they are not interrupted
between their first write and their end. -/
theorem all_or_nothing_iff (storage : StorageEnv) (credentials : Token) (s : FileServer) :
    (∀ category file faults,
      AllOrNothing s (uploadFile storage credentials category file faults s) ↔
        ∀ currentUser accepted, faults.reads = true →
          getCurrentUser s.server credentials = .ok currentUser →
          validateUpload storage category file = .ok accepted →
          ¬ UploadInterrupted storage currentUser category file accepted faults s) ∧
    ∀ fileId faults,
      AllOrNothing s (deleteFile storage credentials fileId faults s) ↔
        ∀ currentUser record, faults.reads = true →
          getCurrentUser s.server credentials = .ok currentUser →
          ownFile s currentUser fileId = .ok record → storage.configured = true →
          ¬ DeleteInterrupted record faults s :=
  ⟨fun category file faults =>
      uploadFile_allOrNothing_iff storage credentials category file faults s,
    fun fileId faults => deleteFile_allOrNothing_iff storage credentials fileId faults s⟩

section LongFileName

def sampleToken : Token := ⟨"a@example.com", "access", "uuid0", 0, 1800⟩

/-- One active account with a session, and no files. -/
def sampleServer : FileServer where
  server :=
    { freshServer 0 with
      db := { Database.empty with
        users := [⟨1, "a@example.com", none, true, true, 0⟩], nextUserId := 2 }
      issued := [⟨sampleToken, 1⟩], draws := 1 }
  objects := fun _ => none
  nextFileId := 1
  uuids := 0

def gifUpload (filename : String) : UploadFile :=
  ⟨some filename, some "image/gif", bytesOf "GIF89a"⟩

def sampleUser : User := ⟨1, "a@example.com", none, true, true, 0⟩

theorem sampleServer_user : getCurrentUser sampleServer.server sampleToken = .ok sampleUser := by
  decide +kernel

theorem gifUpload_accepted (filename : String) :
    ∃ accepted, validateUpload sampleStorage "image" (gifUpload filename) = .ok accepted :=
  ⟨_, rfl⟩

theorem gifUpload_name {filename : String} (hne : filename ≠ "") :
    (gifUpload filename).name = filename :=
  if_neg hne

theorem fitted_eq_none {row : FileUpload} (hname : varchar 255 row.filename = none) :
    row.fitted = none := by
  unfold FileUpload.fitted
  rw [hname]
  rfl

/-- With every call going well, an upload under a name that the column refuses is answered
with 500 and its object stays. -/
theorem refused_name_leaves_object {filename : String} (hne : filename ≠ "")
    (hname : varchar 255 filename = none) :
    ¬ AllOrNothing sampleServer
      (uploadFile sampleStorage sampleToken "image" (gifUpload filename) {} sampleServer) := by
  rw [uploadFile_allOrNothing_iff]
  intro hnot
  obtain ⟨accepted, haccepted⟩ := gifUpload_accepted filename
  refine hnot sampleUser accepted rfl sampleServer_user haccepted ⟨rfl, by decide, ?_, .inl ?_⟩
  · rintro ⟨_, hinsert, _⟩
    unfold Insertable Database.insertFileUpload at hinsert
    rw [fitted_eq_none] at hinsert
    · cases hinsert
    · exact (congrArg (varchar 255) (gifUpload_name hne)).trans hname
  · simp [sampleServer]

theorem varchar_ofList_eq_none {width : Nat} {text : List Char}
    (hlong : width < text.length) (hletter : ∃ c ∈ text.drop width, c ≠ ' ') :
    varchar width (String.ofList text) = none := by
  have hrest : ¬ (text.drop width).all (fun c => c = ' ') = true := by simpa using hletter
  unfold varchar
  rw [String.toList_ofList, String.length_ofList, if_neg (Nat.not_le.mpr hlong), if_neg hrest,
    ite_self]

/-- One letter more than the column is wide. -/
theorem long_name_leaves_object :
    ¬ AllOrNothing sampleServer (uploadFile sampleStorage sampleToken "image"
      (gifUpload (String.ofList (List.replicate 256 'a'))) {} sampleServer) := by
  have hlong : 255 < (List.replicate 256 'a').length := by
    rw [List.length_replicate]
    decide
  refine refused_name_leaves_object ?_ (varchar_ofList_eq_none hlong ⟨'a', ?_, by decide⟩)
  · intro hempty
    have hlength := congrArg String.length hempty
    rw [String.length_ofList, List.length_replicate] at hlength
    cases hlength
  · rw [List.drop_replicate]
    decide

end LongFileName

end FastApiAuth.FileAtomicity
