import FastApiAuth.FileValidation
import FastApiAuth.Pagination
import FastApiAuth.Api

/-!
# app/api/files.py and app/services/storage.py

The bucket stands next to the server. Every call that may raise takes its outcome as an
argument: it succeeds, raises without an effect, or raises after the effect.
-/

namespace FastApiAuth

set_option autoImplicit false

open Tables

section Bucket

structure StoredObject where
  bytes : Bytes
  contentType : String
  deriving DecidableEq

/-- `uuids` counts the values of `uuid.uuid4().hex` drawn so far. -/
structure FileServer where
  server : Server
  objects : String → Option StoredObject
  nextFileId : Nat
  uuids : Nat

/-- The settings of the storage, the hex digits drawn and the URL signed at an instant. -/
structure StorageEnv where
  configured : Bool
  uuidHex : Nat → String
  presign : Instant → String → String

inductive CallOutcome where
  | succeeds
  | raises
  | raisesLate
  deriving DecidableEq

def CallOutcome.effect {σ : Type} (outcome : CallOutcome) (f : σ → σ) (s : σ) : σ :=
  match outcome with
  | .raises => s
  | _ => f s

@[simp] theorem CallOutcome.effect_succeeds {σ : Type} (f : σ → σ) (s : σ) :
    CallOutcome.succeeds.effect f s = f s := rfl

@[simp] theorem CallOutcome.effect_raises {σ : Type} (f : σ → σ) (s : σ) :
    CallOutcome.raises.effect f s = s := rfl

@[simp] theorem CallOutcome.effect_raisesLate {σ : Type} (f : σ → σ) (s : σ) :
    CallOutcome.raisesLate.effect f s = f s := rfl

/-- `head_bucket`: only a ClientError is caught. -/
inductive HeadOutcome where
  | found
  | clientError
  | raises
  deriving DecidableEq

/-- `_ensure_bucket`; false if it raises. -/
def ensureBucket (head : HeadOutcome) (create : CallOutcome) : Bool :=
  match head with
  | .found => true
  | .clientError => create = .succeeds
  | .raises => false

def safeName (filename : String) : String :=
  String.ofList (filename.toList.map fun c => if c = '/' ∨ c = '\\' then '_' else c)

def buildObjectKey (hex : String) (userId : Nat) (category filename : String) : String :=
  category ++ "/" ++ PyInt.str userId ++ "/" ++ hex ++ "_" ++ safeName filename

end Bucket

namespace FileServer

def db (s : FileServer) : Database := s.server.db

def withDb (s : FileServer) (db : Database) : FileServer :=
  { s with server := { s.server with db } }

def putObject (key : String) (object : StoredObject) (s : FileServer) : FileServer :=
  { s with objects := fun k => if k = key then some object else s.objects k }

def deleteObject (key : String) (s : FileServer) : FileServer :=
  { s with objects := fun k => if k = key then none else s.objects k }

variable {s : FileServer} {key other : String} {object : StoredObject}

theorem putObject_self : (s.putObject key object).objects key = some object := if_pos rfl

theorem putObject_of_ne (h : other ≠ key) :
    (s.putObject key object).objects other = s.objects other := if_neg h

theorem deleteObject_self : (s.deleteObject key).objects key = none := if_pos rfl

theorem deleteObject_of_ne (h : other ≠ key) :
    (s.deleteObject key).objects other = s.objects other := if_neg h

end FileServer

section UploadsTable

/-- A text assigned to a VARCHAR column; blanks beyond its width are cut off. -/
def varchar (width : Nat) (text : String) : Option String :=
  if Char.ofNat 0 ∈ text.toList then none
  else if text.length ≤ width then some text
  else if (text.toList.drop width).all fun c => c = ' ' then
    some (String.ofList (text.toList.take width))
  else none

/-- The row as its columns hold it. -/
def FileUpload.fitted (row : FileUpload) : Option FileUpload := do
  let filename ← varchar 255 row.filename
  let contentType ← varchar 100 row.contentType
  let category ← varchar 20 row.category
  let storageKey ← varchar 512 row.storageKey
  if row.sizeBytes < 2 ^ 31 then some { row with filename, contentType, category, storageKey }
  else none

end UploadsTable

namespace Database

def fileById (db : Database) (i : Int) : Option FileUpload :=
  lookup (fun f : FileUpload => (f.id : Int)) i db.fileUploads

/-- `none` is the error of the commit. -/
def insertFileUpload (db : Database) (row : FileUpload) : Option (FileUpload × Database) :=
  match row.fitted with
  | none => none
  | some row =>
    if db.fileUploads.any fun f => f.storageKey = row.storageKey then none
    else if db.users.all fun u => u.id ≠ row.userId then none
    else some (row, { db with fileUploads := db.fileUploads ++ [row] })

def deleteFileUpload (db : Database) (fileId : Nat) : Database :=
  { db with fileUploads := db.fileUploads.filter fun f => f.id ≠ fileId }

theorem mem_deleteFileUpload {db : Database} {fileId : Nat} {f : FileUpload} :
    f ∈ (db.deleteFileUpload fileId).fileUploads ↔ f ∈ db.fileUploads ∧ f.id ≠ fileId := by
  simp [deleteFileUpload]

end Database

section Replies

structure FileUploadResponse where
  id : Nat
  filename : String
  contentType : String
  category : String
  sizeBytes : Nat
  createdAt : Instant
  deriving DecidableEq

def FileUpload.response (record : FileUpload) : FileUploadResponse :=
  ⟨record.id, record.filename, record.contentType, record.category, record.sizeBytes,
    record.createdAt⟩

inductive FileBody where
  | fileUploadResponse (record : FileUploadResponse)
  | page (page : Page FileUploadResponse)
  | fileDownloadResponse (record : FileUploadResponse) (downloadUrl : String)
  | noContent

abbrev FileReply := Except HttpException FileBody

def succeeded : FileReply → Prop
  | .ok _ => True
  | .error _ => False

instance : DecidablePred succeeded
  | .ok _ => isTrue trivial
  | .error _ => isFalse id

abbrev FileOutcome := FileReply × FileServer

end Replies

section UploadFile

structure UploadFile where
  filename : Option String
  contentType : Option String
  content : Bytes

/-- `file.filename or "upload"` -/
def UploadFile.name (file : UploadFile) : String :=
  match file.filename with
  | none => "upload"
  | some filename => if filename = "" then "upload" else filename

def storageNotConfigured : HttpException :=
  { statusCode := 503, detail := "File storage is not configured" }

def requireStorageConfigured (storage : StorageEnv) : Except HttpException Unit :=
  if storage.configured then .ok () else .error storageNotConfigured

def unknownCategory (category : String) : HttpException :=
  { statusCode := 400
    detail := "Unknown category '" ++ category ++
      "'. Choose one of: ['csv', 'image', 'pdf', 'video']" }

def contentTypeNotAllowed (contentType : Option String) (category : String) : HttpException :=
  { statusCode := 400
    detail := "Content-Type '" ++ contentType.getD "None" ++ "' is not allowed for " ++ category ++
      " uploads" }

/-- An upload that has passed every check before the bucket is touched. -/
structure AcceptedUpload (category : String) (file : UploadFile) where
  contentType : String
  sizeBytes : Nat
  known : ∃ c ∈ categories, c.name = category
  sizeBytes_eq : sizeBytes = file.content.length

def allowedContentType (uploadCategory : UploadCategory) (file : UploadFile) : Option String :=
  file.contentType.filter fun contentType => contentType ∈ uploadCategory.allowedContentTypes

def checkCsv (category : String) (content : Bytes) : Except HttpException Unit :=
  if category = "csv" then validateCsvContent content else .ok ()

def validateUpload (storage : StorageEnv) (category : String) (file : UploadFile) :
    Except HttpException (AcceptedUpload category file) :=
  match requireStorageConfigured storage with
  | .error e => .error e
  | .ok _ =>
    match hcategory : categoryNamed category with
    | none => .error (unknownCategory category)
    | some uploadCategory =>
      match allowedContentType uploadCategory file with
      | none => .error (contentTypeNotAllowed file.contentType category)
      | some contentType =>
        match hsize : readAndValidateStream file.content uploadCategory with
        | .error e => .error e
        | .ok sizeBytes =>
          match checkCsv category file.content with
          | .error e => .error e
          | .ok _ =>
            .ok ⟨contentType, sizeBytes, ⟨uploadCategory, categoryNamed_some hcategory⟩,
              (readAndValidateStream_ok hsize).1⟩

/-- What the calls of one upload come to; `reads` are the queries before the upload. -/
structure UploadFaults where
  reads : Bool := true
  head : HeadOutcome := .found
  create : CallOutcome := .succeeds
  put : CallOutcome := .succeeds
  commit : CallOutcome := .succeeds
  refresh : Bool := true

def uploadKey (storage : StorageEnv) (currentUser : User) (category : String) (file : UploadFile)
    (s : FileServer) : String :=
  buildObjectKey (storage.uuidHex s.uuids) currentUser.id category file.name

def uploadObject {category : String} {file : UploadFile} (accepted : AcceptedUpload category file) :
    StoredObject :=
  ⟨file.content, accepted.contentType⟩

/-- The record handed to the session. -/
def uploadRecord (storage : StorageEnv) (currentUser : User) (category : String)
    (file : UploadFile) (accepted : AcceptedUpload category file) (s : FileServer) : FileUpload :=
  { id := s.nextFileId, userId := currentUser.id, filename := file.name
    contentType := accepted.contentType, category, sizeBytes := accepted.sizeBytes
    storageKey := uploadKey storage currentUser category file s, createdAt := s.server.now }

/-- The object of the upload is in the bucket. -/
def afterPut (storage : StorageEnv) (currentUser : User) (category : String) (file : UploadFile)
    (accepted : AcceptedUpload category file) (s : FileServer) : FileServer :=
  FileServer.putObject (uploadKey storage currentUser category file s) (uploadObject accepted)
    { s with uuids := s.uuids + 1 }

@[simp] theorem afterPut_db (storage : StorageEnv) (currentUser : User) (category : String)
    (file : UploadFile) (accepted : AcceptedUpload category file) (s : FileServer) :
    (afterPut storage currentUser category file accepted s).db = s.db := rfl

/-- `db.add(record)`, `db.commit()` and `db.refresh(record)` -/
def saveRecord (record : FileUpload) (faults : UploadFaults) (s : FileServer) : FileOutcome :=
  match s.db.insertFileUpload record with
  | none => (.error internalServerError, s)
  | some (record, db) =>
    let s := faults.commit.effect
      (fun s => { s.withDb db with nextFileId := s.nextFileId + 1 }) s
    if faults.commit = .succeeds ∧ faults.refresh then
      (.ok (.fileUploadResponse record.response), s)
    else (.error internalServerError, s)

/-- From `build_object_key` on. -/
def storeUpload (storage : StorageEnv) (currentUser : User) (category : String)
    (file : UploadFile) (accepted : AcceptedUpload category file) (faults : UploadFaults)
    (s : FileServer) : FileOutcome :=
  let storageKey := uploadKey storage currentUser category file s
  let record := uploadRecord storage currentUser category file accepted s
  let s := { s with uuids := s.uuids + 1 }
  if !ensureBucket faults.head faults.create then (.error internalServerError, s)
  else
    let s := faults.put.effect (FileServer.putObject storageKey (uploadObject accepted)) s
    if faults.put = .succeeds then saveRecord record faults s
    else (.error internalServerError, s)

def uploadFile (storage : StorageEnv) (credentials : Token) (category : String)
    (file : UploadFile) (faults : UploadFaults) (s : FileServer) : FileOutcome :=
  if !faults.reads then (.error internalServerError, s)
  else
    match getCurrentUser s.server credentials with
    | .error e => (.error e, s)
    | .ok currentUser =>
      match validateUpload storage category file with
      | .error e => (.error e, s)
      | .ok accepted => storeUpload storage currentUser category file accepted faults s

end UploadFile

section Listing

def Page.map {α β : Type} (f : α → β) (page : Page α) : Page β :=
  { items := page.items.map f, total := page.total, limit := page.limit, offset := page.offset
    hasMore := page.hasMore }

/-- `answer` is the order in which the database sends the rows. -/
def listFiles (dialect : Dialect) (credentials : Token) (params : OffsetPaginationParams)
    (answer : List FileUpload) (s : FileServer) : FileReply :=
  match listMyFiles dialect s.server credentials params answer with
  | .error e => .error e
  | .ok page => .ok (.page (page.map FileUpload.response))

def fileNotFound : HttpException := { statusCode := 404, detail := "File not found" }

/-- The record with this id, if it is the user's own. -/
def ownFile (s : FileServer) (currentUser : User) (fileId : Int) :
    Except HttpException FileUpload :=
  match s.db.fileById fileId with
  | none => .error fileNotFound
  | some record => if record.userId ≠ currentUser.id then .error fileNotFound else .ok record

def getFile (storage : StorageEnv) (credentials : Token) (fileId : Int) (s : FileServer) :
    FileReply :=
  match getCurrentUser s.server credentials with
  | .error e => .error e
  | .ok currentUser =>
    match ownFile s currentUser fileId with
    | .error e => .error e
    | .ok record =>
      match requireStorageConfigured storage with
      | .error e => .error e
      | .ok _ =>
        .ok (.fileDownloadResponse record.response
          (storage.presign s.server.now record.storageKey))

structure DeleteFaults where
  reads : Bool := true
  delete : CallOutcome := .succeeds
  commit : CallOutcome := .succeeds

/-- From the call of `delete_object` on. -/
def removeFile (record : FileUpload) (faults : DeleteFaults) (s : FileServer) : FileOutcome :=
  let s := faults.delete.effect (FileServer.deleteObject record.storageKey) s
  if faults.delete = .succeeds then
    let s := faults.commit.effect (fun s => s.withDb (s.db.deleteFileUpload record.id)) s
    if faults.commit = .succeeds then (.ok .noContent, s) else (.error internalServerError, s)
  else (.error internalServerError, s)

def deleteFile (storage : StorageEnv) (credentials : Token) (fileId : Int)
    (faults : DeleteFaults) (s : FileServer) : FileOutcome :=
  if !faults.reads then (.error internalServerError, s)
  else
    match getCurrentUser s.server credentials with
    | .error e => (.error e, s)
    | .ok currentUser =>
      match ownFile s currentUser fileId with
      | .error e => (.error e, s)
      | .ok record =>
        match requireStorageConfigured storage with
        | .error e => (.error e, s)
        | .ok _ => removeFile record faults s

end Listing

section Runs

/-- A request for files, or an action of the rest of the API. Every call of a request goes
well; `answer` is the order in which the database sends the rows of a listing. -/
inductive FileAction where
  | api (a : Action)
  | upload (credentials : Token) (category : String) (file : UploadFile)
  | list (credentials : Token) (params : OffsetPaginationParams) (answer : List FileUpload)
  | get (credentials : Token) (fileId : Int)
  | delete (credentials : Token) (fileId : Int)

inductive FileAnswer where
  | api (reply : Reply)
  | file (reply : FileReply)

def fileStep (env : Env) (storage : StorageEnv) (dialect : Dialect) (s : FileServer) :
    FileAction → FileAnswer × FileServer
  | .api a =>
    let (reply, server) := step env s.server a
    (.api reply, { s with server })
  | .upload credentials category file =>
    let (reply, s) := uploadFile storage credentials category file {} s
    (.file reply, s)
  | .list credentials params answer => (.file (listFiles dialect credentials params answer s), s)
  | .get credentials fileId => (.file (getFile storage credentials fileId s), s)
  | .delete credentials fileId =>
    let (reply, s) := deleteFile storage credentials fileId {} s
    (.file reply, s)

abbrev FileTransition := Runs.Transition FileServer (FileAction × FileAnswer)

abbrev FileRun (env : Env) (storage : StorageEnv) (dialect : Dialect) :
    FileServer → List FileTransition → FileServer → Prop :=
  Runs.Run (Runs.StepOf (fileStep env storage dialect))

/-- A storage to run the handlers with. -/
def sampleStorage : StorageEnv where
  configured := true
  uuidHex := fun draw => PyInt.str (10 ^ 31 + draw : Nat)
  presign := fun _ key => key

def freshFileServer (now : Instant) : FileServer :=
  { server := freshServer now, objects := fun _ => none, nextFileId := 1, uuids := 0 }

end Runs

section Specifications

variable {storage : StorageEnv} {s : FileServer} {credentials : Token} {category : String}
variable {file : UploadFile} {accepted : AcceptedUpload category file} {currentUser : User}
variable {record row : FileUpload} {fileId : Int} {db db' : Database}

theorem ownFile_ok (h : ownFile s currentUser fileId = .ok record) :
    record ∈ s.db.fileUploads ∧ (record.id : Int) = fileId ∧ record.userId = currentUser.id := by
  unfold ownFile at h
  split at h
  · cases h
  · rename_i found hfound
    obtain ⟨hmem, hid⟩ := lookup_some hfound
    split at h
    · cases h
    · rename_i howner
      cases h
      exact ⟨hmem, hid, by simpa using howner⟩

/-- What a successful `INSERT INTO file_uploads` leaves. -/
theorem insertFileUpload_some (h : db.insertFileUpload row = some (record, db')) :
    row.fitted = some record ∧ (∀ f ∈ db.fileUploads, f.storageKey ≠ record.storageKey) ∧
      (∃ u ∈ db.users, u.id = record.userId) ∧
      db' = { db with fileUploads := db.fileUploads ++ [record] } := by
  unfold Database.insertFileUpload at h
  split at h
  · cases h
  rename_i fitted hfitted
  split at h
  · cases h
  rename_i hfree
  split at h
  · cases h
  rename_i huser
  cases h
  refine ⟨hfitted, by simpa using hfree, ?_, rfl⟩
  simpa using huser

theorem insertFileUpload_of (hfitted : row.fitted = some record)
    (hfree : ∀ f ∈ db.fileUploads, f.storageKey ≠ record.storageKey)
    (huser : ∃ u ∈ db.users, u.id = record.userId) :
    db.insertFileUpload row =
      some (record, { db with fileUploads := db.fileUploads ++ [record] }) := by
  unfold Database.insertFileUpload
  rw [hfitted]
  dsimp only
  rw [if_neg (by simpa using hfree), if_neg (by simpa using huser)]

/-- The columns that no VARCHAR can change are the row's own. -/
theorem fitted_some (h : row.fitted = some record) :
    record.id = row.id ∧ record.userId = row.userId ∧ record.sizeBytes = row.sizeBytes ∧
      varchar 512 row.storageKey = some record.storageKey := by
  unfold FileUpload.fitted at h
  simp only [Option.bind_eq_bind, Option.bind_eq_some_iff] at h
  obtain ⟨_, _, _, _, _, _, storageKey, hkey, hrow⟩ := h
  split at hrow
  · cases hrow
    exact ⟨rfl, rfl, rfl, hkey⟩
  · cases hrow

theorem saveRecord_none (h : s.db.insertFileUpload record = none) :
    saveRecord record {} s = (.error internalServerError, s) := by
  unfold saveRecord
  rw [h]

theorem saveRecord_some (h : s.db.insertFileUpload row = some (record, db)) :
    saveRecord row {} s = (.ok (.fileUploadResponse record.response),
      { s.withDb db with nextFileId := s.nextFileId + 1 }) := by
  unfold saveRecord
  rw [h]
  rfl

/-- The three ways in which an upload can go when every call goes well. -/
inductive UploadCase (storage : StorageEnv) (credentials : Token) (category : String)
    (file : UploadFile) (s : FileServer) : FileOutcome → Prop where
  | refused {e : HttpException} :
      (∀ currentUser accepted, getCurrentUser s.server credentials = .ok currentUser →
        validateUpload storage category file ≠ .ok accepted) →
      UploadCase storage credentials category file s (.error e, s)
  | stranded {currentUser : User} {accepted : AcceptedUpload category file} :
      getCurrentUser s.server credentials = .ok currentUser →
      validateUpload storage category file = .ok accepted →
      s.db.insertFileUpload (uploadRecord storage currentUser category file accepted s) = none →
      UploadCase storage credentials category file s
        (.error internalServerError, afterPut storage currentUser category file accepted s)
  | stored {currentUser : User} {accepted : AcceptedUpload category file} {record : FileUpload}
      {db : Database} :
      getCurrentUser s.server credentials = .ok currentUser →
      validateUpload storage category file = .ok accepted →
      s.db.insertFileUpload (uploadRecord storage currentUser category file accepted s) =
        some (record, db) →
      UploadCase storage credentials category file s (.ok (.fileUploadResponse record.response),
        { (afterPut storage currentUser category file accepted s).withDb db with
          nextFileId := s.nextFileId + 1 })

theorem uploadFile_case (storage : StorageEnv) (credentials : Token) (category : String)
    (file : UploadFile) (s : FileServer) :
    UploadCase storage credentials category file s
      (uploadFile storage credentials category file {} s) := by
  unfold uploadFile
  rw [if_neg (by simp)]
  cases huser : getCurrentUser s.server credentials with
  | error e => exact .refused fun _ _ h => by cases huser.symm.trans h
  | ok currentUser =>
    cases haccepted : validateUpload storage category file with
    | error e => exact .refused fun _ _ _ h => by cases haccepted.symm.trans h
    | ok accepted =>
      change UploadCase storage credentials category file s
        (saveRecord (uploadRecord storage currentUser category file accepted s) {}
          (afterPut storage currentUser category file accepted s))
      cases hinsert : s.db.insertFileUpload
          (uploadRecord storage currentUser category file accepted s) with
      | none =>
        rw [saveRecord_none (by rwa [afterPut_db])]
        exact .stranded huser haccepted hinsert
      | some inserted =>
        rw [saveRecord_some (by rwa [afterPut_db])]
        exact .stored huser haccepted hinsert

/-- A deletion is refused, or takes the user's own record and its object away. -/
inductive DeleteCase (s : FileServer) : FileOutcome → Prop where
  | refused {e : HttpException} : DeleteCase s (.error e, s)
  | deleted {record : FileUpload} : record ∈ s.db.fileUploads →
      DeleteCase s (.ok .noContent, (FileServer.deleteObject record.storageKey s).withDb
        (s.db.deleteFileUpload record.id))

theorem deleteFile_case (storage : StorageEnv) (credentials : Token) (fileId : Int)
    (s : FileServer) : DeleteCase s (deleteFile storage credentials fileId {} s) := by
  unfold deleteFile
  rw [if_neg (by simp)]
  split
  · exact .refused
  split
  · exact .refused
  rename_i hown
  split
  · exact .refused
  · exact .deleted (ownFile_ok hown).1

end Specifications

end FastApiAuth
