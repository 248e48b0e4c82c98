import FastApiAuth.FileAtomicity
import FastApiAuth.FileCorrespondence
import FastApiAuth.Library.Processes

/-!
# upload_file and delete_file, call by call

An upload writes the object, then the row; a delete drops the object, then the row. Each
call is a step of its own, and between two of them any other request may take its steps,
or the request may die. What is then in the bucket and in file_uploads is matched up to
the requests that stand between their two writes.
-/

namespace FastApiAuth.FileRaces

set_option autoImplicit false

open Database FileCorrespondence Processes Runs

universe u

inductive FileRequest where
  | upload (credentials : Token) (category : String) (file : UploadFile)
  | delete (credentials : Token) (fileId : Int)

def FileRequest.credentials : FileRequest → Token
  | .upload credentials _ _ => credentials
  | .delete credentials _ => credentials

/-- What an upload keeps of its checks: the object and the fields of the record. -/
structure Draft where
  userId : Nat
  filename : String
  category : String
  storageKey : String
  object : StoredObject

/-- The record as the flush sees it; its id and its date come from there. -/
def Draft.record (draft : Draft) (s : FileServer) : FileUpload :=
  { id := s.nextFileId, userId := draft.userId, filename := draft.filename
    contentType := draft.object.contentType, category := draft.category
    sizeBytes := draft.object.bytes.length, storageKey := draft.storageKey
    createdAt := s.server.now }

/-- The next call of a request, with what it has computed. -/
inductive Pc where
  | start
  | current (user : User)
  | drafted (draft : Draft)
  | put (draft : Draft)
  | inserted (record : FileUpload)
  | found (record : FileUpload)
  | removed (record : FileUpload)
  | finished (reply : FileReply)

section Calls

/-- `get_current_user` -/
def currentUserStep (request : FileRequest) (s : FileServer) : Pc :=
  match getCurrentUser s.server request.credentials with
  | .error e => .finished (.error e)
  | .ok user => .current user

/-- The checks of an upload, up to `build_object_key`. -/
def draftStep (storage : StorageEnv) (user : User) (category : String) (file : UploadFile)
    (s : FileServer) : FileServer × Pc :=
  match validateUpload storage category file with
  | .error e => (s, .finished (.error e))
  | .ok accepted =>
    ({ s with uuids := s.uuids + 1 },
      .drafted ⟨user.id, file.name, category, uploadKey storage user category file s,
        uploadObject accepted⟩)

/-- The row that a delete names. -/
def findStep (storage : StorageEnv) (user : User) (fileId : Int) (s : FileServer) : Pc :=
  match ownFile s user fileId with
  | .error e => .finished (.error e)
  | .ok record =>
    match requireStorageConfigured storage with
    | .error e => .finished (.error e)
    | .ok _ => .found record

def prepareStep (storage : StorageEnv) (user : User) (s : FileServer) :
    FileRequest → FileServer × Pc
  | .upload _ category file => draftStep storage user category file s
  | .delete _ fileId => (s, findStep storage user fileId s)

/-- `db.add(record)` and `db.commit()` -/
def insertStep (draft : Draft) (s : FileServer) : FileServer × Pc :=
  match s.db.insertFileUpload (draft.record s) with
  | none => (s, .finished (.error internalServerError))
  | some (record, db) => ({ s.withDb db with nextFileId := s.nextFileId + 1 }, .inserted record)

/-- `db.refresh(record)`; a row that is gone raises. -/
def refreshStep (record : FileUpload) (s : FileServer) : Pc :=
  match s.db.fileById record.id with
  | none => .finished (.error internalServerError)
  | some record => .finished (.ok (.fileUploadResponse record.response))

/-- A DELETE that finds no row draws a warning only. -/
def requestStep (storage : StorageEnv) (request : FileRequest) (s : FileServer) :
    Pc → FileServer × Pc
  | .start => (s, currentUserStep request s)
  | .current user => prepareStep storage user s request
  | .drafted draft => (s.putObject draft.storageKey draft.object, .put draft)
  | .put draft => insertStep draft s
  | .inserted record => (s, refreshStep record s)
  | .found record => (s.deleteObject record.storageKey, .removed record)
  | .removed record => (s.withDb (s.db.deleteFileUpload record.id), .finished (.ok .noContent))
  | .finished reply => (s, .finished reply)

/-- The handler in one piece, every call going well. -/
def FileRequest.handler (storage : StorageEnv) : FileRequest → FileServer → FileOutcome
  | .upload credentials category file => uploadFile storage credentials category file {}
  | .delete credentials fileId => deleteFile storage credentials fileId {}

end Calls

section Alone

variable {storage : StorageEnv} {s : FileServer}

theorem fileById_of_mem {db : Database} {record : FileUpload}
    (hids : (db.fileUploads.map FileUpload.id).Nodup) (hmem : record ∈ db.fileUploads) :
    db.fileById record.id = some record := by
  apply Tables.lookup_of_mem _ hmem rfl
  have hmap : db.fileUploads.map (fun f => (f.id : Int)) =
      (db.fileUploads.map FileUpload.id).map Int.ofNat := by
    simp
  rw [hmap]
  exact hids.map (fun _ _ h => Int.ofNat.inj h)

theorem fileById_of_inserted {db : Database} {draft : Draft} {record : FileUpload}
    (hs : Supported storage s) (hinsert : s.db.insertFileUpload (draft.record s) =
      some (record, db)) : db.fileById record.id = some record := by
  obtain ⟨hfitted, _, _, rfl⟩ := insertFileUpload_some hinsert
  obtain ⟨hid, _, _, _⟩ := fitted_some hfitted
  apply fileById_of_mem
  · apply Tables.nodup_append_fresh hs.ids
    intro f hf
    rw [hid]
    exact (hs.ids_lt f hf).ne
  · exact List.mem_append_right _ (List.mem_singleton_self _)

/-- The draft of an upload makes the record that the handler makes. -/
theorem draft_record {category : String} {file : UploadFile}
    (accepted : AcceptedUpload category file) (user : User) (s : FileServer) :
    Draft.record ⟨user.id, file.name, category, uploadKey storage user category file s,
      uploadObject accepted⟩ (afterPut storage user category file accepted s) =
        uploadRecord storage user category file accepted s := by
  unfold Draft.record uploadRecord
  rw [accepted.sizeBytes_eq]
  rfl

theorem insert_alone (request : FileRequest) (draft : Draft) (hs : Supported storage s) :
    requestStep storage request (insertStep draft s).1 (insertStep draft s).2 =
      ((saveRecord (draft.record s) {} s).2,
        .finished (saveRecord (draft.record s) {} s).1) := by
  unfold insertStep
  cases hinsert : s.db.insertFileUpload (draft.record s) with
  | none =>
    rw [saveRecord_none hinsert]
    rfl
  | some inserted =>
    obtain ⟨record, db⟩ := inserted
    rw [saveRecord_some hinsert]
    simp only [requestStep, refreshStep]
    rw [show FileServer.db _ = db from rfl, fileById_of_inserted hs hinsert]

/-- One request on its own. -/
def next (storage : StorageEnv) (request : FileRequest) (p : FileServer × Pc) : FileServer × Pc :=
  requestStep storage request p.1 p.2

theorem next_finished (request : FileRequest) (reply : FileReply) (n : Nat) :
    (next storage request)^[n] (s, .finished reply) = (s, .finished reply) :=
  Function.iterate_fixed rfl n

theorem next_start (request : FileRequest) :
    next storage request (s, .start) = (s, currentUserStep request s) := rfl

theorem next_current (request : FileRequest) (user : User) :
    next storage request (s, .current user) = prepareStep storage user s request := rfl

theorem upload_alone (credentials : Token) (category : String) (file : UploadFile) (user : User)
    (hs : Supported storage s) :
    (next storage (.upload credentials category file))^[3]
        (draftStep storage user category file s) =
      match validateUpload storage category file with
      | .error e => (s, .finished (.error e))
      | .ok accepted => ((storeUpload storage user category file accepted {} s).2,
          .finished (storeUpload storage user category file accepted {} s).1) := by
  unfold draftStep
  cases validateUpload storage category file with
  | error e => exact next_finished _ _ _
  | ok accepted =>
    have hput : Supported storage (afterPut storage user category file accepted s) :=
      { hs with drawn := fun key hkey => afterPut_drawn hs hkey }
    have hsaved := insert_alone (.upload credentials category file) ⟨user.id, file.name,
      category, uploadKey storage user category file s, uploadObject accepted⟩ hput
    rw [draft_record] at hsaved
    exact hsaved

theorem delete_alone (credentials : Token) (fileId : Int) (user : User) :
    (next storage (.delete credentials fileId))^[3]
        (s, findStep storage user fileId s) =
      match ownFile s user fileId with
      | .error e => (s, .finished (.error e))
      | .ok record =>
        match requireStorageConfigured storage with
        | .error e => (s, .finished (.error e))
        | .ok _ => ((removeFile record {} s).2, .finished (removeFile record {} s).1) := by
  unfold findStep
  cases ownFile s user fileId with
  | error e => exact next_finished _ _ _
  | ok record =>
    cases requireStorageConfigured storage with
    | error e => exact next_finished _ _ _
    | ok _ => rfl

/-- The calls of one request, with nothing in between, are the handler. -/
theorem alone_eq_handler (request : FileRequest) (hs : Supported storage s) :
    (next storage request)^[5] (s, .start) =
      ((request.handler storage s).2, .finished (request.handler storage s).1) := by
  rw [Function.iterate_succ_apply, next_start]
  cases request with
  | upload credentials category file =>
    have hhandler : FileRequest.handler storage (.upload credentials category file) s =
        match getCurrentUser s.server credentials with
        | .error e => (.error e, s)
        | .ok user =>
          match validateUpload storage category file with
          | .error e => (.error e, s)
          | .ok accepted => storeUpload storage user category file accepted {} s := rfl
    rw [hhandler]
    unfold currentUserStep FileRequest.credentials
    cases getCurrentUser s.server credentials with
    | error e => exact next_finished _ _ _
    | ok user =>
      rw [Function.iterate_succ_apply, next_current]
      unfold prepareStep
      rw [upload_alone credentials category file user hs]
      cases validateUpload storage category file <;> rfl
  | delete credentials fileId =>
    have hhandler : FileRequest.handler storage (.delete credentials fileId) s =
        match getCurrentUser s.server credentials with
        | .error e => (.error e, s)
        | .ok user =>
          match ownFile s user fileId with
          | .error e => (.error e, s)
          | .ok record =>
            match requireStorageConfigured storage with
            | .error e => (.error e, s)
            | .ok _ => removeFile record {} s := rfl
    rw [hhandler]
    unfold currentUserStep FileRequest.credentials
    cases getCurrentUser s.server credentials with
    | error e => exact next_finished _ _ _
    | ok user =>
      rw [Function.iterate_succ_apply, next_current]
      unfold prepareStep
      rw [delete_alone]
      dsimp only
      cases ownFile s user fileId with
      | error e => rfl
      | ok record =>
        cases requireStorageConfigured storage <;> rfl

end Alone

section Interleavings

variable {ι : Type u}

def draftOf : Pc → Option Draft
  | .drafted draft | .put draft => some draft
  | _ => none

def recordOf : Pc → Option FileUpload
  | .found record | .removed record => some record
  | _ => none

/-- The upload that has drawn the key, or the row that has it, stored or held by a delete. -/
inductive Uses (c : Config ι FileServer Pc) (key : String) : ι ⊕ FileUpload → Prop where
  | draft {i : ι} {draft : Draft} : draftOf (c.proc i) = some draft → draft.storageKey = key →
      Uses c key (.inl i)
  | stored {record : FileUpload} : record ∈ c.shared.db.fileUploads → record.storageKey = key →
      Uses c key (.inr record)
  | held {i : ι} {record : FileUpload} : recordOf (c.proc i) = some record →
      record.storageKey = key → Uses c key (.inr record)

structure Separate (storage : StorageEnv) (c : Config ι FileServer Pc) : Prop where
  supported : Supported storage c.shared
  drawn : ∀ key who, Uses c key who → ∃ draw < c.shared.uuids, Drawn storage draw key
  one : ∀ key who who', Uses c key who → Uses c key who' → who = who'
  held_lt : ∀ i record, recordOf (c.proc i) = some record → record.id < c.shared.nextFileId
  held_same : ∀ i record, recordOf (c.proc i) = some record →
    ∀ f ∈ c.shared.db.fileUploads, f.id = record.id → f = record

/-- Rows and objects match, but for an upload before its row and a delete after its object. -/
structure Matched (c : Config ι FileServer Pc) : Prop where
  rows : ∀ f ∈ c.shared.db.fileUploads, (∀ i, c.proc i ≠ .removed f) →
    ∃ object, c.shared.objects f.storageKey = some object ∧ object.bytes.length = f.sizeBytes
  objects : ∀ key, c.shared.objects key ≠ none →
    (∃ f ∈ c.shared.db.fileUploads, f.storageKey = key ∧ ∀ i, c.proc i ≠ .removed f) ∨
      ∃ i draft, c.proc i = .put draft ∧ draft.storageKey = key
  put : ∀ i draft, c.proc i = .put draft → c.shared.objects draft.storageKey = some draft.object
  removed : ∀ i record, c.proc i = .removed record → c.shared.objects record.storageKey = none

/-- A deployment before its first file, with any accounts and sessions. -/
structure NoFiles (s : FileServer) : Prop where
  consistent : s.db.Consistent
  fileUploads : s.db.fileUploads = []
  objects : s.objects = fun _ => none

/-- The rest of the API moves the server and leaves the bucket. -/
def Others (env : Env) (s s' : FileServer) : Prop :=
  ∃ a reply, Step env s.server (a, reply) s'.server ∧ s' = { s with server := s'.server }

def act (storage : StorageEnv) (request : ι → FileRequest) (i : ι) (_ : Unit) (s : FileServer)
    (pc : Pc) : FileServer × Pc :=
  requestStep storage (request i) s pc

abbrev RaceTransition (ι : Type u) := Transition (Config ι FileServer Pc) (Label ι Unit)

/-- An insert goes through with the key as it is, and no row is lost to a deleted user unless
a delete has taken its object. -/
def KeepsMatch (t : RaceTransition ι) : Prop :=
  match t.label with
  | .process i _ => ∀ draft, t.source.proc i = .put draft → ∃ record db,
      t.source.shared.db.insertFileUpload (draft.record t.source.shared) = some (record, db) ∧
        record.storageKey = draft.storageKey
  | .surroundings => ∀ f ∈ t.source.shared.db.fileUploads,
      f ∉ t.target.shared.db.fileUploads → ∃ i, t.source.proc i = .removed f

variable {storage : StorageEnv} {c c' : Config ι FileServer Pc} {s' : FileServer}

/-- Nothing new is used, and no row is new. -/
theorem Separate.of_less (hc : Separate storage c) (hsupported : Supported storage c'.shared)
    (huuids : c.shared.uuids ≤ c'.shared.uuids)
    (hnext : c.shared.nextFileId ≤ c'.shared.nextFileId)
    (hrows : ∀ f ∈ c'.shared.db.fileUploads, f ∈ c.shared.db.fileUploads)
    (hdrafts : ∀ i draft, draftOf (c'.proc i) = some draft → draftOf (c.proc i) = some draft)
    (hheld : ∀ i record, recordOf (c'.proc i) = some record →
      recordOf (c.proc i) = some record ∨ record ∈ c.shared.db.fileUploads) :
    Separate storage c' := by
  have huses : ∀ key who, Uses c' key who → Uses c key who := by
    intro key who hwho
    cases hwho with
    | draft hdraft hkey => exact .draft (hdrafts _ _ hdraft) hkey
    | stored hmem hkey => exact .stored (hrows _ hmem) hkey
    | held hrecord hkey =>
      rcases hheld _ _ hrecord with hbefore | hmem
      · exact .held hbefore hkey
      · exact .stored hmem hkey
  constructor
  · exact hsupported
  · intro key who hwho
    obtain ⟨draw, hlt, hdrawn⟩ := hc.drawn key who (huses key who hwho)
    exact ⟨draw, hlt.trans_le huuids, hdrawn⟩
  · intro key who who' hwho hwho'
    exact hc.one key who who' (huses _ _ hwho) (huses _ _ hwho')
  · intro i record hrecord
    rcases hheld i record hrecord with hbefore | hmem
    · exact (hc.held_lt i record hbefore).trans_le hnext
    · exact (hc.supported.ids_lt record hmem).trans_le hnext
  · intro i record hrecord f hf hid
    rcases hheld i record hrecord with hbefore | hmem
    · exact hc.held_same i record hbefore f (hrows f hf) hid
    · exact List.inj_on_of_nodup_map hc.supported.ids (hrows f hf) hmem hid

theorem Matched.of_same (hc : Matched c)
    (hrows : c'.shared.db.fileUploads = c.shared.db.fileUploads)
    (hobjects : c'.shared.objects = c.shared.objects)
    (hput : ∀ i draft, c'.proc i = .put draft ↔ c.proc i = .put draft)
    (hremoved : ∀ i record, c'.proc i = .removed record ↔ c.proc i = .removed record) :
    Matched c' := by
  constructor
  · intro f hf hkept
    rw [hrows] at hf
    rw [hobjects]
    exact hc.rows f hf fun i hi => hkept i ((hremoved i f).mpr hi)
  · intro key hkey
    rw [hobjects] at hkey
    rw [hrows]
    rcases hc.objects key hkey with ⟨f, hf, hfkey, hkept⟩ | ⟨i, draft, hi, hdraft⟩
    · exact Or.inl ⟨f, hf, hfkey, fun i hi => hkept i ((hremoved i f).mp hi)⟩
    · exact Or.inr ⟨i, draft, (hput i draft).mpr hi, hdraft⟩
  · intro i draft hi
    rw [hobjects]
    exact hc.put i draft ((hput i draft).mp hi)
  · intro i record hi
    rw [hobjects]
    exact hc.removed i record ((hremoved i record).mp hi)

theorem Separate.draft_ne_row (hc : Separate storage c) {i : ι} {draft : Draft} {f : FileUpload}
    (hdraft : draftOf (c.proc i) = some draft)
    (hf : f ∈ c.shared.db.fileUploads ∨ ∃ j, recordOf (c.proc j) = some f) :
    f.storageKey ≠ draft.storageKey := by
  intro hkey
  have huses : Uses c draft.storageKey (.inr f) := by
    rcases hf with hmem | ⟨j, hj⟩
    · exact .stored hmem hkey
    · exact .held hj hkey
  cases hc.one _ _ _ (.draft hdraft rfl) huses

theorem Separate.draft_unique (hc : Separate storage c) {i j : ι} {draft draft' : Draft}
    (hdraft : draftOf (c.proc i) = some draft) (hdraft' : draftOf (c.proc j) = some draft')
    (hkey : draft'.storageKey = draft.storageKey) : j = i := by
  cases hc.one _ _ _ (.draft hdraft' hkey) (.draft hdraft rfl)
  rfl

/-- The only row with the key of a row that is held is that row itself. -/
theorem Separate.row_unique (hc : Separate storage c) {i : ι} {record f : FileUpload}
    (hrecord : recordOf (c.proc i) = some record) (hf : f ∈ c.shared.db.fileUploads)
    (hkey : f.storageKey = record.storageKey) : f = record := by
  cases hc.one _ _ _ (.stored hf hkey) (.held hrecord rfl)
  rfl

variable [DecidableEq ι] {i : ι} {pc' : Pc}

/-- Process `i` has made a step. -/
def moved (c : Config ι FileServer Pc) (i : ι) (s' : FileServer) (pc' : Pc) :
    Config ι FileServer Pc :=
  ⟨s', Function.update c.proc i pc'⟩

theorem moved_self : (moved c i s' pc').proc i = pc' := Function.update_self ..

theorem moved_other {j : ι} (hj : j ≠ i) : (moved c i s' pc').proc j = c.proc j :=
  Function.update_of_ne hj ..

/-- A property of local states that the mover does not have afterwards. -/
theorem of_moved {P : Pc → Prop} (hnot : ¬ P pc') {j : ι} (h : P ((moved c i s' pc').proc j)) :
    j ≠ i ∧ P (c.proc j) := by
  by_cases hj : j = i
  · subst hj
    rw [moved_self] at h
    exact absurd h hnot
  · rw [moved_other hj] at h
    exact ⟨hj, h⟩

/-- A property of local states that the mover does not have before or after. -/
theorem moved_iff {P : Pc → Prop} (hbefore : ¬ P (c.proc i)) (hafter : ¬ P pc') (j : ι) :
    P ((moved c i s' pc').proc j) ↔ P (c.proc j) := by
  by_cases hj : j = i
  · subst hj
    rw [moved_self]
    exact iff_of_false hafter hbefore
  · rw [moved_other hj]

/-- A step on neither the rows nor the objects, not between two writes before or after. -/
theorem Matched.quiet (hc : Matched c) (hdraft : draftOf (c.proc i) = none)
    (hrecord : recordOf (c.proc i) = none) (hput : ∀ draft, pc' ≠ .put draft)
    (hremoved : ∀ record, pc' ≠ .removed record)
    (hrows : s'.db.fileUploads = c.shared.db.fileUploads)
    (hobjects : s'.objects = c.shared.objects) :
    Matched (moved c i s' pc') := by
  apply hc.of_same
  · exact hrows
  · exact hobjects
  · intro j draft
    apply moved_iff (P := fun pc => pc = .put draft)
    · intro hbefore
      rw [hbefore] at hdraft
      cases hdraft
    · exact hput draft
  · intro j record
    apply moved_iff (P := fun pc => pc = .removed record)
    · intro hbefore
      rw [hbefore] at hrecord
      cases hrecord
    · exact hremoved record

structure Sound (storage : StorageEnv) (c : Config ι FileServer Pc) : Prop where
  separate : Separate storage c
  matched : Matched c

/-- A step that only reads, to a local state that holds nothing. -/
theorem Sound.idle (hc : Sound storage c) (hdraft : draftOf (c.proc i) = none)
    (hrecord : recordOf (c.proc i) = none) (hdraft' : draftOf pc' = none)
    (hrecord' : recordOf pc' = none) : Sound storage (moved c i c.shared pc') := by
  constructor
  · apply hc.separate.of_less
    · exact hc.separate.supported
    · exact Nat.le_refl _
    · exact Nat.le_refl _
    · exact fun f hf => hf
    · intro j draft hj
      exact (of_moved (P := fun pc => draftOf pc = some draft) (by simp [hdraft']) hj).2
    · intro j record hj
      exact Or.inl (of_moved (P := fun pc => recordOf pc = some record) (by simp [hrecord']) hj).2
  · apply hc.matched.quiet hdraft hrecord
    · intro draft hput
      rw [hput] at hdraft'
      cases hdraft'
    · intro record hremoved
      rw [hremoved] at hrecord'
      cases hrecord'
    · rfl
    · rfl

/-- A delete has read its row. -/
theorem Sound.find (hc : Sound storage c) {record : FileUpload} (hdraft : draftOf (c.proc i) = none)
    (hrecord : recordOf (c.proc i) = none) (hmem : record ∈ c.shared.db.fileUploads) :
    Sound storage (moved c i c.shared (.found record)) := by
  constructor
  · apply hc.separate.of_less
    · exact hc.separate.supported
    · exact Nat.le_refl _
    · exact Nat.le_refl _
    · exact fun f hf => hf
    · intro j draft hj
      exact (of_moved (P := fun pc => draftOf pc = some draft) (by simp [draftOf]) hj).2
    · intro j held hj
      by_cases hji : j = i
      · subst hji
        rw [moved_self] at hj
        cases hj
        exact Or.inr hmem
      · rw [moved_other hji] at hj
        exact Or.inl hj
  · apply hc.matched.quiet hdraft hrecord
    · simp
    · simp
    · rfl
    · rfl

/-- An upload has drawn its key. -/
theorem Sound.draft (hc : Sound storage c) (hfresh : FreshHex storage) {draft : Draft}
    (hdraft : draftOf (c.proc i) = none) (hrecord : recordOf (c.proc i) = none)
    (hdrawn : Drawn storage c.shared.uuids draft.storageKey) :
    Sound storage
      (moved c i { c.shared with uuids := c.shared.uuids + 1 } (.drafted draft)) := by
  have hsupported := hc.separate.supported
  have huses : ∀ key who, Uses (moved c i { c.shared with uuids := c.shared.uuids + 1 }
      (.drafted draft)) key who →
      (key = draft.storageKey ∧ who = .inl i) ∨ Uses c key who := by
    intro key who hwho
    cases hwho with
    | @draft j draft' hj hkey =>
      by_cases hji : j = i
      · subst hji
        rw [moved_self] at hj
        cases hj
        exact Or.inl ⟨hkey.symm, rfl⟩
      · rw [moved_other hji] at hj
        exact Or.inr (.draft hj hkey)
    | stored hmem hkey => exact Or.inr (.stored hmem hkey)
    | @held j record hj hkey =>
      have hbefore := of_moved (P := fun pc => recordOf pc = some record) (by simp [recordOf]) hj
      exact Or.inr (.held hbefore.2 hkey)
  have hunused : ∀ who, ¬ Uses c draft.storageKey who := by
    intro who hwho
    obtain ⟨draw, hlt, hother⟩ := hc.separate.drawn _ _ hwho
    have hsame := hother.unique hfresh hdrawn
    omega
  have hheld : ∀ j record, recordOf ((moved c i { c.shared with uuids := c.shared.uuids + 1 }
      (.drafted draft)).proc j) = some record → recordOf (c.proc j) = some record := by
    intro j record hj
    exact (of_moved (P := fun pc => recordOf pc = some record) (by simp [recordOf]) hj).2
  constructor
  · constructor
    · refine { hsupported with drawn := ?_ }
      intro key hkey
      obtain ⟨draw, hlt, hdraw⟩ := hsupported.drawn key hkey
      exact ⟨draw, Nat.lt_succ_of_lt hlt, hdraw⟩
    · intro key who hwho
      rcases huses key who hwho with ⟨rfl, rfl⟩ | hbefore
      · exact ⟨_, Nat.lt_succ_self _, hdrawn⟩
      · obtain ⟨draw, hlt, hdraw⟩ := hc.separate.drawn key who hbefore
        exact ⟨draw, Nat.lt_succ_of_lt hlt, hdraw⟩
    · intro key who who' hwho hwho'
      rcases huses key who hwho with ⟨rfl, rfl⟩ | hbefore
      · rcases huses _ who' hwho' with ⟨_, rfl⟩ | hbefore'
        · rfl
        · exact absurd hbefore' (hunused _)
      · rcases huses key who' hwho' with ⟨rfl, rfl⟩ | hbefore'
        · exact absurd hbefore (hunused _)
        · exact hc.separate.one key who who' hbefore hbefore'
    · exact fun j record hj => hc.separate.held_lt j record (hheld j record hj)
    · exact fun j record hj => hc.separate.held_same j record (hheld j record hj)
  · apply hc.matched.quiet hdraft hrecord
    · simp
    · simp
    · rfl
    · rfl

/-- The object of a draft is in the bucket. -/
theorem Separate.of_put (hc : Separate storage c) {draft : Draft} (hi : c.proc i = .drafted draft) :
    Separate storage
      (moved c i (c.shared.putObject draft.storageKey draft.object) (.put draft)) := by
  have hdraft : draftOf (c.proc i) = some draft := by
    rw [hi]
    rfl
  apply hc.of_less
  · refine { hc.supported with drawn := ?_ }
    intro key hkey
    by_cases hk : key = draft.storageKey
    · rw [hk]
      exact hc.drawn _ _ (.draft hdraft rfl)
    · exact hc.supported.drawn key ((FileServer.putObject_of_ne hk).symm ▸ hkey)
  · exact Nat.le_refl _
  · exact Nat.le_refl _
  · exact fun f hf => hf
  · intro j draft' hj
    by_cases hji : j = i
    · subst hji
      rw [moved_self] at hj
      cases hj
      exact hdraft
    · rwa [moved_other hji] at hj
  · intro j record hj
    exact Or.inl (of_moved (P := fun pc => recordOf pc = some record) (by simp [recordOf]) hj).2

theorem Matched.of_put (hc : Matched c) (hs : Separate storage c) {draft : Draft}
    (hi : c.proc i = .drafted draft) :
    Matched (moved c i (c.shared.putObject draft.storageKey draft.object) (.put draft)) := by
  have hdraft : draftOf (c.proc i) = some draft := by
    rw [hi]
    rfl
  have hremoved : ∀ {j record}, (moved c i (c.shared.putObject draft.storageKey draft.object)
      (.put draft)).proc j = .removed record ↔ c.proc j = .removed record := by
    intro j record
    apply moved_iff (P := fun pc => pc = .removed record)
    · simp [hi]
    · simp
  constructor
  · intro f hf hkept
    obtain ⟨object, hobject, hlength⟩ := hc.rows f hf fun j hj => hkept j (hremoved.mpr hj)
    refine ⟨object, ?_, hlength⟩
    rw [← hobject]
    exact FileServer.putObject_of_ne (hs.draft_ne_row hdraft (Or.inl hf))
  · intro key hkey
    by_cases hk : key = draft.storageKey
    · exact Or.inr ⟨i, draft, moved_self, hk.symm⟩
    · rcases hc.objects key ((FileServer.putObject_of_ne hk).symm ▸ hkey) with
        ⟨f, hf, hfkey, hkept⟩ | ⟨j, draft', hj, hjkey⟩
      · exact Or.inl ⟨f, hf, hfkey, fun j hj => hkept j (hremoved.mp hj)⟩
      · have hji : j ≠ i := by
          rintro rfl
          rw [hi] at hj
          cases hj
        exact Or.inr ⟨j, draft', (moved_other hji).trans hj, hjkey⟩
  · intro j draft' hj
    by_cases hji : j = i
    · subst hji
      rw [moved_self] at hj
      cases hj
      exact FileServer.putObject_self
    · rw [moved_other hji] at hj
      have hne : draft'.storageKey ≠ draft.storageKey := by
        intro hkey
        exact hji (hs.draft_unique hdraft (by rw [hj]; rfl) hkey)
      rw [← hc.put j draft' hj]
      exact FileServer.putObject_of_ne hne
  · intro j record hj
    have hbefore := hremoved.mp hj
    have hne := hs.draft_ne_row hdraft (Or.inr ⟨j, by rw [hbefore]; rfl⟩)
    rw [← hc.removed j record hbefore]
    exact FileServer.putObject_of_ne hne

theorem Sound.put (hc : Sound storage c) {draft : Draft} (hi : c.proc i = .drafted draft) :
    Sound storage (moved c i (c.shared.putObject draft.storageKey draft.object) (.put draft)) :=
  ⟨hc.separate.of_put hi, hc.matched.of_put hc.separate hi⟩

/-- `s'` is `s` with the row of a draft whose object is stored. -/
structure RowAdded (storage : StorageEnv) (s : FileServer) (draft : Draft) (record : FileUpload)
    (s' : FileServer) : Prop where
  supported : Supported storage s'
  rows : s'.db.fileUploads = s.db.fileUploads ++ [record]
  objects : s'.objects = s.objects
  uuids : s'.uuids = s.uuids
  next : s'.nextFileId = s.nextFileId + 1
  id : record.id = s.nextFileId
  key : record.storageKey = draft.storageKey
  size : record.sizeBytes = draft.object.bytes.length

theorem RowAdded.mem_iff {s : FileServer} {draft : Draft} {record f : FileUpload}
    (h : RowAdded storage s draft record s') :
    f ∈ s'.db.fileUploads ↔ f ∈ s.db.fileUploads ∨ f = record := by
  rw [h.rows, List.mem_append, List.mem_singleton]

theorem rowAdded_of_insert {s : FileServer} (hs : Supported storage s) {draft : Draft}
    {record : FileUpload} {db : Database}
    (hinsert : s.db.insertFileUpload (draft.record s) = some (record, db))
    (hkey : record.storageKey = draft.storageKey) :
    RowAdded storage s draft record
      { s.withDb db with nextFileId := s.nextFileId + 1 } := by
  obtain ⟨hfitted, _, howner, rfl⟩ := insertFileUpload_some hinsert
  obtain ⟨hid, _, hsize, _⟩ := fitted_some hfitted
  have hid : record.id = s.nextFileId := hid
  refine ⟨⟨{ hs.consistent with }, ?_, ?_, ?_, hs.drawn⟩, rfl, rfl, rfl, rfl, hid, hkey, hsize⟩
  · apply Tables.nodup_append_fresh hs.ids
    intro f hf
    rw [hid]
    exact (hs.ids_lt f hf).ne
  · intro f hf
    change f.id < s.nextFileId + 1
    rcases List.mem_append.mp hf with hf | hf
    · exact Nat.lt_succ_of_lt (hs.ids_lt f hf)
    · rw [List.mem_singleton.mp hf, hid]
      exact Nat.lt_succ_self _
  · intro f hf
    rcases List.mem_append.mp hf with hf | hf
    · exact hs.owners f hf
    · rw [List.mem_singleton.mp hf]
      exact howner

/-- The new row uses the key of the draft, and the draft is no more. -/
theorem uses_of_rowAdded {draft : Draft} {record : FileUpload} {key : String}
    {who : ι ⊕ FileUpload} (h : RowAdded storage c.shared draft record s')
    (hwho : Uses (moved c i s' (.inserted record)) key who) :
    (who ≠ .inl i ∧ Uses c key who) ∨ (key = draft.storageKey ∧ who = .inr record) := by
  cases hwho with
  | @draft j draft' hj hjkey =>
    obtain ⟨hji, hj⟩ := of_moved (P := fun pc => draftOf pc = some draft') (by simp [draftOf]) hj
    refine Or.inl ⟨?_, .draft hj hjkey⟩
    intro heq
    cases heq
    exact hji rfl
  | @stored f hf hfkey =>
    rcases h.mem_iff.mp hf with hf | rfl
    · exact Or.inl ⟨by simp, .stored hf hfkey⟩
    · exact Or.inr ⟨by rw [← hfkey, h.key], rfl⟩
  | @held j r hj hjkey =>
    obtain ⟨_, hj⟩ := of_moved (P := fun pc => recordOf pc = some r) (by simp [recordOf]) hj
    exact Or.inl ⟨by simp, .held hj hjkey⟩

/-- The row of an object is in the table. -/
theorem Separate.of_insert (hc : Separate storage c) {draft : Draft} {record : FileUpload}
    (hdraft : draftOf (c.proc i) = some draft) (h : RowAdded storage c.shared draft record s') :
    Separate storage (moved c i s' (.inserted record)) := by
  have huser : Uses c draft.storageKey (.inl i) := .draft hdraft rfl
  have hheld : ∀ {j r}, recordOf ((moved c i s' (.inserted record)).proc j) = some r →
      recordOf (c.proc j) = some r := by
    intro j r hj
    exact (of_moved (P := fun pc => recordOf pc = some r) (by simp [recordOf]) hj).2
  constructor
  · exact h.supported
  · intro key who hwho
    change ∃ draw < s'.uuids, Drawn storage draw key
    rw [h.uuids]
    rcases uses_of_rowAdded h hwho with ⟨_, hbefore⟩ | ⟨rfl, _⟩
    · exact hc.drawn key who hbefore
    · exact hc.drawn _ _ huser
  · intro key who who' hwho hwho'
    rcases uses_of_rowAdded h hwho with ⟨hne, hbefore⟩ | ⟨hsame, rfl⟩
    · rcases uses_of_rowAdded h hwho' with ⟨_, hbefore'⟩ | ⟨hsame', _⟩
      · exact hc.one key who who' hbefore hbefore'
      · rw [hsame'] at hbefore
        exact absurd (hc.one _ _ _ hbefore huser) hne
    · rcases uses_of_rowAdded h hwho' with ⟨hne', hbefore'⟩ | ⟨_, rfl⟩
      · rw [hsame] at hbefore'
        exact absurd (hc.one _ _ _ hbefore' huser) hne'
      · rfl
  · intro j r hj
    change r.id < s'.nextFileId
    rw [h.next]
    exact Nat.lt_succ_of_lt (hc.held_lt j r (hheld hj))
  · intro j r hj f hf hsame
    have hlt := hc.held_lt j r (hheld hj)
    rcases h.mem_iff.mp hf with hf | rfl
    · exact hc.held_same j r (hheld hj) f hf hsame
    · rw [← hsame, h.id] at hlt
      exact absurd hlt (lt_irrefl _)

theorem Matched.of_insert (hc : Matched c) (hs : Separate storage c) {draft : Draft}
    {record : FileUpload} (hi : c.proc i = .put draft)
    (h : RowAdded storage c.shared draft record s') :
    Matched (moved c i s' (.inserted record)) := by
  have hremoved : ∀ {j r}, (moved c i s' (.inserted record)).proc j = .removed r ↔
      c.proc j = .removed r := by
    intro j r
    apply moved_iff (P := fun pc => pc = .removed r)
    · simp [hi]
    · simp
  have hunheld : ∀ j, c.proc j ≠ .removed record := by
    intro j hj
    have hlt := hs.held_lt j record (by rw [hj]; rfl)
    rw [h.id] at hlt
    exact lt_irrefl _ hlt
  have hobjects : (moved c i s' (.inserted record)).shared.objects = c.shared.objects := h.objects
  constructor
  · intro f hf hkept
    rw [hobjects]
    rcases h.mem_iff.mp hf with hf | rfl
    · exact hc.rows f hf fun j hj => hkept j (hremoved.mpr hj)
    · refine ⟨draft.object, ?_, h.size.symm⟩
      rw [h.key]
      exact hc.put i draft hi
  · intro key hobject
    rcases hc.objects key (hobjects ▸ hobject) with ⟨f, hf, hfkey, hkept⟩ | ⟨j, draft', hj, hjkey⟩
    · exact Or.inl ⟨f, h.mem_iff.mpr (Or.inl hf), hfkey, fun j hj => hkept j (hremoved.mp hj)⟩
    · by_cases hji : j = i
      · subst hji
        cases hi.symm.trans hj
        exact Or.inl ⟨record, h.mem_iff.mpr (Or.inr rfl), h.key.trans hjkey,
          fun k hk => hunheld k (hremoved.mp hk)⟩
      · exact Or.inr ⟨j, draft', (moved_other hji).trans hj, hjkey⟩
  · intro j draft' hj
    obtain ⟨_, hj⟩ := of_moved (P := fun pc => pc = .put draft') (by simp) hj
    rw [hobjects]
    exact hc.put j draft' hj
  · intro j r hj
    rw [hobjects]
    exact hc.removed j r (hremoved.mp hj)

theorem Sound.insert (hc : Sound storage c) {draft : Draft} {record : FileUpload} {db : Database}
    (hi : c.proc i = .put draft)
    (hinsert : c.shared.db.insertFileUpload (draft.record c.shared) = some (record, db))
    (hkey : record.storageKey = draft.storageKey) :
    Sound storage (moved c i { c.shared.withDb db with nextFileId := c.shared.nextFileId + 1 }
      (.inserted record)) := by
  have hadded := rowAdded_of_insert hc.separate.supported hinsert hkey
  have hdraft : draftOf (c.proc i) = some draft := by
    rw [hi]
    rfl
  exact ⟨hc.separate.of_insert hdraft hadded, hc.matched.of_insert hc.separate hi hadded⟩

/-- The object of a row is gone. -/
theorem Separate.of_remove (hc : Separate storage c) {record : FileUpload}
    (hi : c.proc i = .found record) :
    Separate storage (moved c i (c.shared.deleteObject record.storageKey) (.removed record)) := by
  apply hc.of_less
  · refine { hc.supported with drawn := ?_ }
    intro key hkey
    by_cases hk : key = record.storageKey
    · rw [hk] at hkey
      exact absurd FileServer.deleteObject_self hkey
    · exact hc.supported.drawn key ((FileServer.deleteObject_of_ne hk).symm ▸ hkey)
  · exact Nat.le_refl _
  · exact Nat.le_refl _
  · exact fun f hf => hf
  · intro j draft hj
    exact (of_moved (P := fun pc => draftOf pc = some draft) (by simp [draftOf]) hj).2
  · intro j held hj
    by_cases hji : j = i
    · subst hji
      rw [moved_self] at hj
      cases hj
      left
      rw [hi]
      rfl
    · rw [moved_other hji] at hj
      exact Or.inl hj

theorem Matched.of_remove (hc : Matched c) (hs : Separate storage c) {record : FileUpload}
    (hi : c.proc i = .found record) :
    Matched (moved c i (c.shared.deleteObject record.storageKey) (.removed record)) := by
  have hrecord : recordOf (c.proc i) = some record := by
    rw [hi]
    rfl
  have hput : ∀ {j draft}, (moved c i (c.shared.deleteObject record.storageKey)
      (.removed record)).proc j = .put draft ↔ c.proc j = .put draft := by
    intro j draft
    apply moved_iff (P := fun pc => pc = .put draft)
    · simp [hi]
    · simp
  have hgone : (moved c i (c.shared.deleteObject record.storageKey)
      (.removed record)).shared.objects record.storageKey = none := FileServer.deleteObject_self
  constructor
  · intro f hf hkept
    have hne : f ≠ record := by
      rintro rfl
      exact hkept i moved_self
    have hbefore : ∀ j, c.proc j ≠ .removed f := by
      intro j hj
      have hji : j ≠ i := by
        rintro rfl
        rw [hi] at hj
        cases hj
      exact hkept j ((moved_other hji).trans hj)
    obtain ⟨object, hobject, hlength⟩ := hc.rows f hf hbefore
    refine ⟨object, ?_, hlength⟩
    rw [← hobject]
    exact FileServer.deleteObject_of_ne fun hkey => hne (hs.row_unique hrecord hf hkey)
  · intro key hobject
    have hk : key ≠ record.storageKey := by
      rintro rfl
      exact hobject hgone
    rcases hc.objects key ((FileServer.deleteObject_of_ne hk).symm ▸ hobject) with
      ⟨f, hf, hfkey, hkept⟩ | ⟨j, draft, hj, hjkey⟩
    · refine Or.inl ⟨f, hf, hfkey, ?_⟩
      intro j hj
      by_cases hji : j = i
      · subst hji
        rw [moved_self] at hj
        cases hj
        exact hk hfkey.symm
      · rw [moved_other hji] at hj
        exact hkept j hj
    · exact Or.inr ⟨j, draft, hput.mpr hj, hjkey⟩
  · intro j draft hj
    have hbefore := hput.mp hj
    have hne := hs.draft_ne_row (i := j) (by rw [hbefore]; rfl) (Or.inr ⟨i, hrecord⟩)
    rw [← hc.put j draft hbefore]
    exact FileServer.deleteObject_of_ne hne.symm
  · intro j held hj
    by_cases hk : held.storageKey = record.storageKey
    · rw [hk]
      exact hgone
    · have hji : j ≠ i := by
        rintro rfl
        rw [moved_self] at hj
        cases hj
        exact hk rfl
      rw [moved_other hji] at hj
      rw [← hc.removed j held hj]
      exact FileServer.deleteObject_of_ne hk

theorem Sound.remove (hc : Sound storage c) {record : FileUpload}
    (hi : c.proc i = .found record) :
    Sound storage (moved c i (c.shared.deleteObject record.storageKey) (.removed record)) :=
  ⟨hc.separate.of_remove hi, hc.matched.of_remove hc.separate hi⟩

theorem deleteFileUpload_supported {s : FileServer} (hs : Supported storage s)
    (record : FileUpload) : Supported storage (s.withDb (s.db.deleteFileUpload record.id)) := by
  constructor
  · exact { hs.consistent with }
  · exact Tables.nodup_filter _ hs.ids
  · intro f hf
    exact hs.ids_lt f (Database.mem_deleteFileUpload.mp hf).1
  · intro f hf
    exact hs.owners f (Database.mem_deleteFileUpload.mp hf).1
  · exact hs.drawn

/-- The row is gone after its object. -/
theorem Separate.of_drop (hc : Separate storage c) {record : FileUpload} {reply : FileReply} :
    Separate storage (moved c i (c.shared.withDb (c.shared.db.deleteFileUpload record.id))
      (.finished reply)) := by
  apply hc.of_less
  · exact deleteFileUpload_supported hc.supported record
  · exact Nat.le_refl _
  · exact Nat.le_refl _
  · exact fun f hf => (Database.mem_deleteFileUpload.mp hf).1
  · intro j draft hj
    exact (of_moved (P := fun pc => draftOf pc = some draft) (by simp [draftOf]) hj).2
  · intro j held hj
    exact Or.inl (of_moved (P := fun pc => recordOf pc = some held) (by simp [recordOf]) hj).2

theorem Matched.of_drop (hc : Matched c) (hs : Separate storage c) {record : FileUpload}
    {reply : FileReply} (hi : c.proc i = .removed record) :
    Matched (moved c i (c.shared.withDb (c.shared.db.deleteFileUpload record.id))
      (.finished reply)) := by
  have hrecord : recordOf (c.proc i) = some record := by
    rw [hi]
    rfl
  have hput : ∀ {j draft}, (moved c i (c.shared.withDb (c.shared.db.deleteFileUpload record.id))
      (.finished reply)).proc j = .put draft ↔ c.proc j = .put draft := by
    intro j draft
    apply moved_iff (P := fun pc => pc = .put draft)
    · simp [hi]
    · simp
  have hremoved : ∀ {j r}, (moved c i (c.shared.withDb (c.shared.db.deleteFileUpload record.id))
      (.finished reply)).proc j = .removed r → c.proc j = .removed r := by
    intro j r hj
    exact (of_moved (P := fun pc => pc = .removed r) (by simp) hj).2
  constructor
  · intro f hf hkept
    obtain ⟨hbefore, hne⟩ := Database.mem_deleteFileUpload.mp hf
    apply hc.rows f hbefore
    intro j hj
    by_cases hji : j = i
    · subst hji
      cases hi.symm.trans hj
      exact hne rfl
    · exact hkept j ((moved_other hji).trans hj)
  · intro key hobject
    rcases hc.objects key hobject with ⟨f, hf, hfkey, hkept⟩ | ⟨j, draft, hj, hjkey⟩
    · refine Or.inl ⟨f, Database.mem_deleteFileUpload.mpr ⟨hf, ?_⟩, hfkey,
        fun j hj => hkept j (hremoved hj)⟩
      intro hid
      obtain rfl := hs.held_same i record hrecord f hf hid
      exact hkept i hi
    · exact Or.inr ⟨j, draft, hput.mpr hj, hjkey⟩
  · exact fun j draft hj => hc.put j draft (hput.mp hj)
  · exact fun j r hj => hc.removed j r (hremoved hj)

theorem Sound.drop (hc : Sound storage c) {record : FileUpload} {reply : FileReply}
    (hi : c.proc i = .removed record) :
    Sound storage (moved c i (c.shared.withDb (c.shared.db.deleteFileUpload record.id))
      (.finished reply)) :=
  ⟨hc.separate.of_drop, hc.matched.of_drop hc.separate hi⟩

omit [DecidableEq ι] in
/-- The rest of the API has moved. -/
theorem Sound.around {env : Env} (hc : Sound storage c) (h : Others env c.shared s')
    (hkeeps : ∀ f ∈ c.shared.db.fileUploads, f ∉ s'.db.fileUploads →
      ∃ i, c.proc i = .removed f) : Sound storage ⟨s', c.proc⟩ := by
  obtain ⟨a, reply, hstep, hs'⟩ := h
  have hserver : s'.server = (step env c.shared.server a).2 := (congrArg Prod.snd hstep).symm
  have hsupported : Supported storage s' := by
    rw [hs', hserver]
    exact api_supported hc.separate.supported a
  have hobjects : s'.objects = c.shared.objects := by
    rw [hs']
  have hsub : ∀ f ∈ s'.db.fileUploads, f ∈ c.shared.db.fileUploads := by
    intro f hf
    by_cases ha : a = .cleanup
    · subst ha
      change f ∈ s'.server.db.fileUploads at hf
      rw [hserver] at hf
      exact (mem_cleanup.mp hf).1
    · obtain ⟨_, _, heffect⟩ := (step_effect hstep).effect
      have hsame := (effect_keeps_files heffect ha).1
      exact hsame ▸ hf
  constructor
  · apply hc.separate.of_less
    · exact hsupported
    · rw [hs']
    · rw [hs']
    · exact hsub
    · exact fun _ _ hdraft => hdraft
    · exact fun _ _ hrecord => Or.inl hrecord
  · constructor
    · intro f hf hkept
      change ∃ object, s'.objects f.storageKey = some object ∧ _
      rw [hobjects]
      exact hc.matched.rows f (hsub f hf) hkept
    · intro key hobject
      rcases hc.matched.objects key (hobjects ▸ hobject) with
        ⟨f, hf, hfkey, hkept⟩ | hput
      · refine Or.inl ⟨f, ?_, hfkey, hkept⟩
        by_contra hlost
        obtain ⟨i, hi⟩ := hkeeps f hf hlost
        exact hkept i hi
      · exact Or.inr hput
    · intro i draft hi
      change s'.objects draft.storageKey = _
      rw [hobjects]
      exact hc.matched.put i draft hi
    · intro i record hi
      change s'.objects record.storageKey = none
      rw [hobjects]
      exact hc.matched.removed i record hi

variable {env : Env} {request : ι → FileRequest} {c₀ : Config ι FileServer Pc}
variable {h : List (RaceTransition ι)} {l : Label ι Unit}

theorem currentUserStep_holds (r : FileRequest) (s : FileServer) :
    draftOf (currentUserStep r s) = none ∧ recordOf (currentUserStep r s) = none := by
  unfold currentUserStep
  split <;> exact ⟨rfl, rfl⟩

theorem refreshStep_holds (record : FileUpload) (s : FileServer) :
    draftOf (refreshStep record s) = none ∧ recordOf (refreshStep record s) = none := by
  unfold refreshStep
  split <;> exact ⟨rfl, rfl⟩

theorem sound_request (hc : Sound storage c) (hfresh : FreshHex storage) (r : FileRequest)
    (hkeeps : ∀ draft, c.proc i = .put draft → ∃ record db,
      c.shared.db.insertFileUpload (draft.record c.shared) = some (record, db) ∧
        record.storageKey = draft.storageKey) :
    Sound storage (moved c i (requestStep storage r c.shared (c.proc i)).1
      (requestStep storage r c.shared (c.proc i)).2) := by
  cases hi : c.proc i with
  | start =>
    apply hc.idle
    · rw [hi]
      rfl
    · rw [hi]
      rfl
    · exact (currentUserStep_holds r c.shared).1
    · exact (currentUserStep_holds r c.shared).2
  | current user =>
    have hdraft : draftOf (c.proc i) = none := by
      rw [hi]
      rfl
    have hrecord : recordOf (c.proc i) = none := by
      rw [hi]
      rfl
    cases r with
    | upload credentials category file =>
      simp only [requestStep, prepareStep, draftStep]
      cases validateUpload storage category file with
      | error e => exact hc.idle hdraft hrecord rfl rfl
      | ok accepted =>
        exact hc.draft hfresh hdraft hrecord (uploadKey_drawn storage user accepted c.shared)
    | delete credentials fileId =>
      simp only [requestStep, prepareStep, findStep]
      cases hown : ownFile c.shared user fileId with
      | error e => exact hc.idle hdraft hrecord rfl rfl
      | ok record =>
        cases requireStorageConfigured storage with
        | error e => exact hc.idle hdraft hrecord rfl rfl
        | ok _ => exact hc.find hdraft hrecord (ownFile_ok hown).1
  | drafted draft => exact hc.put hi
  | put draft =>
    obtain ⟨record, db, hinsert, hkey⟩ := hkeeps draft hi
    simp only [requestStep, insertStep, hinsert]
    exact hc.insert hi hinsert hkey
  | inserted record =>
    apply hc.idle
    · rw [hi]
      rfl
    · rw [hi]
      rfl
    · exact (refreshStep_holds record c.shared).1
    · exact (refreshStep_holds record c.shared).2
  | found record => exact hc.remove hi
  | removed record => exact hc.drop hi
  | finished reply =>
    apply hc.idle
    · rw [hi]
      rfl
    · rw [hi]
      rfl
    · rfl
    · rfl

theorem step_sound (hfresh : FreshHex storage) (hc : Sound storage c)
    (hstep : Processes.Step (Computes (act storage request)) (Others env) c l c')
    (hkeeps : KeepsMatch ⟨c, l, c'⟩) : Sound storage c' := by
  cases hstep with
  | @process i _ s' pc' hproc =>
    have hrequest := sound_request hc hfresh (request i) hkeeps
    rw [show requestStep storage (request i) c.shared (c.proc i) = (s', pc') from hproc] at hrequest
    exact hrequest
  | surroundings henv => exact hc.around henv hkeeps

omit [DecidableEq ι] in
theorem start_sound (h₀ : NoFiles c₀.shared) (hstart : ∀ i, c₀.proc i = .start) :
    Sound storage c₀ := by
  have hnone : ∀ key who, ¬ Uses c₀ key who := by
    intro key who hwho
    cases hwho with
    | @draft i _ hdraft _ =>
      rw [hstart i] at hdraft
      cases hdraft
    | stored hmem _ =>
      rw [h₀.fileUploads] at hmem
      cases hmem
    | @held i _ hrecord _ =>
      rw [hstart i] at hrecord
      cases hrecord
  have hheld : ∀ i record, recordOf (c₀.proc i) ≠ some record := by
    intro i record hrecord
    rw [hstart i] at hrecord
    cases hrecord
  constructor
  · constructor
    · refine ⟨h₀.consistent, ?_, ?_, ?_, ?_⟩
      · rw [h₀.fileUploads]
        exact List.nodup_nil
      · simp [h₀.fileUploads]
      · simp [h₀.fileUploads]
      · simp [h₀.objects]
    · exact fun key who hwho => absurd hwho (hnone key who)
    · exact fun key who _ hwho => absurd hwho (hnone key who)
    · exact fun i record hrecord => absurd hrecord (hheld i record)
    · exact fun i record hrecord => absurd hrecord (hheld i record)
  · constructor
    · simp [h₀.fileUploads]
    · simp [h₀.objects]
    · intro i draft hi
      rw [hstart i] at hi
      cases hi
    · intro i record hi
      rw [hstart i] at hi
      cases hi

theorem run_sound (hfresh : FreshHex storage) (h₀ : NoFiles c₀.shared)
    (hstart : ∀ i, c₀.proc i = .start)
    (r : Run (Processes.Step (Computes (act storage request)) (Others env)) c₀ h c)
    (hkeeps : ∀ t ∈ h, KeepsMatch t) : Sound storage c := by
  induction r with
  | start => exact start_sound h₀ hstart
  | snoc r hstep ih =>
    have hbefore := ih fun t ht => hkeeps t (List.mem_append_left _ ht)
    exact step_sound hfresh hbefore hstep (hkeeps _ (List.mem_append_right _ (by simp)))

end Interleavings

def sampleConfig : Config (Fin 3) FileServer Pc := ⟨FileAtomicity.sampleServer, fun _ => .start⟩

end FastApiAuth.FileRaces
