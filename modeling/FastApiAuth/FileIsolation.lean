import FastApiAuth.Files
import FastApiAuth.OffsetWalk
import FastApiAuth.Dependencies

/-!
# Files of other users cannot be told apart

What list_my_files, get_file and delete_file answer to one user depends on that user's
rows and their objects only, and changes nothing else. An id of somebody else's file is
answered like an id without a file.
-/

namespace FastApiAuth.FileIsolation

set_option autoImplicit false

open Runs

/-- How the database orders the user's rows for a listing, given the rows by their id. -/
structure TieOrder (dialect : Dialect) where
  order : User → OffsetPaginationParams → List FileUpload → List FileUpload
  perm : ∀ user params rows, (order user params rows).Perm rows
  sorted : ∀ user params rows,
    (order user params rows).Pairwise (listMyFilesStatement dialect user params).InOrder

inductive OwnerRequest where
  | list (params : OffsetPaginationParams)
  | get (fileId : Int)
  | delete (fileId : Int) (faults : DeleteFaults)

/-- A request, the token it presents and the time at which it comes. -/
structure OwnerCall where
  credentials : Token
  request : OwnerRequest
  instant : Instant

def ownRows (s : FileServer) (user : User) : List FileUpload :=
  sortById FileUpload.id (s.db.fileUploads.filter fun f => f.userId = user.id)

def waitUntil (s : FileServer) (instant : Instant) : FileServer :=
  { s with server := { s.server with now := max s.server.now instant } }

variable (storage : StorageEnv) {dialect : Dialect} (ties : TieOrder dialect)

/-- The rows in the order in which the database sends them to whoever asks. -/
def listingAnswer (s : FileServer) (credentials : Token) (params : OffsetPaginationParams) :
    List FileUpload :=
  match getCurrentUser s.server credentials with
  | .error _ => []
  | .ok user => ties.order user params (ownRows s user)

def serve (s : FileServer) (call : OwnerCall) : FileReply × FileServer :=
  let s := waitUntil s call.instant
  match call.request with
  | .list params =>
    (listFiles dialect call.credentials params (listingAnswer ties s call.credentials params) s, s)
  | .get fileId => (getFile storage call.credentials fileId s, s)
  | .delete fileId faults => deleteFile storage call.credentials fileId faults s

/-- What the constraints of file_uploads enforce. -/
structure UniqueFiles (s : FileServer) : Prop where
  ids : (s.db.fileUploads.map FileUpload.id).Nodup
  storageKeys : (s.db.fileUploads.map FileUpload.storageKey).Nodup

/-- The two states differ in nothing that belongs to `a` or to no user at all. -/
structure AgreeFor (a : User) (s₁ s₂ : FileServer) : Prop where
  now : s₁.server.now = s₂.server.now
  redis : s₁.server.redis = s₂.server.redis
  signed : s₁.server.signed = s₂.server.signed
  user₁ : s₁.db.userByEmail a.email = some a
  user₂ : s₂.db.userByEmail a.email = some a
  rows : ∀ f, f.userId = a.id → (f ∈ s₁.db.fileUploads ↔ f ∈ s₂.db.fileUploads)
  objects : ∀ f ∈ s₁.db.fileUploads, f.userId = a.id →
    s₁.objects f.storageKey = s₂.objects f.storageKey

/-- `s` has the rows of all other users that `s₀` has, and every object that was not
under a key of `a`. -/
structure OthersKept (a : User) (s₀ s : FileServer) : Prop where
  rows : ∀ f, f.userId ≠ a.id → (f ∈ s.db.fileUploads ↔ f ∈ s₀.db.fileUploads)
  own : ∀ f ∈ s.db.fileUploads, f.userId = a.id → f ∈ s₀.db.fileUploads
  objects : ∀ key, (∀ f ∈ s₀.db.fileUploads, f.userId = a.id → f.storageKey ≠ key) →
    s.objects key = s₀.objects key

section Listings

variable {s s₁ s₂ : FileServer} {a user : User} {params : OffsetPaginationParams}

theorem ownFiles_perm (h₁ : UniqueFiles s₁) (h₂ : UniqueFiles s₂) (h : AgreeFor a s₁ s₂) :
    (s₁.db.fileUploads.filter fun f => f.userId = a.id).Perm
      (s₂.db.fileUploads.filter fun f => f.userId = a.id) := by
  refine (List.perm_ext_iff_of_nodup ?_ ?_).mpr fun f => ?_
  · exact h₁.ids.of_map.filter _
  · exact h₂.ids.of_map.filter _
  · by_cases hf : f.userId = a.id
    · simp [hf, h.rows f hf]
    · simp [hf]

theorem ownRows_agree (h₁ : UniqueFiles s₁) (h₂ : UniqueFiles s₂) (h : AgreeFor a s₁ s₂) :
    ownRows s₁ a = ownRows s₂ a := by
  have hids : ((s₂.db.fileUploads.filter fun f => f.userId = a.id).map FileUpload.id).Nodup :=
    Tables.nodup_filter _ h₂.ids
  have hids₁ : ((s₁.db.fileUploads.filter fun f => f.userId = a.id).map FileUpload.id).Nodup :=
    Tables.nodup_filter _ h₁.ids
  refine SortedByKey.eq_of_perm (sortById_ascending hids₁) (sortById_ascending hids) ?_
  exact (sortById_perm _ _).trans ((ownFiles_perm h₁ h₂ h).trans (sortById_perm _ _).symm)

theorem matching_ownFiles (dialect : Dialect) (user : User) (params : OffsetPaginationParams)
    (table : List FileUpload) :
    (listMyFilesStatement dialect user params).matching table =
      table.filter fun f => f.userId = user.id := by
  refine List.filter_congr fun f _ => ?_
  simp [listMyFilesStatement, applySort, Select.accepts, Select.addWhere, beq_eq_decide]

/-- The order chosen is one that SQL allows for the query. -/
theorem order_answers (user : User) (params : OffsetPaginationParams) (s : FileServer) :
    (listMyFilesStatement dialect user params).Answers s.db.fileUploads
      (ties.order user params (ownRows s user)) := by
  refine ⟨?_, ties.sorted _ _ _⟩
  rw [matching_ownFiles]
  exact (ties.perm _ _ _).trans (sortById_perm _ _)

end Listings

section Steps

variable {storage ties}
variable {s s₀ s₁ s₂ : FileServer} {a user : User} {credentials : Token} {fileId : Int}
variable {record : FileUpload} {call : OwnerCall}

theorem getCurrentUser_agree (h : AgreeFor a s₁ s₂) (hsub : credentials.sub = a.email) :
    getCurrentUser s₁.server credentials = getCurrentUser s₂.server credentials := by
  have hdecode : s₁.server.decodeAccessToken credentials =
      s₂.server.decodeAccessToken credentials := by
    unfold Server.decodeAccessToken
    rw [h.signed, h.now]
  unfold getCurrentUser
  rw [hdecode]
  cases hclaims : s₂.server.decodeAccessToken credentials with
  | none => rfl
  | some claims =>
    have hsubject : claims.subject = a.email := by
      obtain ⟨_, _, _, rfl⟩ := decodeToken_eq_some_iff.mp hclaims
      exact hsub
    have huser : s₁.server.db.userByEmail claims.subject =
        s₂.server.db.userByEmail claims.subject := by
      rw [hsubject]
      exact h.user₁.trans h.user₂.symm
    simp only [h.redis, h.now, huser]

theorem currentUser_eq (h : s.db.userByEmail a.email = some a) (hsub : credentials.sub = a.email)
    (huser : getCurrentUser s.server credentials = .ok user) : user = a := by
  obtain ⟨claims, hclaims, _, hrow, _⟩ := getCurrentUser_ok huser
  obtain ⟨_, _, _, rfl⟩ := decodeToken_eq_some_iff.mp hclaims
  rw [hsub] at hrow
  exact Option.some.inj (hrow.symm.trans h)

theorem ownFile_eq_ok_iff (hs : UniqueFiles s) :
    ownFile s a fileId = .ok record ↔
      record ∈ s.db.fileUploads ∧ (record.id : Int) = fileId ∧ record.userId = a.id := by
  refine ⟨ownFile_ok, ?_⟩
  rintro ⟨hmem, rfl, howner⟩
  have hids : (s.db.fileUploads.map fun f => (f.id : Int)).Nodup := by
    rw [show s.db.fileUploads.map (fun f => (f.id : Int)) =
      (s.db.fileUploads.map FileUpload.id).map Int.ofNat from by simp]
    exact hs.ids.map fun _ _ h => Int.ofNat.inj h
  have hfound : s.db.fileById record.id = some record := Tables.lookup_of_mem hids hmem rfl
  unfold ownFile
  rw [hfound]
  exact if_neg (by simp [howner])

theorem ownFile_error {e : HttpException} (h : ownFile s a fileId = .error e) :
    e = fileNotFound := by
  unfold ownFile at h
  split at h
  · cases h
    rfl
  · split at h
    · cases h
      rfl
    · cases h

theorem ownFile_agree (h₁ : UniqueFiles s₁) (h₂ : UniqueFiles s₂) (h : AgreeFor a s₁ s₂) :
    ownFile s₁ a fileId = ownFile s₂ a fileId := by
  cases hfile : ownFile s₁ a fileId with
  | ok record =>
    obtain ⟨hmem, hid, howner⟩ := ownFile_ok hfile
    exact ((ownFile_eq_ok_iff h₂).mpr ⟨(h.rows record howner).mp hmem, hid, howner⟩).symm
  | error e =>
    cases hfile₂ : ownFile s₂ a fileId with
    | ok record =>
      obtain ⟨hmem, hid, howner⟩ := ownFile_ok hfile₂
      have hfound := (ownFile_eq_ok_iff h₁).mpr ⟨(h.rows record howner).mpr hmem, hid, howner⟩
      cases hfile.symm.trans hfound
    | error e₂ => rw [ownFile_error hfile, ownFile_error hfile₂]

theorem listFiles_agree (h₁ : UniqueFiles s₁) (h₂ : UniqueFiles s₂) (h : AgreeFor a s₁ s₂)
    (hsub : credentials.sub = a.email) (params : OffsetPaginationParams) :
    listFiles dialect credentials params (listingAnswer ties s₁ credentials params) s₁ =
      listFiles dialect credentials params (listingAnswer ties s₂ credentials params) s₂ := by
  have hcurrent := getCurrentUser_agree h hsub
  unfold listFiles listMyFiles listingAnswer
  rw [hcurrent]
  cases huser : getCurrentUser s₂.server credentials with
  | error e => rfl
  | ok user =>
    obtain rfl := currentUser_eq h.user₂ hsub huser
    have htotal : ((listMyFilesStatement dialect user params).matching
        s₁.server.db.fileUploads).length = ((listMyFilesStatement dialect user params).matching
        s₂.server.db.fileUploads).length := by
      rw [matching_ownFiles, matching_ownFiles]
      exact (ownFiles_perm h₁ h₂ h).length_eq
    simp only [paginateOffset, ownRows_agree h₁ h₂ h, htotal]

theorem getFile_agree (h₁ : UniqueFiles s₁) (h₂ : UniqueFiles s₂) (h : AgreeFor a s₁ s₂)
    (hsub : credentials.sub = a.email) (fileId : Int) :
    getFile storage credentials fileId s₁ = getFile storage credentials fileId s₂ := by
  unfold getFile
  rw [getCurrentUser_agree h hsub, h.now]
  cases huser : getCurrentUser s₂.server credentials with
  | error e => rfl
  | ok user =>
    obtain rfl := currentUser_eq h.user₂ hsub huser
    simp only [ownFile_agree h₁ h₂ h]

section Deletions

variable {faults : DeleteFaults} {s' : FileServer}

/-- What `removeFile` may leave: some of the object and the row of the record are gone. -/
inductive RemoveCase (record : FileUpload) (s : FileServer) : FileServer → Prop where
  | kept : RemoveCase record s s
  | object : RemoveCase record s (FileServer.deleteObject record.storageKey s)
  | both : RemoveCase record s ((FileServer.deleteObject record.storageKey s).withDb
      (s.db.deleteFileUpload record.id))

theorem removeFile_case (record : FileUpload) (faults : DeleteFaults) (s : FileServer) :
    RemoveCase record s (removeFile record faults s).2 := by
  unfold removeFile
  cases faults.delete with
  | raises => exact .kept
  | raisesLate => exact .object
  | succeeds =>
    cases faults.commit with
    | raises => exact .object
    | raisesLate | succeeds => exact .both

theorem deleteFile_removes (hsub : credentials.sub = a.email)
    (huser : s.db.userByEmail a.email = some a) :
    (deleteFile storage credentials fileId faults s).2 = s ∨
      ∃ record ∈ s.db.fileUploads, record.userId = a.id ∧
        RemoveCase record s (deleteFile storage credentials fileId faults s).2 := by
  unfold deleteFile
  split
  · exact .inl rfl
  split
  · exact .inl rfl
  rename_i user hcurrent
  obtain rfl := currentUser_eq huser hsub hcurrent
  split
  · exact .inl rfl
  rename_i record hown
  split
  · exact .inl rfl
  · obtain ⟨hmem, _, howner⟩ := ownFile_ok hown
    exact .inr ⟨record, hmem, howner, removeFile_case record faults s⟩

theorem RemoveCase.unique (hcase : RemoveCase record s s') (hs : UniqueFiles s) :
    UniqueFiles s' := by
  cases hcase with
  | kept => exact hs
  | object => exact ⟨hs.ids, hs.storageKeys⟩
  | both => exact ⟨Tables.nodup_filter _ hs.ids, Tables.nodup_filter _ hs.storageKeys⟩

theorem OthersKept.refl (a : User) (s : FileServer) : OthersKept a s s :=
  ⟨fun _ _ => .rfl, fun _ hf _ => hf, fun _ _ => rfl⟩

/-- Keys are unique, so the objects of other users' files are among those kept. -/
theorem OthersKept.object {f : FileUpload} (hkept : OthersKept a s₀ s) (hs : UniqueFiles s₀)
    (hf : f ∈ s₀.db.fileUploads) (howner : f.userId ≠ a.id) :
    s.objects f.storageKey = s₀.objects f.storageKey := by
  refine hkept.objects f.storageKey fun g hg hgowner hkey => howner ?_
  rwa [← List.inj_on_of_nodup_map hs.storageKeys hg hf hkey]

/-- Removing one of the user's own records. -/
theorem RemoveCase.othersKept (hcase : RemoveCase record s s') (hs : UniqueFiles s)
    (hkept : OthersKept a s₀ s) (hmem : record ∈ s.db.fileUploads) (howner : record.userId = a.id) :
    OthersKept a s₀ s' := by
  have hobjects : ∀ key, (∀ f ∈ s₀.db.fileUploads, f.userId = a.id → f.storageKey ≠ key) →
      (FileServer.deleteObject record.storageKey s).objects key = s₀.objects key := by
    intro key hkey
    have hne : key ≠ record.storageKey := (hkey record (hkept.own record hmem howner) howner).symm
    exact (if_neg hne).trans (hkept.objects key hkey)
  cases hcase with
  | kept => exact hkept
  | object => exact ⟨hkept.rows, hkept.own, hobjects⟩
  | both =>
    refine ⟨fun f hf => ?_, fun f hf => hkept.own f (Database.mem_deleteFileUpload.mp hf).1,
      hobjects⟩
    refine Iff.trans ⟨fun h => (Database.mem_deleteFileUpload.mp h).1,
      fun h => Database.mem_deleteFileUpload.mpr ⟨h, ?_⟩⟩
      (hkept.rows f hf)
    intro hid
    rw [List.inj_on_of_nodup_map hs.ids h hmem hid] at hf
    exact hf howner

theorem AgreeFor.deleteObject (h : AgreeFor a s₁ s₂) (key : String) :
    AgreeFor a (FileServer.deleteObject key s₁) (FileServer.deleteObject key s₂) := by
  refine { h with objects := fun f hf howner => ?_ }
  change (if f.storageKey = key then none else s₁.objects f.storageKey) =
    if f.storageKey = key then none else s₂.objects f.storageKey
  rw [h.objects f hf howner]

theorem AgreeFor.deleteRow (h : AgreeFor a s₁ s₂) (record : FileUpload) :
    AgreeFor a (s₁.withDb (s₁.db.deleteFileUpload record.id))
      (s₂.withDb (s₂.db.deleteFileUpload record.id)) := by
  refine { h with rows := fun f howner => ?_, objects := fun f hf howner => ?_ }
  · refine Database.mem_deleteFileUpload.trans (Iff.trans ?_ Database.mem_deleteFileUpload.symm)
    rw [h.rows f howner]
  · exact h.objects f (Database.mem_deleteFileUpload.mp hf).1 howner

theorem removeFile_agree (h : AgreeFor a s₁ s₂) (record : FileUpload) (faults : DeleteFaults) :
    (removeFile record faults s₁).1 = (removeFile record faults s₂).1 ∧
      AgreeFor a (removeFile record faults s₁).2 (removeFile record faults s₂).2 := by
  have hobject := h.deleteObject record.storageKey
  unfold removeFile
  cases faults.delete with
  | raises => exact ⟨rfl, h⟩
  | raisesLate => exact ⟨rfl, hobject⟩
  | succeeds =>
    cases faults.commit with
    | raises => exact ⟨rfl, hobject⟩
    | raisesLate | succeeds => exact ⟨rfl, hobject.deleteRow record⟩

theorem deleteFile_agree (h₁ : UniqueFiles s₁) (h₂ : UniqueFiles s₂) (h : AgreeFor a s₁ s₂)
    (hsub : credentials.sub = a.email) (fileId : Int) (faults : DeleteFaults) :
    (deleteFile storage credentials fileId faults s₁).1 =
        (deleteFile storage credentials fileId faults s₂).1 ∧
      AgreeFor a (deleteFile storage credentials fileId faults s₁).2
        (deleteFile storage credentials fileId faults s₂).2 := by
  unfold deleteFile
  rw [getCurrentUser_agree h hsub]
  cases faults.reads with
  | false => exact ⟨rfl, h⟩
  | true =>
    cases huser : getCurrentUser s₂.server credentials with
    | error e => exact ⟨rfl, h⟩
    | ok user =>
      obtain rfl := currentUser_eq h.user₂ hsub huser
      simp only [ownFile_agree h₁ h₂ h]
      cases ownFile s₂ user fileId with
      | error e => exact ⟨rfl, h⟩
      | ok record =>
        cases requireStorageConfigured storage with
        | error e => exact ⟨rfl, h⟩
        | ok _ => exact removeFile_agree h record faults

end Deletions

/-- The token names the user. -/
def ByOwner (a : User) (call : OwnerCall) : Prop := call.credentials.sub = a.email

theorem AgreeFor.waitUntil (h : AgreeFor a s₁ s₂) (instant : Instant) :
    AgreeFor a (waitUntil s₁ instant) (waitUntil s₂ instant) := by
  refine { h with now := ?_ }
  change max s₁.server.now instant = max s₂.server.now instant
  rw [h.now]

theorem serve_agree (h₁ : UniqueFiles s₁) (h₂ : UniqueFiles s₂) (h : AgreeFor a s₁ s₂)
    (hcall : ByOwner a call) :
    (serve storage ties s₁ call).1 = (serve storage ties s₂ call).1 ∧
      AgreeFor a (serve storage ties s₁ call).2 (serve storage ties s₂ call).2 := by
  have hwait := h.waitUntil call.instant
  have hwait₁ : UniqueFiles (waitUntil s₁ call.instant) := ⟨h₁.ids, h₁.storageKeys⟩
  have hwait₂ : UniqueFiles (waitUntil s₂ call.instant) := ⟨h₂.ids, h₂.storageKeys⟩
  unfold serve
  cases call.request with
  | list params => exact ⟨listFiles_agree hwait₁ hwait₂ hwait hcall params, hwait⟩
  | get fileId => exact ⟨getFile_agree hwait₁ hwait₂ hwait hcall fileId, hwait⟩
  | delete fileId faults => exact deleteFile_agree hwait₁ hwait₂ hwait hcall fileId faults

/-- What a sequence of requests keeps of the state that it began with. -/
structure Served (a : User) (s₀ s : FileServer) : Prop where
  unique : UniqueFiles s
  user : s.db.userByEmail a.email = some a
  kept : OthersKept a s₀ s

theorem Served.of_removed {s' : FileServer} (hs : Served a s₀ s)
    (h : s' = s ∨ ∃ record ∈ s.db.fileUploads, record.userId = a.id ∧ RemoveCase record s s') :
    Served a s₀ s' := by
  rcases h with rfl | ⟨record, hmem, howner, hcase⟩
  · exact hs
  · refine ⟨hcase.unique hs.unique, ?_, hcase.othersKept hs.unique hs.kept hmem howner⟩
    cases hcase <;> exact hs.user

theorem serve_served (storage : StorageEnv) (ties : TieOrder dialect) (hs : Served a s₀ s)
    (hcall : ByOwner a call) :
    Served a s₀ (serve storage ties s call).2 := by
  have hwait : Served a s₀ (waitUntil s call.instant) :=
    ⟨⟨hs.unique.ids, hs.unique.storageKeys⟩, hs.user, ⟨hs.kept.rows, hs.kept.own, hs.kept.objects⟩⟩
  unfold serve
  cases call.request with
  | list params => exact hwait
  | get fileId => exact hwait
  | delete fileId faults => exact hwait.of_removed (deleteFile_removes hcall hwait.user)

end Steps

/-- Two states that differ in what belongs to other users only give the same answers to
every sequence of one user's requests, and both keep what belongs to others. -/
theorem owner_isolation (storage : StorageEnv) {dialect : Dialect} (ties : TieOrder dialect)
    {a : User} {s₁ s₂ : FileServer} {calls : List OwnerCall}
    (hcalls : ∀ call ∈ calls, ByOwner a call)
    (h₁ : UniqueFiles s₁) (h₂ : UniqueFiles s₂) (h : AgreeFor a s₁ s₂) :
    (trace (serve storage ties) s₁ calls).map Transition.label =
        (trace (serve storage ties) s₂ calls).map Transition.label ∧
      OthersKept a s₁ (exec (serve storage ties) s₁ calls) ∧
      OthersKept a s₂ (exec (serve storage ties) s₂ calls) := by
  have hserved : ∀ s, UniqueFiles s → s.db.userByEmail a.email = some a →
      Served a s (exec (serve storage ties) s calls) := by
    intro s hs huser
    refine exec_keeps (I := Served a s) (P := ByOwner a) ?_ hcalls ⟨hs, huser, .refl a s⟩
    exact fun s call hcall hserved => serve_served storage ties hserved hcall
  refine ⟨?_, (hserved s₁ h₁ h.user₁).kept, (hserved s₂ h₂ h.user₂).kept⟩
  refine trace_agree (P := ByOwner a)
    (R := fun s₁ s₂ => AgreeFor a s₁ s₂ ∧ Served a s₁ s₁ ∧ Served a s₂ s₂) ?_ hcalls
    ⟨h, ⟨h₁, h.user₁, .refl a s₁⟩, ⟨h₂, h.user₂, .refl a s₂⟩⟩
  rintro s₁ s₂ call hcall ⟨hagree, hs₁, hs₂⟩
  obtain ⟨hanswer, hnext⟩ := serve_agree hs₁.unique hs₂.unique hagree hcall
  have hnext₁ := serve_served storage ties hs₁ hcall
  have hnext₂ := serve_served storage ties hs₂ hcall
  exact ⟨hanswer, hnext, ⟨hnext₁.unique, hnext₁.user, .refl a _⟩,
    ⟨hnext₂.unique, hnext₂.user, .refl a _⟩⟩

/-- Rows with equal keys by their id. -/
def idOrder (dialect : Dialect) : TieOrder dialect where
  order := fun user params rows =>
    rows.mergeSort fun f g => (listMyFilesStatement dialect user params).InOrder f g
  perm := fun _ _ _ => List.mergeSort_perm _ _
  sorted := fun user params rows =>
    (OffsetWalk.inOrder_preorder (listMyFilesStatement dialect user params)).pairwise_mergeSort rows

def owner : User := ⟨1, "a@example.com", none, true, true, 0⟩

def ownerToken : Token := ⟨"a@example.com", "access", "uuid0", 0, 1800⟩

def ownerFile : FileUpload := ⟨1, 1, "a.gif", "image/gif", "image", 6, "image/1/00_a.gif", 0⟩

def foreignFile : FileUpload := ⟨2, 2, "b.gif", "image/gif", "image", 6, "image/2/01_b.gif", 0⟩

/-- The owner has one file; `others` are files of somebody else. -/
def twoOwners (others : List FileUpload) : FileServer where
  server :=
    { freshServer 0 with
      db := { Database.empty with
        users := [owner, ⟨2, "b@example.com", none, true, true, 0⟩]
        fileUploads := ownerFile :: others, nextUserId := 3 }
      issued := [⟨ownerToken, 1⟩], draws := 1 }
  objects := fun key =>
    if key ∈ (ownerFile :: others).map FileUpload.storageKey then
      some ⟨bytesOf "GIF89a", "image/gif"⟩
    else none
  nextFileId := 3
  uuids := 2

/-- Look for the other file, delete it, then list and delete one's own. -/
def probing : List OwnerCall :=
  [⟨ownerToken, .get 2, 0⟩, ⟨ownerToken, .delete 2 {}, 1⟩,
    ⟨ownerToken, .list ⟨20, 0, none, .asc, none, by decide, by decide⟩, 2⟩,
    ⟨ownerToken, .delete 1 {}, 3⟩]

theorem owner_isolation_sample :
    (trace (serve sampleStorage (idOrder binaryDialect)) (twoOwners [foreignFile]) probing).map
        Transition.label =
        (trace (serve sampleStorage (idOrder binaryDialect)) (twoOwners []) probing).map
          Transition.label ∧
      OthersKept owner (twoOwners [foreignFile])
        (exec (serve sampleStorage (idOrder binaryDialect)) (twoOwners [foreignFile]) probing) ∧
      OthersKept owner (twoOwners [])
        (exec (serve sampleStorage (idOrder binaryDialect)) (twoOwners []) probing) := by
  refine owner_isolation sampleStorage (idOrder binaryDialect) ?_ ⟨by decide, by decide⟩
    ⟨by decide, by decide⟩ ⟨rfl, rfl, rfl, by decide, by decide, ?_, ?_⟩
  · unfold probing ByOwner
    decide
  · intro f hf
    constructor
    · intro hmem
      rcases List.mem_pair.mp hmem with rfl | rfl
      · exact List.mem_singleton_self _
      · cases hf
    · intro hmem
      rw [List.mem_singleton.mp hmem]
      exact List.mem_cons_self
  · intro f hmem hf
    rcases List.mem_pair.mp hmem with rfl | rfl
    · rfl
    · cases hf

end FastApiAuth.FileIsolation
