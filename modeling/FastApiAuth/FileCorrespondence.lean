import FastApiAuth.Files
import FastApiAuth.Effects
import FastApiAuth.Library.Separators
import Mathlib.Data.Set.Function

/-!
# Rows and objects

With every call going well, the rows of file_uploads and the objects of the bucket
correspond, except after two kinds of step: the scheduled cleanup deletes a user with
files, whose rows go with the user while nothing deletes the objects; and an upload puts
an object whose row the columns of the table do not take as it is.
-/

namespace FastApiAuth.FileCorrespondence

set_option autoImplicit false

open Runs Database

/-- The row was answered to an upload of these bytes that passed the checks. -/
def UploadedIn (storage : StorageEnv) (h : List FileTransition) (f : FileUpload) (bytes : Bytes) :
    Prop :=
  ∃ t ∈ h, ∃ credentials category file accepted,
    t.label = (.upload credentials category file, .file (.ok (.fileUploadResponse f.response))) ∧
      validateUpload storage category file = .ok accepted ∧ file.content = bytes

/-- The rows and the objects correspond one to one, and each object is what was uploaded. -/
structure Corresponds (storage : StorageEnv) (h : List FileTransition) (s : FileServer) :
    Prop where
  bijection : Set.BijOn FileUpload.storageKey {f | f ∈ s.db.fileUploads}
    {key | s.objects key ≠ none}
  contents : ∀ f ∈ s.db.fileUploads, ∀ object, s.objects f.storageKey = some object →
    object.bytes.length = f.sizeBytes ∧ UploadedIn storage h f object.bytes

/-- The columns hold the row, and its key unshortened. -/
def FitsColumns (row : FileUpload) : Prop :=
  ∃ record, row.fitted = some record ∧ record.storageKey = row.storageKey

/-- The step deletes no user with files and puts no object whose row does not fit. -/
def KeepsPairs (storage : StorageEnv) (t : FileTransition) : Prop :=
  match t.label.1 with
  | .api .cleanup => ∀ f ∈ t.source.db.fileUploads, ∀ u ∈ t.source.db.users,
      u.id = f.userId → staleAt t.source.server.now u = false
  | .upload credentials category file => ∀ currentUser accepted,
      getCurrentUser t.source.server credentials = .ok currentUser →
      validateUpload storage category file = .ok accepted →
      FitsColumns (uploadRecord storage currentUser category file accepted t.source)
  | _ => True

/-- A deployment before its first request, with no files. -/
structure InitialFiles (s : FileServer) : Prop where
  server : Initial s.server
  fileUploads : s.db.fileUploads = []
  objects : s.objects = fun _ => none

/-- `uuid4().hex`: no value comes twice, and there are only hex digits in it. -/
structure FreshHex (storage : StorageEnv) : Prop where
  injective : Function.Injective storage.uuidHex
  digits : ∀ draw, '_' ∉ (storage.uuidHex draw).toList

section Keys

/-- A key tells which hex digits it was made with. -/
theorem buildObjectKey_hex {hex hex' category category' filename filename' : String}
    {userId userId' : Nat} (hcategory : '/' ∉ category.toList)
    (hcategory' : '/' ∉ category'.toList) (hhex : '_' ∉ hex.toList) (hhex' : '_' ∉ hex'.toList)
    (h : buildObjectKey hex userId category filename =
      buildObjectKey hex' userId' category' filename') : hex = hex' := by
  have hlist := congrArg String.toList h
  simp only [buildObjectKey, String.toList_append, List.append_assoc] at hlist
  obtain ⟨_, huser⟩ := Separators.append_sep_inj hcategory hcategory' hlist
  obtain ⟨_, hrest⟩ :=
    Separators.append_sep_inj (PyInt.not_mem_str rfl) (PyInt.not_mem_str rfl) huser
  exact String.toList_inj.mp (Separators.append_sep_inj hhex hhex' hrest).1

theorem not_mem_category {c : UploadCategory} {d : Char} (hd : d = '/' ∨ d = '\\')
    (hc : c ∈ categories) : d ∉ c.name.toList := by
  have hall : ∀ c ∈ categories, '/' ∉ c.name.toList ∧ '\\' ∉ c.name.toList := by decide +kernel
  rcases hd with rfl | rfl
  · exact (hall c hc).1
  · exact (hall c hc).2

end Keys

section OtherTables

/-- Apart from the cleanup, nothing outside these routes deletes a user or touches a file. -/
theorem effect_keeps_files {env : Env} {s : Server} {a : Action} {db : Database}
    {new : List Issued} (h : Effect env s a db new) (ha : a ≠ .cleanup) :
    db.fileUploads = s.db.fileUploads ∧ ∀ u ∈ s.db.users, ∃ v ∈ db.users, v.id = u.id := by
  cases h with
  | quiet | session _ _ | resetMinted _ _ _ _ | unlinked _ _ _ | roleAssigned _ _ _ _
  | roleRevoked _ _ | grantedBySql _ _ => exact ⟨rfl, fun u hu => ⟨u, hu, rfl⟩⟩
  | registered _ _ _ hins _ _ =>
    obtain ⟨_, _, rfl⟩ := insertUser_some hins
    exact ⟨rfl, fun u hu => ⟨u, List.mem_append_left _ hu, rfl⟩⟩
  | signedUp _ _ hins hlink _ =>
    obtain ⟨_, _, rfl⟩ := insertUser_some hins
    obtain ⟨_, _, rfl⟩ := insertLink_some hlink
    exact ⟨rfl, fun u hu => ⟨u, List.mem_append_left _ hu, rfl⟩⟩
  | autoLinked _ _ _ hlink _ | linked _ _ hlink _ =>
    obtain ⟨_, _, rfl⟩ := insertLink_some hlink
    exact ⟨rfl, fun u hu => ⟨u, hu, rfl⟩⟩
  | verified _ _ _ _ _ | passwordReset _ _ _ _ _ _ | passwordChanged _ _ _ _ | deactivated _
  | statusUpdated _ _ => exact ⟨rfl, fun _ hu => exists_amendUser_of_mem _ (fun _ => rfl) hu⟩
  | emailChanged _ _ hdb =>
    obtain ⟨_, rfl⟩ := changeEmail_some hdb
    exact ⟨rfl, fun _ hu => exists_amendUser_of_mem _ (fun _ => rfl) hu⟩
  | cleaned => exact absurd rfl ha

end OtherTables

section AnyCase

/-- A key made with one of the values drawn. -/
def Drawn (storage : StorageEnv) (draw : Nat) (key : String) : Prop :=
  ∃ userId category filename, '/' ∉ category.toList ∧
    key = buildObjectKey (storage.uuidHex draw) userId category filename

structure Supported (storage : StorageEnv) (s : FileServer) : Prop where
  consistent : s.db.Consistent
  ids : (s.db.fileUploads.map FileUpload.id).Nodup
  ids_lt : ∀ f ∈ s.db.fileUploads, f.id < s.nextFileId
  owners : ∀ f ∈ s.db.fileUploads, ∃ u ∈ s.db.users, u.id = f.userId
  drawn : ∀ key, s.objects key ≠ none → ∃ draw < s.uuids, Drawn storage draw key

end AnyCase

section Steps

variable {env : Env} {storage : StorageEnv} {dialect : Dialect} {s s₀ s' : FileServer}
variable {credentials : Token} {category key : String} {file : UploadFile} {outcome : FileOutcome}
variable {accepted : AcceptedUpload category file} {currentUser : User} {record : FileUpload}
variable {l : FileAction × FileAnswer} {h : List FileTransition} {t : FileTransition}

theorem uploadKey_drawn (storage : StorageEnv) (currentUser : User)
    (accepted : AcceptedUpload category file) (s : FileServer) :
    Drawn storage s.uuids (uploadKey storage currentUser category file s) := by
  obtain ⟨c, hc, rfl⟩ := accepted.known
  exact ⟨currentUser.id, c.name, file.name, not_mem_category (Or.inl rfl) hc, rfl⟩

theorem Drawn.unique (hfresh : FreshHex storage) {draw draw' : Nat} (hd : Drawn storage draw key)
    (hd' : Drawn storage draw' key) : draw = draw' := by
  obtain ⟨_, _, _, hslash, rfl⟩ := hd
  obtain ⟨_, _, _, hslash', hkey⟩ := hd'
  exact hfresh.injective
    (buildObjectKey_hex hslash hslash' (hfresh.digits _) (hfresh.digits _) hkey)

/-- No object is under the key of a new upload. -/
theorem Supported.key_free (hs : Supported storage s) (hfresh : FreshHex storage)
    (currentUser : User) (accepted : AcceptedUpload category file) :
    s.objects (uploadKey storage currentUser category file s) = none := by
  by_contra hthere
  obtain ⟨draw, hlt, hdrawn⟩ := hs.drawn _ hthere
  have heq := hdrawn.unique hfresh (uploadKey_drawn storage currentUser accepted s)
  omega

theorem afterPut_objects_ne_none :
    (afterPut storage currentUser category file accepted s).objects key ≠ none ↔
      key = uploadKey storage currentUser category file s ∨ s.objects key ≠ none := by
  simp only [afterPut, FileServer.putObject]
  by_cases hkey : key = uploadKey storage currentUser category file s <;> simp [hkey]

theorem afterPut_drawn (hs : Supported storage s)
    (hkey : (afterPut storage currentUser category file accepted s).objects key ≠ none) :
    ∃ draw < s.uuids + 1, Drawn storage draw key := by
  rcases afterPut_objects_ne_none.mp hkey with rfl | hold
  · exact ⟨s.uuids, Nat.lt_succ_self _, uploadKey_drawn storage currentUser accepted s⟩
  · obtain ⟨draw, hlt, hdrawn⟩ := hs.drawn key hold
    exact ⟨draw, Nat.lt_succ_of_lt hlt, hdrawn⟩

theorem upload_supported (hs : Supported storage s)
    (hcase : UploadCase storage credentials category file s outcome) :
    Supported storage outcome.2 := by
  cases hcase with
  | refused _ => exact hs
  | stranded _ _ _ => exact { hs with drawn := fun key hkey => afterPut_drawn hs hkey }
  | stored huser _ hinsert =>
    obtain ⟨hfitted, _, howner, rfl⟩ := insertFileUpload_some hinsert
    obtain ⟨hid, _, _, _⟩ := fitted_some hfitted
    have hnew : ∀ f ∈ s.db.fileUploads, f.id ≠ s.nextFileId := fun f hf =>
      (hs.ids_lt f hf).ne
    refine ⟨{ hs.consistent with }, ?_, ?_, ?_, fun key hkey => afterPut_drawn hs hkey⟩
    · exact Tables.nodup_append_fresh hs.ids fun f hf => hid ▸ hnew f hf
    · intro f hf
      rcases List.mem_append.mp hf with hf | hf
      · exact Nat.lt_succ_of_lt (hs.ids_lt f hf)
      · rw [List.mem_singleton.mp hf, hid]
        exact Nat.lt_succ_self _
    · intro f hf
      rcases List.mem_append.mp hf with hf | hf
      · exact hs.owners f hf
      · rw [List.mem_singleton.mp hf]
        exact howner

theorem delete_supported (hs : Supported storage s) (hcase : DeleteCase s outcome) :
    Supported storage outcome.2 := by
  cases hcase with
  | refused => exact hs
  | @deleted record _ =>
    refine ⟨{ hs.consistent with }, Tables.nodup_filter _ hs.ids, ?_, ?_, ?_⟩
    · exact fun f hf => hs.ids_lt f (Database.mem_deleteFileUpload.mp hf).1
    · exact fun f hf => hs.owners f (Database.mem_deleteFileUpload.mp hf).1
    · intro key hkey
      refine hs.drawn key fun hnone => hkey ?_
      change (if key = record.storageKey then none else s.objects key) = none
      rw [hnone, ite_self]

theorem mem_cleanup {f : FileUpload} {server : Server} :
    f ∈ (cleanupUnverifiedUsers server).db.fileUploads ↔
      f ∈ server.db.fileUploads ∧ ∃ u ∈ server.db.users, staleAt server.now u = false ∧
        u.id = f.userId := by
  simp [cleanupUnverifiedUsers, deleteUsers]

theorem api_supported (hs : Supported storage s) (a : Action) :
    Supported storage { s with server := (step env s.server a).2 } := by
  have hstep : Step env s.server (a, (step env s.server a).1) (step env s.server a).2 := rfl
  have hconsistent := step_consistent hs.consistent hstep
  by_cases ha : a = .cleanup
  · subst ha
    refine ⟨hconsistent, Tables.nodup_filter _ hs.ids, ?_, ?_, hs.drawn⟩
    · exact fun f hf => hs.ids_lt f (mem_cleanup.mp hf).1
    · intro f hf
      obtain ⟨_, u, hu, hfresh, hid⟩ := mem_cleanup.mp hf
      exact ⟨u, mem_deleteUsers.mpr ⟨hu, hfresh⟩, hid⟩
  · obtain ⟨_, _, heffect⟩ := (step_effect hstep).effect
    obtain ⟨hfiles, husers⟩ := effect_keeps_files heffect ha
    refine ⟨hconsistent, ?_, ?_, ?_, hs.drawn⟩
    · exact (congrArg (fun rows => (rows.map FileUpload.id).Nodup) hfiles).mpr hs.ids
    · exact fun f hf => hs.ids_lt f (hfiles ▸ hf)
    · intro f hf
      obtain ⟨u, hu, hid⟩ := hs.owners f (hfiles ▸ hf)
      obtain ⟨v, hv, hvu⟩ := husers u hu
      exact ⟨v, hv, hvu.trans hid⟩

theorem step_supported (hs : Supported storage s)
    (hstep : StepOf (fileStep env storage dialect) s l s') : Supported storage s' := by
  obtain ⟨action, answer⟩ := l
  rw [show s' = (fileStep env storage dialect s action).2 from (congrArg Prod.snd hstep).symm]
  cases action with
  | api a => exact api_supported hs a
  | upload credentials category file =>
    exact upload_supported hs (uploadFile_case storage credentials category file s)
  | list credentials params answer => exact hs
  | get credentials fileId => exact hs
  | delete credentials fileId =>
    exact delete_supported hs (deleteFile_case storage credentials fileId s)

theorem run_supported (h₀ : InitialFiles s₀) (r : FileRun env storage dialect s₀ h s) :
    Supported storage s := by
  refine r.invariant ?_ step_supported
  refine ⟨h₀.server.consistent, ?_, ?_, ?_, ?_⟩
  · rw [h₀.fileUploads]
    exact List.nodup_nil
  · simp [h₀.fileUploads]
  · simp [h₀.fileUploads]
  · simp [h₀.objects]

theorem UploadedIn.snoc {f : FileUpload} {bytes : Bytes} (hu : UploadedIn storage h f bytes)
    (t : FileTransition) : UploadedIn storage (h ++ [t]) f bytes := by
  obtain ⟨t', ht', hupload⟩ := hu
  exact ⟨t', List.mem_append_left _ ht', hupload⟩

/-- A step that touches neither rows nor objects. -/
theorem Corresponds.of_same (hc : Corresponds storage h s) (t : FileTransition)
    (hrows : s'.db.fileUploads = s.db.fileUploads) (hobjects : s'.objects = s.objects) :
    Corresponds storage (h ++ [t]) s' := by
  obtain ⟨hbijection, hcontents⟩ := hc
  rw [← hrows, ← hobjects] at hbijection
  refine ⟨hbijection, fun f hf object hobject => ?_⟩
  rw [hrows] at hf
  rw [hobjects] at hobject
  exact ⟨(hcontents f hf object hobject).1, (hcontents f hf object hobject).2.snoc t⟩

/-- The cleanup leaves the objects of the rows that it takes away. -/
theorem cleanup_iff (hs : Supported storage s) (hc : Corresponds storage h s)
    (hsource : t.source = s) (hlabel : t.label.1 = .api .cleanup)
    (hrows : s'.db = (cleanupUnverifiedUsers s.server).db) (hobjects : s'.objects = s.objects) :
    Corresponds storage (h ++ [t]) s' ↔ KeepsPairs storage t := by
  unfold KeepsPairs
  rw [hlabel, hsource]
  constructor
  · intro hc' f hf u hu hid
    have hthere : s'.objects f.storageKey ≠ none := by
      rw [hobjects]
      exact hc.bijection.mapsTo hf
    obtain ⟨g, hg, hkey⟩ := hc'.bijection.surjOn hthere
    rw [Set.mem_ofPred_eq, hrows] at hg
    obtain ⟨hgold, v, hv, hstale, hvid⟩ := mem_cleanup.mp hg
    obtain rfl := hc.bijection.injOn hgold hf hkey
    rw [hs.consistent.eq_of_id hu hv (hid.trans hvid.symm)]
    exact hstale
  · intro hkeeps
    refine hc.of_same t ?_ hobjects
    rw [hrows]
    refine List.filter_eq_self.mpr fun f hf => ?_
    obtain ⟨u, hu, hid⟩ := hs.owners f hf
    have hmem : u ∈ (s.server.db.deleteUsers (staleAt s.server.now)).users :=
      mem_deleteUsers.mpr ⟨hu, hkeeps f hf u hu hid⟩
    exact List.any_eq_true.mpr ⟨u, hmem, by simpa using hid⟩

/-- An upload adds a pair exactly when the row carries the key of the object. -/
theorem stored_iff {db : Database} (hfree : s.objects
      (uploadKey storage currentUser category file s) = none)
    (hc : Corresponds storage h s) (haccepted : validateUpload storage category file = .ok accepted)
    (hinsert : s.db.insertFileUpload (uploadRecord storage currentUser category file accepted s) =
      some (record, db))
    (hlabel : t.label =
      (.upload credentials category file, .file (.ok (.fileUploadResponse record.response))))
    (hrows : s'.db = db)
    (hobjects : s'.objects = (afterPut storage currentUser category file accepted s).objects) :
    Corresponds storage (h ++ [t]) s' ↔
      record.storageKey = uploadKey storage currentUser category file s := by
  obtain ⟨hfitted, hunused, _, rfl⟩ := insertFileUpload_some hinsert
  have hmem : ∀ f, f ∈ s'.db.fileUploads ↔ f ∈ s.db.fileUploads ∨ f = record := by
    intro f
    rw [hrows]
    simp
  have hthere : ∀ key, s'.objects key ≠ none ↔
      key = uploadKey storage currentUser category file s ∨ s.objects key ≠ none := by
    intro key
    rw [hobjects]
    exact afterPut_objects_ne_none
  constructor
  · intro hc'
    obtain ⟨f, hf, hkey⟩ := hc'.bijection.surjOn ((hthere _).mpr (.inl rfl))
    rcases (hmem f).mp hf with hold | rfl
    · exact absurd (hkey ▸ hfree) (hc.bijection.mapsTo hold)
    · exact hkey
  · intro hkey
    refine ⟨⟨?_, ?_, ?_⟩, ?_⟩
    · intro f hf
      rcases (hmem f).mp hf with hold | rfl
      · exact (hthere _).mpr (.inr (hc.bijection.mapsTo hold))
      · exact (hthere _).mpr (.inl hkey)
    · intro f hf g hg heq
      rcases (hmem f).mp hf with hf | rfl <;> rcases (hmem g).mp hg with hg | rfl
      · exact hc.bijection.injOn hf hg heq
      · exact absurd heq (hunused f hf)
      · exact absurd heq.symm (hunused g hg)
      · rfl
    · intro key hobject
      rcases (hthere key).mp hobject with rfl | hold
      · exact ⟨record, (hmem record).mpr (.inr rfl), hkey⟩
      · obtain ⟨f, hf, rfl⟩ := hc.bijection.surjOn hold
        exact ⟨f, (hmem f).mpr (.inl hf), rfl⟩
    · intro f hf object hobject
      rw [hobjects] at hobject
      change (if f.storageKey = _ then some (uploadObject accepted) else s.objects f.storageKey) =
        some object at hobject
      rcases (hmem f).mp hf with hold | rfl
      · rw [if_neg (fun heq => hunused f hold (heq.trans hkey.symm))] at hobject
        exact ⟨(hc.contents f hold object hobject).1,
          (hc.contents f hold object hobject).2.snoc t⟩
      · rw [if_pos hkey] at hobject
        cases hobject
        refine ⟨?_, t, List.mem_append_right _ (List.mem_singleton_self t), credentials, category,
          file, accepted, hlabel, haccepted, rfl⟩
        exact accepted.sizeBytes_eq.symm.trans (fitted_some hfitted).2.2.1.symm

theorem upload_iff (hs : Supported storage s) (hfresh : FreshHex storage)
    (hc : Corresponds storage h s)
    (hsource : t.source = s) (hlabel : t.label.1 = .upload credentials category file)
    (hcase : UploadCase storage credentials category file s outcome)
    (hanswer : t.label.2 = .file outcome.1) :
    Corresponds storage (h ++ [t]) outcome.2 ↔ KeepsPairs storage t := by
  unfold KeepsPairs
  rw [hlabel, hsource]
  cases hcase with
  | refused hrefused =>
    refine iff_of_true (hc.of_same t rfl rfl) fun currentUser accepted huser haccepted => ?_
    exact absurd haccepted (hrefused currentUser accepted huser)
  | @stranded currentUser accepted huser haccepted hinsert =>
    have hfree := hs.key_free hfresh currentUser accepted
    refine iff_of_false (fun hc' => ?_) fun hfits => ?_
    · obtain ⟨f, hf, hkey⟩ := hc'.bijection.surjOn (afterPut_objects_ne_none.mpr (.inl rfl))
      exact hc.bijection.mapsTo hf (hkey ▸ hfree)
    · obtain ⟨record, hfitted, hkey⟩ := hfits currentUser accepted huser haccepted
      have hinserted := insertFileUpload_of hfitted
        (fun f hf heq => hc.bijection.mapsTo hf ((heq.trans hkey) ▸ hfree))
        ⟨currentUser, getCurrentUser_mem huser, (fitted_some hfitted).2.1.symm⟩
      cases hinsert.symm.trans hinserted
  | @stored currentUser accepted record db huser haccepted hinsert =>
    have hfree := hs.key_free hfresh currentUser accepted
    have hfitted := (insertFileUpload_some hinsert).1
    rw [stored_iff hfree hc haccepted hinsert (Prod.ext hlabel hanswer)]
    · constructor
      · intro hkey user accepted' huser' haccepted'
        cases huser.symm.trans huser'
        cases haccepted.symm.trans haccepted'
        exact ⟨record, hfitted, hkey⟩
      · intro hfits
        obtain ⟨record', hfitted', hkey⟩ := hfits currentUser accepted huser haccepted
        cases hfitted.symm.trans hfitted'
        exact hkey
    · rfl
    · rfl

/-- Deleting a row with its object leaves the other pairs. -/
theorem delete_corresponds (hs : Supported storage s) (hc : Corresponds storage h s)
    (hcase : DeleteCase s outcome) (t : FileTransition) :
    Corresponds storage (h ++ [t]) outcome.2 := by
  cases hcase with
  | refused => exact hc.of_same t rfl rfl
  | @deleted record hrecord =>
    have hobjects : ∀ key, ((FileServer.deleteObject record.storageKey s).withDb
        (s.db.deleteFileUpload record.id)).objects key =
        if key = record.storageKey then none else s.objects key := fun _ => rfl
    have hother : ∀ f ∈ s.db.fileUploads, f.id ≠ record.id ↔ f.storageKey ≠ record.storageKey := by
      intro f hf
      refine not_congr ⟨fun hid => ?_, fun hkey => ?_⟩
      · rw [List.inj_on_of_nodup_map hs.ids hf hrecord hid]
      · rw [hc.bijection.injOn hf hrecord hkey]
    refine ⟨⟨?_, ?_, ?_⟩, ?_⟩
    · intro f hf
      obtain ⟨hold, hid⟩ := Database.mem_deleteFileUpload.mp hf
      rw [Set.mem_ofPred_eq, hobjects, if_neg ((hother f hold).mp hid)]
      exact hc.bijection.mapsTo hold
    · intro f hf g hg hkey
      exact hc.bijection.injOn (Database.mem_deleteFileUpload.mp hf).1
        (Database.mem_deleteFileUpload.mp hg).1 hkey
    · intro key hkey
      rw [Set.mem_ofPred_eq, hobjects] at hkey
      split at hkey
      · exact absurd rfl hkey
      · rename_i hne
        obtain ⟨f, hf, rfl⟩ := hc.bijection.surjOn hkey
        exact ⟨f, Database.mem_deleteFileUpload.mpr ⟨hf, (hother f hf).mpr hne⟩, rfl⟩
    · intro f hf object hobject
      obtain ⟨hold, hid⟩ := Database.mem_deleteFileUpload.mp hf
      rw [hobjects, if_neg ((hother f hold).mp hid)] at hobject
      exact ⟨(hc.contents f hold object hobject).1, (hc.contents f hold object hobject).2.snoc t⟩

theorem step_iff (hs : Supported storage s) (hfresh : FreshHex storage)
    (hc : Corresponds storage h s) (hstep : StepOf (fileStep env storage dialect) s l s') :
    Corresponds storage (h ++ [⟨s, l, s'⟩]) s' ↔ KeepsPairs storage ⟨s, l, s'⟩ := by
  obtain ⟨action, answer⟩ := l
  obtain rfl : answer = (fileStep env storage dialect s action).1 :=
    (congrArg Prod.fst hstep).symm
  obtain rfl : s' = (fileStep env storage dialect s action).2 := (congrArg Prod.snd hstep).symm
  cases action with
  | api a =>
    by_cases ha : a = .cleanup
    · subst ha
      exact cleanup_iff hs hc rfl rfl rfl rfl
    · have hstep : Step env s.server (a, (step env s.server a).1) (step env s.server a).2 := rfl
      obtain ⟨_, _, heffect⟩ := (step_effect hstep).effect
      refine iff_of_true (hc.of_same _ (effect_keeps_files heffect ha).1 rfl) ?_
      unfold KeepsPairs
      cases a with
      | cleanup => exact absurd rfl ha
      | _ => trivial
  | upload credentials category file =>
    exact upload_iff hs hfresh hc rfl rfl (uploadFile_case storage credentials category file s) rfl
  | list credentials params answer => exact iff_of_true (hc.of_same _ rfl rfl) trivial
  | get credentials fileId => exact iff_of_true (hc.of_same _ rfl rfl) trivial
  | delete credentials fileId =>
    refine iff_of_true ?_ trivial
    exact delete_corresponds hs hc (deleteFile_case storage credentials fileId s) _

end Steps

/-- In every run from an empty table and bucket, rows and objects correspond in every state
if and only if every step keeps the pairs. -/
theorem files_correspond_iff (env : Env) (storage : StorageEnv) (dialect : Dialect)
    (hfresh : FreshHex storage) {s₀ s : FileServer} {h : List FileTransition}
    (h₀ : InitialFiles s₀) (r : FileRun env storage dialect s₀ h s) :
    (∀ h₁ s₁, h₁ <+: h → FileRun env storage dialect s₀ h₁ s₁ → Corresponds storage h₁ s₁) ↔
      Guarded (fun _ t => KeepsPairs storage t) h := by
  refine r.invariant_iff_guarded (I := Corresponds storage) ?_ ?_
  · refine ⟨⟨?_, ?_, ?_⟩, ?_⟩
    · intro row hrow
      rw [h₀.fileUploads] at hrow
      cases hrow
    · simp [Set.InjOn, h₀.fileUploads]
    · simp [Set.SurjOn, h₀.objects]
    · simp [h₀.fileUploads]
  · exact fun r hc hstep => step_iff (run_supported h₀ r) hfresh hc hstep

section StrandedObject

theorem sampleStorage_freshHex : FreshHex sampleStorage := by
  constructor
  · intro a b h
    have hint := congrArg PyInt.int h
    simp only [sampleStorage, PyInt.int_str, Option.some.injEq, Nat.cast_inj] at hint
    exact Nat.add_left_cancel hint
  · intro draw
    exact PyInt.not_mem_str rfl

theorem freshFileServer_initial (now : Instant) : InitialFiles (freshFileServer now) := by
  have hfiles : Database.empty.seedRbacDefaults.fileUploads = [] := by decide
  exact ⟨freshServer_initial now, hfiles, rfl⟩

/-- Somebody registers, never opens the mail, signs in by OAuth and uploads a picture. -/
def unverifiedUpload : List FileAction :=
  [.api (.request (.register "localhost" ⟨"a@example.com", "Passw0rd"⟩ true)),
    .api (.request (.oauthLogin "github")),
    .api (.request (.oauthCallback "github" "state2" (some ⟨"17", some "a@example.com"⟩))),
    .upload ⟨"a@example.com", "access", "uuid3", 0, 1800⟩ "image"
      ⟨some "a.gif", some "image/gif", bytesOf "GIF89a"⟩]

/-- The account is deleted eight days later. -/
def uploadThenCleanup : List FileAction :=
  unverifiedUpload ++ [.api (.wait (8 * 24 * 60 * 60)), .api .cleanup]

def filesAfter (actions : List FileAction) : FileServer :=
  exec (fileStep asciiEnv sampleStorage binaryDialect) (freshFileServer 0) actions

def fileHistory (actions : List FileAction) : List FileTransition :=
  trace (fileStep asciiEnv sampleStorage binaryDialect) (freshFileServer 0) actions

theorem run_fileHistory (actions : List FileAction) :
    FileRun asciiEnv sampleStorage binaryDialect (freshFileServer 0) (fileHistory actions)
      (filesAfter actions) :=
  run_trace (fileStep asciiEnv sampleStorage binaryDialect) (freshFileServer 0) actions

theorem files_correspond_iff_sample :
    (∀ h₁ s₁, h₁ <+: fileHistory unverifiedUpload →
      FileRun asciiEnv sampleStorage binaryDialect (freshFileServer 0) h₁ s₁ →
      Corresponds sampleStorage h₁ s₁) ↔
      Guarded (fun _ t => KeepsPairs sampleStorage t) (fileHistory unverifiedUpload) :=
  files_correspond_iff asciiEnv sampleStorage binaryDialect sampleStorage_freshHex
    (freshFileServer_initial 0) (run_fileHistory unverifiedUpload)

/-- The row is gone with its user, the picture is still in the bucket. -/
theorem cleanup_strands_object :
    ∃ h s, FileRun asciiEnv sampleStorage binaryDialect (freshFileServer 0) h s ∧
      ¬ Corresponds sampleStorage h s := by
  refine ⟨_, _, run_fileHistory uploadThenCleanup, fun hc => ?_⟩
  have hrows : (filesAfter uploadThenCleanup).db.fileUploads = [] := by decide +kernel
  have hobject : (filesAfter uploadThenCleanup).objects
      (buildObjectKey (sampleStorage.uuidHex 0) 1 "image" "a.gif") ≠ none := by decide +kernel
  obtain ⟨f, hf, _⟩ := hc.bijection.surjOn hobject
  rw [Set.mem_ofPred_eq, hrows] at hf
  cases hf

end StrandedObject

end FastApiAuth.FileCorrespondence
