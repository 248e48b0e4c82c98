import FastApiAuth.FileCorrespondence

/-!
# What a storage key says

The key of an object is a concatenation that ends in a name chosen by the client. The name
has lost its slashes, so the two slashes of the key and the first underscore behind them are
the ones that `build_object_key` puts there.
-/

namespace FastApiAuth.StorageKeys

set_option autoImplicit false

open FileCorrespondence Separators

/-- The form of `uuid4().hex`. -/
structure IsUuidHex (hex : String) : Prop where
  length : hex.toList.length = 32
  digits : ∀ c ∈ hex.toList, c ∈ "0123456789abcdef".toList

/-- What a key is made of; the name is the sanitised one. -/
structure KeyParts where
  category : String
  userId : Int
  hex : String
  safeName : String
  deriving DecidableEq

def parseObjectKey (key : String) : Option KeyParts :=
  (cut '/' key.toList).bind fun (category, rest) =>
    (cut '/' rest).bind fun (owner, rest) =>
      (cut '_' rest).bind fun (hex, name) =>
        (PyInt.int (String.ofList owner)).map fun userId =>
          ⟨String.ofList category, userId, String.ofList hex, String.ofList name⟩

/-- `category/id/` -/
def keyPrefix (category : String) (userId : Nat) : String :=
  category ++ "/" ++ PyInt.str userId ++ "/"

section Parts

variable {hex hex' category category' filename filename' : String} {userId userId' : Nat}
variable {c c' : UploadCategory}

theorem IsUuidHex.not_mem {d : Char} (h : IsUuidHex hex)
    (hd : d ∉ "0123456789abcdef".toList) : d ∉ hex.toList :=
  fun hmem => hd (h.digits d hmem)

theorem not_mem_safeName {d : Char} (hd : d = '/' ∨ d = '\\') (filename : String) :
    d ∉ (safeName filename).toList := by
  rw [safeName, String.toList_ofList]
  intro hmem
  obtain ⟨e, _, heq⟩ := List.mem_map.mp hmem
  by_cases he : e = '/' ∨ e = '\\'
  · rw [if_pos he] at heq
    subst heq
    revert hd
    decide
  · rw [if_neg he] at heq
    subst heq
    exact he hd

/-- The key as its parts and the three separators. -/
theorem toList_buildObjectKey (hex : String) (userId : Nat) (category filename : String) :
    (buildObjectKey hex userId category filename).toList =
      category.toList ++ '/' :: ((PyInt.str userId).toList ++
        '/' :: (hex.toList ++ '_' :: (safeName filename).toList)) := by
  simp [buildObjectKey, String.toList_append]

theorem toList_keyPrefix (category : String) (userId : Nat) :
    (keyPrefix category userId).toList =
      category.toList ++ '/' :: ((PyInt.str userId).toList ++ ['/']) := by
  simp [keyPrefix, String.toList_append]

theorem count_slash (hhex : IsUuidHex hex) (hc : c ∈ categories) :
    (buildObjectKey hex userId c.name filename).toList.count '/' = 2 := by
  have hcategory := List.count_eq_zero.mpr (not_mem_category (Or.inl rfl) hc)
  have howner := List.count_eq_zero.mpr (PyInt.not_mem_str (n := userId) (c := '/') rfl)
  have hdigits := List.count_eq_zero.mpr (hhex.not_mem (d := '/') (by decide))
  have hname := List.count_eq_zero.mpr (not_mem_safeName (Or.inl rfl) filename)
  rw [toList_buildObjectKey]
  simp [List.count_append, hcategory, howner, hdigits, hname]

theorem no_backslash (hhex : IsUuidHex hex) (hc : c ∈ categories) :
    '\\' ∉ (buildObjectKey hex userId c.name filename).toList := by
  rw [toList_buildObjectKey]
  simp [not_mem_category (Or.inr rfl) hc, PyInt.not_mem_str (n := userId) (c := '\\') rfl,
    hhex.not_mem (d := '\\') (by decide), not_mem_safeName (Or.inr rfl) filename]

theorem parse_buildObjectKey (hcategory : '/' ∉ category.toList) (hhex : IsUuidHex hex)
    (userId : Nat) (filename : String) :
    parseObjectKey (buildObjectKey hex userId category filename) =
      some ⟨category, userId, hex, safeName filename⟩ := by
  have howner := PyInt.not_mem_str (n := userId) (c := '/') rfl
  have hdigits := hhex.not_mem (d := '_') (by decide)
  unfold parseObjectKey
  rw [toList_buildObjectKey, cut_append hcategory]
  simp only [Option.bind_some, cut_append howner, cut_append hdigits, String.ofList_toList,
    PyInt.int_str, Option.map_some]

/-- A key lies under one prefix only, that of its category and its user. -/
theorem keyPrefix_isPrefix_iff (hcategory : '/' ∉ category.toList)
    (hcategory' : '/' ∉ category'.toList) :
    (keyPrefix category' userId').toList <+:
        (buildObjectKey hex userId category filename).toList ↔
      category' = category ∧ userId' = userId := by
  rw [toList_keyPrefix, toList_buildObjectKey]
  constructor
  · rintro ⟨rest, heq⟩
    rw [List.append_assoc, List.cons_append] at heq
    obtain ⟨hsame, heq⟩ := append_sep_inj hcategory' hcategory heq
    rw [List.append_assoc, List.singleton_append] at heq
    obtain ⟨howner, _⟩ :=
      append_sep_inj (PyInt.not_mem_str rfl) (PyInt.not_mem_str rfl) heq
    have hid : ((userId' : Nat) : Int) = userId := by
      apply Option.some_inj.mp
      rw [← PyInt.int_str, ← PyInt.int_str, String.toList_inj.mp howner]
    exact ⟨String.toList_inj.mp hsame, by omega⟩
  · rintro ⟨rfl, rfl⟩
    exact ⟨hex.toList ++ '_' :: (safeName filename).toList, by simp⟩

/-- An upload puts its object under the prefix of its user and category, and under no other. -/
theorem uploadKey_prefix_iff {storage : StorageEnv} {file : UploadFile}
    (accepted : AcceptedUpload category file) (currentUser : User) (s : FileServer)
    (hc' : c' ∈ categories) :
    (keyPrefix c'.name userId').toList <+: (uploadKey storage currentUser category file s).toList ↔
      c'.name = category ∧ userId' = currentUser.id := by
  obtain ⟨c, hc, rfl⟩ := accepted.known
  exact keyPrefix_isPrefix_iff (not_mem_category (Or.inl rfl) hc)
    (not_mem_category (Or.inl rfl) hc')

end Parts

/-- A key has two slashes and no backslash and is read back into its parts; so keys of
distinct uuids differ, and a key lies under no prefix of another user. -/
theorem storage_keys :
    (∀ hex userId c filename, IsUuidHex hex → c ∈ categories →
      (buildObjectKey hex userId c.name filename).toList.count '/' = 2 ∧
      '\\' ∉ (buildObjectKey hex userId c.name filename).toList ∧
      parseObjectKey (buildObjectKey hex userId c.name filename) =
        some ⟨c.name, userId, hex, safeName filename⟩) ∧
    (∀ hex hex' userId userId' c c' filename filename', IsUuidHex hex → IsUuidHex hex' →
      c ∈ categories → c' ∈ categories → hex ≠ hex' →
      buildObjectKey hex userId c.name filename ≠ buildObjectKey hex' userId' c'.name filename') ∧
    ∀ hex userId userId' c c' filename, IsUuidHex hex → c ∈ categories → c' ∈ categories →
      userId ≠ userId' →
      ¬ (keyPrefix c'.name userId').toList <+:
        (buildObjectKey hex userId c.name filename).toList := by
  refine ⟨?_, ?_, ?_⟩
  · intro hex userId c filename hhex hc
    exact ⟨count_slash hhex hc, no_backslash hhex hc,
      parse_buildObjectKey (not_mem_category (Or.inl rfl) hc) hhex userId filename⟩
  · intro hex hex' userId userId' c c' filename filename' hhex hhex' hc hc' hne heq
    have hparts := parse_buildObjectKey (not_mem_category (Or.inl rfl) hc) hhex userId filename
    rw [heq, parse_buildObjectKey (not_mem_category (Or.inl rfl) hc') hhex'] at hparts
    exact hne (congrArg KeyParts.hex (Option.some_inj.mp hparts)).symm
  · intro hex userId userId' c c' filename _ hc hc' hne hprefix
    have hsame := (keyPrefix_isPrefix_iff (not_mem_category (Or.inl rfl) hc)
      (not_mem_category (Or.inl rfl) hc')).mp hprefix
    exact hne hsame.2.symm

def sampleHex : String := "0123456789abcdef0123456789abcdef"

theorem sampleHex_isUuidHex : IsUuidHex sampleHex where
  length := by decide
  digits := by simp [sampleHex]

/-- User 12 names a file like a key of user 1. -/
theorem storage_keys_sample :
    parseObjectKey (buildObjectKey sampleHex 12 "csv" "../../csv/1/a_b\\c") =
      some ⟨"csv", 12, sampleHex, ".._.._csv_1_a_b_c"⟩ ∧
    ¬ (keyPrefix "csv" 1).toList <+:
      (buildObjectKey sampleHex 12 "csv" "../../csv/1/a_b\\c").toList := by
  have hcsv : csvCategory ∈ categories := by simp [categories]
  have hparts := (storage_keys.1 sampleHex 12 csvCategory "../../csv/1/a_b\\c"
    sampleHex_isUuidHex hcsv).2.2
  have hname : safeName "../../csv/1/a_b\\c" = ".._.._csv_1_a_b_c" := by decide +kernel
  rw [hname] at hparts
  refine ⟨hparts, ?_⟩
  exact storage_keys.2.2 sampleHex 12 1 csvCategory csvCategory _ sampleHex_isUuidHex hcsv hcsv
    (by decide)

end FastApiAuth.StorageKeys
