import FastApiAuth.Pagination
import Mathlib.Data.List.Infix

/-!
# What a search finds

The search text is put between two percent signs without escaping. It is then a pattern,
and a text with a percent sign, an underscore or a backslash in it finds other rows than
those that contain it.
-/

namespace FastApiAuth.Search

set_option autoImplicit false

/-- The characters that LIKE gives a meaning. -/
def Meta (c : Char) : Prop := c = '%' ∨ c = '_' ∨ c = '\\'

instance (c : Char) : Decidable (Meta c) := inferInstanceAs (Decidable (_ ∨ _ ∨ _))

def Plain (q : List Char) : Prop := ∀ c ∈ q, ¬ Meta c

section Like

variable {pattern text : List Char} {c d : Char}

theorem like_percent :
    like ('%' :: pattern) text = true ↔ ∃ back, back <:+ text ∧ like pattern back = true := by
  rw [like, List.any_eq_true]
  simp only [List.mem_tails]

theorem like_cons (hc : ¬ Meta c) :
    like (c :: pattern) (d :: text) = true ↔ c = d ∧ like pattern text = true := by
  simp only [Meta, not_or] at hc
  simp [like, hc]

theorem like_cons_nil (hc : ¬ Meta c) : like (c :: pattern) [] = false := by
  simp only [Meta, not_or] at hc
  simp [like, hc]

theorem like_escape :
    like ('\\' :: c :: pattern) (d :: text) = true ↔ c = d ∧ like pattern text = true := by
  simp [like]

theorem like_underscore : like ('_' :: pattern) (d :: text) = like pattern text := by
  simp [like]

/-- Plain characters match themselves. -/
theorem like_plain_append {q : List Char} (hq : Plain q) :
    like (q ++ pattern) text = true ↔
      ∃ rest, text = q ++ rest ∧ like pattern rest = true := by
  induction q generalizing text with
  | nil => simp
  | cons c q ih =>
    have hc := hq c List.mem_cons_self
    have hq' : Plain q := fun d hd => hq d (List.mem_cons_of_mem c hd)
    rw [List.cons_append]
    cases text with
    | nil =>
      rw [like_cons_nil hc]
      simp
    | cons d text =>
      rw [like_cons hc, ih hq']
      constructor
      · rintro ⟨rfl, rest, rfl, hrest⟩
        exact ⟨rest, rfl, hrest⟩
      · rintro ⟨rest, heq, hrest⟩
        obtain ⟨rfl, rfl⟩ := List.cons.inj heq
        exact ⟨rfl, rest, rfl, hrest⟩

theorem like_contains_iff {q : List Char} (hq : Plain q) :
    like ('%' :: (q ++ ['%'])) text = true ↔ q <:+: text := by
  have hlast : ∀ rest, like ['%'] rest = true := by
    intro rest
    exact like_percent.mpr ⟨[], List.nil_suffix, rfl⟩
  rw [like_percent]
  constructor
  · rintro ⟨back, hsuffix, hback⟩
    obtain ⟨rest, rfl, _⟩ := (like_plain_append hq).mp hback
    exact (List.prefix_append q rest).isInfix.trans hsuffix.isInfix
  · rintro ⟨front, rest, rfl⟩
    refine ⟨q ++ rest, ?_, (like_plain_append hq).mpr ⟨rest, rfl, hlast rest⟩⟩
    rw [List.append_assoc]
    exact List.suffix_append front (q ++ rest)

end Like

section PatternMatches

/-- A text that the pattern of `q` matches: it has `q`'s own characters where the escape rules
leave them and another one for every underscore, so it contains `q` only when `q` has no special
character. -/
def reading : List Char → List Char
  | [] => []
  | '%' :: q => reading q
  | ['\\'] => ['%']
  | '\\' :: c :: q => c :: reading q
  | '_' :: q => 'a' :: reading q
  | c :: q => c :: reading q

theorem length_reading_le (q : List Char) : (reading q).length ≤ q.length := by
  induction q using reading.induct with
  | case1 => simp [reading]
  | case2 q ih =>
    simp only [reading, List.length_cons]
    omega
  | case3 => simp [reading]
  | case4 c q ih =>
    simp only [reading, List.length_cons]
    omega
  | case5 q ih =>
    simp only [reading, List.length_cons]
    omega
  | case6 c q hpercent hlast hescape hunderscore ih =>
    rw [reading.eq_6 c q hpercent hlast hescape hunderscore, List.length_cons, List.length_cons]
    omega

/-- Case folding is about letters: it neither moves a special character nor makes one. -/
def FoldsLetters (dialect : Dialect) : Prop := ∀ c m, Meta m → (dialect.fold c = m ↔ c = m)

end PatternMatches

section Folding

variable {dialect : Dialect}

theorem FoldsLetters.fold_meta (hfold : FoldsLetters dialect) {m : Char} (hm : Meta m) :
    dialect.fold m = m :=
  (hfold m m hm).mpr rfl

theorem FoldsLetters.meta_fold_iff (hfold : FoldsLetters dialect) {c : Char} :
    Meta (dialect.fold c) ↔ Meta c := by
  constructor
  · intro hm
    have heq := (hfold c (dialect.fold c) hm).mp rfl
    rw [heq]
    exact hm
  · intro hm
    rw [hfold.fold_meta hm]
    exact hm

theorem FoldsLetters.plain_map_iff (hfold : FoldsLetters dialect) {q : List Char} :
    Plain (q.map dialect.fold) ↔ Plain q := by
  simp only [Plain, List.forall_mem_map, hfold.meta_fold_iff]

theorem like_reading (hfold : FoldsLetters dialect) (q : List Char) :
    like (q.map dialect.fold ++ ['%']) ((reading q).map dialect.fold) = true := by
  have hpercent := hfold.fold_meta (Or.inl rfl)
  have hunderscore := hfold.fold_meta (Or.inr (Or.inl rfl))
  have hescape := hfold.fold_meta (Or.inr (Or.inr rfl))
  induction q using reading.induct with
  | case1 => rfl
  | case2 q ih =>
    rw [reading, List.map_cons, hpercent, List.cons_append]
    exact like_percent.mpr ⟨_, List.suffix_refl _, ih⟩
  | case3 =>
    rw [reading, List.map_singleton, List.map_singleton, hescape, hpercent]
    exact like_escape.mpr ⟨rfl, rfl⟩
  | case4 c q ih =>
    rw [reading, List.map_cons, List.map_cons, hescape, List.map_cons, List.cons_append,
      List.cons_append]
    exact like_escape.mpr ⟨rfl, ih⟩
  | case5 q ih =>
    rw [reading, List.map_cons, List.map_cons, hunderscore, List.cons_append, like_underscore]
    exact ih
  | case6 c q hp hl he hu ih =>
    rw [reading.eq_6 c q hp hl he hu, List.map_cons, List.map_cons, List.cons_append]
    have hc : ¬ Meta (dialect.fold c) := by
      rw [hfold.meta_fold_iff]
      intro hc
      rcases hc with hc | hc | hc
      · exact hp hc
      · exact hu hc
      · cases q with
        | nil => exact hl hc rfl
        | cons d q => exact he d q hc rfl
    exact (like_cons hc).mpr ⟨rfl, ih⟩

theorem plain_of_reading (hfold : FoldsLetters dialect) (q : List Char)
    (heq : (reading q).map dialect.fold = q.map dialect.fold) : Plain q := by
  induction q using reading.induct with
  | case1 =>
    intro c hc
    cases hc
  | case2 q ih =>
    have hlength := congrArg List.length heq
    have hle := length_reading_le q
    simp only [reading, List.length_map, List.length_cons] at hlength
    omega
  | case3 =>
    have hhead := (List.cons.inj heq).1
    rw [hfold.fold_meta (Or.inl rfl), hfold.fold_meta (Or.inr (Or.inr rfl))] at hhead
    cases hhead
  | case4 c q ih =>
    have hlength := congrArg List.length heq
    have hle := length_reading_le q
    simp only [reading, List.length_map, List.length_cons] at hlength
    omega
  | case5 q ih =>
    have hhead := (List.cons.inj heq).1
    rw [hfold.fold_meta (Or.inr (Or.inl rfl))] at hhead
    cases (hfold 'a' '_' (Or.inr (Or.inl rfl))).mp hhead
  | case6 c q hp hl he hu ih =>
    rw [reading.eq_6 c q hp hl he hu] at heq
    have hq := ih (List.cons.inj heq).2
    intro d hd hm
    rcases List.mem_cons.mp hd with rfl | hd
    · rcases hm with hm | hm | hm
      · exact hp hm
      · exact hu hm
      · cases q with
        | nil => exact hl hm rfl
        | cons e q => exact he e q hm rfl
    · exact hq d hd hm

def containsText (dialect : Dialect) (q : String) (user : User) : Bool :=
  decide (q.toList.map dialect.fold <:+: user.email.toList.map dialect.fold)

theorem ilike_containsPattern_iff (hfold : FoldsLetters dialect) {q text : String} :
    ilike dialect text (containsPattern q) = true ↔
      like ('%' :: (q.toList.map dialect.fold ++ ['%'])) (text.toList.map dialect.fold) = true := by
  have hpercent := hfold.fold_meta (Or.inl rfl)
  have hpattern : (containsPattern q).toList = '%' :: (q.toList ++ ['%']) := by
    simp [containsPattern, String.toList_append]
  rw [ilike, hpattern, List.map_cons, List.map_append, List.map_singleton, hpercent]

theorem ilike_eq_containsText (hfold : FoldsLetters dialect) {q : String} (hq : Plain q.toList)
    (user : User) : ilike dialect user.email (containsPattern q) = containsText dialect q user := by
  rw [Bool.eq_iff_iff, ilike_containsPattern_iff hfold,
    like_contains_iff (hfold.plain_map_iff.mpr hq), containsText, decide_eq_true_iff]

/-- The row that an unescaped text finds without standing in it. -/
def misread (q : String) : User := ⟨1, String.ofList (reading q.toList), none, true, true, 0⟩

theorem misread_found (hfold : FoldsLetters dialect) (q : String) :
    ilike dialect (misread q).email (containsPattern q) = true := by
  rw [ilike_containsPattern_iff hfold, misread, String.toList_ofList]
  exact like_percent.mpr ⟨_, List.suffix_refl _, like_reading hfold q.toList⟩

theorem plain_of_containsText_misread (hfold : FoldsLetters dialect) {q : String}
    (hc : containsText dialect q (misread q) = true) : Plain q.toList := by
  rw [containsText, decide_eq_true_iff, misread, String.toList_ofList] at hc
  apply plain_of_reading hfold
  symm
  apply hc.eq_of_length_le
  rw [List.length_map, List.length_map]
  exact length_reading_le q.toList

theorem matching_addWhere {α : Type} (statement : Select α) (condition : α → Bool)
    (table : List α) :
    (statement.addWhere condition).matching table =
      (statement.matching table).filter condition := by
  rw [Select.matching, Select.matching, List.filter_filter]
  apply List.filter_congr
  intro row _
  simp [Select.accepts, Select.addWhere, Bool.and_comm]

theorem applySearch_email {q : String} (hq : q ≠ "") (statement : Select User)
    (table : List User) :
    (applySearch dialect statement (some q) [User.email]).matching table =
      (statement.matching table).filter fun user =>
        ilike dialect user.email (containsPattern q) := by
  rw [applySearch, if_neg (by simp [hq]), matching_addWhere]
  apply List.filter_congr
  intro user _
  simp only [List.any_cons, List.any_nil, Bool.or_false]

theorem listUsersFeed_email {q : String} (hq : q ≠ "") (table : List User) :
    (listUsersFeedStatement dialect (some q)).matching table =
      table.filter fun user => ilike dialect user.email (containsPattern q) := by
  have hall : Select.matching ({} : Select User) table = table :=
    List.filter_eq_self.mpr fun _ _ => rfl
  rw [listUsersFeedStatement, if_neg hq, matching_addWhere, hall]

/-- Both routes find the rows that contain the text just when it has no percent sign, no
underscore and no backslash. -/
theorem search_is_substring_iff (hfold : FoldsLetters dialect) {q : String} (hq : q ≠ "") :
    (∀ table : List User,
      (∀ statement, (applySearch dialect statement (some q) [User.email]).matching table =
        (statement.matching table).filter (containsText dialect q)) ∧
      (listUsersFeedStatement dialect (some q)).matching table =
        table.filter (containsText dialect q)) ↔
    Plain q.toList := by
  constructor
  · intro hrows
    have hfeed := (hrows [misread q]).2
    rw [listUsersFeed_email hq] at hfeed
    apply plain_of_containsText_misread hfold
    have hmem : misread q ∈ [misread q].filter (containsText dialect q) := by
      rw [← hfeed]
      exact List.mem_filter.mpr ⟨List.mem_singleton_self _, misread_found hfold q⟩
    exact (List.mem_filter.mp hmem).2
  · intro hplain table
    have hsame := fun user => ilike_eq_containsText hfold hplain user
    constructor
    · intro statement
      rw [applySearch_email hq]
      simp only [hsame]
    · rw [listUsersFeed_email hq]
      simp only [hsame]

end Folding

theorem toNat_toLower {c : Char} (hupper : c.val ≥ 'A'.val ∧ c.val ≤ 'Z'.val) :
    c.toLower.toNat = c.toNat + 32 := by
  have hle : c.val.toNat ≤ 90 := hupper.2
  have hdistance : ('a'.val - 'A'.val).toNat = 32 := by decide
  have hlower : c.toLower.val = c.val + ('a'.val - 'A'.val) := congrArg Char.val (dif_pos hupper)
  rw [Char.toNat, hlower, UInt32.toNat_add, hdistance]
  exact Nat.mod_eq_of_lt (by omega)

theorem binaryDialect_foldsLetters : FoldsLetters binaryDialect := by
  intro c m hm
  show c.toLower = m ↔ c = m
  by_cases hupper : c.val ≥ 'A'.val ∧ c.val ≤ 'Z'.val
  · have hlower := toNat_toLower hupper
    have hbounds : 65 ≤ c.toNat ∧ c.toNat ≤ 90 := hupper
    have hm' : m.toNat < 65 ∨ 90 < m.toNat ∧ m.toNat < 97 := by
      rcases hm with rfl | rfl | rfl <;> decide
    constructor
    · intro hc
      rw [hc] at hlower
      omega
    · rintro rfl
      omega
  · have hsame : c.toLower = c := dif_neg hupper
    rw [hsame]

theorem search_is_substring_iff_sample :
    (∀ table : List User,
      (∀ statement,
        (applySearch binaryDialect statement (some "a.b") [User.email]).matching table =
          (statement.matching table).filter (containsText binaryDialect "a.b")) ∧
      (listUsersFeedStatement binaryDialect (some "a.b")).matching table =
        table.filter (containsText binaryDialect "a.b")) ↔
    Plain "a.b".toList :=
  search_is_substring_iff binaryDialect_foldsLetters (by decide)

/-- An address without an underscore is found by the search for one. -/
theorem underscore_finds_everyone :
    let alice : User := ⟨1, "alice@example.com", none, true, true, 0⟩
    containsText binaryDialect "_" alice = false ∧
    (applySearch binaryDialect {} (some "_") [User.email]).matching [alice] = [alice] ∧
    (listUsersFeedStatement binaryDialect (some "_")).matching [alice] = [alice] := by
  decide

end FastApiAuth.Search
