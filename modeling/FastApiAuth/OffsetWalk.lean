import FastApiAuth.Pagination
import FastApiAuth.Library.Runs

/-!
# Fetching offset pages one after the other

Each page is a query of its own, and rows with equal sort keys may come in another order
every time. The pages fit together if no such rows stand on both sides of a page
boundary; otherwise the database may send one row twice and keep another back.
-/

namespace FastApiAuth.OffsetWalk

set_option autoImplicit false

open Runs TiedOrders

section Orders

variable {α : Type}

instance (statement : Select α) : DecidableRel statement.InOrder := fun a b =>
  match h : statement.orderBy with
  | none => isTrue (by simp [Select.InOrder, h])
  | some (key, .asc) => decidable_of_iff (key a ≤ key b) (by simp [Select.InOrder, h])
  | some (key, .desc) => decidable_of_iff (key b ≤ key a) (by simp [Select.InOrder, h])

theorem inOrder_preorder (statement : Select α) : TotalPreorder statement.InOrder := by
  unfold Select.InOrder
  cases statement.orderBy with
  | none => exact ⟨fun _ _ => .inl trivial, fun _ _ => trivial⟩
  | some order =>
    obtain ⟨key, direction⟩ := order
    cases direction with
    | asc => exact ⟨fun a b => le_total (key a) (key b), fun hab hbc => hab.trans hbc⟩
    | desc => exact ⟨fun a b => le_total (key b) (key a), fun hab hbc => hbc.trans hab⟩

theorem key_eq_of_tied {statement : Select α} {key : α → SortKey} {order : SortOrder} {a b : α}
    (horder : statement.orderBy = some (key, order)) (hab : statement.InOrder a b)
    (hba : statement.InOrder b a) : key a = key b := by
  unfold Select.InOrder at hab hba
  rw [horder] at hab hba
  cases order with
  | asc => exact le_antisymm hab hba
  | desc => exact le_antisymm hba hab

/-- The database has an answer to every query. -/
theorem exists_answers (statement : Select α) (table : List α) :
    ∃ answer, statement.Answers table answer :=
  ⟨(statement.matching table).mergeSort fun a b => statement.InOrder a b,
    List.mergeSort_perm _ _, (inOrder_preorder statement).pairwise_mergeSort _⟩

end Orders

section Walks

variable {α : Type}

/-- One query at the offset, with any answer the database may give; `none` is the end
of the walk. -/
inductive FetchStep (table : List α) (statement : Select α) (params : OffsetPaginationParams) :
    Option Nat → Page α → Option Nat → Prop where
  | fetch {offset : Nat} {answer : List α} {page : Page α} : statement.Answers table answer →
      paginateOffset table statement answer { params with offset } = page →
      FetchStep table statement params (some offset) page
        (if page.hasMore then some (offset + params.limit) else none)

abbrev FetchTransition (α : Type) := Transition (Option Nat) (Page α)

abbrev FetchRun (table : List α) (statement : Select α) (params : OffsetPaginationParams) :
    Option Nat → List (FetchTransition α) → Option Nat → Prop :=
  Run (FetchStep table statement params)

def received (h : List (FetchTransition α)) : List α := h.flatMap fun t => t.label.items

/-- Whatever the database answers, the walk returns every matching row once, and every
page reports their number. -/
def WalksOnce (table : List α) (statement : Select α) (params : OffsetPaginationParams) : Prop :=
  ∀ h, FetchRun table statement params (some 0) h none →
    (received h).Perm (statement.matching table) ∧ ∀ t ∈ h, t.label.total = (received h).length

/-- Some page boundary goes through rows that the sort key does not tell apart. -/
def CutsTie (table : List α) (statement : Select α) (limit : Nat) : Prop :=
  ∃ page, Straddles statement.InOrder (statement.matching table) (page * limit)

variable {table answer : List α} {statement : Select α} {params : OffsetPaginationParams}
variable {o o' : Option Nat} {offset : Nat} {page : Page α} {h : List (FetchTransition α)}

theorem received_snoc {t : FetchTransition α} :
    received (h ++ [t]) = received h ++ t.label.items := by
  simp [received]

theorem received_append {h' : List (FetchTransition α)} :
    received (h ++ h') = received h ++ received h' := by
  simp [received]

theorem answer_length (ha : statement.Answers table answer) :
    answer.length = (statement.matching table).length :=
  ha.1.length_eq

theorem FetchStep.of_answer (params : OffsetPaginationParams) (offset : Nat)
    (ha : statement.Answers table answer) :
    FetchStep table statement params (some offset)
      (paginateOffset table statement answer { params with offset })
      (if (paginateOffset table statement answer { params with offset }).hasMore then
        some (offset + params.limit) else none) :=
  .fetch ha rfl

/-- What a page says about the rest. -/
theorem page_cases (params : OffsetPaginationParams) (offset : Nat)
    (ha : statement.Answers table answer)
    (hpage : paginateOffset table statement answer { params with offset } = page) :
    page.items = (answer.drop offset).take params.limit ∧
      page.total = (statement.matching table).length ∧
      (page.hasMore = true ↔ offset + params.limit < answer.length) := by
  subst hpage
  have hlength := answer_length ha
  have hlimit := params.one_le
  refine ⟨rfl, rfl, ?_⟩
  simp only [paginateOffset, decide_eq_true_eq, List.length_take, List.length_drop]
  omega

/-- After some pages the client has the front part of any sorted answer, up to order. -/
def Fronted (statement : Select α) (table sorted : List α) (params : OffsetPaginationParams)
    (h : List (FetchTransition α)) : Option Nat → Prop
  | some offset => offset = h.length * params.limit ∧ (received h).Perm (sorted.take offset)
  | none => (received h).Perm (statement.matching table)

theorem Fronted.step {sorted : List α} (hsorted : statement.Answers table sorted)
    (hcuts : ¬ CutsTie table statement params.limit)
    (hf : Fronted statement table sorted params h o)
    (hstep : FetchStep table statement params o page o') :
    Fronted statement table sorted params (h ++ [⟨o, page, o'⟩]) o' := by
  cases hstep with
  | @fetch offset answer page ha hpage =>
    obtain ⟨hitems, _, hmore⟩ := page_cases params offset ha hpage
    obtain ⟨rfl, hreceived⟩ := hf
    have hcut : ∀ n, ¬ Straddles statement.InOrder sorted (n * params.limit) :=
      fun n hn => hcuts ⟨n, hn.of_perm hsorted.1⟩
    have front : ∀ n, (answer.take (n * params.limit)).Perm (sorted.take (n * params.limit)) :=
      fun n => take_perm (inOrder_preorder statement) hsorted.2 ha.2 (ha.1.trans hsorted.1.symm)
        (hcut n)
    have hnext : (received h ++ page.items).Perm
        (answer.take (h.length * params.limit + params.limit)) := by
      rw [hitems, List.take_add]
      exact (hreceived.trans (front h.length).symm).append_right _
    rw [show h.length * params.limit + params.limit = (h.length + 1) * params.limit by
      rw [Nat.succ_mul]] at hnext ⊢
    cases hhas : page.hasMore with
    | true =>
      refine ⟨by simp, ?_⟩
      rw [received_snoc]
      exact hnext.trans (front (h.length + 1))
    | false =>
      have hend : ¬ h.length * params.limit + params.limit < answer.length := by
        rw [← hmore, hhas]
        exact Bool.false_ne_true
      change (received (h ++ [_])).Perm _
      rw [received_snoc]
      rw [List.take_of_length_le (by rw [Nat.succ_mul]; omega)] at hnext
      exact hnext.trans ha.1

theorem FetchStep.total (hstep : FetchStep table statement params o page o') :
    page.total = (statement.matching table).length := by
  cases hstep with
  | fetch ha hpage => exact (page_cases params _ ha hpage).2.1

theorem FetchRun.total (r : FetchRun table statement params o h o') {t : FetchTransition α}
    (ht : t ∈ h) : t.label.total = (statement.matching table).length := by
  obtain ⟨_, _, _, hstep⟩ := r.step_of_mem ht
  exact hstep.total

theorem walksOnce_of_not_cutsTie (hcuts : ¬ CutsTie table statement params.limit) :
    WalksOnce table statement params := by
  intro h r
  obtain ⟨sorted, hsorted⟩ := exists_answers statement table
  have hfront : Fronted statement table sorted params h none := by
    generalize hend : (none : Option Nat) = finish at r
    clear hend
    induction r with
    | start => exact ⟨(Nat.zero_mul _).symm, by simp [received]⟩
    | snoc _ hstep ih => exact ih.step hsorted hcuts hstep
  refine ⟨hfront, fun t ht => ?_⟩
  rw [FetchRun.total r ht, List.Perm.length_eq hfront]

/-- Every fetch but the last is followed by a row that is still to come. -/
def Ahead (statement : Select α) (table : List α) (params : OffsetPaginationParams)
    (h : List (FetchTransition α)) : Option Nat → Prop
  | some offset => offset = h.length * params.limit ∧
      (h.length = 0 ∨ offset < (statement.matching table).length)
  | none => h.length ≤ (statement.matching table).length + 1

theorem Ahead.step (hahead : Ahead statement table params h o)
    (hstep : FetchStep table statement params o page o') :
    Ahead statement table params (h ++ [⟨o, page, o'⟩]) o' := by
  cases hstep with
  | @fetch offset answer page ha hpage =>
    obtain ⟨_, _, hmore⟩ := page_cases params offset ha hpage
    obtain ⟨rfl, hshort⟩ := hahead
    rw [answer_length ha] at hmore
    have hlimit := Nat.mul_le_mul_left h.length params.one_le
    cases hhas : page.hasMore with
    | true =>
      refine ⟨by simp [Nat.succ_mul], .inr (hmore.mp hhas)⟩
    | false =>
      change (h ++ [_]).length ≤ _
      simp only [List.length_append, List.length_singleton]
      omega

theorem FetchRun.length_le (r : FetchRun table statement params (some 0) h o) :
    h.length ≤ (statement.matching table).length + 1 := by
  have hahead : Ahead statement table params h o := by
    induction r with
    | start => exact ⟨(Nat.zero_mul _).symm, .inl rfl⟩
    | snoc _ hstep ih => exact ih.step hstep
  cases o with
  | none => exact hahead
  | some offset =>
    obtain ⟨rfl, hshort⟩ := hahead
    have hlimit := Nat.mul_le_mul_left h.length params.one_le
    omega

/-- From every offset the walk can be finished. -/
theorem exists_finish (hanswer : statement.Answers table answer) (offset : Nat) :
    ∃ h, FetchRun table statement params (some offset) h none := by
  induction hleft : answer.length - offset using Nat.strong_induction_on generalizing offset with
  | _ left ih =>
    have hstep := FetchStep.of_answer params offset hanswer
    obtain ⟨_, _, hmore⟩ := page_cases params offset hanswer rfl
    have hlimit := params.one_le
    cases hhas : (paginateOffset table statement answer { params with offset }).hasMore with
    | true =>
      rw [hhas] at hstep
      have hlt := hmore.mp hhas
      obtain ⟨h, r⟩ := ih _ (by omega) (offset + params.limit) rfl
      exact ⟨_, (Run.single hstep).append r⟩
    | false =>
      rw [hhas] at hstep
      exact ⟨_, Run.single hstep⟩

/-- The first pages, with one answer to every query. -/
theorem exists_front (params : OffsetPaginationParams) (n : Nat)
    (hanswer : statement.Answers table answer) (hn : n * params.limit < answer.length) :
    ∃ h, FetchRun table statement params (some 0) h (some (n * params.limit)) ∧
      received h = answer.take (n * params.limit) := by
  induction n with
  | zero =>
    rw [Nat.zero_mul]
    exact ⟨[], .start, rfl⟩
  | succ n ih =>
    have hnext : n * params.limit + params.limit = (n + 1) * params.limit := (Nat.succ_mul _ _).symm
    obtain ⟨h, r, hreceived⟩ := ih (by omega)
    have hstep := FetchStep.of_answer params (n * params.limit) hanswer
    obtain ⟨hitems, _, hmore⟩ := page_cases params (n * params.limit) hanswer rfl
    rw [hnext] at hmore hstep
    rw [hmore.mpr hn, if_pos rfl] at hstep
    refine ⟨_, r.snoc hstep, ?_⟩
    rw [received_snoc, hreceived, ← hnext, List.take_add]
    exact congrArg _ hitems

/-- The database may send the row before the boundary once more behind it. -/
theorem not_walksOnce_of_cutsTie (hnodup : table.Nodup)
    (hcuts : CutsTie table statement params.limit) : ¬ WalksOnce table statement params := by
  intro honce
  obtain ⟨n, hcut⟩ := hcuts
  obtain ⟨sorted, hsorted⟩ := exists_answers statement table
  obtain ⟨front, x, y, back, rfl, hlength, hswapped⟩ :=
    exists_swap (inOrder_preorder statement) hsorted.2 (hcut.of_perm hsorted.1.symm)
  have hanswer : statement.Answers table (front ++ y :: x :: back) := by
    refine ⟨List.Perm.trans ?_ hsorted.1, hswapped⟩
    exact (List.Perm.swap x y back).append_left front
  obtain ⟨h, r, hreceived⟩ := exists_front params n hsorted (by
    rw [hlength]
    simp)
  -- the page behind the boundary comes from the swapped answer
  have hstep := FetchStep.of_answer params (n * params.limit) hanswer
  obtain ⟨hitems, _, _⟩ := page_cases params (n * params.limit) hanswer rfl
  generalize hpage : paginateOffset table statement (front ++ y :: x :: back)
    { params with offset := n * params.limit } = page at hstep hitems
  obtain ⟨h', r'⟩ : ∃ h', FetchRun table statement params
      (if page.hasMore then some (n * params.limit + params.limit) else none) h' none := by
    cases page.hasMore with
    | true => exact exists_finish hanswer _
    | false => exact ⟨[], .start⟩
  have hperm := (honce _ ((r.snoc hstep).append r')).1
  have hrows := hperm.nodup_iff.mpr (hnodup.sublist List.filter_sublist)
  rw [received_append, received_snoc, hreceived] at hrows
  have hbefore : x ∈ (front ++ x :: y :: back).take (n * params.limit) := by
    rw [hlength, List.take_append]
    simp
  have hbehind : x ∈ page.items := by
    obtain ⟨limit, hlimit⟩ := Nat.exists_eq_add_of_le params.one_le
    rw [hitems, hlength, List.drop_append, List.drop_of_length_le (Nat.le_succ _)]
    simp [hlimit, Nat.add_comm 1 limit]
  have hdisjoint := (List.nodup_append.mp (List.nodup_append.mp hrows).1).2.2
  exact hdisjoint x hbefore x hbehind rfl

/-- Over every table, filter, sort field, order and limit: every walk ends, and it returns
each matching row once, whatever the database answers, if and only if no page boundary
goes through rows with equal sort keys. -/
theorem offset_walk_once_iff {base : Select α} {allowedFields : List (String × (α → SortKey))}
    {defaultField : α → SortKey} (hnodup : table.Nodup) :
    (WalksOnce table (applySort base params allowedFields defaultField) params ↔
      ¬ CutsTie table (applySort base params allowedFields defaultField) params.limit) ∧
    ∀ h o, FetchRun table (applySort base params allowedFields defaultField) params (some 0) h o →
      h.length ≤ (base.matching table).length + 1 ∧
      ∃ h', FetchRun table (applySort base params allowedFields defaultField) params o h' none := by
  refine ⟨⟨fun honce hcuts => not_walksOnce_of_cutsTie hnodup hcuts honce,
    walksOnce_of_not_cutsTie⟩, fun h o r => ?_⟩
  have hlength := FetchRun.length_le r
  refine ⟨hlength, ?_⟩
  cases o with
  | none => exact ⟨[], .start⟩
  | some offset =>
    obtain ⟨answer, hanswer⟩ :=
      exists_answers (applySort base params allowedFields defaultField) table
    exact exists_finish hanswer offset

/-- A sort key that tells all rows apart makes every boundary safe. -/
theorem not_cutsTie_of_unique (hunique : ∀ a ∈ statement.matching table,
    ∀ b ∈ statement.matching table, statement.InOrder a b → statement.InOrder b a → a = b)
    (hnodup : table.Nodup) (limit : Nat) : ¬ CutsTie table statement limit := by
  rintro ⟨n, hcut⟩
  obtain ⟨sorted, hsorted⟩ := exists_answers statement table
  obtain ⟨front, x, y, back, rfl, _, hswapped⟩ :=
    exists_swap (inOrder_preorder statement) hsorted.2 (hcut.of_perm hsorted.1.symm)
  have hrows := hsorted.1.nodup_iff.mpr (hnodup.sublist List.filter_sublist)
  have hxy := (List.pairwise_cons.mp (List.pairwise_append.mp hsorted.2).2.1).1 y (by simp)
  have hyx := (List.pairwise_cons.mp (List.pairwise_append.mp hswapped).2.1).1 x (by simp)
  have hx := hsorted.1.mem_iff.mp (show x ∈ front ++ x :: y :: back by simp)
  have hy := hsorted.1.mem_iff.mp (show y ∈ front ++ x :: y :: back by simp)
  obtain rfl := hunique x hx y hy hxy hyx
  have hback := (List.nodup_append.mp hrows).2.1
  simp at hback

/-- Without a sort field, or with one that is not allowed, the rows are sorted by id. -/
theorem default_sort_walks_once {id : α → Nat} {base : Select α}
    {allowedFields : List (String × (α → SortKey))} (hunique : (table.map id).Nodup)
    (hsort : params.sort.bind (fun sort => allowedFields.lookup sort) = none) :
    WalksOnce table (applySort base params allowedFields fun a => [(id a : ℚ)]) params := by
  refine walksOnce_of_not_cutsTie (not_cutsTie_of_unique ?_ hunique.of_map _)
  intro a ha b hb hab hba
  have horder : (applySort base params allowedFields fun a => [(id a : ℚ)]).orderBy =
      some (fun a => [(id a : ℚ)], params.order) := by
    simp [applySort, hsort]
  have hkey := key_eq_of_tied horder hab hba
  have hid : id a = id b := by simpa using hkey
  exact List.inj_on_of_nodup_map hunique (List.mem_of_mem_filter ha) (List.mem_of_mem_filter hb) hid

end Walks

section Routes

variable {dialect : Dialect} {s : Server} {credentials : Token} {params : OffsetPaginationParams}

/-- Once the permission is there, list_users answers with a page of its statement. -/
theorem listUsers_ok_iff {isActive : Option Bool} {answer : List User} {page : Page User} :
    listUsers dialect s credentials isActive params answer = .ok page ↔
      (∃ user, requirePermissions s credentials ["users:read"] = .ok user) ∧
        paginateOffset s.db.users (listUsersStatement dialect isActive params) answer params =
          page := by
  unfold listUsers
  cases requirePermissions s credentials ["users:read"] with
  | error e => simp
  | ok user => simp

/-- The files of list_my_files are those of the requester. -/
theorem listMyFiles_ok_iff {answer : List FileUpload} {page : Page FileUpload} :
    listMyFiles dialect s credentials params answer = .ok page ↔
      ∃ user, getCurrentUser s credentials = .ok user ∧
        paginateOffset s.db.fileUploads (listMyFilesStatement dialect user params) answer params =
          page := by
  unfold listMyFiles
  cases getCurrentUser s credentials with
  | error e => simp
  | ok user => simp

end Routes

def firstUser : User := ⟨1, "a@example.com", none, true, true, 0⟩

def secondUser : User := ⟨2, "b@example.com", none, true, true, 0⟩

/-- One row a page, sorted by is_active. -/
def sampleParams : OffsetPaginationParams :=
  { limit := 1, offset := 0, sort := some "is_active", order := .asc, q := none
    one_le := by decide, le_hundred := by decide }

/-- An active and an inactive user. -/
theorem offset_walk_once_iff_sample :
    WalksOnce [firstUser, { secondUser with isActive := false }]
      (listUsersStatement binaryDialect none sampleParams) sampleParams := by
  refine (offset_walk_once_iff (by decide)).1.mpr ?_
  rintro ⟨n, hcut⟩
  have hpages : n = 1 := by
    obtain ⟨x, _, hbefore, hupto⟩ := hcut
    have hlength := Nat.lt_of_lt_of_le hupto List.countP_le_length
    change n * 1 < 2 at hlength
    change _ < n * 1 at hbefore
    omega
  subst hpages
  revert hcut
  unfold Straddles
  decide +kernel

/-- Two active users: the second query may begin with the row that the first one sent. -/
theorem tied_rows_repeat :
    ∃ h, FetchRun [firstUser, secondUser]
        (listUsersStatement binaryDialect none sampleParams) sampleParams (some 0) h none ∧
      received h = [firstUser, firstUser] ∧
      ¬ (received h).Perm ((listUsersStatement binaryDialect none sampleParams).matching
        [firstUser, secondUser]) := by
  have firstAnswer : (listUsersStatement binaryDialect none sampleParams).Answers
      [firstUser, secondUser] [firstUser, secondUser] := by
    unfold Select.Answers
    decide +kernel
  have secondAnswer : (listUsersStatement binaryDialect none sampleParams).Answers
      [firstUser, secondUser] [secondUser, firstUser] := by
    unfold Select.Answers
    decide +kernel
  refine ⟨_, .snoc (.snoc .start (.fetch firstAnswer rfl)) (.fetch secondAnswer rfl), rfl, ?_⟩
  change ¬ [firstUser, firstUser].Perm [firstUser, secondUser]
  decide

end FastApiAuth.OffsetWalk
