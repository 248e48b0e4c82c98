import FastApiAuth.Pagination
import FastApiAuth.Library.Runs

/-!
# Following next_cursor

A client asks for the first page and follows `next_cursor` until there is none, while
rows come and go between its requests. The pages list ascending ids, and everything up
to the last id seen has been seen, if it was there all the time.
-/

namespace FastApiAuth.CursorWalk

set_option autoImplicit false

open PyCodecs Runs SortedByKey
open PyInt (decimalDigits)
open PyStr (CodePoint)

section OnePage

variable {α : Type} {id : α → Nat} {table : List α} {statement : Select α} {limit : Nat}
variable {page : CursorPage α}

/-- What a client may rely on in one page. -/
structure PageOf (id : α → Nat) (table : List α) (statement : Select α) (limit : Nat)
    (page : CursorPage α) : Prop where
  ascending : Ascending id page.items
  sound : ∀ a ∈ page.items, a ∈ table ∧ statement.accepts a = true
  hasMore : page.hasMore = true ↔ page.nextCursor.isSome = true
  last : page.nextCursor = none → ∀ a ∈ table, statement.accepts a = true → a ∈ page.items
  more : ∀ cursor, page.nextCursor = some cursor → page.items.length = limit ∧
    ∃ last, page.items.getLast? = some last ∧ encodeCursor (id last) = .ok cursor ∧
      ∀ a ∈ table, statement.accepts a = true → id a ≤ id last → a ∈ page.items

theorem mem_sortById_matching {a : α} :
    a ∈ sortById id (statement.matching table) ↔ a ∈ table ∧ statement.accepts a = true := by
  rw [(sortById_perm id _).mem_iff, Select.matching, List.mem_filter]

/-- The rows of the page, and the cursor it has if there are more. -/
theorem cursorPage_cases {sorted : List α}
    (hsorted : sortById id (statement.matching table) = sorted) (hlimit : 1 ≤ limit)
    (hpage : cursorPage id table statement limit = .ok page) :
    page.items = sorted.take limit ∧
    (sorted.length ≤ limit ∧ page.hasMore = false ∧ page.nextCursor = none ∨
      limit < sorted.length ∧ page.hasMore = true ∧
        ∃ last cursor, (sorted.take limit).getLast? = some last ∧
          encodeCursor (id last) = .ok cursor ∧ page.nextCursor = some cursor) := by
  have hitems : (sorted.take (limit + 1)).take limit = sorted.take limit := by
    rw [List.take_take, min_eq_left (Nat.le_succ limit)]
  have hlength : limit < (sorted.take (limit + 1)).length ↔ limit < sorted.length := by
    rw [List.length_take]
    omega
  simp only [cursorPage, hsorted, hitems, hlength] at hpage
  by_cases hmore : limit < sorted.length
  · have hne : sorted.take limit ≠ [] := by
      rw [Ne, List.take_eq_nil_iff]
      rintro (hzero | hnil)
      · omega
      · simp [hnil] at hmore
    have hlast := List.getLast?_eq_some_getLast hne
    simp only [hmore, decide_true, if_true, hlast] at hpage
    cases hcursor : encodeCursor (id ((sorted.take limit).getLast hne)) with
    | error e =>
      rw [hcursor] at hpage
      cases hpage
    | ok cursor =>
      rw [hcursor] at hpage
      cases hpage
      exact ⟨rfl, .inr ⟨hmore, rfl, _, cursor, hlast, hcursor, rfl⟩⟩
  · simp only [hmore, decide_false, Bool.false_eq_true, if_false] at hpage
    cases hpage
    exact ⟨rfl, .inl ⟨Nat.not_lt.mp hmore, rfl, rfl⟩⟩

theorem cursorPage_spec (hunique : (table.map id).Nodup) (hlimit : 1 ≤ limit)
    (hpage : cursorPage id table statement limit = .ok page) :
    PageOf id table statement limit page := by
  have hascending : Ascending id (sortById id (statement.matching table)) :=
    sortById_ascending (hunique.sublist (List.filter_sublist.map id))
  have hmem := @mem_sortById_matching α id table statement
  generalize hsorted : sortById id (statement.matching table) = sorted at hascending hmem
  obtain ⟨hitems, hend⟩ := cursorPage_cases hsorted hlimit hpage
  have hsound : ∀ a ∈ page.items, a ∈ table ∧ statement.accepts a = true := by
    rw [hitems]
    exact fun a ha => hmem.mp (List.mem_of_mem_take ha)
  have hsublist : Ascending id page.items := by
    rw [hitems]
    exact hascending.sublist (List.take_sublist _ _)
  rcases hend with ⟨hall, hmore, hnext⟩ | ⟨hmore, hhas, last, cursor, hlast, hencoded, hnext⟩
  · refine ⟨hsublist, hsound, by simp [hmore, hnext], fun _ a ha hacc => ?_, ?_⟩
    · rw [hitems, List.take_of_length_le hall]
      exact hmem.mpr ⟨ha, hacc⟩
    · intro cursor hcursor
      rw [hnext] at hcursor
      cases hcursor
  · refine ⟨hsublist, hsound, by simp [hhas, hnext], ?_, ?_⟩
    · intro hnone
      rw [hnext] at hnone
      cases hnone
    · intro cursor' hcursor
      obtain rfl := Option.some_inj.mp (hnext.symm.trans hcursor)
      have hlength : page.items.length = limit := by
        rw [hitems, List.length_take]
        omega
      refine ⟨hlength, last, by rw [hitems]; exact hlast, hencoded, fun a ha hacc hle => ?_⟩
      rw [hitems]
      exact hascending.mem_take hlast (hmem.mpr ⟨ha, hacc⟩) hle

/-- There is a page, as long as the cursors of the rows can be written. -/
theorem exists_cursorPage (limit : Nat) (statement : Select α)
    (hids : ∀ a ∈ table, decimalDigits (id a) ≤ maxStrDigits) :
    ∃ page, cursorPage id table statement limit = .ok page := by
  simp only [cursorPage]
  split
  · exact ⟨_, rfl⟩
  · rename_i last hlast
    have hmem : last ∈ table := by
      split at hlast
      · have hrow := List.mem_of_mem_take (List.mem_of_mem_take (List.mem_of_getLast? hlast))
        exact (mem_sortById_matching.mp hrow).1
      · cases hlast
    rw [encodeCursor_eq (hids last hmem)]
    exact ⟨_, rfl⟩

end OnePage

section Walk

/-- Where the client stands. -/
inductive Position where
  | first
  | after (cursor : List CodePoint)
  | finished

structure Walk where
  table : List User
  position : Position

inductive Event where
  | changes
  | fetch (page : CursorPage User)

def Event.items : Event → List User
  | .changes => []
  | .fetch page => page.items

/-- The cursor of the next request, if there is to be one. -/
def Position.request : Position → Option (Option (List CodePoint))
  | .first => some none
  | .after cursor => some (some cursor)
  | .finished => none

def follow (page : CursorPage User) : Position :=
  match page.nextCursor with
  | none => .finished
  | some cursor => .after cursor

def UniqueIds (table : List User) : Prop := (table.map User.id).Nodup

/-- `users.id` is an INTEGER column. -/
def IntegerIds (table : List User) : Prop := ∀ u ∈ table, u.id < 2 ^ 31

theorem decimalDigits_le_maxStrDigits {id : Nat} (h : id < 2 ^ 31) :
    decimalDigits id ≤ maxStrDigits := by
  have hten : decimalDigits id ≤ 10 :=
    (Nat.length_toDigits_le_iff (by decide) (by decide)).mpr (h.trans (by decide))
  exact hten.trans (by decide)

/-- The page of the feed behind `cursor`. -/
def feedPage (unicode : UnicodeData) (dialect : Dialect) (params : CursorPaginationParams)
    (table : List User) (cursor : Option (List CodePoint)) :
    Except PyException (CursorPage User) :=
  paginateCursor unicode User.id table (listUsersFeedStatement dialect params.q) cursor params.limit

/-- Between two requests rows may be inserted and deleted in any way that keeps the ids
apart. -/
inductive WalkStep (unicode : UnicodeData) (dialect : Dialect) (params : CursorPaginationParams) :
    Walk → Event → Walk → Prop where
  | changes {table table' : List User} {position : Position} :
      UniqueIds table' →
      WalkStep unicode dialect params ⟨table, position⟩ .changes ⟨table', position⟩
  | fetch {table : List User} {position : Position} {cursor : Option (List CodePoint)}
      {page : CursorPage User} : position.request = some cursor →
      feedPage unicode dialect params table cursor = .ok page →
      WalkStep unicode dialect params ⟨table, position⟩ (.fetch page) ⟨table, follow page⟩

abbrev WalkTransition := Transition Walk Event

abbrev WalkRun (unicode : UnicodeData) (dialect : Dialect) (params : CursorPaginationParams) :
    Walk → List WalkTransition → Walk → Prop :=
  Run (WalkStep unicode dialect params)

/-- All rows received so far, page by page. -/
def received (h : List WalkTransition) : List User := h.flatMap fun t => t.label.items

/-- The row is in the table at every fetch. -/
def Stays (h : List WalkTransition) (u : User) : Prop :=
  ∀ t ∈ h, ∀ page, t.label = .fetch page → u ∈ t.source.table

end Walk

section Walks

variable {unicode : UnicodeData} {dialect : Dialect} {params : CursorPaginationParams}
variable {w w' : Walk} {e : Event}
variable {h : List WalkTransition} {u : User}

/-- The route answers with the page, once the permission is there. -/
theorem listUsersFeed_ok_iff {s : Server} {credentials : Token} {page : CursorPage User} :
    listUsersFeed unicode dialect s credentials params.cursor params.limit params.q =
        .ok (.ok page) ↔
      (∃ user, requirePermissions s credentials ["users:read"] = .ok user) ∧
        feedPage unicode dialect params s.db.users params.cursor = .ok page := by
  unfold listUsersFeed feedPage
  cases requirePermissions s credentials ["users:read"] with
  | error e => simp
  | ok user =>
    cases paginateCursor unicode User.id s.db.users (listUsersFeedStatement dialect params.q)
        params.cursor params.limit with
    | error e => cases hvalue : e.type.isValueError <;> simp [hvalue]
    | ok page' => simp

theorem received_snoc {t : WalkTransition} : received (h ++ [t]) = received h ++ t.label.items := by
  simp [received]

theorem Stays.of_snoc {t : WalkTransition} (hs : Stays (h ++ [t]) u) : Stays h u :=
  fun t' ht' => hs t' (List.mem_append_left _ ht')

/-- The rows with this id are behind the client. -/
def Behind (h : List WalkTransition) (w : Walk) (id : Nat) : Prop :=
  match w.position with
  | .first => False
  | .after _ => ∃ last, (received h).getLast? = some last ∧ id ≤ last.id
  | .finished => True

/-- In every state of a walk. -/
structure Sound (dialect : Dialect) (params : CursorPaginationParams) (h : List WalkTransition)
    (w : Walk) : Prop where
  unique : UniqueIds w.table
  ascending : Ascending User.id (received h)
  fresh : w.position = .first → received h = []
  cursor : ∀ cursor, w.position = .after cursor →
    ∃ last, (received h).getLast? = some last ∧ encodeCursor last.id = .ok cursor
  complete : ∀ u, (listUsersFeedStatement dialect params.q).accepts u = true → Stays h u →
    Behind h w u.id → u ∈ received h

theorem accepts_addWhere {statement : Select User} {condition : User → Bool} :
    (statement.addWhere condition).accepts u = true ↔
      statement.accepts u = true ∧ condition u = true := by
  simp [Select.addWhere, Select.accepts]

/-- The page behind a position: all of it is ahead of what has been received, and it
continues where that ends. -/
theorem Sound.page (hs : Sound dialect params h w) {cursor : Option (List CodePoint)}
    {page : CursorPage User} (hrequest : w.position.request = some cursor)
    (hpage : feedPage unicode dialect params w.table cursor = .ok page) :
    ∃ statement, PageOf User.id w.table statement params.limit page ∧
      (∀ u, statement.accepts u = true →
        (listUsersFeedStatement dialect params.q).accepts u = true ∧
          ∀ a ∈ received h, a.id < u.id) ∧
      ∀ u, (listUsersFeedStatement dialect params.q).accepts u = true → ¬ Behind h w u.id →
        statement.accepts u = true := by
  obtain ⟨table, position⟩ := w
  cases position with
  | first =>
    obtain rfl : none = cursor := Option.some_inj.mp hrequest
    refine ⟨_, cursorPage_spec hs.unique params.one_le hpage, fun u hu => ⟨hu, ?_⟩,
      fun u hu _ => hu⟩
    rw [hs.fresh rfl]
    simp
  | after c =>
    obtain rfl : some c = cursor := Option.some_inj.mp hrequest
    obtain ⟨last, hlast, hcursor⟩ := hs.cursor c rfl
    simp only [feedPage, paginateCursor, decodeCursor_encodeCursor hcursor] at hpage
    refine ⟨_, cursorPage_spec hs.unique params.one_le hpage, fun u hu => ?_,
      fun u hu hahead => ?_⟩
    · obtain ⟨hacc, hlt⟩ := accepts_addWhere.mp hu
      refine ⟨hacc, fun a ha => (hs.ascending.le_last hlast ha).trans_lt ?_⟩
      simpa using hlt
    · refine accepts_addWhere.mpr ⟨hu, ?_⟩
      have hlt : ¬ u.id ≤ last.id := fun hle => hahead ⟨last, hlast, hle⟩
      simpa using hlt
  | finished => cases hrequest

theorem follow_ne_first {page : CursorPage User} : follow page ≠ .first := by
  unfold follow
  cases page.nextCursor <;> simp

theorem follow_eq_after_iff {page : CursorPage User} {cursor : List CodePoint} :
    follow page = .after cursor ↔ page.nextCursor = some cursor := by
  unfold follow
  cases page.nextCursor <;> simp

theorem follow_eq_finished_iff {page : CursorPage User} :
    follow page = .finished ↔ page.nextCursor = none := by
  unfold follow
  cases page.nextCursor <;> simp

theorem Sound.step (hs : Sound dialect params h w)
    (hstep : WalkStep unicode dialect params w e w') :
    Sound dialect params (h ++ [⟨w, e, w'⟩]) w' := by
  cases hstep with
  | @changes table table' position hunique =>
    have hsame : received (h ++ [⟨⟨table, position⟩, .changes, ⟨table', position⟩⟩]) =
        received h := by
      rw [received_snoc]
      exact List.append_nil _
    refine ⟨hunique, by rw [hsame]; exact hs.ascending, fun hfirst => ?_, fun cursor hafter => ?_,
      fun u hu hstays hbehind => ?_⟩
    · rw [hsame]
      exact hs.fresh hfirst
    · rw [hsame]
      exact hs.cursor cursor hafter
    · rw [hsame]
      refine hs.complete u hu hstays.of_snoc ?_
      unfold Behind at hbehind ⊢
      rw [hsame] at hbehind
      exact hbehind
  | @fetch table position cursor page hrequest hpage =>
    obtain ⟨statement, hp, hahead, hfilter⟩ := hs.page hrequest hpage
    have hreceived : received (h ++ [⟨⟨table, position⟩, .fetch page, ⟨table, follow page⟩⟩]) =
        received h ++ page.items := received_snoc
    have hlast : ∀ last, page.items.getLast? = some last →
        (received h ++ page.items).getLast? = some last := by
      intro last hlast
      simp [List.getLast?_append, hlast]
    refine ⟨hs.unique, ?_, fun hfirst => ?_, fun cursor hafter => ?_, fun u hu hstays hbehind => ?_⟩
    · rw [hreceived]
      refine List.pairwise_append.mpr ⟨hs.ascending, hp.ascending, fun a ha b hb => ?_⟩
      exact (hahead b (hp.sound b hb).2).2 a ha
    · exact absurd hfirst follow_ne_first
    · obtain ⟨_, last, hget, hcursor, _⟩ := hp.more _ (follow_eq_after_iff.mp hafter)
      exact ⟨last, by rw [hreceived]; exact hlast last hget, hcursor⟩
    · rw [hreceived]
      by_cases hbefore : Behind h ⟨table, position⟩ u.id
      · exact List.mem_append_left _ (hs.complete u hu hstays.of_snoc hbefore)
      · refine List.mem_append_right _ ?_
        have hacc := hfilter u hu hbefore
        have htable : u ∈ table := hstays _ (List.mem_append_right _ (List.mem_singleton_self _))
          page rfl
        cases hnext : page.nextCursor with
        | none => exact hp.last hnext u htable hacc
        | some cursor' =>
          obtain ⟨_, last, hget, _, hall⟩ := hp.more _ hnext
          simp only [Behind, follow_eq_after_iff.mpr hnext] at hbehind
          obtain ⟨last', hsame, hle⟩ := hbehind
          rw [received_snoc] at hsame
          obtain rfl := Option.some_inj.mp ((hlast last hget).symm.trans hsame)
          exact hall u htable hacc hle

theorem WalkRun.sound {table : List User} (hunique : UniqueIds table)
    (r : WalkRun unicode dialect params ⟨table, .first⟩ h w) : Sound dialect params h w := by
  induction r with
  | start =>
    refine ⟨hunique, .nil, fun _ => rfl, fun cursor hafter => ?_, fun u _ _ hbehind => ?_⟩
    · cases hafter
    · exact hbehind.elim
  | snoc _ hstep ih => exact ih.step hstep

theorem WalkRun.hasMore {table : List User} (hunique : UniqueIds table)
    (r : WalkRun unicode dialect params ⟨table, .first⟩ h w) {t : WalkTransition} (ht : t ∈ h)
    {page : CursorPage User} (hlabel : t.label = .fetch page) :
    page.hasMore = true ↔ page.nextCursor.isSome = true := by
  obtain ⟨before, _, rb, hstep⟩ := r.step_of_mem ht
  obtain ⟨source, label, target⟩ := t
  obtain rfl : label = .fetch page := hlabel
  have hs := WalkRun.sound hunique rb
  cases hstep with
  | fetch hrequest hpage =>
    obtain ⟨_, hp, _⟩ := hs.page hrequest hpage
    exact hp.hasMore

/-- A walk on one table: what has been received are matching rows, and each page but
the last has brought at least one. -/
structure Settled (dialect : Dialect) (params : CursorPaginationParams) (table : List User)
    (h : List WalkTransition) (w : Walk) : Prop where
  unchanged : w.table = table
  sound : ∀ u ∈ received h, u ∈ table ∧ (listUsersFeedStatement dialect params.q).accepts u = true
  stays : ∀ u ∈ table, Stays h u
  short : w.position = .finished ∧ h.length ≤ (received h).length + 1 ∨
    h.length ≤ (received h).length

theorem Settled.step {table : List User} (hs : Sound dialect params h w)
    (hsettled : Settled dialect params table h w) (hstep : WalkStep unicode dialect params w e w')
    (hfetch : e ≠ .changes) : Settled dialect params table (h ++ [⟨w, e, w'⟩]) w' := by
  cases hstep with
  | changes _ => exact absurd rfl hfetch
  | @fetch table' position cursor page hrequest hpage =>
    obtain rfl : table' = table := hsettled.unchanged
    obtain ⟨statement, hp, hahead, _⟩ := hs.page hrequest hpage
    have hreceived : received (h ++ [⟨⟨table', position⟩, .fetch page, ⟨table', follow page⟩⟩]) =
        received h ++ page.items := received_snoc
    have hunfinished : h.length ≤ (received h).length := by
      rcases hsettled.short with ⟨rfl, _⟩ | hshort
      · cases hrequest
      · exact hshort
    refine ⟨rfl, fun u hu => ?_, fun u hu t ht page' hlabel => ?_, ?_⟩
    · rw [hreceived] at hu
      rcases List.mem_append.mp hu with hu | hu
      · exact hsettled.sound u hu
      · exact ⟨(hp.sound u hu).1, (hahead u (hp.sound u hu).2).1⟩
    · rcases List.mem_append.mp ht with ht | ht
      · exact hsettled.stays u hu t ht page' hlabel
      · rw [List.mem_singleton.mp ht]
        exact hu
    · rw [hreceived]
      simp only [List.length_append, List.length_singleton]
      cases hnext : page.nextCursor with
      | none => exact .inl ⟨follow_eq_finished_iff.mpr hnext, by omega⟩
      | some cursor' =>
        obtain ⟨hlength, _⟩ := hp.more _ hnext
        have hlimit := params.one_le
        exact .inr (by omega)

theorem WalkRun.settled {table : List User} (hunique : UniqueIds table)
    (r : WalkRun unicode dialect params ⟨table, .first⟩ h w)
    (hfetches : ∀ t ∈ h, t.label ≠ .changes) :
    Settled dialect params table h w := by
  induction r with
  | start => exact ⟨rfl, by simp [received], by simp [Stays], .inr le_rfl⟩
  | @snoc h w w' e r hstep ih =>
    have hbefore := ih fun t ht => hfetches t (List.mem_append_left _ ht)
    have hlast := hfetches ⟨w, e, w'⟩ (by simp)
    exact hbefore.step (WalkRun.sound hunique r) hstep hlast

/-- As long as the client has a request to make, there is a page for it. -/
theorem Sound.progress (hs : Sound dialect params h w) (hopen : w.position ≠ .finished)
    (hids : IntegerIds w.table) :
    ∃ page w', WalkStep unicode dialect params w (.fetch page) w' := by
  have hdigits : ∀ u ∈ w.table, decimalDigits u.id ≤ maxStrDigits :=
    fun u hu => decimalDigits_le_maxStrDigits (hids u hu)
  obtain ⟨table, position⟩ := w
  cases position with
  | first =>
    obtain ⟨page, hpage⟩ := exists_cursorPage params.limit
      (listUsersFeedStatement dialect params.q) hdigits
    exact ⟨page, _, .fetch rfl hpage⟩
  | after c =>
    obtain ⟨last, _, hcursor⟩ := hs.cursor c rfl
    obtain ⟨page, hpage⟩ := exists_cursorPage params.limit
      ((listUsersFeedStatement dialect params.q).addWhere fun u => (last.id : Int) < u.id) hdigits
    have hfeed : feedPage unicode dialect params table (some c) = .ok page := by
      simp only [feedPage, paginateCursor, decodeCursor_encodeCursor hcursor, hpage]
    exact ⟨page, _, .fetch rfl hfeed⟩
  | finished => exact absurd rfl hopen

/-- Whatever happens to the table between the requests, with the ids kept apart: the
pages list strictly ascending ids, `has_more` says whether there is a next cursor, and a
finished walk has brought every matching row that was there at every request. On a table
that stays as it is every walk ends, after at most one page for each matching row and one
more, and has then brought the sorted list of the matching rows; the ids are INTEGERs there. -/
theorem cursor_walk_complete {table : List User} (hunique : UniqueIds table)
    (r : WalkRun unicode dialect params ⟨table, .first⟩ h w) :
    ((received h).map User.id).Nodup ∧
    ((received h).map User.id).Pairwise (· < ·) ∧
    (∀ t ∈ h, ∀ page, t.label = .fetch page →
      (page.hasMore = true ↔ page.nextCursor.isSome = true)) ∧
    (w.position = .finished → ∀ u,
      (listUsersFeedStatement dialect params.q).accepts u = true → Stays h u → u ∈ received h) ∧
    ((∀ t ∈ h, t.label ≠ .changes) →
      h.length ≤ ((listUsersFeedStatement dialect params.q).matching table).length + 1 ∧
      (IntegerIds table → w.position ≠ .finished →
        ∃ page w', WalkStep unicode dialect params w (.fetch page) w') ∧
      (w.position = .finished → received h =
        sortById User.id ((listUsersFeedStatement dialect params.q).matching table))) := by
  have hs := WalkRun.sound hunique r
  refine ⟨hs.ascending.nodup_map, List.pairwise_map.mpr hs.ascending,
    fun t ht page => WalkRun.hasMore hunique r ht, fun hfinished u hu hstays => ?_,
    fun hfetches => ⟨?_, fun hids hopen => ?_, fun hfinished => ?_⟩⟩
  · refine hs.complete u hu hstays ?_
    simp only [Behind, hfinished]
  · have hsettled := WalkRun.settled hunique r hfetches
    have hsubset : received h ⊆ (listUsersFeedStatement dialect params.q).matching table :=
      fun u hu => List.mem_filter.mpr (hsettled.sound u hu)
    have hle := (List.subperm_of_subset hs.ascending.nodup hsubset).length_le
    rcases hsettled.short with ⟨_, hshort⟩ | hshort
    · exact hshort.trans (by omega)
    · exact hshort.trans (by omega)
  · have hsettled := WalkRun.settled hunique r hfetches
    exact hs.progress hopen (by rw [hsettled.unchanged]; exact hids)
  · have hsettled := WalkRun.settled hunique r hfetches
    refine hs.ascending.ext ?_ fun u => ⟨fun hu => ?_, fun hu => ?_⟩
    · exact sortById_ascending (hunique.sublist (List.filter_sublist.map _))
    · exact mem_sortById_matching.mpr (hsettled.sound u hu)
    · obtain ⟨htable, hacc⟩ := mem_sortById_matching.mp hu
      refine hs.complete u hacc (hsettled.stays u htable) ?_
      simp only [Behind, hfinished]

end Walks

def sampleUser (id : Nat) (email : String) : User :=
  { id, email, hashedPassword := none, isActive := true, isVerified := true, createdAt := 0 }

/-- Two rows a page, without a search. -/
def sampleParams : CursorPaginationParams :=
  { cursor := none, limit := 2, q := none, one_le := by decide, le_hundred := by decide }

def sampleTable : List User :=
  [sampleUser 3 "c@example.com", sampleUser 2 "b@example.com", sampleUser 1 "a@example.com"]

/-- After the first page its first row is deleted and a fourth row is inserted. -/
def changedTable : List User :=
  [sampleUser 4 "d@example.com", sampleUser 3 "c@example.com", sampleUser 2 "b@example.com"]

def firstPage : CursorPage User where
  items := [sampleUser 1 "a@example.com", sampleUser 2 "b@example.com"]
  nextCursor := some (codePoints "Mg==")
  hasMore := true

def lastPage : CursorPage User where
  items := [sampleUser 3 "c@example.com", sampleUser 4 "d@example.com"]
  nextCursor := none
  hasMore := false

theorem uniqueIds_sampleTable : UniqueIds sampleTable := by
  unfold UniqueIds
  decide

theorem feedPage_sampleTable :
    feedPage asciiOnly binaryDialect sampleParams sampleTable none = .ok firstPage := by
  have hall : (listUsersFeedStatement binaryDialect none).matching sampleTable = sampleTable := rfl
  have hsorted : sortById User.id sampleTable = sampleTable.reverse :=
    (answer_eq_sortById uniqueIds_sampleTable (by decide) (by unfold Sorted; decide)).symm
  change cursorPage User.id sampleTable (listUsersFeedStatement binaryDialect none) 2 = _
  simp only [cursorPage, hall, hsorted]
  decide +kernel

theorem feedPage_changedTable :
    feedPage asciiOnly binaryDialect sampleParams changedTable (some (codePoints "Mg==")) =
      .ok lastPage := by
  have hdecoded : decodeCursor asciiOnly (codePoints "Mg==") = .ok 2 := by decide +kernel
  have hrest : ((listUsersFeedStatement binaryDialect none).addWhere
      fun u => (2 : Int) < u.id).matching changedTable = lastPage.items.reverse := by
    decide +kernel
  have hsorted : sortById User.id lastPage.items.reverse = lastPage.items :=
    (answer_eq_sortById (by decide) (by decide) (by unfold Sorted; decide)).symm
  simp only [feedPage, paginateCursor, hdecoded]
  change cursorPage User.id changedTable ((listUsersFeedStatement binaryDialect none).addWhere
    fun u => (2 : Int) < u.id) 2 = _
  simp only [cursorPage, hrest, hsorted]
  decide +kernel

/-- The pages list the rows 1 to 4: the row that went was seen before, the row that came is seen
in its place. Row 3, which stays, is among them by the theorem. -/
theorem cursor_walk_complete_sample :
    ∃ h, WalkRun asciiOnly binaryDialect sampleParams ⟨sampleTable, .first⟩ h
        ⟨changedTable, .finished⟩ ∧
      (received h).map User.id = [1, 2, 3, 4] ∧
      ((received h).map User.id).Pairwise (· < ·) ∧ sampleUser 3 "c@example.com" ∈ received h := by
  have hchanged : UniqueIds changedTable := by
    unfold UniqueIds
    decide
  have run : WalkRun asciiOnly binaryDialect sampleParams ⟨sampleTable, .first⟩ _
      ⟨changedTable, .finished⟩ :=
    .snoc (.snoc (.snoc .start (.fetch rfl feedPage_sampleTable)) (.changes hchanged))
      (.fetch rfl feedPage_changedTable)
  have hwalk := cursor_walk_complete uniqueIds_sampleTable run
  refine ⟨_, run, rfl, hwalk.2.1, hwalk.2.2.2.1 rfl _ rfl ?_⟩
  intro t ht page _
  simp only [List.nil_append, List.mem_append, List.mem_singleton] at ht
  rcases ht with (rfl | rfl) | rfl
  · simp [sampleTable]
  · simp [sampleTable]
  · simp [changedTable]

end FastApiAuth.CursorWalk
