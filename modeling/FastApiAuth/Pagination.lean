import FastApiAuth.Server
import FastApiAuth.Library.PyCodecs
import FastApiAuth.Library.SortedByKey
import FastApiAuth.Library.TiedOrders
import Mathlib.Data.List.Lex
import Mathlib.Algebra.Order.Ring.Rat

/-!
# app/services/pagination.py and the routes that use it

A `Select` is what the handlers build up: conditions and at most one sort key. SQL
fixes the rows of the answer and their order up to rows with equal keys; which of
those answers comes is the database's choice in every query.
-/

namespace FastApiAuth

set_option autoImplicit false

open PyCodecs
open PyInt (decimalDigits)
open PyStr (CodePoint)

/-- A sort key as the database compares it: a number or a flag is a list of one, a text
is whatever the collation makes of it. -/
abbrev SortKey := List ℚ

/-- What the handlers leave to the database: the case folding of ILIKE, and the collation. -/
structure Dialect where
  fold : Char → Char
  collate : String → SortKey

/-- Texts by their code points, with the case of ASCII letters folded in searches. -/
def binaryDialect : Dialect where
  fold := Char.toLower
  collate := fun text => text.toList.map fun c => (c.toNat : ℚ)

inductive SortOrder where
  | asc
  | desc
  deriving DecidableEq

section Select

structure Select (α : Type) where
  conditions : List (α → Bool) := []
  orderBy : Option ((α → SortKey) × SortOrder) := none

end Select

namespace Select

variable {α : Type}

def addWhere (statement : Select α) (condition : α → Bool) : Select α :=
  { statement with conditions := statement.conditions ++ [condition] }

def accepts (statement : Select α) (row : α) : Bool := statement.conditions.all fun c => c row

def matching (statement : Select α) (table : List α) : List α := table.filter statement.accepts

/-- `a` may stand before `b`. -/
def InOrder (statement : Select α) (a b : α) : Prop :=
  match statement.orderBy with
  | none => True
  | some (key, .asc) => key a ≤ key b
  | some (key, .desc) => key b ≤ key a

/-- What SQL promises of an answer without LIMIT. -/
def Answers (statement : Select α) (table answer : List α) : Prop :=
  answer.Perm (statement.matching table) ∧ answer.Pairwise statement.InOrder

end Select

variable {α : Type}

section SearchAndSort

/-- LIKE with the backslash as escape character. -/
def like : List Char → List Char → Bool
  | [], text => text.isEmpty
  | '%' :: pattern, text => text.tails.any fun rest => like pattern rest
  | '\\' :: c :: pattern, text =>
    match text with
    | [] => false
    | d :: rest => c = d && like pattern rest
  | '_' :: pattern, _ :: rest => like pattern rest
  | c :: pattern, d :: rest => c ≠ '_' && c = d && like pattern rest
  | _ :: _, [] => false

def ilike (dialect : Dialect) (text pattern : String) : Bool :=
  like (pattern.toList.map dialect.fold) (text.toList.map dialect.fold)

def containsPattern (q : String) : String := "%" ++ q ++ "%"

def applySearch (dialect : Dialect) (statement : Select α) (q : Option String)
    (searchFields : List (α → String)) : Select α :=
  match q with
  | none => statement
  | some q =>
    if q = "" ∨ searchFields = [] then statement
    else statement.addWhere fun row =>
      searchFields.any fun field => ilike dialect (field row) (containsPattern q)

/-- `limit` and `offset` within the bounds of their query parameters. -/
structure OffsetPaginationParams where
  limit : Nat
  offset : Nat
  sort : Option String
  order : SortOrder
  q : Option String
  one_le : 1 ≤ limit
  le_hundred : limit ≤ 100

/-- `none` is the rejection of the query parameters. -/
def getOffsetPagination (limit offset : Int) (sort : Option String) (order : SortOrder)
    (q : Option String) : Option OffsetPaginationParams :=
  if h : 1 ≤ limit ∧ limit ≤ 100 ∧ 0 ≤ offset then
    some ⟨limit.toNat, offset.toNat, sort, order, q, by omega, by omega⟩
  else none

/-- `allowedFields` are the fields that `sort` may name, each with its column. -/
def applySort (statement : Select α) (params : OffsetPaginationParams)
    (allowedFields : List (String × (α → SortKey))) (defaultField : α → SortKey) : Select α :=
  let column := (params.sort.bind fun sort => allowedFields.lookup sort).getD defaultField
  { statement with orderBy := some (column, params.order) }

end SearchAndSort

section OffsetPages

structure Page (α : Type) where
  items : List α
  total : Nat
  limit : Nat
  offset : Nat
  hasMore : Bool

/-- `answer` is the order in which the database sends the rows of this query. -/
def paginateOffset (table : List α) (statement : Select α) (answer : List α)
    (params : OffsetPaginationParams) : Page α :=
  let total := (statement.matching table).length
  let items := (answer.drop params.offset).take params.limit
  { items, total, limit := params.limit, offset := params.offset
    hasMore := params.offset + items.length < total }

end OffsetPages

section CursorPages

def encodeCursor (value : Int) : Except PyException (List CodePoint) :=
  match printInt value with
  | .error e => .error e
  | .ok text => .ok (codePoints (Base64.encode (Utf8.encode text.toList)))

/-- The body of the `try` in decode_cursor. -/
def readCursor (unicode : UnicodeData) (cursor : List CodePoint) : Except PyException Int := do
  let data ← encodeText cursor
  let bytes ← urlsafeB64decode data
  let text ← decodeText bytes
  parseInt unicode text

def invalidCursorError : PyException := ⟨.valueError, some "Invalid cursor"⟩

def decodeCursor (unicode : UnicodeData) (cursor : List CodePoint) : Except PyException Int :=
  match readCursor unicode cursor with
  | .ok value => .ok value
  | .error e =>
    if e.type.isValueError || e.type = .unicodeDecodeError then .error invalidCursorError
    else .error e

section Codec

variable {unicode : UnicodeData} {value : Int} {e : PyException}

theorem readCursor_eq (unicode : UnicodeData) (cursor : List CodePoint) :
    readCursor unicode cursor = (encodeText cursor).bind fun data =>
      (urlsafeB64decode data).bind fun bytes => (decodeText bytes).bind (parseInt unicode) := rfl

/-- A cursor that has been encoded, step by step. -/
theorem readCursor_encode (unicode : UnicodeData) (text : String) :
    readCursor unicode (codePoints (Base64.encode (Utf8.encode text.toList))) =
      parseInt unicode text := by
  rw [readCursor_eq, encodeText_codePoints, Except.bind, urlsafeB64decode,
    Base64.decodeBytes_encode, Base64.decode_encode]
  simp only [Except.bind, decodeText, Utf8.decode_encode]

theorem readCursor_error {cursor : List CodePoint} (h : readCursor unicode cursor = .error e) :
    e.type.isValueError = true := by
  rw [readCursor_eq] at h
  rcases error_of_bind h with h | ⟨data, _, h⟩
  · exact encodeText_error h
  rcases error_of_bind h with h | ⟨bytes, _, h⟩
  · exact urlsafeB64decode_error h
  rcases error_of_bind h with h | ⟨text, _, h⟩
  · exact decodeText_error h
  · exact parseInt_error h

theorem decodeCursor_cases (unicode : UnicodeData) (cursor : List CodePoint) :
    (∃ value, decodeCursor unicode cursor = .ok value) ∨
      decodeCursor unicode cursor = .error invalidCursorError := by
  unfold decodeCursor
  cases hread : readCursor unicode cursor with
  | ok value => exact Or.inl ⟨value, rfl⟩
  | error e =>
    right
    simp only [readCursor_error hread, Bool.true_or, if_true]

theorem encodeCursor_eq (hvalue : decimalDigits value ≤ maxStrDigits) :
    encodeCursor value =
      .ok (codePoints (Base64.encode (Utf8.encode (PyInt.str value).toList))) := by
  unfold encodeCursor printInt
  rw [if_neg (Nat.not_lt.mpr hvalue)]

/-- Encoding succeeds just within the limit. -/
theorem encodeCursor_ok {cursor : List CodePoint} (h : encodeCursor value = .ok cursor) :
    decimalDigits value ≤ maxStrDigits := by
  unfold encodeCursor at h
  cases hprinted : printInt value with
  | error e =>
    rw [hprinted] at h
    cases h
  | ok text => exact printInt_ok hprinted

/-- A cursor names the id it was made from. -/
theorem decodeCursor_encodeCursor {cursor : List CodePoint}
    (hcursor : encodeCursor value = .ok cursor) : decodeCursor unicode cursor = .ok value := by
  have hvalue := encodeCursor_ok hcursor
  have hsame := Except.ok.inj ((encodeCursor_eq hvalue).symm.trans hcursor)
  unfold decodeCursor
  rw [← hsame, readCursor_encode, parseInt_str hvalue]

end Codec

example : encodeCursor 12 = .ok (codePoints "MTI=") := by decide +kernel

example :
    decodeCursor asciiOnly (codePoints "not-valid-base64!!!") = .error invalidCursorError := by
  decide +kernel

structure CursorPaginationParams where
  cursor : Option (List CodePoint)
  limit : Nat
  q : Option String
  one_le : 1 ≤ limit
  le_hundred : limit ≤ 100

def getCursorPagination (cursor : Option (List CodePoint)) (limit : Int) (q : Option String) :
    Option CursorPaginationParams :=
  if h : 1 ≤ limit ∧ limit ≤ 100 then some ⟨cursor, limit.toNat, q, by omega, by omega⟩ else none

structure CursorPage (α : Type) where
  items : List α
  nextCursor : Option (List CodePoint)
  hasMore : Bool
  deriving DecidableEq

/-- `ORDER BY id` -/
def sortById (id : α → Nat) (rows : List α) : List α := rows.mergeSort fun a b => id a ≤ id b

theorem sortById_perm (id : α → Nat) (rows : List α) : (sortById id rows).Perm rows :=
  List.mergeSort_perm _ _

theorem sortById_ascending {id : α → Nat} {rows : List α} (hunique : (rows.map id).Nodup) :
    SortedByKey.Ascending id (sortById id rows) := by
  have hids : TiedOrders.TotalPreorder fun a b => id a ≤ id b :=
    ⟨fun a b => le_total (id a) (id b), fun hab hbc => hab.trans hbc⟩
  exact SortedByKey.ascending_of_nodup (hids.pairwise_mergeSort rows)
    (((sortById_perm id rows).map id).nodup_iff.mpr hunique)

/-- On a primary key it leaves the database no choice. -/
theorem answer_eq_sortById {id : α → Nat} {rows answer : List α} (hunique : (rows.map id).Nodup)
    (hperm : answer.Perm rows) (hsorted : SortedByKey.Sorted id answer) :
    answer = sortById id rows := by
  have hascending := SortedByKey.ascending_of_nodup hsorted
    ((hperm.map id).nodup_iff.mpr hunique)
  exact SortedByKey.eq_of_perm hascending (sortById_ascending hunique)
    (hperm.trans (sortById_perm id rows).symm)

/-- An error is that of encode_cursor. -/
def cursorPage (id : α → Nat) (table : List α) (statement : Select α) (limit : Nat) :
    Except PyException (CursorPage α) :=
  let rows := (sortById id (statement.matching table)).take (limit + 1)
  let hasMore := decide (limit < rows.length)
  let items := rows.take limit
  match if hasMore then items.getLast? else none with
  | none => .ok { items, nextCursor := none, hasMore }
  | some last => (encodeCursor (id last)).map fun cursor =>
    { items, nextCursor := some cursor, hasMore }

def paginateCursor (unicode : UnicodeData) (id : α → Nat) (table : List α)
    (statement : Select α) (cursor : Option (List CodePoint)) (limit : Nat) :
    Except PyException (CursorPage α) :=
  match cursor with
  | none => cursorPage id table statement limit
  | some cursor =>
    match decodeCursor unicode cursor with
    | .error e => .error e
    | .ok lastId => cursorPage id table (statement.addWhere fun row => lastId < id row) limit

end CursorPages

section Routes

def userSortFields (dialect : Dialect) : List (String × (User → SortKey)) :=
  [("id", fun u => [(u.id : ℚ)]), ("email", fun u => dialect.collate u.email),
    ("created_at", fun u => [u.createdAt]), ("is_active", fun u => [if u.isActive then 1 else 0]),
    ("is_verified", fun u => [if u.isVerified then 1 else 0])]

def listUsersStatement (dialect : Dialect) (isActive : Option Bool)
    (params : OffsetPaginationParams) : Select User :=
  let statement : Select User :=
    match isActive with
    | none => {}
    | some isActive => Select.addWhere {} fun u => u.isActive == isActive
  applySort (applySearch dialect statement params.q [User.email]) params (userSortFields dialect)
    fun u => [(u.id : ℚ)]

def listUsers (dialect : Dialect) (s : Server) (credentials : Token) (isActive : Option Bool)
    (params : OffsetPaginationParams) (answer : List User) : Except HttpException (Page User) :=
  match requirePermissions s credentials ["users:read"] with
  | .error e => .error e
  | .ok _ =>
    .ok (paginateOffset s.db.users (listUsersStatement dialect isActive params) answer params)

def listUsersFeedStatement (dialect : Dialect) (q : Option String) : Select User :=
  match q with
  | none => {}
  | some q =>
    if q = "" then {} else Select.addWhere {} fun u => ilike dialect u.email (containsPattern q)

def invalidCursor : HttpException := { statusCode := 400, detail := "Invalid cursor" }

/-- The page before its response model, or the exception that nothing handles. -/
def listUsersFeed (unicode : UnicodeData) (dialect : Dialect) (s : Server) (credentials : Token)
    (cursor : Option (List CodePoint)) (limit : Nat) (q : Option String) :
    Except PyException (Except HttpException (CursorPage User)) :=
  match requirePermissions s credentials ["users:read"] with
  | .error e => .ok (.error e)
  | .ok _ =>
    match paginateCursor unicode User.id s.db.users (listUsersFeedStatement dialect q) cursor limit
    with
    | .ok page => .ok (.ok page)
    | .error e =>
      if e.type.isValueError then
        .ok (.error { statusCode := 400, detail := e.text.getD "" })
      else .error e

def fileSortFields (dialect : Dialect) : List (String × (FileUpload → SortKey)) :=
  [("id", fun f => [(f.id : ℚ)]), ("created_at", fun f => [f.createdAt]),
    ("size_bytes", fun f => [(f.sizeBytes : ℚ)]), ("filename", fun f => dialect.collate f.filename)]

def listMyFilesStatement (dialect : Dialect) (currentUser : User)
    (params : OffsetPaginationParams) : Select FileUpload :=
  applySort (Select.addWhere {} fun f => f.userId == currentUser.id) params (fileSortFields dialect)
    fun f => [(f.id : ℚ)]

def listMyFiles (dialect : Dialect) (s : Server) (credentials : Token)
    (params : OffsetPaginationParams) (answer : List FileUpload) :
    Except HttpException (Page FileUpload) :=
  match getCurrentUser s credentials with
  | .error e => .error e
  | .ok currentUser =>
    .ok (paginateOffset s.db.fileUploads (listMyFilesStatement dialect currentUser params) answer
      params)

end Routes

end FastApiAuth
