import FastApiAuth.Middleware
import FastApiAuth.Library.PercentCoding
import FastApiAuth.Library.Separators

/-!
# Which paths are marked as deprecated, and what their Link header says

The successor's path goes into the header as it is. The header is well formed, and names the
successor, for the paths in which nothing has a meaning of its own there.
-/

namespace FastApiAuth.DeprecationLinks

set_option autoImplicit false

open PercentCoding Separators

section FirstSegment

def legacySegments : List String := ["auth", "users", "admin", "files", "ws"]

def firstSegment (path : String) : Option String :=
  match path.toList with
  | '/' :: rest => some (String.ofList (rest.takeWhile (· ≠ '/')))
  | _ => none

def MarkedPath (path : String) : Prop :=
  ∃ segment ∈ legacySegments, firstSegment path = some segment

theorem firstSegment_eq_some_iff {path segment : String} (hslash : '/' ∉ segment.toList) :
    firstSegment path = some segment ↔
      path = "/" ++ segment ∨ ("/" ++ segment ++ "/").toList <+: path.toList := by
  have heq : path = "/" ++ segment ↔ path.toList = '/' :: segment.toList := by
    rw [← String.toList_inj, String.toList_append]
    rfl
  have hlist : ("/" ++ segment ++ "/").toList = '/' :: (segment.toList ++ ['/']) := by
    simp [String.toList_append]
  rw [heq, hlist]
  unfold firstSegment
  split
  · rename_i rest hpath
    rw [hpath, Option.some.injEq, List.cons.injEq, List.cons_prefix_cons]
    simp only [true_and]
    rw [← takeWhile_eq_iff hslash, ← String.toList_inj, String.toList_ofList]
  · rename_i hother
    refine iff_of_false (by simp) ?_
    rintro (h | ⟨rest, h⟩)
    · exact hother _ h
    · exact hother _ h.symm

theorem isLegacyPath_iff (path : String) : isLegacyPath path = true ↔ MarkedPath path := by
  have hnames : legacyPrefixes = legacySegments.map fun segment => "/" ++ segment := by decide
  have hslash : ∀ segment ∈ legacySegments, '/' ∉ segment.toList := by decide
  unfold isLegacyPath MarkedPath
  rw [hnames, List.any_map, List.any_eq_true]
  apply exists_congr
  intro segment
  apply and_congr_right
  intro hsegment
  rw [firstSegment_eq_some_iff (hslash segment hsegment)]
  simp

/-- Nothing that begins with /api is marked. -/
theorem not_marked_api (rest : String) : ¬ MarkedPath ("/api" ++ rest) := by
  rintro ⟨segment, hsegment, hfirst⟩
  have hother : ∀ segment ∈ legacySegments, segment.toList.take 2 ≠ ['a', 'p'] := by decide
  have hpath : ("/api" ++ rest).toList = '/' :: 'a' :: 'p' :: 'i' :: rest.toList := by
    simp [String.toList_append]
  unfold firstSegment at hfirst
  rw [hpath] at hfirst
  have hsegment' := congrArg String.toList (Option.some.inj hfirst)
  apply hother segment hsegment
  rw [← hsegment', String.toList_ofList]
  simp

end FirstSegment

section LinkHeader

def linkParameters : String := "; rel=\"successor-version\""

def linkValue (path : String) : String :=
  "<" ++ (successorPrefix ++ path) ++ ">" ++ linkParameters

/-- The text between the first `<` and the first `>` behind it. -/
def uriReference (value : String) : Option (List Char) := do
  let (_, rest) ← cut '<' value.toList
  let (uri, _) ← cut '>' rest
  some uri

/-- The control characters of Unicode. -/
def isControl (c : Char) : Bool := c.toNat < 0x20 || (0x7F ≤ c.toNat && c.toNat ≤ 0x9F)

/-- The value is free of control characters, and its URI stands for the path behind the
successor's prefix. -/
structure LinkExact (path : String) : Prop where
  printable : ∀ c ∈ (linkValue path).toList, isControl c = false
  target : ∃ uri, uriReference (linkValue path) = some uri ∧
    decode uri = Utf8.encode (successorPrefix ++ path).toList

/-- Nothing in the path has a meaning of its own in the header or in a URI. -/
structure Literal (path : String) : Prop where
  printable : ∀ c ∈ path.toList, isControl c = false
  unclosed : '>' ∉ path.toList
  unescaped : ¬ Escaped path.toList

theorem toList_linkValue (path : String) :
    (linkValue path).toList = '<' :: (successorPrefix.toList ++ path.toList ++
      '>' :: linkParameters.toList) := by
  simp [linkValue, String.toList_append]

theorem printable_iff (path : String) :
    (∀ c ∈ (linkValue path).toList, isControl c = false) ↔
      ∀ c ∈ path.toList, isControl c = false := by
  have hfront : (successorPrefix.toList.all fun c => !isControl c) = true := by rfl
  have hback : (linkParameters.toList.all fun c => !isControl c) = true := by rfl
  rw [toList_linkValue]
  constructor
  · intro h c hc
    exact h c (by simp [hc])
  · intro h c hc
    simp only [List.mem_cons, List.mem_append] at hc
    rcases hc with rfl | (hc | hc) | rfl | hc
    · rfl
    · simpa using List.all_eq_true.mp hfront c hc
    · exact h c hc
    · rfl
    · simpa using List.all_eq_true.mp hback c hc

/-- What the reader of the header takes for the URI ends at the first `>` of the path. -/
theorem uriReference_linkValue (path : String) :
    uriReference (linkValue path) =
      some (successorPrefix.toList ++ path.toList.takeWhile (· ≠ '>')) := by
  have hopen : successorPrefix.toList ++ path.toList ++ '>' :: linkParameters.toList =
      successorPrefix.toList ++ (path.toList ++ '>' :: linkParameters.toList) :=
    List.append_assoc _ _ _
  have hplain : '>' ∉ successorPrefix.toList := by decide
  have hcut : ∃ rest, cut '>' (successorPrefix.toList ++ path.toList ++
      '>' :: linkParameters.toList) =
      some (successorPrefix.toList ++ path.toList.takeWhile (· ≠ '>'), rest) := by
    by_cases hclosed : '>' ∈ path.toList
    · obtain ⟨front, rest, hpath, hfront⟩ := List.eq_append_cons_of_mem hclosed
      refine ⟨rest ++ '>' :: linkParameters.toList, ?_⟩
      rw [hpath, takeWhile_append_sep hfront, cut_eq_some_iff]
      exact ⟨by simp [hplain, hfront], by simp⟩
    · refine ⟨linkParameters.toList, ?_⟩
      rw [takeWhile_of_not_mem hclosed, cut_eq_some_iff]
      exact ⟨by simp [hplain, hclosed], rfl⟩
  obtain ⟨rest, hcut⟩ := hcut
  unfold uriReference
  rw [toList_linkValue, cut, if_pos rfl]
  simp only [Option.bind_eq_bind, Option.bind_some, hcut]

theorem target_iff (path : String) :
    (∃ uri, uriReference (linkValue path) = some uri ∧
      decode uri = Utf8.encode (successorPrefix ++ path).toList) ↔
      '>' ∉ path.toList ∧ ¬ Escaped path.toList := by
  have hplain : '%' ∉ successorPrefix.toList := by decide
  rw [uriReference_linkValue]
  simp only [Option.some.injEq, exists_eq_left', String.toList_append]
  rw [decode_append hplain, Utf8.encode_append, List.append_cancel_left_eq]
  by_cases hclosed : '>' ∈ path.toList
  · refine iff_of_false ?_ (fun h => h.1 hclosed)
    obtain ⟨front, rest, hpath, hfront⟩ := List.eq_append_cons_of_mem hclosed
    rw [hpath, takeWhile_append_sep hfront]
    intro heq
    -- what is cut off is missing for good: decoding adds no bytes
    have hle := length_decode_le front
    have hlength := congrArg List.length heq
    have hrest := Utf8.length_le_encode ('>' :: rest)
    rw [Utf8.encode_append, List.length_append] at hlength
    rw [List.length_cons] at hrest
    omega
  · rw [takeWhile_of_not_mem hclosed, decode_eq_iff]
    simp [hclosed]

theorem linkExact_iff (path : String) : LinkExact path ↔ Literal path := by
  constructor
  · rintro ⟨hprintable, htarget⟩
    obtain ⟨hunclosed, hunescaped⟩ := (target_iff path).mp htarget
    exact ⟨(printable_iff path).mp hprintable, hunclosed, hunescaped⟩
  · rintro ⟨hprintable, hunclosed, hunescaped⟩
    exact ⟨(printable_iff path).mpr hprintable, (target_iff path).mpr ⟨hunclosed, hunescaped⟩⟩

end LinkHeader

section Middleware

/-- The headers are appended to the answers for marked paths and to no others, and the Link
header is exact. -/
structure ExactHeaders (scope : AsgiScope) : Prop where
  marked : scope.type = .http → MarkedPath scope.path → ∀ app,
    deprecationHeadersMiddleware app scope = (app scope).addHeaders
      [("deprecation".toUTF8, "true".toUTF8), ("sunset".toUTF8, sunsetDate.toUTF8),
        ("link".toUTF8, (linkValue scope.path).toUTF8)]
  unmarked : ¬ (scope.type = .http ∧ MarkedPath scope.path) → ∀ app,
    deprecationHeadersMiddleware app scope = app scope
  link : scope.type = .http → MarkedPath scope.path → LinkExact scope.path

theorem middleware_of_marked {scope : AsgiScope} (hhttp : scope.type = .http)
    (hmarked : MarkedPath scope.path) (app : AsgiApp) :
    deprecationHeadersMiddleware app scope = (app scope).addHeaders
      [("deprecation".toUTF8, "true".toUTF8), ("sunset".toUTF8, sunsetDate.toUTF8),
        ("link".toUTF8, (linkValue scope.path).toUTF8)] := by
  have hlegacy := (isLegacyPath_iff scope.path).mpr hmarked
  have hvalue : linkValue scope.path =
      "<" ++ (successorPrefix ++ scope.path) ++ ">; rel=\"successor-version\"" := by
    rw [linkValue, String.append_assoc]
    rfl
  unfold deprecationHeadersMiddleware
  rw [if_neg (by simp [hhttp, hlegacy]), hvalue]
  rfl

theorem middleware_of_unmarked {scope : AsgiScope}
    (hunmarked : ¬ (scope.type = .http ∧ MarkedPath scope.path)) (app : AsgiApp) :
    deprecationHeadersMiddleware app scope = app scope := by
  unfold deprecationHeadersMiddleware
  rw [if_pos]
  by_cases hhttp : scope.type = .http
  · have hlegacy : ¬ isLegacyPath scope.path = true := fun h =>
      hunmarked ⟨hhttp, (isLegacyPath_iff scope.path).mp h⟩
    simp [hlegacy]
  · simp [hhttp]

/-- The headers of a request are exact just when its path, if it is marked, is literal. -/
theorem exact_headers_iff (scope : AsgiScope) :
    ExactHeaders scope ↔
      (scope.type = .http → MarkedPath scope.path → Literal scope.path) := by
  constructor
  · intro hexact hhttp hmarked
    exact (linkExact_iff scope.path).mp (hexact.link hhttp hmarked)
  · intro hliteral
    refine ⟨fun hhttp hmarked => middleware_of_marked hhttp hmarked,
      fun hunmarked => middleware_of_unmarked hunmarked, ?_⟩
    intro hhttp hmarked
    exact (linkExact_iff scope.path).mpr (hliteral hhttp hmarked)

/-- A path with a line break, sent as `%0D%0A`. -/
def brokenScope : AsgiScope :=
  { type := .http, method := "GET", path := "/auth/\r\nset-cookie: a=b", headers := [],
    client := none }

theorem link_breaks_line : ¬ ExactHeaders brokenScope := by
  intro hexact
  have hmarked : MarkedPath brokenScope.path := ⟨"auth", by decide, by decide⟩
  have hprintable := (hexact.link rfl hmarked).printable '\n' (by decide)
  exact absurd hprintable (by decide)

end Middleware

end FastApiAuth.DeprecationLinks
