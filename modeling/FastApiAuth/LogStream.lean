import FastApiAuth.Library.JsonText

/-!
# The log stream

JSONLogFormatter writes one JSON object a record, and the stream handler one line an object.
Paths, request ids and messages come from clients; none of them can end a line, stand in for
one of the five core fields or hide a record.
-/

namespace FastApiAuth.LogStream

set_option autoImplicit false

open PyJson

/-- The values of a record. A float comes with its text, an object that the encoder does not
know with what `str` makes of it. -/
inductive LogValue where
  | null
  | bool (b : Bool)
  | int (n : Int)
  | float (literal : List Char) (written : FloatText literal)
  | str (s : PyStr)
  | array (items : List LogValue)
  | object (fields : List (PyStr × LogValue))
  | other (text : PyStr)

mutual

/-- What `json.dumps` with `default=str` takes the value for. -/
def LogValue.toJson : LogValue → Json
  | .null => .null
  | .bool b => .bool b
  | .int n => .int n
  | .float literal _ => .float literal
  | .str s => .str s
  | .array items => .array (itemsToJson items)
  | .object fields => .object (fieldsToJson fields)
  | .other text => .str text

def itemsToJson : List LogValue → List Json
  | [] => []
  | item :: items => item.toJson :: itemsToJson items

def fieldsToJson : List (PyStr × LogValue) → List (PyStr × Json)
  | [] => []
  | (key, value) :: fields => (key, value.toJson) :: fieldsToJson fields

end

/-- A record as the formatter finds it: `record.__dict__` with the attributes that logging
sets and the extras of the caller, and the text of the exception, if there is one. -/
structure LogRecord where
  levelname : PyStr
  name : PyStr
  message : PyStr
  attributes : List (PyStr × LogValue)
  excInfo : Option PyStr

/-- The clock and the context variable at the time of the call. -/
structure LogContext where
  timestamp : PyStr
  requestId : Option PyStr

def standardRecordAttrs : List PyStr :=
  ["name", "msg", "args", "levelname", "levelno", "pathname", "filename", "module", "exc_info",
    "exc_text", "stack_info", "lineno", "funcName", "created", "msecs", "relativeCreated",
    "thread", "threadName", "processName", "process", "taskName"].map PyStr.ofString

def corePayload (c : LogContext) (record : LogRecord) : List (PyStr × Json) :=
  [(PyStr.ofString "timestamp", .str c.timestamp), (PyStr.ofString "level", .str record.levelname),
    (PyStr.ofString "logger", .str record.name), (PyStr.ofString "message", .str record.message),
    (PyStr.ofString "request_id", (c.requestId.map Json.str).getD .null)]

/-- `key in payload` -/
def has (payload : List (PyStr × Json)) (key : PyStr) : Bool :=
  payload.any fun field => field.1 = key

/-- `payload[key] = value` -/
def setItem (payload : List (PyStr × Json)) (key : PyStr) (value : Json) : List (PyStr × Json) :=
  if has payload key then
    payload.map fun field => if field.1 = key then (key, value) else field
  else payload ++ [(key, value)]

/-- The loop over the items of the record. -/
def addExtras (payload : List (PyStr × Json)) : List (PyStr × LogValue) → List (PyStr × Json)
  | [] => payload
  | (key, value) :: attributes =>
    if !standardRecordAttrs.contains key && !has payload key then
      addExtras (setItem payload key value.toJson) attributes
    else addExtras payload attributes

def payload (c : LogContext) (record : LogRecord) : List (PyStr × Json) :=
  let payload := addExtras (corePayload c record) record.attributes
  match record.excInfo with
  | some exception => setItem payload (PyStr.ofString "exception") (.str exception)
  | none => payload

/-- JSONLogFormatter.format -/
def format (c : LogContext) (record : LogRecord) : List Char :=
  (Json.object (payload c record)).text

/-- What the stream handler has written after the records. -/
def emit (records : List (LogContext × LogRecord)) : List Char :=
  records.flatMap fun entry => format entry.1 entry.2 ++ ['\n']

/-- What a reader of the line finds under `key`. -/
def field (c : LogContext) (record : LogRecord) (key : PyStr) : Option Json :=
  if has (corePayload c record) key then PyJson.get (corePayload c record) key
  else if key = PyStr.ofString "exception" ∧ record.excInfo.isSome then
    record.excInfo.map Json.str
  else if standardRecordAttrs.contains key then none
  else (record.attributes.lookup key).map LogValue.toJson

section Fields

variable {fields : List (PyStr × Json)} {key k : PyStr} {value : Json}

theorem get_eq_none (h : has fields key = false) : PyJson.get fields key = none := by
  unfold PyJson.get
  rw [List.findSome?_eq_none_iff]
  intro field hfield
  apply if_neg
  intro he
  rw [has, List.any_eq_false] at h
  exact h field (List.mem_reverse.mp hfield) (by simpa using he)

theorem get_append :
    PyJson.get (fields ++ [(key, value)]) k =
      if key = k then some value else PyJson.get fields k := by
  unfold PyJson.get
  rw [List.reverse_append, List.reverse_singleton, List.singleton_append, List.findSome?_cons]
  by_cases h : key = k
  · simp only [h, if_true]
  · simp only [h, if_false]

theorem findSome_overwrite_self (h : fields.any (fun field => field.1 = key) = true) :
    ((fields.map fun field => if field.1 = key then (key, value) else field).findSome?
      fun field => if field.1 = key then some field.2 else none) = some value := by
  induction fields with
  | nil => cases h
  | cons field fields ih =>
    rw [List.map_cons, List.findSome?_cons]
    by_cases hfield : field.1 = key
    · simp only [hfield, if_true]
    · simp only [hfield, if_false]
      apply ih
      simpa [hfield] using h

theorem findSome_overwrite_of_ne (hne : key ≠ k) :
    ((fields.map fun field => if field.1 = key then (key, value) else field).findSome?
        fun field => if field.1 = k then some field.2 else none) =
      fields.findSome? fun field => if field.1 = k then some field.2 else none := by
  induction fields with
  | nil => rfl
  | cons field fields ih =>
    rw [List.map_cons, List.findSome?_cons, List.findSome?_cons, ih]
    by_cases hfield : field.1 = key
    · simp only [hfield, if_true, if_neg hne]
    · simp only [hfield, if_false]

/-- Writing under one key is seen there and nowhere else. -/
theorem get_setItem : PyJson.get (setItem fields key value) k =
    if key = k then some value else PyJson.get fields k := by
  unfold setItem
  split
  · rename_i hhas
    unfold PyJson.get
    rw [← List.map_reverse]
    by_cases hk : key = k
    · subst hk
      rw [if_pos rfl]
      apply findSome_overwrite_self
      simpa [has] using hhas
    · rw [if_neg hk]
      exact findSome_overwrite_of_ne hk
  · exact get_append

theorem has_setItem : has (setItem fields key value) k = (has fields k || decide (key = k)) := by
  unfold setItem
  split
  · rename_i hhas
    have hkeys : ∀ field : PyStr × Json,
        (if field.1 = key then (key, value) else field).1 = field.1 := by
      intro field
      split
      · rename_i h
        exact h.symm
      · rfl
    have hmap : has (fields.map fun field => if field.1 = key then (key, value) else field) k =
        has fields k := by
      simp only [has, List.any_map, Function.comp_def, hkeys]
    rw [hmap]
    by_cases hk : key = k
    · rw [← hk, hhas]
      rfl
    · simp [hk]
  · simp [has]

theorem addExtras_spec (attributes : List (PyStr × LogValue)) :
    PyJson.get (addExtras fields attributes) k =
      if has fields k then PyJson.get fields k
      else if standardRecordAttrs.contains k then none
      else (attributes.lookup k).map LogValue.toJson := by
  induction attributes generalizing fields with
  | nil =>
    rw [addExtras]
    by_cases hk : has fields k = true
    · rw [if_pos hk]
    · rw [if_neg hk, get_eq_none (by simpa using hk)]
      simp
  | cons entry attributes ih =>
    obtain ⟨key, value⟩ := entry
    rw [addExtras, List.lookup_cons]
    by_cases hnew : standardRecordAttrs.contains key = false ∧ has fields key = false
    · obtain ⟨hstandard, hhas⟩ := hnew
      rw [if_pos (by simp only [hstandard, hhas]; rfl), ih, has_setItem, get_setItem]
      by_cases hk : key = k
      · subst hk
        simp only [decide_true, Bool.or_true, if_true, hhas, hstandard, beq_self_eq_true,
          Option.map_some, Bool.false_eq_true, if_false]
      · have hbeq : (k == key) = false := beq_false_of_ne (Ne.symm hk)
        simp only [hk, decide_false, Bool.or_false, if_false, hbeq]
    · rw [if_neg, ih]
      · by_cases hk : key = k
        · subst hk
          by_cases hhas : has fields key = true
          · rw [if_pos hhas, if_pos hhas]
          · have hstandard : standardRecordAttrs.contains key = true := by
              by_contra hno
              exact hnew ⟨by simpa using hno, by simpa using hhas⟩
            rw [if_neg hhas, if_pos hstandard, if_neg hhas, if_pos hstandard]
        · have hbeq : (k == key) = false := beq_false_of_ne (Ne.symm hk)
          simp only [hbeq]
      · intro hcond
        apply hnew
        simpa using hcond

/-- What a reader finds under each key. -/
theorem get_payload (c : LogContext) (record : LogRecord) (key : PyStr) :
    PyJson.get (payload c record) key = field c record key := by
  have hcore : has (corePayload c record) (PyStr.ofString "exception") = false := by
    rfl
  unfold payload field
  cases hexc : record.excInfo with
  | none =>
    dsimp only
    rw [addExtras_spec]
    simp
  | some exception =>
    dsimp only
    rw [get_setItem, addExtras_spec]
    by_cases hk : PyStr.ofString "exception" = key
    · subst hk
      rw [if_pos rfl, if_neg (by simp [hcore]), if_pos ⟨rfl, rfl⟩]
      rfl
    · rw [if_neg hk, if_neg fun h : key = PyStr.ofString "exception" ∧ _ => hk h.1.symm]

mutual

theorem toJson_written (value : LogValue) : value.toJson.Written := by
  match value with
  | .null | .bool _ | .int _ | .str _ | .other _ => rw [LogValue.toJson]; trivial
  | .float literal written =>
    rw [LogValue.toJson, Json.Written]
    exact written
  | .array items =>
    rw [LogValue.toJson, Json.Written]
    exact itemsToJson_written items
  | .object fields =>
    rw [LogValue.toJson, Json.Written]
    exact fieldsToJson_written fields

theorem itemsToJson_written (items : List LogValue) : ItemsWritten (itemsToJson items) := by
  match items with
  | [] => rw [itemsToJson]; trivial
  | item :: items =>
    rw [itemsToJson, ItemsWritten]
    exact ⟨toJson_written item, itemsToJson_written items⟩

theorem fieldsToJson_written (fields : List (PyStr × LogValue)) :
    FieldsWritten (fieldsToJson fields) := by
  match fields with
  | [] => rw [fieldsToJson]; trivial
  | (key, value) :: fields =>
    rw [fieldsToJson, FieldsWritten]
    exact ⟨toJson_written value, fieldsToJson_written fields⟩

end

theorem setItem_written (hw : FieldsWritten fields) (hv : value.Written) :
    FieldsWritten (setItem fields key value) := by
  rw [fieldsWritten_iff] at hw ⊢
  intro field hfield
  unfold setItem at hfield
  split at hfield
  · obtain ⟨old, hold, rfl⟩ := List.mem_map.mp hfield
    split
    · exact hv
    · exact hw old hold
  · rcases List.mem_append.mp hfield with hfield | hfield
    · exact hw field hfield
    · rw [List.mem_singleton.mp hfield]
      exact hv

theorem addExtras_written (hw : FieldsWritten fields) (attributes : List (PyStr × LogValue)) :
    FieldsWritten (addExtras fields attributes) := by
  induction attributes generalizing fields with
  | nil => exact hw
  | cons entry attributes ih =>
    rw [addExtras]
    split
    · exact ih (setItem_written hw (toJson_written entry.2))
    · exact ih hw

theorem payload_written (c : LogContext) (record : LogRecord) :
    FieldsWritten (payload c record) := by
  have hcore : FieldsWritten (corePayload c record) := by
    rw [fieldsWritten_iff]
    cases hid : c.requestId <;>
      simp [corePayload, hid, Json.Written]
  unfold payload
  dsimp only
  split
  · exact setItem_written (addExtras_written hcore _) trivial
  · exact addExtras_written hcore _

end Fields

theorem emit_eq_writeLines (records : List (LogContext × LogRecord)) :
    emit records = writeLines (records.map fun entry => .object (payload entry.1 entry.2)) := by
  unfold emit writeLines
  rw [List.flatMap_map]
  rfl

/-- Whatever the records hold, the stream falls apart into one object a record, in order; the
object has the five core fields as the formatter set them, the extras under no other names
than their own, and nothing else. -/
theorem log_stream_reads_back (records : List (LogContext × LogRecord)) :
    readLines (emit records) =
      records.map (fun entry => some (.object (payload entry.1 entry.2))) ∧
    (∀ entry ∈ records, ∀ key,
      PyJson.get (payload entry.1 entry.2) key = field entry.1 entry.2 key) ∧
    ∀ c ∈ emit records, c = '\n' ∨ printable c = true := by
  have hwritten : ∀ v ∈ records.map fun entry => Json.object (payload entry.1 entry.2),
      v.Written := by
    intro v hv
    obtain ⟨entry, _, rfl⟩ := List.mem_map.mp hv
    rw [Json.Written]
    exact payload_written entry.1 entry.2
  refine ⟨?_, ?_, ?_⟩
  · rw [emit_eq_writeLines, readLines_writeLines _ hwritten, List.map_map]
    rfl
  · intro entry _ key
    exact get_payload entry.1 entry.2 key
  · intro c hc
    rw [emit_eq_writeLines] at hc
    obtain ⟨v, hv, hc⟩ := List.mem_flatMap.mp hc
    rcases List.mem_append.mp hc with hc | hc
    · exact .inr (printable_text v (hwritten v hv) c hc)
    · exact .inl (List.mem_singleton.mp hc)

end FastApiAuth.LogStream
