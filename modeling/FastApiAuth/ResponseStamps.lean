import FastApiAuth.Middleware

/-!
# Which responses carry the request id and the security headers

The middlewares stamp the messages that pass through them. The answer to an unhandled
exception is sent outside of them, and carries neither.
-/

namespace FastApiAuth.ResponseStamps

set_option autoImplicit false

/-- The call has begun to answer. -/
def Started (x : Exchange) : Prop := ∃ status headers, .responseStart status headers ∈ x.sent

structure Documented (fw : Framework) : Prop where
  /-- The handler answers an exception unless the response has started. -/
  answers : ∀ handler app scope e, scope.type = .http → (app scope).raised = some e →
    ¬ Started (app scope) →
    (fw.serverErrorMiddleware handler app scope).sent = (app scope).sent ++ (handler scope e).sent
  passes : ∀ handler app scope, (app scope).raised = none ∨ Started (app scope) →
    (fw.serverErrorMiddleware handler app scope).sent = (app scope).sent
  observes : ∀ app scope, (fw.prometheusMiddleware app scope).sent = (app scope).sent ∧
    (fw.prometheusMiddleware app scope).raised = (app scope).raised
  json : ∀ status content, ∃ length body, fw.jsonResponse status content =
    [.responseStart status (some [("content-length".toUTF8, length),
      ("content-type".toUTF8, "application/json".toUTF8)]), .responseBody body]

/-- All that stands inside of the three middlewares. -/
def innerApp (fw : Framework) (settings : MiddlewareSettings) (router : AsgiApp) : AsgiApp :=
  fw.trustedHostMiddleware settings.trustedHosts (fw.corsMiddleware settings.corsOrigins
    (fw.gzipMiddleware 1000
      (fw.exceptionMiddleware ⟨handleHttpException fw, handleValidationError fw⟩ router)))

/-- The three middlewares around an application. -/
def stamping (settings : MiddlewareSettings) (uuid4 : String) (app : AsgiApp) : AsgiApp :=
  requestContextMiddleware uuid4
    (deprecationHeadersMiddleware (securityHeadersMiddleware settings.isProduction app))

/-- The X-Request-ID headers among these. -/
def requestIds (headers : List Header) : List Header :=
  headers.filter fun header => header.1 = requestIdHeader

def Stamped (hsts : Bool) (requestId : ByteArray) (headers : List Header) : Prop :=
  requestIds headers = [(requestIdHeader, requestId)] ∧
    ∀ header ∈ securityHeaders hsts, header ∈ headers

/-- The response carries one request id, which the request has given if it gives any, and
the security headers. -/
def ResponseStamped (hsts : Bool) (scope : AsgiScope) (x : Exchange) : Prop :=
  ∃ requestId, (requestIds scope.headers ≠ [] →
      (requestIdHeader, requestId) ∈ requestIds scope.headers) ∧
    ∀ status headers, .responseStart status headers ∈ x.sent →
      Stamped hsts requestId (headers.getD [])

/-- Each X-Request-ID that the request gives is non-empty valid UTF-8. -/
def ReadableIds (scope : AsgiScope) : Prop :=
  ∀ header ∈ requestIds scope.headers, header.2.isEmpty = false ∧ header.2.IsValidUTF8

section Appending

variable {x : Exchange} {more headers : List Header} {status : Nat}

theorem addHeaders_addHeaders (x : Exchange) (first then_ : List Header) :
    (x.addHeaders first).addHeaders then_ = x.addHeaders (first ++ then_) := by
  unfold Exchange.addHeaders
  rw [List.map_map]
  congr 2
  funext message
  cases message with
  | responseStart status headers => simp [AsgiMessage.addHeaders]
  | responseBody body => rfl

theorem mem_addHeaders {headers : Option (List Header)} :
    .responseStart status headers ∈ (x.addHeaders more).sent ↔
      ∃ own, .responseStart status own ∈ x.sent ∧ headers = some (own.getD [] ++ more) := by
  constructor
  · intro h
    obtain ⟨message, hmem, heq⟩ := List.mem_map.mp h
    cases message with
    | responseStart status' own =>
      cases heq
      exact ⟨own, hmem, rfl⟩
    | responseBody body => cases heq
  · rintro ⟨own, hmem, rfl⟩
    exact List.mem_map.mpr ⟨_, hmem, rfl⟩

theorem filterMap_startStatus_eq_nil :
    x.sent.filterMap AsgiMessage.startStatus = [] ↔ ¬ Started x := by
  rw [List.filterMap_eq_nil_iff]
  constructor
  · rintro hnone ⟨status, headers, hmem⟩
    cases hnone _ hmem
  · intro hnot message hmem
    cases message with
    | responseStart status headers => exact absurd ⟨status, headers, hmem⟩ hnot
    | responseBody body => rfl

theorem started_addHeaders (more : List Header) : Started (x.addHeaders more) ↔ Started x := by
  constructor
  · rintro ⟨status, headers, h⟩
    obtain ⟨own, hmem, _⟩ := mem_addHeaders.mp h
    exact ⟨status, own, hmem⟩
  · rintro ⟨status, own, h⟩
    exact ⟨status, _, mem_addHeaders.mpr ⟨own, h, rfl⟩⟩

@[simp] theorem requestIds_append (xs ys : List Header) :
    requestIds (xs ++ ys) = requestIds xs ++ requestIds ys := List.filter_append ..

theorem requestIds_eq_nil (h : ∀ header ∈ headers, header.1 ≠ requestIdHeader) :
    requestIds headers = [] :=
  List.filter_eq_nil_iff.mpr fun header hmem hname => h header hmem (of_decide_eq_true hname)

theorem requestIds_securityHeaders (hsts : Bool) : requestIds (securityHeaders hsts) = [] := by
  cases hsts <;> decide

theorem requestIds_deprecationHeaders (successor : String) :
    requestIds (deprecationHeaders successor) = [] := by
  have hnames : "deprecation".toUTF8 ≠ requestIdHeader ∧ "sunset".toUTF8 ≠ requestIdHeader ∧
      "link".toUTF8 ≠ requestIdHeader := by decide
  refine requestIds_eq_nil fun header hmem => ?_
  simp only [deprecationHeaders, List.mem_cons, List.not_mem_nil, or_false] at hmem
  rcases hmem with rfl | rfl | rfl
  · exact hnames.1
  · exact hnames.2.1
  · exact hnames.2.2

end Appending

section Stamps

variable {settings : MiddlewareSettings} {uuid4 requestId : String} {app : AsgiApp}
variable {scope : AsgiScope}

theorem dictGet_eq_none (h : dictGet scope.headers requestIdHeader = none) :
    requestIds scope.headers = [] := by
  refine requestIds_eq_nil fun header hmem hname => ?_
  have hnone := List.findSome?_eq_none_iff.mp h header (List.mem_reverse.mpr hmem)
  rw [if_pos hname] at hnone
  cases hnone

theorem dictGet_mem {value : ByteArray} (h : dictGet scope.headers requestIdHeader = some value) :
    (requestIdHeader, value) ∈ requestIds scope.headers := by
  obtain ⟨header, hmem, hvalue⟩ := List.exists_of_findSome?_eq_some h
  split at hvalue
  · rename_i hname
    cases hvalue
    refine List.mem_filter.mpr ⟨List.mem_reverse.mp ?_, decide_eq_true rfl⟩
    rw [← hname]
    exact hmem
  · cases hvalue

theorem toUTF8_fromUTF8? {bytes : ByteArray} (h : bytes.IsValidUTF8) :
    ∃ text, String.fromUTF8? bytes = some text ∧ text.toUTF8 = bytes := by
  refine ⟨.fromUTF8 bytes h, ?_, rfl⟩
  rw [String.fromUTF8?, dif_pos h]

/-- A readable id is the one that is used. -/
theorem requestIdOf_some (uuid4 : String) (hids : ReadableIds scope) :
    ∃ requestId, requestIdOf uuid4 scope.headers = some requestId ∧
      (requestIds scope.headers ≠ [] →
        (requestIdHeader, requestId.toUTF8) ∈ requestIds scope.headers) := by
  unfold requestIdOf
  split
  · rename_i hnone
    exact ⟨uuid4, rfl, fun hne => absurd (dictGet_eq_none hnone) hne⟩
  · rename_i incomingId hsome
    obtain ⟨hne, hvalid⟩ := hids _ (dictGet_mem hsome)
    obtain ⟨text, htext, hbytes⟩ := toUTF8_fromUTF8? hvalid
    rw [if_neg (Bool.eq_false_iff.mp hne)]
    refine ⟨text, htext, fun _ => ?_⟩
    rw [hbytes]
    exact dictGet_mem hsome

/-- What the three middlewares append to the headers of a start. -/
def stamps (settings : MiddlewareSettings) (scope : AsgiScope) (requestId : String) :
    List Header :=
  securityHeaders settings.isProduction ++
    ((if isLegacyPath scope.path then deprecationHeaders (successorPrefix ++ scope.path) else []) ++
      [(requestIdHeader, requestId.toUTF8)])

theorem requestIds_stamps (settings : MiddlewareSettings) (scope : AsgiScope) (requestId : String) :
    requestIds (stamps settings scope requestId) = [(requestIdHeader, requestId.toUTF8)] := by
  have hlast : requestIds [(requestIdHeader, requestId.toUTF8)] =
      [(requestIdHeader, requestId.toUTF8)] := List.filter_cons_of_pos (decide_eq_true rfl)
  unfold stamps
  split <;>
    simp only [requestIds_append, requestIds_securityHeaders, requestIds_deprecationHeaders, hlast,
      List.nil_append]

@[simp] theorem statusCode_addHeaders (x : Exchange) (more : List Header) :
    (x.addHeaders more).statusCode = x.statusCode := by
  have hstart :
      AsgiMessage.startStatus ∘ AsgiMessage.addHeaders more = AsgiMessage.startStatus := by
    funext message
    cases message <;> rfl
  unfold Exchange.statusCode Exchange.addHeaders
  rw [List.filterMap_map, hstart]

theorem stamping_eq (settings : MiddlewareSettings) (app : AsgiApp) (hhttp : scope.type = .http)
    (hid : requestIdOf uuid4 scope.headers = some requestId) :
    (stamping settings uuid4 app scope).sent =
      ((app scope).addHeaders (stamps settings scope requestId)).sent ∧
    (stamping settings uuid4 app scope).raised = (app scope).raised ∧
    (stamping settings uuid4 app scope).log = (app scope).log ++
      [.requestCompleted scope.method scope.path (app scope).statusCode] := by
  have hsecurity : securityHeadersMiddleware settings.isProduction app scope =
      (app scope).addHeaders (securityHeaders settings.isProduction) :=
    if_neg (not_not_intro hhttp)
  have hdeprecation : (deprecationHeadersMiddleware
      (securityHeadersMiddleware settings.isProduction app) scope).addHeaders
        [(requestIdHeader, requestId.toUTF8)] =
      (app scope).addHeaders (stamps settings scope requestId) := by
    unfold deprecationHeadersMiddleware stamps
    rw [hsecurity]
    cases isLegacyPath scope.path with
    | true => simp [hhttp, addHeaders_addHeaders]
    | false => simp [addHeaders_addHeaders]
  have hstatus := congrArg Exchange.statusCode hdeprecation
  rw [statusCode_addHeaders, statusCode_addHeaders] at hstatus
  have hlog : (deprecationHeadersMiddleware
      (securityHeadersMiddleware settings.isProduction app) scope).log = (app scope).log := by
    have hboth := congrArg Exchange.log hdeprecation
    exact hboth
  unfold stamping requestContextMiddleware
  rw [if_neg (not_not_intro hhttp), hid]
  dsimp only
  rw [hdeprecation, hstatus, hlog]
  exact ⟨rfl, rfl, rfl⟩

theorem requestIds_of_append_stamps {own : List Header} {header : Header}
    (h : requestIds (own ++ stamps settings scope requestId) = [header]) :
    requestIds own = [] := by
  rw [requestIds_append, requestIds_stamps] at h
  have hlength := congrArg List.length h
  simp only [List.length_append, List.length_singleton, Nat.add_eq_right] at hlength
  exact List.length_eq_zero_iff.mp hlength

theorem stamped_append {own : List Header} (h : requestIds own = []) :
    Stamped settings.isProduction requestId.toUTF8 (own ++ stamps settings scope requestId) := by
  refine ⟨?_, fun header hmem => ?_⟩
  · rw [requestIds_append, requestIds_stamps, h, List.nil_append]
  · exact List.mem_append_right _ (List.mem_append_left _ hmem)

end Stamps

section Responses

variable {fw : Framework} {settings : MiddlewareSettings} {uuid4 requestId : String}
variable {router : AsgiApp} {scope : AsgiScope}

theorem mainApp_eq : mainApp fw settings uuid4 router =
    fw.serverErrorMiddleware (handleUnhandledException fw)
      (fw.prometheusMiddleware (stamping settings uuid4 (innerApp fw settings router))) := rfl

/-- Unless the inner application fails before its response starts, the response that is
sent is its own with the stamps. -/
theorem mainApp_passes (hfw : Documented fw) (hhttp : scope.type = .http)
    (hid : requestIdOf uuid4 scope.headers = some requestId)
    (hanswers : (innerApp fw settings router scope).raised = none ∨
      Started (innerApp fw settings router scope)) :
    (mainApp fw settings uuid4 router scope).sent =
      ((innerApp fw settings router scope).addHeaders (stamps settings scope requestId)).sent := by
  obtain ⟨hsent, hraised, _⟩ := stamping_eq settings (innerApp fw settings router) hhttp hid
  obtain ⟨hobserved, hobserved'⟩ := hfw.observes
    (stamping settings uuid4 (innerApp fw settings router)) scope
  rw [mainApp_eq, hfw.passes, hobserved, hsent]
  rw [hobserved', hraised]
  refine hanswers.imp_right fun hstarted => ?_
  unfold Started
  rw [hobserved, hsent]
  exact (started_addHeaders _).mpr hstarted

/-- Otherwise it is the answer of the handler for unhandled exceptions. -/
theorem mainApp_answers {e : AppException} (hfw : Documented fw) (hhttp : scope.type = .http)
    (hid : requestIdOf uuid4 scope.headers = some requestId)
    (hraises : (innerApp fw settings router scope).raised = some e)
    (hnot : ¬ Started (innerApp fw settings router scope)) :
    (mainApp fw settings uuid4 router scope).sent =
      ((innerApp fw settings router scope).addHeaders (stamps settings scope requestId)).sent ++
        (handleUnhandledException fw scope e).sent := by
  obtain ⟨hsent, hraised, _⟩ := stamping_eq settings (innerApp fw settings router) hhttp hid
  obtain ⟨hobserved, hobserved'⟩ := hfw.observes
    (stamping settings uuid4 (innerApp fw settings router)) scope
  rw [mainApp_eq, hfw.answers _ _ _ e hhttp, hobserved, hsent]
  · rw [hobserved', hraised, hraises]
  · unfold Started
    rw [hobserved, hsent]
    exact fun hstarted => hnot ((started_addHeaders _).mp hstarted)

/-- The record of a request has the status of its response, stamped or not. -/
theorem logged_statusCode (hfw : Documented fw) (hhttp : scope.type = .http)
    (hid : requestIdOf uuid4 scope.headers = some requestId) :
    (stamping settings uuid4 (innerApp fw settings router) scope).log =
      (innerApp fw settings router scope).log ++ [.requestCompleted scope.method scope.path
        (mainApp fw settings uuid4 router scope).statusCode] := by
  obtain ⟨_, _, hlog⟩ := stamping_eq settings (innerApp fw settings router) hhttp hid
  suffices hstatus : (mainApp fw settings uuid4 router scope).statusCode =
      (innerApp fw settings router scope).statusCode by rw [hlog, hstatus]
  by_cases hanswers : (innerApp fw settings router scope).raised = none ∨
      Started (innerApp fw settings router scope)
  · have hsent := mainApp_passes hfw hhttp hid hanswers
    calc (mainApp fw settings uuid4 router scope).statusCode
        = ((innerApp fw settings router scope).addHeaders
            (stamps settings scope requestId)).statusCode := by
          unfold Exchange.statusCode
          rw [hsent]
      _ = (innerApp fw settings router scope).statusCode := statusCode_addHeaders _ _
  · obtain ⟨hraised, hnot⟩ := not_or.mp hanswers
    obtain ⟨e, he⟩ := Option.ne_none_iff_exists'.mp hraised
    obtain ⟨_, _, hjson⟩ := hfw.json 500 [("detail", "Internal Server Error")]
    have hinner := filterMap_startStatus_eq_nil.mpr hnot
    have hstamped := filterMap_startStatus_eq_nil.mpr
      fun h => hnot ((started_addHeaders (stamps settings scope requestId)).mp h)
    unfold Exchange.statusCode
    rw [mainApp_answers hfw hhttp hid he hnot, List.filterMap_append, hstamped, hinner]
    unfold handleUnhandledException
    rw [hjson]
    rfl

/-- The answer to an unhandled exception carries no request id. -/
theorem unhandled_unstamped (hfw : Documented fw) (scope : AsgiScope) (e : AppException) :
    ∃ headers, .responseStart 500 headers ∈ (handleUnhandledException fw scope e).sent ∧
      requestIds (headers.getD []) = [] := by
  obtain ⟨length, body, hjson⟩ := hfw.json 500 [("detail", "Internal Server Error")]
  refine ⟨some [("content-length".toUTF8, length),
    ("content-type".toUTF8, "application/json".toUTF8)], ?_, ?_⟩
  · unfold handleUnhandledException
    rw [hjson]
    exact List.mem_cons_self
  · have hnames : "content-length".toUTF8 ≠ requestIdHeader ∧
        "content-type".toUTF8 ≠ requestIdHeader := by decide
    refine requestIds_eq_nil fun header hmem => ?_
    simp only [Option.getD_some, List.mem_cons, List.not_mem_nil, or_false] at hmem
    rcases hmem with rfl | rfl
    · exact hnames.1
    · exact hnames.2

/-- A response carries its stamps if and only if the inner application does not fail before
its response starts, and puts no X-Request-ID of its own into it. -/
theorem response_stamped_iff (fw : Framework) (hfw : Documented fw)
    (settings : MiddlewareSettings) (uuid4 : String) (router : AsgiApp) (scope : AsgiScope)
    (hhttp : scope.type = .http) (hids : ReadableIds scope) :
    ResponseStamped settings.isProduction scope (mainApp fw settings uuid4 router scope) ↔
      ((innerApp fw settings router scope).raised = none ∨
        Started (innerApp fw settings router scope)) ∧
      ∀ status headers, .responseStart status headers ∈ (innerApp fw settings router scope).sent →
        requestIds (headers.getD []) = [] := by
  obtain ⟨requestId, hid, hgiven⟩ := requestIdOf_some uuid4 hids
  by_cases hanswers : (innerApp fw settings router scope).raised = none ∨
      Started (innerApp fw settings router scope)
  · have hsent := mainApp_passes hfw hhttp hid hanswers
    constructor
    · rintro ⟨_, _, hall⟩
      refine ⟨hanswers, fun status own hown => ?_⟩
      have hstart : .responseStart status (some (own.getD [] ++ stamps settings scope requestId)) ∈
          (mainApp fw settings uuid4 router scope).sent := by
        rw [hsent]
        exact mem_addHeaders.mpr ⟨own, hown, rfl⟩
      exact requestIds_of_append_stamps (hall _ _ hstart).1
    · rintro ⟨_, hown⟩
      refine ⟨requestId.toUTF8, hgiven, fun status headers hstart => ?_⟩
      rw [hsent] at hstart
      obtain ⟨own, hmem, rfl⟩ := mem_addHeaders.mp hstart
      exact stamped_append (hown _ _ hmem)
  · refine iff_of_false ?_ fun h => hanswers h.1
    rintro ⟨_, _, hall⟩
    obtain ⟨hraised, hnot⟩ := not_or.mp hanswers
    obtain ⟨e, he⟩ := Option.ne_none_iff_exists'.mp hraised
    obtain ⟨headers, hstart, hnone⟩ := unhandled_unstamped hfw scope e
    have hone := (hall 500 headers ?_).1
    · rw [hnone] at hone
      cases hone
    · rw [mainApp_answers hfw hhttp hid he hnot]
      exact List.mem_append_right _ hstart

end Responses

section FailingEndpoint

def jsonText (content : List (String × String)) : String :=
  "\x7b" ++ String.intercalate "," (content.map fun (key, value) =>
    "\"" ++ key ++ "\":\"" ++ value ++ "\"") ++ "\x7d"

def jsonMessages (status : Nat) (content : List (String × String)) : List AsgiMessage :=
  [.responseStart status (some
      [("content-length".toUTF8, (PyInt.str (jsonText content).length).toUTF8),
        ("content-type".toUTF8, "application/json".toUTF8)]),
    .responseBody (jsonText content).toUTF8]

/-- A framework without a client that asks for compression or CORS. -/
def plainFramework : Framework where
  serverErrorMiddleware := fun handler app scope =>
    let x := app scope
    match x.raised with
    | none => x
    | some e =>
      if (x.sent.filterMap AsgiMessage.startStatus).isEmpty then
        { x with sent := x.sent ++ (handler scope e).sent, log := x.log ++ (handler scope e).log }
      else x
  exceptionMiddleware := fun handlers app scope =>
    let x := app scope
    match x.raised with
    | some (.httpException e) => handlers.httpException scope e
    | some (.requestValidationError errors) => handlers.requestValidationError scope errors
    | _ => x
  gzipMiddleware := fun _ app => app
  corsMiddleware := fun _ app => app
  trustedHostMiddleware := fun _ app => app
  prometheusMiddleware := fun app => app
  jsonResponse := jsonMessages
  defaultHttpExceptionHandler := fun e => jsonMessages e.statusCode [("detail", e.detail)]
  defaultValidationExceptionHandler := fun _ => jsonMessages 422 [("detail", "")]

theorem plainFramework_documented : Documented plainFramework := by
  have hstarted : ∀ x : Exchange,
      (x.sent.filterMap AsgiMessage.startStatus).isEmpty = true ↔ ¬ Started x :=
    fun x => List.isEmpty_iff.trans filterMap_startStatus_eq_nil
  refine ⟨?_, ?_, fun _ _ => ⟨rfl, rfl⟩, fun _ _ => ⟨_, _, rfl⟩⟩
  · intro handler app scope e _ hraised hnot
    simp only [plainFramework, hraised, if_pos ((hstarted _).mpr hnot)]
  · rintro handler app scope (hnone | hstart)
    · simp only [plainFramework, hnone]
    · simp only [plainFramework]
      split
      · rfl
      · rw [if_neg fun hempty => (hstarted _).mp hempty hstart]

def devSettings : MiddlewareSettings :=
  { corsOrigins := ["http://localhost:3000"], trustedHosts := ["*"], isProduction := false }

def uploadScope : AsgiScope :=
  { type := .http, method := "POST", path := "/files/upload",
    headers := [("host".toUTF8, "localhost".toUTF8), (requestIdHeader, "abc".toUTF8)],
    client := some "127.0.0.1" }

/-- The endpoint's answers to a file that is too large, and to one whose name is too long
for its column. -/
def tooLargeRouter : AsgiApp := fun _ =>
  { sent := [], raised := some (.httpException { statusCode := 413, detail := "" }), log := [] }

def longNameRouter : AsgiApp := fun _ =>
  { sent := [], raised := some (.unhandled "DataError"), log := [] }

theorem response_stamped_iff_sample :
    ResponseStamped false uploadScope
      (mainApp plainFramework devSettings "uuid0" tooLargeRouter uploadScope) := by
  refine (response_stamped_iff plainFramework plainFramework_documented devSettings "uuid0"
    tooLargeRouter uploadScope rfl ?_).mpr ⟨.inl rfl, ?_⟩
  · unfold ReadableIds
    decide +kernel
  · intro status headers hmem
    have hsent : (innerApp plainFramework devSettings tooLargeRouter uploadScope).sent =
      jsonMessages 413 [("detail", "")] := rfl
    rw [hsent] at hmem
    rcases List.mem_cons.mp hmem with heq | hbody
    · cases heq
      decide +kernel
    · cases List.mem_singleton.mp hbody

/-- The id that the request gives is missing in the answer. -/
theorem unhandled_exception_unstamped :
    ReadableIds uploadScope ∧ ¬ ResponseStamped false uploadScope
      (mainApp plainFramework devSettings "uuid0" longNameRouter uploadScope) := by
  constructor
  · unfold ReadableIds
    decide +kernel
  · rintro ⟨_, _, hall⟩
    have hstart := (hall 500 (some [("content-length".toUTF8, "34".toUTF8),
      ("content-type".toUTF8, "application/json".toUTF8)]) (by decide +kernel)).1
    have hnone : requestIds [("content-length".toUTF8, "34".toUTF8),
      ("content-type".toUTF8, "application/json".toUTF8)] = [] := by decide +kernel
    cases hnone.symm.trans hstart

end FailingEndpoint

end FastApiAuth.ResponseStamps
