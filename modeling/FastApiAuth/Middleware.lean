import FastApiAuth.Server
import Mathlib

/-!
# The middleware stack

An ASGI application answers a scope with messages, and may end in an exception. The three
middlewares of the application append to the headers of `http.response.start` messages on
their way out. What comes with the framework is a parameter.
-/

namespace FastApiAuth

set_option autoImplicit false

abbrev Header := ByteArray × ByteArray

inductive ScopeType where
  | http
  | websocket
  | lifespan
  deriving DecidableEq

/-- The headers come with lower-case names. -/
structure AsgiScope where
  type : ScopeType
  method : String
  path : String
  headers : List Header
  client : Option String

inductive AsgiMessage where
  | responseStart (status : Nat) (headers : Option (List Header))
  | responseBody (body : ByteArray)
  deriving DecidableEq

inductive AppException where
  | httpException (e : HttpException)
  | requestValidationError (errors : List String)
  | unhandled (name : String)

inductive LogRecord where
  | requestCompleted (method path : String) (status : Nat)
  | httpException (method path : String) (status : Nat) (detail : String)
  | requestValidationFailed (method path : String) (errors : List String)
  | unhandledException (method path : String) (exc : AppException)

/-- What a call of an application comes to. -/
structure Exchange where
  sent : List AsgiMessage
  raised : Option AppException
  log : List LogRecord

abbrev AsgiApp := AsgiScope → Exchange

namespace AsgiMessage

def startStatus : AsgiMessage → Option Nat
  | responseStart status _ => some status
  | responseBody _ => none

/-- `message["headers"] = list(message.get("headers", [])) + more`, on a start. -/
def addHeaders (more : List Header) : AsgiMessage → AsgiMessage
  | responseStart status headers => responseStart status (some (headers.getD [] ++ more))
  | responseBody body => responseBody body

end AsgiMessage

def Exchange.addHeaders (more : List Header) (x : Exchange) : Exchange :=
  { x with sent := x.sent.map (AsgiMessage.addHeaders more) }

/-- The status of the last start, 500 where there is none. -/
def Exchange.statusCode (x : Exchange) : Nat :=
  (x.sent.filterMap AsgiMessage.startStatus).getLastD 500

section RequestContext

/-- `REQUEST_ID_HEADER` -/
def requestIdHeader : ByteArray := "x-request-id".toUTF8

def unicodeDecodeError : AppException := .unhandled "UnicodeDecodeError"

/-- `dict(headers).get(key)`: a later pair of the same key replaces the earlier one. -/
def dictGet (headers : List Header) (key : ByteArray) : Option ByteArray :=
  headers.reverse.findSome? fun header => if header.1 = key then some header.2 else none

/-- `incoming_id.decode() if incoming_id else str(uuid.uuid4())`, none where it raises. -/
def requestIdOf (uuid4 : String) (headers : List Header) : Option String :=
  match dictGet headers requestIdHeader with
  | none => some uuid4
  | some incomingId => if incomingId.isEmpty then some uuid4 else String.fromUTF8? incomingId

def requestContextMiddleware (uuid4 : String) (app : AsgiApp) : AsgiApp := fun scope =>
  if scope.type ≠ .http then app scope
  else
    match requestIdOf uuid4 scope.headers with
    | none => { sent := [], raised := some unicodeDecodeError, log := [] }
    | some requestId =>
      let x := app scope
      { x.addHeaders [(requestIdHeader, requestId.toUTF8)] with
        log := x.log ++ [.requestCompleted scope.method scope.path x.statusCode] }

end RequestContext

section Deprecation

def legacyPrefixes : List String := ["/auth", "/users", "/admin", "/files", "/ws"]

def successorPrefix : String := "/api/v1"

def sunsetDate : String := "Wed, 31 Dec 2026 23:59:59 GMT"

def isLegacyPath (path : String) : Bool :=
  legacyPrefixes.any fun legacy =>
    path == legacy || (legacy ++ "/").toList.isPrefixOf path.toList

def deprecationHeaders (successor : String) : List Header :=
  [("deprecation".toUTF8, "true".toUTF8),
    ("sunset".toUTF8, sunsetDate.toUTF8),
    ("link".toUTF8, ("<" ++ successor ++ ">; rel=\"successor-version\"").toUTF8)]

def deprecationHeadersMiddleware (app : AsgiApp) : AsgiApp := fun scope =>
  if scope.type ≠ .http || !isLegacyPath scope.path then app scope
  else (app scope).addHeaders (deprecationHeaders (successorPrefix ++ scope.path))

end Deprecation

section SecurityHeaders

def securityHeaders (hsts : Bool) : List Header :=
  [("x-content-type-options".toUTF8, "nosniff".toUTF8),
    ("x-frame-options".toUTF8, "DENY".toUTF8),
    ("referrer-policy".toUTF8, "strict-origin-when-cross-origin".toUTF8),
    ("permissions-policy".toUTF8, "geolocation=(), microphone=(), camera=()".toUTF8)] ++
  if hsts then
    [("strict-transport-security".toUTF8, "max-age=63072000; includeSubDomains; preload".toUTF8)]
  else []

def securityHeadersMiddleware (hsts : Bool) (app : AsgiApp) : AsgiApp := fun scope =>
  if scope.type ≠ .http then app scope else (app scope).addHeaders (securityHeaders hsts)

end SecurityHeaders

section Application

abbrev Handler := AsgiScope → AppException → Exchange

/-- The handlers that go to ExceptionMiddleware. -/
structure ExceptionHandlers where
  httpException : AsgiScope → HttpException → Exchange
  requestValidationError : AsgiScope → List String → Exchange

structure Framework where
  serverErrorMiddleware : Handler → AsgiApp → AsgiApp
  exceptionMiddleware : ExceptionHandlers → AsgiApp → AsgiApp
  gzipMiddleware : Nat → AsgiApp → AsgiApp
  corsMiddleware : List String → AsgiApp → AsgiApp
  trustedHostMiddleware : List String → AsgiApp → AsgiApp
  prometheusMiddleware : AsgiApp → AsgiApp
  jsonResponse : Nat → List (String × String) → List AsgiMessage
  defaultHttpExceptionHandler : HttpException → List AsgiMessage
  defaultValidationExceptionHandler : List String → List AsgiMessage

structure MiddlewareSettings where
  corsOrigins : List String
  trustedHosts : List String
  isProduction : Bool

variable (fw : Framework)

def handleHttpException : AsgiScope → HttpException → Exchange := fun scope exc =>
  { sent := fw.defaultHttpExceptionHandler exc, raised := none,
    log := [.httpException scope.method scope.path exc.statusCode exc.detail] }

def handleValidationError : AsgiScope → List String → Exchange := fun scope errors =>
  { sent := fw.defaultValidationExceptionHandler errors, raised := none,
    log := [.requestValidationFailed scope.method scope.path errors] }

def handleUnhandledException : Handler := fun scope exc =>
  { sent := fw.jsonResponse 500 [("detail", "Internal Server Error")], raised := none,
    log := [.unhandledException scope.method scope.path exc] }

/-- The middleware added last is the outermost one. -/
def addMiddleware (added : List (AsgiApp → AsgiApp)) (middleware : AsgiApp → AsgiApp) :
    List (AsgiApp → AsgiApp) := middleware :: added

def buildMiddlewareStack (added : List (AsgiApp → AsgiApp)) (router : AsgiApp) : AsgiApp :=
  fw.serverErrorMiddleware (handleUnhandledException fw)
    (added.foldr (fun middleware app => middleware app)
      (fw.exceptionMiddleware ⟨handleHttpException fw, handleValidationError fw⟩ router))

/-- `app`, as main.py puts it together. -/
def mainApp (settings : MiddlewareSettings) (uuid4 : String) (router : AsgiApp) : AsgiApp :=
  let added := addMiddleware [] (fw.gzipMiddleware 1000)
  let added := addMiddleware added (fw.corsMiddleware settings.corsOrigins)
  let added := addMiddleware added (fw.trustedHostMiddleware settings.trustedHosts)
  let added := addMiddleware added (securityHeadersMiddleware settings.isProduction)
  let added := addMiddleware added deprecationHeadersMiddleware
  let added := addMiddleware added (requestContextMiddleware uuid4)
  let added := addMiddleware added fw.prometheusMiddleware
  buildMiddlewareStack fw added router

end Application

end FastApiAuth
