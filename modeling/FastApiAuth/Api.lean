import FastApiAuth.Admin
import FastApiAuth.OAuth
import FastApiAuth.Library.Runs

/-!
# Runs of the API

`Request` lists the endpoints of app/api that read or write accounts, tokens or
Redis, with their raw inputs. `Action` adds what happens between requests: the
scheduled task, the passing of time, and the SQL statement by which the README
makes the first admin.
-/

namespace FastApiAuth

set_option autoImplicit false

inductive Request where
  | register (clientHost : String) (body : UserCreate) (broker : Bool)
  | login (clientHost : String) (body : LoginRequest)
  | refresh (refreshToken : Token)
  | logout (credentials : Token) (refreshToken : Option Token)
  | verifyEmail (token : Token)
  | forgotPassword (clientHost : String) (body : ForgotPasswordRequest) (broker : Bool)
  | resetPassword (token : Token) (newPassword : String)
  | oauthLogin (provider : String)
  | oauthLink (provider : String) (credentials : Token)
  | oauthCallback (provider state : String) (answer : Option Identity)
  | listLinkedAccounts (credentials : Token)
  | unlinkProvider (provider : String) (credentials : Token)
  | readCurrentUser (credentials : Token)
  | updateCurrentUser (credentials : Token) (email : Option String)
  | changeCurrentUserPassword (credentials : Token) (passwordData : PasswordChange)
  | deactivateCurrentUser (credentials : Token)
  | updateUserStatus (credentials : Token) (userId : Int) (payload : AdminUserUpdate)
  | adminDeactivateUser (credentials : Token) (userId : Int)
  | listRoles (credentials : Token)
  | assignRole (credentials : Token) (userId : Int) (role : String) (pushed : Bool)
  | revokeRole (credentials : Token) (userId : Int) (roleName : String)
  | websocket (token : Token)

inductive Action where
  | request (r : Request)
  | cleanup
  | wait (until_ : Instant)
  | grantBySql (userId : Nat) (roleName : String)

def registerLimiter : RateLimiter := { times := 5, seconds := 60, scope := "register" }

def loginLimiter : RateLimiter := { times := 5, seconds := 60, scope := "login" }

def forgotPasswordLimiter : RateLimiter := { times := 5, seconds := 60, scope := "forgot-password" }

variable (env : Env)

/-- Run `endpoint` on a validated part of the body, or answer 422. -/
def withValid {α : Type} (validated : Except HttpException α) (s : Server)
    (endpoint : α → Outcome) : Outcome :=
  match validated with
  | .error e => (.error e, s)
  | .ok a => endpoint a

/-- The handshake of the socket; what it carries afterwards changes no account. -/
def websocketEndpoint (token : Token) (s : Server) : Outcome :=
  match getCurrentUserWs s token with
  | none => (.error { statusCode := 403, detail := "" }, s)
  | some currentUser => (.ok (.connected currentUser.id), s)

def handle : Request → Server → Outcome
  | .register clientHost body broker, s =>
    registerLimiter.guard clientHost s fun s =>
      withValid (validateEmail env body.email) s fun email =>
        withValid (validateNewPassword env body.password) s fun password =>
          registerUser env email password broker s
  | .login clientHost body, s =>
    loginLimiter.guard clientHost s fun s =>
      withValid (validateEmail env body.email) s fun email =>
        loginUser env email body.password s
  | .refresh refreshToken, s => refreshAccessToken env refreshToken s
  | .logout credentials refreshToken, s => logout credentials refreshToken s
  | .verifyEmail token, s => verifyEmail token s
  | .forgotPassword clientHost body broker, s =>
    forgotPasswordLimiter.guard clientHost s fun s =>
      withValid (validateEmail env body.email) s fun email =>
        forgotPassword env email broker s
  | .resetPassword token newPassword, s =>
    withValid (validateNewPassword env newPassword) s fun newPassword =>
      resetPassword env token newPassword s
  | .oauthLogin provider, s => oauthLogin env provider s
  | .oauthLink provider credentials, s => oauthLink env provider credentials s
  | .oauthCallback provider state answer, s => oauthCallback env provider state answer s
  | .listLinkedAccounts credentials, s => listLinkedAccounts credentials s
  | .unlinkProvider provider credentials, s => unlinkProvider provider credentials s
  | .readCurrentUser credentials, s => readCurrentUser env credentials s
  | .updateCurrentUser credentials email, s => updateCurrentUser env credentials email s
  | .changeCurrentUserPassword credentials passwordData, s =>
    changeCurrentUserPassword env credentials passwordData s
  | .deactivateCurrentUser credentials, s => deactivateCurrentUser credentials s
  | .updateUserStatus credentials userId payload, s =>
    withPermissions s credentials ["users:write"] fun _ => updateUserStatus env userId payload s
  | .adminDeactivateUser credentials userId, s =>
    withPermissions s credentials ["users:delete"] fun _ => adminDeactivateUser userId s
  | .listRoles credentials, s =>
    withPermissions s credentials ["roles:manage"] fun _ => listRoles s
  | .assignRole credentials userId role pushed, s =>
    withPermissions s credentials ["roles:manage"] fun _ => assignRole env userId role pushed s
  | .revokeRole credentials userId roleName, s =>
    withPermissions s credentials ["roles:manage"] fun _ => revokeRole env userId roleName s
  | .websocket token, s => websocketEndpoint token s

/-- `INSERT INTO user_roles SELECT userId, id FROM roles WHERE name = roleName` -/
def grantBySql (userId : Nat) (roleName : String) (s : Server) : Server :=
  match s.db.userById userId, s.db.roleByName roleName with
  | some user, some role => { s with db := s.db.addUserRole user.id role.id }
  | _, _ => s

/-- The reply of an action that is not a request says nothing. -/
def step (s : Server) : Action → Outcome
  | .request r => handle env r s
  | .cleanup => (.ok .noContent, cleanupUnverifiedUsers s)
  | .wait until_ => (.ok .noContent, { s with now := max s.now until_ })
  | .grantBySql userId roleName => (.ok .noContent, grantBySql userId roleName s)

/-- A step of the API, labelled with the action and its reply. -/
abbrev Step : Server → Action × Reply → Server → Prop := Runs.StepOf (step env)

abbrev ApiTransition := Runs.Transition Server (Action × Reply)

abbrev ApiRun : Server → List ApiTransition → Server → Prop := Runs.Run (Step env)

/-- A deployment before its first request: any tables the constraints allow, with
nothing in Redis, no token signed and no mail sent. -/
structure Initial (s : Server) : Prop where
  consistent : s.db.Consistent
  redis : s.redis = ExpiringStore.empty
  issued : s.issued = []
  mails : s.mails = []

/-- A deployment right after the migrations. -/
def freshServer (now : Instant) : Server :=
  { now, db := Database.empty.seedRbacDefaults, redis := ExpiringStore.empty, issued := [],
    mails := [], draws := 0 }

theorem freshServer_users (now : Instant) : (freshServer now).db.users = [] := by
  have : Database.empty.seedRbacDefaults.users = [] := by decide
  exact this

theorem freshServer_initial (now : Instant) : Initial (freshServer now) := by
  have husers : Database.empty.seedRbacDefaults.users = [] := freshServer_users now
  have hlinks : Database.empty.seedRbacDefaults.oauthAccounts = [] := by decide
  have hroles : Database.empty.seedRbacDefaults.userRoles = [] := by decide
  refine ⟨?_, rfl, rfl, rfl⟩
  constructor <;> simp [freshServer, husers, hlinks, hroles]

/-- An environment to run the handlers in: the string functions cover ASCII. -/
def asciiEnv : Env where
  lower := fun text => String.ofList (text.toList.map Char.toLower)
  isLower := Char.isLower
  isUpper := Char.isUpper
  isDigit := Char.isDigit
  emailStr := fun text => if '@' ∈ text.toList then some text else none
  hash := fun salt password => password ++ "$" ++ PyInt.str salt
  verify := fun password hash => (password ++ "$").toList.isPrefixOf hash.toList
  uuid4 := fun draw => "uuid" ++ PyInt.str draw
  tokenUrlsafe := fun draw => "state" ++ PyInt.str draw
  registered := fun _ => true
  accessTokenExpireMinutes := 30
  refreshTokenExpireDays := 7

end FastApiAuth
