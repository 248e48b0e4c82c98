import FastApiAuth.Library.PyStr
import FastApiAuth.Models

/-!
# Settings, outside functions and request bodies

`Env` holds what the handlers take from outside the repository: the case and
character tests of Python strings, the e-mail validator, the password hash, the
random draws and the configured providers. The results hold for every `Env`.
A password that a schema has let through is a `NewPassword`.
-/

namespace FastApiAuth

set_option autoImplicit false

structure Env where
  /-- `str.lower` -/
  lower : String → String
  isLower : Char → Bool
  isUpper : Char → Bool
  isDigit : Char → Bool
  /-- `EmailStr`: the normalised address, or a rejection. -/
  emailStr : String → Option String
  /-- `PasswordHash.hash` with the drawn salt, and `PasswordHash.verify` on a text that the
  encoder takes. -/
  hash : Nat → String → String
  verify : String → String → Bool
  /-- The values of `uuid.uuid4` and `secrets.token_urlsafe` at each draw. -/
  uuid4 : Nat → String
  tokenUrlsafe : Nat → String
  /-- Both settings of the provider's client are present. -/
  registered : String → Bool
  accessTokenExpireMinutes : Nat
  refreshTokenExpireDays : Nat

structure HttpException where
  statusCode : Nat
  detail : String
  headers : List (String × String) := []
  deriving DecidableEq

def bearerChallenge : List (String × String) := [("WWW-Authenticate", "Bearer")]

/-- The answer to an exception no handler has caught. -/
def internalServerError : HttpException := { statusCode := 500, detail := "Internal Server Error" }

def validationError (detail : String) : HttpException := { statusCode := 422, detail }

def validatePasswordStrength (env : Env) (password : String) : Except String String :=
  if !password.toList.any env.isLower then .error "Password must contain a lowercase letter"
  else if !password.toList.any env.isUpper then .error "Password must contain an uppercase letter"
  else if !password.toList.any env.isDigit then .error "Password must contain a number"
  else .ok password

/-- The length bounds of the field and the three tests of its validator. -/
def StrongPassword (env : Env) (password : String) : Prop :=
  8 ≤ password.length ∧ password.length ≤ 128 ∧
    (∃ c ∈ password.toList, env.isLower c = true) ∧
    (∃ c ∈ password.toList, env.isUpper c = true) ∧
    (∃ c ∈ password.toList, env.isDigit c = true)

structure NewPassword (env : Env) where
  text : String
  strong : StrongPassword env text

theorem validatePasswordStrength_ok {env : Env} {password p : String}
    (h : validatePasswordStrength env password = .ok p) :
    p = password ∧ (∃ c ∈ password.toList, env.isLower c = true) ∧
      (∃ c ∈ password.toList, env.isUpper c = true) ∧
      (∃ c ∈ password.toList, env.isDigit c = true) := by
  unfold validatePasswordStrength at h
  split at h
  · cases h
  split at h
  · cases h
  split at h
  · cases h
  rename_i hlower hupper hdigit
  cases h
  exact ⟨rfl, by simpa using hlower, by simpa using hupper, by simpa using hdigit⟩

/-- `Field(min_length=8, max_length=128)` followed by the field validator. -/
def validateNewPassword (env : Env) (password : String) :
    Except HttpException (NewPassword env) :=
  if hmin : password.length < 8 then
    .error (validationError "String should have at least 8 characters")
  else if hmax : 128 < password.length then
    .error (validationError "String should have at most 128 characters")
  else
    match h : validatePasswordStrength env password with
    | .error detail => .error (validationError ("Value error, " ++ detail))
    | .ok p =>
      .ok ⟨p, by
        obtain ⟨rfl, hl, hu, hd⟩ := validatePasswordStrength_ok h
        exact ⟨by omega, by omega, hl, hu, hd⟩⟩

theorem validateNewPassword_ok {env : Env} {text : String} {password : NewPassword env}
    (h : validateNewPassword env text = .ok password) :
    password.text = text ∧ StrongPassword env text := by
  have htext : password.text = text := by
    unfold validateNewPassword at h
    split at h
    · cases h
    split at h
    · cases h
    split at h
    · cases h
    · rename_i p hp
      cases h
      exact (validatePasswordStrength_ok hp).1
  exact ⟨htext, htext ▸ password.strong⟩

def validateEmail (env : Env) (email : String) : Except HttpException String :=
  match env.emailStr email with
  | none => .error (validationError "value is not a valid email address")
  | some normalised => .ok normalised

structure UserCreate where
  email : String
  password : String

/-- `verify_password`; the hash is of the encoded password, and with a surrogate in it the
encoder raises. -/
def verifyPassword (env : Env) (plainPassword : PyStr) (hashedPassword : String) : Option Bool :=
  plainPassword.text?.map fun text => env.verify text hashedPassword

@[simp] theorem verifyPassword_ofString (env : Env) (text hashedPassword : String) :
    verifyPassword env (.ofString text) hashedPassword = some (env.verify text hashedPassword) := by
  simp [verifyPassword]

/-- The password has no bounds, so that it may be any text of JSON. -/
structure LoginRequest where
  email : String
  password : PyStr

structure ForgotPasswordRequest where
  email : String

structure PasswordChange where
  currentPassword : PyStr
  newPassword : String

structure AdminUserUpdate where
  isActive : Option Bool
  isVerified : Option Bool

end FastApiAuth
