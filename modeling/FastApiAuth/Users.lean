import FastApiAuth.Auth

/-!
# app/services/user_profile.py and app/api/users.py
-/

namespace FastApiAuth

set_option autoImplicit false

variable (env : Env)

/-- The response models UserResponse and AdminUserResponse: the names of the user's roles, and
the address checked again. -/
def userResponse (s : Server) (user : User) : Reply :=
  match env.emailStr user.email with
  | none => .error internalServerError
  | some email =>
    .ok (.userResponse user.id email user.isActive user.isVerified
      ((s.db.rolesOf user.id).map Role.name))

def updateUserEmail (user : User) (newEmail : String) (s : Server) : Outcome :=
  let normalizedEmail := env.lower newEmail
  if s.db.users.any fun u => u.email = normalizedEmail ∧ u.id ≠ user.id then
    (.error emailTaken, s)
  else
    match s.db.changeEmail user.id normalizedEmail with
    | none => (.error internalServerError, s)
    | some db =>
      let s := { s with db }
      (userResponse env s (Database.setEmail normalizedEmail user), s)

def noPasswordSet : HttpException :=
  { statusCode := 400
    detail := "This account has no password set. Use the password reset flow to set one." }

def changeUserPassword (user : User) (currentPassword : PyStr) (newPassword : NewPassword env)
    (s : Server) : Outcome :=
  match user.hashedPassword with
  | none => (.error noPasswordSet, s)
  | some hashedPassword =>
    match verifyPassword env currentPassword hashedPassword with
    | none => (.error internalServerError, s)
    | some false => (.error { statusCode := 400, detail := "Current password is incorrect" }, s)
    | some true =>
      if env.verify newPassword.text hashedPassword then (.error samePassword, s)
      else
        let (hashedPassword, s) := s.hashPassword env newPassword
        (.ok .noContent, { s with
          db := s.db.amendUser user.id (Database.setHashedPassword hashedPassword) })

/-- `deactivate_user`, also the body of the admin endpoint of that name. -/
def deactivateUser (user : User) (s : Server) : Outcome :=
  (.ok .noContent, { s with db := s.db.amendUser user.id (Database.setActive false) })

def readCurrentUser (credentials : Token) (s : Server) : Outcome :=
  withCurrentUser s credentials fun currentUser => (userResponse env s currentUser, s)

def updateCurrentUser (credentials : Token) (email : Option String) (s : Server) : Outcome :=
  withCurrentUser s credentials fun currentUser =>
    match email with
    | none => (userResponse env s currentUser, s)
    | some email =>
      match validateEmail env email with
      | .error e => (.error e, s)
      | .ok email => updateUserEmail env currentUser email s

def changeCurrentUserPassword (credentials : Token) (passwordData : PasswordChange)
    (s : Server) : Outcome :=
  withCurrentUser s credentials fun currentUser =>
    match validateNewPassword env passwordData.newPassword with
    | .error e => (.error e, s)
    | .ok newPassword =>
      changeUserPassword env currentUser passwordData.currentPassword newPassword s

def deactivateCurrentUser (credentials : Token) (s : Server) : Outcome :=
  withCurrentUser s credentials fun currentUser => deactivateUser currentUser s

end FastApiAuth
