import FastApiAuth.HandlerRules
import FastApiAuth.Files

/-!
# What a failed registration leaves in the tables

The new row is committed before the rest of the answer is made. `registerUserUnder` takes
the outcome of every call that may fail for another reason than the request itself.
-/

namespace FastApiAuth.RegistrationAtomicity

set_option autoImplicit false

open Database

/-- How the calls of register_user end. A commit that raises covers a constraint that
another transaction has made fail meanwhile. -/
structure RegisterFaults where
  findUser : Bool := true
  findRole : Bool := true
  commit : CallOutcome := .succeeds
  refresh : Bool := true
  delay : CallOutcome := .succeeds

section Endpoint

variable (env : Env)

def queueMail (mail : Mail) (s : Server) : Server := { s with mails := s.mails ++ [mail] }

/-- From the first statement after `db.commit()` on. -/
def answerRegistered (faults : RegisterFaults) (user : User) (s : Server) : Outcome :=
  if !faults.refresh then (.error internalServerError, s)
  else
    let (token, s) := s.createEmailVerificationToken env user.id (PyInt.str user.id)
    let s := faults.delay.effect (queueMail ⟨.verification, user.email, token⟩) s
    if faults.delay = .succeeds then (registrationResponse env user, s)
    else (.error internalServerError, s)

/-- `db.commit()` with the new row pending, and what follows. -/
def commitRegistered (faults : RegisterFaults) (user : User) (db : Database) (s : Server) :
    Outcome :=
  let s := faults.commit.effect (fun s => { s with db }) s
  if faults.commit = .succeeds then answerRegistered env faults user s
  else (.error internalServerError, s)

def registerUserUnder (faults : RegisterFaults) (email : String) (password : NewPassword env)
    (s : Server) : Outcome :=
  let email := env.lower email
  if !faults.findUser then (.error internalServerError, s)
  else
    match s.db.userByEmail email with
    | some _ => (.error emailTaken, s)
    | none =>
      let (hashedPassword, s) := s.hashPassword env password
      if !faults.findRole then (.error internalServerError, s)
      else
        let roles := (s.db.roleByName defaultUserRoleName).toList
        match s.db.insertUser email (some hashedPassword) true false s.now roles with
        | none => (.error internalServerError, s)
        | some (user, db) => commitRegistered env faults user db s

/-- The whole endpoint, with the limiter and the checks of the body before the handler. -/
def registerEndpoint (faults : RegisterFaults) (clientHost : String) (body : UserCreate)
    (s : Server) : Outcome :=
  registerLimiter.guard clientHost s fun s =>
    withValid (validateEmail env body.email) s fun email =>
      withValid (validateNewPassword env body.password) s fun password =>
        registerUserUnder env faults email password s

end Endpoint

section Laws

variable {env : Env} {faults : RegisterFaults} {email : String} {password : NewPassword env}
variable {db : Database} {s : Server} {user : User}

/-- With no fault but a queue that is down it is the handler of the other modules. -/
theorem registerUserUnder_eq_registerUser (broker : Bool) :
    registerUserUnder env { delay := if broker then .succeeds else .raises } email password s =
      registerUser env email password broker s := by
  cases broker with
  | true => rfl
  | false =>
    unfold registerUserUnder registerUser
    simp only [Bool.not_true, Bool.false_eq_true, if_false]
    cases s.db.userByEmail (env.lower email) with
    | some found => rfl
    | none =>
      dsimp only
      generalize Database.insertUser _ _ _ _ _ _ _ = stored
      cases stored with
      | none => rfl
      | some stored => rfl

def RejectsCleanly (db : Database) (o : Outcome) : Prop :=
  ∀ e, o.1 = .error e → o.2.db.users = db.users ∧ o.2.db.userRoles = db.userRoles

theorem rejectsCleanly_error {e : HttpException} (h : s.db = db) :
    RejectsCleanly db (.error e, s) := by
  intro e' _
  exact ⟨congrArg Database.users h, congrArg Database.userRoles h⟩

/-- Something raises although the row is stored, the response model on its address among it. -/
def FailsAfterCommit (env : Env) (faults : RegisterFaults) (address : String) : Prop :=
  faults.commit = .raisesLate ∨
    faults.commit = .succeeds ∧
      (faults.refresh = false ∨ faults.delay ≠ .succeeds ∨ env.emailStr address = none)

theorem registrationResponse_cases (env : Env) (user : User) :
    env.emailStr user.email = none ∧ registrationResponse env user = .error internalServerError ∨
      env.emailStr user.email ≠ none ∧ ∃ body, registrationResponse env user = .ok body := by
  unfold registrationResponse
  cases env.emailStr user.email with
  | none => exact Or.inl ⟨rfl, rfl⟩
  | some email => exact Or.inr ⟨nofun, _, rfl⟩

theorem effect_queueMail_db (outcome : CallOutcome) (mail : Mail) (s : Server) :
    (outcome.effect (queueMail mail) s).db = s.db := by
  cases outcome <;> rfl

/-- What follows the commit leaves the tables to it and ends with its two calls and the
response. -/
theorem answerRegistered_cases (env : Env) (faults : RegisterFaults) (user : User) (s : Server) :
    (answerRegistered env faults user s).2.db = s.db ∧
      ((faults.refresh = false ∨ faults.delay ≠ .succeeds ∨ env.emailStr user.email = none) ∧
          (answerRegistered env faults user s).1 = .error internalServerError ∨
        (faults.refresh = true ∧ faults.delay = .succeeds ∧ env.emailStr user.email ≠ none) ∧
          ∃ body, (answerRegistered env faults user s).1 = .ok body) := by
  unfold answerRegistered
  cases hrefresh : faults.refresh with
  | false => exact ⟨rfl, Or.inl ⟨Or.inl rfl, rfl⟩⟩
  | true =>
    rw [if_neg (by decide)]
    dsimp only
    split
    · rename_i hdelay
      refine ⟨effect_queueMail_db _ _ _, ?_⟩
      rcases registrationResponse_cases env user with ⟨hnone, herror⟩ | ⟨hsome, hbody⟩
      · exact Or.inl ⟨Or.inr (Or.inr hnone), herror⟩
      · exact Or.inr ⟨⟨rfl, hdelay, hsome⟩, hbody⟩
    · rename_i hdelay
      exact ⟨effect_queueMail_db _ _ _, Or.inl ⟨Or.inr (Or.inl hdelay), rfl⟩⟩

/-- The three ways in which the commit and what follows it end. -/
theorem commitRegistered_cases (env : Env) (faults : RegisterFaults) (user : User)
    (db : Database) (s : Server) :
    (¬ FailsAfterCommit env faults user.email ∧
      commitRegistered env faults user db s = (.error internalServerError, s)) ∨
    (FailsAfterCommit env faults user.email ∧
      (commitRegistered env faults user db s).1 = .error internalServerError ∧
      (commitRegistered env faults user db s).2.db = db) ∨
    (¬ FailsAfterCommit env faults user.email ∧
      ∃ body, (commitRegistered env faults user db s).1 = .ok body) := by
  unfold commitRegistered
  cases hcommit : faults.commit with
  | raises => exact Or.inl ⟨by simp [FailsAfterCommit, hcommit], rfl⟩
  | raisesLate => exact Or.inr (Or.inl ⟨Or.inl hcommit, rfl, rfl⟩)
  | succeeds =>
    obtain ⟨hdb, ⟨hlate, herror⟩ | ⟨⟨hrefresh, hdelay, haddress⟩, hbody⟩⟩ :=
      answerRegistered_cases env faults user { s with db }
    · exact Or.inr (Or.inl ⟨Or.inr ⟨hcommit, hlate⟩, herror, hdb⟩)
    · refine Or.inr (Or.inr ⟨?_, hbody⟩)
      simp [FailsAfterCommit, hcommit, hrefresh, hdelay, haddress]

/-- The commit leaves its row behind an error just when something fails after it. -/
theorem rejectsCleanly_commit_iff (hgrown : db.users ≠ s.db.users) :
    RejectsCleanly s.db (commitRegistered env faults user db s) ↔
      ¬ FailsAfterCommit env faults user.email := by
  rcases commitRegistered_cases env faults user db s with
    ⟨hearly, hkept⟩ | ⟨hlate, herror, hdb⟩ | ⟨hearly, body, hbody⟩
  · rw [hkept]
    exact iff_of_true (rejectsCleanly_error rfl) hearly
  · refine iff_of_false ?_ (not_not_intro hlate)
    intro hclean
    have hkept := (hclean _ herror).1
    rw [hdb] at hkept
    exact hgrown hkept
  · refine iff_of_true ?_ hearly
    intro e he
    cases hbody.symm.trans he

/-- The constraint of the column cannot fail where the lookup has found no row. -/
theorem registerUserUnder_of_free (faults : RegisterFaults) (password : NewPassword env)
    (hfree : s.db.userByEmail (env.lower email) = none) (hfind : faults.findUser = true)
    (hrole : faults.findRole = true) :
    ∃ user db, user.email = env.lower email ∧ db.users = s.db.users ++ [user] ∧
      registerUserUnder env faults email password s =
        commitRegistered env faults user db (s.hashPassword env password).2 := by
  have hstored : ∃ user db, (s.hashPassword env password).2.db.insertUser (env.lower email)
      (some (s.hashPassword env password).1) true false s.now
      (s.db.roleByName defaultUserRoleName).toList = some (user, db) :=
    insertUser_of_free (Tables.lookup_eq_none_iff.mp hfree)
  obtain ⟨user, db, hnew⟩ := hstored
  obtain ⟨_, huser, hdb⟩ := insertUser_some hnew
  refine ⟨user, db, congrArg User.email huser, congrArg Database.users hdb, ?_⟩
  unfold registerUserUnder
  simp only [hfind, hrole, hfree, Bool.not_true, Bool.false_eq_true, if_false]
  split
  · rename_i hrefused
    exact absurd (hrefused.symm.trans hnew) (by simp)
  · rename_i user' db' hnew'
    cases hnew'.symm.trans hnew
    rfl

theorem registerUserUnder_taken {found : User} (hfind : faults.findUser = true)
    (htaken : s.db.userByEmail (env.lower email) = some found) :
    registerUserUnder env faults email password s = (.error emailTaken, s) := by
  unfold registerUserUnder
  simp only [hfind, htaken]
  rfl

/-- The address is free, the lookups are answered, and something raises after the commit. -/
def LeavesAccount (env : Env) (faults : RegisterFaults) (email : String) (s : Server) : Prop :=
  s.db.userByEmail (env.lower email) = none ∧ faults.findUser = true ∧ faults.findRole = true ∧
    FailsAfterCommit env faults (env.lower email)

/-- A failed registration leaves both tables as they were just when nothing fails between
the commit and the answer. -/
theorem register_rejects_cleanly_iff (env : Env) (faults : RegisterFaults) (email : String)
    (password : NewPassword env) (s : Server) :
    (∀ e, (registerUserUnder env faults email password s).1 = .error e →
      (registerUserUnder env faults email password s).2.db.users = s.db.users ∧
      (registerUserUnder env faults email password s).2.db.userRoles = s.db.userRoles) ↔
    ¬ LeavesAccount env faults email s := by
  change RejectsCleanly s.db (registerUserUnder env faults email password s) ↔ _
  cases hfind : faults.findUser with
  | false =>
    refine iff_of_true ?_ (by simp [LeavesAccount, hfind])
    unfold registerUserUnder
    rw [hfind]
    exact rejectsCleanly_error rfl
  | true =>
  cases hfree : s.db.userByEmail (env.lower email) with
  | some found =>
    refine iff_of_true ?_ (by simp [LeavesAccount, hfree])
    rw [registerUserUnder_taken hfind hfree]
    exact rejectsCleanly_error rfl
  | none =>
  cases hrole : faults.findRole with
  | false =>
    refine iff_of_true ?_ (by simp [LeavesAccount, hrole])
    unfold registerUserUnder
    simp only [hfind, hfree, hrole]
    exact rejectsCleanly_error rfl
  | true =>
  obtain ⟨user, db, hemail, husers, hcommit⟩ :=
    registerUserUnder_of_free faults password hfree hfind hrole
  have honly : LeavesAccount env faults email s ↔ FailsAfterCommit env faults user.email := by
    simp [LeavesAccount, hfree, hfind, hrole, hemail]
  rw [honly, hcommit]
  apply rejectsCleanly_commit_iff (s := (s.hashPassword env password).2)
  intro hkept
  have hlength := congrArg List.length (husers.symm.trans hkept)
  simp [Server.hashPassword] at hlength

/-- Without a fault a free address is registered, if it is still one in lower case. -/
theorem registers_free_address (hfree : s.db.userByEmail (env.lower email) = none)
    (haddress : env.emailStr (env.lower email) ≠ none) :
    ∃ body, (registerUserUnder env {} email password s).1 = .ok body := by
  obtain ⟨user, db, hemail, _, hcommit⟩ := registerUserUnder_of_free {} password hfree rfl rfl
  rw [hcommit]
  rcases answerRegistered_cases env {} user { (s.hashPassword env password).2 with db } with
    ⟨_, ⟨hlate, _⟩ | ⟨_, hbody⟩⟩
  · simp [hemail, haddress] at hlate
  · exact hbody

/-- A registration that failed without leaving the row can be made again. -/
theorem registers_again (hfree : s.db.userByEmail (env.lower email) = none)
    (haddress : env.emailStr (env.lower email) ≠ none)
    (hclean : ¬ LeavesAccount env faults email s) {e : HttpException}
    (hfailed : (registerUserUnder env faults email password s).1 = .error e)
    (again : NewPassword env) :
    ∃ body, (registerUserUnder env {} email again
      (registerUserUnder env faults email password s).2).1 = .ok body := by
  have hkept := ((register_rejects_cleanly_iff env faults email password s).mpr hclean
    e hfailed).1
  apply registers_free_address _ haddress
  unfold Database.userByEmail
  rw [hkept]
  exact hfree

theorem leaves_row (password : NewPassword env) (hleaves : LeavesAccount env faults email s) :
    (registerUserUnder env faults email password s).1 = .error internalServerError ∧
      ∃ user, user.email = env.lower email ∧
        (registerUserUnder env faults email password s).2.db.users = s.db.users ++ [user] := by
  obtain ⟨hfree, hfind, hrole, hlate⟩ := hleaves
  obtain ⟨user, db, hemail, husers, hcommit⟩ :=
    registerUserUnder_of_free faults password hfree hfind hrole
  rw [← hemail] at hlate
  rw [hcommit]
  rcases commitRegistered_cases env faults user db (s.hashPassword env password).2 with
    ⟨hearly, _⟩ | ⟨_, herror, hdb⟩ | ⟨hearly, _⟩
  · exact absurd hlate hearly
  · exact ⟨herror, user, hemail, by rw [hdb, husers]⟩
  · exact absurd hlate hearly

/-- One that left it cannot. -/
theorem refused_again (hleaves : LeavesAccount env faults email s) (again : NewPassword env) :
    (registerUserUnder env {} email again
      (registerUserUnder env faults email password s).2).1 = .error emailTaken := by
  obtain ⟨_, user, hemail, husers⟩ := leaves_row password hleaves
  cases hfound : (registerUserUnder env faults email password s).2.db.userByEmail
      (env.lower email) with
  | some found => rw [registerUserUnder_taken rfl hfound]
  | none =>
    have hnobody := Tables.lookup_eq_none_iff.mp hfound user
    rw [husers] at hnobody
    exact absurd hemail (hnobody (by simp))

/-- Whatever the dependencies refuse, they refuse before the handler writes anything. -/
theorem endpoint_rejects_cleanly (faults : RegisterFaults) (clientHost : String)
    (body : UserCreate) (s : Server) (hearly : ∀ email, env.emailStr body.email = some email →
      ¬ FailsAfterCommit env faults (env.lower email)) :
    RejectsCleanly s.db (registerEndpoint env faults clientHost body s) := by
  apply guard_rule
  · intro e redis _
    exact rejectsCleanly_error rfl
  intro redis _
  apply withValid_rule
  · intro e _
    exact rejectsCleanly_error rfl
  intro email hemail
  apply withValid_rule
  · intro e _
    exact rejectsCleanly_error rfl
  intro password _
  apply (register_rejects_cleanly_iff env faults email password { s with redis }).mpr
  rintro ⟨_, _, _, hlate⟩
  exact hearly email (validateEmail_ok hemail) hlate

end Laws

section QueueDown

theorem passw0rd_strong : StrongPassword asciiEnv "Passw0rd" :=
  ⟨by decide, by decide, ⟨'a', by decide, rfl⟩, ⟨'P', by decide, rfl⟩, ⟨'0', by decide, rfl⟩⟩

def strongPassword : NewPassword asciiEnv := ⟨"Passw0rd", passw0rd_strong⟩

def queueDown : RegisterFaults := { delay := .raises }

def unqueued : Outcome :=
  registerUserUnder asciiEnv queueDown "a@example.com" strongPassword (freshServer 0)

theorem unqueued_leaves :
    LeavesAccount asciiEnv queueDown "a@example.com" (freshServer 0) := by
  refine ⟨?_, rfl, rfl, Or.inr ⟨rfl, Or.inr (Or.inl (by decide))⟩⟩
  unfold Database.userByEmail
  rw [freshServer_users]
  rfl

/-- The answer is 500, the row stays, and the address cannot be registered again. -/
theorem failed_registration_keeps_row :
    ¬ (∀ e, unqueued.1 = .error e →
      unqueued.2.db.users = (freshServer 0).db.users ∧
      unqueued.2.db.userRoles = (freshServer 0).db.userRoles) ∧
    (registerUserUnder asciiEnv {} "a@example.com" strongPassword unqueued.2).1 =
      .error emailTaken := by
  obtain ⟨herror, user, _, husers⟩ := leaves_row strongPassword unqueued_leaves
  refine ⟨?_, refused_again unqueued_leaves strongPassword⟩
  intro hclean
  have hkept := (hclean internalServerError herror).1
  have hlength := congrArg List.length (husers.symm.trans hkept)
  simp at hlength

end QueueDown

end FastApiAuth.RegistrationAtomicity
