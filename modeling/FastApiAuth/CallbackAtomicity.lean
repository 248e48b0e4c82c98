import FastApiAuth.Files

/-!
# What a rejected callback leaves in the tables

The exits of link mode come before its only commit. Login mode commits the new user and
the new link first and looks at the active flag afterwards, and between its two commits the
columns may refuse the link. Both leave a row behind an error.
-/

namespace FastApiAuth.CallbackAtomicity

set_option autoImplicit false

open Database

section ColumnCallback

/-- Whether a statement may carry a text, and what a VARCHAR column of a width keeps of it. -/
structure Columns where
  sendable : String → Bool
  varchar : Nat → String → Option String

def unlimited : Columns := ⟨fun _ => true, fun _ text => some text⟩

def postgres : Columns := ⟨fun text => Char.ofNat 0 ∉ text.toList, FastApiAuth.varchar⟩

end ColumnCallback

section Callback

variable (columns : Columns) (env : Env) (provider : String) (identity : Identity)

/-- The first commit of login mode; `none` is its error. -/
def storeUser (email : String) (createdAt : Instant) (db : Database) : Option (User × Database) :=
  match columns.varchar 255 email with
  | none => none
  | some email => db.insertUser email none true true createdAt []

def linkEmail : Option String → Option (Option String)
  | none => some none
  | some email => (columns.varchar 255 email).map some

/-- The commit of the new link; `none` is its error. -/
def storeLink (userId : Nat) (createdAt : Instant) (db : Database) : Option Database := do
  let storedProvider ← columns.varchar 32 provider
  let providerUserId ← columns.varchar 255 identity.providerUserId
  let email ← linkEmail columns identity.email
  db.insertLink userId storedProvider providerUserId email createdAt

def attachOn (user : User) (s : Server) : Outcome :=
  match storeLink columns provider identity user.id s.now s.db with
  | none => (.error internalServerError, s)
  | some db => answerActive env user { s with db }

def callbackLoginOn (s : Server) : Outcome :=
  match s.db.linkByIdentity provider identity.providerUserId with
  | some existing =>
    match s.db.userById existing.userId with
    | none => (.error inactiveAccount, s)
    | some user => answerActive env user s
  | none =>
    match identity.email with
    | none =>
      (.error { statusCode := 400, detail := provider ++ " did not provide an email address" }, s)
    | some email =>
      if !columns.sendable email then (.error internalServerError, s)
      else
        match s.db.userByEmail email with
        | some user => attachOn columns env provider identity user s
        | none =>
          match storeUser columns email s.now s.db with
          | none => (.error internalServerError, s)
          | some (user, db) => attachOn columns env provider identity user { s with db }

def callbackLinkOn (linkingUserId : Int) (s : Server) : Outcome :=
  match s.db.linkByIdentity provider identity.providerUserId with
  | some existing =>
    if (existing.userId : Int) ≠ linkingUserId then (.error linkedToAnother, s)
    else
      match s.db.userById linkingUserId with
      | none => (.error userNotFound, s)
      | some user => s.answerWithTokens env user
  | none =>
    match s.db.userById linkingUserId with
    | none => (.error userNotFound, s)
    | some user =>
      match storeLink columns provider identity user.id s.now s.db with
      | none => (.error internalServerError, s)
      | some db => { s with db }.answerWithTokens env user

/-- The callback with the texts of the identity sent to and stored in real columns. -/
def callbackOn (state : String) (answer : Option Identity) (s : Server) : Outcome :=
  match requireClient env provider with
  | .error e => (.error e, s)
  | .ok _ =>
    match s.redis.get s.now (stateKeyPrefix ++ state) with
    | none => (.error { statusCode := 400, detail := "Invalid or expired OAuth state" }, s)
    | some stateValue =>
      let s := { s with redis := s.redis.delete (stateKeyPrefix ++ state) }
      match answer with
      | none => (.error internalServerError, s)
      | some identity =>
        match callbackMode stateValue with
        | .malformed => (.error internalServerError, s)
        | .link linkingUserId =>
          if !columns.sendable identity.providerUserId then (.error internalServerError, s)
          else callbackLinkOn columns env provider identity linkingUserId s
        | .login =>
          if !columns.sendable identity.providerUserId then (.error internalServerError, s)
          else callbackLoginOn columns env provider identity s

end Callback

section Unlimited

variable {env : Env} {provider : String} {identity : Identity}

theorem storeLink_unlimited (userId : Nat) (createdAt : Instant) (db : Database) :
    storeLink unlimited provider identity userId createdAt db =
      db.insertLink userId provider identity.providerUserId identity.email createdAt := by
  cases hemail : identity.email with
  | none => simp [storeLink, linkEmail, unlimited, hemail]
  | some email => simp [storeLink, linkEmail, unlimited, hemail]

theorem attachOn_unlimited (user : User) (s : Server) :
    attachOn unlimited env provider identity user s =
      attachIdentity env provider identity user s := by
  rw [attachOn, storeLink_unlimited]
  rfl

/-- Without limits it is the callback of the other modules. -/
theorem callbackOn_unlimited (state : String) (answer : Option Identity) (s : Server) :
    callbackOn unlimited env provider state answer s =
      oauthCallback env provider state answer s := by
  have hlogin : ∀ identity s, callbackLoginOn unlimited env provider identity s =
      callbackLogin env provider identity s := by
    intro identity s
    simp only [callbackLoginOn, attachOn_unlimited]
    rfl
  have hlink : ∀ identity linkingUserId s,
      callbackLinkOn unlimited env provider identity linkingUserId s =
        callbackLink env provider identity linkingUserId s := by
    intro identity linkingUserId s
    simp only [callbackLinkOn, storeLink_unlimited]
    rfl
  simp only [callbackOn, hlogin, hlink]
  rfl

end Unlimited

section Rows

variable {columns : Columns} {provider email : String} {identity : Identity}
variable {db db' : Database} {user : User} {userId : Nat} {createdAt : Instant}

/-- The new link fits into its columns, and as stored there its identity is free. -/
structure LinkFits (columns : Columns) (db : Database) (provider : String) (identity : Identity) :
    Prop where
  email : linkEmail columns identity.email ≠ none
  free : ∃ storedProvider providerUserId, columns.varchar 32 provider = some storedProvider ∧
    columns.varchar 255 identity.providerUserId = some providerUserId ∧
    ∀ a ∈ db.oauthAccounts, a.identity ≠ (storedProvider, providerUserId)

/-- The new user's address fits into its column, and as stored there it is free. -/
def AddressFits (columns : Columns) (db : Database) (email : String) : Prop :=
  ∃ stored, columns.varchar 255 email = some stored ∧ ∀ u ∈ db.users, u.email ≠ stored

theorem storeUser_some (h : storeUser columns email createdAt db = some (user, db')) :
    AddressFits columns db email ∧ user.isActive = true ∧ db'.users = db.users ++ [user] ∧
      db'.oauthAccounts = db.oauthAccounts := by
  unfold storeUser at h
  split at h
  · cases h
  · rename_i stored hstored
    obtain ⟨hfree, huser, rfl⟩ := insertUser_some h
    refine ⟨⟨stored, hstored, hfree⟩, ?_, rfl, rfl⟩
    rw [huser]

theorem storeUser_of_fits (h : AddressFits columns db email) (createdAt : Instant) :
    ∃ user db', storeUser columns email createdAt db = some (user, db') := by
  obtain ⟨stored, hstored, hfree⟩ := h
  unfold storeUser
  rw [hstored]
  exact insertUser_of_free hfree

theorem storeLink_some (h : storeLink columns provider identity userId createdAt db = some db') :
    LinkFits columns db provider identity ∧ db'.oauthAccounts ≠ db.oauthAccounts := by
  unfold storeLink at h
  simp only [Option.bind_eq_bind, Option.bind_eq_some_iff] at h
  obtain ⟨storedProvider, hprovider, providerUserId, hid, email, hemail, hinsert⟩ := h
  obtain ⟨hfree, _, rfl⟩ := insertLink_some hinsert
  refine ⟨⟨?_, storedProvider, providerUserId, hprovider, hid, hfree⟩, by simp⟩
  rw [hemail]
  exact Option.some_ne_none email

theorem storeLink_of_fits (h : LinkFits columns db provider identity)
    (huser : ∃ u ∈ db.users, u.id = userId) (createdAt : Instant) :
    ∃ db', storeLink columns provider identity userId createdAt db = some db' := by
  obtain ⟨storedProvider, providerUserId, hprovider, hid, hfree⟩ := h.free
  obtain ⟨email, hemail⟩ := Option.ne_none_iff_exists'.mp h.email
  unfold storeLink
  rw [hprovider, hid, hemail]
  exact insertLink_of_free hfree huser

end Rows

section Rejections

variable {columns : Columns} {env : Env} {provider state : String} {identity : Identity}
variable {answer : Option Identity} {db : Database} {s : Server} {user : User} {email : String}
variable {createdAt : Instant}

def RejectsCleanly (db : Database) (o : Outcome) : Prop :=
  ∀ e, o.1 = .error e → o.2.db.users = db.users ∧ o.2.db.oauthAccounts = db.oauthAccounts

theorem rejectsCleanly_error {e : HttpException} : RejectsCleanly s.db (.error e, s) := by
  intro e' _
  exact ⟨rfl, rfl⟩

theorem rejectsCleanly_ok {body : Body} : RejectsCleanly db (.ok body, s) := by
  intro e he
  cases he

theorem rejectsCleanly_tokens : RejectsCleanly db (s.answerWithTokens env user) :=
  rejectsCleanly_ok

theorem rejectsCleanly_active (hactive : user.isActive = true) :
    RejectsCleanly db (answerActive env user s) := by
  rw [answerActive, hactive]
  exact rejectsCleanly_tokens

theorem rejectsCleanly_answerActive : RejectsCleanly s.db (answerActive env user s) := by
  cases hactive : user.isActive with
  | true => exact rejectsCleanly_active hactive
  | false =>
    rw [answerActive, hactive]
    exact rejectsCleanly_error

/-- Link mode tests everything before it commits. -/
theorem rejectsCleanly_link (linkingUserId : Int) :
    RejectsCleanly s.db (callbackLinkOn columns env provider identity linkingUserId s) := by
  unfold callbackLinkOn
  split
  · split
    · exact rejectsCleanly_error
    · split
      · exact rejectsCleanly_error
      · exact rejectsCleanly_tokens
  · split
    · exact rejectsCleanly_error
    · split
      · exact rejectsCleanly_error
      · exact rejectsCleanly_tokens

/-- The link of a row that is there already: it stays behind if the row is inactive. -/
theorem rejectsCleanly_attach_iff (huser : user ∈ s.db.users) :
    RejectsCleanly s.db (attachOn columns env provider identity user s) ↔
      ¬ (user.isActive = false ∧ LinkFits columns s.db provider identity) := by
  unfold attachOn
  split
  · rename_i hrefused
    refine iff_of_true rejectsCleanly_error ?_
    rintro ⟨_, hfits⟩
    obtain ⟨db', hstored⟩ := storeLink_of_fits hfits ⟨user, huser, rfl⟩ s.now
    rw [hrefused] at hstored
    cases hstored
  · rename_i db' hstored
    obtain ⟨hfits, hchanged⟩ := storeLink_some hstored
    cases hactive : user.isActive with
    | true => exact iff_of_true (rejectsCleanly_active hactive) (by simp)
    | false =>
      refine iff_of_false ?_ (by simp [hfits])
      intro hclean
      rw [answerActive, hactive] at hclean
      exact hchanged (hclean inactiveAccount rfl).2

/-- The link of a row that the callback has just stored: without it the row stays behind. -/
theorem rejectsCleanly_attach_new_iff {db' : Database}
    (hnew : storeUser columns email createdAt s.db = some (user, db')) :
    RejectsCleanly s.db (attachOn columns env provider identity user { s with db := db' }) ↔
      LinkFits columns s.db provider identity := by
  obtain ⟨_, hactive, husers, haccounts⟩ := storeUser_some hnew
  unfold attachOn
  split
  · rename_i hrefused
    constructor
    · intro hclean
      have hkept := (hclean internalServerError rfl).1
      rw [husers] at hkept
      exact absurd hkept (by simp)
    · intro hfits
      have hfits' : LinkFits columns db' provider identity :=
        ⟨hfits.email, haccounts ▸ hfits.free⟩
      have huser : user ∈ db'.users := husers ▸ List.mem_append_right s.db.users (by simp)
      obtain ⟨db'', hstored⟩ := storeLink_of_fits hfits' ⟨user, huser, rfl⟩ s.now
      rw [hrefused] at hstored
      cases hstored
  · rename_i db'' hstored
    have hfits := (storeLink_some hstored).1
    refine iff_of_true (rejectsCleanly_active hactive) ⟨hfits.email, ?_⟩
    rw [← haccounts]
    exact hfits.free

/-- The address is that of an inactive row, and the link can be stored. -/
def LeavesLink (columns : Columns) (db : Database) (provider : String) (identity : Identity)
    (email : String) : Prop :=
  LinkFits columns db provider identity ∧
    ∃ user, db.userByEmail email = some user ∧ user.isActive = false

/-- No row has the address and the user can be stored, but not the link. -/
def LeavesUser (columns : Columns) (db : Database) (provider : String) (identity : Identity)
    (email : String) : Prop :=
  ¬ LinkFits columns db provider identity ∧
    db.userByEmail email = none ∧ AddressFits columns db email

/-- An identity without a link and with an address, for which one of the two commits is
followed by an error. -/
def LoginLeaves (columns : Columns) (db : Database) (provider : String) (identity : Identity) :
    Prop :=
  db.linkByIdentity provider identity.providerUserId = none ∧
    ∃ email, identity.email = some email ∧ columns.sendable email = true ∧
      (LeavesLink columns db provider identity email ∨
        LeavesUser columns db provider identity email)

theorem rejectsCleanly_login_iff :
    RejectsCleanly s.db (callbackLoginOn columns env provider identity s) ↔
      ¬ LoginLeaves columns s.db provider identity := by
  unfold callbackLoginOn
  split
  · rename_i existing hlinked
    refine iff_of_true ?_ (by simp [LoginLeaves, hlinked])
    split
    · exact rejectsCleanly_error
    · exact rejectsCleanly_answerActive
  rename_i hlinked
  split
  · rename_i hemail
    exact iff_of_true rejectsCleanly_error (by simp [LoginLeaves, hemail])
  rename_i email hemail
  split
  · rename_i hsend
    refine iff_of_true rejectsCleanly_error ?_
    simp only [Bool.not_eq_eq_eq_not, Bool.not_true] at hsend
    simp [LoginLeaves, hemail, hsend]
  rename_i hsend
  simp only [Bool.not_eq_eq_eq_not, Bool.not_true, Bool.not_eq_false] at hsend
  have honly : LoginLeaves columns s.db provider identity ↔
      LeavesLink columns s.db provider identity email ∨
        LeavesUser columns s.db provider identity email := by
    simp [LoginLeaves, hlinked, hemail, hsend]
  rw [honly]
  split
  · rename_i user huser
    rw [rejectsCleanly_attach_iff (userByEmail_some huser).1]
    simp [LeavesLink, LeavesUser, huser, and_comm]
  rename_i huser
  split
  · rename_i hrefused
    have hunfit : ¬ AddressFits columns s.db email := by
      intro hfits
      obtain ⟨user, db', hnew⟩ := storeUser_of_fits hfits s.now
      rw [hrefused] at hnew
      cases hnew
    exact iff_of_true rejectsCleanly_error (by simp [LeavesLink, LeavesUser, huser, hunfit])
  · rename_i user db' hnew
    rw [rejectsCleanly_attach_new_iff hnew]
    simp [LeavesLink, LeavesUser, huser, (storeUser_some hnew).1]

/-- The callback reaches login mode, and login mode leaves a row. -/
def LeavesRow (columns : Columns) (env : Env) (provider state : String)
    (answer : Option Identity) (s : Server) : Prop :=
  requireClient env provider = .ok () ∧
    ∃ stateValue identity, s.redis.get s.now (stateKeyPrefix ++ state) = some stateValue ∧
      callbackMode stateValue = .login ∧ answer = some identity ∧
      columns.sendable identity.providerUserId = true ∧
      LoginLeaves columns s.db provider identity

/-- An error of the callback leaves both tables as they were just when it does not come
from login mode after a commit there. -/
theorem callback_rejects_cleanly_iff (columns : Columns) (env : Env) (provider state : String)
    (answer : Option Identity) (s : Server) :
    (∀ e, (callbackOn columns env provider state answer s).1 = .error e →
      (callbackOn columns env provider state answer s).2.db.users = s.db.users ∧
      (callbackOn columns env provider state answer s).2.db.oauthAccounts =
        s.db.oauthAccounts) ↔
    ¬ LeavesRow columns env provider state answer s := by
  change RejectsCleanly s.db (callbackOn columns env provider state answer s) ↔ _
  unfold callbackOn
  split
  · rename_i hclient
    exact iff_of_true rejectsCleanly_error (by simp [LeavesRow, hclient])
  rename_i hclient
  split
  · rename_i hstored
    exact iff_of_true rejectsCleanly_error (by simp [LeavesRow, hstored])
  rename_i stateValue hstored
  dsimp only
  split
  · exact iff_of_true rejectsCleanly_error (by simp [LeavesRow])
  rename_i identity
  split
  · rename_i hmode
    exact iff_of_true rejectsCleanly_error (by simp [LeavesRow, hstored, hmode])
  · rename_i linkingUserId hmode
    refine iff_of_true ?_ (by simp [LeavesRow, hstored, hmode])
    split
    · exact rejectsCleanly_error
    · exact rejectsCleanly_link linkingUserId
  rename_i hmode
  split
  · rename_i hsend
    refine iff_of_true rejectsCleanly_error ?_
    simp only [Bool.not_eq_eq_eq_not, Bool.not_true] at hsend
    simp [LeavesRow, hsend]
  · rename_i hsend
    simp only [Bool.not_eq_eq_eq_not, Bool.not_true, Bool.not_eq_false] at hsend
    have hlogin : RejectsCleanly s.db (callbackLoginOn columns env provider identity
        { s with redis := s.redis.delete (stateKeyPrefix ++ state) }) ↔
        ¬ LoginLeaves columns s.db provider identity :=
      rejectsCleanly_login_iff (s := { s with
        redis := s.redis.delete (stateKeyPrefix ++ state) })
    rw [hlogin]
    apply not_congr
    constructor
    · intro hleaves
      exact ⟨hclient, stateValue, identity, hstored, hmode, rfl, hsend, hleaves⟩
    · rintro ⟨_, _, identity', _, _, hanswer, _, hleaves⟩
      cases hanswer
      exact hleaves

end Rejections

/-- A GitHub sign-in with the address of an account that has been deactivated. -/
def inactiveServer : Server :=
  { freshServer 0 with
    db := { (freshServer 0).db with users := [⟨1, "a@example.com", none, false, true, 0⟩] }
    redis := (freshServer 0).redis.set 0 "oauth:state:s" "login" 600 }

def inactiveCallback : Outcome :=
  callbackOn postgres asciiEnv "github" "s" (some ⟨"17", some "a@example.com"⟩) inactiveServer

theorem inactive_account_gets_link :
    ¬ ∀ e, inactiveCallback.1 = .error e →
      inactiveCallback.2.db.users = inactiveServer.db.users ∧
      inactiveCallback.2.db.oauthAccounts = inactiveServer.db.oauthAccounts := by
  intro hclean
  have hlinks : inactiveCallback.2.db.oauthAccounts ≠ inactiveServer.db.oauthAccounts := by
    decide +kernel
  cases hreply : inactiveCallback.1 with
  | error e => exact hlinks (hclean e hreply).2
  | ok body =>
    have hrejected : inactiveCallback.1.toOption.isNone = true := by decide +kernel
    rw [hreply] at hrejected
    cases hrejected

end FastApiAuth.CallbackAtomicity
