import FastApiAuth.Provenance

/-!
# Which password an account has

A password is stored by a registration, a change or a reset, always as a salted hash.
The history of a deployment says which text was the last to be stored for a row, and this
text, and no other, passes the checks of login, change and reset.
-/

namespace FastApiAuth.Passwords

set_option autoImplicit false

open Database Runs

/-- The new password that a request carries. -/
def newPasswordOf : Action → Option String
  | .request (.register _ body _) => some body.password
  | .request (.changeCurrentUserPassword _ passwordData) => some passwordData.newPassword
  | .request (.resetPassword _ text) => some text
  | _ => none

/-- The transition stores a password for the row `userId`. -/
inductive StoresFor (t : ApiTransition) : Nat → Prop where
  | registered {clientHost : String} {body : UserCreate} {broker : Bool} :
      t.label.1 = .request (.register clientHost body broker) →
      t.source.db.nextUserId < t.target.db.nextUserId → StoresFor t t.source.db.nextUserId
  | changed {credentials : Token} {passwordData : PasswordChange} {user : User} :
      t.label = (.request (.changeCurrentUserPassword credentials passwordData), .ok .noContent) →
      getCurrentUser t.source credentials = .ok user → StoresFor t user.id
  | reset {token : Token} {text message : String} {claims : TokenClaims Instant} {userId : Nat} :
      t.label = (.request (.resetPassword token text), .ok (.messageResponse message)) →
      t.source.decodePasswordResetToken token = some claims →
      PyInt.int claims.subject = some (userId : Int) → StoresFor t userId

/-- The last password stored for the row is `text`. -/
def LastPassword (h : List ApiTransition) (userId : Nat) (text : String) : Prop :=
  Since (fun t => StoresFor t userId ∧ newPasswordOf t.label.1 = some text)
    (fun t => StoresFor t userId) h

/-- The stored hash is one of the last password. -/
def StoresLast (env : Env) (h : List ApiTransition) (user : User) : Prop :=
  (user.hashedPassword = none ∧ ∀ t ∈ h, ¬ StoresFor t user.id) ∨
    ∃ salt text, user.hashedPassword = some (env.hash salt text) ∧ LastPassword h user.id text

section Requests

variable (env : Env) (s : Server)

/-- A change is refused and does nothing, or stores the hash for the requester. -/
theorem changeCurrentUserPassword_cases (credentials : Token) (passwordData : PasswordChange) :
    (∃ e, changeCurrentUserPassword env credentials passwordData s = (.error e, s)) ∨
    ∃ user, getCurrentUser s credentials = .ok user ∧
      (changeCurrentUserPassword env credentials passwordData s).1 = .ok .noContent ∧
      (changeCurrentUserPassword env credentials passwordData s).2.db =
        s.db.amendUser user.id
          (setHashedPassword (env.hash s.draws passwordData.newPassword)) := by
  apply changeCurrentUserPassword_rule (P := fun o => (∃ e, o = (.error e, s)) ∨
    ∃ user, getCurrentUser s credentials = .ok user ∧ o.1 = .ok .noContent ∧
      o.2.db = s.db.amendUser user.id
        (setHashedPassword (env.hash s.draws passwordData.newPassword)))
  · exact fun _ _ => Or.inl ⟨_, rfl⟩
  · exact fun _ _ _ _ _ _ _ => Or.inl ⟨_, rfl⟩
  · intro user hashedPassword newPassword huser hnew _ _
    obtain ⟨htext, _⟩ := validateNewPassword_ok hnew
    refine Or.inr ⟨user, huser, rfl, ?_⟩
    rw [← htext]

/-- A reset is refused and does nothing, or stores the hash for the user of the token. -/
theorem resetPassword_cases (token : Token) (text : String) :
    (∃ e, handle env (.resetPassword token text) s = (.error e, s)) ∨
    ∃ claims user message, s.decodePasswordResetToken token = some claims ∧
      PyInt.int claims.subject = some (user.id : Int) ∧ user ∈ s.db.users ∧
      (handle env (.resetPassword token text) s).1 = .ok (.messageResponse message) ∧
      (handle env (.resetPassword token text) s).2.db =
        s.db.amendUser user.id (setHashedPassword (env.hash s.draws text)) := by
  apply reset_rule (P := fun o => (∃ e, o = (.error e, s)) ∨
    ∃ claims user message, s.decodePasswordResetToken token = some claims ∧
      PyInt.int claims.subject = some (user.id : Int) ∧ user ∈ s.db.users ∧
      o.1 = .ok (.messageResponse message) ∧
      o.2.db = s.db.amendUser user.id (setHashedPassword (env.hash s.draws text)))
  · exact fun _ _ => Or.inl ⟨_, rfl⟩
  intro password hpassword
  obtain ⟨htext, _⟩ := validateNewPassword_ok hpassword
  apply resetPassword_rule (P := fun o => (∃ e, o = (.error e, s)) ∨
    ∃ claims user message, s.decodePasswordResetToken token = some claims ∧
      PyInt.int claims.subject = some (user.id : Int) ∧ user ∈ s.db.users ∧
      o.1 = .ok (.messageResponse message) ∧
      o.2.db = s.db.amendUser user.id (setHashedPassword (env.hash s.draws text)))
  · exact fun _ _ => Or.inl ⟨_, rfl⟩
  · intro claims user hclaims _ huser
    obtain ⟨hint, hmem, _, _⟩ := resettingUser_ok huser
    refine Or.inr ⟨claims, user, _, hclaims, hint, hmem, rfl, ?_⟩
    rw [← htext]
    rfl

end Requests

section Steps

variable {env : Env} {s s' : Server} {l : Action × Reply} {u' : User}

theorem StoresFor.lt {userId : Nat} (hstores : StoresFor ⟨s, l, s'⟩ userId)
    (hc : s.db.Consistent) (hstep : Step env s l s') : userId < s'.db.nextUserId := by
  have hle := step_nextUserId_le hstep
  cases hstores with
  | registered _ hcreated => exact hcreated
  | changed _ huser => exact (hc.userIds_lt _ (getCurrentUser_mem huser)).trans_le hle
  | @reset token text message claims _ hlabel hclaims hint =>
    have hlabel : l = (.request (.resetPassword token text), .ok (.messageResponse message)) :=
      hlabel
    have hhandle : handle env (.resetPassword token text) s =
        (.ok (.messageResponse message), s') := by
      rw [hlabel] at hstep
      exact hstep
    rcases resetPassword_cases env s token text with
      ⟨e, hrefused⟩ | ⟨_, user, _, hclaims', hint', hmem, _⟩
    · rw [hrefused] at hhandle
      cases hhandle
    · cases hclaims.symm.trans hclaims'
      cases hint.symm.trans hint'
      exact (hc.userIds_lt _ hmem).trans_le hle

theorem rewritten_hash {db : Database} {userId : Nat} {hash : String} (hid : u'.id = userId)
    (hu' : u' ∈ (db.amendUser userId (setHashedPassword hash)).users) :
    u'.hashedPassword = some hash := by
  obtain ⟨v, _, hv⟩ := mem_amendUser.mp hu'
  by_cases hsame : v.id = userId
  · rw [if_pos hsame] at hv
    rw [← hv]
    rfl
  · rw [if_neg hsame] at hv
    rw [hv] at hsame
    exact absurd hid hsame

/-- The row for which a password is stored has a hash of it. -/
theorem stored_hash (hc : s.db.Consistent) (hstep : Step env s l s') (hu' : u' ∈ s'.db.users)
    (hstores : StoresFor ⟨s, l, s'⟩ u'.id) :
    ∃ salt text, newPasswordOf l.1 = some text ∧
      u'.hashedPassword = some (env.hash salt text) := by
  obtain ⟨a, reply⟩ := l
  generalize hid : u'.id = userId at hstores
  cases hstores with
  | registered hlabel _ =>
    obtain rfl : a = _ := hlabel
    have hnew : ∀ v ∈ s.db.users, v.id ≠ u'.id := by
      intro v hv hsame
      exact id_ne_nextUserId hc hv (hsame.trans hid)
    cases step_row_origin hc hstep hu' with
    | kept hv => exact (hnew _ hv rfl).elim
    | deactivated hv => exact (hnew _ hv rfl).elim
    | registered _ _ hpassword _ =>
      obtain ⟨htext, _⟩ := validateNewPassword_ok hpassword
      exact ⟨_, _, rfl, by rw [htext]⟩
  | @changed credentials passwordData user hlabel huser =>
    obtain ⟨rfl, rfl⟩ := Prod.mk.inj hlabel
    have hhandle : changeCurrentUserPassword env credentials passwordData s =
        (.ok .noContent, s') := hstep
    rcases changeCurrentUserPassword_cases env s credentials passwordData with
      ⟨e, hrefused⟩ | ⟨found, hfound, _, hdb⟩
    · rw [hrefused] at hhandle
      cases hhandle
    · cases huser.symm.trans hfound
      rw [hhandle] at hdb
      rw [show s'.db = _ from hdb] at hu'
      exact ⟨_, _, rfl, rewritten_hash hid hu'⟩
  | @reset token text message claims _ hlabel hclaims hint =>
    obtain ⟨rfl, rfl⟩ := Prod.mk.inj hlabel
    have hhandle : handle env (.resetPassword token text) s =
        (.ok (.messageResponse message), s') := hstep
    rcases resetPassword_cases env s token text with
      ⟨e, hrefused⟩ | ⟨_, user, _, hclaims', hint', _, _, hdb⟩
    · rw [hrefused] at hhandle
      cases hhandle
    · cases hclaims.symm.trans hclaims'
      cases hint.symm.trans hint'
      rw [hhandle] at hdb
      rw [show s'.db = _ from hdb] at hu'
      exact ⟨_, _, rfl, rewritten_hash hid hu'⟩

/-- Any other row has its hash from before, or is a new one without a password. -/
theorem kept_hash (hc : s.db.Consistent) (hstep : Step env s l s') (hu' : u' ∈ s'.db.users)
    (hkeeps : ¬ StoresFor ⟨s, l, s'⟩ u'.id) :
    (∃ u ∈ s.db.users, u.id = u'.id ∧ u.hashedPassword = u'.hashedPassword) ∨
      (u'.id = s.db.nextUserId ∧ u'.hashedPassword = none) := by
  obtain ⟨_, _, heff⟩ := (step_effect hstep).effect
  have hc' := heff.consistent hc
  have horigin := step_row_origin hc hstep hu'
  obtain ⟨a, reply⟩ := l
  cases horigin with
  | kept hu => exact Or.inl ⟨_, hu, rfl, rfl⟩
  | registered _ _ _ _ => exact absurd (.registered rfl (hc'.userIds_lt _ hu')) hkeeps
  | signedUp _ _ _ => exact Or.inr ⟨rfl, rfl⟩
  | verified hv _ _ _ _ | emailChanged hv _ _ _ | deactivated hv | statusUpdated hv _ =>
    exact Or.inl ⟨_, hv, rfl, rfl⟩
  | @passwordReset token text _ _ _ _ hclaims hint _ =>
    have hhandle : handle env (.resetPassword token text) s = (reply, s') := hstep
    rcases resetPassword_cases env s token text with
      ⟨e, hrefused⟩ | ⟨_, user, _, _, _, _, hreply, _⟩
    · rw [hrefused] at hhandle
      cases hhandle
      exact Or.inl ⟨_, hu', rfl, rfl⟩
    · rw [hhandle] at hreply
      exact absurd (.reset (Prod.ext rfl hreply) hclaims hint) hkeeps
  | @passwordChanged credentials passwordData u _ _ _ huser _ _ _ =>
    have hhandle : changeCurrentUserPassword env credentials passwordData s = (reply, s') := hstep
    rcases changeCurrentUserPassword_cases env s credentials passwordData with
      ⟨e, hrefused⟩ | ⟨_, _, hreply, _⟩
    · rw [hrefused] at hhandle
      cases hhandle
      exact Or.inl ⟨_, hu', rfl, rfl⟩
    · rw [hhandle] at hreply
      have hfor : StoresFor ⟨s, (.request (.changeCurrentUserPassword credentials passwordData),
          reply), s'⟩ u.id := .changed (Prod.ext rfl hreply) huser
      exact absurd hfor hkeeps

end Steps

section OverRuns

variable {env : Env} {s₀ s : Server} {h : List ApiTransition}

theorem run_storesFor_lt (h₀ : Initial s₀) (r : ApiRun env s₀ h s) {t : ApiTransition}
    {userId : Nat} (ht : t ∈ h) (hstores : StoresFor t userId) : userId < s.db.nextUserId := by
  induction r with
  | start => cases ht
  | @snoc h s s' l r hstep ih =>
    rcases List.mem_append.mp ht with ht | ht
    · exact (ih ht).trans_le (step_nextUserId_le hstep)
    · rw [List.mem_singleton.mp ht] at hstores
      exact hstores.lt (ApiRun.consistent h₀.consistent r) hstep

theorem run_storesLast (h₀ : Initial s₀) (hempty : s₀.db.users = []) (r : ApiRun env s₀ h s) :
    ∀ user ∈ s.db.users, StoresLast env h user := by
  induction r with
  | start =>
    intro user huser
    rw [hempty] at huser
    cases huser
  | @snoc h s s' l r hstep ih =>
    intro user huser
    have hc := ApiRun.consistent h₀.consistent r
    by_cases hstores : StoresFor ⟨s, l, s'⟩ user.id
    · obtain ⟨salt, text, htext, hhash⟩ := stored_hash hc hstep huser hstores
      exact Or.inr ⟨salt, text, hhash, since_snoc_iff.mpr (Or.inl ⟨hstores, htext⟩)⟩
    · rcases kept_hash hc hstep huser hstores with ⟨u, hu, hid, hsame⟩ | ⟨hid, hnone⟩
      · rcases ih u hu with ⟨hnone, hnever⟩ | ⟨salt, text, hhash, hlast⟩
        · refine Or.inl ⟨hsame ▸ hnone, ?_⟩
          intro t ht hfor
          rcases List.mem_append.mp ht with ht | ht
          · exact hnever t ht (hid ▸ hfor)
          · rw [List.mem_singleton.mp ht] at hfor
            exact hstores hfor
        · refine Or.inr ⟨salt, text, hsame ▸ hhash, ?_⟩
          exact since_snoc_iff.mpr (Or.inr ⟨hid ▸ hlast, hstores⟩)
      · refine Or.inl ⟨hnone, ?_⟩
        intro t ht hfor
        rcases List.mem_append.mp ht with ht | ht
        · exact absurd (run_storesFor_lt h₀ r ht hfor) (by omega)
        · rw [List.mem_singleton.mp ht] at hfor
          exact hstores hfor

theorem lastPassword_unique {userId : Nat} {text text' : String}
    (hlast : LastPassword h userId text) (hlast' : LastPassword h userId text') :
    text = text' := by
  obtain ⟨t, _, ⟨_, htext⟩, ⟨_, htext'⟩⟩ := hlast.meet hlast' (fun _ => And.left) fun _ => And.left
  exact Option.some.inj (htext.symm.trans htext')

variable {user : User}

/-- The check of a password against the row is the question for the last one. -/
theorem matchesStored_iff (hverify : ∀ salt text password,
      env.verify password (env.hash salt text) = true ↔ password = text)
    (hstores : StoresLast env h user) (password : String) :
    matchesStored env user password = true ↔ LastPassword h user.id password := by
  unfold matchesStored
  rcases hstores with ⟨hnone, hnever⟩ | ⟨salt, text, hhash, hlast⟩
  · rw [hnone]
    constructor
    · intro hmatches
      cases hmatches
    · rintro ⟨before, t, after, rfl, ⟨hfor, _⟩, _⟩
      exact absurd hfor (hnever t (by simp))
  · rw [hhash]
    change env.verify password (env.hash salt text) = true ↔ _
    rw [hverify]
    constructor
    · rintro rfl
      exact hlast
    · intro hgiven
      exact lastPassword_unique hgiven hlast

end OverRuns

section Login

variable {env : Env} {s : Server}

/-- The answer is the pair of tokens. -/
def SignedIn (reply : Reply) : Prop :=
  ∃ accessToken refreshToken, reply = .ok (.tokenResponse accessToken refreshToken "bearer")

theorem not_signedIn_error {e : HttpException} : ¬ SignedIn (.error e) := by
  rintro ⟨_, _, hreply⟩
  cases hreply

theorem loginUser_signedIn_iff (email : String) (password : PyStr) :
    SignedIn (loginUser env email password s).1 ↔
      ∃ user text, s.db.userByEmail (env.lower email) = some user ∧ password.text? = some text ∧
        matchesStored env user text = true ∧ user.isVerified = true ∧ user.isActive = true := by
  constructor
  · apply loginUser_rule (P := fun o => SignedIn o.1 → ∃ user text,
      s.db.userByEmail (env.lower email) = some user ∧ password.text? = some text ∧
        matchesStored env user text = true ∧ user.isVerified = true ∧ user.isActive = true)
    · exact fun _ _ hsigned => absurd hsigned not_signedIn_error
    · exact fun _ _ _ _ _ hsigned => absurd hsigned not_signedIn_error
    · intro user hashedPassword huser hstored hverify hverified hactive _
      obtain ⟨text, htext, hmatches⟩ := Option.map_eq_some_iff.mp hverify
      refine ⟨user, text, huser, htext, ?_, hverified, hactive⟩
      unfold matchesStored
      rw [hstored]
      exact hmatches
  · rintro ⟨user, text, huser, htext, hmatches, hverified, hactive⟩
    unfold matchesStored at hmatches
    obtain ⟨hashedPassword, hstored, hpassword⟩ := Option.any_eq_true _ _ |>.mp hmatches
    have hverify : verifyPassword env password hashedPassword = some true := by
      unfold verifyPassword
      rw [htext]
      exact congrArg some hpassword
    unfold loginUser
    simp only [huser, hstored, hverify, hverified, hactive]
    exact ⟨_, _, rfl⟩

theorem login_signedIn_iff (clientHost : String) (body : LoginRequest) :
    SignedIn (handle env (.login clientHost body) s).1 ↔
      (loginLimiter.call clientHost s).1 = .ok () ∧
      ∃ email, env.emailStr body.email = some email ∧
        SignedIn (loginUser env email body.password s).1 := by
  apply guard_rule (P := fun o => SignedIn o.1 ↔ (loginLimiter.call clientHost s).1 = .ok () ∧
    ∃ email, env.emailStr body.email = some email ∧
      SignedIn (loginUser env email body.password s).1)
  · intro e redis hcall
    rw [hcall]
    exact iff_of_false not_signedIn_error (by simp)
  intro redis hcall
  rw [hcall]
  unfold withValid validateEmail
  cases hemail : env.emailStr body.email with
  | none => exact iff_of_false not_signedIn_error (by simp)
  | some email =>
    have hsame : SignedIn (loginUser env email body.password { s with redis }).1 ↔
        SignedIn (loginUser env email body.password s).1 := by
      rw [loginUser_signedIn_iff, loginUser_signedIn_iff]
    simpa using hsame

end Login

/-- In every run from empty tables, with a hash that verifies its own text only: the
password that a row matches is the one that was last stored for it, and login signs in
exactly the verified and active accounts on their last password. -/
theorem last_password_signs_in (env : Env) (hverify : ∀ salt text password,
      env.verify password (env.hash salt text) = true ↔ password = text)
    {s₀ s : Server} {h : List ApiTransition} (h₀ : Initial s₀) (hempty : s₀.db.users = [])
    (r : ApiRun env s₀ h s) :
    (∀ user ∈ s.db.users, ∀ password,
      matchesStored env user password = true ↔ LastPassword h user.id password) ∧
    ∀ clientHost body, SignedIn (handle env (.login clientHost body) s).1 ↔
      (loginLimiter.call clientHost s).1 = .ok () ∧
      ∃ email user text, env.emailStr body.email = some email ∧
        s.db.userByEmail (env.lower email) = some user ∧ body.password.text? = some text ∧
        LastPassword h user.id text ∧ user.isVerified = true ∧ user.isActive = true := by
  have hmatches : ∀ user ∈ s.db.users, ∀ password,
      matchesStored env user password = true ↔ LastPassword h user.id password := by
    intro user huser password
    exact matchesStored_iff hverify (run_storesLast h₀ hempty r user huser) password
  refine ⟨hmatches, ?_⟩
  intro clientHost body
  rw [login_signedIn_iff]
  constructor
  · rintro ⟨hpass, email, hemail, hsigned⟩
    obtain ⟨user, text, huser, htext, hmatch, hflags⟩ :=
      loginUser_signedIn_iff email body.password |>.mp hsigned
    have hlast := (hmatches user (userByEmail_some huser).1 _).mp hmatch
    exact ⟨hpass, email, user, text, hemail, huser, htext, hlast, hflags⟩
  · rintro ⟨hpass, email, user, text, hemail, huser, htext, hlast, hflags⟩
    have hmatch := (hmatches user (userByEmail_some huser).1 _).mpr hlast
    exact ⟨hpass, email, hemail,
      (loginUser_signedIn_iff email body.password).mpr ⟨user, text, huser, htext, hmatch, hflags⟩⟩

/-- An environment whose hash is the text behind as many marks as the salt says. -/
def saltedEnv : Env :=
  { asciiEnv with
    hash := fun salt text => String.ofList (List.replicate salt 'x' ++ '$' :: text.toList)
    verify := fun password hash => hash.toList.dropWhile (· == 'x') == '$' :: password.toList }

theorem saltedEnv_verify (salt : Nat) (text password : String) :
    saltedEnv.verify password (saltedEnv.hash salt text) = true ↔ password = text := by
  have hdrop : (List.replicate salt 'x' ++ '$' :: text.toList).dropWhile (· == 'x') =
      '$' :: text.toList := by
    induction salt with
    | zero => rfl
    | succ salt ih => simp [List.replicate_succ, ih]
  change ((String.ofList (List.replicate salt 'x' ++ '$' :: text.toList)).toList.dropWhile
    (· == 'x') == '$' :: password.toList) = true ↔ _
  rw [String.toList_ofList, hdrop, beq_iff_eq, List.cons.injEq]
  constructor
  · rintro ⟨_, hsame⟩
    exact (String.toList_inj.mp hsame).symm
  · rintro rfl
    exact ⟨rfl, rfl⟩

/-- A registration, its verification and a change of the password. -/
def oneChange : List Action :=
  [.request (.register "10.0.0.1" ⟨"a@b.c", "Secret123"⟩ true),
    .request (.verifyEmail ⟨"1", "email_verification", "uuid1", 0, 1800⟩),
    .request (.login "10.0.0.1" ⟨"a@b.c", "Secret123"⟩),
    .request (.changeCurrentUserPassword ⟨"a@b.c", "access", "uuid2", 0, 1800⟩
      ⟨"Secret123", "Secret456"⟩)]

theorem last_password_signs_in_sample :
    (∃ user ∈ (exec (step saltedEnv) (freshServer 0) oneChange).db.users,
      matchesStored saltedEnv user "Secret456" = true) ∧
    ∃ user ∈ (exec (step saltedEnv) (freshServer 0) oneChange).db.users,
      LastPassword (trace (step saltedEnv) (freshServer 0) oneChange) user.id "Secret456" := by
  have hmatches : ∃ user ∈ (exec (step saltedEnv) (freshServer 0) oneChange).db.users,
      matchesStored saltedEnv user "Secret456" = true := by
    decide +kernel
  refine ⟨hmatches, ?_⟩
  obtain ⟨user, huser, hmatch⟩ := hmatches
  exact ⟨user, huser, ((last_password_signs_in saltedEnv saltedEnv_verify (freshServer_initial 0)
    (freshServer_users 0) (run_trace _ _ oneChange)).1 user huser _).mp hmatch⟩

end FastApiAuth.Passwords
