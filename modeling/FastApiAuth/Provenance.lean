import FastApiAuth.Origins

/-!
# Where credential changes come from

Every change of an existing user's password is warranted by the old password or
by a reset token that forgot_password has signed for that id; every account is
marked verified by its own verification token or by a holder of users:write.
-/

namespace FastApiAuth.Provenance

set_option autoImplicit false

open Database

/-- One of the runs of forgot_password in `before`, for the user `userId` while active,
has signed `token`. -/
def SignedByForgotPassword (before : List ApiTransition) (userId : Nat) (token : Token) : Prop :=
  ∃ t ∈ before, Mints t ⟨token, userId⟩ ∧
    (∃ clientHost body broker, t.label.1 = .request (.forgotPassword clientHost body broker)) ∧
    ∃ user ∈ t.source.db.users, user.id = userId ∧ user.isActive = true

def SignedByRegister (before : List ApiTransition) (userId : Nat) (token : Token) : Prop :=
  ∃ t ∈ before, Mints t ⟨token, userId⟩ ∧
    ∃ clientHost body broker, t.label.1 = .request (.register clientHost body broker)

/-- What justifies that the action `a`, taken in `s` after `before`, stores the hash
of `text` for the user `u`. -/
inductive PasswordWarrant (env : Env) (before : List ApiTransition) (s : Server) (u : User)
    (text : String) : Action → Prop where
  | changed {credentials : Token} {currentPassword : PyStr} {hashedPassword : String} :
      getCurrentUser s credentials = .ok u → u.hashedPassword = some hashedPassword →
      verifyPassword env currentPassword hashedPassword = some true →
      PasswordWarrant env before s u text
        (.request (.changeCurrentUserPassword credentials ⟨currentPassword, text⟩))
  | reset {token : Token} :
      token.type = "password_reset" → Unexpired s.now token →
      SignedByForgotPassword before u.id token →
      PasswordWarrant env before s u text (.request (.resetPassword token text))

/-- What justifies that the action `a` marks the user `u` as verified. -/
inductive VerificationWarrant (before : List ApiTransition) (s : Server) (u : User) :
    Action → Prop where
  | verifyEmail {token : Token} :
      token.type = "email_verification" → Unexpired s.now token →
      SignedByRegister before u.id token →
      VerificationWarrant before s u (.request (.verifyEmail token))
  | decreed {credentials : Token} {payload : AdminUserUpdate} {admin : User} :
      getCurrentUser s credentials = .ok admin →
      "users:write" ∈ s.db.permissionNames admin.id →
      VerificationWarrant before s u (.request (.updateUserStatus credentials u.id payload))

section Tokens

variable {env : Env} {s₀ s : Server} {h : List ApiTransition} {token : Token} {userId : Nat}
variable {claims : TokenClaims Instant}

theorem exists_issued_of_signed (ht : token ∈ s.signed) : ∃ owner, ⟨token, owner⟩ ∈ s.issued := by
  obtain ⟨i, hi, rfl⟩ := List.mem_map.mp ht
  exact ⟨i.owner, hi⟩

/-- An accepted token of a type that carries ids was signed for the id it names. -/
theorem id_token_signed {type : String} (hempty : s₀.issued = []) (r : ApiRun env s₀ h s)
    (hclaims : decodeToken s.signed s.now token type = some claims)
    (hint : PyInt.int claims.subject = some (userId : Int))
    (hsession : ¬ (type = "access" ∨ type = "refresh")) :
    token.type = type ∧ Unexpired s.now token ∧
      ∃ t ∈ h, Mints t ⟨token, userId⟩ ∧
        TokenOrigin t.source t.target.db t.label.1 ⟨token, userId⟩ := by
  obtain ⟨hsigned, hexp, htype, rfl⟩ := decodeToken_eq_some_iff.mp hclaims
  obtain ⟨owner, hi⟩ := exists_issued_of_signed hsigned
  obtain ⟨⟨source, ⟨a, reply⟩, target⟩, ht, hmint, horigin⟩ := r.token_origin hempty hi
  have howner : token.sub = PyInt.str owner → owner = userId := by
    intro hsub
    rw [hsub, PyInt.int_str] at hint
    simpa using hint
  have hid : owner = userId := by
    cases horigin with
    | session _ _ _ hsession' => exact absurd (htype ▸ hsession') hsession
    | verification _ hsub _ => exact howner hsub
    | reset _ hsub _ => exact howner hsub
  subst hid
  exact ⟨htype, hexp, _, ht, hmint, horigin⟩

theorem reset_token_signed (hempty : s₀.issued = []) (r : ApiRun env s₀ h s)
    (hclaims : s.decodePasswordResetToken token = some claims)
    (hint : PyInt.int claims.subject = some (userId : Int)) :
    token.type = "password_reset" ∧ Unexpired s.now token ∧
      SignedByForgotPassword h userId token := by
  obtain ⟨htype, hexp, ⟨source, ⟨a, reply⟩, target⟩, ht, hmint, horigin⟩ :=
    id_token_signed hempty r hclaims hint (by decide)
  refine ⟨htype, hexp, _, ht, hmint, ?_⟩
  cases horigin with
  | session _ _ _ hsession =>
    rw [htype] at hsession
    exact absurd hsession (by decide)
  | verification hverification _ _ => exact absurd (htype.symm.trans hverification) (by decide)
  | reset _ _ huser => exact ⟨⟨_, _, _, rfl⟩, huser⟩

theorem verification_token_signed (hempty : s₀.issued = []) (r : ApiRun env s₀ h s)
    (hclaims : s.decodeEmailVerificationToken token = some claims)
    (hint : PyInt.int claims.subject = some (userId : Int)) :
    token.type = "email_verification" ∧ Unexpired s.now token ∧
      SignedByRegister h userId token := by
  obtain ⟨htype, hexp, ⟨source, ⟨a, reply⟩, target⟩, ht, hmint, horigin⟩ :=
    id_token_signed hempty r hclaims hint (by decide)
  refine ⟨htype, hexp, _, ht, hmint, ?_⟩
  cases horigin with
  | session _ _ _ hsession =>
    rw [htype] at hsession
    exact absurd hsession (by decide)
  | reset hreset _ _ => exact absurd (htype.symm.trans hreset) (by decide)
  | verification _ _ _ => exact ⟨_, _, _, rfl⟩

end Tokens

section Steps

variable {env : Env} {s₀ s s' : Server} {before : List ApiTransition} {l : Action × Reply}
variable {u u' : User}

theorem password_change_warranted (hc : s.db.Consistent) (hempty : s₀.issued = [])
    (r : ApiRun env s₀ before s) (hstep : Step env s l s') (hu : u ∈ s.db.users)
    (hu' : u' ∈ s'.db.users) (hid : u'.id = u.id) (hne : u'.hashedPassword ≠ u.hashedPassword) :
    ∃ text, StrongPassword env text ∧ u'.hashedPassword = some (env.hash s.draws text) ∧
      PasswordWarrant env before s u text l.1 := by
  obtain ⟨a, reply⟩ := l
  have same : ∀ v ∈ s.db.users, v.id = u.id → v = u := fun v hv h => hc.eq_of_id hv hu h
  cases step_row_origin hc hstep hu' with
  | kept hkept => exact absurd (congrArg User.hashedPassword (same _ hkept hid)) hne
  | registered _ _ _ _ => exact absurd hid.symm (id_ne_nextUserId hc hu)
  | signedUp _ _ _ => exact absurd hid.symm (id_ne_nextUserId hc hu)
  | verified hv _ _ _ _ | emailChanged hv _ _ _ | deactivated hv | statusUpdated hv _ =>
    exact absurd (congrArg User.hashedPassword (same _ hv hid)) hne
  | passwordReset hv hclaims hint hpassword =>
    obtain rfl := same _ hv hid
    obtain ⟨htype, hexp, hsigned⟩ := reset_token_signed hempty r hclaims hint
    obtain ⟨rfl, hstrong⟩ := validateNewPassword_ok hpassword
    exact ⟨_, hstrong, rfl, .reset htype hexp hsigned⟩
  | passwordChanged hv huser hstored hcurrent hpassword =>
    obtain rfl := same _ hv hid
    obtain ⟨htext, hstrong⟩ := validateNewPassword_ok hpassword
    exact ⟨_, hstrong, htext ▸ rfl, .changed huser hstored hcurrent⟩

theorem verification_warranted (hc : s.db.Consistent) (hempty : s₀.issued = [])
    (r : ApiRun env s₀ before s) (hstep : Step env s l s') (hu : u ∈ s.db.users)
    (hu' : u' ∈ s'.db.users) (hid : u'.id = u.id) (hunverified : u.isVerified = false)
    (hverified : u'.isVerified = true) : VerificationWarrant before s u l.1 := by
  obtain ⟨a, reply⟩ := l
  have same : ∀ v ∈ s.db.users, v.id = u.id → v = u := fun v hv h => hc.eq_of_id hv hu h
  have unchanged : ∀ v ∈ s.db.users, v.id = u.id → v.isVerified ≠ true := by
    intro v hv h
    rw [same v hv h, hunverified]
    decide
  cases step_row_origin hc hstep hu' with
  | kept hkept => exact absurd hverified (unchanged _ hkept hid)
  | registered _ _ _ _ => exact absurd hid.symm (id_ne_nextUserId hc hu)
  | signedUp _ _ _ => exact absurd hid.symm (id_ne_nextUserId hc hu)
  | passwordReset hv _ _ _ | emailChanged hv _ _ _ | passwordChanged hv _ _ _ _ | deactivated hv =>
    exact (unchanged _ hv hid hverified).elim
  | verified hv hclaims hint _ _ =>
    obtain rfl := same _ hv hid
    obtain ⟨htype, hexp, hsigned⟩ := verification_token_signed hempty r hclaims hint
    exact .verifyEmail htype hexp hsigned
  | statusUpdated hv hadmin =>
    obtain rfl := same _ hv hid
    obtain ⟨huser, hperms⟩ := requirePermissions_ok hadmin
    exact .decreed huser (hperms _ (by simp))

end Steps

/-- Each transition of a run changes passwords and verified flags of existing users
only with a warrant, and stores only passwords that the policy accepts. -/
theorem credential_changes_warranted {env : Env} {s₀ s : Server} {h : List ApiTransition}
    (h₀ : Initial s₀) (r : ApiRun env s₀ h s) :
    ∀ before t, before ++ [t] <+: h → ∀ u ∈ t.source.db.users, ∀ u' ∈ t.target.db.users,
      u'.id = u.id →
      (u'.hashedPassword ≠ u.hashedPassword →
        ∃ text, StrongPassword env text ∧
          u'.hashedPassword = some (env.hash t.source.draws text) ∧
          PasswordWarrant env before t.source u text t.label.1) ∧
      (u.isVerified = false → u'.isVerified = true →
        VerificationWarrant before t.source u t.label.1) := by
  intro before t hp u hu u' hu' hid
  obtain ⟨rb, hstep⟩ := r.of_prefix_snoc hp
  have hc := ApiRun.consistent h₀.consistent rb
  exact ⟨password_change_warranted hc h₀.issued rb hstep hu hu' hid,
    verification_warranted hc h₀.issued rb hstep hu hu' hid⟩

def sampleToken : Token :=
  { sub := "1", type := "password_reset", jti := "uuid2", iat := 0, exp := 900 }

/-- A registration and a request for a reset mail. -/
def sampleHistory : List ApiTransition :=
  Runs.trace (step asciiEnv) (freshServer 0)
    [.request (.register "localhost" ⟨"A@example.com", "Passw0rd"⟩ true),
      .request (.forgotPassword "localhost" ⟨"a@example.com"⟩ true)]

def sampleServer : Server :=
  Runs.exec (step asciiEnv) (freshServer 0)
    [.request (.register "localhost" ⟨"A@example.com", "Passw0rd"⟩ true),
      .request (.forgotPassword "localhost" ⟨"a@example.com"⟩ true)]

def sampleReset : Action := .request (.resetPassword sampleToken "NewPassw0rd")

theorem credential_changes_warranted_sample :
    ∃ text, StrongPassword asciiEnv text ∧
      some "NewPassw0rd$3" = some (asciiEnv.hash sampleServer.draws text) ∧
      PasswordWarrant asciiEnv sampleHistory sampleServer
        ⟨1, "a@example.com", some "Passw0rd$0", true, false, 0⟩ text sampleReset :=
  (credential_changes_warranted (freshServer_initial 0)
    ((Runs.run_trace (step asciiEnv) (freshServer 0) _).append
      (Runs.run_trace (step asciiEnv) sampleServer [sampleReset]))
    sampleHistory ⟨sampleServer, (sampleReset, _), _⟩ (List.prefix_refl _)
    ⟨1, "a@example.com", some "Passw0rd$0", true, false, 0⟩ (by decide +kernel)
    ⟨1, "a@example.com", some "NewPassw0rd$3", true, false, 0⟩ (by decide +kernel) rfl).1
    (by decide)

end FastApiAuth.Provenance
