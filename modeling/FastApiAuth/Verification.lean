import FastApiAuth.Origins

/-!
# What a verified flag vouches for

A verified row should hold an address that was proved or decreed for it. Only two
requests can break this: an e-mail change, which keeps the flag, and a verification
token presented after the address it was mailed to has been replaced.
-/

namespace FastApiAuth.Verification

set_option autoImplicit false

open Database

/-- The transition proved or decreed the address `e` for the user `userId`. A provider vouches
for the address of the row that its callback creates. -/
inductive Vouches (env : Env) (t : ApiTransition) (userId : Nat) (e : String) : Prop where
  | presented {token : Token} {claims : TokenClaims Instant} :
      t.label.1 = .request (.verifyEmail token) →
      t.source.decodeEmailVerificationToken token = some claims →
      PyInt.int claims.subject = some (userId : Int) →
      ⟨.verification, e, token⟩ ∈ t.source.mails → Vouches env t userId e
  | asserted {provider state : String} {identity : Identity} :
      t.label.1 = .request (.oauthCallback provider state (some identity)) →
      UnlinkedCallback env t.source provider state identity .login →
      identity.email = some e → (∀ v ∈ t.source.db.users, v.email ≠ e) →
      userId = t.source.db.nextUserId → Vouches env t userId e
  | decreed {credentials : Token} {payload : AdminUserUpdate} {admin u : User} :
      t.label.1 = .request (.updateUserStatus credentials userId payload) →
      requirePermissions t.source credentials ["users:write"] = .ok admin →
      payload.isVerified = some true → u ∈ t.source.db.users → u.id = userId → u.email = e →
      Vouches env t userId e

def Vouched (env : Env) (before : List ApiTransition) (userId : Nat) (e : String) : Prop :=
  ∃ t ∈ before, Vouches env t userId e

/-- Every verified row holds an address vouched for in the history. -/
def VerifiedVouched (env : Env) (before : List ApiTransition) (s : Server) : Prop :=
  ∀ u ∈ s.db.users, u.isVerified = true → Vouched env before u.id u.email

/-- A verified user changes its address only to one already vouched for, and a token
verifies a user only if it was mailed to the present address or that one is vouched
for already. -/
structure KeepsVouched (env : Env) (before : List ApiTransition) (t : ApiTransition) : Prop where
  emailChange : ∀ credentials text email u,
    t.label.1 = .request (.updateCurrentUser credentials (some text)) →
    getCurrentUser t.source credentials = .ok u → env.emailStr text = some email →
    (∀ v ∈ t.source.db.users, v.id ≠ u.id → v.email ≠ env.lower email) →
    u.isVerified = true → Vouched env before u.id (env.lower email)
  verifyEmail : ∀ token claims u,
    t.label.1 = .request (.verifyEmail token) →
    t.source.decodeEmailVerificationToken token = some claims →
    PyInt.int claims.subject = some (u.id : Int) → u ∈ t.source.db.users →
    u.isVerified = false → isTokenUsed t.source.redis t.source.now claims.jti = false →
    ⟨.verification, u.email, token⟩ ∈ t.source.mails ∨ Vouched env before u.id u.email

section Steps

variable {env : Env} {s s' : Server} {l : Action × Reply} {before : List ApiTransition}
variable {userId : Nat} {e : String}

theorem Vouched.snoc {t : ApiTransition} (h : Vouched env before userId e) :
    Vouched env (before ++ [t]) userId e := by
  obtain ⟨t', ht', hv⟩ := h
  exact ⟨t', List.mem_append_left _ ht', hv⟩

theorem vouched_snoc {t : ApiTransition} (h : Vouched env (before ++ [t]) userId e) :
    Vouched env before userId e ∨ Vouches env t userId e := by
  obtain ⟨t', ht', hv⟩ := h
  rcases List.mem_append.mp ht' with ht' | ht'
  · exact .inl ⟨t', ht', hv⟩
  · rw [List.mem_singleton.mp ht'] at hv
    exact .inr hv

/-- What the two checked requests do when nothing refuses them. -/
theorem updateCurrentUser_row {credentials : Token} {text email : String} {u : User}
    (huser : getCurrentUser s credentials = .ok u) (hemail : env.emailStr text = some email)
    (hfree : ∀ v ∈ s.db.users, v.id ≠ u.id → v.email ≠ env.lower email) :
    setEmail (env.lower email) u ∈
      (updateCurrentUser env credentials (some text) s).2.db.users := by
  have hnot : (s.db.users.any fun v => v.email = env.lower email ∧ v.id ≠ u.id) = false := by
    simp only [List.any_eq_false, decide_eq_true_eq, not_and, not_not]
    intro v hv he
    by_contra hid
    exact hfree v hv hid he
  have hvalid : validateEmail env text = .ok email := by
    unfold validateEmail
    rw [hemail]
  unfold updateCurrentUser withCurrentUser updateUserEmail
  simp only [huser, hvalid, hnot, changeEmail_of_free hfree]
  exact mem_amendUser.mpr ⟨u, getCurrentUser_mem huser, by simp⟩

theorem verifyEmail_row {token : Token} {claims : TokenClaims Instant} {u : User}
    (hc : s.db.Consistent) (hclaims : s.decodeEmailVerificationToken token = some claims)
    (hint : PyInt.int claims.subject = some (u.id : Int)) (hu : u ∈ s.db.users)
    (hunverified : u.isVerified = false)
    (hunused : isTokenUsed s.redis s.now claims.jti = false) :
    setVerified true u ∈ (verifyEmail token s).2.db.users := by
  unfold verifyEmail
  simp only [hclaims, hint, hc.userById_of_mem hu, hunverified, hunused]
  exact mem_amendUser.mpr ⟨u, hu, by simp⟩

theorem step_vouched (hc : s.db.Consistent) (hv : VerifiedVouched env before s)
    (hstep : Step env s l s') (hk : KeepsVouched env before ⟨s, l, s'⟩) :
    VerifiedVouched env (before ++ [⟨s, l, s'⟩]) s' := by
  obtain ⟨a, reply⟩ := l
  intro u hu hverified
  have new : Vouches env ⟨s, (a, reply), s'⟩ u.id u.email →
      Vouched env (before ++ [⟨s, (a, reply), s'⟩]) u.id u.email := fun h => ⟨_, by simp, h⟩
  cases step_row_origin hc hstep hu with
  | kept hmem | passwordReset hmem _ _ _ | passwordChanged hmem _ _ _ _ | deactivated hmem =>
    exact (hv _ hmem hverified).snoc
  | registered _ _ _ _ => cases hverified
  | signedUp hcall hemail hfree => exact new (.asserted rfl hcall hemail hfree rfl)
  | verified hmem hclaims hint hunverified hunused =>
    rcases hk.verifyEmail _ _ _ rfl hclaims hint hmem hunverified hunused with hmail | hbefore
    · exact new (.presented rfl hclaims hint hmail)
    · exact hbefore.snoc
  | emailChanged _ huser hemail hfree =>
    exact (hk.emailChange _ _ _ _ rfl huser hemail hfree hverified).snoc
  | @statusUpdated _ payload _ u hmem hadmin =>
    cases hp : payload.isVerified with
    | none =>
      have hverified : u.isVerified = true := by
        simpa [AdminUserUpdate.apply, hp] using hverified
      exact (hv u hmem hverified).snoc
    | some isVerified =>
      have htrue : isVerified = true := by
        simpa [AdminUserUpdate.apply, hp] using hverified
      exact new (.decreed rfl hadmin (htrue ▸ hp) hmem rfl rfl)

/-- The two conditions are needed: where one fails, the row it is about is left
verified with an address nobody has vouched for. -/
theorem keepsVouched_of_vouched (hc : s.db.Consistent) (hstep : Step env s l s')
    (hv : VerifiedVouched env (before ++ [⟨s, l, s'⟩]) s') :
    KeepsVouched env before ⟨s, l, s'⟩ := by
  obtain ⟨a, reply⟩ := l
  have hs : s' = (step env s a).2 := (congrArg Prod.snd hstep).symm
  constructor
  · intro credentials text email u hl huser hemail hfree hverified
    dsimp only at hl huser hfree
    have hrow : setEmail (env.lower email) u ∈ s'.db.users := by
      rw [hs, hl]
      exact updateCurrentUser_row huser hemail hfree
    rcases vouched_snoc (hv _ hrow hverified) with hbefore | hnow
    · exact hbefore
    · cases hnow with
      | presented h _ _ _ | asserted h _ _ _ _ | decreed h _ _ _ _ _ => cases hl.symm.trans h
  · intro token claims u hl hclaims hint hu hunverified hunused
    dsimp only at hl hclaims hu hunused
    have hrow : setVerified true u ∈ s'.db.users := by
      rw [hs, hl]
      exact verifyEmail_row hc hclaims hint hu hunverified hunused
    rcases vouched_snoc (hv _ hrow rfl) with hbefore | hnow
    · exact .inr hbefore
    · cases hnow with
      | presented h _ _ hmail =>
        cases hl.symm.trans h
        exact .inl hmail
      | asserted h _ _ _ _ | decreed h _ _ _ _ _ => cases hl.symm.trans h

end Steps

/-- Along a run that starts without verified users, every verified address is vouched
for in every state, if and only if every transition keeps it so. -/
theorem verified_vouched_iff {env : Env} {s₀ s : Server} {h : List ApiTransition}
    (h₀ : Initial s₀) (hstart : ∀ u ∈ s₀.db.users, u.isVerified = false)
    (r : ApiRun env s₀ h s) :
    (∀ h₁ s₁, h₁ <+: h → ApiRun env s₀ h₁ s₁ →
      ∀ u ∈ s₁.db.users, u.isVerified = true → ∃ t ∈ h₁, Vouches env t u.id u.email) ↔
    Runs.Guarded (KeepsVouched env) h := by
  have hnone : VerifiedVouched env [] s₀ := by
    intro u hu hverified
    rw [hstart u hu] at hverified
    cases hverified
  refine r.invariant_iff_guarded (I := VerifiedVouched env) hnone ?_
  intro h s l s' r hv hstep
  have hc := ApiRun.consistent h₀.consistent r
  exact ⟨keepsVouched_of_vouched hc hstep, step_vouched hc hv hstep⟩

/-- A user verifies one address and then changes it to another. -/
def unprovenActions : List Action :=
  [.request (.register "localhost" ⟨"a@example.com", "Passw0rd"⟩ true),
    .request (.verifyEmail ⟨"1", "email_verification", "uuid1", 0, 1800⟩),
    .request (.login "localhost" ⟨"a@example.com", "Passw0rd"⟩),
    .request (.updateCurrentUser ⟨"a@example.com", "access", "uuid2", 0, 1800⟩
      (some "victim@example.com"))]

theorem verified_vouched_iff_sample :
    (∀ h₁ s₁, h₁ <+: Runs.trace (step asciiEnv) (freshServer 0) unprovenActions →
      ApiRun asciiEnv (freshServer 0) h₁ s₁ →
      ∀ u ∈ s₁.db.users, u.isVerified = true → ∃ t ∈ h₁, Vouches asciiEnv t u.id u.email) ↔
    Runs.Guarded (KeepsVouched asciiEnv)
      (Runs.trace (step asciiEnv) (freshServer 0) unprovenActions) :=
  verified_vouched_iff (freshServer_initial 0) (by simp [freshServer_users])
    (Runs.run_trace _ _ _)

theorem unproven_address_verified :
    ∃ h s, ApiRun asciiEnv (freshServer 0) h s ∧
      ∃ u ∈ s.db.users, u.isVerified = true ∧ ¬ ∃ t ∈ h, Vouches asciiEnv t u.id u.email := by
  refine ⟨_, _, Runs.run_trace (step asciiEnv) (freshServer 0) unprovenActions,
    ⟨1, "victim@example.com", some "Passw0rd$0", true, true, 0⟩, by decide +kernel, rfl, ?_⟩
  rintro ⟨t, ht, hv⟩
  simp only [Runs.trace, unprovenActions, List.mem_cons, List.not_mem_nil, or_false] at ht
  rcases ht with rfl | rfl | rfl | rfl
  · cases hv with
    | presented h _ _ _ | asserted h _ _ _ _ | decreed h _ _ _ _ _ => cases h
  · cases hv with
    | presented h _ _ hmail =>
      cases h
      exact absurd hmail (by decide +kernel)
    | asserted h _ _ _ _ | decreed h _ _ _ _ _ => cases h
  · cases hv with
    | presented h _ _ _ | asserted h _ _ _ _ | decreed h _ _ _ _ _ => cases h
  · cases hv with
    | presented h _ _ _ | asserted h _ _ _ _ | decreed h _ _ _ _ _ => cases h

end FastApiAuth.Verification
