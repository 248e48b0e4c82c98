import FastApiAuth.Origins

/-!
# Which account a session token means

Access and refresh tokens name their account by its e-mail address. A token keeps
meaning the row it was signed for as long as nobody takes over the address while
the token is unexpired; `KeepsAddresses` is that condition on a single action.
-/

namespace FastApiAuth.TokenBinding

set_option autoImplicit false

open Database

/-- An access or a refresh token. -/
def IsSession (i : Issued) : Prop := i.token.type = "access" ∨ i.token.type = "refresh"

/-- Rows holding the address that an unexpired session token names are its owner's. -/
def TokensBound (s : Server) : Prop :=
  ∀ i ∈ s.issued, IsSession i → Unexpired s.now i.token →
    ∀ u ∈ s.db.users, u.email = i.token.sub → u.id = i.owner

/-- The action asks for the address `e` on behalf of the row `userId` (the next id,
for the two ways to sign up) and the checks before the address itself let it pass. -/
inductive AsksForAddress (env : Env) (s : Server) : Action → Nat → String → Prop where
  | register {clientHost : String} {body : UserCreate} {broker : Bool} {email : String}
      {password : NewPassword env} :
      (registerLimiter.call clientHost s).1 = .ok () → env.emailStr body.email = some email →
      validateNewPassword env body.password = .ok password →
      AsksForAddress env s (.request (.register clientHost body broker)) s.db.nextUserId
        (env.lower email)
  | signUp {provider state email : String} {identity : Identity} :
      UnlinkedCallback env s provider state identity .login → identity.email = some email →
      AsksForAddress env s (.request (.oauthCallback provider state (some identity)))
        s.db.nextUserId email
  | emailChange {credentials : Token} {text email : String} {u : User} :
      getCurrentUser s credentials = .ok u → env.emailStr text = some email →
      AsksForAddress env s (.request (.updateCurrentUser credentials (some text))) u.id
        (env.lower email)

/-- An address that no row holds is not given to a row while a session token of
another row still names it. -/
def KeepsAddresses (env : Env) (s : Server) (a : Action) : Prop :=
  ∀ userId e, AsksForAddress env s a userId e → (∀ v ∈ s.db.users, v.email ≠ e) →
    ∀ i ∈ s.issued, IsSession i → Unexpired s.now i.token → i.token.sub = e → i.owner = userId

section Steps

variable {env : Env} {s s' : Server} {l : Action × Reply}

/-- A row after the action holds an address that a row of its id held before, or one
that it has just been given. -/
theorem address_origin {a : Action} {u' : User} (hc : s.db.Consistent)
    (h : RowOrigin env s a u') :
    (∃ u ∈ s.db.users, u.id = u'.id ∧ u.email = u'.email) ∨
      AsksForAddress env s a u'.id u'.email ∧ ∀ v ∈ s.db.users, v.email ≠ u'.email := by
  cases h with
  | kept hu => exact .inl ⟨_, hu, rfl, rfl⟩
  | verified hu _ _ _ _ | passwordReset hu _ _ _ | passwordChanged hu _ _ _ _ | deactivated hu
  | statusUpdated hu _ => exact .inl ⟨_, hu, rfl, rfl⟩
  | registered hpass hemail hpassword hfree => exact .inr ⟨.register hpass hemail hpassword, hfree⟩
  | signedUp hcall hemail hfree => exact .inr ⟨.signUp hcall hemail, hfree⟩
  | @emailChanged _ _ email u hu huser hemail hfree =>
    by_cases hsame : u.email = env.lower email
    · exact .inl ⟨u, hu, rfl, hsame⟩
    · refine .inr ⟨AsksForAddress.emailChange (u := u) huser hemail, fun v hv he => ?_⟩
      by_cases hid : v.id = u.id
      · exact hsame (hc.eq_of_id hv hu hid ▸ he)
      · exact hfree v hv hid he

theorem minted_session_bound {a : Action} {db : Database} {i : Issued} {u : User}
    (hc : db.Consistent) (h : TokenOrigin s db a i) (hi : IsSession i) (hu : u ∈ db.users)
    (he : u.email = i.token.sub) : u.id = i.owner := by
  cases h with
  | session huser howner hsub _ =>
    rw [howner, hc.eq_of_email hu huser (he.trans hsub)]
  | verification htype _ _ => simp [IsSession, htype] at hi
  | reset htype _ _ => simp [IsSession, htype] at hi

theorem step_bound (hc : s.db.Consistent) (hb : TokensBound s) (hstep : Step env s l s')
    (hkeeps : KeepsAddresses env s l.1) : TokensBound s' := by
  intro i hi hsession hexp u hu he
  rcases step_mints hstep hi with hi | ⟨_, horigin⟩
  · have hexp' : Unexpired s.now i.token := hexp.of_le (step_effect hstep).now
    rcases address_origin hc (step_row_origin hc hstep hu) with ⟨v, hv, hid, hemail⟩ | ⟨hask, hfree⟩
    · rw [← hid]
      exact hb i hi hsession hexp' v hv (hemail.trans he)
    · exact (hkeeps u.id u.email hask hfree i hi hsession hexp' he.symm).symm
  · exact minted_session_bound (step_consistent hc hstep) horigin hsession hu he

/-- In every run whose actions keep the addresses of session tokens, so does every state. -/
theorem run_bound {s₀ : Server} {h : List ApiTransition} (h₀ : Initial s₀)
    (r : ApiRun env s₀ h s) (hkeeps : ∀ t ∈ h, KeepsAddresses env t.source t.label.1) :
    TokensBound s := by
  have hstart : TokensBound s₀ := by
    intro i hi
    simp [h₀.issued] at hi
  refine r.guarded_invariant (I := fun _ s => TokensBound s) hstart ?_
    (Runs.guarded_of_forall_mem hkeeps)
  intro h s l s' r hb hstep hkeeps
  exact step_bound (ApiRun.consistent h₀.consistent r) hb hstep hkeeps

end Steps

section Acceptance

variable {env : Env} {s : Server} {i : Issued} {u : User}

theorem getCurrentUser_owner (hb : TokensBound s) (hi : i ∈ s.issued)
    (h : getCurrentUser s i.token = .ok u) : u.id = i.owner := by
  obtain ⟨claims, hclaims, _, huser, _⟩ := getCurrentUser_ok h
  obtain ⟨_, hexp, htype, rfl⟩ := decodeToken_eq_some_iff.mp hclaims
  obtain ⟨hmem, he⟩ := userByEmail_some huser
  exact hb i hi (.inl htype) hexp u hmem he

theorem refreshingUser_owner (hb : TokensBound s) (hi : i ∈ s.issued)
    (h : refreshingUser s i.token = .ok u) : u.id = i.owner := by
  obtain ⟨claims, hclaims, _, huser, _⟩ := refreshingUser_ok h
  obtain ⟨_, hexp, htype, rfl⟩ := decodeToken_eq_some_iff.mp hclaims
  obtain ⟨hmem, he⟩ := userByEmail_some huser
  exact hb i hi (.inr htype) hexp u hmem he

end Acceptance

theorem session_tokens_mean_owner {env : Env} {s₀ s : Server} {h : List ApiTransition}
    (h₀ : Initial s₀) (r : ApiRun env s₀ h s)
    (hkeeps : ∀ t ∈ h, KeepsAddresses env t.source t.label.1) :
    ∀ i ∈ s.issued, ∀ u,
      (getCurrentUser s i.token = .ok u → u.id = i.owner) ∧
      (getCurrentUserWs s i.token = some u → u.id = i.owner) ∧
      (refreshingUser s i.token = .ok u → u.id = i.owner) := by
  intro i hi u
  have hb := run_bound h₀ r hkeeps
  refine ⟨getCurrentUser_owner hb hi, ?_, refreshingUser_owner hb hi⟩
  exact fun h => getCurrentUser_owner hb hi (getCurrentUserWs_some h)

/-- A user registers, verifies the address and logs in. -/
def sampleActions : List Action :=
  [.request (.register "localhost" ⟨"a@example.com", "Passw0rd"⟩ true),
    .request (.verifyEmail ⟨"1", "email_verification", "uuid1", 0, 1800⟩),
    .request (.login "localhost" ⟨"a@example.com", "Passw0rd"⟩)]

def accessToken : Token := ⟨"a@example.com", "access", "uuid2", 0, 1800⟩

def refreshToken : Token := ⟨"a@example.com", "refresh", "uuid3", 0, 604800⟩

def sampleUser : User := ⟨1, "a@example.com", some "Passw0rd$0", true, true, 0⟩

theorem session_tokens_mean_owner_sample :
    getCurrentUser (Runs.exec (step asciiEnv) (freshServer 0) sampleActions) accessToken =
      .ok sampleUser ∧ sampleUser.id = 1 := by
  have hkeeps : ∀ t ∈ Runs.trace (step asciiEnv) (freshServer 0) sampleActions,
      KeepsAddresses asciiEnv t.source t.label.1 := by
    intro t ht
    simp only [Runs.trace, sampleActions, List.mem_cons, List.not_mem_nil, or_false] at ht
    rcases ht with rfl | rfl | rfl
    · intro _ _ _ _ i hi
      simp [freshServer] at hi
    · intro _ _ hask
      cases hask
    · intro _ _ hask
      cases hask
  have haccepted : getCurrentUser (Runs.exec (step asciiEnv) (freshServer 0) sampleActions)
      accessToken = .ok sampleUser := by decide +kernel
  exact ⟨haccepted, (session_tokens_mean_owner (freshServer_initial 0)
    (Runs.run_trace (step asciiEnv) (freshServer 0) sampleActions) hkeeps
    ⟨accessToken, 1⟩ (by decide +kernel) sampleUser).1 haccepted⟩

/-- The user moves to another address and somebody else registers the old one: both
of the first user's tokens now authenticate as the second. -/
theorem session_tokens_mean_newcomer :
    ∃ h s, ApiRun asciiEnv (freshServer 0) h s ∧
      ⟨accessToken, 1⟩ ∈ s.issued ∧ ⟨refreshToken, 1⟩ ∈ s.issued ∧
      ∃ u, u.id = 2 ∧ getCurrentUser s accessToken = .ok u ∧
        getCurrentUserWs s accessToken = some u ∧ refreshingUser s refreshToken = .ok u := by
  refine ⟨_, _, Runs.run_trace (step asciiEnv) (freshServer 0) (sampleActions ++
    [.request (.updateCurrentUser accessToken (some "c@example.com")),
      .request (.register "localhost" ⟨"a@example.com", "Passw0rd"⟩ true)]), ?_, ?_,
    ⟨2, "a@example.com", some "Passw0rd$4", true, false, 0⟩, rfl, ?_, ?_, ?_⟩
  · decide +kernel
  · decide +kernel
  · decide +kernel
  · decide +kernel
  · decide +kernel

end FastApiAuth.TokenBinding
