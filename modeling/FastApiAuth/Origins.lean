import FastApiAuth.Effects

/-!
# Where rows and tokens come from

One action leaves a user row as it was, inserts it, or rewrites one column of it.
`RowOrigin env s a u'` lists the ways a row `u'` can stand in the table after the
action `a`; the laws about e-mails, passwords and flags are case analyses on it.
`TokenOrigin` does the same for a token, and `ApiRun.token_origin` finds the
transition of a run that signed it.
-/

namespace FastApiAuth

set_option autoImplicit false

open Database

inductive RowOrigin (env : Env) (s : Server) : Action → User → Prop where
  | kept {a : Action} {u : User} : u ∈ s.db.users → RowOrigin env s a u
  | registered {clientHost : String} {body : UserCreate} {broker : Bool} {email : String}
      {password : NewPassword env} :
      (registerLimiter.call clientHost s).1 = .ok () →
      env.emailStr body.email = some email →
      validateNewPassword env body.password = .ok password →
      (∀ v ∈ s.db.users, v.email ≠ env.lower email) →
      RowOrigin env s (.request (.register clientHost body broker))
        ⟨s.db.nextUserId, env.lower email, some (env.hash s.draws password.text), true, false,
          s.now⟩
  | signedUp {provider state email : String} {identity : Identity} :
      UnlinkedCallback env s provider state identity .login → identity.email = some email →
      (∀ v ∈ s.db.users, v.email ≠ email) →
      RowOrigin env s (.request (.oauthCallback provider state (some identity)))
        ⟨s.db.nextUserId, email, none, true, true, s.now⟩
  | verified {token : Token} {claims : TokenClaims Instant} {u : User} :
      u ∈ s.db.users → s.decodeEmailVerificationToken token = some claims →
      PyInt.int claims.subject = some (u.id : Int) → u.isVerified = false →
      isTokenUsed s.redis s.now claims.jti = false →
      RowOrigin env s (.request (.verifyEmail token)) (setVerified true u)
  | passwordReset {token : Token} {text : String} {password : NewPassword env}
      {claims : TokenClaims Instant} {u : User} :
      u ∈ s.db.users → s.decodePasswordResetToken token = some claims →
      PyInt.int claims.subject = some (u.id : Int) →
      validateNewPassword env text = .ok password →
      RowOrigin env s (.request (.resetPassword token text))
        (setHashedPassword (env.hash s.draws password.text) u)
  | emailChanged {credentials : Token} {text email : String} {u : User} :
      u ∈ s.db.users → getCurrentUser s credentials = .ok u → env.emailStr text = some email →
      (∀ v ∈ s.db.users, v.id ≠ u.id → v.email ≠ env.lower email) →
      RowOrigin env s (.request (.updateCurrentUser credentials (some text)))
        (setEmail (env.lower email) u)
  | passwordChanged {credentials : Token} {passwordData : PasswordChange} {u : User}
      {hashedPassword : String} {password : NewPassword env} :
      u ∈ s.db.users → getCurrentUser s credentials = .ok u →
      u.hashedPassword = some hashedPassword →
      verifyPassword env passwordData.currentPassword hashedPassword = some true →
      validateNewPassword env passwordData.newPassword = .ok password →
      RowOrigin env s (.request (.changeCurrentUserPassword credentials passwordData))
        (setHashedPassword (env.hash s.draws password.text) u)
  | deactivated {r : Request} {u : User} :
      u ∈ s.db.users → RowOrigin env s (.request r) (setActive false u)
  | statusUpdated {credentials : Token} {payload : AdminUserUpdate} {admin u : User} :
      u ∈ s.db.users → requirePermissions s credentials ["users:write"] = .ok admin →
      RowOrigin env s (.request (.updateUserStatus credentials u.id payload)) (payload.apply u)

variable {env : Env} {s s' : Server} {a : Action} {u u' : User}

/-- After an update of the row of `user`: a row as before, or that row rewritten. -/
theorem amended_or_kept {user : User} {f : User → User} (hc : s.db.Consistent)
    (huser : user ∈ s.db.users) (h : u' ∈ (s.db.amendUser user.id f).users)
    (hf : ∀ v, (f v).id = v.id) : u' ∈ s.db.users ∨ u' = f user := by
  obtain ⟨v, hv, _, he | ⟨hid, he⟩⟩ := amendUser_origin hf h
  · exact .inl (he ▸ hv)
  · exact .inr (hc.eq_of_id hv huser hid ▸ he)

theorem Effect.row_origin {db : Database} {new : List Issued} (h : Effect env s a db new)
    (hc : s.db.Consistent) (hu : u' ∈ db.users) : RowOrigin env s a u' := by
  cases h with
  | quiet | session _ _ | resetMinted _ _ _ _ | roleAssigned _ _ _ _ | grantedBySql _ _ =>
    exact .kept hu
  | unlinked _ _ _ | roleRevoked _ _ => exact .kept hu
  | registered hpass hemail hpassword hins _ _ =>
    obtain ⟨hfree, huser, rfl⟩ := insertUser_some hins
    rcases List.mem_append.mp hu with hu | hu
    · exact .kept hu
    · rw [List.mem_singleton.mp hu, huser]
      exact .registered hpass hemail hpassword hfree
  | verified hclaims hint hmem hver hunused =>
    rcases amended_or_kept hc hmem hu (fun _ => rfl) with hu | rfl
    · exact .kept hu
    · exact .verified hmem hclaims hint hver hunused
  | passwordReset hclaims hint hpassword hmem _ _ =>
    rcases amended_or_kept hc hmem hu (fun _ => rfl) with hu | rfl
    · exact .kept hu
    · exact .passwordReset hmem hclaims hint hpassword
  | signedUp hcall hemail hins hlink _ =>
    obtain ⟨hfree, huser, rfl⟩ := insertUser_some hins
    obtain ⟨_, _, rfl⟩ := insertLink_some hlink
    rcases List.mem_append.mp hu with hu | hu
    · exact .kept hu
    · rw [List.mem_singleton.mp hu, huser]
      exact .signedUp hcall hemail hfree
  | autoLinked _ _ _ hlink _ =>
    obtain ⟨_, _, rfl⟩ := insertLink_some hlink
    exact .kept hu
  | linked _ _ hlink _ =>
    obtain ⟨_, _, rfl⟩ := insertLink_some hlink
    exact .kept hu
  | emailChanged huser hemail hdb =>
    obtain ⟨hfree, rfl⟩ := changeEmail_some hdb
    have hmem := getCurrentUser_mem huser
    rcases amended_or_kept hc hmem hu (fun _ => rfl) with hu | rfl
    · exact .kept hu
    · exact .emailChanged hmem huser hemail hfree
  | passwordChanged huser hstored hcurrent hpassword =>
    have hmem := getCurrentUser_mem huser
    rcases amended_or_kept hc hmem hu (fun _ => rfl) with hu | rfl
    · exact .kept hu
    · exact .passwordChanged hmem huser hstored hcurrent hpassword
  | deactivated hby =>
    rcases amended_or_kept hc hby.mem hu (fun _ => rfl) with hu | rfl
    · exact .kept hu
    · exact .deactivated hby.mem
  | statusUpdated hadmin huser =>
    obtain ⟨hmem, hid⟩ := userById_some huser
    rcases amended_or_kept hc hmem hu (fun _ => rfl) with hu | rfl
    · exact .kept hu
    · exact hid ▸ .statusUpdated hmem hadmin
  | cleaned => exact .kept (mem_deleteUsers.mp hu).1

theorem step_row_origin {l : Action × Reply} (hc : s.db.Consistent) (h : Step env s l s')
    (hu : u' ∈ s'.db.users) : RowOrigin env s l.1 u' := by
  obtain ⟨_, _, heff⟩ := (step_effect h).effect
  exact heff.row_origin hc hu

/-- An existing id is never given to another row. -/
theorem id_ne_nextUserId (hc : s.db.Consistent) (hu : u ∈ s.db.users) :
    u.id ≠ s.db.nextUserId :=
  (hc.userIds_lt u hu).ne

theorem Effect.nextUserId_le {db : Database} {new : List Issued} (h : Effect env s a db new) :
    s.db.nextUserId ≤ db.nextUserId := by
  cases h with
  | registered _ _ _ hins _ _ =>
    obtain ⟨_, _, rfl⟩ := insertUser_some hins
    exact Nat.le_succ _
  | signedUp _ _ hins hlink _ =>
    obtain ⟨_, _, rfl⟩ := insertUser_some hins
    obtain ⟨_, _, rfl⟩ := insertLink_some hlink
    exact Nat.le_succ _
  | autoLinked _ _ _ hlink _ | linked _ _ hlink _ =>
    obtain ⟨_, _, rfl⟩ := insertLink_some hlink
    exact le_rfl
  | emailChanged _ _ hdb =>
    obtain ⟨_, rfl⟩ := changeEmail_some hdb
    exact le_rfl
  | _ => exact le_rfl

theorem step_nextUserId_le {l : Action × Reply} (h : Step env s l s') :
    s.db.nextUserId ≤ s'.db.nextUserId := by
  obtain ⟨_, _, heff⟩ := (step_effect h).effect
  exact heff.nextUserId_le

/-- The ways an action on `s` that leaves the tables `db` can have signed `i`. -/
inductive TokenOrigin (s : Server) (db : Database) : Action → Issued → Prop where
  | session {r : Request} {user : User} {i : Issued} :
      user ∈ db.users → i.owner = user.id → i.token.sub = user.email →
      i.token.type = "access" ∨ i.token.type = "refresh" → TokenOrigin s db (.request r) i
  | verification {clientHost : String} {body : UserCreate} {broker : Bool} {i : Issued} :
      i.token.type = "email_verification" → i.token.sub = PyInt.str i.owner →
      (∃ user ∈ db.users, user.id = i.owner) →
      TokenOrigin s db (.request (.register clientHost body broker)) i
  | reset {clientHost : String} {body : ForgotPasswordRequest} {broker : Bool} {i : Issued} :
      i.token.type = "password_reset" → i.token.sub = PyInt.str i.owner →
      (∃ user ∈ s.db.users, user.id = i.owner ∧ user.isActive = true) →
      TokenOrigin s db (.request (.forgotPassword clientHost body broker)) i

theorem SessionTokens.origin {r : Request} {db : Database} {new : List Issued} {i : Issued}
    (hnew : SessionTokens u new) (hu : u ∈ db.users) (hi : i ∈ new) :
    TokenOrigin s db (.request r) i := by
  obtain ⟨howner, hsub, htype⟩ := hnew i hi
  exact .session hu howner hsub htype

theorem Effect.token_origin {db : Database} {new : List Issued} {i : Issued}
    (h : Effect env s a db new) (hi : i ∈ new) : TokenOrigin s db a i := by
  cases h with
  | session hmem hnew => exact hnew.origin hmem hi
  | registered _ _ _ hins htype hsub =>
    obtain ⟨_, _, rfl⟩ := insertUser_some hins
    rw [List.mem_singleton.mp hi]
    exact .verification htype hsub ⟨_, by simp, rfl⟩
  | resetMinted hmem hactive htype hsub =>
    rw [List.mem_singleton.mp hi]
    exact .reset htype hsub ⟨_, hmem, rfl, hactive⟩
  | signedUp _ _ hins hlink hnew =>
    obtain ⟨_, _, rfl⟩ := insertUser_some hins
    obtain ⟨_, _, rfl⟩ := insertLink_some hlink
    exact hnew.origin (by simp) hi
  | autoLinked _ _ huser hlink hnew =>
    obtain ⟨_, _, rfl⟩ := insertLink_some hlink
    exact hnew.origin (userByEmail_some huser).1 hi
  | linked _ huser hlink hnew =>
    obtain ⟨_, _, rfl⟩ := insertLink_some hlink
    exact hnew.origin (userById_some huser).1 hi
  | quiet | verified _ _ _ _ _ | passwordReset _ _ _ _ _ _ | unlinked _ _ _ | emailChanged _ _ _
  | passwordChanged _ _ _ _ | deactivated _ | statusUpdated _ _ | roleAssigned _ _ _ _
  | roleRevoked _ _ | cleaned | grantedBySql _ _ => simp at hi

/-- The transition has signed `i`. -/
def Mints (t : ApiTransition) (i : Issued) : Prop :=
  ∃ new, t.target.issued = t.source.issued ++ new ∧ i ∈ new

theorem step_mints {l : Action × Reply} {i : Issued} (h : Step env s l s')
    (hi : i ∈ s'.issued) :
    i ∈ s.issued ∨ (Mints ⟨s, l, s'⟩ i ∧ TokenOrigin s s'.db l.1 i) := by
  obtain ⟨new, hnew, heff⟩ := (step_effect h).effect
  rw [hnew] at hi
  rcases List.mem_append.mp hi with hi | hi
  · exact .inl hi
  · exact .inr ⟨⟨new, hnew, hi⟩, heff.token_origin hi⟩

theorem TokenOrigin.owner_lt {db : Database} {i : Issued} (h : TokenOrigin s db a i)
    (hc : s.db.Consistent) (hc' : db.Consistent) (hle : s.db.nextUserId ≤ db.nextUserId) :
    i.owner < db.nextUserId := by
  cases h with
  | session hu howner _ _ => exact howner ▸ hc'.userIds_lt _ hu
  | verification _ _ howner =>
    obtain ⟨u, hu, hid⟩ := howner
    exact hid ▸ hc'.userIds_lt u hu
  | reset _ _ howner =>
    obtain ⟨u, hu, hid, _⟩ := howner
    exact hid ▸ (hc.userIds_lt u hu).trans_le hle

theorem ApiRun.token_origin {s₀ : Server} {h : List ApiTransition} {i : Issued}
    (hempty : s₀.issued = []) (r : ApiRun env s₀ h s) (hi : i ∈ s.issued) :
    ∃ t ∈ h, Mints t i ∧ TokenOrigin t.source t.target.db t.label.1 i := by
  induction r with
  | start => simp [hempty] at hi
  | snoc r hstep ih =>
    rcases step_mints hstep hi with hi | ⟨hmint, horigin⟩
    · obtain ⟨t, ht, h⟩ := ih hi
      exact ⟨t, List.mem_append_left _ ht, h⟩
    · exact ⟨_, by simp, hmint, horigin⟩

/-- The ids of all rows that were ever there, and of all owners of tokens, are used up. -/
theorem ApiRun.ids_used {s₀ : Server} {h : List ApiTransition} (hc : s₀.db.Consistent)
    (hempty : s₀.issued = []) (r : ApiRun env s₀ h s) :
    (∀ t ∈ h, ∀ v ∈ t.source.db.users, v.id < s.db.nextUserId) ∧
      ∀ i ∈ s.issued, i.owner < s.db.nextUserId := by
  induction r with
  | start => simp [hempty]
  | @snoc h s s' l r hstep ih =>
    have hcs := ApiRun.consistent hc r
    have hle := step_nextUserId_le hstep
    constructor
    · intro t ht v hv
      rcases List.mem_append.mp ht with ht | ht
      · exact (ih.1 t ht v hv).trans_le hle
      · rw [List.mem_singleton.mp ht] at hv
        exact (hcs.userIds_lt v hv).trans_le hle
    · intro i hi
      rcases step_mints hstep hi with hi | ⟨_, horigin⟩
      · exact (ih.2 i hi).trans_le hle
      · exact horigin.owner_lt hcs (step_consistent hcs hstep) hle

/-- A token once signed stays signed. -/
theorem ApiRun.issued_of_mem {s₀ : Server} {h : List ApiTransition} {t : ApiTransition} {i : Issued}
    (r : ApiRun env s₀ h s) (ht : t ∈ h) (hi : i ∈ t.target.issued) : i ∈ s.issued := by
  obtain ⟨before, hp, rb, hstep⟩ := r.step_of_mem ht
  refine r.persist (P := fun s => i ∈ s.issued) ?_ hp (.snoc rb hstep) hi
  intro t' ht' hmem
  obtain ⟨_, _, _, hstep'⟩ := r.step_of_mem ht'
  obtain ⟨new, hnew, _⟩ := (step_effect hstep').effect
  rw [hnew]
  exact List.mem_append_left _ hmem

end FastApiAuth
