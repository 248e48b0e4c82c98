import FastApiAuth.Effects

/-!
# Every account keeps a way to sign in

A user row has a password or a linked provider account after every request. Only
unlink_provider removes a link, and its guard counts the links of a user without
a password; no request takes a password away.
-/

namespace FastApiAuth.SignInMethods

set_option autoImplicit false

open Database

/-- The sign-in methods of the row `u`: a password, or a provider account. -/
def CanSignIn (db : Database) (u : User) : Prop :=
  u.hashedPassword ≠ none ∨ ∃ a ∈ db.oauthAccounts, a.userId = u.id

def EveryoneCanSignIn (db : Database) : Prop := ∀ u ∈ db.users, CanSignIn db u

section Writes

variable {db db' : Database} {user u : User}

theorem CanSignIn.of_accounts (hlinks : ∀ a ∈ db.oauthAccounts, a ∈ db'.oauthAccounts)
    (h : CanSignIn db u) : CanSignIn db' u := by
  rcases h with h | ⟨a, ha, hid⟩
  · exact .inl h
  · exact .inr ⟨a, hlinks a ha, hid⟩

theorem amendUser_sign_in {f : User → User} {userId : Nat} (hf : ∀ v, (f v).id = v.id)
    (hpassword : ∀ v, v.hashedPassword ≠ none → (f v).hashedPassword ≠ none)
    (h : EveryoneCanSignIn db) : EveryoneCanSignIn (db.amendUser userId f) := by
  intro u hu
  obtain ⟨v, hv, hid, rfl | ⟨_, rfl⟩⟩ := amendUser_origin hf hu
  · exact h _ hv
  · rcases h v hv with hpw | ⟨a, ha, he⟩
    · exact .inl (hpassword v hpw)
    · exact .inr ⟨a, ha, he.trans hid⟩

theorem insertLink_sign_in {userId : Nat} {provider providerUserId : String}
    {email : Option String} {createdAt : Instant}
    (hins : db.insertLink userId provider providerUserId email createdAt = some db')
    (h : ∀ u ∈ db.users, u.id ≠ userId → CanSignIn db u) : EveryoneCanSignIn db' := by
  obtain ⟨_, _, rfl⟩ := insertLink_some hins
  intro u hu
  by_cases hid : u.id = userId
  · exact .inr ⟨_, List.mem_append_right _ (List.mem_singleton_self _), hid.symm⟩
  · exact (h u hu hid).of_accounts fun a ha => List.mem_append_left _ ha

theorem insertUser_sign_in {email : String} {hash : Option String} {isActive isVerified : Bool}
    {createdAt : Instant} {roles : List Role}
    (hins : db.insertUser email hash isActive isVerified createdAt roles = some (user, db'))
    (h : EveryoneCanSignIn db) : ∀ u ∈ db'.users, u = user ∨ CanSignIn db' u := by
  obtain ⟨_, _, rfl⟩ := insertUser_some hins
  intro u hu
  rcases List.mem_append.mp hu with hu | hu
  · exact .inr (h u hu)
  · exact .inl (List.mem_singleton.mp hu)

/-- The guard of unlink_provider leaves its user a password or another link. -/
theorem deleteLink_sign_in {provider : String} {link : OAuthAccount} (hc : db.Consistent)
    (huser : user ∈ db.users) (hlink : db.linkOf user.id provider = some link)
    (hguard : refusesUnlink user (db.linksOf user.id).length = false)
    (h : EveryoneCanSignIn db) : EveryoneCanSignIn (db.deleteLink link.id) := by
  obtain ⟨hmem, howner, _⟩ := linkOf_some hlink
  intro u hu
  by_cases hid : u.id = user.id
  · obtain rfl := hc.eq_of_id hu huser hid
    by_cases hpw : u.hashedPassword = none
    · have hlen : 1 < (db.linksOf u.id).length := by
        simpa [refusesUnlink, hpw] using hguard
      have hn : ((db.linksOf u.id).map OAuthAccount.id).Nodup :=
        Tables.nodup_filter _ hc.accountIds
      obtain ⟨a, ha, hne⟩ := Tables.exists_key_ne hn hlen link.id
      obtain ⟨ha, he⟩ := List.mem_filter.mp ha
      exact .inr ⟨a, List.mem_filter.mpr ⟨ha, by simpa using hne⟩, by simpa using he⟩
    · exact .inl hpw
  · rcases h u hu with hpw | ⟨a, ha, he⟩
    · exact .inl hpw
    · have hne : a.id ≠ link.id := by
        intro hal
        have : a = link := List.inj_on_of_nodup_map hc.accountIds ha hmem hal
        exact hid (by rw [← he, this, howner])
      exact .inr ⟨a, List.mem_filter.mpr ⟨ha, by simpa using hne⟩, he⟩

theorem deleteUsers_sign_in {doomed : User → Bool} (h : EveryoneCanSignIn db) :
    EveryoneCanSignIn (db.deleteUsers doomed) := by
  intro u hu
  obtain ⟨hmem, hkept⟩ := mem_deleteUsers.mp hu
  rcases h u hmem with hpw | ⟨a, ha, he⟩
  · exact .inl hpw
  · refine .inr ⟨a, List.mem_filter.mpr ⟨ha, ?_⟩, he⟩
    simp only [List.any_eq_true, decide_eq_true_eq]
    exact ⟨u, hu, he.symm⟩

end Writes

theorem effect_sign_in {env : Env} {s : Server} {a : Action} {db : Database} {new : List Issued}
    (heff : Effect env s a db new) (hc : s.db.Consistent) (h : EveryoneCanSignIn s.db) :
    EveryoneCanSignIn db := by
  cases heff with
  | quiet | session _ _ | resetMinted _ _ _ _ | roleAssigned _ _ _ _ | roleRevoked _
  | grantedBySql _ _ => exact h
  | registered _ _ _ hins _ _ =>
    intro u hu
    rcases insertUser_sign_in hins h u hu with rfl | hu
    · obtain ⟨_, rfl, _⟩ := insertUser_some hins
      exact .inl (by simp)
    · exact hu
  | verified _ _ _ _ _ | deactivated _ | statusUpdated _ _ =>
    exact amendUser_sign_in (fun _ => rfl) (fun _ hpw => hpw) h
  | passwordReset _ _ _ _ _ _ | passwordChanged _ _ _ _ =>
    exact amendUser_sign_in (fun _ => rfl) (fun _ _ => by simp [setHashedPassword]) h
  | signedUp _ _ hins hlink _ =>
    refine insertLink_sign_in hlink fun u hu hid => ?_
    rcases insertUser_sign_in hins h u hu with rfl | hu
    · exact absurd rfl hid
    · exact hu
  | autoLinked _ _ _ hlink _ => exact insertLink_sign_in hlink fun u hu _ => h u hu
  | linked _ _ hlink _ => exact insertLink_sign_in hlink fun u hu _ => h u hu
  | unlinked huser hlink hguard =>
    exact deleteLink_sign_in hc (getCurrentUser_mem huser) hlink hguard h
  | emailChanged _ _ hdb =>
    obtain ⟨_, rfl⟩ := changeEmail_some hdb
    exact amendUser_sign_in (fun _ => rfl) (fun _ hpw => hpw) h
  | cleaned => exact deleteUsers_sign_in h

theorem step_sign_in {env : Env} {s s' : Server} {l : Action × Reply} (hc : s.db.Consistent)
    (h : EveryoneCanSignIn s.db) (hstep : Step env s l s') : EveryoneCanSignIn s'.db := by
  obtain ⟨_, _, heff⟩ := (step_effect hstep).effect
  exact effect_sign_in heff hc h

/-- From tables in which everyone can sign in (the empty ones of a new deployment,
for one), every run keeps it so, and keeps the links and the unique columns intact. -/
theorem sign_in_invariant {env : Env} {s₀ s : Server} {h : List ApiTransition}
    (hc : s₀.db.Consistent) (hs : EveryoneCanSignIn s₀.db) (r : ApiRun env s₀ h s) :
    (∀ u ∈ s.db.users, u.hashedPassword ≠ none ∨ ∃ a ∈ s.db.oauthAccounts, a.userId = u.id) ∧
    (∀ a ∈ s.db.oauthAccounts, ∃ u ∈ s.db.users, u.id = a.userId) ∧
    (s.db.oauthAccounts.map fun a => (a.provider, a.providerUserId)).Nodup ∧
    (s.db.users.map User.email).Nodup := by
  have hinv : s.db.Consistent ∧ EveryoneCanSignIn s.db := by
    refine r.invariant (I := fun s => s.db.Consistent ∧ EveryoneCanSignIn s.db) ⟨hc, hs⟩ ?_
    rintro s l s' ⟨hc, hs⟩ hstep
    exact ⟨step_consistent hc hstep, step_sign_in hc hs hstep⟩
  obtain ⟨hc, hs⟩ := hinv
  exact ⟨hs, hc.account_user, hc.identities, hc.emails⟩

/-- A new deployment in which one user has signed up by OAuth. -/
def sampleServer : Server :=
  Runs.exec (step asciiEnv) (freshServer 0)
    [.request (.oauthLogin "github"),
      .request (.oauthCallback "github" "state0" (some ⟨"17", some "a@example.com"⟩))]

theorem sign_in_invariant_sample :
    (∀ u ∈ sampleServer.db.users,
      u.hashedPassword ≠ none ∨ ∃ a ∈ sampleServer.db.oauthAccounts, a.userId = u.id) ∧
    (∀ a ∈ sampleServer.db.oauthAccounts, ∃ u ∈ sampleServer.db.users, u.id = a.userId) ∧
    (sampleServer.db.oauthAccounts.map fun a => (a.provider, a.providerUserId)).Nodup ∧
    (sampleServer.db.users.map User.email).Nodup :=
  sign_in_invariant (freshServer_initial 0).consistent
    (by simp [EveryoneCanSignIn, freshServer_users]) (Runs.run_trace (step asciiEnv) _ _)

end FastApiAuth.SignInMethods
