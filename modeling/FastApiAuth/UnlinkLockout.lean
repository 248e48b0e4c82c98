import FastApiAuth.OAuthGates

/-!
# Who can still sign in after an unlink

unlink_provider lets the last linked account go when a password is set. login_user
asks for more than the password: the lower-cased address must lead to the row, and
the row must be verified. A row with a password that fails one of the two is locked
out by its last unlink.
-/

namespace FastApiAuth.UnlinkLockout

set_option autoImplicit false

open Database OAuthGates

/-- A flow in login mode from its start to the callback, under the identity of `a`. -/
def loginThrough (env : Env) (a : OAuthAccount) (s : Server) : Outcome :=
  oauthCallback env a.provider (env.tokenUrlsafe s.draws) (some ⟨a.providerUserId, a.email⟩)
    (oauthLogin env a.provider s).2

/-- By the password, or by one of the linked accounts. -/
def StillSignsIn (env : Env) (password : String) (s : Server) (user : User) : Prop :=
  AnswersFor (loginUser env user.email password s).1 user ∨
    ∃ a ∈ s.db.oauthAccounts, a.userId = user.id ∧ AnswersFor (loginThrough env a s).1 user

section SignIn

variable {env : Env} {s : Server} {user : User} {a : OAuthAccount} {password : String}

/-- What login_user asks for besides the right password. -/
theorem loginUser_answersFor_iff (hc : s.db.Consistent) (hu : user ∈ s.db.users)
    (hactive : user.isActive = true)
    (hpassword : ∀ hash, user.hashedPassword = some hash → env.verify password hash = true) :
    AnswersFor (loginUser env user.email password s).1 user ↔
      user.hashedPassword ≠ none ∧ env.lower user.email = user.email ∧ user.isVerified = true := by
  constructor
  · apply loginUser_rule (P := fun o => AnswersFor o.1 user → user.hashedPassword ≠ none ∧
      env.lower user.email = user.email ∧ user.isVerified = true)
    · exact fun e _ h => absurd h (not_answersFor_error e)
    · exact fun _ _ _ _ _ h => absurd h (not_answersFor_error _)
    · intro v hash hv hhash _ hverified _ h
      obtain ⟨hmem, he⟩ := userByEmail_some hv
      obtain rfl := hc.eq_of_email hmem hu h.email_eq
      exact ⟨by simp [hhash], he.symm, hverified⟩
  · rintro ⟨hset, hlower, hverified⟩
    obtain ⟨hash, hhash⟩ := Option.ne_none_iff_exists'.mp hset
    have hfound : s.db.userByEmail (env.lower user.email) = some user :=
      hc.userByEmail_of_mem hu hlower.symm
    unfold loginUser
    simp only [hfound, hhash, verifyPassword_ofString, hpassword hash hhash, hverified, hactive]
    exact answerWithTokens_answersFor env user s

theorem oauthLogin_of_client (hclient : requireClient env a.provider = .ok ()) :
    (oauthLogin env a.provider s).2 = (redirectWithState env "login" s).2 := by
  unfold oauthLogin
  rw [hclient]

/-- A linked account signs its active user in as long as the provider is configured. -/
theorem loginThrough_answersFor_iff (hc : s.db.Consistent) (hu : user ∈ s.db.users)
    (hactive : user.isActive = true) (ha : a ∈ s.db.oauthAccounts) (howner : a.userId = user.id) :
    AnswersFor (loginThrough env a s).1 user ↔ requireClient env a.provider = .ok () := by
  constructor
  · intro h
    unfold loginThrough oauthCallback at h
    split at h
    · exact absurd h (not_answersFor_error _)
    · assumption
  · intro hclient
    unfold loginThrough
    rw [oauthLogin_of_client hclient]
    generalize hs₁ : (redirectWithState env "login" s).2 = s₁
    have hdb : s₁.db = s.db := by rw [← hs₁]; rfl
    have hstored : s₁.redis.get s₁.now (stateKeyPrefix ++ env.tokenUrlsafe s.draws) =
        some "login" := by
      rw [← hs₁]
      refine ExpiringStore.get_put_self fun d hd => ?_
      obtain rfl := Option.some_inj.mp hd
      exact lt_add_of_pos_right s.now (by simp [stateTtlSeconds])
    have hlink : (consumeState (env.tokenUrlsafe s.draws) s₁).db.linkByIdentity a.provider
        a.providerUserId = some a := by
      change s₁.db.linkByIdentity a.provider a.providerUserId = some a
      rw [hdb]
      exact Tables.lookup_of_mem hc.identities ha rfl
    have hfound : (consumeState (env.tokenUrlsafe s.draws) s₁).db.userById a.userId =
        some user := by
      change s₁.db.userById a.userId = some user
      rw [hdb, howner]
      exact hc.userById_of_mem hu
    rw [oauthCallback_login hclient hstored (by decide)]
    unfold callbackLogin answerActive
    simp only [hlink, hfound, hactive]
    exact answerWithTokens_answersFor env user _

/-- What an unlink that answers 204 has found and deleted. -/
theorem unlinkProvider_ok {provider : String} {credentials : Token}
    (huser : getCurrentUser s credentials = .ok user)
    (hok : (unlinkProvider provider credentials s).1 = .ok .noContent) :
    ∃ link, s.db.linkOf user.id provider = some link ∧
      (unlinkProvider provider credentials s).2 = { s with db := s.db.deleteLink link.id } := by
  unfold unlinkProvider withCurrentUser at hok ⊢
  rw [huser] at hok ⊢
  dsimp only at hok ⊢
  split at hok
  · cases hok
  · rename_i link hlink
    split at hok
    · cases hok
    · rename_i hguard
      exact ⟨link, hlink, by rw [if_neg hguard]⟩

theorem mem_deleteLink {accountId : Nat} {db : Database} :
    a ∈ (db.deleteLink accountId).oauthAccounts ↔ a ∈ db.oauthAccounts ∧ a.id ≠ accountId := by
  simp [deleteLink]

end SignIn

/-- In every reachable state, a user whose unlink succeeds can still sign in if and only
if the row has a password, a lower-case address and the verified flag, or another
account of a configured provider is linked to it. -/
theorem unlink_leaves_sign_in_iff {env : Env} {s₀ s : Server} {h : List ApiTransition}
    {provider password : String} {credentials : Token} {user : User}
    (h₀ : Initial s₀) (r : ApiRun env s₀ h s) (huser : getCurrentUser s credentials = .ok user)
    (hok : (handle env (.unlinkProvider provider credentials) s).1 = .ok .noContent)
    (hpassword : ∀ hash, user.hashedPassword = some hash → env.verify password hash = true) :
    StillSignsIn env password (handle env (.unlinkProvider provider credentials) s).2 user ↔
      (user.hashedPassword ≠ none ∧ env.lower user.email = user.email ∧ user.isVerified = true) ∨
      ∃ a ∈ s.db.linksOf user.id, s.db.linkOf user.id provider ≠ some a ∧
        requireClient env a.provider = .ok () := by
  have hc := ApiRun.consistent h₀.consistent r
  obtain ⟨_, _, _, hfound, hactive⟩ := getCurrentUser_ok huser
  have hu := (userByEmail_some hfound).1
  obtain ⟨link, hlink, hs⟩ := unlinkProvider_ok huser hok
  have hlinkMem := (linkOf_some hlink).1
  change StillSignsIn env password (unlinkProvider provider credentials s).2 user ↔ _
  rw [hs]
  generalize hs' : { s with db := s.db.deleteLink link.id } = s'
  have hc' : s'.db.Consistent := hs' ▸ deleteLink_consistent hc link.id
  have hu' : user ∈ s'.db.users := hs' ▸ hu
  refine or_congr (loginUser_answersFor_iff hc' hu' hactive hpassword) ?_
  constructor
  · rintro ⟨a, ha, howner, hanswers⟩
    have hclient := (loginThrough_answersFor_iff hc' hu' hactive ha howner).mp hanswers
    rw [← hs'] at ha
    obtain ⟨hmem, hne⟩ := mem_deleteLink.mp ha
    refine ⟨a, List.mem_filter.mpr ⟨hmem, decide_eq_true howner⟩, ?_, hclient⟩
    rw [hlink]
    rintro ⟨rfl⟩
    exact hne rfl
  · rintro ⟨a, ha, hother, hclient⟩
    obtain ⟨hmem, howner⟩ := List.mem_filter.mp ha
    have howner := of_decide_eq_true howner
    have hne : a.id ≠ link.id := by
      intro hid
      obtain rfl : a = link := List.inj_on_of_nodup_map hc.accountIds hmem hlinkMem hid
      exact hother hlink
    have ha' : a ∈ s'.db.oauthAccounts := by
      rw [← hs']
      exact mem_deleteLink.mpr ⟨hmem, hne⟩
    exact ⟨a, ha', howner,
      (loginThrough_answersFor_iff hc' hu' hactive ha' howner).mpr hclient⟩

/-- Somebody registers, never opens the mail and signs in with a provider that asserts
the same address. -/
def lockoutActions : List Action :=
  [.request (.register "localhost" ⟨"a@example.com", "Passw0rd"⟩ true),
    .request (.oauthLogin "github"),
    .request (.oauthCallback "github" "state2" (some ⟨"17", some "a@example.com"⟩))]

def lockoutServer : Server := Runs.exec (step asciiEnv) (freshServer 0) lockoutActions

def lockoutToken : Token := ⟨"a@example.com", "access", "uuid3", 0, 1800⟩

def lockoutUser : User := ⟨1, "a@example.com", some "Passw0rd$0", true, false, 0⟩

def lockoutLink : OAuthAccount := ⟨1, 1, "github", "17", some "a@example.com", 0⟩

theorem lockoutUser_requests : getCurrentUser lockoutServer lockoutToken = .ok lockoutUser := by
  decide +kernel

theorem lockoutServer_unlinks : unlinkProvider "github" lockoutToken lockoutServer =
    (.ok .noContent, { lockoutServer with db := lockoutServer.db.deleteLink 1 }) := by
  have hlink : lockoutServer.db.linkOf lockoutUser.id "github" = some lockoutLink := by
    decide +kernel
  exact unlinkProvider_of_guard lockoutUser_requests hlink (by decide +kernel)

theorem unlink_leaves_sign_in_iff_sample :
    StillSignsIn asciiEnv "Passw0rd"
      (handle asciiEnv (.unlinkProvider "github" lockoutToken) lockoutServer).2 lockoutUser ↔
    (lockoutUser.hashedPassword ≠ none ∧ asciiEnv.lower lockoutUser.email = lockoutUser.email ∧
      lockoutUser.isVerified = true) ∨
    ∃ a ∈ lockoutServer.db.linksOf lockoutUser.id,
      lockoutServer.db.linkOf lockoutUser.id "github" ≠ some a ∧
        requireClient asciiEnv a.provider = .ok () := by
  refine unlink_leaves_sign_in_iff (freshServer_initial 0)
    (Runs.run_trace (step asciiEnv) (freshServer 0) lockoutActions) lockoutUser_requests
    (congrArg Prod.fst lockoutServer_unlinks) ?_
  intro hash hhash
  cases hhash
  decide +kernel

/-- The unlink answers 204 and leaves no account; the right password is refused. -/
theorem unlink_locks_out :
    ∃ h s, ApiRun asciiEnv (freshServer 0) h s ∧
      getCurrentUser s lockoutToken = .ok lockoutUser ∧
      (handle asciiEnv (.unlinkProvider "github" lockoutToken) s).1 = .ok .noContent ∧
      asciiEnv.verify "Passw0rd" "Passw0rd$0" = true ∧
      ∀ password, asciiEnv.verify password "Passw0rd$0" = true →
        ¬ StillSignsIn asciiEnv password
          (handle asciiEnv (.unlinkProvider "github" lockoutToken) s).2 lockoutUser := by
  have hrun := Runs.run_trace (step asciiEnv) (freshServer 0) lockoutActions
  refine ⟨_, lockoutServer, hrun, lockoutUser_requests, congrArg Prod.fst lockoutServer_unlinks,
    by decide +kernel, fun password hpassword hstill => ?_⟩
  have hc := ApiRun.consistent (freshServer_initial 0).consistent hrun
  change StillSignsIn asciiEnv password (unlinkProvider "github" lockoutToken lockoutServer).2
    lockoutUser at hstill
  rw [lockoutServer_unlinks] at hstill
  rcases hstill with hlogin | ⟨a, ha, _⟩
  · have hverified := ((loginUser_answersFor_iff (deleteLink_consistent hc 1)
      (by decide +kernel) rfl (fun hash hhash => by cases hhash; exact hpassword)).mp hlogin).2.2
    cases hverified
  · have hnone : (lockoutServer.db.deleteLink 1).oauthAccounts = [] := by decide +kernel
    have ha : a ∈ (lockoutServer.db.deleteLink 1).oauthAccounts := ha
    rw [hnone] at ha
    cases ha

end FastApiAuth.UnlinkLockout
