import FastApiAuth.StableIdentity
import FastApiAuth.UnlinkLockout

/-!
# What an unlink leaves of a provider

unlink_provider deletes one row. No constraint keeps a user from having two identities of
one provider, and both modes of the callback give a user a second one, so the row that is
deleted need not be the last.
-/

namespace FastApiAuth.UnlinkCompleteness

set_option autoImplicit false

open Database OAuthGates StableIdentity UnlinkLockout

def Of (userId : Nat) (provider : String) (a : OAuthAccount) : Prop :=
  a.userId = userId ∧ a.provider = provider

/-- The provider is gone from the user: from the rows, from the sign-ins that go through
an existing link, and from the answer of list_linked_accounts. -/
structure ProviderGone (env : Env) (s : Server) (userId : Nat) (provider : String) : Prop where
  rows : ∀ a ∈ s.db.oauthAccounts, ¬ Of userId provider a
  signIn : ∀ identity a, s.db.linkByIdentity provider identity.providerUserId = some a →
    ∀ user ∈ s.db.users, user.id = userId →
      ¬ AnswersFor (callbackLogin env provider identity s).1 user
  listed : ∀ a ∈ s.db.linksOf userId, a.provider ≠ provider

def TwoLinks (db : Database) (userId : Nat) (provider : String) : Prop :=
  ∃ a ∈ db.oauthAccounts, ∃ b ∈ db.oauthAccounts,
    a ≠ b ∧ Of userId provider a ∧ Of userId provider b

section Unlink

variable {env : Env} {s s' : Server} {l : Action × Reply} {userId : Nat} {provider : String}

theorem answersFor_linked {identity : Identity} {a : OAuthAccount} {user : User}
    (hc : s.db.Consistent) (hlink : s.db.linkByIdentity provider identity.providerUserId = some a)
    (huser : user ∈ s.db.users)
    (hanswers : AnswersFor (callbackLogin env provider identity s).1 user) :
    a.userId = user.id := by
  unfold callbackLogin at hanswers
  rw [hlink] at hanswers
  dsimp only at hanswers
  split at hanswers
  · exact absurd hanswers (not_answersFor_error _)
  · rename_i v hv
    obtain ⟨hmem, hid⟩ := userById_some hv
    unfold answerActive at hanswers
    split at hanswers
    · exact absurd hanswers (not_answersFor_error _)
    · obtain rfl := hc.eq_of_email hmem huser hanswers.email_eq
      omega

theorem providerGone_of_rows (hc : s.db.Consistent)
    (hrows : ∀ a ∈ s.db.oauthAccounts, ¬ Of userId provider a) :
    ProviderGone env s userId provider := by
  constructor
  · exact hrows
  · intro identity a hlink user huser hid hanswers
    obtain ⟨hmem, hidentity⟩ := Tables.lookup_some hlink
    have howner := answersFor_linked hc hlink huser hanswers
    exact hrows a hmem ⟨howner.trans hid, (Prod.mk.inj hidentity).1⟩
  · intro a ha hprovider
    obtain ⟨hmem, howner⟩ := List.mem_filter.mp ha
    exact hrows a hmem ⟨of_decide_eq_true howner, hprovider⟩

/-- A successful unlink takes one link of the user with the provider. -/
theorem unlinks_deletes (hstep : Step env s l s') (hun : Unlinks ⟨s, l, s'⟩ userId provider) :
    ∃ link ∈ s.db.oauthAccounts, Of userId provider link ∧ s'.db = s.db.deleteLink link.id := by
  obtain ⟨credentials, user, hlabel, huser, rfl⟩ := hun
  dsimp only at hlabel huser
  subst hlabel
  have hok : (unlinkProvider provider credentials s).1 = .ok .noContent := congrArg Prod.fst hstep
  have hs : s' = (unlinkProvider provider credentials s).2 := (congrArg Prod.snd hstep).symm
  obtain ⟨link, hlink, htarget⟩ := unlinkProvider_ok huser hok
  obtain ⟨hmem, howner, hprovider⟩ := linkOf_some hlink
  rw [hs, htarget]
  exact ⟨link, hmem, ⟨howner, hprovider⟩, rfl⟩

theorem unlink_providerGone_iff (hc : s.db.Consistent) (hstep : Step env s l s')
    (hun : Unlinks ⟨s, l, s'⟩ userId provider) :
    ProviderGone env s' userId provider ↔ ¬ TwoLinks s.db userId provider := by
  obtain ⟨link, hmem, hof, hdb⟩ := unlinks_deletes hstep hun
  constructor
  · rintro hgone ⟨a, ha, b, hb, hne, hofA, hofB⟩
    have hdeleted : ∀ c ∈ s.db.oauthAccounts, Of userId provider c → c = link := by
      intro c hmemC hofC
      by_contra hother
      refine hgone.rows c ?_ hofC
      rw [hdb]
      apply mem_deleteLink.mpr
      refine ⟨hmemC, ?_⟩
      intro hid
      exact hother (List.inj_on_of_nodup_map hc.accountIds hmemC hmem hid)
    exact hne ((hdeleted a ha hofA).trans (hdeleted b hb hofB).symm)
  · intro hsingle
    apply providerGone_of_rows (step_consistent hc hstep)
    intro a ha hofA
    rw [hdb] at ha
    obtain ⟨hmemA, hid⟩ := mem_deleteLink.mp ha
    refine hsingle ⟨a, hmemA, link, hmem, ?_, hofA, hof⟩
    intro heq
    exact hid (congrArg OAuthAccount.id heq)

/-- A callback gives the user another identity of a provider that is linked already. -/
def SecondLink (t : ApiTransition) (userId : Nat) (provider : String) : Prop :=
  (∃ state identity, t.label.1 = .request (.oauthCallback provider state (some identity))) ∧
    (∃ a ∈ t.source.db.oauthAccounts, Of userId provider a) ∧
    ∃ b ∈ t.target.db.oauthAccounts, b ∉ t.source.db.oauthAccounts ∧ Of userId provider b

/-- The commit of a link adds one row, of its provider. -/
theorem insertLink_only {db db' : Database} {providerUserId : String} {email : Option String}
    {createdAt : Instant} {b : OAuthAccount}
    (h : db.insertLink userId provider providerUserId email createdAt = some db')
    (hb : b ∈ db'.oauthAccounts) (hnew : b ∉ db.oauthAccounts) :
    b.provider = provider ∧ ∀ a ∈ db'.oauthAccounts, a ∈ db.oauthAccounts ∨ a = b := by
  obtain ⟨_, _, rfl⟩ := insertLink_some h
  obtain rfl := List.mem_singleton.mp ((List.mem_append.mp hb).resolve_left hnew)
  refine ⟨rfl, ?_⟩
  intro a ha
  exact (List.mem_append.mp ha).imp_right List.mem_singleton.mp

/-- Only the callback adds a link, and it adds one. -/
theorem effect_new_link {action : Action} {db : Database} {new : List Issued} {b : OAuthAccount}
    (heff : Effect env s action db new) (hb : b ∈ db.oauthAccounts)
    (hnew : b ∉ s.db.oauthAccounts) :
    (∃ state identity, action = .request (.oauthCallback b.provider state (some identity))) ∧
      ∀ a ∈ db.oauthAccounts, a ∈ s.db.oauthAccounts ∨ a = b := by
  cases heff with
  | quiet | session _ _ | resetMinted _ _ _ _ | verified _ _ _ _ _ | passwordReset _ _ _ _ _ _
  | passwordChanged _ _ _ _ | deactivated _ | statusUpdated _ _ | roleAssigned _ _ _ _
  | roleRevoked _ _ | grantedBySql _ _ => exact absurd hb hnew
  | registered _ _ _ hins _ _ =>
    obtain ⟨_, _, rfl⟩ := insertUser_some hins
    exact absurd hb hnew
  | signedUp _ _ hins hlink _ =>
    obtain ⟨_, _, rfl⟩ := insertUser_some hins
    obtain ⟨rfl, honly⟩ := insertLink_only hlink hb hnew
    exact ⟨⟨_, _, rfl⟩, honly⟩
  | autoLinked _ _ _ hlink _ | linked _ _ hlink _ =>
    obtain ⟨rfl, honly⟩ := insertLink_only hlink hb hnew
    exact ⟨⟨_, _, rfl⟩, honly⟩
  | emailChanged _ _ hdb =>
    obtain ⟨_, rfl⟩ := changeEmail_some hdb
    exact absurd hb hnew
  | unlinked _ _ _ => exact absurd (mem_deleteLink.mp hb).1 hnew
  | cleaned => exact absurd (List.mem_of_mem_filter hb) hnew

theorem step_twoLinks (hstep : Step env s l s') (htwo : TwoLinks s'.db userId provider) :
    TwoLinks s.db userId provider ∨ SecondLink ⟨s, l, s'⟩ userId provider := by
  obtain ⟨_, _, heff⟩ := (step_effect hstep).effect
  obtain ⟨a, ha, b, hb, hne, hofA, hofB⟩ := htwo
  have hsecond : ∀ x ∈ s'.db.oauthAccounts, ∀ y ∈ s'.db.oauthAccounts, x ≠ y →
      Of userId provider x → Of userId provider y → y ∉ s.db.oauthAccounts →
      SecondLink ⟨s, l, s'⟩ userId provider := by
    intro x hx y hy hne hofX hofY hnew
    obtain ⟨⟨state, identity, haction⟩, honly⟩ := effect_new_link heff hy hnew
    refine ⟨⟨state, identity, ?_⟩, ⟨x, (honly x hx).resolve_right hne, hofX⟩, y, hy, hnew, hofY⟩
    rw [← hofY.2]
    exact haction
  by_cases holdA : a ∈ s.db.oauthAccounts
  · by_cases holdB : b ∈ s.db.oauthAccounts
    · exact Or.inl ⟨a, holdA, b, holdB, hne, hofA, hofB⟩
    · exact Or.inr (hsecond a ha b hb hne hofA hofB holdB)
  · exact Or.inr (hsecond b hb a ha hne.symm hofB hofA holdA)

/-- As long as no callback adds a second identity, nobody has two. -/
theorem run_single_links {s₀ : Server} {h : List ApiTransition} (r : ApiRun env s₀ h s)
    (h₀ : ∀ userId provider, ¬ TwoLinks s₀.db userId provider)
    (hsecond : ∀ t ∈ h, ∀ userId provider, ¬ SecondLink t userId provider) :
    ∀ userId provider, ¬ TwoLinks s.db userId provider := by
  refine r.guarded_invariant (I := fun _ s => ∀ userId provider, ¬ TwoLinks s.db userId provider)
    (G := fun _ t => ∀ userId provider, ¬ SecondLink t userId provider) h₀ ?_
    (Runs.guarded_of_forall_mem hsecond)
  intro h s l s' _ hsingle hstep hnone userId provider htwo
  rcases step_twoLinks hstep htwo with htwo | hadded
  · exact hsingle userId provider htwo
  · exact hnone userId provider hadded

end Unlink

/-- In every run, an unlink removes the provider just when the user had a single link with
it. -/
theorem unlink_removes_provider_iff {env : Env} {s₀ s : Server} {h : List ApiTransition}
    (h₀ : Initial s₀) (r : ApiRun env s₀ h s) :
    (∀ t ∈ h, ∀ userId provider, Unlinks t userId provider →
      ProviderGone env t.target userId provider) ↔
    ∀ t ∈ h, ∀ userId provider, Unlinks t userId provider →
      ¬ TwoLinks t.source.db userId provider := by
  have hunlink : ∀ t ∈ h, ∀ userId provider, Unlinks t userId provider →
      (ProviderGone env t.target userId provider ↔ ¬ TwoLinks t.source.db userId provider) := by
    intro t ht userId provider hun
    obtain ⟨before, _, rb, hstep⟩ := r.step_of_mem ht
    exact unlink_providerGone_iff (ApiRun.consistent h₀.consistent rb) hstep hun
  constructor
  · intro hgone t ht userId provider hun
    exact (hunlink t ht userId provider hun).mp (hgone t ht userId provider hun)
  · intro hsingle t ht userId provider hun
    exact (hunlink t ht userId provider hun).mpr (hsingle t ht userId provider hun)

/-- In a run that starts without and never adds a second identity, every unlink is complete. -/
theorem unlink_removes_provider_of_single_links {env : Env} {s₀ s : Server}
    {h : List ApiTransition} (h₀ : Initial s₀) (r : ApiRun env s₀ h s)
    (hsingle : ∀ userId provider, ¬ TwoLinks s₀.db userId provider)
    (hsecond : ∀ t ∈ h, ∀ userId provider, ¬ SecondLink t userId provider) :
    ∀ t ∈ h, ∀ userId provider, Unlinks t userId provider →
      ProviderGone env t.target userId provider := by
  intro t ht userId provider hun
  obtain ⟨before, hp, rb, hstep⟩ := r.step_of_mem ht
  apply (unlink_providerGone_iff (ApiRun.consistent h₀.consistent rb) hstep hun).mpr
  apply run_single_links rb hsingle
  intro t' ht'
  exact hsecond t' (hp.subset (List.mem_append_left _ ht'))

/-- Somebody registers, and links two GitHub accounts. -/
def twoAccountsActions : List Action :=
  [.request (.register "localhost" ⟨"a@example.com", "Passw0rd"⟩ true),
    .request (.verifyEmail ⟨"1", "email_verification", "uuid1", 0, 1800⟩),
    .request (.login "localhost" ⟨"a@example.com", "Passw0rd"⟩),
    .request (.oauthLink "github" OAuthGates.accessToken),
    .request (.oauthCallback "github" "state4" (some ⟨"17", none⟩)),
    .request (.oauthLink "github" OAuthGates.accessToken),
    .request (.oauthCallback "github" "state7" (some ⟨"18", none⟩))]

def unlinkOnce : List Action :=
  twoAccountsActions ++ [.request (.unlinkProvider "github" OAuthGates.accessToken)]

def twoAccountsServer : Server := Runs.exec (step asciiEnv) (freshServer 0) twoAccountsActions

def twoAccountsUser : User := ⟨1, "a@example.com", some "Passw0rd$0", true, true, 0⟩

theorem twoAccountsServer_unlinks :
    unlinkProvider "github" OAuthGates.accessToken twoAccountsServer =
      (.ok .noContent, { twoAccountsServer with db := twoAccountsServer.db.deleteLink 1 }) := by
  have huser : getCurrentUser twoAccountsServer OAuthGates.accessToken = .ok twoAccountsUser := by
    decide +kernel
  have hlink : twoAccountsServer.db.linkOf twoAccountsUser.id "github" =
      some ⟨1, 1, "github", "17", none, 0⟩ := by
    decide +kernel
  exact unlinkProvider_of_guard huser hlink (by decide +kernel)

theorem unlink_removes_provider_iff_sample :
    (∀ t ∈ Runs.trace (step asciiEnv) (freshServer 0) unlinkOnce,
      ∀ userId provider, Unlinks t userId provider →
        ProviderGone asciiEnv t.target userId provider) ↔
    ∀ t ∈ Runs.trace (step asciiEnv) (freshServer 0) unlinkOnce,
      ∀ userId provider, Unlinks t userId provider →
        ¬ TwoLinks t.source.db userId provider :=
  unlink_removes_provider_iff (freshServer_initial 0) (Runs.run_trace _ _ _)

/-- One unlink later the second account is still there. -/
theorem second_account_survives :
    ∃ h s, ApiRun asciiEnv (freshServer 0) h s ∧ ∃ t ∈ h, Unlinks t 1 "github" ∧
      ¬ ProviderGone asciiEnv t.target 1 "github" := by
  have hstep : Step asciiEnv twoAccountsServer
      (.request (.unlinkProvider "github" OAuthGates.accessToken), .ok .noContent)
      { twoAccountsServer with db := twoAccountsServer.db.deleteLink 1 } :=
    twoAccountsServer_unlinks
  refine ⟨_, _, (Runs.run_trace (step asciiEnv) (freshServer 0) twoAccountsActions).snoc hstep, _,
    List.mem_append_right _ (List.mem_singleton_self _), ?_, ?_⟩
  · exact ⟨OAuthGates.accessToken, twoAccountsUser, rfl, by decide +kernel, rfl⟩
  · intro hgone
    have hleft : (⟨2, 1, "github", "18", none, 0⟩ : OAuthAccount) ∈
        (twoAccountsServer.db.deleteLink 1).oauthAccounts := by
      decide +kernel
    exact hgone.rows _ hleft ⟨rfl, rfl⟩

end FastApiAuth.UnlinkCompleteness
