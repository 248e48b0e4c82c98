import FastApiAuth.OAuthGates
import FastApiAuth.SignIns

/-!
# Whom the scheduled cleanup deletes

The task deletes the rows that are unverified and older than seven days, meaning
accounts that registered and were never used. A row can be in use and unverified:
oauth_callback signs in rows it finds by e-mail without looking at the flag, a
refresh does not look at it either, and an admin may clear it.
-/

namespace FastApiAuth.Cleanup

set_option autoImplicit false

open Database OAuthGates TokenBinding

/-- An execution of the task takes the row `u` away. -/
structure Deletes (t : ApiTransition) (u : User) : Prop where
  cleanup : t.label.1 = .cleanup
  present : u ∈ t.source.db.users
  gone : u ∉ t.target.db.users

/-- Neither in `s` nor in any state before it was the row verified, and no access or
refresh token was ever signed for it. -/
structure NeverUsed (before : List ApiTransition) (s : Server) (userId : Nat) : Prop where
  unverified : ∀ u ∈ s.db.users, u.id = userId → u.isVerified = false
  unverified_before : ∀ t ∈ before, ∀ u ∈ t.source.db.users, u.id = userId → u.isVerified = false
  unsigned : ∀ i ∈ s.issued, IsSession i → i.owner ≠ userId

/-- An action that leaves the row `userId` in use and unverified. -/
inductive HidesUse (env : Env) (s : Server) : Action → Nat → Prop where
  | signsIn {r : Request} {user : User} :
      SignsIn env s r user → user.isVerified = false → HidesUse env s (.request r) user.id
  | clearsFlag {credentials : Token} {payload : AdminUserUpdate} {admin user : User} :
      requirePermissions s credentials ["users:write"] = .ok admin → user ∈ s.db.users →
      user.isVerified = true → payload.isVerified = some false →
      HidesUse env s (.request (.updateUserStatus credentials user.id payload)) user.id

section Steps

variable {env : Env} {s s' : Server} {r : Request} {user : User} {l : Action × Reply}
variable {before : List ApiTransition}

theorem answers_pair (env : Env) (user : User) (s : Server) :
    ∃ i ∈ (s.answerWithTokens env user).2.issued, IsSession i ∧ i.owner = user.id := by
  obtain ⟨accessToken, refreshToken, _, _, _, hi, _, htype, _⟩ := answerWithTokens_spec env user s
  refine ⟨⟨accessToken, user.id⟩, ?_, .inl htype, rfl⟩
  rw [hi]
  simp

theorem answers_active (env : Env) (s : Server) (hactive : user.isActive = true) :
    ∃ i ∈ (answerActive env user s).2.issued, IsSession i ∧ i.owner = user.id := by
  unfold answerActive
  rw [if_neg (by simp [hactive])]
  exact answers_pair env user s

/-- Where the verified flag is not asked for, nothing is left to refuse the tokens. -/
theorem handle_signs_in (h : SignsIn env s r user) (hunverified : user.isVerified = false) :
    ∃ i ∈ (handle env r s).2.issued, IsSession i ∧ i.owner = user.id := by
  cases h with
  | login _ _ hverified _ => rw [hunverified] at hverified; cases hverified
  | signedUp _ _ _ => cases hunverified
  | @refreshed refreshToken user huser =>
    change ∃ i ∈ (refreshAccessToken env refreshToken s).2.issued, _
    unfold refreshAccessToken
    rw [huser]
    exact ⟨_, List.mem_append_right _ (List.mem_singleton_self _), .inl rfl, rfl⟩
  | @linkMode provider state stateValue identity linkingUserId user hclient hstored hmode hown
      huser =>
    change ∃ i ∈ (oauthCallback env provider state (some identity) s).2.issued, _
    rw [oauthCallback_link hclient hstored hmode]
    have huser' : (consumeState state s).db.userById linkingUserId = some user := huser
    unfold callbackLink
    cases hlink : (consumeState state s).db.linkByIdentity provider identity.providerUserId with
    | some existing =>
      have hsame : ¬ ((existing.userId : Int) ≠ linkingUserId) := not_not.mpr (hown _ hlink)
      simp only [if_neg hsame, huser']
      exact answers_pair env user _
    | none =>
      obtain ⟨db, hins⟩ : ∃ db, (consumeState state s).db.insertLink user.id provider
          identity.providerUserId identity.email (consumeState state s).now = some db :=
        insertLink_of_free (linkByIdentity_none hlink) ⟨user, (userById_some huser).1, rfl⟩
      simp only [huser', hins]
      exact answers_pair env user _
  | @linked provider state stateValue identity a user hclient hstored hmode hlink huser hactive =>
    change ∃ i ∈ (oauthCallback env provider state (some identity) s).2.issued, _
    rw [oauthCallback_login hclient hstored hmode]
    have hlink' : (consumeState state s).db.linkByIdentity provider identity.providerUserId =
        some a := hlink
    have huser' : (consumeState state s).db.userById a.userId = some user := huser
    unfold callbackLogin
    simp only [hlink', huser']
    exact answers_active env _ hactive
  | @byEmail provider state email identity user hcall hemail huser hactive =>
    change ∃ i ∈ (oauthCallback env provider state (some identity) s).2.issued, _
    obtain ⟨stateValue, hstored, hmode⟩ := hcall.stored
    rw [oauthCallback_login hcall.client hstored hmode]
    have hlink' : (consumeState state s).db.linkByIdentity provider identity.providerUserId =
        none := hcall.unlinked
    have huser' : (consumeState state s).db.userByEmail email = some user := huser
    obtain ⟨db, hins⟩ : ∃ db, (consumeState state s).db.insertLink user.id provider
        identity.providerUserId identity.email (consumeState state s).now = some db :=
      insertLink_of_free (linkByIdentity_none hlink') ⟨user, (userByEmail_some huser).1, rfl⟩
    rw [hemail] at hins
    unfold callbackLogin attachIdentity
    simp only [hlink', hemail, huser', hins]
    exact answers_active env _ hactive

/-- A row of an id given out just now has no history. -/
theorem NeverUsed.of_new {userId : Nat} (hc : s.db.Consistent)
    (hids : ∀ t ∈ before, ∀ u ∈ t.source.db.users, u.id < s.db.nextUserId)
    (howners : ∀ i ∈ s.issued, i.owner < s.db.nextUserId) (hid : userId = s.db.nextUserId) :
    NeverUsed before s userId := by
  subst hid
  refine ⟨fun u hu he => ?_, fun t ht u hu he => ?_, fun i hi _ he => ?_⟩
  · exact absurd he (hc.userIds_lt u hu).ne
  · exact absurd he (hids t ht u hu).ne
  · exact absurd he (howners i hi).ne

/-- What an unverified row after the step was before it. -/
theorem unverified_origin {a : Action} {u' : User} (h : RowOrigin env s a u')
    (hunverified : u'.isVerified = false) (hnot : ¬ HidesUse env s a u'.id) :
    (∃ u ∈ s.db.users, u.id = u'.id ∧ u.isVerified = false) ∨
      (u'.id = s.db.nextUserId ∧
        ∃ clientHost body broker, a = .request (.register clientHost body broker)) := by
  cases h with
  | kept hu => exact .inl ⟨_, hu, rfl, hunverified⟩
  | passwordReset hu _ _ _ | emailChanged hu _ _ _ | passwordChanged hu _ _ _ _ | deactivated hu =>
    exact .inl ⟨_, hu, rfl, hunverified⟩
  | registered _ _ _ _ => exact .inr ⟨rfl, _, _, _, rfl⟩
  | signedUp _ _ _ | verified _ _ _ _ _ => cases hunverified
  | @statusUpdated _ payload _ u hu hadmin =>
    refine .inl ⟨u, hu, rfl, ?_⟩
    cases hp : payload.isVerified with
    | none => simpa [AdminUserUpdate.apply, hp] using hunverified
    | some isVerified =>
      have hfalse : isVerified = false := by
        simpa [AdminUserUpdate.apply, hp] using hunverified
      by_contra hverified
      exact hnot (.clearsFlag hadmin hu (by simpa using hverified) (hfalse ▸ hp))

/-- A step that hides no use of the row keeps an unverified row unused. -/
theorem step_never_used {u' : User} (hc : s.db.Consistent)
    (hids : ∀ t ∈ before, ∀ u ∈ t.source.db.users, u.id < s.db.nextUserId)
    (howners : ∀ i ∈ s.issued, i.owner < s.db.nextUserId)
    (hunused : ∀ u ∈ s.db.users, u.id = u'.id → u.isVerified = false → NeverUsed before s u'.id)
    (hstep : Step env s l s') (hnot : ¬ HidesUse env s l.1 u'.id)
    (hu' : u' ∈ s'.db.users) (hunverified : u'.isVerified = false) :
    NeverUsed (before ++ [⟨s, l, s'⟩]) s' u'.id := by
  have horigin := unverified_origin (step_row_origin hc hstep hu') hunverified hnot
  have hbefore : NeverUsed before s u'.id := by
    rcases horigin with ⟨u, hu, hid, hun⟩ | ⟨hnew, _⟩
    · exact hunused u hu hid hun
    · exact .of_new hc hids howners hnew
  refine ⟨fun u hu he => ?_, fun t ht u hu he => ?_, fun i hi hsession he => ?_⟩
  · rwa [(step_consistent hc hstep).eq_of_id hu hu' he]
  · rcases List.mem_append.mp ht with ht | ht
    · exact hbefore.unverified_before t ht u hu he
    · rw [List.mem_singleton.mp ht] at hu
      exact hbefore.unverified u hu he
  · rcases step_signs hstep hi hsession with hi | ⟨r, user, hr, hsigns, howner, _⟩
    · exact hbefore.unsigned i hi hsession he
    · have hid : user.id = u'.id := howner.symm.trans he
      rcases hsigns.mem_or_new with hmem | ⟨hnew, provider, state, identity, rfl⟩
      · exact hnot (hr ▸ hid ▸ .signsIn hsigns (hbefore.unverified user hmem hid))
      · rcases horigin with ⟨u, hu, hid', _⟩ | ⟨_, _, _, _, hregister⟩
        · exact absurd (hid'.trans (hid.symm.trans hnew)) (hc.userIds_lt u hu).ne
        · cases hr.symm.trans hregister

end Steps

theorem Deletes.unverified {env : Env} {t : ApiTransition} {u : User} (h : Deletes t u)
    (hstep : Step env t.source t.label t.target) : u.isVerified = false := by
  have htarget : t.target = cleanupUnverifiedUsers t.source := by
    have hs := (congrArg Prod.snd hstep).symm
    rw [h.cleanup] at hs
    exact hs
  have hgone := h.gone
  rw [htarget] at hgone
  have hstale : staleAt t.source.now u = true := by
    by_contra hfresh
    exact hgone (mem_deleteUsers.mpr ⟨h.present, by simpa using hfresh⟩)
  simp only [staleAt, Bool.and_eq_true, Bool.not_eq_true'] at hstale
  exact hstale.1

/-- In every run, a row that an execution of the task deletes was never used if and
only if no action before hid a use of it. -/
theorem deleted_never_used_iff {env : Env} {s₀ s : Server} {h before : List ApiTransition}
    {t : ApiTransition} {u : User} (h₀ : Initial s₀) (r : ApiRun env s₀ h s)
    (hp : before ++ [t] <+: h) (hdel : Deletes t u) :
    NeverUsed before t.source u.id ↔
      ∀ t' ∈ before, ¬ HidesUse env t'.source t'.label.1 u.id := by
  obtain ⟨rb, hstep⟩ := r.of_prefix_snoc hp
  constructor
  · intro hunused t' ht' hides
    obtain ⟨_, _, _, hstep'⟩ := rb.step_of_mem ht'
    have hs : t'.target = (step env t'.source t'.label.1).2 := (congrArg Prod.snd hstep').symm
    generalize t'.label.1 = a at hs hides
    generalize hid : u.id = userId at hunused hides
    cases hides with
    | signsIn hsigns hunverified =>
      obtain ⟨i, hi, hsession, howner⟩ := handle_signs_in hsigns hunverified
      exact hunused.unsigned i (ApiRun.issued_of_mem rb ht' (hs ▸ hi)) hsession howner
    | clearsFlag _ hmem hverified _ =>
      rw [hunused.unverified_before t' ht' _ hmem rfl] at hverified
      cases hverified
  · intro hnot
    have hinv : ∀ v ∈ t.source.db.users, v.id = u.id → v.isVerified = false →
        NeverUsed before t.source u.id := by
      refine rb.guarded_invariant
        (I := fun h s => ∀ v ∈ s.db.users, v.id = u.id → v.isVerified = false →
          NeverUsed h s u.id)
        (G := fun _ t => ¬ HidesUse env t.source t.label.1 u.id) ?_ ?_
        (Runs.guarded_of_forall_mem hnot)
      · intro v hv hid hunverified
        refine ⟨fun w hw hw' => ?_, by simp, by simp [h₀.issued]⟩
        rwa [h₀.consistent.eq_of_id hw hv (hw'.trans hid.symm)]
      · intro h s l s' r hinv hstep hnot v hv hid hunverified
        have hids := ApiRun.ids_used h₀.consistent h₀.issued r
        rw [← hid] at hnot ⊢
        refine step_never_used (ApiRun.consistent h₀.consistent r) hids.1 hids.2 ?_ hstep hnot hv
          hunverified
        intro w hw hwid hun
        exact hid ▸ hinv w hw (hwid.trans hid) hun
    exact hinv u hdel.present rfl (hdel.unverified hstep)

/-- Somebody registers, never opens the mail, signs in by OAuth and comes back after
eight days. -/
def oauthActions : List Action :=
  [.request (.register "localhost" ⟨"a@example.com", "Passw0rd"⟩ true),
    .request (.oauthLogin "github"),
    .request (.oauthCallback "github" "state2" (some ⟨"17", some "a@example.com"⟩)),
    .wait (8 * 24 * 60 * 60)]

/-- The second user verifies the address; the first, an admin, clears the flag. -/
def adminActions : List Action :=
  [.request (.register "localhost" ⟨"admin@example.com", "Passw0rd"⟩ true),
    .grantBySql 1 "admin",
    .request (.verifyEmail ⟨"1", "email_verification", "uuid1", 0, 1800⟩),
    .request (.login "localhost" ⟨"admin@example.com", "Passw0rd"⟩),
    .request (.register "localhost" ⟨"b@example.com", "Passw0rd"⟩ true),
    .request (.verifyEmail ⟨"2", "email_verification", "uuid5", 0, 1800⟩),
    .request (.updateUserStatus ⟨"admin@example.com", "access", "uuid2", 0, 1800⟩ 2
      ⟨none, some false⟩),
    .wait (8 * 24 * 60 * 60)]

/-- The state after the actions, and the history that led there. -/
def afterActions (actions : List Action) : Server :=
  Runs.exec (step asciiEnv) (freshServer 0) actions

def historyOf (actions : List Action) : List ApiTransition :=
  Runs.trace (step asciiEnv) (freshServer 0) actions

def cleanupAfter (actions : List Action) : ApiTransition :=
  ⟨afterActions actions, (.cleanup, .ok .noContent), cleanupUnverifiedUsers (afterActions actions)⟩

theorem run_cleanupAfter (actions : List Action) :
    ApiRun asciiEnv (freshServer 0) (historyOf actions ++ [cleanupAfter actions])
      (cleanupUnverifiedUsers (afterActions actions)) :=
  .snoc (Runs.run_trace (step asciiEnv) (freshServer 0) actions) rfl

def oauthUser : User := ⟨1, "a@example.com", some "Passw0rd$0", true, false, 0⟩

def resetUser : User := ⟨2, "b@example.com", some "Passw0rd$4", true, false, 0⟩

theorem oauthUser_deleted : Deletes (cleanupAfter oauthActions) oauthUser :=
  ⟨rfl, by decide +kernel, by decide +kernel⟩

theorem deleted_never_used_iff_sample :
    NeverUsed (historyOf oauthActions) (afterActions oauthActions) 1 ↔
      ∀ t' ∈ historyOf oauthActions, ¬ HidesUse asciiEnv t'.source t'.label.1 1 :=
  deleted_never_used_iff (u := oauthUser) (freshServer_initial 0) (run_cleanupAfter oauthActions)
    (List.prefix_refl _) oauthUser_deleted

/-- The task deletes an account that signed in through OAuth, and one that was verified. -/
theorem cleanup_deletes_used :
    (∃ before t s u, ApiRun asciiEnv (freshServer 0) (before ++ [t]) s ∧ Deletes t u ∧
      ∃ i ∈ t.source.issued, IsSession i ∧ i.owner = u.id) ∧
    ∃ before t s u, ApiRun asciiEnv (freshServer 0) (before ++ [t]) s ∧ Deletes t u ∧
      ∃ t' ∈ before, ∃ v ∈ t'.source.db.users, v.id = u.id ∧ v.isVerified = true := by
  constructor
  · refine ⟨_, _, _, oauthUser, run_cleanupAfter oauthActions, oauthUser_deleted,
      ⟨⟨"a@example.com", "access", "uuid3", 0, 1800⟩, 1⟩, ?_, .inl rfl, rfl⟩
    decide +kernel
  · refine ⟨_, _, _, resetUser, run_cleanupAfter adminActions, ⟨rfl, ?_, ?_⟩,
      _, List.mem_of_getElem? (i := 6) rfl,
      ⟨2, "b@example.com", some "Passw0rd$4", true, true, 0⟩, ?_, rfl, rfl⟩
    · decide +kernel
    · decide +kernel
    · decide +kernel

end FastApiAuth.Cleanup
