import FastApiAuth.OAuthGates
import FastApiAuth.Origins

/-!
# Canonical e-mail addresses

register_user, login_user and forgot_password pass an address through EmailStr and lower it
before they look it up; oauth_callback looks for the one the provider asserts as it is, and
stores it so. All of them find a row under every spelling of its address just when there is no
second spelling, and that is not the case as soon as the address has a letter with two cases.
-/

namespace FastApiAuth.CanonicalEmails

set_option autoImplicit false

open Database OAuthGates

/-- The two strings differ at most in the case of ASCII letters. -/
def SameUpToAsciiCase (a b : String) : Prop :=
  a.toList.map Char.toLower = b.toList.map Char.toLower

/-- What is used of `str.lower`. -/
structure LawfulLower (env : Env) : Prop where
  idem : ∀ text, env.lower (env.lower text) = env.lower text
  ascii : ∀ a b, SameUpToAsciiCase a b → env.lower a = env.lower b

/-- The lookup of register_user, login_user and forgot_password, behind the check of the body. -/
def normalisedLookup (env : Env) (db : Database) (email : String) : Option User :=
  (env.emailStr email).bind fun email => db.userByEmail (env.lower email)

/-- The lookup of oauth_callback. -/
def assertedLookup (db : Database) (email : String) : Option User := db.userByEmail email

/-- `found` ranges over the spellings of a stored address that differ in case only. -/
structure Canonical (env : Env) (db : Database) : Prop where
  stored : ∀ u ∈ db.users, env.lower u.email = u.email
  distinct : ∀ u ∈ db.users, ∀ v ∈ db.users, SameUpToAsciiCase u.email v.email → u = v
  found : ∀ u ∈ db.users, ∀ spelling, env.lower spelling = env.lower u.email →
    normalisedLookup env db spelling = some u ∧ assertedLookup db spelling = some u

/-- The address is lower-case, it is its only spelling, and EmailStr gives it back up to case. -/
structure HasOneSpelling (env : Env) (email : String) : Prop where
  lower : env.lower email = email
  sole : ∀ spelling, env.lower spelling = email → spelling = email
  accepted : ∃ normalised, env.emailStr email = some normalised ∧ env.lower normalised = email

/-- The request gives a row this address. -/
inductive Stores (env : Env) (s : Server) : Action → String → Prop where
  | registered {clientHost email : String} {body : UserCreate} {broker : Bool}
      {password : NewPassword env} : (registerLimiter.call clientHost s).1 = .ok () →
      env.emailStr body.email = some email →
      validateNewPassword env body.password = .ok password →
      (∀ u ∈ s.db.users, u.email ≠ env.lower email) →
      Stores env s (.request (.register clientHost body broker)) (env.lower email)
  | renamed {credentials : Token} {text email : String} {user : User} :
      getCurrentUser s credentials = .ok user → env.emailStr text = some email →
      (∀ u ∈ s.db.users, u.id ≠ user.id → u.email ≠ env.lower email) →
      Stores env s (.request (.updateCurrentUser credentials (some text))) (env.lower email)
  | signedUp {provider state email : String} {identity : Identity} :
      UnlinkedCallback env s provider state identity .login → identity.email = some email →
      (∀ u ∈ s.db.users, u.email ≠ email) →
      Stores env s (.request (.oauthCallback provider state (some identity))) email

section Tables

variable {env : Env} {db : Database}

/-- The stored addresses decide. -/
theorem canonical_iff (hlower : LawfulLower env) (hc : db.Consistent) :
    Canonical env db ↔ ∀ u ∈ db.users, HasOneSpelling env u.email := by
  constructor
  · intro hcanon u hu
    have hstored := hcanon.stored u hu
    refine ⟨hstored, ?_, ?_⟩
    · intro spelling hspelling
      have hfound := (hcanon.found u hu spelling (hspelling.trans hstored.symm)).2
      exact (userByEmail_some hfound).2.symm
    · obtain ⟨normalised, haccepted, hfound⟩ :=
        Option.bind_eq_some_iff.mp (hcanon.found u hu u.email rfl).1
      exact ⟨normalised, haccepted, (userByEmail_some hfound).2.symm⟩
  · intro hone
    refine ⟨fun u hu => (hone u hu).lower, ?_, ?_⟩
    · intro u hu v hv hsame
      have he : u.email = v.email := by
        rw [← (hone u hu).lower, ← (hone v hv).lower]
        exact hlower.ascii _ _ hsame
      exact hc.eq_of_email hu hv he
    · intro u hu spelling hspelling
      obtain rfl := (hone u hu).sole spelling (hspelling.trans (hone u hu).lower)
      obtain ⟨normalised, haccepted, he⟩ := (hone u hu).accepted
      constructor
      · unfold normalisedLookup
        rw [haccepted, Option.bind_some, he]
        exact hc.userByEmail_of_mem hu rfl
      · exact hc.userByEmail_of_mem hu rfl

end Tables

section Steps

variable {env : Env} {s s' : Server} {l : Action × Reply}

/-- A row has its address from a row before the step, or the step stores it. -/
theorem email_kept_or_stored {a : Action} {u' : User} (h : RowOrigin env s a u') :
    (∃ u ∈ s.db.users, u.email = u'.email) ∨ Stores env s a u'.email := by
  cases h with
  | kept hu => exact .inl ⟨u', hu, rfl⟩
  | @verified _ _ u hu _ _ _ _ | @passwordReset _ _ _ _ u hu _ _ _
  | @passwordChanged _ _ u _ _ hu _ _ _ _ | @deactivated _ u hu | @statusUpdated _ _ _ u hu _ =>
    exact .inl ⟨u, hu, rfl⟩
  | registered hpass hemail hpassword hfree =>
    exact .inr (.registered hpass hemail hpassword hfree)
  | emailChanged _ huser hemail hfree => exact .inr (.renamed huser hemail hfree)
  | signedUp hcall hemail hfree => exact .inr (.signedUp hcall hemail hfree)

/-- A free asserted address gets a row of its own, spelt as asserted. -/
theorem callback_signs_up {provider state email : String} {identity : Identity}
    (hcall : UnlinkedCallback env s provider state identity .login)
    (hemail : identity.email = some email) (hfree : s.db.userByEmail email = none) :
    ∃ u ∈ (oauthCallback env provider state (some identity) s).2.db.users, u.email = email := by
  obtain ⟨stateValue, hstored, hmode⟩ := hcall.stored
  rw [oauthCallback_login hcall.client hstored hmode]
  obtain ⟨user, db, hins⟩ : ∃ user db, s.db.insertUser email none true true s.now [] =
      some (user, db) := insertUser_of_free (Tables.lookup_eq_none_iff.mp hfree)
  obtain ⟨db', hlink⟩ : ∃ db', db.insertLink user.id provider identity.providerUserId
      identity.email s.now = some db' := exists_link_of_insertUser hins hcall.unlinked
  have hattach : attachIdentity env provider identity user { consumeState state s with db } =
      answerActive env user { consumeState state s with db := db' } := by
    unfold attachIdentity
    dsimp only [consumeState]
    rw [hlink]
  have hnone : (consumeState state s).db.linkByIdentity provider identity.providerUserId = none :=
    hcall.unlinked
  have hfree' : (consumeState state s).db.userByEmail email = none := hfree
  have hins' : (consumeState state s).db.insertUser email none true true
      (consumeState state s).now [] = some (user, db) := hins
  unfold callbackLogin
  simp only [hnone, hemail, hfree', hins', hattach]
  obtain ⟨hdb, _⟩ := answerActive_spec env user { consumeState state s with db := db' }
  rw [hdb]
  obtain ⟨_, huser, rfl⟩ := insertUser_some hins
  obtain ⟨_, _, rfl⟩ := insertLink_some hlink
  exact ⟨user, by simp, by rw [huser]⟩

theorem stores_row {email : String} (h : Stores env s l.1 email) (hstep : Step env s l s') :
    ∃ u ∈ s'.db.users, u.email = email := by
  obtain ⟨a, reply⟩ := l
  have hs : s' = (step env s a).2 := (congrArg Prod.snd hstep).symm
  rw [hs]
  cases h with
  | @registered _ _ _ broker _ hpass hemail hpassword hfree =>
    obtain ⟨u, hu, _, he⟩ := register_creates broker hpass hemail hpassword
      (Tables.lookup_eq_none_iff.mpr hfree)
    exact ⟨u, hu, he⟩
  | renamed huser hemail hfree => exact updateCurrentUser_renames huser hemail hfree
  | signedUp hcall hemail hfree =>
    exact callback_signs_up hcall hemail (Tables.lookup_eq_none_iff.mpr hfree)

theorem step_canonical_iff (hlower : LawfulLower env) (hc : s.db.Consistent)
    (hcanon : Canonical env s.db) (hstep : Step env s l s') :
    Canonical env s'.db ↔ ∀ email, Stores env s l.1 email → HasOneSpelling env email := by
  rw [canonical_iff hlower (step_consistent hc hstep)]
  rw [canonical_iff hlower hc] at hcanon
  constructor
  · intro hone email hstores
    obtain ⟨u, hu, rfl⟩ := stores_row hstores hstep
    exact hone u hu
  · intro hstores u' hu'
    rcases email_kept_or_stored (step_row_origin hc hstep hu') with ⟨u, hu, he⟩ | hnew
    · exact he ▸ hcanon u hu
    · exact hstores _ hnew

end Steps

/-- In a run from canonical tables every state is canonical if and only if every address that
a step stores has one spelling. -/
theorem emails_canonical_iff {env : Env} {s₀ s : Server} {h : List ApiTransition}
    (hlower : LawfulLower env) (h₀ : Initial s₀) (hcanon : Canonical env s₀.db)
    (r : ApiRun env s₀ h s) :
    (∀ h₁ s₁, h₁ <+: h → ApiRun env s₀ h₁ s₁ → Canonical env s₁.db) ↔
      ∀ t ∈ h, ∀ email, Stores env t.source t.label.1 email → HasOneSpelling env email := by
  rw [Runs.Run.invariant_iff_guarded (I := fun _ s => Canonical env s.db)
    (G := fun _ t => ∀ email, Stores env t.source t.label.1 email → HasOneSpelling env email)
    hcanon ?_ r]
  · constructor
    · intro hg t ht
      obtain ⟨before, hp, _⟩ := r.step_of_mem ht
      exact hg before t hp
    · exact Runs.guarded_of_forall_mem
  · intro h s l s' r hcanon hstep
    exact step_canonical_iff hlower (ApiRun.consistent h₀.consistent r) hcanon hstep

theorem toLower_toLower (c : Char) : c.toLower.toLower = c.toLower := by
  by_cases hupper : c.val ≥ 'A'.val ∧ c.val ≤ 'Z'.val
  · have hlow : c.toLower.val = c.val + 32 := congrArg Char.val (dif_pos hupper)
    have hnot : ¬ (c.toLower.val ≥ 'A'.val ∧ c.toLower.val ≤ 'Z'.val) := by
      rw [hlow]
      obtain ⟨hA, hZ⟩ := hupper
      simp only [ge_iff_le, UInt32.le_iff_toNat_le, UInt32.toNat_add] at hA hZ ⊢
      intro h
      have hA' : 65 ≤ c.val.toNat := hA
      have hZ' : c.val.toNat ≤ 90 := hZ
      have h' : (c.val.toNat + 32) % 4294967296 ≤ 90 := h.2
      omega
    exact dif_neg hnot
  · have hsame : c.toLower = c := dif_neg hupper
    rw [hsame, hsame]

theorem asciiEnv_lawfulLower : LawfulLower asciiEnv := by
  constructor
  · intro text
    have hcomp : Char.toLower ∘ Char.toLower = Char.toLower := funext toLower_toLower
    simp [asciiEnv, hcomp]
  · intro a b hsame
    exact congrArg String.ofList hsame

/-- A registered address comes back from a provider with two capital letters. -/
def spellingActions : List Action :=
  [.request (.register "localhost" ⟨"victim@example.com", "Passw0rd"⟩ true),
    .request (.oauthLogin "github"),
    .request (.oauthCallback "github" "state2" (some ⟨"17", some "Victim@Example.com"⟩))]

theorem emails_canonical_iff_sample :
    (∀ h₁ s₁, h₁ <+: Runs.trace (step asciiEnv) (freshServer 0) spellingActions →
      ApiRun asciiEnv (freshServer 0) h₁ s₁ → Canonical asciiEnv s₁.db) ↔
    ∀ t ∈ Runs.trace (step asciiEnv) (freshServer 0) spellingActions, ∀ email,
      Stores asciiEnv t.source t.label.1 email → HasOneSpelling asciiEnv email :=
  emails_canonical_iff asciiEnv_lawfulLower (freshServer_initial 0)
    ⟨by simp [freshServer_users], by simp [freshServer_users], by simp [freshServer_users]⟩
    (Runs.run_trace _ _ _)

/-- The second row is not lower-case, equals the first up to case, and no lookup under
a lowered address leads to it. -/
theorem provider_spelling_duplicates :
    ∃ h s, ApiRun asciiEnv (freshServer 0) h s ∧ ∃ u ∈ s.db.users, ∃ v ∈ s.db.users,
      u ≠ v ∧ SameUpToAsciiCase u.email v.email ∧ asciiEnv.lower v.email ≠ v.email ∧
      normalisedLookup asciiEnv s.db v.email = some u ∧ assertedLookup s.db v.email = some v := by
  refine ⟨_, _, Runs.run_trace (step asciiEnv) (freshServer 0) spellingActions,
    ⟨1, "victim@example.com", some "Passw0rd$0", true, false, 0⟩, ?_,
    ⟨2, "Victim@Example.com", none, true, true, 0⟩, ?_, ?_, ?_, ?_, ?_, ?_⟩
  · decide +kernel
  · decide +kernel
  · decide
  · unfold SameUpToAsciiCase
    decide +kernel
  · decide +kernel
  · decide +kernel
  · decide +kernel

end FastApiAuth.CanonicalEmails
