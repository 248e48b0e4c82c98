import FastApiAuth.Dependencies

/-!
# What login and forgot-password say about an address

Two deployments with one clock and one Redis, whatever rows they have, and a sequence of
sign-ins and reset requests for an address, where no password matches a stored hash of it. They
answer alike but for one thing: a password with a lone surrogate in it cannot be encoded, so
that its check raises where there is a hash to check it against.
-/

namespace FastApiAuth.AccountOracle

set_option autoImplicit false

open Database Runs

section Laws

variable {env : Env} {address : String} {rows₁ rows₂ : List User} {s s₁ s₂ : Server}
variable {email clientHost : String} {password : PyStr} {limiter : RateLimiter}

/-- What the request calls an e-mail comes out as `address`, or is rejected. -/
def MeansAddress (env : Env) (address email : String) : Prop :=
  ∀ normalised, env.emailStr email = some normalised → env.lower normalised = address

def MatchesNone (env : Env) (address : String) (rows : List User) (password : PyStr) : Prop :=
  ∀ u ∈ rows, u.email = address → ∀ hash, u.hashedPassword = some hash →
    verifyPassword env password hash ≠ some true

/-- Sign-ins and reset requests for the address, at any times and from any hosts; the queue
takes every mail. -/
def Probes (env : Env) (address : String) (rows : List User) : Action → Prop
  | .request (.login _ body) =>
    MeansAddress env address body.email ∧ MatchesNone env address rows body.password
  | .request (.forgotPassword _ body broker) =>
    MeansAddress env address body.email ∧ broker = true
  | .wait _ => True
  | _ => False

/-- There is a hash to check a password for the address against. -/
def HasPassword (address : String) (rows : List User) : Prop :=
  ∃ u, Tables.lookup User.email address rows = some u ∧ u.hashedPassword ≠ none

/-- A sign-in that the limiter and the check of the body let through to the handler, with a
password that cannot be encoded. -/
def SendsSurrogate (env : Env) (s : Server) (a : Action) : Prop :=
  ∃ clientHost body, a = .request (.login clientHost body) ∧
    (loginLimiter.call clientHost s).1 = .ok () ∧ env.emailStr body.email ≠ none ∧
    body.password.encodable = false

/-- What the answers may depend on is the same on both sides; the rows may differ. -/
structure Alike (rows₁ rows₂ : List User) (s₁ s₂ : Server) : Prop where
  now : s₁.now = s₂.now
  redis : s₁.redis = s₂.redis
  left : s₁.db.users = rows₁
  right : s₂.db.users = rows₂

/-- The replies are one under the condition `C` only, and the states are alike in any case. -/
def Agree (C : Prop) (rows₁ rows₂ : List User) (o₁ o₂ : Outcome) : Prop :=
  (o₁.1 = o₂.1 ↔ C) ∧ Alike rows₁ rows₂ o₁.2 o₂.2

/-- A missing row, a row without a password and a wrong password are one answer. -/
theorem loginUser_rejected (hnone : MatchesNone env address s.db.users password)
    (hemail : env.lower email = address)
    (hchecked : password.encodable = true ∨ ¬ HasPassword address s.db.users) :
    loginUser env email password s = (.error invalidCredentials, s) := by
  unfold loginUser
  rw [hemail]
  split
  · rfl
  rename_i user huser
  obtain ⟨hmem, he⟩ := userByEmail_some huser
  split
  · rfl
  rename_i hash hhash
  have hhas : HasPassword address s.db.users := by
    refine ⟨user, huser, ?_⟩
    rw [hhash]
    exact nofun
  have hencodable : password.text? ≠ none := by
    rw [ne_eq, PyStr.text?_eq_none_iff, Bool.not_eq_false]
    exact hchecked.resolve_right (not_not_intro hhas)
  split
  · rename_i hraises
    exact absurd (Option.map_eq_none_iff.mp hraises) hencodable
  · rfl
  · rename_i htrue
    exact absurd htrue (hnone user hmem he hash hhash)

/-- The check of a password that cannot be encoded raises if it is made. -/
theorem loginUser_raises (hemail : env.lower email = address)
    (hhas : HasPassword address s.db.users) (hsurrogate : password.encodable = false) :
    loginUser env email password s = (.error internalServerError, s) := by
  obtain ⟨user, huser, hpassword⟩ := hhas
  have hlookup : s.db.userByEmail address = some user := huser
  obtain ⟨hash, hhash⟩ := Option.ne_none_iff_exists'.mp hpassword
  have hverify : verifyPassword env password hash = none := by
    unfold verifyPassword
    rw [(PyStr.text?_eq_none_iff password).mpr hsurrogate]
    rfl
  unfold loginUser
  simp only [hemail, hlookup, hhash, hverify]

theorem loginUser_agree (h : Alike rows₁ rows₂ s₁ s₂) (hemail : env.lower email = address)
    (hleft : MatchesNone env address rows₁ password)
    (hright : MatchesNone env address rows₂ password) :
    Agree (password.encodable = false → (HasPassword address rows₁ ↔ HasPassword address rows₂))
      rows₁ rows₂ (loginUser env email password s₁) (loginUser env email password s₂) := by
  have hdiffer : internalServerError ≠ invalidCredentials := by decide
  obtain ⟨_, _, rfl, rfl⟩ := id h
  cases hpassword : password.encodable with
  | true =>
    rw [loginUser_rejected hleft hemail (.inl hpassword),
      loginUser_rejected hright hemail (.inl hpassword)]
    exact ⟨iff_of_true rfl nofun, h⟩
  | false =>
    by_cases hhas₁ : HasPassword address s₁.db.users
    · rw [loginUser_raises hemail hhas₁ hpassword]
      by_cases hhas₂ : HasPassword address s₂.db.users
      · rw [loginUser_raises hemail hhas₂ hpassword]
        exact ⟨iff_of_true rfl fun _ => iff_of_true hhas₁ hhas₂, h⟩
      · rw [loginUser_rejected hright hemail (.inr hhas₂)]
        refine ⟨iff_of_false ?_ ?_, h⟩
        · intro heq
          exact hdiffer (Except.error.inj heq)
        · intro hsame
          exact hhas₂ ((hsame rfl).mp hhas₁)
    · rw [loginUser_rejected hleft hemail (.inr hhas₁)]
      by_cases hhas₂ : HasPassword address s₂.db.users
      · rw [loginUser_raises hemail hhas₂ hpassword]
        refine ⟨iff_of_false ?_ ?_, h⟩
        · intro heq
          exact hdiffer (Except.error.inj heq).symm
        · intro hsame
          exact hhas₁ ((hsame rfl).mpr hhas₂)
      · rw [loginUser_rejected hright hemail (.inr hhas₂)]
        exact ⟨iff_of_true rfl fun _ => iff_of_false hhas₁ hhas₂, h⟩

/-- The answer is the same with and without a row, and the row is only read. -/
theorem forgotPassword_generic (env : Env) (email : String) (s : Server) :
    (forgotPassword env email true s).1 = .ok (.messageResponse genericResetMessage) ∧
      (forgotPassword env email true s).2.now = s.now ∧
      (forgotPassword env email true s).2.redis = s.redis ∧
      (forgotPassword env email true s).2.db = s.db := by
  unfold forgotPassword
  split
  · exact ⟨rfl, rfl, rfl, rfl⟩
  · split
    · exact ⟨rfl, rfl, rfl, rfl⟩
    · exact ⟨rfl, rfl, rfl, rfl⟩

/-- The limiter counts hosts, not accounts. -/
theorem call_alike (limiter : RateLimiter) (clientHost : String)
    (h : Alike rows₁ rows₂ s₁ s₂) :
    (limiter.call clientHost s₁).1 = (limiter.call clientHost s₂).1 ∧
      Alike rows₁ rows₂ (limiter.call clientHost s₁).2 (limiter.call clientHost s₂).2 := by
  obtain ⟨hnow, hredis, hleft, hright⟩ := h
  unfold RateLimiter.call
  rw [hnow, hredis]
  dsimp only
  split
  · exact ⟨rfl, hnow, hredis, hleft, hright⟩
  · split
    · exact ⟨rfl, rfl, rfl, hleft, hright⟩
    · exact ⟨rfl, rfl, rfl, hleft, hright⟩

theorem agree_guard {C : Prop} {endpoint₁ endpoint₂ : Server → Outcome}
    (h : Alike rows₁ rows₂ s₁ s₂) (hrefused : (limiter.call clientHost s₁).1 ≠ .ok () → C)
    (hagree : (limiter.call clientHost s₁).1 = .ok () → ∀ s₁ s₂, Alike rows₁ rows₂ s₁ s₂ →
      Agree C rows₁ rows₂ (endpoint₁ s₁) (endpoint₂ s₂)) :
    Agree C rows₁ rows₂ (limiter.guard clientHost s₁ endpoint₁)
      (limiter.guard clientHost s₂ endpoint₂) := by
  have hcall := call_alike limiter clientHost h
  unfold RateLimiter.guard
  generalize limiter.call clientHost s₁ = r₁ at hcall hrefused hagree ⊢
  generalize limiter.call clientHost s₂ = r₂ at hcall ⊢
  obtain ⟨answer₁, s₁'⟩ := r₁
  obtain ⟨answer₂, s₂'⟩ := r₂
  obtain ⟨hanswer, hafter⟩ := hcall
  cases hanswer
  cases answer₁ with
  | error e => exact ⟨iff_of_true rfl (hrefused nofun), hafter⟩
  | ok _ => exact hagree rfl s₁' s₂' hafter

theorem agree_withValid {C : Prop} {validated : Except HttpException String}
    {endpoint₁ endpoint₂ : String → Outcome} (h : Alike rows₁ rows₂ s₁ s₂)
    (hrefused : (∀ x, validated ≠ .ok x) → C)
    (hagree : ∀ x, validated = .ok x → Agree C rows₁ rows₂ (endpoint₁ x) (endpoint₂ x)) :
    Agree C rows₁ rows₂ (withValid validated s₁ endpoint₁)
      (withValid validated s₂ endpoint₂) := by
  cases validated with
  | error e => exact ⟨iff_of_true rfl (hrefused fun _ => nofun), h⟩
  | ok x => exact hagree x rfl

theorem login_agree (h : Alike rows₁ rows₂ s₁ s₂) {body : LoginRequest}
    (hleft : Probes env address rows₁ (.request (.login clientHost body)))
    (hright : Probes env address rows₂ (.request (.login clientHost body))) :
    Agree (SendsSurrogate env s₁ (.request (.login clientHost body)) →
        (HasPassword address rows₁ ↔ HasPassword address rows₂)) rows₁ rows₂
      (step env s₁ (.request (.login clientHost body)))
      (step env s₂ (.request (.login clientHost body))) := by
  apply agree_guard h
  · rintro hrefused ⟨_, _, heq, hadmitted, _⟩
    cases heq
    exact absurd hadmitted hrefused
  intro hadmitted s₁' s₂' h'
  apply agree_withValid h'
  · rintro hrefused ⟨_, _, heq, _, hvalid, _⟩
    cases heq
    obtain ⟨email, hemail⟩ := Option.ne_none_iff_exists'.mp hvalid
    refine absurd ?_ (hrefused email)
    unfold validateEmail
    rw [hemail]
  intro email hvalid
  have hemail := validateEmail_ok hvalid
  have hsends : SendsSurrogate env s₁ (.request (.login clientHost body)) ↔
      body.password.encodable = false := by
    constructor
    · rintro ⟨_, _, heq, _, _, hsurrogate⟩
      cases heq
      exact hsurrogate
    · intro hsurrogate
      exact ⟨_, _, rfl, hadmitted, by rw [hemail]; exact nofun, hsurrogate⟩
  rw [hsends]
  exact loginUser_agree h' (hleft.1 email hemail) hleft.2 hright.2

theorem not_sendsSurrogate {r : Request} (hr : ∀ clientHost body, r ≠ .login clientHost body) :
    ¬ SendsSurrogate env s (.request r) := by
  rintro ⟨clientHost, body, heq, _⟩
  exact hr clientHost body (Action.request.inj heq)

/-- One step of both. -/
theorem step_agree (h : Alike rows₁ rows₂ s₁ s₂) {action : Action}
    (hleft : Probes env address rows₁ action) (hright : Probes env address rows₂ action) :
    Agree (SendsSurrogate env s₁ action → (HasPassword address rows₁ ↔ HasPassword address rows₂))
      rows₁ rows₂ (step env s₁ action) (step env s₂ action) := by
  cases action with
  | request r =>
    cases r with
    | login clientHost body => exact login_agree h hleft hright
    | forgotPassword clientHost body broker =>
      obtain rfl := hleft.2
      have hnone : ¬ SendsSurrogate env s₁ (.request (.forgotPassword clientHost body true)) :=
        not_sendsSurrogate nofun
      apply agree_guard h
      · exact fun _ hsends => absurd hsends hnone
      intro _ s₁ s₂ h
      apply agree_withValid h
      · exact fun _ hsends => absurd hsends hnone
      intro email _
      obtain ⟨hreply₁, hnow₁, hredis₁, hdb₁⟩ := forgotPassword_generic env email s₁
      obtain ⟨hreply₂, hnow₂, hredis₂, hdb₂⟩ := forgotPassword_generic env email s₂
      refine ⟨iff_of_true (hreply₁.trans hreply₂.symm) fun hsends => absurd hsends hnone, ?_⟩
      refine ⟨?_, ?_, ?_, ?_⟩
      · rw [hnow₁, hnow₂, h.now]
      · rw [hredis₁, hredis₂, h.redis]
      · rw [hdb₁, h.left]
      · rw [hdb₂, h.right]
    | register | refresh | logout | verifyEmail | resetPassword | oauthLogin | oauthLink
    | oauthCallback | listLinkedAccounts | unlinkProvider | readCurrentUser | updateCurrentUser
    | changeCurrentUserPassword | deactivateCurrentUser | updateUserStatus | adminDeactivateUser
    | listRoles | assignRole | revokeRole | websocket => exact hleft.elim
  | wait until_ =>
    refine ⟨iff_of_true rfl ?_, ?_, h.redis, h.left, h.right⟩
    · rintro ⟨_, _, heq, _⟩
      cases heq
    · change max s₁.now until_ = max s₂.now until_
      rw [h.now]
  | cleanup | grantBySql => exact hleft.elim

end Laws

/-- Sign-ins with wrong passwords and reset requests for an address tell two deployments apart
that differ in their rows just when a password that cannot be encoded gets to the handler and
only one of the two has a hash for the address. -/
theorem answers_hide_account_iff {env : Env} {s₁ s₂ : Server} (address : String)
    {actions : List Action} (hnow : s₁.now = s₂.now) (hredis : s₁.redis = s₂.redis)
    (hleft : ∀ a ∈ actions, Probes env address s₁.db.users a)
    (hright : ∀ a ∈ actions, Probes env address s₂.db.users a) :
    (trace (step env) s₁ actions).map Transition.label =
        (trace (step env) s₂ actions).map Transition.label ↔
      ∀ t ∈ trace (step env) s₁ actions, SendsSurrogate env t.source t.label.1 →
        (HasPassword address s₁.db.users ↔ HasPassword address s₂.db.users) := by
  apply trace_labels_eq_iff
    (P := fun a => Probes env address s₁.db.users a ∧ Probes env address s₂.db.users a)
    (R := Alike s₁.db.users s₂.db.users)
    (C := fun s a => SendsSurrogate env s a →
      (HasPassword address s₁.db.users ↔ HasPassword address s₂.db.users))
  · intro _ _ a hprobes h
    exact step_agree h hprobes.1 hprobes.2
  · intro a ha
    exact ⟨hleft a ha, hright a ha⟩
  · exact ⟨hnow, hredis, rfl, rfl⟩

/-- The same deployment with a verified account. -/
def knownServer : Server :=
  { freshServer 0 with
    db := { (freshServer 0).db with
      users := [⟨1, "a@example.com", some "Passw0rd$0", true, true, 0⟩] } }

/-- More attempts than the limiter lets through, a reset request and a late attempt. -/
def sampleActions (password : PyStr) : List Action :=
  List.replicate 6 (.request (.login "localhost" ⟨"a@example.com", password⟩)) ++
    [.request (.forgotPassword "localhost" ⟨"a@example.com"⟩ true), .wait 61,
      .request (.login "localhost" ⟨"a@example.com", password⟩)]

theorem meansAddress_sample : MeansAddress asciiEnv "a@example.com" "a@example.com" := by
  intro normalised h
  have hemail : asciiEnv.emailStr "a@example.com" = some "a@example.com" := by decide
  cases hemail.symm.trans h
  decide

theorem sampleActions_probe {rows : List User} {password : PyStr}
    (hrows : MatchesNone asciiEnv "a@example.com" rows password) :
    ∀ a ∈ sampleActions password, Probes asciiEnv "a@example.com" rows a := by
  intro a ha
  simp only [sampleActions, List.mem_append, List.mem_replicate, List.mem_cons,
    List.not_mem_nil, or_false] at ha
  rcases ha with ⟨_, rfl⟩ | rfl | rfl | rfl
  · exact ⟨meansAddress_sample, hrows⟩
  · exact ⟨meansAddress_sample, rfl⟩
  · trivial
  · exact ⟨meansAddress_sample, hrows⟩

theorem freshServer_matchesNone (password : PyStr) :
    MatchesNone asciiEnv "a@example.com" (freshServer 0).db.users password := by
  intro u hu
  rw [freshServer_users] at hu
  cases hu

theorem answers_hide_account_sample :
    (trace (step asciiEnv) (freshServer 0) (sampleActions "guess")).map Transition.label =
      (trace (step asciiEnv) knownServer (sampleActions "guess")).map Transition.label := by
  have hknown : MatchesNone asciiEnv "a@example.com" knownServer.db.users "guess" := by
    intro u hu _ hash hhash
    obtain rfl := List.mem_singleton.mp hu
    cases hhash
    decide
  have hnow : (freshServer 0).now = knownServer.now := rfl
  have hredis : (freshServer 0).redis = knownServer.redis := rfl
  refine (answers_hide_account_iff "a@example.com" hnow hredis
    (sampleActions_probe (freshServer_matchesNone _)) (sampleActions_probe hknown)).mpr ?_
  rintro t ht ⟨_, body, haction, _, _, hsurrogate⟩
  have hmem : t.label.1 ∈ sampleActions "guess" := by
    rw [← map_trace (step asciiEnv) (freshServer 0) (sampleActions "guess")]
    exact List.mem_map_of_mem ht
  rw [haction] at hmem
  simp only [sampleActions, List.mem_append, List.mem_replicate, List.mem_cons,
    List.not_mem_nil, or_false, Action.request.injEq, Request.login.injEq, reduceCtorEq,
    false_or] at hmem
  rcases hmem with ⟨_, _, rfl⟩ | ⟨_, rfl⟩ <;> exact absurd hsurrogate (by decide)

/-- `"\\ud800"` -/
def loneSurrogate : PyStr := ⟨[PyStr.point 0xD800], by decide⟩

def surrogateLogin : Action := .request (.login "localhost" ⟨"a@example.com", loneSurrogate⟩)

/-- One sign-in with a lone surrogate: 401 where the account is unknown, 500 where it exists. -/
theorem surrogate_tells_accounts_apart :
    (freshServer 0).now = knownServer.now ∧ (freshServer 0).redis = knownServer.redis ∧
    Probes asciiEnv "a@example.com" (freshServer 0).db.users surrogateLogin ∧
    Probes asciiEnv "a@example.com" knownServer.db.users surrogateLogin ∧
    (step asciiEnv (freshServer 0) surrogateLogin).1 = .error invalidCredentials ∧
    (step asciiEnv knownServer surrogateLogin).1 = .error internalServerError ∧
    (trace (step asciiEnv) (freshServer 0) [surrogateLogin]).map Transition.label ≠
      (trace (step asciiEnv) knownServer [surrogateLogin]).map Transition.label := by
  have hunknown : MatchesNone asciiEnv "a@example.com" knownServer.db.users loneSurrogate := by
    intro u hu _ hash hhash
    obtain rfl := List.mem_singleton.mp hu
    cases hhash
    decide
  have hleft : (step asciiEnv (freshServer 0) surrogateLogin).1 = .error invalidCredentials := by
    rfl
  have hright : (step asciiEnv knownServer surrogateLogin).1 = .error internalServerError := by
    rfl
  refine ⟨rfl, rfl, ⟨meansAddress_sample, freshServer_matchesNone _⟩,
    ⟨meansAddress_sample, hunknown⟩, hleft, hright, ?_⟩
  intro hsame
  have hreplies : (step asciiEnv (freshServer 0) surrogateLogin).1 =
      (step asciiEnv knownServer surrogateLogin).1 :=
    congrArg Prod.snd (List.cons.inj hsame).1
  rw [hleft, hright] at hreplies
  exact absurd (Except.error.inj hreplies) (by decide)

end FastApiAuth.AccountOracle
