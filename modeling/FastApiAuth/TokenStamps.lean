import FastApiAuth.RedisIsolation
import FastApiAuth.SignIns

/-!
# Every token ever signed

All tokens come from `create_token`. Over a run their jti are the draws of uuid4 in
their order, and each carries the instant of its request and the lifetime of its type.
-/

namespace FastApiAuth.TokenStamps

set_option autoImplicit false

open Database RedisIsolation Runs

/-- The lifetime in seconds that goes with each type. -/
def lifetime (env : Env) : String → Int
  | "access" => env.accessTokenExpireMinutes * 60
  | "refresh" => env.refreshTokenExpireDays * (24 * 60 * 60)
  | "email_verification" => 30 * 60
  | "password_reset" => 15 * 60
  | _ => 0

/-- The token was made at `now`, with this draw for its jti. -/
def Stamp (env : Env) (now : Instant) (draw : Nat) (token : Token) : Prop :=
  token = createToken now (env.uuid4 draw) token.sub token.type (lifetime env token.type)

/-- From `s` to `s'` tokens are signed, each with a draw of its own. -/
structure SignsOn (env : Env) (s s' : Server) : Prop where
  draws : s.draws ≤ s'.draws
  signed : ∃ new : List (Issued × Nat), s'.issued = s.issued ++ new.map Prod.fst ∧
    (new.map Prod.snd).Pairwise (· < ·) ∧
    ∀ p ∈ new, s.draws ≤ p.2 ∧ p.2 < s'.draws ∧ Stamp env s.now p.2 p.1.token

section OneRequest

variable {env : Env} {s s₁ s' : Server} {r : Request}

theorem SignsOn.none (hissued : s'.issued = s.issued) (hdraws : s.draws ≤ s'.draws) :
    SignsOn env s s' := by
  refine ⟨hdraws, [], ?_, List.Pairwise.nil, ?_⟩
  · rw [hissued, List.map_nil, List.append_nil]
  · intro p hp
    cases hp

theorem SignsOn.one (s₁ : Server) {owner : Nat} {subject tokenType : String} {expiresDelta : Int}
    (hissued : s₁.issued = s.issued) (hnow : s₁.now = s.now) (hdraws : s.draws ≤ s₁.draws)
    (hlifetime : expiresDelta = lifetime env tokenType)
    (hsame : s'.issued = (s₁.createToken env owner subject tokenType expiresDelta).2.issued)
    (hlater : s₁.draws < s'.draws) : SignsOn env s s' := by
  refine ⟨hdraws.trans hlater.le,
    [(⟨FastApiAuth.createToken s₁.now (env.uuid4 s₁.draws) subject tokenType expiresDelta, owner⟩,
      s₁.draws)], ?_, List.pairwise_singleton _ _, ?_⟩
  · rw [hsame, ← hissued]
    rfl
  · intro p hp
    rw [List.mem_singleton.mp hp]
    refine ⟨hdraws, hlater, ?_⟩
    unfold Stamp
    rw [hnow, hlifetime]
    rfl

theorem SignsOn.pair (user : User) (hissued : s₁.issued = s.issued) (hnow : s₁.now = s.now)
    (hdraws : s.draws ≤ s₁.draws) : SignsOn env s (s₁.answerWithTokens env user).2 := by
  refine ⟨hdraws.trans (Nat.le_add_right _ 2),
    [(⟨FastApiAuth.createToken s₁.now (env.uuid4 s₁.draws) user.email "access"
        (env.accessTokenExpireMinutes * 60), user.id⟩, s₁.draws),
      (⟨FastApiAuth.createToken s₁.now (env.uuid4 (s₁.draws + 1)) user.email "refresh"
        (env.refreshTokenExpireDays * (24 * 60 * 60)), user.id⟩, s₁.draws + 1)], ?_, ?_, ?_⟩
  · rw [← hissued]
    simp [Server.answerWithTokens, Server.createAccessToken, Server.createRefreshToken,
      Server.createToken]
  · simp
  · intro p hp
    have hend : (s₁.answerWithTokens env user).2.draws = s₁.draws + 2 := rfl
    simp only [List.mem_cons, List.not_mem_nil, or_false] at hp
    rcases hp with rfl | rfl
    · refine ⟨hdraws, by simp [hend], ?_⟩
      unfold Stamp
      rw [hnow]
      rfl
    · refine ⟨hdraws.trans (Nat.le_succ _), by simp [hend], ?_⟩
      unfold Stamp
      rw [hnow]
      rfl

theorem SignsOn.active (user : User) (hissued : s₁.issued = s.issued) (hnow : s₁.now = s.now)
    (hdraws : s.draws ≤ s₁.draws) : SignsOn env s (answerActive env user s₁).2 :=
  answerActive_rule (P := fun o => SignsOn env s o.2) (fun _ => .none hissued hdraws)
    fun _ => .pair user hissued hnow hdraws

theorem signsOn_refused (e : HttpException) (_ : e.Ordinary) :
    SignsOn env s ((.error e, s) : Outcome).2 :=
  .none rfl (Nat.le_refl _)

theorem registerUser_signsOn (email : String) (password : NewPassword env) (broker : Bool)
    {redis : Redis Instant} :
    SignsOn env s (registerUser env email password broker { s with redis }).2 := by
  apply registerUser_rule (P := fun o => SignsOn env s o.2)
  · exact fun _ _ => .none rfl (Nat.le_refl _)
  intro user db _ _
  have signs : ∀ s', s'.issued = (Server.withRegistered env s user db).issued →
      s'.draws = s.draws + 2 → SignsOn env s s' := by
    intro s' hissued hdraws
    refine .one { s with redis, draws := s.draws + 1, db } rfl rfl (Nat.le_succ _) rfl hissued ?_
    simp [hdraws]
  exact ⟨fun _ => signs _ rfl rfl, fun _ => signs _ rfl rfl⟩

theorem forgotPassword_signsOn (email : String) (broker : Bool) {redis : Redis Instant} :
    SignsOn env s (forgotPassword env email broker { s with redis }).2 := by
  apply forgotPassword_rule (P := fun o => SignsOn env s o.2)
  · exact .none rfl (Nat.le_refl _)
  intro user _ _
  have signs : ∀ s', s'.issued = (Server.withResetToken env s user).issued →
      s'.draws = s.draws + 1 → SignsOn env s s' := by
    intro s' hissued hdraws
    refine .one { s with redis } rfl rfl (Nat.le_refl _) rfl hissued ?_
    simp [hdraws]
  exact ⟨fun _ => signs _ rfl rfl, fun _ => signs _ rfl rfl⟩

theorem loginUser_signsOn (email : String) (password : PyStr) {redis : Redis Instant} :
    SignsOn env s (loginUser env email password { s with redis }).2 :=
  loginUser_rule (P := fun o => SignsOn env s o.2) (fun _ _ => .none rfl (Nat.le_refl _))
    (fun _ _ _ _ _ => .none rfl (Nat.le_refl _))
    fun user _ _ _ _ _ _ => .pair user rfl rfl (Nat.le_refl _)

theorem callbackLink_signsOn (provider : String) (identity : Identity) (linkingUserId : Int)
    {redis : Redis Instant} :
    SignsOn env s (callbackLink env provider identity linkingUserId { s with redis }).2 :=
  callbackLink_rule (P := fun o => SignsOn env s o.2) (fun _ _ => .none rfl (Nat.le_refl _))
    (fun _ user _ _ _ => .pair user rfl rfl (Nat.le_refl _))
    fun user _ _ _ _ => .pair user rfl rfl (Nat.le_refl _)

theorem callbackLogin_signsOn (provider : String) (identity : Identity) {redis : Redis Instant} :
    SignsOn env s (callbackLogin env provider identity { s with redis }).2 :=
  callbackLogin_rule (P := fun o => SignsOn env s o.2) (fun _ _ => .none rfl (Nat.le_refl _))
    (fun _ user _ _ => .active user rfl rfl (Nat.le_refl _))
    (fun _ user _ _ _ _ _ => .active user rfl rfl (Nat.le_refl _))
    fun _ user _ _ _ _ _ _ _ => .active user rfl rfl (Nat.le_refl _)

theorem handle_signsOn (r : Request) : SignsOn env s (handle env r s).2 := by
  cases r with
  | register clientHost body broker =>
    apply register_rule (P := fun o => SignsOn env s o.2)
    · exact fun _ _ _ _ _ => .none rfl (Nat.le_refl _)
    · exact fun email password _ _ _ _ => registerUser_signsOn email password broker
  | login clientHost body =>
    apply login_rule (P := fun o => SignsOn env s o.2)
    · exact fun _ _ _ _ _ => .none rfl (Nat.le_refl _)
    · exact fun email _ _ _ => loginUser_signsOn email body.password
  | refresh refreshToken =>
    exact refreshAccessToken_rule (P := fun o => SignsOn env s o.2) signsOn_refused
      fun _ _ => .one s rfl rfl (Nat.le_refl _) rfl rfl (Nat.lt_succ_self _)
  | forgotPassword clientHost body broker =>
    apply forgot_rule (P := fun o => SignsOn env s o.2)
    · exact fun _ _ _ _ _ => .none rfl (Nat.le_refl _)
    · exact fun email _ _ _ => forgotPassword_signsOn email broker
  | oauthCallback provider state answer =>
    exact oauthCallback_rule (P := fun o => SignsOn env s o.2) signsOn_refused
      (fun _ _ _ _ => .none rfl (Nat.le_refl _))
      (fun _ identity userId _ _ _ _ => callbackLink_signsOn provider identity userId)
      fun _ identity _ _ _ _ => callbackLogin_signsOn provider identity
  | logout | verifyEmail | resetPassword | oauthLogin | oauthLink | listLinkedAccounts
  | unlinkProvider | readCurrentUser | updateCurrentUser | changeCurrentUserPassword
  | deactivateCurrentUser | updateUserStatus | adminDeactivateUser | listRoles | assignRole
  | revokeRole | websocket => exact .none (handle_issued id) (handle_draws _)

theorem step_signsOn {l : Action × Reply} (hstep : Step env s l s') : SignsOn env s s' := by
  obtain ⟨a, reply⟩ := l
  rw [show s' = (step env s a).2 from (congrArg Prod.snd hstep).symm]
  cases a with
  | request r => exact handle_signsOn r
  | cleanup => exact .none rfl (Nat.le_refl _)
  | wait until_ => exact .none rfl (Nat.le_refl _)
  | grantBySql userId roleName =>
    exact grantBySql_rule (P := SignsOn env s) (.none rfl (Nat.le_refl _))
      fun _ _ _ _ => .none rfl (Nat.le_refl _)

end OneRequest

section OverRuns

variable {env : Env} {s₀ s : Server} {h : List ApiTransition}

/-- The jti of the tokens, oldest first, are the draws of uuid4 at increasing places. -/
theorem run_draws (h₀ : Initial s₀) (r : ApiRun env s₀ h s) :
    ∃ draws : List Nat, draws.Pairwise (· < ·) ∧ (∀ d ∈ draws, d < s.draws) ∧
      s.issued.map (fun i => i.token.jti) = draws.map env.uuid4 := by
  induction r with
  | start =>
    refine ⟨[], List.Pairwise.nil, ?_, ?_⟩
    · intro d hd
      cases hd
    · rw [h₀.issued]
      rfl
  | @snoc h s s' l r hstep ih =>
    obtain ⟨draws, hincreasing, hbefore, hjtis⟩ := ih
    obtain ⟨hdraws, new, hissued, hnew, hstamped⟩ := step_signsOn hstep
    refine ⟨draws ++ new.map Prod.snd, ?_, ?_, ?_⟩
    · rw [List.pairwise_append]
      refine ⟨hincreasing, hnew, ?_⟩
      intro d hd d' hd'
      obtain ⟨p, hp, rfl⟩ := List.mem_map.mp hd'
      exact (hbefore d hd).trans_le (hstamped p hp).1
    · intro d hd
      rcases List.mem_append.mp hd with hd | hd
      · exact (hbefore d hd).trans_le hdraws
      · obtain ⟨p, hp, rfl⟩ := List.mem_map.mp hd
        exact (hstamped p hp).2.1
    · have hlast : (new.map Prod.fst).map (fun i => i.token.jti) =
          (new.map Prod.snd).map env.uuid4 := by
        rw [List.map_map, List.map_map]
        apply List.map_congr_left
        intro p hp
        have hstamp : Stamp env s.now p.2 p.1.token := (hstamped p hp).2.2
        change p.1.token.jti = env.uuid4 p.2
        rw [hstamp]
        rfl
      rw [hissued, List.map_append, List.map_append, hjtis, hlast]

theorem run_stamps (h₀ : Initial s₀) (r : ApiRun env s₀ h s) {i : Issued} (hi : i ∈ s.issued) :
    ∃ t ∈ h, Mints t i ∧ ∃ draw, Stamp env t.source.now draw i.token := by
  induction r with
  | start =>
    rw [h₀.issued] at hi
    cases hi
  | @snoc h s s' l r hstep ih =>
    obtain ⟨_, new, hissued, _, hstamped⟩ := step_signsOn hstep
    rw [hissued] at hi
    rcases List.mem_append.mp hi with hi | hi
    · obtain ⟨t, ht, hmints, hstamp⟩ := ih hi
      exact ⟨t, List.mem_append_left _ ht, hmints, hstamp⟩
    · obtain ⟨p, hp, rfl⟩ := List.mem_map.mp hi
      refine ⟨⟨s, l, s'⟩, by simp, ⟨_, hissued, hi⟩, p.2, (hstamped p hp).2.2⟩

theorem run_jtis (huuid : Function.Injective env.uuid4) (h₀ : Initial s₀)
    (r : ApiRun env s₀ h s) : (s.issued.map fun i => i.token.jti).Nodup := by
  obtain ⟨draws, hincreasing, _, hjtis⟩ := run_draws h₀ r
  rw [hjtis]
  apply List.Nodup.map huuid
  exact hincreasing.imp fun hlt => hlt.ne

/-- Two signed tokens with one jti are the same. -/
theorem signed_eq_of_jti (huuid : Function.Injective env.uuid4) (h₀ : Initial s₀)
    (r : ApiRun env s₀ h s) {token token' : Token} (ht : token ∈ s.signed)
    (ht' : token' ∈ s.signed) (hjti : token.jti = token'.jti) : token = token' := by
  obtain ⟨i, hi, rfl⟩ := List.mem_map.mp ht
  obtain ⟨i', hi', rfl⟩ := List.mem_map.mp ht'
  rw [List.inj_on_of_nodup_map (run_jtis huuid h₀ r) hi hi' hjti]

end OverRuns

/-- In every run no two tokens share a jti, each was signed by one of the requests, at its
instant and with the lifetime of its type, and the records that refuse a token are
written by requests that present this very token. -/
theorem tokens_stand_alone (env : Env) (huuid : Function.Injective env.uuid4) {s₀ s : Server}
    {h : List ApiTransition} (h₀ : Initial s₀) (r : ApiRun env s₀ h s) :
    (s.issued.map fun i => i.token.jti).Nodup ∧
    (∀ i ∈ s.issued, ∃ t ∈ h, Mints t i ∧ i.token.iat = ⌊t.source.now⌋ ∧
      i.token.exp = ⌊t.source.now + (lifetime env i.token.type : Instant)⌋) ∧
    ∀ t ∈ h, ∀ token ∈ t.source.signed,
      (t.target.redis.entry (blacklistKeyPrefix ++ token.jti) ≠
          t.source.redis.entry (blacklistKeyPrefix ++ token.jti) →
        PresentsToLogout t.label.1 token) ∧
      (t.target.redis.entry (usedKeyPrefix ++ token.jti) ≠
          t.source.redis.entry (usedKeyPrefix ++ token.jti) →
        PresentsToSpend t.label.1 token) := by
  refine ⟨run_jtis huuid h₀ r, ?_, ?_⟩
  · intro i hi
    obtain ⟨t, ht, hmints, draw, hstamp⟩ := run_stamps h₀ r hi
    refine ⟨t, ht, hmints, ?_, ?_⟩
    · rw [hstamp]
      rfl
    · rw [hstamp]
      rfl
  · intro t ht token hsigned
    obtain ⟨before, _, rb, hstep⟩ := r.step_of_mem ht
    constructor
    · intro hchanged
      obtain ⟨other, hother, hpresents, hjti⟩ := (blacklist_step hstep token.jti).1 hchanged
      rwa [← signed_eq_of_jti huuid h₀ rb hother hsigned hjti]
    · intro hchanged
      obtain ⟨other, hother, hpresents, hjti⟩ := (used_step hstep token.jti).1 hchanged
      rwa [← signed_eq_of_jti huuid h₀ rb hother hsigned hjti]

theorem asciiEnv_uuid4_injective : Function.Injective asciiEnv.uuid4 := by
  intro m n hsame
  have hstr : PyInt.str m = PyInt.str n := (String.append_right_inj _).mp hsame
  have hint := congrArg PyInt.int hstr
  rw [PyInt.int_str, PyInt.int_str] at hint
  exact Int.ofNat_inj.mp (Option.some_inj.mp hint)

/-- A registration, a login before and after the verification, and a logout. -/
def oneSession : List Action :=
  [.request (.register "10.0.0.1" ⟨"a@b.c", "Secret123"⟩ true),
    .request (.verifyEmail ⟨"1", "email_verification", "uuid1", 0, 1800⟩),
    .request (.login "10.0.0.1" ⟨"a@b.c", "Secret123"⟩),
    .request (.logout ⟨"a@b.c", "access", "uuid2", 0, 1800⟩
      (some ⟨"a@b.c", "refresh", "uuid3", 0, 604800⟩))]

theorem tokens_stand_alone_sample :
    ((exec (step asciiEnv) (freshServer 0) oneSession).issued.map fun i => i.token.jti) =
        ["uuid1", "uuid2", "uuid3"] ∧
      ((exec (step asciiEnv) (freshServer 0) oneSession).issued.map fun i => i.token.jti).Nodup :=
  ⟨by decide +kernel, (tokens_stand_alone asciiEnv asciiEnv_uuid4_injective (freshServer_initial 0)
    (run_trace _ _ oneSession)).1⟩

end FastApiAuth.TokenStamps
