import FastApiAuth.RedisIsolation

/-!
# The limits of the endpoints over whole runs

Registration, login and the reset mail stand behind a limiter each, and share Redis
with every other request. Whatever happens between them, the requests of one host to
one of these endpoints are decided by its own earlier requests alone.
-/

namespace FastApiAuth.EndpointLimits

set_option autoImplicit false

open RedisKeys RedisIsolation Runs FixedWindow
open RateLimiting (limiterKey limiterKey_inj windowEntry call_windows)

def endpointLimiters : List RateLimiter := [registerLimiter, loginLimiter, forgotPasswordLimiter]

/-- The scope and the host that a request is counted under. -/
def clientOf (a : Action) : Option (String × String) :=
  (limiterOf a).map fun p => (p.1.scope, p.2)

def turnedAway : Reply → Bool
  | .error e => e.statusCode = 429
  | .ok _ => false

def callsOf (client : String × String) (h : List ApiTransition) : List Instant :=
  (h.filter fun t => clientOf t.label.1 = some client).map fun t => t.source.now

def servedOf (client : String × String) (h : List ApiTransition) : List Instant :=
  (h.filter fun t => clientOf t.label.1 = some client ∧ turnedAway t.label.2 = false).map
    fun t => t.source.now

section OneRequest

variable {env : Env} {s s' : Server} {limiter : RateLimiter} {clientHost : String}

/-- The endpoint behind a limiter leaves the counters alone and is not taken for it. -/
structure Serves (s : Server) (o : Outcome) : Prop where
  redis : o.2.redis = s.redis
  answered : turnedAway o.1 = false

/-- What a limiter makes of the outcome of one request. -/
structure Limited (limiter : RateLimiter) (clientHost : String) (s : Server) (o : Outcome) :
    Prop where
  redis : o.2.redis = (limiter.call clientHost s).2.redis
  refused : ∀ e, (limiter.call clientHost s).1 = .error e →
    o = (.error e, (limiter.call clientHost s).2)
  admitted : (limiter.call clientHost s).1 = .ok () → turnedAway o.1 = false

theorem serves_ordinary {e : HttpException} (he : e.Ordinary) : Serves s (.error e, s) :=
  ⟨rfl, by simp [turnedAway, he.2]⟩

theorem registrationResponse_answered (user : User) :
    turnedAway (registrationResponse env user) = false := by
  unfold registrationResponse
  split <;> rfl

theorem registerUser_serves (email : String) (password : NewPassword env) (broker : Bool) :
    Serves s (registerUser env email password broker s) :=
  registerUser_rule (fun _ he => serves_ordinary he) fun user _ _ _ =>
    ⟨fun _ => ⟨rfl, rfl⟩, fun _ => ⟨rfl, registrationResponse_answered user⟩⟩

theorem loginUser_serves (email : String) (password : PyStr) :
    Serves s (loginUser env email password s) :=
  loginUser_rule (fun _ he => serves_ordinary he) (fun _ _ _ _ _ => ⟨rfl, rfl⟩)
    fun _ _ _ _ _ _ _ => ⟨rfl, rfl⟩

theorem forgotPassword_serves (email : String) (broker : Bool) :
    Serves s (forgotPassword env email broker s) :=
  forgotPassword_rule ⟨rfl, rfl⟩ fun _ _ _ => ⟨fun _ => ⟨rfl, rfl⟩, fun _ => ⟨rfl, rfl⟩⟩

/-- The limiter has refused, or the request itself is answered. -/
theorem limited_of_call {answer : Except HttpException Unit} {redis : Redis Instant} {o : Outcome}
    (hcall : limiter.call clientHost s = (answer, { s with redis }))
    (hredis : o.2.redis = redis)
    (h : answer = .ok () ∧ turnedAway o.1 = false ∨
      ∃ e, answer = .error e ∧ o = (.error e, { s with redis })) :
    Limited limiter clientHost s o := by
  rcases h with ⟨rfl, hanswered⟩ | ⟨e, rfl, rfl⟩
  · refine ⟨by rw [hcall]; exact hredis, ?_, fun _ => hanswered⟩
    intro e he
    rw [hcall] at he
    cases he
  · refine ⟨by rw [hcall], ?_, ?_⟩
    · intro e' he
      rw [hcall] at he ⊢
      cases he
      rfl
    · intro hok
      rw [hcall] at hok
      cases hok

theorem limited_of_refused {answer : Except HttpException Unit} {redis : Redis Instant}
    {e : HttpException} (hcall : limiter.call clientHost s = (answer, { s with redis }))
    (he : answer = .error e ∨ answer = .ok () ∧ e.Ordinary) :
    Limited limiter clientHost s (.error e, { s with redis }) := by
  apply limited_of_call hcall rfl
  rcases he with rfl | ⟨rfl, he⟩
  · exact Or.inr ⟨e, rfl, rfl⟩
  · exact Or.inl ⟨rfl, (serves_ordinary (s := { s with redis }) he).answered⟩

theorem limited_of_serves {redis : Redis Instant} {o : Outcome}
    (hcall : limiter.call clientHost s = (.ok (), { s with redis }))
    (h : Serves { s with redis } o) : Limited limiter clientHost s o :=
  limited_of_call hcall h.redis (Or.inl ⟨rfl, h.answered⟩)

theorem handle_limited {r : Request}
    (hlimiter : limiterOf (.request r) = some (limiter, clientHost)) :
    Limited limiter clientHost s (handle env r s) := by
  cases r with
  | register host body broker =>
    cases hlimiter
    apply register_rule
    · exact fun _ _ _ hcall he => limited_of_refused hcall he
    · exact fun email password _ hcall _ _ =>
        limited_of_serves hcall (registerUser_serves email password broker)
  | login host body =>
    cases hlimiter
    apply login_rule
    · exact fun _ _ _ hcall he => limited_of_refused hcall he
    · exact fun email _ hcall _ => limited_of_serves hcall (loginUser_serves email body.password)
  | forgotPassword host body broker =>
    cases hlimiter
    apply forgot_rule
    · exact fun _ _ _ hcall he => limited_of_refused hcall he
    · exact fun email _ hcall _ => limited_of_serves hcall (forgotPassword_serves email broker)
  | refresh | logout | verifyEmail | resetPassword | oauthLogin | oauthLink | oauthCallback
  | listLinkedAccounts | unlinkProvider | readCurrentUser | updateCurrentUser
  | changeCurrentUserPassword | deactivateCurrentUser | updateUserStatus | adminDeactivateUser
  | listRoles | assignRole | revokeRole | websocket => cases hlimiter

theorem limiterOf_mem {a : Action} (h : limiterOf a = some (limiter, clientHost)) :
    limiter ∈ endpointLimiters := by
  unfold limiterOf at h
  split at h <;> cases h <;> simp [endpointLimiters]

theorem endpointLimiter_bounds (h : limiter ∈ endpointLimiters) :
    limiter.times = 5 ∧ limiter.seconds = 60 ∧ ':' ∉ limiter.scope.toList := by
  simp only [endpointLimiters, List.mem_cons, List.not_mem_nil, or_false] at h
  rcases h with rfl | rfl | rfl
  · exact ⟨rfl, rfl, by decide⟩
  · exact ⟨rfl, rfl, by decide⟩
  · exact ⟨rfl, rfl, by decide⟩

theorem endpointLimiter_eq {limiter' : RateLimiter} (h : limiter ∈ endpointLimiters)
    (h' : limiter' ∈ endpointLimiters) (hscope : limiter.scope = limiter'.scope) :
    limiter = limiter' := by
  obtain ⟨htimes, hseconds, _⟩ := endpointLimiter_bounds h
  obtain ⟨htimes', hseconds', _⟩ := endpointLimiter_bounds h'
  cases limiter
  cases limiter'
  simp_all

end OneRequest

section Histories

variable {client : String × String} {h : List ApiTransition} {t : ApiTransition}

theorem callsOf_snoc_self (ht : clientOf t.label.1 = some client) :
    callsOf client (h ++ [t]) = callsOf client h ++ [t.source.now] := by
  simp [callsOf, ht]

theorem callsOf_snoc_other (ht : clientOf t.label.1 ≠ some client) :
    callsOf client (h ++ [t]) = callsOf client h := by
  simp [callsOf, ht]

theorem servedOf_snoc : servedOf client (h ++ [t]) = servedOf client h ++
    if clientOf t.label.1 = some client ∧ turnedAway t.label.2 = false then [t.source.now]
      else [] := by
  simp only [servedOf, List.filter_append, List.map_append]
  split <;> simp [*]

theorem clientOf_eq {a : Action} {limiter : RateLimiter} {clientHost : String}
    (h : limiterOf a = some (limiter, clientHost)) :
    clientOf a = some (limiter.scope, clientHost) := by
  unfold clientOf
  rw [h]
  rfl

/-- A request that is counted under the scope of one of the three limiters meets that limiter. -/
theorem limiterOf_of_clientOf {a : Action} {limiter : RateLimiter} {clientHost : String}
    (hlimiter : limiter ∈ endpointLimiters) (h : clientOf a = some (limiter.scope, clientHost)) :
    limiterOf a = some (limiter, clientHost) := by
  obtain ⟨⟨limiter', host⟩, hp, heq⟩ := Option.map_eq_some_iff.mp h
  obtain ⟨hscope, rfl⟩ := Prod.mk.inj heq
  rw [endpointLimiter_eq hlimiter (limiterOf_mem hp) hscope.symm]
  exact hp

end Histories

section CounterRuns

/-- What Redis and the history have in common for one limiter and one host. -/
structure Tracks (limiter : RateLimiter) (clientHost : String) (h : List ApiTransition)
    (s : Server) : Prop where
  ordered : (callsOf (limiter.scope, clientHost) h ++ [s.now]).Pairwise (· ≤ ·)
  entry : s.redis.entry (limiterKey limiter.scope clientHost) =
    windowEntry limiter.seconds (callsOf (limiter.scope, clientHost) h)
  served : servedOf (limiter.scope, clientHost) h =
    admitted limiter.times (limiter.seconds : Instant) (callsOf (limiter.scope, clientHost) h)

end CounterRuns

section OverRuns

variable {env : Env} {s₀ s s' : Server} {limiter : RateLimiter} {clientHost : String}
variable {h : List ApiTransition} {l : Action × Reply} {t : ApiTransition}

theorem pairwise_later {ts : List Instant} {now now' : Instant}
    (hs : (ts ++ [now]).Pairwise (· ≤ ·)) (hle : now ≤ now') :
    (ts ++ [now']).Pairwise (· ≤ ·) := by
  obtain ⟨hts, hnow⟩ := pairwise_snoc hs
  rw [List.pairwise_append]
  refine ⟨hts, List.pairwise_singleton _ _, ?_⟩
  intro c hc d hd
  rw [List.mem_singleton.mp hd]
  exact (hnow c hc).trans hle

theorem pairwise_again {ts : List Instant} {now : Instant}
    (hs : (ts ++ [now]).Pairwise (· ≤ ·)) : (ts ++ [now] ++ [now]).Pairwise (· ≤ ·) := by
  rw [List.pairwise_append]
  refine ⟨hs, List.pairwise_singleton _ _, ?_⟩
  intro c hc d hd
  rw [List.mem_singleton.mp hd]
  rcases List.mem_append.mp hc with hc | hc
  · exact (pairwise_snoc hs).2 c hc
  · rw [List.mem_singleton.mp hc]

/-- The request of the host itself: the windows decide, and the counter moves along. -/
theorem counted_request (hseconds : 0 < limiter.seconds) (htracks : Tracks limiter clientHost h s)
    (hlimiter : limiterOf l.1 = some (limiter, clientHost)) (hstep : Step env s l s') :
    (turnedAway l.2 = true ↔ limiter.times ≤ callsInWindow (limiter.seconds : Instant)
        (callsOf (limiter.scope, clientHost) h) s.now) ∧
      (turnedAway l.2 = true → s' = { s with redis := s'.redis }) ∧
      Tracks limiter clientHost (h ++ [⟨s, l, s'⟩]) s' := by
  obtain ⟨action, reply⟩ := l
  have hnow : s.now ≤ s'.now := (step_effect hstep).now
  have hcalls : callsOf (limiter.scope, clientHost) (h ++ [⟨s, (action, reply), s'⟩]) =
      callsOf (limiter.scope, clientHost) h ++ [s.now] := callsOf_snoc_self (clientOf_eq hlimiter)
  obtain ⟨hcall, hredis⟩ := call_windows hseconds htracks.ordered htracks.entry
  have hlimited : Limited limiter clientHost s (reply, s') := by
    cases action with
    | request r =>
      have hhandle : handle env r s = (reply, s') := hstep
      rw [← hhandle]
      exact handle_limited hlimiter
    | cleanup | wait | grantBySql => cases hlimiter
  have hentry : s'.redis.entry (limiterKey limiter.scope clientHost) =
      windowEntry limiter.seconds (callsOf (limiter.scope, clientHost) h ++ [s.now]) := by
    rw [show s'.redis = _ from hlimited.redis, hredis, ExpiringStore.entry_put_self, windowEntry,
      lastOpening_snoc]
    rfl
  have hordered := pairwise_later (pairwise_again htracks.ordered) hnow
  obtain ⟨redis, hsnd⟩ := call_snd limiter clientHost s
  by_cases hadmits : callsInWindow (limiter.seconds : Instant)
      (callsOf (limiter.scope, clientHost) h) s.now < limiter.times
  · rw [if_pos hadmits] at hcall
    have hanswered : turnedAway reply = false := hlimited.admitted hcall
    refine ⟨?_, ?_, ?_⟩
    · simp only [hanswered, Bool.false_eq_true, false_iff, not_le]
      exact hadmits
    · intro haway
      rw [hanswered] at haway
      cases haway
    · refine ⟨hcalls ▸ hordered, hcalls ▸ hentry, ?_⟩
      rw [hcalls, admitted_snoc, if_pos hadmits, servedOf_snoc,
        if_pos ⟨clientOf_eq hlimiter, hanswered⟩, htracks.served]
  · rw [if_neg hadmits] at hcall
    have hrefused := hlimited.refused _ hcall
    obtain ⟨hreply, hs'⟩ := Prod.mk.inj hrefused
    have haway : turnedAway reply = true := by
      rw [hreply]
      rfl
    refine ⟨?_, ?_, ?_⟩
    · simp only [haway, true_iff]
      exact not_lt.mp hadmits
    · intro _
      rw [hs', hsnd]
    · refine ⟨hcalls ▸ hordered, hcalls ▸ hentry, ?_⟩
      rw [hcalls, admitted_snoc, if_neg hadmits, servedOf_snoc, if_neg, htracks.served]
      intro hserved
      rw [haway] at hserved
      cases hserved.2

/-- Any other action. -/
theorem other_action (hlimiter : limiter ∈ endpointLimiters)
    (htracks : Tracks limiter clientHost h s)
    (hother : clientOf l.1 ≠ some (limiter.scope, clientHost)) (hstep : Step env s l s') :
    Tracks limiter clientHost (h ++ [⟨s, l, s'⟩]) s' := by
  have hcalls : callsOf (limiter.scope, clientHost) (h ++ [⟨s, l, s'⟩]) =
      callsOf (limiter.scope, clientHost) h := callsOf_snoc_other hother
  have hentry : s'.redis.entry (limiterKey limiter.scope clientHost) =
      s.redis.entry (limiterKey limiter.scope clientHost) := by
    by_contra hchanged
    obtain ⟨limiter', hl, hscope⟩ :=
      counted_step hstep limiter.scope clientHost (endpointLimiter_bounds hlimiter).2.2 hchanged
    apply hother
    rw [clientOf_eq hl, hscope]
  constructor
  · rw [hcalls]
    exact pairwise_later htracks.ordered (step_effect hstep).now
  · rw [hcalls, hentry]
    exact htracks.entry
  · rw [hcalls, servedOf_snoc, if_neg, List.append_nil]
    · exact htracks.served
    · intro hserved
      exact hother hserved.1

theorem run_tracks (h₀ : Initial s₀) (r : ApiRun env s₀ h s)
    (hlimiter : limiter ∈ endpointLimiters) (clientHost : String) :
    Tracks limiter clientHost h s := by
  induction r with
  | start =>
    constructor
    · exact List.pairwise_singleton _ _
    · rw [h₀.redis]
      rfl
    · rfl
  | @snoc h s s' l r hstep ih =>
    by_cases hclient : clientOf l.1 = some (limiter.scope, clientHost)
    · have hseconds : 0 < limiter.seconds := by
        rw [(endpointLimiter_bounds hlimiter).2.1]
        decide
      exact (counted_request hseconds ih (limiterOf_of_clientOf hlimiter hclient) hstep).2.2
    · exact other_action hlimiter ih hclient hstep

end OverRuns

/-- In every run a request to one of the limited endpoints is turned away if and only if
its host has spent the limit in the open window of this endpoint, whatever else was
going on; a request turned away changes nothing but the counter; and no time of one
window's length sees more than twice the limit answered. -/
theorem requests_keep_to_limits (env : Env) {s₀ s : Server} {h : List ApiTransition}
    (h₀ : Initial s₀) (r : ApiRun env s₀ h s) :
    (∀ before t limiter clientHost, before ++ [t] <+: h →
      limiterOf t.label.1 = some (limiter, clientHost) →
      (turnedAway t.label.2 = true ↔
        limiter.times ≤ callsInWindow (limiter.seconds : Instant)
          (callsOf (limiter.scope, clientHost) before) t.source.now) ∧
      (turnedAway t.label.2 = true → t.target = { t.source with redis := t.target.redis })) ∧
    ∀ limiter ∈ endpointLimiters, ∀ clientHost a,
      (servedOf (limiter.scope, clientHost) h).countP
        (fun c => a ≤ c ∧ c ≤ a + (limiter.seconds : Instant)) ≤ 2 * limiter.times := by
  constructor
  · intro before t limiter clientHost hp hlimiter
    obtain ⟨rb, hstep⟩ := r.of_prefix_snoc hp
    have hmem := limiterOf_mem hlimiter
    have hseconds : 0 < limiter.seconds := by
      rw [(endpointLimiter_bounds hmem).2.1]
      decide
    obtain ⟨haway, hframe, _⟩ :=
      counted_request hseconds (run_tracks h₀ rb hmem clientHost) hlimiter hstep
    exact ⟨haway, hframe⟩
  · intro limiter hmem clientHost a
    have htracks := run_tracks h₀ r hmem clientHost
    have hlength : (0 : Instant) < limiter.seconds := by
      rw [(endpointLimiter_bounds hmem).2.1]
      norm_num
    rw [htracks.served]
    exact countP_interval_le hlength (pairwise_snoc htracks.ordered).1 a

/-- Six logins of one host, with a request of another kind between them. -/
def hammering : List Action :=
  [.request (.login "10.0.0.1" ⟨"a@b.c", "secret"⟩), .request (.login "10.0.0.1" ⟨"a@b.c", "s"⟩),
    .request (.oauthLogin "github"), .request (.login "10.0.0.1" ⟨"a@b.c", "s"⟩),
    .request (.login "10.0.0.1" ⟨"a@b.c", "s"⟩), .request (.login "10.0.0.1" ⟨"a@b.c", "s"⟩),
    .request (.login "10.0.0.1" ⟨"a@b.c", "s"⟩)]

theorem hammered_ne_nil : trace (step asciiEnv) (freshServer 0) hammering ≠ [] := by
  decide +kernel

/-- The sixth login is answered with 429 and leaves the tables as they were. -/
theorem requests_keep_to_limits_sample :
    let last := (trace (step asciiEnv) (freshServer 0) hammering).getLast hammered_ne_nil
    clientOf last.label.1 = some ("login", "10.0.0.1") ∧ turnedAway last.label.2 = true ∧
      last.target.db = last.source.db := by
  intro last
  have hclient : clientOf last.label.1 = some ("login", "10.0.0.1") := by decide +kernel
  have hprefix : (trace (step asciiEnv) (freshServer 0) hammering).dropLast ++ [last] <+:
      trace (step asciiEnv) (freshServer 0) hammering := by
    rw [List.dropLast_append_getLast hammered_ne_nil]
  obtain ⟨hturned, hframe⟩ := (requests_keep_to_limits asciiEnv (freshServer_initial 0)
    (run_trace _ _ hammering)).1 _ last loginLimiter "10.0.0.1" hprefix
    (limiterOf_of_clientOf (by simp [endpointLimiters]) hclient)
  have haway := hturned.mpr (by decide +kernel)
  refine ⟨hclient, haway, ?_⟩
  rw [hframe haway]

end FastApiAuth.EndpointLimits
