import FastApiAuth.Server
import FastApiAuth.Library.FixedWindow
import FastApiAuth.Library.Separators
import FastApiAuth.Library.Runs
import Mathlib.Algebra.Order.Ring.Rat

/-!
# The rate limiter as windows over the calls of one client

The counter that INCR and EXPIRE keep for a client is the number of its calls in the
current window, and its deadline the closing of that window. Rejected calls count,
and never move the deadline.
-/

namespace FastApiAuth.RateLimiting

set_option autoImplicit false

open FixedWindow

/-- The Redis key of a limiter and a client. -/
def limiterKey (scope clientHost : String) : String :=
  "ratelimit:" ++ scope ++ ":" ++ clientHost

/-- What Redis holds for a client after calls at the instants `ts`. -/
def windowEntry (seconds : Nat) (ts : List Instant) : Option (Entry String Instant) :=
  (lastOpening (seconds : Instant) ts).map fun o =>
    ⟨PyInt.str (ts.countP fun c => o ≤ c), some (o + seconds)⟩

section OneCall

variable {limiter : RateLimiter} {clientHost : String} {s : Server} {ts : List Instant}

theorem incr_of_find {key : String} {now : Instant} {n : Nat} {deadline : Option Instant}
    {redis : Redis Instant} (h : redis.find now key = some ⟨PyInt.str n, deadline⟩) :
    redis.incr now key =
      some ((n : Int) + 1, redis.put key ⟨PyInt.str ((n : Int) + 1), deadline⟩) := by
  unfold Redis.incr
  simp only [h, PyInt.int_str]

/-- The first call of a window: INCR makes the key, EXPIRE dates it. -/
theorem call_opens
    (hfind : s.redis.find s.now (limiterKey limiter.scope clientHost) = none) :
    limiter.call clientHost s =
      (if 0 < limiter.times then .ok () else .error tooManyRequests,
        { s with
          redis := s.redis.put (limiterKey limiter.scope clientHost)
            ⟨PyInt.str 1, some (s.now + limiter.seconds)⟩ }) := by
  unfold limiterKey at hfind ⊢
  have hincr : s.redis.incr s.now ("ratelimit:" ++ limiter.scope ++ ":" ++ clientHost) =
      some (1, s.redis.put ("ratelimit:" ++ limiter.scope ++ ":" ++ clientHost)
        ⟨PyInt.str 1, none⟩) := by
    unfold Redis.incr
    rw [hfind]
  have hexpire : Redis.expire
      (s.redis.put ("ratelimit:" ++ limiter.scope ++ ":" ++ clientHost) ⟨PyInt.str 1, none⟩)
      s.now ("ratelimit:" ++ limiter.scope ++ ":" ++ clientHost) limiter.seconds =
      s.redis.put ("ratelimit:" ++ limiter.scope ++ ":" ++ clientHost)
        ⟨PyInt.str 1, some (s.now + limiter.seconds)⟩ := by
    unfold Redis.expire
    rw [ExpiringStore.find_put_self (by simp [ExpiringStore.Live])]
    exact ExpiringStore.put_put
  unfold RateLimiter.call
  simp only [hincr, hexpire, if_true]
  by_cases htimes : 0 < limiter.times
  · rw [if_neg (by omega), if_pos htimes]
  · rw [if_pos (by omega), if_neg htimes]

/-- A later call of a window: only the counter moves. -/
theorem call_counts {n : Nat} {deadline : Option Instant} (hn : 0 < n)
    (hfind : s.redis.find s.now (limiterKey limiter.scope clientHost) =
      some ⟨PyInt.str n, deadline⟩) :
    limiter.call clientHost s =
      (if n < limiter.times then .ok () else .error tooManyRequests,
        { s with
          redis := s.redis.put (limiterKey limiter.scope clientHost)
            ⟨PyInt.str ((n + 1 : Nat) : Int), deadline⟩ }) := by
  unfold limiterKey at hfind ⊢
  have hne : ¬ ((n : Int) + 1 = 1) := by omega
  unfold RateLimiter.call
  simp only [incr_of_find hfind, if_neg hne, Nat.cast_succ]
  by_cases htimes : n < limiter.times
  · rw [if_neg (by omega), if_pos htimes]
  · rw [if_pos (by omega), if_neg htimes]

/-- One call against the windows: the decision, and the entry afterwards. -/
theorem call_windows (hseconds : 0 < limiter.seconds) (hs : (ts ++ [s.now]).Pairwise (· ≤ ·))
    (hentry : s.redis.entry (limiterKey limiter.scope clientHost) =
      windowEntry limiter.seconds ts) :
    (limiter.call clientHost s).1 =
        (if callsInWindow (limiter.seconds : Instant) ts s.now < limiter.times then .ok ()
          else .error tooManyRequests) ∧
      (limiter.call clientHost s).2.redis =
        s.redis.put (limiterKey limiter.scope clientHost)
          ⟨PyInt.str ((ts ++ [s.now]).countP fun c =>
              opening (limiter.seconds : Instant) (lastOpening (limiter.seconds : Instant) ts)
                s.now ≤ c),
            some (opening (limiter.seconds : Instant) (lastOpening (limiter.seconds : Instant) ts)
              s.now + limiter.seconds)⟩ := by
  have hlength : (0 : Instant) < limiter.seconds := by exact_mod_cast hseconds
  have hts := (pairwise_snoc hs).1
  by_cases hclosed : ∀ o, lastOpening (limiter.seconds : Instant) ts = some o →
      o + limiter.seconds ≤ s.now
  · obtain ⟨hopen, hzero⟩ := callsInWindow_of_closed hlength hts hclosed
    have hfind : s.redis.find s.now (limiterKey limiter.scope clientHost) = none := by
      refine ExpiringStore.find_eq_none_iff.mpr fun e he hlive => ?_
      rw [hentry] at he
      obtain ⟨o, ho, rfl⟩ := Option.map_eq_some_iff.mp he
      exact absurd (hlive _ rfl) (not_lt.mpr (hclosed o ho))
    have hnone : ts.countP (fun c => s.now ≤ c) = 0 := by
      rw [callsInWindow, hopen] at hzero
      exact hzero
    rw [call_opens hfind, hzero, hopen]
    refine ⟨rfl, ?_⟩
    simp [List.countP_append, hnone]
  · simp only [not_forall, not_le] at hclosed
    obtain ⟨o, ho, ht⟩ := hclosed
    have hle := lastOpening_le hs ho
    have hopen : opening (limiter.seconds : Instant) (some o) s.now = o := by simp [opening, ht]
    have hfind : s.redis.find s.now (limiterKey limiter.scope clientHost) =
        some ⟨PyInt.str (ts.countP fun c => o ≤ c), some (o + limiter.seconds)⟩ := by
      refine ExpiringStore.find_eq_some_iff.mpr ⟨by rw [hentry, windowEntry, ho]; rfl, ?_⟩
      intro d hd
      obtain rfl := Option.some_inj.mp hd
      exact ht
    have hpos : 0 < ts.countP fun c => o ≤ c :=
      List.countP_pos_iff.mpr ⟨o, lastOpening_mem ho, by simp⟩
    rw [call_counts hpos hfind, callsInWindow_of_open ho ht, ho, hopen]
    refine ⟨rfl, ?_⟩
    simp [List.countP_append, hle]

end OneCall

section SequencesOfCalls

structure Call where
  time : Instant
  scope : String
  clientHost : String

def Call.client (c : Call) : String × String := (c.scope, c.clientHost)

/-- The bounds that go with each scope. -/
structure Limits where
  times : String → Nat
  seconds : String → Nat

def Limits.limiter (limits : Limits) (scope : String) : RateLimiter :=
  { times := limits.times scope, seconds := limits.seconds scope, scope }

/-- One call, at its own instant. -/
def Limits.perform (limits : Limits) (s : Server) (c : Call) :
    Except HttpException Unit × Server :=
  (limits.limiter c.scope).call c.clientHost { s with now := c.time }

abbrev CallTransition := Runs.Transition Server (Call × Except HttpException Unit)

abbrev CallRun (limits : Limits) : Server → List CallTransition → Server → Prop :=
  Runs.Run (Runs.StepOf limits.perform)

def callsOf (client : String × String) (h : List CallTransition) : List Instant :=
  (h.filter fun t => t.label.1.client = client).map fun t => t.label.1.time

def admittedOf (client : String × String) (h : List CallTransition) : List Instant :=
  (h.filter fun t => t.label.1.client = client ∧ t.label.2.isOk).map fun t => t.label.1.time

/-- The calls come in the order of their instants. -/
def Ordered (h : List CallTransition) : Prop :=
  (h.map fun t => t.label.1.time).Pairwise (· ≤ ·)

end SequencesOfCalls

section Histories

variable {client : String × String} {h : List CallTransition} {t : CallTransition}

theorem callsOf_snoc_self (ht : t.label.1.client = client) :
    callsOf client (h ++ [t]) = callsOf client h ++ [t.label.1.time] := by
  simp [callsOf, ht]

theorem callsOf_snoc_other (ht : t.label.1.client ≠ client) :
    callsOf client (h ++ [t]) = callsOf client h := by
  simp [callsOf, ht]

theorem admittedOf_snoc : admittedOf client (h ++ [t]) = admittedOf client h ++
    if t.label.1.client = client ∧ t.label.2.isOk then [t.label.1.time] else [] := by
  simp only [admittedOf, List.filter_append, List.map_append]
  split <;> simp [*]

theorem Ordered.of_prefix {h' : List CallTransition} (hordered : Ordered h) (hp : h' <+: h) :
    Ordered h' :=
  hordered.sublist (hp.sublist.map _)

theorem Ordered.callsOf (hordered : Ordered h) : (callsOf client h).Pairwise (· ≤ ·) :=
  hordered.sublist (List.filter_sublist.map _)

end Histories

section Keys

/-- A key names one scope and one host, as long as the scopes have no colon in them. -/
theorem limiterKey_inj {scope scope' clientHost clientHost' : String}
    (hscope : ':' ∉ scope.toList) (hscope' : ':' ∉ scope'.toList)
    (h : limiterKey scope clientHost = limiterKey scope' clientHost') :
    (scope, clientHost) = (scope', clientHost') := by
  have hlist := congrArg String.toList h
  simp only [limiterKey, String.toList_append, List.append_assoc] at hlist
  have hrest := List.append_cancel_left hlist
  obtain ⟨hs, hh⟩ := Separators.append_sep_inj hscope hscope' hrest
  rw [String.toList_inj.mp hs, String.toList_inj.mp hh]

end Keys

section LimiterRuns

/-- What Redis and the history have in common after the calls of `h`. -/
structure Tracks (limits : Limits) (h : List CallTransition) (s : Server)
    (scope clientHost : String) : Prop where
  entry : s.redis.entry (limiterKey scope clientHost) =
    windowEntry (limits.seconds scope) (callsOf (scope, clientHost) h)
  admitted : admittedOf (scope, clientHost) h =
    admitted (limits.times scope) (limits.seconds scope : Instant) (callsOf (scope, clientHost) h)

end LimiterRuns

section Runs

variable {limits : Limits} {h : List CallTransition} {s s' : Server} {c : Call}
variable {result : Except HttpException Unit} {scope clientHost : String}

theorem perform_windows (hseconds : 0 < limits.seconds c.scope)
    (hordered : Ordered (h ++ [⟨s, (c, result), s'⟩]))
    (htracks : Tracks limits h s c.scope c.clientHost)
    (hstep : Runs.StepOf limits.perform s (c, result) s') :
    result = (if callsInWindow (limits.seconds c.scope : Instant) (callsOf c.client h) c.time <
        limits.times c.scope then .ok () else .error tooManyRequests) ∧
      Tracks limits (h ++ [⟨s, (c, result), s'⟩]) s' c.scope c.clientHost ∧
      ∀ key ≠ limiterKey c.scope c.clientHost, s'.redis.entry key = s.redis.entry key := by
  have hcalls : callsOf c.client (h ++ [⟨s, (c, result), s'⟩]) =
      callsOf c.client h ++ [c.time] := callsOf_snoc_self rfl
  have hs : (callsOf c.client h ++ [c.time]).Pairwise (· ≤ ·) := hcalls ▸ hordered.callsOf
  obtain ⟨hresult, hredis⟩ := @call_windows (limits.limiter c.scope) c.clientHost
    { s with now := c.time } (callsOf c.client h) hseconds hs htracks.entry
  have hperform : (limits.limiter c.scope).call c.clientHost { s with now := c.time } =
      (result, s') := hstep
  rw [hperform] at hresult hredis
  have hdecision : result = (if callsInWindow (limits.seconds c.scope : Instant)
      (callsOf c.client h) c.time < limits.times c.scope then .ok ()
        else .error tooManyRequests) := hresult
  refine ⟨hdecision, ⟨?_, ?_⟩, ?_⟩
  · have hself : (c.scope, c.clientHost) = c.client := rfl
    rw [hredis, hself, hcalls, windowEntry, lastOpening_snoc]
    exact ExpiringStore.entry_put_self
  · have hself : (c.scope, c.clientHost) = c.client := rfl
    rw [hself, hcalls, admitted_snoc, admittedOf_snoc, ← hself, htracks.admitted]
    congr 1
    by_cases hadmits : callsInWindow (limits.seconds c.scope : Instant) (callsOf c.client h)
        c.time < limits.times c.scope
    · have hok : result = .ok () := hdecision.trans (if_pos hadmits)
      rw [hself, if_pos hadmits, if_pos ⟨hself, by rw [hok]; rfl⟩]
    · have hrejected : result = .error tooManyRequests := hdecision.trans (if_neg hadmits)
      rw [hself, if_neg hadmits, if_neg]
      rintro ⟨_, hok⟩
      rw [hrejected] at hok
      cases hok
  · intro key hkey
    rw [hredis]
    exact ExpiringStore.entry_put_of_ne hkey

theorem perform_other (hother : c.client ≠ (scope, clientHost))
    (hkey : limiterKey scope clientHost ≠ limiterKey c.scope c.clientHost)
    (hframe : ∀ key ≠ limiterKey c.scope c.clientHost, s'.redis.entry key = s.redis.entry key)
    (htracks : Tracks limits h s scope clientHost) :
    Tracks limits (h ++ [⟨s, (c, result), s'⟩]) s' scope clientHost := by
  have hcalls : callsOf (scope, clientHost) (h ++ [⟨s, (c, result), s'⟩]) =
      callsOf (scope, clientHost) h := callsOf_snoc_other hother
  refine ⟨?_, ?_⟩
  · rw [hframe _ hkey, hcalls]
    exact htracks.entry
  · rw [hcalls, admittedOf_snoc, if_neg (fun hsame => hother hsame.1), List.append_nil]
    exact htracks.admitted

theorem run_tracks {s₀ : Server} (hseconds : ∀ scope, 0 < limits.seconds scope)
    (hclear : ∀ scope clientHost, s₀.redis.entry (limiterKey scope clientHost) = none)
    (r : CallRun limits s₀ h s) (hordered : Ordered h)
    (hscopes : ∀ t ∈ h, ':' ∉ t.label.1.scope.toList) (hscope : ':' ∉ scope.toList) :
    Tracks limits h s scope clientHost := by
  induction r generalizing scope clientHost with
  | start => exact ⟨hclear scope clientHost, rfl⟩
  | @snoc h s s' l r hstep ih =>
    obtain ⟨c, result⟩ := l
    have hordered' := hordered.of_prefix (List.prefix_append h [⟨s, (c, result), s'⟩])
    have hscopes' := fun t ht => hscopes t (List.mem_append_left _ ht)
    have hc : ':' ∉ c.scope.toList :=
      hscopes _ (List.mem_append_right _ (List.mem_singleton_self _))
    obtain ⟨_, hself, hframe⟩ := perform_windows (hseconds c.scope) hordered
      (ih hordered' hscopes' hc) hstep
    by_cases hsame : c.client = (scope, clientHost)
    · obtain ⟨rfl, rfl⟩ := Prod.mk.inj hsame
      exact hself
    · refine perform_other hsame (fun hkey => hsame ?_) hframe (ih hordered' hscopes' hscope)
      exact (limiterKey_inj hscope hc hkey).symm

/-- Every call of the run is decided by the earlier calls of its client. -/
theorem run_decision {s₀ : Server} (hseconds : ∀ scope, 0 < limits.seconds scope)
    (hclear : ∀ scope clientHost, s₀.redis.entry (limiterKey scope clientHost) = none)
    (r : CallRun limits s₀ h s) (hordered : Ordered h)
    (hscopes : ∀ t ∈ h, ':' ∉ t.label.1.scope.toList) {before : List CallTransition}
    {t : CallTransition} (hp : before ++ [t] <+: h) :
    t.label.2 = if callsInWindow (limits.seconds t.label.1.scope : Instant)
        (callsOf t.label.1.client before) t.label.1.time < limits.times t.label.1.scope then .ok ()
      else .error tooManyRequests := by
  obtain ⟨rb, hstep⟩ := r.of_prefix_snoc hp
  have hpb : before <+: h := (List.prefix_append _ _).trans hp
  have htracks : Tracks limits before t.source t.label.1.scope t.label.1.clientHost :=
    run_tracks hseconds hclear rb (hordered.of_prefix hpb)
      (fun t' ht' => hscopes t' (hpb.subset ht')) (hscopes t (hp.subset (by simp)))
  exact (perform_windows (hseconds t.label.1.scope) (hordered.of_prefix hp) htracks hstep).1

end Runs

/-- Over every ordered sequence of calls, of any hosts and of scopes without a colon,
the limiter is the fixed-window machine of each client on its own: a call is admitted
if and only if fewer than `times` earlier calls of the client fall into its window, a
rejected call leaves the window as it is, the key holds the count and the closing of
the window, and no time of one window's length admits more than `2 * times` calls. -/
theorem limiter_is_fixed_window {limits : Limits} {s₀ s : Server} {h : List CallTransition}
    (htimes : ∀ scope, 1 ≤ limits.times scope) (hseconds : ∀ scope, 1 ≤ limits.seconds scope)
    (hclear : ∀ scope clientHost, s₀.redis.entry (limiterKey scope clientHost) = none)
    (r : CallRun limits s₀ h s) (hordered : Ordered h)
    (hscopes : ∀ t ∈ h, ':' ∉ t.label.1.scope.toList) :
    (∀ before t, before ++ [t] <+: h →
      (t.label.2 = .ok () ↔
        callsInWindow (limits.seconds t.label.1.scope : Instant)
          (callsOf t.label.1.client before) t.label.1.time < limits.times t.label.1.scope) ∧
      (t.label.2 ≠ .ok () →
        lastOpening (limits.seconds t.label.1.scope : Instant)
            (callsOf t.label.1.client (before ++ [t])) =
          lastOpening (limits.seconds t.label.1.scope : Instant)
            (callsOf t.label.1.client before))) ∧
    (∀ scope clientHost, ':' ∉ scope.toList →
      s.redis.entry (limiterKey scope clientHost) =
        windowEntry (limits.seconds scope) (callsOf (scope, clientHost) h)) ∧
    ∀ scope clientHost a,
      (admittedOf (scope, clientHost) h).countP
        (fun c => a ≤ c ∧ c ≤ a + (limits.seconds scope : Instant)) ≤ 2 * limits.times scope := by
  refine ⟨fun before t hp => ?_, fun scope clientHost hscope => ?_, fun scope clientHost a => ?_⟩
  · have hpb : before <+: h := (List.prefix_append _ _).trans hp
    have hdecision := run_decision hseconds hclear r hordered hscopes hp
    rw [hdecision]
    by_cases hadmits : callsInWindow (limits.seconds t.label.1.scope : Instant)
        (callsOf t.label.1.client before) t.label.1.time < limits.times t.label.1.scope
    · simp [hadmits]
    · refine ⟨by simp [hadmits], fun _ => ?_⟩
      have hcalls : callsOf t.label.1.client (before ++ [t]) =
          callsOf t.label.1.client before ++ [t.label.1.time] := callsOf_snoc_self rfl
      have hlength : (0 : Instant) < limits.seconds t.label.1.scope := by
        exact_mod_cast hseconds t.label.1.scope
      rw [hcalls]
      exact lastOpening_of_rejected hlength (hordered.of_prefix hpb).callsOf
        (htimes t.label.1.scope) (not_lt.mp hadmits)
  · exact (run_tracks hseconds hclear r hordered hscopes hscope).entry
  · by_cases hscope : ':' ∈ scope.toList
    · have hnone : admittedOf (scope, clientHost) h = [] := by
        simp only [admittedOf, List.map_eq_nil_iff, List.filter_eq_nil_iff, decide_eq_true_eq,
          not_and]
        rintro t ht hclient
        obtain ⟨rfl, _⟩ := Prod.mk.inj hclient
        exact absurd hscope (hscopes t ht)
      simp [hnone]
    · have hlength : (0 : Instant) < limits.seconds scope := by exact_mod_cast hseconds scope
      rw [(run_tracks hseconds hclear r hordered hscopes hscope).admitted]
      exact countP_interval_le hlength hordered.callsOf a

/-- Two logins of one client in a second. -/
def sampleCalls : List Call := [⟨0, "login", "10.0.0.1"⟩, ⟨1, "login", "10.0.0.1"⟩]

/-- A scope with a colon in it, and the scope before its colon. -/
def mixedCalls : List Call := [⟨0, "login:2001", "db8::1"⟩, ⟨1, "login", "2001:db8::1"⟩]

/-- One call a minute, in every scope. -/
def oneAMinute : Limits := { times := fun _ => 1, seconds := fun _ => 60 }

def idleServer : Server :=
  { now := 0, db := Database.empty, redis := ExpiringStore.empty, issued := [], mails := [],
    draws := 0 }

def historyOf (calls : List Call) : List CallTransition :=
  Runs.trace oneAMinute.perform idleServer calls

theorem limiter_is_fixed_window_sample :
    (admittedOf ("login", "10.0.0.1") (historyOf sampleCalls)).countP
      (fun c => 0 ≤ c ∧ c ≤ 0 + ((oneAMinute.seconds "login" : Nat) : Instant)) ≤
        2 * oneAMinute.times "login" :=
  (@limiter_is_fixed_window oneAMinute _ _ _ (fun _ => le_rfl)
    (fun _ => (by decide : 1 ≤ 60)) (fun _ _ => rfl)
    (Runs.run_trace oneAMinute.perform idleServer sampleCalls) (by unfold Ordered; decide +kernel)
    (by decide +kernel)).2.2 "login" "10.0.0.1" 0

/-- The second client has not called before and is refused: both share one key. -/
theorem colon_scope_shares_key :
    ∃ h s, CallRun oneAMinute idleServer h s ∧ Ordered h ∧ ∃ before t, before ++ [t] <+: h ∧
      t.label.2 ≠ .ok () ∧
      callsInWindow (oneAMinute.seconds t.label.1.scope : Instant)
        (callsOf t.label.1.client before) t.label.1.time < oneAMinute.times t.label.1.scope := by
  have hrefused : ((oneAMinute.perform
      (oneAMinute.perform idleServer ⟨0, "login:2001", "db8::1"⟩).2
        ⟨1, "login", "2001:db8::1"⟩).1).isOk = false := by decide +kernel
  refine ⟨_, _, Runs.run_trace oneAMinute.perform idleServer mixedCalls,
    by unfold Ordered; decide +kernel, [_], _, List.prefix_refl _, fun hok => ?_, by decide +kernel⟩
  have hok : (oneAMinute.perform (oneAMinute.perform idleServer ⟨0, "login:2001", "db8::1"⟩).2
    ⟨1, "login", "2001:db8::1"⟩).1 = .ok () := hok
  rw [hok] at hrefused
  cases hrefused

end FastApiAuth.RateLimiting
