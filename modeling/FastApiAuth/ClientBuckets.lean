import FastApiAuth.Api
import FastApiAuth.RateLimiting

/-!
# Which bucket of the rate limiter a client falls into

In production every request comes through the reverse proxy, which appends the address of
the peer to the X-Forwarded-For entries of the request, and the application takes the
first entry for the client host. The first entry is the client's own, if it sends one.
-/

namespace FastApiAuth.ClientBuckets

set_option autoImplicit false

open FixedWindow RateLimiting

/-- The two components in front of the application. -/
structure Deployment where
  /-- `$proxy_add_x_forwarded_for`, from the entries the client sends and its address. -/
  proxyAddXForwardedFor : List String → String → List String
  /-- The host that ProxyHeadersMiddleware finds, with these trusted hosts. -/
  trustedClientHost : List String → List String → String

structure Documented (d : Deployment) : Prop where
  appends : ∀ supplied remoteAddr,
    d.proxyAddXForwardedFor supplied remoteAddr = supplied ++ [remoteAddr]
  first : ∀ host hosts, d.trustedClientHost ["*"] (host :: hosts) = host

/-- `TRUSTED_PROXY_IPS` of docker-compose.prod.yml, split at the commas. -/
def trustedProxyIps : List String := ["*"]

/-- `request.client.host` behind the wrapper at the end of main.py. -/
def clientHost (d : Deployment) (trustedProxyIps : List String) (proxyHost remoteAddr : String)
    (supplied : List String) : String :=
  if trustedProxyIps.isEmpty then proxyHost
  else d.trustedClientHost trustedProxyIps (d.proxyAddXForwardedFor supplied remoteAddr)

/-- A request of one peer, with the X-Forwarded-For entries it sends. -/
structure Arrival where
  time : Instant
  supplied : List String

def everyScope (limiter : RateLimiter) : Limits :=
  { times := fun _ => limiter.times, seconds := fun _ => limiter.seconds }

def limiterCall (d : Deployment) (limiter : RateLimiter) (proxyHost remoteAddr : String)
    (a : Arrival) : Call :=
  ⟨a.time, limiter.scope, clientHost d trustedProxyIps proxyHost remoteAddr a.supplied⟩

/-- The limiter's answers to the requests of one peer. -/
def history (d : Deployment) (limiter : RateLimiter) (proxyHost remoteAddr : String)
    (s₀ : Server) (arrivals : List Arrival) : List CallTransition :=
  Runs.trace (everyScope limiter).perform s₀
    (arrivals.map (limiterCall d limiter proxyHost remoteAddr))

def admittedTimes (h : List CallTransition) : List Instant :=
  (h.filter fun t => t.label.2.isOk).map fun t => t.label.1.time

/-- In every window of the peer's requests at most `times` of them are admitted. -/
def Limited (d : Deployment) (limiter : RateLimiter) (proxyHost remoteAddr : String)
    (s₀ : Server) (arrivals : List Arrival) : Prop :=
  WithinWindows limiter.times (limiter.seconds : Instant) (arrivals.map Arrival.time)
    (admittedTimes (history d limiter proxyHost remoteAddr s₀ arrivals))

section Histories

variable {d : Deployment} {limiter : RateLimiter} {proxyHost remoteAddr host : String}
variable {s₀ : Server} {arrivals : List Arrival} {h : List CallTransition}

theorem clientHost_eq (hd : Documented d) (proxyHost remoteAddr : String) (supplied : List String) :
    some (clientHost d trustedProxyIps proxyHost remoteAddr supplied) =
      (supplied ++ [remoteAddr]).head? := by
  unfold clientHost trustedProxyIps
  rw [if_neg (by decide), hd.appends]
  cases supplied with
  | nil => exact congrArg some (hd.first _ _)
  | cons host hosts => exact congrArg some (hd.first _ _)

variable (d limiter proxyHost remoteAddr s₀ arrivals) in
theorem history_labels :
    (history d limiter proxyHost remoteAddr s₀ arrivals).map (fun t => t.label.1) =
      arrivals.map (limiterCall d limiter proxyHost remoteAddr) :=
  Runs.map_trace _ _ _

variable (d limiter proxyHost remoteAddr s₀ arrivals) in
theorem history_times :
    (history d limiter proxyHost remoteAddr s₀ arrivals).map (fun t => t.label.1.time) =
      arrivals.map Arrival.time := by
  have hlabels := congrArg (List.map Call.time)
    (history_labels d limiter proxyHost remoteAddr s₀ arrivals)
  simpa [List.map_map, limiterCall, Function.comp_def] using hlabels

theorem history_scope {t : CallTransition}
    (ht : t ∈ history d limiter proxyHost remoteAddr s₀ arrivals) :
    t.label.1.scope = limiter.scope := by
  have hmem := List.mem_map_of_mem (f := fun t => t.label.1) ht
  rw [history_labels] at hmem
  obtain ⟨a, _, ha⟩ := List.mem_map.mp hmem
  exact ha ▸ rfl

variable (d limiter proxyHost remoteAddr s₀) in
theorem mem_history_of_mem {a : Arrival} (ha : a ∈ arrivals) :
    ∃ t ∈ history d limiter proxyHost remoteAddr s₀ arrivals,
      t.label.1 = limiterCall d limiter proxyHost remoteAddr a := by
  have hmem := List.mem_map_of_mem (f := limiterCall d limiter proxyHost remoteAddr) ha
  rw [← history_labels d limiter proxyHost remoteAddr s₀] at hmem
  obtain ⟨t, ht, he⟩ := List.mem_map.mp hmem
  exact ⟨t, ht, he⟩

/-- With all calls in one bucket, the admitted ones are those of that bucket. -/
theorem admittedTimes_of_one_client {client : String × String}
    (hone : ∀ t ∈ h, t.label.1.client = client) :
    admittedTimes h = admittedOf client h ∧
      callsOf client h = h.map fun t => t.label.1.time := by
  unfold admittedTimes admittedOf callsOf
  constructor
  · congr 1
    refine List.filter_congr fun t ht => ?_
    simp [hone t ht]
  · rw [List.filter_eq_self.mpr fun t ht => by simp [hone t ht]]

variable (h) in
/-- Two buckets share no call. -/
theorem length_admittedOf_add_le {c c' : String × String} (hne : c ≠ c') :
    (admittedOf c h).length + (admittedOf c' h).length ≤ (admittedTimes h).length := by
  unfold admittedOf admittedTimes
  simp only [List.length_map, ← List.countP_eq_length_filter]
  induction h with
  | nil => simp
  | cons t h ih =>
    simp only [List.countP_cons]
    by_cases hok : t.label.2.isOk = true
    · by_cases hc : t.label.1.client = c
      · have hc' : t.label.1.client ≠ c' := hc ▸ hne
        simp only [hok, hc, hne, and_true, decide_true, decide_false, if_true]
        simp only [Bool.false_eq_true, if_false]
        omega
      · simp only [hok, hc, and_true, decide_false, if_true, Bool.false_eq_true, if_false]
        split <;> omega
    · simp only [hok, and_false, decide_false, Bool.false_eq_true, if_false]
      omega

end Histories

section Buckets

variable {d : Deployment} {limiter : RateLimiter} {proxyHost remoteAddr : String}
variable {s₀ : Server} {arrivals : List Arrival} {supplied : List (List String)}

/-- What the limiter is built with, and a Redis without counters. -/
structure Started (limiter : RateLimiter) (s₀ : Server) : Prop where
  times : 1 ≤ limiter.times
  seconds : 1 ≤ limiter.seconds
  scope : ':' ∉ limiter.scope.toList
  clear : ∀ scope clientHost, s₀.redis.entry (limiterKey scope clientHost) = none

theorem history_run (d : Deployment) (limiter : RateLimiter) (proxyHost remoteAddr : String)
    (s₀ : Server) (arrivals : List Arrival) :
    ∃ s, CallRun (everyScope limiter) s₀ (history d limiter proxyHost remoteAddr s₀ arrivals) s :=
  ⟨_, Runs.run_trace _ _ _⟩

theorem history_ordered (hordered : (arrivals.map Arrival.time).Pairwise (· ≤ ·)) :
    Ordered (history d limiter proxyHost remoteAddr s₀ arrivals) := by
  unfold Ordered
  rwa [history_times]

theorem history_scopes (hs : Started limiter s₀) :
    ∀ t ∈ history d limiter proxyHost remoteAddr s₀ arrivals, ':' ∉ t.label.1.scope.toList := by
  intro t ht
  rw [history_scope ht]
  exact hs.scope

theorem everyScope_seconds (hs : Started limiter s₀) (scope : String) :
    0 < (everyScope limiter).seconds scope :=
  hs.seconds

theorem bucket_admits (hs : Started limiter s₀)
    (hordered : (arrivals.map Arrival.time).Pairwise (· ≤ ·)) (host : String) :
    admittedOf (limiter.scope, host) (history d limiter proxyHost remoteAddr s₀ arrivals) =
      admitted limiter.times (limiter.seconds : Instant)
        (callsOf (limiter.scope, host) (history d limiter proxyHost remoteAddr s₀ arrivals)) := by
  obtain ⟨s, r⟩ := history_run d limiter proxyHost remoteAddr s₀ arrivals
  exact (run_tracks (everyScope_seconds hs) hs.clear r (history_ordered hordered)
    (history_scopes hs) hs.scope).admitted

/-- Requests that all name one host first are one client to the limiter. -/
theorem limited_of_one_host (hd : Documented d) (hs : Started limiter s₀)
    (hordered : (arrivals.map Arrival.time).Pairwise (· ≤ ·))
    (hone : ∀ a ∈ arrivals, ∀ b ∈ arrivals,
      (a.supplied ++ [remoteAddr]).head? = (b.supplied ++ [remoteAddr]).head?) :
    Limited d limiter proxyHost remoteAddr s₀ arrivals := by
  have hlength : (0 : Instant) < limiter.seconds := by exact_mod_cast hs.seconds
  cases arrivals with
  | nil => simp [Limited, WithinWindows, admittedTimes, history, Runs.trace]
  | cons a rest =>
    have hclient : ∀ t ∈ history d limiter proxyHost remoteAddr s₀ (a :: rest),
        t.label.1.client = (limiter.scope, clientHost d trustedProxyIps proxyHost remoteAddr
          a.supplied) := by
      intro t ht
      have hmem := List.mem_map_of_mem (f := fun t => t.label.1) ht
      rw [history_labels] at hmem
      obtain ⟨b, hb, he⟩ := List.mem_map.mp hmem
      have hhost := hone b hb a List.mem_cons_self
      rw [← clientHost_eq hd proxyHost, ← clientHost_eq hd proxyHost] at hhost
      rw [← he, Call.client, limiterCall, Option.some_inj.mp hhost]
    obtain ⟨hadmitted, hcalls⟩ := admittedTimes_of_one_client hclient
    unfold Limited
    rw [hadmitted, bucket_admits hs hordered, hcalls, history_times]
    exact admitted_withinWindows limiter.times hlength hordered

/-- So many requests fit into any window. -/
theorem limited_of_few (hfew : arrivals.length ≤ limiter.times) :
    Limited d limiter proxyHost remoteAddr s₀ arrivals := by
  intro before o _ _
  calc (admittedTimes (history d limiter proxyHost remoteAddr s₀ arrivals)).countP _
      ≤ (admittedTimes (history d limiter proxyHost remoteAddr s₀ arrivals)).length :=
        List.countP_le_length
    _ ≤ (history d limiter proxyHost remoteAddr s₀ arrivals).length := by
        rw [admittedTimes, List.length_map]
        exact List.length_filter_le _ _
    _ = arrivals.length := by
        rw [← List.length_map (f := fun t : CallTransition => t.label.1.time), history_times,
          List.length_map]
    _ ≤ limiter.times := hfew

/-- The requests of a peer that come all at once. -/
def atOnce (supplied : List (List String)) : List Arrival := supplied.map fun x => ⟨0, x⟩

theorem atOnce_ordered (supplied : List (List String)) :
    ((atOnce supplied).map Arrival.time).Pairwise (· ≤ ·) := by
  rw [atOnce, List.map_map, List.pairwise_map]
  exact List.pairwise_of_forall fun _ _ => le_rfl

theorem history_atOnce_time {t : CallTransition}
    (ht : t ∈ history d limiter proxyHost remoteAddr s₀ (atOnce supplied)) :
    t.label.1.time = 0 := by
  have hmem := List.mem_map_of_mem (f := fun t => t.label.1.time) ht
  rw [history_times, atOnce, List.map_map] at hmem
  obtain ⟨x, _, hx⟩ := List.mem_map.mp hmem
  exact hx.symm

variable (d proxyHost remoteAddr supplied) in
/-- At one instant a bucket admits what it may and no more. -/
theorem length_admittedOf_atOnce (hs : Started limiter s₀) (host : String) :
    (admittedOf (limiter.scope, host)
      (history d limiter proxyHost remoteAddr s₀ (atOnce supplied))).length =
      min (callsOf (limiter.scope, host)
        (history d limiter proxyHost remoteAddr s₀ (atOnce supplied))).length limiter.times := by
  have hlength : (0 : Instant) < limiter.seconds := by exact_mod_cast hs.seconds
  have hzero : callsOf (limiter.scope, host)
      (history d limiter proxyHost remoteAddr s₀ (atOnce supplied)) =
      List.replicate (callsOf (limiter.scope, host)
        (history d limiter proxyHost remoteAddr s₀ (atOnce supplied))).length 0 := by
    refine List.eq_replicate_iff.mpr ⟨rfl, fun c hc => ?_⟩
    obtain ⟨t, ht, rfl⟩ := List.mem_map.mp hc
    exact history_atOnce_time (List.mem_of_mem_filter ht)
  rw [bucket_admits hs (atOnce_ordered supplied), hzero, length_admitted_replicate hlength,
    List.length_replicate]

/-- The first of them opens a window that all of them fall into. -/
theorem length_admittedTimes_le (hs : Started limiter s₀) (hne : supplied ≠ [])
    (hlimited : Limited d limiter proxyHost remoteAddr s₀ (atOnce supplied)) :
    (admittedTimes (history d limiter proxyHost remoteAddr s₀ (atOnce supplied))).length ≤
      limiter.times := by
  have hlength : (0 : Instant) < limiter.seconds := by exact_mod_cast hs.seconds
  obtain ⟨x, rest, rfl⟩ := List.exists_cons_of_ne_nil hne
  have hwindow := hlimited [0] 0 ⟨(atOnce rest).map Arrival.time, rfl⟩ rfl
  refine le_trans (le_of_eq ?_) hwindow
  refine (List.countP_eq_length.mpr fun c hc => ?_).symm
  obtain ⟨t, ht, rfl⟩ := List.mem_map.mp hc
  simp [history_atOnce_time (List.mem_of_mem_filter ht), hlength]

/-- A bucket that has refused a request is full. -/
theorem exists_full_bucket (hs : Started limiter s₀) (hmany : limiter.times < supplied.length)
    (hlimited : Limited d limiter proxyHost remoteAddr s₀ (atOnce supplied)) :
    ∃ host, (admittedOf (limiter.scope, host)
      (history d limiter proxyHost remoteAddr s₀ (atOnce supplied))).length = limiter.times := by
  have hle := length_admittedTimes_le hs (List.ne_nil_of_length_pos (by omega)) hlimited
  generalize hh : history d limiter proxyHost remoteAddr s₀ (atOnce supplied) = h at hle ⊢
  have hlen : h.length = supplied.length := by
    rw [← hh, ← List.length_map (f := fun t : CallTransition => t.label.1.time), history_times]
    simp [atOnce]
  obtain ⟨t, ht, hrefused⟩ : ∃ t ∈ h, ¬ t.label.2.isOk = true := by
    refine List.length_filter_lt_length_iff_exists.mp ?_
    rw [admittedTimes, List.length_map] at hle
    omega
  obtain ⟨s, r⟩ := history_run d limiter proxyHost remoteAddr s₀ (atOnce supplied)
  have hordered : Ordered h := hh ▸ history_ordered (atOnce_ordered supplied)
  have hscopes : ∀ t ∈ h, ':' ∉ t.label.1.scope.toList := hh ▸ history_scopes hs
  rw [hh] at r
  obtain ⟨before, hp, _, _⟩ := r.step_of_mem ht
  have hdecision := run_decision (everyScope_seconds hs) hs.clear r hordered hscopes hp
  have hfull : limiter.times ≤ (callsOf t.label.1.client before).length := by
    by_contra hroom
    have hadmits : callsInWindow ((everyScope limiter).seconds t.label.1.scope : Instant)
        (callsOf t.label.1.client before) t.label.1.time <
          (everyScope limiter).times t.label.1.scope :=
      List.countP_le_length.trans_lt (not_le.mp hroom)
    rw [hdecision, if_pos hadmits] at hrefused
    exact hrefused rfl
  have hsub : (callsOf t.label.1.client before).length ≤ (callsOf t.label.1.client h).length := by
    have hbefore : before.Sublist h := ((List.prefix_append _ _).trans hp).sublist
    exact ((hbefore.filter _).map _).length_le
  have hscope : t.label.1.scope = limiter.scope := history_scope (hh ▸ ht)
  refine ⟨t.label.1.clientHost, ?_⟩
  have hclient : t.label.1.client = (limiter.scope, t.label.1.clientHost) := by
    rw [Call.client, hscope]
  rw [hclient] at hfull hsub
  rw [← hh] at hsub ⊢
  rw [length_admittedOf_atOnce d proxyHost remoteAddr supplied hs]
  omega

/-- Too many requests at once are held back only if one host is named first in all. -/
theorem one_host_of_limited (hd : Documented d) (hs : Started limiter s₀)
    (hmany : limiter.times < supplied.length)
    (hlimited : Limited d limiter proxyHost remoteAddr s₀ (atOnce supplied)) :
    ∀ x ∈ supplied, ∀ y ∈ supplied, (x ++ [remoteAddr]).head? = (y ++ [remoteAddr]).head? := by
  have hle := length_admittedTimes_le hs (List.ne_nil_of_length_pos (by omega)) hlimited
  obtain ⟨full, hfull⟩ := exists_full_bucket hs hmany hlimited
  -- a second bucket would admit one request more
  have hsame : ∀ x ∈ supplied,
      clientHost d trustedProxyIps proxyHost remoteAddr x = full := by
    intro x hx
    by_contra hne
    have ha : (⟨0, x⟩ : Arrival) ∈ atOnce supplied := List.mem_map_of_mem hx
    obtain ⟨t, ht, hlabel⟩ := mem_history_of_mem d limiter proxyHost remoteAddr s₀ ha
    have hpos : 0 < (callsOf (limiter.scope,
        clientHost d trustedProxyIps proxyHost remoteAddr x)
        (history d limiter proxyHost remoteAddr s₀ (atOnce supplied))).length := by
      refine List.length_pos_of_mem (List.mem_map_of_mem (List.mem_filter.mpr ⟨ht, ?_⟩))
      simp [hlabel, Call.client, limiterCall]
    have hadmits := length_admittedOf_atOnce d proxyHost remoteAddr supplied hs
      (clientHost d trustedProxyIps proxyHost remoteAddr x)
    have hsum := length_admittedOf_add_le
      (history d limiter proxyHost remoteAddr s₀ (atOnce supplied))
      (show (limiter.scope, full) ≠
        (limiter.scope, clientHost d trustedProxyIps proxyHost remoteAddr x) from
          fun he => hne (Prod.mk.inj he).2.symm)
    have htimes := hs.times
    omega
  intro x hx y hy
  rw [← clientHost_eq hd proxyHost, ← clientHost_eq hd proxyHost, hsame x hx, hsame y hy]

/-- Whatever the instants of its requests are, a peer that sends these X-Forwarded-For
entries gets at most `times` of them admitted in each of its windows, if and only if there
are no more than `times`, or all of them fall under the same first entry. -/
theorem peer_limited_iff (hd : Documented d) (hs : Started limiter s₀) :
    (∀ arrivals : List Arrival, arrivals.map Arrival.supplied = supplied →
      (arrivals.map Arrival.time).Pairwise (· ≤ ·) →
      Limited d limiter proxyHost remoteAddr s₀ arrivals) ↔
    supplied.length ≤ limiter.times ∨
      ∀ x ∈ supplied, ∀ y ∈ supplied,
        (x ++ [remoteAddr]).head? = (y ++ [remoteAddr]).head? := by
  constructor
  · intro hall
    have hatOnce : (atOnce supplied).map Arrival.supplied = supplied := by
      simp [atOnce, Function.comp_def]
    rcases Nat.lt_or_ge limiter.times supplied.length with hmany | hfew
    · exact .inr (one_host_of_limited hd hs hmany
        (hall _ hatOnce (atOnce_ordered supplied)))
    · exact .inl hfew
  · rintro (hfew | hone) arrivals rfl hordered
    · exact limited_of_few (by simpa using hfew)
    · refine limited_of_one_host hd hs hordered fun a ha b hb => ?_
      exact hone _ (List.mem_map_of_mem ha) _ (List.mem_map_of_mem hb)

end Buckets

/-- nginx and the middleware, as far as the assumptions on them go. -/
def documentedDeployment : Deployment where
  proxyAddXForwardedFor := fun supplied remoteAddr => supplied ++ [remoteAddr]
  trustedClientHost := fun _ hosts => hosts.headD ""

theorem documentedDeployment_documented : Documented documentedDeployment :=
  ⟨fun _ _ => rfl, fun _ _ => rfl⟩

theorem idleServer_started : Started loginLimiter idleServer :=
  ⟨by decide, by decide, by decide, fun _ _ => rfl⟩

/-- A login a second without the header. -/
def plainArrivals : List Arrival :=
  [⟨0, []⟩, ⟨1, []⟩, ⟨2, []⟩, ⟨3, []⟩, ⟨4, []⟩, ⟨5, []⟩]

theorem peer_limited_iff_sample :
    Limited documentedDeployment loginLimiter "172.18.0.5" "203.0.113.7" idleServer
      plainArrivals :=
  (peer_limited_iff documentedDeployment_documented idleServer_started).mpr
    (.inr (by decide)) plainArrivals rfl (by decide +kernel)

/-- A login a second, each under another first entry. -/
def forgedArrivals : List Arrival :=
  [⟨0, ["10.0.0.0"]⟩, ⟨1, ["10.0.0.1"]⟩, ⟨2, ["10.0.0.2"]⟩, ⟨3, ["10.0.0.3"]⟩,
    ⟨4, ["10.0.0.4"]⟩, ⟨5, ["10.0.0.5"]⟩]

/-- All six logins of the minute are admitted, where five may be. -/
theorem forged_entries_admitted :
    (forgedArrivals.map Arrival.time).Pairwise (· ≤ ·) ∧
    (admittedTimes (history documentedDeployment loginLimiter "172.18.0.5" "203.0.113.7"
      idleServer forgedArrivals)).length = 6 ∧
    ¬ Limited documentedDeployment loginLimiter "172.18.0.5" "203.0.113.7" idleServer
      forgedArrivals := by
  have hsix : (admittedTimes (history documentedDeployment loginLimiter "172.18.0.5"
      "203.0.113.7" idleServer forgedArrivals)).countP
        (fun c => (0 : Instant) ≤ c ∧ c < 0 + (loginLimiter.seconds : Nat)) = 6 := by
    decide +kernel
  refine ⟨by decide +kernel, by decide +kernel, fun hlimited => ?_⟩
  have hwindow := hlimited [0] 0 ⟨_, rfl⟩ rfl
  rw [hsix] at hwindow
  exact absurd hwindow (by decide)

end FastApiAuth.ClientBuckets
