import FastApiAuth.Cleanup

/-!
# How long an unverified account keeps its address

The beat runs the cleanup once a day, and a row is stale after seven days. As long as the
beat keeps its period, an address whose owner never opened the mail is free again after
eight days, unless an admin has cleared a flag in between.
-/

namespace FastApiAuth.CleanupSchedule

set_option autoImplicit false

open Database Runs

/-- The period of `cleanup-unverified-users-daily`. -/
def beatSchedule : Nat := 24 * 60 * 60

/-- The transition began at most one period before `now`. -/
def Recent (now : Instant) (t : ApiTransition) : Prop := now ≤ t.source.now + beatSchedule

/-- The scheduler is on time: the last cleanup is at most one period ago. -/
def OnSchedule (h : List ApiTransition) (now : Instant) : Prop :=
  ∃ t ∈ h, t.label.1 = .cleanup ∧ Recent now t

/-- A holder of users:write clears the flag of the row. -/
def ClearsFlag (t : ApiTransition) (userId : Nat) : Prop :=
  ∃ credentials payload admin,
    t.label.1 = .request (.updateUserStatus credentials userId payload) ∧
    requirePermissions t.source credentials ["users:write"] = .ok admin ∧
    payload.isVerified = some false

/-- Why a row may stand in the table: it is verified, younger than the grace period and one
more period, or an admin has cleared its flag a moment ago. -/
inductive Excused (h : List ApiTransition) (now : Instant) (u : User) : Prop where
  | verified (isVerified : u.isVerified = true)
  | young (age : now ≤ u.createdAt + unverifiedUserMaxAgeDays * (24 * 60 * 60) + beatSchedule)
  | cleared (t : ApiTransition) (mem : t ∈ h) (recent : Recent now t)
      (clears : ClearsFlag t u.id)

section Steps

variable {env : Env} {s s' : Server} {l : Action × Reply} {u u' : User}

/-- An unverified row was one before, is as young as can be, or has lost its flag just now. -/
theorem unverified_cases (hc : s.db.Consistent) (hstep : Step env s l s') (hu : u' ∈ s'.db.users)
    (hunverified : u'.isVerified = false) :
    (∃ u ∈ s.db.users, u.id = u'.id ∧ u.createdAt = u'.createdAt ∧ u.isVerified = false) ∨
      u'.createdAt = s.now ∨ ClearsFlag ⟨s, l, s'⟩ u'.id := by
  obtain ⟨a, reply⟩ := l
  cases step_row_origin hc hstep hu with
  | kept hmem => exact .inl ⟨u', hmem, rfl, rfl, hunverified⟩
  | passwordReset hmem _ _ _ | emailChanged hmem _ _ _ | passwordChanged hmem _ _ _ _
  | deactivated hmem => exact .inl ⟨_, hmem, rfl, rfl, hunverified⟩
  | registered _ _ _ _ => exact .inr (.inl rfl)
  | signedUp _ _ _ | verified _ _ _ _ _ => cases hunverified
  | @statusUpdated credentials payload admin u hmem hadmin =>
    cases hp : payload.isVerified with
    | none =>
      have hbefore : u.isVerified = false := by
        simpa [AdminUserUpdate.apply, hp] using hunverified
      exact .inl ⟨u, hmem, rfl, rfl, hbefore⟩
    | some isVerified =>
      have hfalse : isVerified = false := by
        simpa [AdminUserUpdate.apply, hp] using hunverified
      subst hfalse
      exact .inr (.inr ⟨credentials, payload, admin, rfl, hadmin, hp⟩)

theorem run_now_le {h : List ApiTransition} (r : ApiRun env s h s') : s.now ≤ s'.now := by
  induction r with
  | start => exact le_rfl
  | snoc _ hstep ih => exact ih.trans (step_effect hstep).now

/-- No row that the cleanup leaves is stale. -/
theorem cleanup_leaves_fresh (hstep : Step env s l s') (hl : l.1 = .cleanup)
    (hu : u ∈ s'.db.users) (hunverified : u.isVerified = false) :
    s.now - unverifiedUserMaxAgeDays * (24 * 60 * 60) ≤ u.createdAt := by
  obtain ⟨a, reply⟩ := l
  subst hl
  obtain rfl : cleanupUnverifiedUsers s = s' := congrArg Prod.snd hstep
  have hkept : staleAt s.now u = false := (mem_deleteUsers.mp hu).2
  rw [staleAt, hunverified] at hkept
  exact not_lt.mp (of_decide_eq_false hkept)

end Steps

section Schedule

variable {env : Env} {s₀ s : Server} {h before after : List ApiTransition} {t : ApiTransition}
variable {u : User}

/-- After a cleanup, whatever follows: a stale row got there by losing its flag. -/
theorem swept (h₀ : s₀.db.Consistent) (r : ApiRun env s₀ (before ++ t :: after) s)
    (hclean : t.label.1 = .cleanup) (hu : u ∈ s.db.users) (hunverified : u.isVerified = false) :
    t.source.now - unverifiedUserMaxAgeDays * (24 * 60 * 60) ≤ u.createdAt ∨
      ∃ t' ∈ after, ClearsFlag t' u.id := by
  obtain ⟨rb, hstep, ra⟩ := r.split_at
  have hc : t.target.db.Consistent :=
    step_consistent (ApiRun.consistent h₀ rb) hstep
  have hnow : t.source.now - unverifiedUserMaxAgeDays * (24 * 60 * 60) ≤ t.target.now := by
    refine le_trans (sub_le_self _ ?_) (step_effect hstep).now
    positivity
  have hfresh := ra.holds_until
    (P := fun s => t.source.now - unverifiedUserMaxAgeDays * (24 * 60 * 60) ≤ s.now ∧
      ∀ v ∈ s.db.users, v.id = u.id → v.isVerified = false →
        t.source.now - unverifiedUserMaxAgeDays * (24 * 60 * 60) ≤ v.createdAt)
    (E := fun t' => ClearsFlag t' u.id) ?_ ⟨hnow, ?_⟩
  · exact hfresh.imp_left fun hall => hall.2 u hu rfl hunverified
  · intro t' ht' hkeeps
    obtain ⟨hle, hrows⟩ := hkeeps
    obtain ⟨before', _, r', hstep'⟩ := ra.step_of_mem ht'
    by_cases hclears : ClearsFlag t' u.id
    · exact .inr hclears
    · refine .inl ⟨hle.trans (step_effect hstep').now, ?_⟩
      intro v' hv' hid hunv
      rcases unverified_cases (ApiRun.consistent hc r') hstep' hv' hunv with
        ⟨v, hv, hvid, hcreated, hvunv⟩ | hnew | hcleared
      · rw [← hcreated]
        exact hrows v hv (hvid.trans hid) hvunv
      · rw [hnew]
        exact hle
      · exact absurd (hid ▸ hcleared) hclears
  · intro v hv _ hunv
    exact cleanup_leaves_fresh hstep hclean hv hunv

/-- While the beat is on time every row has its excuse. -/
theorem excused_of_schedule (h₀ : s₀.db.Consistent) (r : ApiRun env s₀ h s)
    (hbeat : OnSchedule h s.now) (hu : u ∈ s.db.users) : Excused h s.now u := by
  by_cases hverified : u.isVerified = true
  · exact .verified hverified
  obtain ⟨t, ht, hclean, hrecent⟩ := hbeat
  obtain ⟨before, after, rfl⟩ := List.append_of_mem ht
  rcases swept h₀ r hclean hu (by simpa using hverified) with hage | ⟨t', ht', hclears⟩
  · unfold Recent at hrecent
    exact .young (by linarith)
  · obtain ⟨_, hstep, ra⟩ := r.split_at
    obtain ⟨before', hp, r', _⟩ := ra.step_of_mem ht'
    have hle : t.source.now ≤ t'.source.now := (step_effect hstep).now.trans (run_now_le r')
    unfold Recent at hrecent
    exact .cleared t' (by simp [ht']) (by unfold Recent; linarith) hclears

/-- An admitted and valid registration finds the row of its address, or inserts one. -/
theorem register_taken_or_creates {clientHost email : String} {body : UserCreate} (broker : Bool)
    {password : NewPassword env} (hpass : (registerLimiter.call clientHost s).1 = .ok ())
    (hemail : validateEmail env body.email = .ok email)
    (hpassword : validateNewPassword env body.password = .ok password) :
    (∃ u ∈ s.db.users, u.email = env.lower email) ∨
      ∃ u ∈ (handle env (.register clientHost body broker) s).2.db.users,
        u.id = s.db.nextUserId ∧ u.email = env.lower email := by
  cases hfound : s.db.userByEmail (env.lower email) with
  | some u => exact .inl ⟨u, userByEmail_some hfound⟩
  | none => exact .inr (register_creates broker hpass (validateEmail_ok hemail) hpassword hfound)

end Schedule

/-- In every run, in a state where the beat is on time: an unverified row is at most eight
days old or has lost its flag within the last day, and only such a row, or a verified one,
keeps an admitted and valid registration from creating the account. -/
theorem addresses_are_released {env : Env} {s₀ s : Server} {h : List ApiTransition}
    (h₀ : s₀.db.Consistent) (r : ApiRun env s₀ h s) (hbeat : OnSchedule h s.now) :
    (∀ u ∈ s.db.users, Excused h s.now u) ∧
    ∀ clientHost body broker email password,
      (registerLimiter.call clientHost s).1 = .ok () →
      validateEmail env body.email = .ok email →
      validateNewPassword env body.password = .ok password →
      (∃ u ∈ s.db.users, u.email = env.lower email ∧ Excused h s.now u) ∨
        ∃ u ∈ (handle env (.register clientHost body broker) s).2.db.users,
          u.id = s.db.nextUserId ∧ u.email = env.lower email := by
  refine ⟨fun u hu => excused_of_schedule h₀ r hbeat hu, ?_⟩
  intro clientHost body broker email password hpass hemail hpassword
  rcases register_taken_or_creates broker hpass hemail hpassword with
    ⟨u, hu, haddress⟩ | hcreates
  · exact .inl ⟨u, hu, haddress, excused_of_schedule h₀ r hbeat hu⟩
  · exact .inr hcreates

/-- A signup that is never verified, and the cleanup of the eighth day. -/
def staleActions : List Action :=
  [.request (.register "localhost" ⟨"a@example.com", "Passw0rd"⟩ true),
    .wait (8 * 24 * 60 * 60), .cleanup]

/-- The state in which the address is asked for again. -/
def released : Server := Cleanup.afterActions staleActions

theorem addresses_are_released_sample :
    (∀ u ∈ released.db.users, Excused (Cleanup.historyOf staleActions) released.now u) ∧
    ((∃ u ∈ released.db.users, u.email = "a@example.com" ∧
        Excused (Cleanup.historyOf staleActions) released.now u) ∨
      ∃ u ∈ (handle asciiEnv (.register "localhost" ⟨"a@example.com", "Passw0rd"⟩ true)
          released).2.db.users,
        u.id = released.db.nextUserId ∧ u.email = "a@example.com") := by
  have hbeat : OnSchedule (Cleanup.historyOf staleActions) released.now :=
    ⟨_, List.mem_of_getElem? (i := 2) rfl, rfl, by unfold Recent; decide +kernel⟩
  obtain ⟨hrows, hregister⟩ := addresses_are_released (freshServer_initial 0).consistent
    (run_trace (step asciiEnv) (freshServer 0) staleActions) hbeat
  obtain ⟨password, hpassword⟩ : ∃ password : NewPassword asciiEnv,
      validateNewPassword asciiEnv "Passw0rd" = .ok password :=
    ⟨_, rfl⟩
  exact ⟨hrows, hregister "localhost" ⟨"a@example.com", "Passw0rd"⟩ true "a@example.com" password
    (by decide +kernel) (by decide +kernel) hpassword⟩

end FastApiAuth.CleanupSchedule
