import FastApiAuth.FileCorrespondence
import FastApiAuth.Provenance
import FastApiAuth.RoleRaces
import FastApiAuth.TokenStamps

/-!
# The scheduled cleanup, statement by statement

One execution of cleanup_unverified_users reads the clock, selects the rows, loads the
roles of each and flushes the deletes. The queue acknowledges late, so two executions may
overlap, and the API goes on between any two statements. What a late delete can hit is
the account that the SELECT has found, and no other.
-/

namespace FastApiAuth.CleanupRace

set_option autoImplicit false

open Database DefaultRole Processes Runs
open RoleRaces (holds holds_iff)

universe u

/-- The next statement of an execution, with what its session holds. `finished none` is an
exception. -/
inductive Pc where
  | start
  | dated (now : Instant)
  | loading (staleUsers rest : List User) (pairs : List (Nat × Nat))
  | finished (deletedCount : Option Nat)

section Statements

def selectStep (now : Instant) (s : Server) : Pc :=
  let staleUsers := s.db.users.filter (staleAt now)
  .loading staleUsers staleUsers []

/-- The pairs of `user.roles`, for the DELETE on the association table. -/
def loadRoles (user : User) (s : Server) : List (Nat × Nat) :=
  (s.db.rolesOf user.id).map fun role => (user.id, role.id)

/-- The flush and the commit. With `sane` the driver reports how many pairs the DELETE has
found, and the flush raises where one was missing; a missing row of users draws a warning. -/
def deleteStep (sane : Bool) (staleUsers : List User) (pairs : List (Nat × Nat)) (s : Server) :
    Server × Pc :=
  if sane && pairs.any (fun p => !holds s.db p.1 p.2) then (s, .finished none)
  else
    ({ s with db := s.db.deleteUsers fun u => staleUsers.any fun v => v.id = u.id },
      .finished (some staleUsers.length))

def taskStep (sane : Bool) (s : Server) : Pc → Server × Pc
  | .start => (s, .dated s.now)
  | .dated now => (s, selectStep now s)
  | .loading staleUsers (user :: rest) pairs =>
    (s, .loading staleUsers rest (pairs ++ loadRoles user s))
  | .loading staleUsers [] pairs => deleteStep sane staleUsers pairs s
  | .finished deletedCount => (s, .finished deletedCount)

end Statements

section Alone

variable {sane : Bool} {s : Server}

theorem deleteUsers_congr {db : Database} {doomed doomed' : User → Bool}
    (h : ∀ u ∈ db.users, doomed u = doomed' u) :
    db.deleteUsers doomed = db.deleteUsers doomed' := by
  have hkept : (db.users.filter fun u => !doomed u) = db.users.filter fun u => !doomed' u := by
    apply List.filter_congr
    intro u hu
    rw [h u hu]
  unfold deleteUsers
  rw [hkept]

/-- One execution on its own. -/
def next (sane : Bool) (p : Server × Pc) : Server × Pc := taskStep sane p.1 p.2

theorem loads_alone (staleUsers rest : List User) (pairs : List (Nat × Nat)) :
    (next sane)^[rest.length] (s, .loading staleUsers rest pairs) =
      (s, .loading staleUsers [] (pairs ++ rest.flatMap fun user => loadRoles user s)) := by
  induction rest generalizing pairs with
  | nil => simp
  | cons user rest ih =>
    rw [List.length_cons, Function.iterate_succ_apply]
    change (next sane)^[rest.length] (s, .loading staleUsers rest (pairs ++ loadRoles user s)) = _
    rw [ih, List.flatMap_cons, List.append_assoc]

theorem deleteStep_loaded (hc : s.db.Consistent) (now : Instant) :
    deleteStep sane (s.db.users.filter (staleAt now))
        ((s.db.users.filter (staleAt now)).flatMap fun user => loadRoles user s) s =
      ({ s with db := s.db.deleteUsers (staleAt now) },
        .finished (some (s.db.users.filter (staleAt now)).length)) := by
  unfold deleteStep
  rw [if_neg]
  · congr 2
    rw [deleteUsers_congr]
    intro u hu
    rw [Bool.eq_iff_iff, List.any_eq_true]
    constructor
    · rintro ⟨v, hv, hid⟩
      obtain ⟨hmem, hstale⟩ := List.mem_filter.mp hv
      rwa [← hc.eq_of_id hmem hu (of_decide_eq_true hid)]
    · intro hstale
      exact ⟨u, List.mem_filter.mpr ⟨hu, hstale⟩, decide_eq_true rfl⟩
  · intro hmissing
    obtain ⟨_, hany⟩ := Bool.and_eq_true_iff.mp hmissing
    obtain ⟨p, hp, hnone⟩ := List.any_eq_true.mp hany
    obtain ⟨user, _, hp⟩ := List.mem_flatMap.mp hp
    obtain ⟨role, hrole, rfl⟩ := List.mem_map.mp hp
    rw [holds_iff.mpr (mem_rolesOf.mp hrole).2] at hnone
    cases hnone

/-- The steps of one execution, with nothing in between, are the task at once. -/
theorem alone_eq_cleanup (sane : Bool) (hc : s.db.Consistent) :
    (next sane)^[(s.db.users.filter (staleAt s.now)).length + 3] (s, .start) =
      (cleanupUnverifiedUsers s, .finished (some (s.db.users.filter (staleAt s.now)).length)) := by
  rw [show ∀ n : Nat, n + 3 = 1 + (n + 2) by omega, Function.iterate_add_apply]
  rw [Function.iterate_add_apply]
  have hselected : (next sane)^[2] (s, .start) = (s, selectStep s.now s) := rfl
  rw [hselected]
  unfold selectStep
  dsimp only
  rw [loads_alone, List.nil_append]
  exact deleteStep_loaded hc s.now

end Alone

section Executions

/-- The rest of the API; every execution of the task is a process. -/
def Others (env : Env) (s s' : Server) : Prop :=
  ∃ a reply, Step env s (a, reply) s' ∧ a ≠ .cleanup

/-- What makes the row `userId` verified. -/
inductive Verifying (s : Server) (userId : Nat) : Action → Prop where
  | verifyEmail {token : Token} {claims : TokenClaims Instant} :
      s.decodeEmailVerificationToken token = some claims →
      PyInt.int claims.subject = some (userId : Int) →
      Verifying s userId (.request (.verifyEmail token))
  | decreed {credentials : Token} {payload : AdminUserUpdate} {admin : User} :
      requirePermissions s credentials ["users:write"] = .ok admin →
      payload.isVerified = some true →
      Verifying s userId (.request (.updateUserStatus credentials userId payload))

end Executions

section Races

variable {ι : Type u} [DecidableEq ι]

def act (sane : Bool) (_ : ι) (_ : Unit) (s : Server) (pc : Pc) : Server × Pc := taskStep sane s pc

abbrev RaceTransition (ι : Type u) := Transition (Config ι Server Pc) (Label ι Unit)

abbrev Race (ι : Type u) [DecidableEq ι] (env : Env) (sane : Bool) :
    Config ι Server Pc → Label ι Unit → Config ι Server Pc → Prop :=
  Processes.Step (Computes (act sane)) (Others env)

/-- The execution `i` runs its SELECT and finds these rows. -/
structure Selects (t : RaceTransition ι) (i : ι) (staleUsers : List User) : Prop where
  label : t.label = .process i ()
  found : ∀ v ∈ staleUsers, v ∈ t.source.shared.db.users ∧ staleAt t.source.shared.now v = true

/-- A request of the API makes the row verified. -/
def Verifies (env : Env) (t : RaceTransition ι) (userId : Nat) : Prop :=
  t.label = .surroundings ∧ ∃ a reply,
    Step env t.source.shared (a, reply) t.target.shared ∧ Verifying t.source.shared userId a

/-- A holder of users:write sets is_verified of the row. -/
def Decrees (env : Env) (t : RaceTransition ι) (userId : Nat) : Prop :=
  t.label = .surroundings ∧ ∃ credentials payload admin reply,
    Step env t.source.shared (.request (.updateUserStatus credentials userId payload), reply)
      t.target.shared ∧
    payload.isVerified = some true ∧
    requirePermissions t.source.shared credentials ["users:write"] = .ok admin

variable {env : Env} {sane : Bool} {s s' : Server} {c c' c₀ : Config ι Server Pc}
variable {l : Label ι Unit} {h : List (RaceTransition ι)} {userId : Nat} {user : User}

theorem taskStep_users {pc : Pc} (hv : user ∈ (taskStep sane s pc).1.db.users) :
    user ∈ s.db.users := by
  cases pc with
  | start | dated _ | finished _ => exact hv
  | loading staleUsers rest pairs =>
    cases rest with
    | cons _ _ => exact hv
    | nil =>
      simp only [taskStep, deleteStep] at hv
      split at hv
      · exact hv
      · exact (mem_deleteUsers.mp hv).1

theorem taskStep_frame (sane : Bool) (s : Server) (pc : Pc) :
    (taskStep sane s pc).1.now = s.now ∧ (taskStep sane s pc).1.issued = s.issued ∧
      (taskStep sane s pc).1.db.nextUserId = s.db.nextUserId := by
  cases pc with
  | start | dated _ | finished _ => exact ⟨rfl, rfl, rfl⟩
  | loading staleUsers rest pairs =>
    cases rest with
    | cons _ _ => exact ⟨rfl, rfl, rfl⟩
    | nil =>
      simp only [taskStep, deleteStep]
      split <;> exact ⟨rfl, rfl, rfl⟩

theorem taskStep_dated {pc : Pc} {now : Instant} (h : (taskStep sane s pc).2 = .dated now) :
    now = s.now := by
  cases pc with
  | start => exact (Pc.dated.inj h).symm
  | dated _ => cases h
  | finished _ => cases h
  | loading staleUsers rest pairs =>
    cases rest with
    | cons _ _ => cases h
    | nil =>
      simp only [taskStep, deleteStep] at h
      split at h <;> cases h

theorem taskStep_loading {pc : Pc} {staleUsers rest : List User} {pairs : List (Nat × Nat)}
    (h : (taskStep sane s pc).2 = .loading staleUsers rest pairs) :
    (∃ now, pc = .dated now ∧ staleUsers = s.db.users.filter (staleAt now)) ∨
      ∃ rest' pairs', pc = .loading staleUsers rest' pairs' := by
  cases pc with
  | start => cases h
  | dated now =>
    obtain ⟨rfl, _, _⟩ := Pc.loading.inj h
    exact Or.inl ⟨now, rfl, rfl⟩
  | finished _ => cases h
  | loading staleUsers' rest' pairs' =>
    cases rest' with
    | cons user rest' =>
      obtain ⟨rfl, _, _⟩ := Pc.loading.inj h
      exact Or.inr ⟨user :: rest', pairs', rfl⟩
    | nil =>
      simp only [taskStep, deleteStep] at h
      split at h <;> cases h

theorem taskStep_consistent (pc : Pc) (hc : s.db.Consistent) :
    (taskStep sane s pc).1.db.Consistent := by
  cases pc with
  | start | dated _ | finished _ => exact hc
  | loading staleUsers rest pairs =>
    cases rest with
    | cons _ _ => exact hc
    | nil =>
      simp only [taskStep, deleteStep]
      split
      · exact hc
      · exact deleteUsers_consistent hc _

theorem race_consistent (hc : c.shared.db.Consistent) (hstep : Race ι env sane c l c') :
    c'.shared.db.Consistent := by
  cases hstep with
  | @process i _ s' l' hproc =>
    have hs : s' = (taskStep sane c.shared (c.proc i)).1 := (congrArg Prod.fst hproc).symm
    rw [hs]
    exact taskStep_consistent _ hc
  | surroundings henv =>
    obtain ⟨a, reply, hapi, _⟩ := henv
    exact step_consistent hc hapi

theorem race_nextUserId_le (hstep : Race ι env sane c l c') :
    c.shared.db.nextUserId ≤ c'.shared.db.nextUserId := by
  cases hstep with
  | @process i _ s' l' hproc =>
    have hs : s' = (taskStep sane c.shared (c.proc i)).1 := (congrArg Prod.fst hproc).symm
    rw [hs, (taskStep_frame sane c.shared (c.proc i)).2.2]
  | surroundings henv =>
    obtain ⟨a, reply, hapi, _⟩ := henv
    exact step_nextUserId_le hapi

theorem race_now_le (hstep : Race ι env sane c l c') : c.shared.now ≤ c'.shared.now := by
  cases hstep with
  | @process i _ s' l' hproc =>
    have hs : s' = (taskStep sane c.shared (c.proc i)).1 := (congrArg Prod.fst hproc).symm
    rw [hs, (taskStep_frame sane c.shared (c.proc i)).1]
  | surroundings henv =>
    obtain ⟨a, reply, hapi, _⟩ := henv
    exact (step_effect hapi).now

/-- A row that the API leaves, unless it is new, was there before with the same date, and
was verified before unless the action is one that verifies it. -/
theorem others_row {a : Action} {reply : Reply} (hc : s.db.Consistent)
    (hstep : Step env s (a, reply) s') (hv : user ∈ s'.db.users)
    (hlt : user.id < s.db.nextUserId) :
    ∃ v ∈ s.db.users, v.id = user.id ∧ v.createdAt = user.createdAt ∧
      (user.isVerified = true → v.isVerified = true ∨ Verifying s user.id a) := by
  have horigin := step_row_origin hc hstep hv
  cases horigin with
  | kept hold => exact ⟨user, hold, rfl, rfl, Or.inl⟩
  | registered _ _ _ _ | signedUp _ _ _ => exact absurd hlt (lt_irrefl _)
  | verified hold hclaims hint _ _ =>
    exact ⟨_, hold, rfl, rfl, fun _ => Or.inr (.verifyEmail hclaims hint)⟩
  | passwordReset hold _ _ _ | emailChanged hold _ _ _ | passwordChanged hold _ _ _ _
  | deactivated hold => exact ⟨_, hold, rfl, rfl, Or.inl⟩
  | @statusUpdated credentials payload admin w hold hadmin =>
    refine ⟨w, hold, rfl, rfl, ?_⟩
    intro hverified
    change payload.isVerified.getD w.isVerified = true at hverified
    cases hpayload : payload.isVerified with
    | none =>
      rw [hpayload] at hverified
      exact Or.inl hverified
    | some isVerified =>
      rw [hpayload] at hverified
      obtain rfl : isVerified = true := hverified
      exact Or.inr (.decreed hadmin hpayload)

theorem race_row (hc : c.shared.db.Consistent) (hstep : Race ι env sane c l c')
    (hv : user ∈ c'.shared.db.users) (hlt : user.id < c.shared.db.nextUserId) :
    ∃ v ∈ c.shared.db.users, v.id = user.id ∧ v.createdAt = user.createdAt ∧
      (user.isVerified = true → v.isVerified = true ∨ Verifies env ⟨c, l, c'⟩ user.id) := by
  cases hstep with
  | @process i _ s' l' hproc =>
    have hs : s' = (taskStep sane c.shared (c.proc i)).1 := (congrArg Prod.fst hproc).symm
    rw [hs] at hv
    exact ⟨user, taskStep_users hv, rfl, rfl, Or.inl⟩
  | surroundings henv =>
    obtain ⟨a, reply, hapi, _⟩ := henv
    obtain ⟨v, hold, hid, hdate, hverified⟩ := others_row hc hapi hv hlt
    refine ⟨v, hold, hid, hdate, ?_⟩
    intro hnow
    exact (hverified hnow).imp_right fun hverifying => ⟨rfl, a, reply, hapi, hverifying⟩

/-- The same over a run: a row that is there at its end was there at its start. -/
theorem run_row (hc : c₀.shared.db.Consistent) (r : Run (Race ι env sane) c₀ h c)
    (hv : user ∈ c.shared.db.users) (hlt : user.id < c₀.shared.db.nextUserId) :
    ∃ v ∈ c₀.shared.db.users, v.id = user.id ∧ v.createdAt = user.createdAt ∧
      (user.isVerified = true →
        v.isVerified = true ∨ ∃ t ∈ h, Verifies env t user.id) := by
  induction r generalizing user with
  | start => exact ⟨user, hv, rfl, rfl, Or.inl⟩
  | @snoc h c c' l r hstep ih =>
    have hbefore := r.invariant (I := fun c => c.shared.db.Consistent) hc race_consistent
    have hnext := r.invariant (I := fun c => c₀.shared.db.nextUserId ≤ c.shared.db.nextUserId)
      le_rfl fun hle hstep => hle.trans (race_nextUserId_le hstep)
    obtain ⟨w, hw, hwid, hwdate, hwverified⟩ := race_row hbefore hstep hv (hlt.trans_le hnext)
    obtain ⟨v, hold, hid, hdate, hverified⟩ := ih hw (hwid ▸ hlt)
    refine ⟨v, hold, hid.trans hwid, hdate.trans hwdate, ?_⟩
    intro hnow
    rcases hwverified hnow with hwas | hlast
    · rcases hverified hwas with hwas | ⟨t, ht, hverifies⟩
      · exact Or.inl hwas
      · exact Or.inr ⟨t, List.mem_append_left _ ht, hwid ▸ hverifies⟩
    · exact Or.inr ⟨_, List.mem_append_right _ (List.mem_singleton_self _), hlast⟩

theorem others_keep_row {a : Action} {reply : Reply} (ha : a ≠ .cleanup)
    (hstep : Step env s (a, reply) s') (hrow : HasRow s.db userId) : HasRow s'.db userId := by
  obtain ⟨u, hu, hid⟩ := hrow
  obtain ⟨_, _, heff⟩ := (step_effect hstep).effect
  obtain ⟨v, hv, hvid⟩ := (FileCorrespondence.effect_keeps_files heff ha).2 u hu
  exact ⟨v, hv, hvid.trans hid⟩

/-- The one token that can verify an account by mail lapses half an hour after the account
was registered. -/
def MailedEarly (s : Server) : Prop :=
  ∀ i ∈ s.issued, i.token.type = "email_verification" →
    i.token.sub = PyInt.str i.owner ∧ i.owner < s.db.nextUserId ∧
      ∀ u ∈ s.db.users, u.id = i.owner → (i.token.exp : Instant) ≤ u.createdAt + 30 * 60

theorem session_not_verification {new : List Issued} {i : Issued} (hnew : SessionTokens user new)
    (hi : i ∈ new) : i.token.type ≠ "email_verification" := by
  obtain ⟨_, _, htype⟩ := hnew i hi
  rcases htype with htype | htype
  · rw [htype]
    decide
  · rw [htype]
    decide

theorem stamp_exp_le {now : Instant} {draw : Nat} {token : Token}
    (h : TokenStamps.Stamp env now draw token) (htype : token.type = "email_verification") :
    (token.exp : Instant) ≤ now + 30 * 60 := by
  have hlifetime : TokenStamps.lifetime env token.type = 30 * 60 := by
    rw [htype]
    rfl
  have hexp : token.exp = ⌊now + ((30 * 60 : Int) : Instant)⌋ := by
    rw [h, hlifetime]
    rfl
  rw [hexp]
  refine (Int.floor_le _).trans ?_
  norm_num

/-- A verification token signed in one action is that of the row it inserts. -/
theorem mailed_new {a : Action} {reply : Reply} {i : Issued} (hc : s.db.Consistent)
    (hstep : Step env s (a, reply) s') (hi : i ∈ s'.issued) (hnew : i ∉ s.issued)
    (htype : i.token.type = "email_verification") :
    i.token.sub = PyInt.str i.owner ∧ i.owner < s'.db.nextUserId ∧
      ∀ u ∈ s'.db.users, u.id = i.owner → u.createdAt = s.now := by
  obtain ⟨new, hissued, heff⟩ := (step_effect hstep).effect
  rw [hissued] at hi
  have hin : i ∈ new := (List.mem_append.mp hi).resolve_left hnew
  generalize s'.db = db at heff ⊢
  cases heff with
  | session _ htokens => exact absurd htype (session_not_verification htokens hin)
  | signedUp _ _ _ _ htokens => exact absurd htype (session_not_verification htokens hin)
  | autoLinked _ _ _ _ htokens => exact absurd htype (session_not_verification htokens hin)
  | linked _ _ _ htokens => exact absurd htype (session_not_verification htokens hin)
  | resetMinted _ _ hreset _ =>
    rw [List.mem_singleton.mp hin, hreset] at htype
    exact absurd htype (by decide)
  | @registered _ _ _ _ _ user _ _ _ _ _ hins _ hsub =>
    obtain ⟨_, huser, rfl⟩ := insertUser_some hins
    have hid : user.id = s.db.nextUserId := by rw [huser]
    rw [List.mem_singleton.mp hin]
    refine ⟨hsub, by simp [hid], ?_⟩
    intro u hu huid
    rcases List.mem_append.mp hu with hold | hlast
    · have hlt := hc.userIds_lt u hold
      dsimp only at huid
      omega
    · rw [List.mem_singleton.mp hlast, huser]
  | quiet | verified _ _ _ _ _ | passwordReset _ _ _ _ _ _ | unlinked _ _ _ | emailChanged _ _ _
  | passwordChanged _ _ _ _ | deactivated _ | statusUpdated _ _ | roleAssigned _ _ _ _
  | roleRevoked _ _ | cleaned | grantedBySql _ _ => cases hin

theorem MailedEarly.step {a : Action} {reply : Reply} (hm : MailedEarly s) (hc : s.db.Consistent)
    (hstep : Step env s (a, reply) s') : MailedEarly s' := by
  intro i hi htype
  by_cases hold : i ∈ s.issued
  · obtain ⟨hsub, hlt, hexp⟩ := hm i hold htype
    refine ⟨hsub, hlt.trans_le (step_nextUserId_le hstep), ?_⟩
    intro u hu hid
    obtain ⟨v, hv, hvid, hdate, _⟩ := others_row hc hstep hu (hid ▸ hlt)
    rw [← hdate]
    exact hexp v hv (hvid.trans hid)
  · obtain ⟨hsub, hlt, hdate⟩ := mailed_new hc hstep hi hold htype
    refine ⟨hsub, hlt, ?_⟩
    intro u hu hid
    obtain ⟨_, new, hissued, _, hstamped⟩ := TokenStamps.step_signsOn hstep
    rw [hissued] at hi
    obtain ⟨p, hp, rfl⟩ := List.mem_map.mp ((List.mem_append.mp hi).resolve_left hold)
    rw [hdate u hu hid]
    exact stamp_exp_le (hstamped p hp).2.2 htype

theorem race_mailed (hc : c.shared.db.Consistent) (hm : MailedEarly c.shared)
    (hstep : Race ι env sane c l c') : MailedEarly c'.shared := by
  cases hstep with
  | @process i _ s' l' hproc =>
    have hs : s' = (taskStep sane c.shared (c.proc i)).1 := (congrArg Prod.fst hproc).symm
    rw [hs]
    obtain ⟨_, hissued, hnext⟩ := taskStep_frame sane c.shared (c.proc i)
    intro i hi htype
    rw [hissued] at hi
    obtain ⟨hsub, hlt, hexp⟩ := hm i hi htype
    rw [hnext]
    exact ⟨hsub, hlt, fun u hu => hexp u (taskStep_users hu)⟩
  | surroundings henv =>
    obtain ⟨a, reply, hapi, _⟩ := henv
    exact hm.step hc hapi

theorem run_mailed (h₀ : Initial c₀.shared) (r : Run (Race ι env sane) c₀ h c) :
    c.shared.db.Consistent ∧ MailedEarly c.shared := by
  apply r.invariant (I := fun c => c.shared.db.Consistent ∧ MailedEarly c.shared)
  · refine ⟨h₀.consistent, ?_⟩
    intro i hi
    rw [h₀.issued] at hi
    cases hi
  · intro c l c' hI hstep
    exact ⟨race_consistent hI.1 hstep, race_mailed hI.1 hI.2 hstep⟩

/-- Half an hour after the registration no mail verifies the account any more. -/
theorem not_verified_late {token : Token} {claims : TokenClaims Instant} (hm : MailedEarly s)
    (hclaims : s.decodeEmailVerificationToken token = some claims)
    (hint : PyInt.int claims.subject = some (user.id : Int)) (hu : user ∈ s.db.users) :
    s.now < user.createdAt + 30 * 60 + 1 := by
  obtain ⟨hsigned, hexp, htype, rfl⟩ := decodeToken_eq_some_iff.mp hclaims
  obtain ⟨owner, hi⟩ := Provenance.exists_issued_of_signed hsigned
  obtain ⟨hsub, _, hlapses⟩ := hm _ hi htype
  dsimp only at hsub hint hlapses
  rw [hsub, PyInt.int_str] at hint
  have hid : user.id = owner := (Int.ofNat.inj (Option.some.inj hint)).symm
  have hbound := hlapses user hu hid
  have hlt := unexpired_iff_lt.mp hexp
  linarith

/-- The clock that an execution has read is behind the server's, and the rows it is going
to delete are those that its SELECT found. -/
structure Informed (h : List (RaceTransition ι)) (c : Config ι Server Pc) : Prop where
  dated : ∀ i now, c.proc i = .dated now → now ≤ c.shared.now
  selected : ∀ i staleUsers rest pairs, c.proc i = .loading staleUsers rest pairs →
    ∃ earlier t between, h = earlier ++ t :: between ∧ Selects t i staleUsers

theorem staleAt_mono {now now' : Instant} (hle : now ≤ now') (h : staleAt now user = true) :
    staleAt now' user = true := by
  simp only [staleAt, Bool.and_eq_true, decide_eq_true_eq] at h ⊢
  refine ⟨h.1, lt_of_lt_of_le h.2 ?_⟩
  exact sub_le_sub_right hle _

theorem Informed.step (hi : Informed h c) (hstep : Race ι env sane c l c') :
    Informed (h ++ [⟨c, l, c'⟩]) c' := by
  have earlier_snoc : ∀ i staleUsers,
      (∃ earlier t between, h = earlier ++ t :: between ∧ Selects t i staleUsers) →
      ∃ earlier t between, h ++ [⟨c, l, c'⟩] = earlier ++ t :: between ∧
        Selects t i staleUsers := by
    rintro i staleUsers ⟨earlier, t, between, rfl, hselects⟩
    exact ⟨earlier, t, between ++ [⟨c, l, c'⟩], by simp, hselects⟩
  cases hstep with
  | surroundings henv =>
    obtain ⟨a, reply, hapi, _⟩ := henv
    constructor
    · intro i now hpc
      exact (hi.dated i now hpc).trans (step_effect hapi).now
    · intro i staleUsers rest pairs hpc
      exact earlier_snoc i staleUsers (hi.selected i staleUsers rest pairs hpc)
  | @process j e s' l' hproc =>
    obtain rfl : s' = (taskStep sane c.shared (c.proc j)).1 := (congrArg Prod.fst hproc).symm
    obtain rfl : l' = (taskStep sane c.shared (c.proc j)).2 := (congrArg Prod.snd hproc).symm
    have hnow := (taskStep_frame sane c.shared (c.proc j)).1
    constructor
    · intro i now hpc
      dsimp only at hpc ⊢
      rw [hnow]
      by_cases hij : i = j
      · subst hij
        rw [Function.update_self] at hpc
        exact (taskStep_dated hpc).le
      · rw [Function.update_of_ne hij] at hpc
        exact hi.dated i now hpc
    · intro i staleUsers rest pairs hpc
      dsimp only at hpc
      by_cases hij : i = j
      · subst hij
        rw [Function.update_self] at hpc
        rcases taskStep_loading hpc with ⟨now, hdated, rfl⟩ | ⟨rest', pairs', hloading⟩
        · refine ⟨h, _, [], rfl, rfl, ?_⟩
          intro v hv
          obtain ⟨hmem, hstale⟩ := List.mem_filter.mp hv
          exact ⟨hmem, staleAt_mono (hi.dated i now hdated) hstale⟩
        · exact earlier_snoc i staleUsers (hi.selected i staleUsers rest' pairs' hloading)
      · rw [Function.update_of_ne hij] at hpc
        exact earlier_snoc i staleUsers (hi.selected i staleUsers rest pairs hpc)

theorem run_informed (hstart : ∀ i, c₀.proc i = .start) (r : Run (Race ι env sane) c₀ h c) :
    Informed h c := by
  induction r with
  | start =>
    constructor
    · intro i now hpc
      cases (hstart i).symm.trans hpc
    · intro i staleUsers rest pairs hpc
      cases (hstart i).symm.trans hpc
  | snoc _ hstep ih => exact ih.step hstep

/-- A row goes with the flush of an execution that has it in its list. -/
theorem removed_by (hstep : Race ι env sane c l c') (hu : user ∈ c.shared.db.users)
    (hgone : ∀ v ∈ c'.shared.db.users, v.id ≠ user.id) :
    ∃ i staleUsers pairs, l = .process i () ∧ c.proc i = .loading staleUsers [] pairs ∧
      ∃ v ∈ staleUsers, v.id = user.id := by
  cases hstep with
  | surroundings henv =>
    obtain ⟨a, reply, hapi, ha⟩ := henv
    obtain ⟨v, hv, hid⟩ := others_keep_row ha hapi ⟨user, hu, rfl⟩
    exact absurd hid (hgone v hv)
  | @process i _ s' l' hproc =>
    obtain rfl : s' = (taskStep sane c.shared (c.proc i)).1 := (congrArg Prod.fst hproc).symm
    have hlost : user ∉ (taskStep sane c.shared (c.proc i)).1.db.users :=
      fun hmem => hgone user hmem rfl
    cases hpc : c.proc i with
    | start | dated _ | finished _ =>
      rw [hpc] at hlost
      exact absurd hu hlost
    | loading staleUsers rest pairs =>
      rw [hpc] at hlost
      cases rest with
      | cons _ _ => exact absurd hu hlost
      | nil =>
        refine ⟨i, staleUsers, pairs, rfl, hpc, ?_⟩
        simp only [taskStep, deleteStep] at hlost
        split at hlost
        · exact absurd hu hlost
        rw [mem_deleteUsers, not_and, Bool.not_eq_false] at hlost
        obtain ⟨v, hv, hid⟩ := List.any_eq_true.mp (hlost hu)
        exact ⟨v, hv, of_decide_eq_true hid⟩

end Races

/-- With any number of executions of the cleanup among the requests, the constraints of the
tables hold, and a row that goes is one that the SELECT of its execution found unverified
and old. If it is verified by then, an administrator has set its flag between the SELECT and
the commit. -/
theorem cleanup_deletes_what_it_read (env : Env) (sane : Bool) {ι : Type u} [DecidableEq ι]
    {c₀ c : Config ι Server Pc} {h : List (RaceTransition ι)} (h₀ : Initial c₀.shared)
    (hstart : ∀ i, c₀.proc i = .start) (r : Run (Race ι env sane) c₀ h c) :
    c.shared.db.Consistent ∧
    ∀ before t, before ++ [t] <+: h → ∀ u ∈ t.source.shared.db.users,
      (∀ v ∈ t.target.shared.db.users, v.id ≠ u.id) →
      ∃ i earlier t₁ between, before = earlier ++ t₁ :: between ∧
        t.label = .process i () ∧ t₁.label = .process i () ∧
        ∃ u₁ ∈ t₁.source.shared.db.users, u₁.id = u.id ∧ u₁.createdAt = u.createdAt ∧
          staleAt t₁.source.shared.now u₁ = true ∧
          (u.isVerified = true → ∃ t₂ ∈ between, Decrees env t₂ u.id) := by
  refine ⟨(run_mailed h₀ r).1, ?_⟩
  intro before t hp u hu hgone
  obtain ⟨rb, hstep⟩ := r.of_prefix_snoc hp
  obtain ⟨i, staleUsers, pairs, hlabel, hpc, v, hv, hvid⟩ := removed_by hstep hu hgone
  obtain ⟨earlier, t₁, between, rfl, hselects⟩ :=
    (run_informed hstart rb).selected i staleUsers [] pairs hpc
  obtain ⟨hmem, hstale⟩ := hselects.found v hv
  obtain ⟨re, hselect, rest⟩ := rb.split_at
  have hcs := (run_mailed h₀ re).1
  have hlt : u.id < t₁.source.shared.db.nextUserId := hvid ▸ hcs.userIds_lt v hmem
  -- the row has been followed from the SELECT to the flush
  obtain ⟨w, hw, hwid, hwdate, hwverified⟩ := run_row hcs ((Run.single hselect).append rest) hu hlt
  obtain rfl : w = v := hcs.eq_of_id hw hmem (hwid.trans hvid.symm)
  refine ⟨i, earlier, t₁, between, rfl, hlabel, hselects.label, w, hw, hwid, hwdate, hstale, ?_⟩
  intro hverified
  simp only [staleAt, Bool.and_eq_true, Bool.not_eq_true', decide_eq_true_eq] at hstale
  obtain ⟨hunverified, hold⟩ := hstale
  rcases hwverified hverified with hwas | ⟨t₂, ht₂, hlabel₂, a, reply, hapi, hverifying⟩
  · rw [hunverified] at hwas
    cases hwas
  have hbetween : t₂ ∈ between := by
    rcases List.mem_cons.mp ht₂ with rfl | hbetween
    · cases hlabel₂.symm.trans hselects.label
    · exact hbetween
  refine ⟨t₂, hbetween, hlabel₂, ?_⟩
  generalize hid : u.id = userId at hverifying
  cases hverifying with
  | decreed hadmin hpayload => exact ⟨_, _, _, _, hapi, hpayload, hadmin⟩
  | verifyEmail hclaims hint =>
    -- the mail of an account this old has lapsed
    obtain ⟨b₁, b₂, rfl⟩ := List.append_of_mem hbetween
    obtain ⟨r₁, hstep₂, r₂⟩ := rest.split_at
    have hto := (Run.single hselect).append r₁
    have hnow := hto.invariant (I := fun c => t₁.source.shared.now ≤ c.shared.now) le_rfl
      fun hle hstep => hle.trans (race_now_le hstep)
    have hnext := hto.invariant
      (I := fun c => t₁.source.shared.db.nextUserId ≤ c.shared.db.nextUserId) le_rfl
      fun hle hstep => hle.trans (race_nextUserId_le hstep)
    obtain ⟨hc₂, hmailed⟩ := run_mailed h₀ (re.append hto)
    obtain ⟨x, hx, hxid, hxdate, _⟩ :=
      run_row hc₂ ((Run.single hstep₂).append r₂) hu (hlt.trans_le hnext)
    have hlate := not_verified_late hmailed hclaims (by rw [hint, hxid, hid]) hx
    rw [hxdate, ← hwdate] at hlate
    have hdays : ((unverifiedUserMaxAgeDays : Nat) : Instant) = 7 := rfl
    rw [hdays] at hold
    linarith

/-- An administrator, and an account that was never verified, after eight days. -/
def eightDaysOn : Server :=
  { now := 691200
    db := { Database.empty.seedRbacDefaults with
      users := [⟨1, "admin@example.com", some "Passw0rd$0", true, true, 0⟩,
        ⟨2, "a@example.com", some "Passw0rd$1", true, false, 0⟩]
      userRoles := [(1, 1), (2, 3)]
      nextUserId := 3 }
    redis := ExpiringStore.empty, issued := [], mails := [], draws := 0 }

theorem eightDaysOn_initial : Initial eightDaysOn := by
  refine ⟨?_, rfl, rfl, rfl⟩
  have hlinks : eightDaysOn.db.oauthAccounts = [] := by decide
  constructor
  · decide
  · decide
  · decide
  · rw [hlinks]
    exact List.nodup_nil
  · rw [hlinks]
    exact List.nodup_nil
  · simp [hlinks]
  · simp [hlinks]
  · decide

def waiting : Config Unit Server Pc := ⟨eightDaysOn, fun _ => .start⟩

def threeStatements : List (Unit × Unit) := [((), ()), ((), ()), ((), ())]

/-- The execution has loaded the roles of the one row that its SELECT found. -/
def loaded : Config Unit Server Pc := play (act true) waiting threeStatements

def adminLogin : Action := .request (.login "localhost" ⟨"admin@example.com", "Passw0rd"⟩)

def adminVerifies : Action :=
  .request (.updateUserStatus
    { sub := "admin@example.com", type := "access", jti := "uuid0", iat := 691200, exp := 693000 }
    2 { isActive := none, isVerified := some true })

def adminIn : Config Unit Server Pc := ⟨(step asciiEnv loaded.shared adminLogin).2, loaded.proc⟩

def decreed : Config Unit Server Pc :=
  ⟨(step asciiEnv adminIn.shared adminVerifies).2, adminIn.proc⟩

def flushed : Config Unit Server Pc := decreed.next (act true) () ()

def beforeFlush : List (RaceTransition Unit) :=
  playTrace (act true) waiting threeStatements ++ [⟨loaded, .surroundings, adminIn⟩] ++
    [⟨adminIn, .surroundings, decreed⟩]

theorem cleanup_deletes_what_it_read_sample :
    ∃ earlier t₁ between, beforeFlush = earlier ++ t₁ :: between ∧
      ∃ u₁ ∈ t₁.source.shared.db.users, u₁.id = 2 ∧ u₁.createdAt = 0 ∧
        staleAt t₁.source.shared.now u₁ = true ∧
        ∃ t₂ ∈ between, Decrees asciiEnv t₂ 2 := by
  have hlogin : Others asciiEnv loaded.shared adminIn.shared :=
    ⟨adminLogin, _, rfl, by simp [adminLogin]⟩
  have hverify : Others asciiEnv adminIn.shared decreed.shared :=
    ⟨adminVerifies, _, rfl, by simp [adminVerifies]⟩
  have r : Run (Race Unit asciiEnv true) waiting
      (beforeFlush ++ [⟨decreed, .process () (), flushed⟩]) flushed :=
    (((run_play (act true) waiting threeStatements).snoc (.surroundings hlogin)).snoc
      (.surroundings hverify)).snoc (.process rfl)
  obtain ⟨_, earlier, t₁, between, heq, _, _, u₁, hu₁, hid, hdate, hstale, hdecrees⟩ :=
    (cleanup_deletes_what_it_read asciiEnv true eightDaysOn_initial (fun _ => rfl) r).2
      beforeFlush ⟨decreed, .process () (), flushed⟩ (List.prefix_refl _)
      ⟨2, "a@example.com", some "Passw0rd$1", true, true, 0⟩ (by decide +kernel)
      (by decide +kernel)
  exact ⟨earlier, t₁, between, heq, u₁, hu₁, hid, hdate, hstale, hdecrees rfl⟩

end FastApiAuth.CleanupRace
