import FastApiAuth.Effects
import FastApiAuth.Library.Processes
import Mathlib.Logic.Function.Iterate

/-!
# unlink_provider and oauth_callback, step by step

Each statement a handler sends to the database is one step on the committed tables,
as under READ COMMITTED, and any number of requests take their steps in any order.
The guard of unlink_provider counts in one statement and deletes in another; a user
without a password keeps a link as long as each count that lets a request through
leaves a link that no other request is about to delete.
-/

namespace FastApiAuth.UnlinkRace

set_option autoImplicit false

open Database Processes Runs

section HandlerSteps

inductive UnlinkPc where
  | start
  | authenticated (currentUser : User)
  | selected (currentUser : User) (link : OAuthAccount)
  | counted (currentUser : User) (link : OAuthAccount)
  | finished (reply : Reply)

/-- `selected` is the state after the select of the existing link; `linkingUserId` is
set in link mode. -/
inductive CallbackPc where
  | start
  | stateRead (stateValue : String)
  | identified (linkingUserId : Option Int) (identity : Identity)
  | selected (linkingUserId : Option Int) (identity : Identity) (existing : Option OAuthAccount)
  | signingUp (identity : Identity) (email : String)
  | linking (gated : Bool) (identity : Identity) (user : User)
  | answering (user : User)
  | finished (reply : Reply)

def authenticate (credentials : Token) (s : Server) : UnlinkPc :=
  match getCurrentUser s credentials with
  | .error e => .finished (.error e)
  | .ok currentUser => .authenticated currentUser

def selectLink (provider : String) (currentUser : User) (s : Server) : UnlinkPc :=
  match s.db.linkOf currentUser.id provider with
  | none => .finished (.error providerNotLinked)
  | some link => .selected currentUser link

/-- The count and the guard on it. -/
def countLinks (currentUser : User) (link : OAuthAccount) (s : Server) : UnlinkPc :=
  if refusesUnlink currentUser (s.db.linksOf currentUser.id).length then
    .finished (.error onlySignInMethod)
  else .counted currentUser link

def unlinkStep (provider : String) (credentials : Token) (s : Server) :
    UnlinkPc → Server × UnlinkPc
  | .start => (s, authenticate credentials s)
  | .authenticated currentUser => (s, selectLink provider currentUser s)
  | .selected currentUser link => (s, countLinks currentUser link s)
  | .counted _ link => ({ s with db := s.db.deleteLink link.id }, .finished (.ok .noContent))
  | .finished reply => (s, .finished reply)

def readState (env : Env) (provider state : String) (s : Server) : CallbackPc :=
  match requireClient env provider with
  | .error e => .finished (.error e)
  | .ok _ =>
    match s.redis.get s.now (stateKeyPrefix ++ state) with
    | none => .finished (.error { statusCode := 400, detail := "Invalid or expired OAuth state" })
    | some stateValue => .stateRead stateValue

def identify (answer : Option Identity) (stateValue : String) : CallbackPc :=
  match answer with
  | none => .finished (.error internalServerError)
  | some identity =>
    match callbackMode stateValue with
    | .malformed => .finished (.error internalServerError)
    | .link linkingUserId => .identified (some linkingUserId) identity
    | .login => .identified none identity

def gate (user : User) : CallbackPc :=
  if !user.isActive then .finished (.error inactiveAccount) else .answering user

/-- The user that the callback goes on with, or its way out. -/
def selectUser (provider : String) (linkingUserId : Option Int) (identity : Identity)
    (existing : Option OAuthAccount) (s : Server) : CallbackPc :=
  match linkingUserId, existing with
  | some linkingUserId, some existing =>
    if (existing.userId : Int) ≠ linkingUserId then .finished (.error linkedToAnother)
    else
      match s.db.userById linkingUserId with
      | none => .finished (.error userNotFound)
      | some user => .answering user
  | some linkingUserId, none =>
    match s.db.userById linkingUserId with
    | none => .finished (.error userNotFound)
    | some user => .linking false identity user
  | none, some existing =>
    match s.db.userById existing.userId with
    | none => .finished (.error inactiveAccount)
    | some user => gate user
  | none, none =>
    match identity.email with
    | none =>
      .finished (.error
        { statusCode := 400, detail := provider ++ " did not provide an email address" })
    | some email =>
      match s.db.userByEmail email with
      | some user => .linking true identity user
      | none => .signingUp identity email

def commitUser (identity : Identity) (email : String) (s : Server) : Server × CallbackPc :=
  match s.db.insertUser email none true true s.now [] with
  | none => (s, .finished (.error internalServerError))
  | some (user, db) => ({ s with db }, .linking true identity user)

def commitLink (provider : String) (gated : Bool) (identity : Identity) (user : User)
    (s : Server) : Server × CallbackPc :=
  match s.db.insertLink user.id provider identity.providerUserId identity.email s.now with
  | none => (s, .finished (.error internalServerError))
  | some db => ({ s with db }, if gated then gate user else .answering user)

def callbackStep (env : Env) (provider state : String) (answer : Option Identity) (s : Server) :
    CallbackPc → Server × CallbackPc
  | .start => (s, readState env provider state s)
  | .stateRead stateValue =>
    ({ s with redis := s.redis.delete (stateKeyPrefix ++ state) }, identify answer stateValue)
  | .identified linkingUserId identity =>
    (s, .selected linkingUserId identity
      (s.db.linkByIdentity provider identity.providerUserId))
  | .selected linkingUserId identity existing =>
    (s, selectUser provider linkingUserId identity existing s)
  | .signingUp identity email => commitUser identity email s
  | .linking gated identity user => commitLink provider gated identity user s
  | .answering user =>
    ((s.answerWithTokens env user).2, .finished (s.answerWithTokens env user).1)
  | .finished reply => (s, .finished reply)

end HandlerSteps

section Alone

variable {env : Env} {provider state : String} {answer : Option Identity} {s : Server} {n : Nat}

theorem alone_eq_unlinkProvider (provider : String) (credentials : Token) (s : Server) :
    (fun p => unlinkStep provider credentials p.1 p.2)^[4] (s, .start) =
      ((unlinkProvider provider credentials s).2,
        .finished (unlinkProvider provider credentials s).1) := by
  simp only [Function.iterate_succ, Function.iterate_zero, Function.comp_apply, id_eq]
  unfold unlinkProvider withCurrentUser
  cases huser : getCurrentUser s credentials with
  | error e => simp [unlinkStep, authenticate, huser]
  | ok user =>
    cases hlink : s.db.linkOf user.id provider with
    | none => simp [unlinkStep, authenticate, huser, selectLink, hlink]
    | some link =>
      cases hguard : refusesUnlink user (s.db.linksOf user.id).length <;>
        simp [unlinkStep, authenticate, huser, selectLink, hlink, countLinks, hguard]

/-- From `pc` on, `n` steps of the callback alone end with the outcome `o`. -/
def Yields (env : Env) (provider state : String) (answer : Option Identity) (n : Nat) (s : Server)
    (pc : CallbackPc) (o : Outcome) : Prop :=
  (fun p => callbackStep env provider state answer p.1 p.2)^[n] (s, pc) = (o.2, .finished o.1)

theorem yields_finished (n : Nat) (reply : Reply) :
    Yields env provider state answer n s (.finished reply) (reply, s) := by
  induction n with
  | zero => rfl
  | succ n ih => exact ih

theorem yields_answering (user : User) :
    Yields env provider state answer (n + 1) s (.answering user) (s.answerWithTokens env user) :=
  yields_finished n _

theorem yields_gate (user : User) :
    Yields env provider state answer (n + 1) s (gate user) (answerActive env user s) := by
  unfold gate answerActive
  split
  · exact yields_finished _ _
  · exact yields_answering user

theorem yields_gated_link (identity : Identity) (user : User) :
    Yields env provider state answer (n + 2) s (.linking true identity user)
      (attachIdentity env provider identity user s) := by
  change Yields env provider state answer (n + 1) (commitLink provider true identity user s).1
    (commitLink provider true identity user s).2 _
  unfold commitLink attachIdentity
  cases s.db.insertLink user.id provider identity.providerUserId identity.email s.now with
  | none => exact yields_finished _ _
  | some db => exact yields_gate user

theorem yields_login (identity : Identity) :
    Yields env provider state answer (n + 5) s (.identified none identity)
      (callbackLogin env provider identity s) := by
  change Yields env provider state answer (n + 3) s
    (selectUser provider none identity (s.db.linkByIdentity provider identity.providerUserId) s) _
  unfold selectUser callbackLogin
  cases s.db.linkByIdentity provider identity.providerUserId with
  | some existing =>
    dsimp only
    cases s.db.userById existing.userId with
    | none => exact yields_finished _ _
    | some user => exact yields_gate user
  | none =>
    dsimp only
    cases identity.email with
    | none => exact yields_finished _ _
    | some email =>
      dsimp only
      cases s.db.userByEmail email with
      | some user => exact yields_gated_link identity user
      | none =>
        change Yields env provider state answer (n + 2) (commitUser identity email s).1
          (commitUser identity email s).2 _
        unfold commitUser
        cases s.db.insertUser email none true true s.now [] with
        | none => exact yields_finished _ _
        | some inserted => exact yields_gated_link identity inserted.1

theorem yields_link (identity : Identity) (linkingUserId : Int) :
    Yields env provider state answer (n + 5) s (.identified (some linkingUserId) identity)
      (callbackLink env provider identity linkingUserId s) := by
  change Yields env provider state answer (n + 3) s (selectUser provider (some linkingUserId)
    identity (s.db.linkByIdentity provider identity.providerUserId) s) _
  unfold selectUser callbackLink
  cases s.db.linkByIdentity provider identity.providerUserId with
  | some existing =>
    dsimp only
    by_cases hother : (existing.userId : Int) ≠ linkingUserId
    · rw [if_pos hother, if_pos hother]
      exact yields_finished _ _
    · rw [if_neg hother, if_neg hother]
      cases s.db.userById linkingUserId with
      | none => exact yields_finished _ _
      | some user => exact yields_answering user
  | none =>
    dsimp only
    cases s.db.userById linkingUserId with
    | none => exact yields_finished _ _
    | some user =>
      change Yields env provider state answer (n + 2) (commitLink provider false identity user s).1
        (commitLink provider false identity user s).2 _
      unfold commitLink
      dsimp only
      cases s.db.insertLink user.id provider identity.providerUserId identity.email s.now with
      | none => exact yields_finished _ _
      | some db => exact yields_answering user

theorem alone_eq_oauthCallback (env : Env) (provider state : String) (answer : Option Identity)
    (s : Server) :
    (fun p => callbackStep env provider state answer p.1 p.2)^[7] (s, .start) =
      ((oauthCallback env provider state answer s).2,
        .finished (oauthCallback env provider state answer s).1) := by
  change Yields env provider state answer 6 s (readState env provider state s) _
  unfold readState oauthCallback
  cases requireClient env provider with
  | error e => exact yields_finished _ _
  | ok _ =>
    dsimp only
    cases s.redis.get s.now (stateKeyPrefix ++ state) with
    | none => exact yields_finished _ _
    | some stateValue =>
      change Yields env provider state answer 5 _ (identify answer stateValue) _
      unfold identify
      cases answer with
      | none => exact yields_finished _ _
      | some identity =>
        dsimp only
        cases callbackMode stateValue with
        | malformed => exact yields_finished _ _
        | link linkingUserId => exact yields_link identity linkingUserId
        | login => exact yields_login identity

end Alone

section ManyRequests

/-- One request of either kind and how far it has come. -/
inductive Worker where
  | unlink (provider : String) (credentials : Token) (pc : UnlinkPc)
  | callback (provider state : String) (answer : Option Identity) (pc : CallbackPc)

def workerStep (env : Env) (s : Server) : Worker → Server × Worker
  | .unlink provider credentials pc =>
    ((unlinkStep provider credentials s pc).1,
      .unlink provider credentials (unlinkStep provider credentials s pc).2)
  | .callback provider state answer pc =>
    ((callbackStep env provider state answer s pc).1,
      .callback provider state answer (callbackStep env provider state answer s pc).2)

def Worker.AtStart : Worker → Prop
  | .unlink _ _ pc => pc = .start
  | .callback _ _ _ pc => pc = .start

def Worker.isFinished : Worker → Bool
  | .unlink _ _ (.finished _) => true
  | .callback _ _ _ (.finished _) => true
  | _ => false

/-- The requester an unlink goes on with. -/
def Worker.currentUser : Worker → Option User
  | .unlink _ _ (.authenticated user) => some user
  | .unlink _ _ (.selected user _) => some user
  | .unlink _ _ (.counted user _) => some user
  | _ => none

/-- The link an unlink has found. -/
def Worker.link : Worker → Option OAuthAccount
  | .unlink _ _ (.selected _ link) => some link
  | .unlink _ _ (.counted _ link) => some link
  | _ => none

/-- The id of the link an unlink is about to delete, its guard being passed. -/
def Worker.doomed : Worker → Option Nat
  | .unlink _ _ (.counted _ link) => some link.id
  | _ => none

end ManyRequests

section Workers

variable {env : Env} {s : Server} {w : Worker} {user : User} {link : OAuthAccount}

/-- What a step of a request commits. -/
inductive TableStep (db : Database) (w : Worker) : Database → Prop where
  | none : TableStep db w db
  | deleted {accountId : Nat} : w.doomed = some accountId → TableStep db w (db.deleteLink accountId)
  | signedUp {email : String} {createdAt : Instant} {user : User} {db' : Database} :
      db.insertUser email none true true createdAt [] = some (user, db') → TableStep db w db'
  | linked {userId : Nat} {provider providerUserId : String} {email : Option String}
      {createdAt : Instant} {db' : Database} :
      db.insertLink userId provider providerUserId email createdAt = some db' → TableStep db w db'

theorem workerStep_tables : TableStep s.db w (workerStep env s w).1.db := by
  cases w with
  | unlink provider credentials pc =>
    cases pc with
    | counted _ link => exact .deleted rfl
    | start | authenticated _ | selected _ _ | finished _ => exact .none
  | callback provider state answer pc =>
    cases pc with
    | signingUp identity email =>
      change TableStep s.db _ (commitUser identity email s).1.db
      unfold commitUser
      split
      · exact .none
      · rename_i hins
        exact .signedUp hins
    | linking gated identity user =>
      change TableStep s.db _ (commitLink provider gated identity user s).1.db
      unfold commitLink
      split
      · exact .none
      · rename_i hlink
        exact .linked hlink
    | start | stateRead _ | identified _ _ | selected _ _ _ | answering _ | finished _ =>
      exact .none

theorem tableStep_of_eq {s' : Server} {w' : Worker} (h : workerStep env s w = (s', w')) :
    TableStep s.db w s'.db := by
  have htables : TableStep s.db w (workerStep env s w).1.db := workerStep_tables
  rw [h] at htables
  exact htables

theorem TableStep.consistent {db db' : Database} (h : TableStep db w db') (hc : db.Consistent) :
    db'.Consistent := by
  cases h with
  | none => exact hc
  | deleted _ => exact deleteLink_consistent hc _
  | signedUp hins => exact insertUser_consistent hc hins
  | linked hlink => exact insertLink_consistent hc hlink

theorem TableStep.users {db db' : Database} (h : TableStep db w db') {u : User}
    (hu : u ∈ db.users) : u ∈ db'.users := by
  cases h with
  | none => exact hu
  | deleted _ => exact hu
  | signedUp hins =>
    obtain ⟨_, _, rfl⟩ := insertUser_some hins
    exact List.mem_append_left _ hu
  | linked hlink =>
    obtain ⟨_, _, rfl⟩ := insertLink_some hlink
    exact hu

/-- A requester is read from the table in the very step. -/
theorem workerStep_currentUser (h : (workerStep env s w).2.currentUser = some user) :
    w.currentUser = some user ∨ user ∈ s.db.users := by
  cases w with
  | callback provider state answer pc => cases h
  | unlink provider credentials pc =>
    cases pc with
    | start =>
      change (Worker.unlink _ _ (authenticate credentials s)).currentUser = some user at h
      unfold authenticate at h
      split at h
      · cases h
      · rename_i huser
        cases h
        exact .inr (getCurrentUser_mem huser)
    | authenticated currentUser =>
      change (Worker.unlink _ _ (selectLink provider currentUser s)).currentUser = some user at h
      unfold selectLink at h
      split at h <;> cases h
      exact .inl rfl
    | selected currentUser link =>
      change (Worker.unlink _ _ (countLinks currentUser link s)).currentUser = some user at h
      unfold countLinks at h
      split at h <;> cases h
      exact .inl rfl
    | counted _ _ | finished _ => cases h

/-- A link is read from the table in the very step, as one of the requester's. -/
theorem workerStep_link (h : (workerStep env s w).2.link = some link) :
    ∃ user, w.currentUser = some user ∧ (workerStep env s w).2.currentUser = some user ∧
      (w.link = some link ∨ link ∈ s.db.oauthAccounts ∧ link.userId = user.id) := by
  cases w with
  | callback provider state answer pc => cases h
  | unlink provider credentials pc =>
    cases pc with
    | start =>
      change (Worker.unlink _ _ (authenticate credentials s)).link = some link at h
      unfold authenticate at h
      split at h <;> cases h
    | authenticated currentUser =>
      change (Worker.unlink _ _ (selectLink provider currentUser s)).link = some link at h
      refine ⟨currentUser, rfl, ?_⟩
      change (Worker.unlink _ _ (selectLink provider currentUser s)).currentUser = _ ∧ _
      unfold selectLink at h ⊢
      cases hlink : s.db.linkOf currentUser.id provider with
      | none =>
        rw [hlink] at h
        cases h
      | some found =>
        rw [hlink] at h
        cases h
        obtain ⟨hmem, howner, _⟩ := linkOf_some hlink
        exact ⟨rfl, .inr ⟨hmem, howner⟩⟩
    | selected currentUser found =>
      change (Worker.unlink _ _ (countLinks currentUser found s)).link = some link at h
      refine ⟨currentUser, rfl, ?_⟩
      change (Worker.unlink _ _ (countLinks currentUser found s)).currentUser = _ ∧ _
      unfold countLinks at h ⊢
      split at h <;> cases h
      rename_i hguard
      rw [if_neg hguard]
      exact ⟨rfl, .inl rfl⟩
    | counted _ _ | finished _ => cases h

/-- A link comes to be about to be deleted by a count that the guard lets through. -/
theorem workerStep_doomed {accountId : Nat} (h : (workerStep env s w).2.doomed = some accountId) :
    ∃ provider credentials user link, w = .unlink provider credentials (.selected user link) ∧
      link.id = accountId ∧ refusesUnlink user (s.db.linksOf user.id).length = false := by
  cases w with
  | callback provider state answer pc => cases h
  | unlink provider credentials pc =>
    cases pc with
    | start =>
      change (Worker.unlink _ _ (authenticate credentials s)).doomed = some accountId at h
      unfold authenticate at h
      split at h <;> cases h
    | authenticated currentUser =>
      change (Worker.unlink _ _ (selectLink provider currentUser s)).doomed = some accountId at h
      unfold selectLink at h
      split at h <;> cases h
    | selected currentUser link =>
      change (Worker.unlink _ _ (countLinks currentUser link s)).doomed = some accountId at h
      unfold countLinks at h
      split at h
      · cases h
      · rename_i hguard
        cases h
        exact ⟨_, _, _, _, rfl, rfl, by simpa using hguard⟩
    | counted _ _ | finished _ => cases h

end Workers

section Tables

variable {db db' : Database} {w : Worker}

theorem TableStep.nextAccountId_le (h : TableStep db w db') :
    db.nextAccountId ≤ db'.nextAccountId := by
  cases h with
  | none => exact le_rfl
  | deleted _ => exact le_rfl
  | signedUp hins =>
    obtain ⟨_, _, rfl⟩ := insertUser_some hins
    exact le_rfl
  | linked hlink =>
    obtain ⟨_, _, rfl⟩ := insertLink_some hlink
    exact Nat.le_succ _

/-- A link that no request is about to delete survives the step. -/
theorem TableStep.kept (h : TableStep db w db') {a : OAuthAccount} (ha : a ∈ db.oauthAccounts)
    (hsafe : w.doomed ≠ some a.id) : a ∈ db'.oauthAccounts := by
  cases h with
  | none => exact ha
  | deleted hdoomed =>
    refine List.mem_filter.mpr ⟨ha, ?_⟩
    simp only [decide_eq_true_eq]
    exact fun hid => hsafe (hid ▸ hdoomed)
  | signedUp hins =>
    obtain ⟨_, _, rfl⟩ := insertUser_some hins
    exact ha
  | linked hlink =>
    obtain ⟨_, _, rfl⟩ := insertLink_some hlink
    exact List.mem_append_left _ ha

theorem TableStep.account_origin (h : TableStep db w db') {a : OAuthAccount}
    (ha : a ∈ db'.oauthAccounts) : a ∈ db.oauthAccounts ∨ a.id = db.nextAccountId := by
  cases h with
  | none => exact .inl ha
  | deleted _ => exact .inl (List.mem_of_mem_filter ha)
  | signedUp hins =>
    obtain ⟨_, _, rfl⟩ := insertUser_some hins
    exact .inl ha
  | linked hlink =>
    obtain ⟨_, _, rfl⟩ := insertLink_some hlink
    rcases List.mem_append.mp ha with ha | ha
    · exact .inl ha
    · exact .inr (by rw [List.mem_singleton.mp ha])

/-- A row inserted by the step has no link yet. -/
theorem TableStep.new_user_unlinked (h : TableStep db w db') (hc : db.Consistent) {u : User}
    (hu : u ∈ db'.users) (hnew : u ∉ db.users) : ∀ a ∈ db'.oauthAccounts, a.userId ≠ u.id := by
  cases h with
  | none => exact absurd hu hnew
  | deleted _ => exact absurd hu hnew
  | signedUp hins =>
    obtain ⟨_, huser, rfl⟩ := insertUser_some hins
    rcases List.mem_append.mp hu with hu | hu
    · exact absurd hu hnew
    · intro a ha he
      obtain ⟨v, hv, hid⟩ := hc.account_user a ha
      have := hc.userIds_lt v hv
      rw [hid, he, List.mem_singleton.mp hu, huser] at this
      exact lt_irrefl _ this
  | linked hlink =>
    obtain ⟨_, _, rfl⟩ := insertLink_some hlink
    exact absurd hu hnew

theorem Worker.currentUser_of_link {link : OAuthAccount} (h : w.link = some link) :
    ∃ user, w.currentUser = some user := by
  cases w with
  | callback _ _ _ _ => cases h
  | unlink _ _ pc =>
    cases pc with
    | selected user _ | counted user _ => exact ⟨user, rfl⟩
    | start | authenticated _ | finished _ => cases h

theorem Worker.link_of_doomed {accountId : Nat} (h : w.doomed = some accountId) :
    ∃ link, w.link = some link ∧ link.id = accountId := by
  cases w with
  | callback _ _ _ _ => cases h
  | unlink _ _ pc =>
    cases pc with
    | counted _ link =>
      cases h
      exact ⟨link, rfl, rfl⟩
    | start | authenticated _ | selected _ _ | finished _ => cases h

end Tables

section Race

variable {ι : Type} [DecidableEq ι] {env : Env}

abbrev RaceConfig (ι : Type) := Config ι Server Worker

abbrev RaceTransition (ι : Type) := Transition (RaceConfig ι) (Label ι Unit)

/-- The surroundings (time, Redis, other requests) leave the tables alone. -/
abbrev RaceRun (env : Env) :
    RaceConfig ι → List (RaceTransition ι) → RaceConfig ι → Prop :=
  Run (Processes.Step (Computes fun (_ : ι) (_ : Unit) => workerStep env) fun s s' => s'.db = s.db)

def Linked (db : Database) (userId : Nat) : Prop := ∃ a ∈ db.oauthAccounts, a.userId = userId

/-- A link of the user, other than those that requests are about to delete. -/
def SpareLink (c : RaceConfig ι) (userId : Nat) (a : OAuthAccount) : Prop :=
  a ∈ c.shared.db.oauthAccounts ∧ a.userId = userId ∧ ∀ i, (c.proc i).doomed ≠ some a.id

/-- A count that the guard lets through, for a user without a password, leaves a spare
link next to the one to be deleted. -/
def CountsSafely (t : RaceTransition ι) : Prop :=
  ∀ i provider credentials user link, t.label = .process i () →
    t.source.proc i = .unlink provider credentials (.selected user link) →
    user.hashedPassword = none →
    refusesUnlink user (t.source.shared.db.linksOf user.id).length = false →
    ∃ a, SpareLink t.source user.id a ∧ a.id ≠ link.id

structure RaceInv (c : RaceConfig ι) : Prop where
  consistent : c.shared.db.Consistent
  requester : ∀ i user, (c.proc i).currentUser = some user → user ∈ c.shared.db.users
  held_lt : ∀ i link, (c.proc i).link = some link → link.id < c.shared.db.nextAccountId
  held_owner : ∀ i user link, (c.proc i).currentUser = some user → (c.proc i).link = some link →
    ∀ a ∈ c.shared.db.oauthAccounts, a.id = link.id → a.userId = user.id
  spare : ∀ u ∈ c.shared.db.users, u.hashedPassword = none → Linked c.shared.db u.id →
    ∃ a, SpareLink c u.id a

omit [DecidableEq ι] in
theorem raceInv_start {c : RaceConfig ι} (hc : c.shared.db.Consistent)
    (start : ∀ i, (c.proc i).AtStart) : RaceInv c := by
  have idle : ∀ i, (c.proc i).currentUser = none ∧ (c.proc i).link = none ∧
      (c.proc i).doomed = none := by
    intro i
    have hi := start i
    cases hw : c.proc i with
    | unlink _ _ pc =>
      rw [hw] at hi
      cases hi
      exact ⟨rfl, rfl, rfl⟩
    | callback _ _ _ pc => exact ⟨rfl, rfl, rfl⟩
  refine ⟨hc, ?_, ?_, ?_, ?_⟩
  · simp [idle]
  · simp [idle]
  · simp [idle]
  · rintro u _ _ ⟨a, ha, howner⟩
    exact ⟨a, ha, howner, by simp [idle]⟩

section Step

variable {c : RaceConfig ι} {k : ι} {s' : Server} {w' : Worker}

theorem spareLink_of_others {userId : Nat} {a : OAuthAccount} (ha : a ∈ s'.db.oauthAccounts)
    (howner : a.userId = userId) (hothers : ∀ i, (c.proc i).doomed ≠ some a.id)
    (hown : w'.doomed ≠ some a.id) : SpareLink ⟨s', Function.update c.proc k w'⟩ userId a := by
  refine ⟨ha, howner, fun i => ?_⟩
  by_cases hik : i = k
  · subst hik
    simpa using hown
  · simpa [hik] using hothers i

/-- The spare link of a user after the step of the request `k`. -/
theorem spare_step (hi : RaceInv c) (hstep : workerStep env c.shared (c.proc k) = (s', w'))
    (hsafe : CountsSafely ⟨c, .process k (), ⟨s', Function.update c.proc k w'⟩⟩)
    {u : User} (hu : u ∈ c.shared.db.users) (hpw : u.hashedPassword = none)
    (hlinked : Linked s'.db u.id) :
    ∃ a, SpareLink ⟨s', Function.update c.proc k w'⟩ u.id a := by
  have htables := tableStep_of_eq hstep
  have hdoomed : ∀ {accountId}, w'.doomed = some accountId →
      (workerStep env c.shared (c.proc k)).2.doomed = some accountId := by
    intro accountId h
    rw [hstep]
    exact h
  by_cases hbefore : Linked c.shared.db u.id
  · obtain ⟨a, ha, howner, hfree⟩ := hi.spare u hu hpw hbefore
    by_cases hnew : w'.doomed = some a.id
    · -- the count has just taken the spare link; its guard leaves another one
      obtain ⟨provider, credentials, user, link, hw, hid, hguard⟩ :=
        workerStep_doomed (hdoomed hnew)
      have huser : user ∈ c.shared.db.users := hi.requester k user (by rw [hw]; rfl)
      have howner' : a.userId = user.id :=
        hi.held_owner k user link (by rw [hw]; rfl) (by rw [hw]; rfl) a ha hid.symm
      obtain rfl := hi.consistent.eq_of_id hu huser (howner.symm.trans howner')
      obtain ⟨b, ⟨hb, hbowner, hbfree⟩, hne⟩ :=
        hsafe k provider credentials u link rfl hw hpw hguard
      refine ⟨b, spareLink_of_others (htables.kept hb (hbfree k)) hbowner hbfree ?_⟩
      rw [hnew, ← hid]
      exact fun h => hne (Option.some.inj h).symm
    · exact ⟨a, spareLink_of_others (htables.kept ha (hfree k)) howner hfree hnew⟩
  · obtain ⟨a, ha, howner⟩ := hlinked
    rcases htables.account_origin ha with hold | hfresh
    · exact absurd ⟨a, hold, howner⟩ hbefore
    · have held : ∀ {i link}, (c.proc i).link = some link → link.id ≠ a.id := fun h =>
        hfresh ▸ (hi.held_lt _ _ h).ne
      refine ⟨a, spareLink_of_others ha howner (fun i h => ?_) (fun h => ?_)⟩
      · obtain ⟨link, hlink, hid⟩ := Worker.link_of_doomed h
        exact held hlink hid
      · obtain ⟨_, _, _, link, hw, hid, _⟩ := workerStep_doomed (hdoomed h)
        have hlink : (c.proc k).link = some link := by rw [hw]; rfl
        exact held hlink hid

/-- Whoever a request goes on with was a row when the request read it. -/
theorem requester_step (hi : RaceInv c) (hstep : workerStep env c.shared (c.proc k) = (s', w'))
    {i : ι} {user : User} (h : (Function.update c.proc k w' i).currentUser = some user) :
    user ∈ c.shared.db.users := by
  by_cases hik : i = k
  · subst hik
    rw [Function.update_self] at h
    have h' : (workerStep env c.shared (c.proc i)).2.currentUser = some user := by
      rw [hstep]
      exact h
    rcases workerStep_currentUser h' with h | h
    · exact hi.requester i user h
    · exact h
  · rw [Function.update_of_ne hik] at h
    exact hi.requester i user h

/-- A link that a request holds was there before the step, if it still is, as one of
the requester's. -/
theorem held_step (hi : RaceInv c) (hstep : workerStep env c.shared (c.proc k) = (s', w'))
    {i : ι} {link : OAuthAccount} (h : (Function.update c.proc k w' i).link = some link) :
    ∃ user, (Function.update c.proc k w' i).currentUser = some user ∧
      link.id < c.shared.db.nextAccountId ∧
      ∀ a ∈ c.shared.db.oauthAccounts, a.id = link.id → a.userId = user.id := by
  by_cases hik : i = k
  · subst hik
    rw [Function.update_self] at h ⊢
    have h' : (workerStep env c.shared (c.proc i)).2.link = some link := by
      rw [hstep]
      exact h
    obtain ⟨user, huser, huser', hlink⟩ := workerStep_link h'
    rw [hstep] at huser'
    refine ⟨user, huser', ?_⟩
    rcases hlink with hlink | ⟨hmem, howner⟩
    · exact ⟨hi.held_lt i link hlink, hi.held_owner i user link huser hlink⟩
    · refine ⟨hi.consistent.accountIds_lt link hmem, fun a ha hid => ?_⟩
      rw [List.inj_on_of_nodup_map hi.consistent.accountIds ha hmem hid, howner]
  · rw [Function.update_of_ne hik] at h ⊢
    obtain ⟨user, huser⟩ := Worker.currentUser_of_link h
    exact ⟨user, huser, hi.held_lt i link h, hi.held_owner i user link huser h⟩

theorem raceInv_step (hi : RaceInv c) (hstep : workerStep env c.shared (c.proc k) = (s', w'))
    (hsafe : CountsSafely ⟨c, .process k (), ⟨s', Function.update c.proc k w'⟩⟩) :
    RaceInv ⟨s', Function.update c.proc k w'⟩ := by
  have htables := tableStep_of_eq hstep
  refine ⟨htables.consistent hi.consistent, ?_, ?_, ?_, ?_⟩
  · intro i user h
    exact htables.users (requester_step hi hstep h)
  · intro i link h
    obtain ⟨_, _, hlt, _⟩ := held_step hi hstep h
    exact lt_of_lt_of_le hlt htables.nextAccountId_le
  · intro i user link huser h a ha hid
    obtain ⟨user', huser', hlt, howner⟩ := held_step hi hstep h
    cases huser.symm.trans huser'
    rcases htables.account_origin ha with ha | hfresh
    · exact howner a ha hid
    · exact absurd (hid.symm.trans hfresh) hlt.ne
  · rintro u hu hpw hlinked
    by_cases hold : u ∈ c.shared.db.users
    · exact spare_step hi hstep hsafe hold hpw hlinked
    · obtain ⟨a, ha, howner⟩ := hlinked
      exact absurd howner (htables.new_user_unlinked hi.consistent hu hold a ha)

end Step

variable {c₀ c : RaceConfig ι} {h : List (RaceTransition ι)}

theorem raceInv_run (hc : c₀.shared.db.Consistent) (start : ∀ i, (c₀.proc i).AtStart)
    (r : RaceRun env c₀ h c) (safe : ∀ t ∈ h, CountsSafely t) : RaceInv c := by
  refine r.guarded_invariant (I := fun _ c => RaceInv c) (raceInv_start hc start) ?_
    (guarded_of_forall_mem safe)
  intro h c l c' _ hi hstep hsafe
  cases hstep with
  | process hmove => exact raceInv_step hi hmove hsafe
  | surroundings henv =>
    obtain ⟨hcons, hrequester, hlt, howner, hspare⟩ := hi
    rw [← henv] at hcons hrequester hlt howner hspare
    refine ⟨hcons, hrequester, hlt, howner, fun u hu hpw hlinked => ?_⟩
    obtain ⟨a, ha, hid, hfree⟩ := hspare u hu hpw hlinked
    exact ⟨a, henv ▸ ha, hid, hfree⟩

theorem linked_step {c c' : RaceConfig ι} {l : Label ι Unit} (hi : RaceInv c)
    (hstep : Processes.Step (Computes fun (_ : ι) (_ : Unit) => workerStep env)
      (fun s s' => s'.db = s.db) c l c')
    {u : User} (hu : u ∈ c.shared.db.users) (hpw : u.hashedPassword = none)
    (hlinked : Linked c.shared.db u.id) : u ∈ c'.shared.db.users ∧ Linked c'.shared.db u.id := by
  cases hstep with
  | @process k _ s' w' hmove =>
    have hmove : workerStep env c.shared (c.proc k) = (s', w') := hmove
    have htables := tableStep_of_eq hmove
    obtain ⟨a, ha, howner, hfree⟩ := hi.spare u hu hpw hlinked
    exact ⟨htables.users hu, a, htables.kept ha (hfree k), howner⟩
  | @surroundings s' henv =>
    change u ∈ s'.db.users ∧ Linked s'.db u.id
    rw [henv]
    exact ⟨hu, hlinked⟩

end Race

/-- Whoever has no password and at least one link at some point of an interleaving
whose counts are safe has a link at every later point. -/
theorem last_link_survives {ι : Type} [DecidableEq ι] {env : Env} {c₀ c : RaceConfig ι}
    {h : List (RaceTransition ι)} (hc : c₀.shared.db.Consistent)
    (start : ∀ i, (c₀.proc i).AtStart) (r : RaceRun env c₀ h c) (safe : ∀ t ∈ h, CountsSafely t) :
    ∀ h₁ c₁, h₁ <+: h → RaceRun env c₀ h₁ c₁ →
      ∀ u ∈ c₁.shared.db.users, u.hashedPassword = none →
        (∃ a ∈ c₁.shared.db.oauthAccounts, a.userId = u.id) →
        ∃ a ∈ c.shared.db.oauthAccounts, a.userId = u.id := by
  intro h₁ c₁ hp r₁ u hu hpw hlinked
  have hP : u ∈ c₁.shared.db.users ∧ Linked c₁.shared.db u.id := ⟨hu, hlinked⟩
  refine (r.persist (P := fun c => u ∈ c.shared.db.users ∧ Linked c.shared.db u.id) ?_ hp r₁ hP).2
  rintro t ht ⟨hu, hlinked⟩
  obtain ⟨before, hbefore, rb, hstep⟩ := r.step_of_mem ht
  have hsafe : ∀ t ∈ before, CountsSafely t := fun t' ht' =>
    safe t' (hbefore.subset (List.mem_append_left _ ht'))
  exact linked_step (raceInv_run hc start rb hsafe) hstep hu hpw hlinked

def accessToken : Token := ⟨"a@example.com", "access", "uuid1", 0, 1800⟩

/-- A user who has signed up with one provider and linked a second one. -/
def sampleServer : Server :=
  Runs.exec (step asciiEnv) (freshServer 0)
    [.request (.oauthLogin "github"),
      .request (.oauthCallback "github" "state0" (some ⟨"17", some "a@example.com"⟩)),
      .request (.oauthLink "google" accessToken),
      .request (.oauthCallback "google" "state3" (some ⟨"42", none⟩))]

def sampleUser : User := ⟨1, "a@example.com", none, true, true, 0⟩

/-- Two requests, each to unlink one of the providers. -/
def sampleConfig : RaceConfig Bool where
  shared := sampleServer
  proc
    | false => .unlink "github" accessToken .start
    | true => .unlink "google" accessToken .start

def sampleStep : Bool → Unit → Server → Worker → Server × Worker := fun _ _ => workerStep asciiEnv

theorem sampleConfig_consistent : sampleConfig.shared.db.Consistent :=
  ApiRun.consistent (freshServer_initial 0).consistent (run_trace _ _ _)

/-- The first request alone: it deletes one of two links. -/
def sampleSchedule : List (Bool × Unit) := [(false, ()), (false, ()), (false, ()), (false, ())]

theorem last_link_survives_sample :
    ∃ a ∈ (play sampleStep sampleConfig sampleSchedule).shared.db.oauthAccounts,
      a.userId = sampleUser.id := by
  refine last_link_survives sampleConfig_consistent (by rintro (_ | _) <;> rfl)
    (run_play sampleStep sampleConfig sampleSchedule) ?_ [] _ List.nil_prefix .start sampleUser
    (by decide +kernel) rfl (by decide +kernel)
  intro t ht i provider credentials user link hl hpc _ _
  simp only [playTrace, sampleSchedule, List.mem_cons, List.not_mem_nil, or_false] at ht
  -- the count is the third step; before it no link is held, after it one is doomed
  have link_of : (t.source.proc i).link = some link := by rw [hpc]; rfl
  have isSome_link : (t.source.proc i).link.isSome = true := by rw [link_of]; rfl
  have doomed_of : (t.source.proc i).doomed = none := by rw [hpc]; rfl
  rcases ht with rfl | rfl | rfl | rfl <;> cases hl
  · exact absurd isSome_link (by decide +kernel)
  · exact absurd isSome_link (by decide +kernel)
  · have hlink : link = ⟨1, 1, "github", "17", some "a@example.com", 0⟩ :=
      Option.some.inj (link_of.symm.trans (by decide +kernel))
    have huser : user.id = 1 := by
      have : (Worker.currentUser (.unlink provider credentials (.selected user link))).map User.id =
          some 1 := by rw [← hpc]; decide +kernel
      exact Option.some.inj this
    rw [hlink, huser]
    exact ⟨⟨2, 1, "google", "42", none, 0⟩, ⟨by decide +kernel, rfl, by decide +kernel⟩, by decide⟩
  · exact absurd doomed_of (by decide +kernel)

/-- Both requests count two links before either has deleted its own. -/
theorem both_links_deleted :
    ∃ h c, RaceRun asciiEnv sampleConfig h c ∧ (∀ i, (c.proc i).isFinished = true) ∧
      sampleUser ∈ sampleConfig.shared.db.users ∧ sampleUser.hashedPassword = none ∧
      (∃ a ∈ sampleConfig.shared.db.oauthAccounts, a.userId = sampleUser.id) ∧
      ¬ ∃ a ∈ c.shared.db.oauthAccounts, a.userId = sampleUser.id := by
  refine ⟨_, _, run_play sampleStep sampleConfig
    [(false, ()), (false, ()), (false, ()), (true, ()), (true, ()), (true, ()), (false, ()),
      (true, ())], ?_, by decide +kernel, rfl, ?_, ?_⟩
  · decide +kernel
  · decide +kernel
  · decide +kernel

end FastApiAuth.UnlinkRace
