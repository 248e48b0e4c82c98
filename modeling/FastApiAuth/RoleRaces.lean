import FastApiAuth.DefaultRole
import FastApiAuth.Library.Linearization

/-!
# assign_role and revoke_role, statement by statement

Both handlers load the user, then its roles, flush the difference of the collection to
user_roles, read the row again, push the notification of a new role, and read the roles for
the answer. Between these statements anything may be committed by others. The primary key
and the foreign key of user_roles turn what comes too late into a 500, and what is left is a
run of the two handlers at once.
-/

namespace FastApiAuth.RoleRaces

set_option autoImplicit false

open Database DefaultRole Processes Runs

universe u

/-- `pushed` says whether publish_to_user returns. -/
inductive RoleRequest where
  | assign (userId : Int) (roleName : String) (pushed : Bool)
  | revoke (userId : Int) (roleName : String)

def RoleRequest.userId : RoleRequest → Int
  | .assign userId _ _ => userId
  | .revoke userId _ => userId

def RoleRequest.handler (env : Env) : RoleRequest → Server → Outcome
  | .assign userId roleName pushed => assignRole env userId roleName pushed
  | .revoke userId roleName => revokeRole env userId roleName

/-- What is answered when the tables are written, of a row with the roles of `s`. -/
def RoleRequest.answer (env : Env) (s : Server) (row : User) : RoleRequest → Reply
  | .assign _ _ false => .error internalServerError
  | .assign _ _ true | .revoke _ _ => userResponse env s row

/-- The next statement of a request, with what its session holds. -/
inductive Pc where
  | start
  | found (user : User)
  | inserting (user : User) (role : Role)
  | deleting (user : User) (roles : List Role)
  | committed (user : User)
  | refreshed (row : User)
  | finished (reply : Reply)

section Statements

/-- `db.get(User, user_id)` -/
def getUserStep (request : RoleRequest) (s : Server) : Pc :=
  match s.db.userById request.userId with
  | none => .finished (.error userNotFound)
  | some user => .found user

/-- The role by its name, and `user.roles`. No request writes the table of roles. -/
def loadRolesStep (env : Env) (user : User) (s : Server) : RoleRequest → Pc
  | .assign _ roleName _ =>
    match s.db.roleByName roleName with
    | none => .finished (.error roleNotFound)
    | some role =>
      if role ∈ s.db.rolesOf user.id then .finished (userResponse env s user)
      else .inserting user role
  | .revoke _ roleName =>
    .deleting user ((s.db.rolesOf user.id).filter fun role => role.name = roleName)

/-- The pair is in user_roles. -/
def holds (db : Database) (userId roleId : Nat) : Bool :=
  db.userRoles.any fun p => p.1 = userId ∧ p.2 = roleId

/-- `INSERT INTO user_roles`, refused by the primary key or by the foreign key. -/
def insertRole (db : Database) (userId roleId : Nat) : Option Database :=
  if holds db userId roleId || db.users.all (fun u => u.id ≠ userId) then none
  else some (db.addUserRole userId roleId)

/-- `DELETE FROM user_roles` for each role. With `sane` the driver reports how many rows it
found, and the flush raises where one was missing. -/
def deleteRoles (sane : Bool) (db : Database) (userId : Nat) (roles : List Role) :
    Option Database :=
  if sane && roles.any (fun role => !holds db userId role.id) then none
  else some { db with
    userRoles := db.userRoles.filter fun p =>
      !roles.any fun role => p.1 = userId ∧ p.2 = role.id }

/-- The flush and the commit; an error rolls back. -/
def commitStep (user : User) (s : Server) : Option Database → Server × Pc
  | none => (s, .finished (.error internalServerError))
  | some db => ({ s with db }, .committed user)

/-- `db.refresh(user)`. A row that is gone raises. -/
def refreshStep (user : User) (s : Server) : Pc :=
  match s.db.userById user.id with
  | none => .finished (.error internalServerError)
  | some row => .refreshed row

/-- The last statement is the push and, behind it, the response model's load of the roles. -/
def requestStep (env : Env) (sane : Bool) (request : RoleRequest) (s : Server) :
    Pc → Server × Pc
  | .start => (s, getUserStep request s)
  | .found user => (s, loadRolesStep env user s request)
  | .inserting user role => commitStep user s (insertRole s.db user.id role.id)
  | .deleting user roles => commitStep user s (deleteRoles sane s.db user.id roles)
  | .committed user => (s, refreshStep user s)
  | .refreshed row => (s, .finished (request.answer env s row))
  | .finished reply => (s, .finished reply)

end Statements

section Alone

variable {s : Server} {user : User}

theorem userById_id {db : Database} {i : Int} (h : db.userById i = some user) :
    db.userById user.id = some user := by
  rw [(userById_some h).2]
  exact h

theorem holds_iff {db : Database} {userId roleId : Nat} :
    holds db userId roleId = true ↔ (userId, roleId) ∈ db.userRoles := by
  unfold holds
  rw [List.any_eq_true]
  constructor
  · rintro ⟨p, hp, hmatch⟩
    obtain ⟨rfl, rfl⟩ := of_decide_eq_true hmatch
    exact hp
  · intro hp
    exact ⟨_, hp, decide_eq_true ⟨rfl, rfl⟩⟩

theorem insertRole_of_new {db : Database} {role : Role} (hu : user ∈ db.users)
    (hrole : role ∈ db.roles) (hnew : role ∉ db.rolesOf user.id) :
    insertRole db user.id role.id = some (db.addUserRole user.id role.id) := by
  unfold insertRole
  rw [if_neg]
  rw [Bool.or_eq_true, holds_iff]
  rintro (hp | hall)
  · exact hnew (mem_rolesOf.mpr ⟨hrole, hp⟩)
  · have := of_decide_eq_true (List.all_eq_true.mp hall user hu)
    exact this rfl

theorem deleteRoles_loaded {sane : Bool} {db : Database} {userId : Nat} {roleName : String} :
    deleteRoles sane db userId ((db.rolesOf userId).filter fun role => role.name = roleName) =
      some (db.dropUserRole userId roleName) := by
  unfold deleteRoles dropUserRole
  rw [if_neg]
  · congr 2
    apply List.filter_congr
    intro p hp
    rw [Bool.eq_iff_iff, decide_eq_true_iff, Bool.not_eq_true', ← Bool.not_eq_true,
      List.any_eq_true, List.any_eq_true]
    apply not_congr
    constructor
    · rintro ⟨role, hrole, hmatch⟩
      obtain ⟨huser, hid⟩ := of_decide_eq_true hmatch
      obtain ⟨hheld, hname⟩ := List.mem_filter.mp hrole
      exact ⟨huser, role, (mem_rolesOf.mp hheld).1,
        decide_eq_true ⟨hid.symm, of_decide_eq_true hname⟩⟩
    · rintro ⟨huser, role, hrole, hmatch⟩
      obtain ⟨hid, hname⟩ := of_decide_eq_true hmatch
      have hheld : (userId, role.id) ∈ db.userRoles := by
        rw [hid, ← huser]
        exact hp
      exact ⟨role, List.mem_filter.mpr ⟨mem_rolesOf.mpr ⟨hrole, hheld⟩, decide_eq_true hname⟩,
        decide_eq_true ⟨huser, hid.symm⟩⟩
  · intro hmissing
    obtain ⟨_, hany⟩ := Bool.and_eq_true_iff.mp hmissing
    obtain ⟨role, hrole, hnone⟩ := List.any_eq_true.mp hany
    have hheld := holds_iff.mpr (mem_rolesOf.mp (List.mem_of_mem_filter hrole)).2
    rw [hheld] at hnone
    cases hnone

/-- The steps of one request, with nothing in between, are the handler. -/
theorem alone_eq_handler (env : Env) (sane : Bool) (request : RoleRequest) (s : Server) :
    (fun p => requestStep env sane request p.1 p.2)^[5] (s, .start) =
      ((request.handler env s).2, .finished (request.handler env s).1) := by
  simp only [Function.iterate_succ, Function.iterate_zero, Function.comp_apply, id_eq]
  cases request with
  | assign userId roleName pushed =>
    simp only [requestStep, getUserStep, RoleRequest.userId, RoleRequest.handler, assignRole]
    cases huser : s.db.userById userId with
    | none => rfl
    | some user =>
      simp only [loadRolesStep]
      cases hrole : s.db.roleByName roleName with
      | none => rfl
      | some role =>
        by_cases hheld : role ∈ s.db.rolesOf user.id
        · simp only [if_pos hheld]
        · have hinsert := insertRole_of_new (userById_some huser).1 (roleByName_some hrole).1 hheld
          have hagain : (s.db.addUserRole user.id role.id).userById user.id = some user :=
            userById_id huser
          simp only [if_neg hheld, hinsert, commitStep, refreshStep, hagain]
          cases pushed <;> rfl
  | revoke userId roleName =>
    simp only [requestStep, getUserStep, RoleRequest.userId, RoleRequest.handler, revokeRole]
    cases huser : s.db.userById userId with
    | none => rfl
    | some user =>
      have hagain : (s.db.dropUserRole user.id roleName).userById user.id = some user :=
        userById_id huser
      simp only [loadRolesStep, deleteRoles_loaded, commitStep, refreshStep, hagain]
      rfl

end Alone

section Surroundings

/-- The keys of the tables that the statements rely on. -/
structure Keyed (s : Server) : Prop where
  consistent : s.db.Consistent
  userRoles : s.db.userRoles.Nodup
  roleNames : (s.db.roles.map Role.name).Nodup

/-- Roles stay, and ids of rows that are gone do not come back. -/
structure Frame (s s' : Server) : Prop where
  roles : s'.db.roles = s.db.roles
  next_le : s.db.nextUserId ≤ s'.db.nextUserId
  rows : ∀ n < s.db.nextUserId, HasRow s'.db n → HasRow s.db n

/-- Requests and tasks of the API, each at once; not the statement of the README, which
does not ask whether the user holds the role. -/
def Others (env : Env) (s s' : Server) : Prop :=
  ∃ a reply, Step env s (a, reply) s' ∧ ∀ userId roleName, a ≠ .grantBySql userId roleName

end Surroundings

section Others

variable {env : Env} {s s' : Server}

theorem effect_userRoles_nodup {a : Action} {db : Database} {new : List Issued}
    (h : Effect env s a db new) (hc : s.db.Consistent) (hs : s.db.userRoles.Nodup)
    (hsql : ∀ userId roleName, a ≠ .grantBySql userId roleName) : db.userRoles.Nodup := by
  cases h with
  | quiet | session _ _ | resetMinted _ _ _ _ | verified _ _ _ _ _ | passwordReset _ _ _ _ _ _
  | unlinked _ _ _ | passwordChanged _ _ _ _ | deactivated _ | statusUpdated _ _ => exact hs
  | registered _ _ _ hins _ _ =>
    obtain ⟨_, huser, rfl⟩ := insertUser_some hins
    have hnew : ∀ p ∈ s.db.userRoles, p.1 ≠ s.db.nextUserId := by
      intro p hp heq
      obtain ⟨u, hu, hid⟩ := hc.role_user p hp
      have := hc.userIds_lt u hu
      omega
    have hid := congrArg User.id huser
    cases hrole : s.db.roleByName defaultUserRoleName with
    | none => simpa [hrole] using hs
    | some role =>
      apply List.Nodup.append hs (List.nodup_singleton _)
      apply List.disjoint_singleton.mpr
      intro hp
      exact hnew _ hp hid
  | signedUp _ _ hins hlink _ =>
    obtain ⟨_, _, rfl⟩ := insertUser_some hins
    obtain ⟨_, _, rfl⟩ := insertLink_some hlink
    simpa using hs
  | autoLinked _ _ _ hlink _ | linked _ _ hlink _ =>
    obtain ⟨_, _, rfl⟩ := insertLink_some hlink
    exact hs
  | emailChanged _ _ hdb =>
    obtain ⟨_, rfl⟩ := changeEmail_some hdb
    exact hs
  | @roleAssigned _ _ _ _ _ user role _ _ hrole hnew =>
    have hfresh : (user.id, role.id) ∉ s.db.userRoles := by
      intro hp
      exact hnew (mem_rolesOf.mpr ⟨(roleByName_some hrole).1, hp⟩)
    apply List.Nodup.append hs (List.nodup_singleton _)
    rw [List.disjoint_singleton]
    exact hfresh
  | grantedBySql _ _ => exact absurd rfl (hsql _ _)
  | roleRevoked _ _ | cleaned => exact hs.sublist List.filter_sublist

theorem others_keyed (hs : Keyed s) (h : Others env s s') : Keyed s' := by
  obtain ⟨a, reply, hstep, hsql⟩ := h
  constructor
  · exact step_consistent hs.consistent hstep
  · obtain ⟨_, _, heff⟩ := (step_effect hstep).effect
    exact effect_userRoles_nodup heff hs.consistent hs.userRoles hsql
  · rw [step_roles hstep]
    exact hs.roleNames

theorem others_frame (hs : Keyed s) (h : Others env s s') : Frame s s' := by
  obtain ⟨a, reply, hstep, _⟩ := h
  constructor
  · exact step_roles hstep
  · exact step_nextUserId_le hstep
  · intro n hlt hrow
    exact hasRow_before hs.consistent hstep hrow hlt

end Others

section RequestsAtOnce

abbrev Seen := Server → Pc → Prop

/-- The tables are written, and this is what the handler answers there. -/
inductive Worked (env : Env) (request : RoleRequest) : Fate Reply → Prop where
  | mk (s : Server) {row : User} : (row.id : Int) = request.userId →
      Worked env request (.took (request.answer env s row))

/-- The row with this id was there and is gone for good. -/
def Gone (s : Server) (userId : Nat) : Prop := userId < s.db.nextUserId ∧ ¬ HasRow s.db userId

/-- A request with nothing left to commit. -/
inductive Settled (env : Env) (request : RoleRequest) (s : Server) (user : User) :
    Fate Reply → Prop where
  | done {fate : Fate Reply} : user.id < s.db.nextUserId → Worked env request fate →
      Settled env request s user fate
  | gone : Gone s user.id → Settled env request s user .gaveUp

/-- How a request ends. `seen` are the states that it has made its statements from. -/
inductive Ends (env : Env) (request : RoleRequest) (seen : Seen) (s : Server) :
    Reply → Fate Reply → Prop where
  /-- It refuses as the handler at once. -/
  | refused {e : HttpException} : Ends env request seen s (.error e) (.took (.error e))
  /-- The user holds the role: it answers as the handler there, but of the row that it read at
  its first statement. -/
  | held {s₁ s₂ : Server} {user row : User} : seen s₁ .start →
      s₁.db.userById request.userId = some user → seen s₂ (.found user) →
      s₂.db.userById request.userId = some row →
      Ends env request seen s (userResponse env s₂ user) (.took (userResponse env s₂ row))
  /-- It answers as the handler, but of the row that it reads again and the roles of the user at
  its last statement. -/
  | shown {fate : Fate Reply} {s₁ s₂ : Server} {user row : User} : Worked env request fate →
      (user.id : Int) = request.userId → seen s₁ (.committed user) →
      s₁.db.userById user.id = some row → seen s₂ (.refreshed row) →
      Ends env request seen s (request.answer env s₂ row) fate
  /-- It has done nothing. -/
  | failed : Ends env request seen s (.error internalServerError) .gaveUp
  /-- Its user was deleted after its commit. -/
  | unseen {fate : Fate Reply} {userId : Nat} : Worked env request fate →
      (userId : Int) = request.userId → Gone s userId →
      Ends env request seen s (.error internalServerError) fate

/-- Where a request stands and what has become of it as a whole. -/
inductive Rel (env : Env) (request : RoleRequest) (seen : Seen) (s : Server) :
    Pc → Fate Reply → Prop where
  | start : Rel env request seen s .start .pending
  | found {user : User} {s₁ : Server} : seen s₁ .start →
      s₁.db.userById request.userId = some user → user.id < s.db.nextUserId →
      (∀ userId roleName pushed, request = .assign userId roleName pushed →
        s.db.roleByName roleName ≠ none) → Rel env request seen s (.found user) .pending
  | noRole {user : User} {userId : Int} {roleName : String} {pushed : Bool} :
      request = .assign userId roleName pushed → s.db.roleByName roleName = none →
      Rel env request seen s (.found user) (.took (.error roleNotFound))
  | inserting {user : User} {roleName : String} {pushed : Bool} {role : Role} :
      request = .assign user.id roleName pushed → user.id < s.db.nextUserId →
      s.db.roleByName roleName = some role → Rel env request seen s (.inserting user role) .pending
  | deleting {user : User} {role : Role} :
      request = .revoke user.id role.name → user.id < s.db.nextUserId → role ∈ s.db.roles →
      Rel env request seen s (.deleting user [role]) .pending
  | idle {user : User} {fate : Fate Reply} : (user.id : Int) = request.userId →
      Settled env request s user fate → Rel env request seen s (.deleting user []) fate
  | committed {user : User} {fate : Fate Reply} : (user.id : Int) = request.userId →
      Settled env request s user fate → Rel env request seen s (.committed user) fate
  | refreshed {user row : User} {s₁ : Server} {fate : Fate Reply} :
      (user.id : Int) = request.userId → seen s₁ (.committed user) →
      s₁.db.userById user.id = some row → Worked env request fate →
      Rel env request seen s (.refreshed row) fate
  | finished {reply : Reply} {fate : Fate Reply} : Ends env request seen s reply fate →
      Rel env request seen s (.finished reply) fate

end RequestsAtOnce

section OneStep

variable {env : Env} {request : RoleRequest} {seen : Seen} {s s' : Server}
variable {user : User} {role : Role} {pc : Pc} {fate : Fate Reply} {sane : Bool}

theorem Gone.later {userId : Nat} (h : Gone s userId) (hf : Frame s s') : Gone s' userId := by
  constructor
  · exact lt_of_lt_of_le h.1 hf.next_le
  · intro hrow
    exact h.2 (hf.rows userId h.1 hrow)

theorem Settled.later (h : Settled env request s user fate) (hf : Frame s s') :
    Settled env request s' user fate := by
  cases h with
  | done hlt hworked => exact .done (lt_of_lt_of_le hlt hf.next_le) hworked
  | gone hgone => exact .gone (hgone.later hf)

theorem Ends.later {reply : Reply} (h : Ends env request seen s reply fate) (hf : Frame s s') :
    Ends env request seen s' reply fate := by
  cases h with
  | refused => exact .refused
  | held hseen₁ huser hseen₂ hrow => exact .held hseen₁ huser hseen₂ hrow
  | shown hworked hid hseen₁ hrow hseen₂ => exact .shown hworked hid hseen₁ hrow hseen₂
  | failed => exact .failed
  | unseen hworked hid hgone => exact .unseen hworked hid (hgone.later hf)

theorem Rel.later (h : Rel env request seen s pc fate) (hf : Frame s s') :
    Rel env request seen s' pc fate := by
  have hrole : ∀ roleName, s'.db.roleByName roleName = s.db.roleByName roleName := by
    intro roleName
    unfold roleByName
    rw [hf.roles]
  cases h with
  | start => exact .start
  | found hseen huser hlt hroles =>
    refine .found hseen huser (lt_of_lt_of_le hlt hf.next_le) ?_
    intro userId roleName pushed hrequest
    rw [hrole]
    exact hroles userId roleName pushed hrequest
  | noRole hrequest hnone => exact .noRole hrequest ((hrole _).trans hnone)
  | inserting hrequest hlt hsome =>
    exact .inserting hrequest (lt_of_lt_of_le hlt hf.next_le) ((hrole _).trans hsome)
  | deleting hrequest hlt hmem =>
    exact .deleting hrequest (lt_of_lt_of_le hlt hf.next_le) (hf.roles ▸ hmem)
  | idle hid hsettled => exact .idle hid (hsettled.later hf)
  | committed hid hsettled => exact .committed hid (hsettled.later hf)
  | refreshed hid hseen hrow hworked => exact .refreshed hid hseen hrow hworked
  | finished hends => exact .finished (hends.later hf)

theorem insertRole_some {db db' : Database} {userId roleId : Nat}
    (h : insertRole db userId roleId = some db') :
    (userId, roleId) ∉ db.userRoles ∧ HasRow db userId ∧ db' = db.addUserRole userId roleId := by
  unfold insertRole at h
  split at h
  · cases h
  · rename_i hfree
    rw [Bool.or_eq_true, holds_iff] at hfree
    obtain ⟨hnew, hrow⟩ := not_or.mp hfree
    cases h
    simp only [List.all_eq_true, decide_eq_true_eq, not_forall, Classical.not_not] at hrow
    obtain ⟨u, hu, hid⟩ := hrow
    exact ⟨hnew, ⟨u, hu, hid⟩, rfl⟩

theorem deleteRoles_some {db db' : Database} {userId : Nat} {roles : List Role}
    (h : deleteRoles sane db userId roles = some db') : db' = { db with
      userRoles := db.userRoles.filter fun p =>
        !roles.any fun role => p.1 = userId ∧ p.2 = role.id } := by
  unfold deleteRoles at h
  split at h
  · cases h
  · exact (Option.some.inj h).symm

/-- What a statement leaves: the session's own writes to user_roles and nothing else. -/
theorem requestStep_db (env : Env) (sane : Bool) (request : RoleRequest) (s : Server) (pc : Pc) :
    ∃ userRoles,
      (requestStep env sane request s pc).1 = { s with db := { s.db with userRoles } } := by
  have commits : ∀ user db, (∀ db', db = some db' →
      ∃ userRoles, db' = { s.db with userRoles }) →
      ∃ userRoles, (commitStep user s db).1 = { s with db := { s.db with userRoles } } := by
    intro user db hdb
    cases db with
    | none => exact ⟨s.db.userRoles, rfl⟩
    | some db =>
      obtain ⟨userRoles, rfl⟩ := hdb db rfl
      exact ⟨userRoles, rfl⟩
  cases pc with
  | start | found _ | committed _ | refreshed _ | finished _ => exact ⟨s.db.userRoles, rfl⟩
  | inserting user role =>
    apply commits
    intro db' h
    exact ⟨_, (insertRole_some h).2.2⟩
  | deleting user roles =>
    apply commits
    intro db' h
    exact ⟨_, deleteRoles_some h⟩

theorem requestStep_frame : Frame s (requestStep env sane request s pc).1 := by
  obtain ⟨userRoles, hs⟩ := requestStep_db env sane request s pc
  rw [hs]
  exact ⟨rfl, Nat.le_refl _, fun _ _ hrow => hrow⟩

theorem commitStep_keyed {db : Option Database} (hs : Keyed s)
    (hdb : ∀ db', db = some db' → db'.Consistent ∧ db'.userRoles.Nodup ∧ db'.roles = s.db.roles) :
    Keyed (commitStep user s db).1 := by
  cases db with
  | none => exact hs
  | some db =>
    obtain ⟨hconsistent, huserRoles, hroles⟩ := hdb db rfl
    refine ⟨hconsistent, huserRoles, ?_⟩
    change (db.roles.map Role.name).Nodup
    rw [hroles]
    exact hs.roleNames

theorem requestStep_keyed (hs : Keyed s) : Keyed (requestStep env sane request s pc).1 := by
  cases pc with
  | start | found _ | committed _ | refreshed _ | finished _ => exact hs
  | inserting user role =>
    apply commitStep_keyed hs
    intro db' h
    obtain ⟨hnew, ⟨u, hu, hid⟩, rfl⟩ := insertRole_some h
    refine ⟨?_, ?_, rfl⟩
    · rw [← hid]
      exact addUserRole_consistent hs.consistent hu
    · apply List.Nodup.append hs.userRoles (List.nodup_singleton _)
      rw [List.disjoint_singleton]
      exact hnew
  | deleting user roles =>
    apply commitStep_keyed hs
    intro db' h
    rw [deleteRoles_some h]
    refine ⟨?_, hs.userRoles.sublist List.filter_sublist, rfl⟩
    have hc := hs.consistent
    exact { hc with role_user := fun p hp => hc.role_user p (List.mem_of_mem_filter hp) }

abbrev Moves (env : Env) (sane : Bool) (request : RoleRequest) (seen : Seen) (s : Server) (pc : Pc)
    (fate : Fate Reply) : Prop :=
  ∃ fate', Move (fun _ : Unit => request.handler env) () s (requestStep env sane request s pc).1
      fate fate' ∧
    Rel env request seen (requestStep env sane request s pc).1
      (requestStep env sane request s pc).2 fate'

theorem hasRow_of_role (hc : s.db.Consistent) {userId roleId : Nat}
    (hp : (userId, roleId) ∈ s.db.userRoles) : HasRow s.db userId :=
  hc.role_user _ hp

theorem userById_of_hasRow (hc : s.db.Consistent) {userId : Nat} (h : HasRow s.db userId) :
    ∃ user, s.db.userById userId = some user ∧ user.id = userId := by
  obtain ⟨user, hu, rfl⟩ := h
  exact ⟨user, hc.userById_of_mem hu, rfl⟩

/-- The roles of one name: none or one. -/
theorem roles_of_name (hs : Keyed s) (userId : Nat) (roleName : String) :
    (s.db.rolesOf userId).filter (fun role => role.name = roleName) = [] ∨
      ∃ role ∈ s.db.roles, role.name = roleName ∧ (userId, role.id) ∈ s.db.userRoles ∧
        (s.db.rolesOf userId).filter (fun role => role.name = roleName) = [role] := by
  have hnames : ((s.db.rolesOf userId).map Role.name).Nodup := Tables.nodup_filter _ hs.roleNames
  generalize hl : (s.db.rolesOf userId).filter (fun role => role.name = roleName) = l
  have hmem : ∀ role ∈ l, role ∈ s.db.rolesOf userId ∧ role.name = roleName := by
    intro role hrole
    rw [← hl] at hrole
    simpa using hrole
  have hnodup : (l.map Role.name).Nodup := by
    rw [← hl]
    exact Tables.nodup_filter _ hnames
  match l, hmem, hnodup with
  | [], _, _ => exact Or.inl rfl
  | [role], hmem, _ =>
    obtain ⟨hrole, hname⟩ := hmem role (List.mem_singleton_self _)
    obtain ⟨hrole, hp⟩ := mem_rolesOf.mp hrole
    exact Or.inr ⟨role, hrole, hname, hp, rfl⟩
  | role :: other :: _, hmem, hnodup =>
    have hfirst := (hmem role (by simp)).2
    have hsecond := (hmem other (by simp)).2
    rw [List.map_cons, List.map_cons, List.nodup_cons] at hnodup
    rw [hfirst, hsecond] at hnodup
    exact absurd List.mem_cons_self hnodup.1

theorem handler_of_no_user (env : Env) (huser : s.db.userById request.userId = none) :
    request.handler env s = (.error userNotFound, s) := by
  cases request with
  | assign userId roleName pushed =>
    change s.db.userById userId = none at huser
    simp only [RoleRequest.handler, assignRole, huser]
  | revoke userId roleName =>
    change s.db.userById userId = none at huser
    simp only [RoleRequest.handler, revokeRole, huser]

theorem getUser_moves (hs : Keyed s) (hseen : seen s .start) :
    Moves env sane request seen s .start .pending := by
  unfold Moves
  simp only [requestStep]
  unfold getUserStep
  cases huser : s.db.userById request.userId with
  | none =>
    have hrefused := handler_of_no_user env huser
    refine ⟨_, .takes rfl (by rw [hrefused]) rfl, ?_⟩
    rw [hrefused]
    exact .finished .refused
  | some user =>
    obtain ⟨hmem, hid⟩ := userById_some huser
    have hlt := hs.consistent.userIds_lt user hmem
    cases request with
    | revoke userId roleName =>
      refine ⟨_, .stays rfl rfl, .found hseen huser hlt ?_⟩
      intro _ _ _ hrequest
      cases hrequest
    | assign userId roleName pushed =>
      cases hrole : s.db.roleByName roleName with
      | some role =>
        refine ⟨_, .stays rfl rfl, .found hseen huser hlt ?_⟩
        intro _ _ _ hrequest
        cases hrequest
        rw [hrole]
        exact Option.some_ne_none role
      | none =>
        -- the answer is settled here: the user may be gone when the role is looked up
        have hrefused : (RoleRequest.assign userId roleName pushed).handler env s =
            (.error roleNotFound, s) := by
          change s.db.userById userId = some user at huser
          simp only [RoleRequest.handler, assignRole, huser, hrole]
        refine ⟨_, .takes rfl (by rw [hrefused]) rfl, ?_⟩
        rw [hrefused]
        exact .noRole rfl hrole

theorem dropUserRole_of_none {db : Database} {userId : Nat} {roleName : String}
    (h : ∀ role ∈ db.roles, role.name = roleName → (userId, role.id) ∉ db.userRoles) :
    db.dropUserRole userId roleName = db := by
  have hkept : (db.dropUserRole userId roleName).userRoles = db.userRoles := by
    apply List.filter_eq_self.mpr
    intro p hp
    apply decide_eq_true
    rintro ⟨rfl, hany⟩
    obtain ⟨role, hrole, hmatch⟩ := List.any_eq_true.mp hany
    obtain ⟨hid, hname⟩ := of_decide_eq_true hmatch
    apply h role hrole hname
    rw [hid]
    exact hp
  calc db.dropUserRole userId roleName
      = { db with userRoles := (db.dropUserRole userId roleName).userRoles } := rfl
    _ = db := by rw [hkept]

theorem handler_revoke (env : Env) (roleName : String) (hc : s.db.Consistent) {userId : Nat}
    (hrow : HasRow s.db userId) : ∃ user : User, user.id = userId ∧
      (RoleRequest.revoke userId roleName).handler env s =
        (userResponse env { s with db := s.db.dropUserRole userId roleName } user,
          { s with db := s.db.dropUserRole userId roleName }) := by
  obtain ⟨user, huser, rfl⟩ := userById_of_hasRow hc hrow
  refine ⟨user, rfl, ?_⟩
  simp only [RoleRequest.handler, revokeRole, huser]

theorem loadRoles_moves (hs : Keyed s) (hseen : seen s (.found user))
    (hrel : Rel env request seen s (.found user) fate) :
    Moves env sane request seen s (.found user) fate := by
  unfold Moves
  simp only [requestStep]
  cases hrel with
  | @noRole _ userId roleName pushed hrequest hnone =>
    subst hrequest
    refine ⟨_, .stays rfl rfl, ?_⟩
    simp only [loadRolesStep, hnone]
    exact .finished .refused
  | found hstart huser hlt hroles =>
    obtain ⟨_, hid⟩ := userById_some huser
    cases request with
    | assign userId roleName pushed =>
      obtain rfl : (user.id : Int) = userId := hid
      cases hrole : s.db.roleByName roleName with
      | none => exact absurd hrole (hroles _ roleName pushed rfl)
      | some role =>
        simp only [loadRolesStep, hrole]
        by_cases hheld : role ∈ s.db.rolesOf user.id
        · rw [if_pos hheld]
          obtain ⟨row, hrow, hrowId⟩ :=
            userById_of_hasRow hs.consistent (hasRow_of_role hs.consistent (mem_rolesOf.mp hheld).2)
          have hhandler : (RoleRequest.assign user.id roleName pushed).handler env s =
              (userResponse env s row, s) := by
            simp only [RoleRequest.handler, assignRole, hrow, hrole, hrowId, if_pos hheld]
          refine ⟨_, .takes rfl (by rw [hhandler]) rfl, ?_⟩
          rw [hhandler]
          exact .finished (.held hstart huser hseen hrow)
        · rw [if_neg hheld]
          exact ⟨_, .stays rfl rfl, .inserting rfl hlt hrole⟩
    | revoke userId roleName =>
      obtain rfl : (user.id : Int) = userId := hid
      simp only [loadRolesStep]
      rcases roles_of_name hs user.id roleName with hnil | ⟨role, hmem, rfl, _, hone⟩
      · rw [hnil]
        by_cases hrow : HasRow s.db user.id
        · have hdrop : s.db.dropUserRole user.id roleName = s.db := by
            apply dropUserRole_of_none
            intro role hrole hname hp
            have : role ∈ (s.db.rolesOf user.id).filter fun role => role.name = roleName :=
              List.mem_filter.mpr ⟨mem_rolesOf.mpr ⟨hrole, hp⟩, decide_eq_true hname⟩
            rw [hnil] at this
            cases this
          obtain ⟨row, hrowId, hhandler⟩ := handler_revoke env roleName hs.consistent hrow
          rw [hdrop] at hhandler
          refine ⟨_, .takes rfl (by rw [hhandler]) rfl, ?_⟩
          rw [hhandler]
          exact .idle rfl (.done hlt (.mk s (congrArg Int.ofNat hrowId)))
        · exact ⟨_, .givesUp rfl rfl rfl, .idle rfl (.gone ⟨hlt, hrow⟩)⟩
      · rw [hone]
        exact ⟨_, .stays rfl rfl, .deleting rfl hlt hmem⟩

theorem inserting_moves (hs : Keyed s)
    (hrel : Rel env request seen s (.inserting user role) fate) :
    Moves env sane request seen s (.inserting user role) fate := by
  unfold Moves
  simp only [requestStep]
  cases hrel with
  | @inserting _ roleName pushed _ hrequest hlt hrole =>
    subst hrequest
    cases hinsert : insertRole s.db user.id role.id with
    | none => exact ⟨_, .givesUp rfl rfl rfl, .finished .failed⟩
    | some db =>
      obtain ⟨hnew, hrow, rfl⟩ := insertRole_some hinsert
      obtain ⟨row, hget, hrowId⟩ := userById_of_hasRow hs.consistent hrow
      have hunheld : role ∉ s.db.rolesOf user.id := by
        intro hheld
        exact hnew (mem_rolesOf.mp hheld).2
      have hhandler : (RoleRequest.assign user.id roleName pushed).handler env s =
          ((RoleRequest.assign user.id roleName pushed).answer env
              { s with db := s.db.addUserRole user.id role.id } row,
            { s with db := s.db.addUserRole user.id role.id }) := by
        simp only [RoleRequest.handler, assignRole, hget, hrole, hrowId, if_neg hunheld]
        cases pushed <;> rfl
      refine ⟨_, .takes rfl (by rw [hhandler]; rfl) rfl, ?_⟩
      rw [hhandler]
      exact .committed rfl (.done hlt (.mk _ (congrArg Int.ofNat hrowId)))

/-- The rows that are deleted for the one role of its name. -/
theorem deleteRoles_one {db db' : Database} (hnames : (db.roles.map Role.name).Nodup)
    (hrole : role ∈ db.roles) {userId : Nat} (h : deleteRoles sane db userId [role] = some db') :
    db' = db.dropUserRole userId role.name := by
  rw [deleteRoles_some h]
  unfold dropUserRole
  congr 1
  apply List.filter_congr
  intro p _
  rw [Bool.eq_iff_iff, decide_eq_true_iff, Bool.not_eq_true', ← Bool.not_eq_true,
    List.any_eq_true, List.any_eq_true]
  apply not_congr
  constructor
  · rintro ⟨other, hother, hmatch⟩
    obtain rfl := List.mem_singleton.mp hother
    obtain ⟨huser, hid⟩ := of_decide_eq_true hmatch
    exact ⟨huser, other, hrole, decide_eq_true ⟨hid.symm, rfl⟩⟩
  · rintro ⟨huser, other, hother, hmatch⟩
    obtain ⟨hid, hname⟩ := of_decide_eq_true hmatch
    obtain rfl := List.inj_on_of_nodup_map hnames hother hrole hname
    exact ⟨other, List.mem_singleton_self _, decide_eq_true ⟨huser, hid.symm⟩⟩

theorem deleting_moves {roles : List Role} (hs : Keyed s)
    (hrel : Rel env request seen s (.deleting user roles) fate) :
    Moves env sane request seen s (.deleting user roles) fate := by
  unfold Moves
  simp only [requestStep]
  cases hrel with
  | idle hid hsettled =>
    have hnothing : deleteRoles sane s.db user.id [] = some s.db := by
      simp [deleteRoles]
    rw [hnothing]
    exact ⟨_, .stays rfl rfl, .committed hid hsettled⟩
  | @deleting _ role hrequest hlt hmem =>
    subst hrequest
    cases hdelete : deleteRoles sane s.db user.id [role] with
    | none => exact ⟨_, .givesUp rfl rfl rfl, .finished .failed⟩
    | some db =>
      obtain rfl := deleteRoles_one hs.roleNames hmem hdelete
      by_cases hrow : HasRow s.db user.id
      · obtain ⟨row, hrowId, hhandler⟩ := handler_revoke env role.name hs.consistent hrow
        refine ⟨_, .takes rfl (by rw [hhandler]; rfl) rfl, ?_⟩
        rw [hhandler]
        exact .committed rfl (.done hlt (.mk _ (congrArg Int.ofNat hrowId)))
      · have hdrop : s.db.dropUserRole user.id role.name = s.db := by
          apply dropUserRole_of_none
          intro role _ _ hp
          exact hrow (hasRow_of_role hs.consistent hp)
        rw [hdrop]
        exact ⟨_, .givesUp rfl rfl rfl, .committed rfl (.gone ⟨hlt, hrow⟩)⟩

theorem refresh_moves (hs : Keyed s) (hseen : seen s (.committed user))
    (hrel : Rel env request seen s (.committed user) fate) :
    Moves env sane request seen s (.committed user) fate := by
  unfold Moves
  simp only [requestStep]
  cases hrel with
  | committed hid hsettled =>
    refine ⟨_, .stays rfl rfl, ?_⟩
    unfold refreshStep
    cases huser : s.db.userById user.id with
    | none =>
      have hrow : ¬ HasRow s.db user.id := by
        intro hrow
        obtain ⟨row, hget, _⟩ := userById_of_hasRow hs.consistent hrow
        cases hget.symm.trans huser
      cases hsettled with
      | done hlt hworked => exact .finished (.unseen hworked hid ⟨hlt, hrow⟩)
      | gone _ => exact .finished .failed
    | some row =>
      obtain ⟨hmem, hrowId⟩ := userById_some huser
      cases hsettled with
      | done hlt hworked => exact .refreshed hid hseen huser hworked
      | gone hgone => exact absurd ⟨row, hmem, Int.ofNat.inj hrowId⟩ hgone.2

theorem request_moves (hs : Keyed s) (hseen : seen s pc) (hrel : Rel env request seen s pc fate) :
    Moves env sane request seen s pc fate := by
  cases pc with
  | start =>
    cases hrel
    exact getUser_moves hs hseen
  | found user => exact loadRoles_moves hs hseen hrel
  | inserting user role => exact inserting_moves hs hrel
  | deleting user roles => exact deleting_moves hs hrel
  | committed user => exact refresh_moves hs hseen hrel
  | refreshed row =>
    cases hrel with
    | refreshed hid hseen₁ hrow hworked =>
      exact ⟨fate, .stays rfl rfl, .finished (.shown hworked hid hseen₁ hrow hseen)⟩
  | finished reply => exact ⟨fate, .stays rfl rfl, hrel⟩

end OneStep

section Interleavings

variable {ι : Type u}

/-- The statements of the requests, each in its turn. -/
def act (env : Env) (sane : Bool) (request : ι → RoleRequest) (i : ι) (_ : Unit) :
    Server → Pc → Server × Pc :=
  requestStep env sane (request i)

theorem requests_linearize (env : Env) (sane : Bool) (request : ι → RoleRequest)
    (seen : ι → Seen) :
    Linearizes (fun i s l e s' l' => Computes (act env sane request) i s l e s' l' ∧ seen i s l)
      (Others env) (fun i => (request i).handler env) Keyed
      (fun i => Rel env (request i) (seen i)) := by
  constructor
  · intro i s l e s' l' hs hstep
    obtain rfl : (requestStep env sane (request i) s l).1 = s' := congrArg Prod.fst hstep.1
    exact requestStep_keyed hs
  · intro s s' hs henv
    exact others_keyed hs henv
  · intro i j s l e s' l' m f hs hstep hrel
    obtain rfl : (requestStep env sane (request i) s l).1 = s' := congrArg Prod.fst hstep.1
    exact hrel.later requestStep_frame
  · intro j s s' m f hs henv hrel
    exact hrel.later (others_frame hs henv)
  · intro i s l e s' l' f hs hrel hstep
    obtain ⟨hstep, hseen⟩ := hstep
    obtain rfl : (requestStep env sane (request i) s l).1 = s' := congrArg Prod.fst hstep
    obtain rfl : (requestStep env sane (request i) s l).2 = l' := congrArg Prod.snd hstep
    obtain ⟨f', hmove, hrel'⟩ := request_moves hs hseen hrel
    refine ⟨f', ?_, hrel'⟩
    cases hmove with
    | stays hshared hfate => exact .stays hshared hfate
    | takes hpending hshared hfate => exact .takes hpending hshared hfate
    | givesUp hpending hshared hfate => exact .givesUp hpending hshared hfate

end Interleavings

/-- Any number of requests for roles, in any interleaving with each other and with the rest
of the API, act on the tables as the two handlers at once, each in one of its own statements,
and each answers as `Ends` says. No association is stored twice. -/
theorem role_requests_linearizable (env : Env) (sane : Bool) {ι : Type u} [DecidableEq ι]
    (request : ι → RoleRequest) {c₀ c : Config ι Server Pc}
    {h : List (Transition (Config ι Server Pc) (Label ι Unit))} (hs : Keyed c₀.shared)
    (hstart : ∀ i, c₀.proc i = .start)
    (r : Run (Processes.Step (Computes (act env sane request)) (Others env)) c₀ h c) :
    c.shared.db.userRoles.Nodup ∧ ∃ h' fates,
      Run (Processes.Step (Atomically fun i => (request i).handler env) (Others env))
        ⟨c₀.shared, fun _ => .pending⟩ h' ⟨c.shared, fates⟩ ∧
      (h'.map mover).Sublist (h.map mover) ∧
      ∀ i reply, c.proc i = .finished reply →
        Ends env (request i) (Stood h i) c.shared reply (fates i) := by
  have hrel : ∀ i, Rel env (request i) (Stood h i) c₀.shared (c₀.proc i) .pending := by
    intro i
    rw [hstart i]
    exact .start
  obtain ⟨hkeyed, h', fates, r', hsub, hrels⟩ :=
    run_linearizes (requests_linearize env sane request (Stood h)) hs hrel
      (run_stood r fun _ ht => ht)
  refine ⟨hkeyed.userRoles, h', fates, r', hsub, ?_⟩
  intro i reply hfinished
  have hi := hrels i
  rw [hfinished] at hi
  cases hi with
  | finished hends => exact hends

/-- One user without roles, right after the seeding. -/
def oneUser : Server :=
  { freshServer 0 with
    db := { Database.empty.seedRbacDefaults with
      users := [⟨1, "a@b.c", none, true, true, 0⟩]
      nextUserId := 2 } }

theorem oneUser_keyed : Keyed oneUser := by
  have hlinks : Database.empty.seedRbacDefaults.oauthAccounts = [] := by decide
  have hroles : Database.empty.seedRbacDefaults.userRoles = [] := by decide
  have hnames : (Database.empty.seedRbacDefaults.roles.map Role.name).Nodup := by decide
  refine ⟨?_, ?_, hnames⟩
  · constructor <;> simp [oneUser, hlinks, hroles]
  · simp [oneUser, hroles]

/-- Both requests load the roles before either inserts its own. -/
def bothAssign : List (Bool × Unit) :=
  [(true, ()), (false, ()), (true, ()), (false, ()), (true, ()), (false, ()), (true, ()),
    (true, ())]

def moderatorTwice (_ : Bool) : RoleRequest := .assign 1 "moderator" true

def moderatorRun : Config Bool Server Pc :=
  play (act asciiEnv true moderatorTwice) ⟨oneUser, fun _ => .start⟩ bothAssign

theorem role_requests_linearizable_sample :
    moderatorRun.shared.db.userRoles = [(1, 2)] ∧
      ∃ h' fates, Run (Processes.Step (Atomically fun i => (moderatorTwice i).handler asciiEnv)
          (Others asciiEnv)) ⟨oneUser, fun _ => .pending⟩ h' ⟨moderatorRun.shared, fates⟩ ∧
        (h'.map mover).Sublist ((playTrace (act asciiEnv true moderatorTwice)
          ⟨oneUser, fun _ => .start⟩ bothAssign).map mover) ∧
        Ends asciiEnv (moderatorTwice false)
          (Stood (playTrace (act asciiEnv true moderatorTwice) ⟨oneUser, fun _ => .start⟩
            bothAssign) false) moderatorRun.shared (.error internalServerError) (fates false) := by
  refine ⟨by decide +kernel, ?_⟩
  have hstart : ∀ i, (⟨oneUser, fun _ => .start⟩ : Config Bool Server Pc).proc i = .start :=
    fun _ => rfl
  obtain ⟨_, h', fates, r', hsub, hends⟩ := role_requests_linearizable asciiEnv true moderatorTwice
    oneUser_keyed hstart (run_play _ _ bothAssign)
  -- the insert of the second request is refused by the primary key
  have hrefused : moderatorRun.proc false = .finished (.error internalServerError) := rfl
  exact ⟨h', fates, r', hsub, hends false _ hrefused⟩

end FastApiAuth.RoleRaces
