import FastApiAuth.Effects
import FastApiAuth.Library.Processes
import Mathlib.Logic.Function.Iterate

/-!
# Requests for one address, step by step

register_user and update_user_email look for a row with the address in one statement and
write it in another, and the unique constraint of the column refuses what comes too late.
Only the lookup answers 409: whoever passes it and is refused by the constraint answers 500.
-/

namespace FastApiAuth.EmailRace

set_option autoImplicit false

open Database Processes Runs

/-- What a request does; the user of an update is the one its session has loaded. -/
inductive Job (env : Env) where
  | register (email : String) (password : NewPassword env) (broker : Bool)
  | update (user : User) (newEmail : String)

inductive Pc where
  | start
  | cleared
  | stored (user : User)
  | finished (reply : Reply)

section Handlers

variable {env : Env}

def Job.address : Job env → String
  | .register email _ _ => env.lower email
  | .update _ newEmail => env.lower newEmail

/-- The row that the lookup and the constraint leave out of account. -/
def Job.ownRow : Job env → Option Nat
  | .register _ _ _ => none
  | .update user _ => some user.id

/-- The queue takes the mail of a registration, and the response model the address. -/
def Job.answers (user : User) : Job env → Bool
  | .register _ _ broker => broker && (env.emailStr user.email).isSome
  | .update _ _ => (env.emailStr user.email).isSome

def lookupStep (s : Server) : Job env → Pc
  | .register email _ _ =>
    match s.db.userByEmail (env.lower email) with
    | some _ => .finished (.error emailTaken)
    | none => .cleared
  | .update user newEmail =>
    if s.db.users.any fun u => u.email = env.lower newEmail ∧ u.id ≠ user.id then
      .finished (.error emailTaken)
    else .cleared

/-- The select of the role reads a table that no request here writes; it goes with the
commit. -/
def commitStep (s : Server) : Job env → Server × Pc
  | .register email password _ =>
    let (hashedPassword, s) := s.hashPassword env password
    let roles := (s.db.roleByName defaultUserRoleName).toList
    match s.db.insertUser (env.lower email) (some hashedPassword) true false s.now roles with
    | none => (s, .finished (.error internalServerError))
    | some (user, db) => ({ s with db }, .stored user)
  | .update user newEmail =>
    match s.db.changeEmail user.id (env.lower newEmail) with
    | none => (s, .finished (.error internalServerError))
    | some db => ({ s with db }, .stored (setEmail (env.lower newEmail) user))

def answerStep (user : User) (s : Server) : Job env → Server × Pc
  | .register _ _ broker =>
    let (token, s) := s.createEmailVerificationToken env user.id (PyInt.str user.id)
    match s.delay broker ⟨.verification, user.email, token⟩ with
    | none => (s, .finished (.error internalServerError))
    | some s => (s, .finished (registrationResponse env user))
  | .update _ _ => (s, .finished (userResponse env s user))

def jobStep (job : Job env) (s : Server) : Pc → Server × Pc
  | .start => (s, lookupStep s job)
  | .cleared => commitStep s job
  | .stored user => answerStep user s job
  | .finished reply => (s, .finished reply)

def Job.handler : Job env → Server → Outcome
  | .register email password broker => registerUser env email password broker
  | .update user newEmail => updateUserEmail env user newEmail

/-- The steps of one request, with nothing in between, are the handler. -/
theorem alone_eq_handler (job : Job env) (s : Server) :
    (fun p => jobStep job p.1 p.2)^[3] (s, .start) =
      ((job.handler s).2, .finished (job.handler s).1) := by
  simp only [Function.iterate_succ, Function.iterate_zero, Function.comp_apply, id_eq]
  cases job with
  | register email password broker =>
    simp only [jobStep, lookupStep, Job.handler, registerUser]
    cases s.db.userByEmail (env.lower email) with
    | some found => rfl
    | none =>
      simp only [commitStep]
      generalize Database.insertUser _ _ _ _ _ _ _ = stored
      cases stored with
      | none => rfl
      | some stored => cases broker <;> rfl
  | update user newEmail =>
    simp only [jobStep, lookupStep, Job.handler, updateUserEmail]
    by_cases htaken : (s.db.users.any fun u =>
        u.email = env.lower newEmail ∧ u.id ≠ user.id) = true
    · simp only [if_pos htaken]
    · simp only [if_neg htaken, commitStep]
      generalize Database.changeEmail _ _ _ = stored
      cases stored <;> rfl

end Handlers

section Steps

variable {env : Env} {job : Job env} {s s' : Server} {pc pc' : Pc} {db db' : Database}
variable {first first' rowId : Nat}

/-- Another row than the request's own has the address. -/
def Taken (job : Job env) (db : Database) : Prop :=
  ∃ u ∈ db.users, u.email = job.address ∧ job.ownRow ≠ some u.id

/-- The rows that a request may give the address; `first` is the next id at the start. -/
def Job.Owns (job : Job env) (first rowId : Nat) : Prop :=
  match job.ownRow with
  | none => first ≤ rowId
  | some own => rowId = own

theorem Job.Owns.of_le (hle : first' ≤ first) (h : job.Owns first rowId) :
    job.Owns first' rowId := by
  cases job with
  | register _ _ _ => exact Nat.le_trans hle h
  | update _ _ => exact h

/-- What a write of the request leaves. -/
structure Writes (job : Job env) (db db' : Database) : Prop where
  consistent : db.Consistent → db'.Consistent
  next_le : db.nextUserId ≤ db'.nextUserId
  kept : ∀ u ∈ db.users, ∃ v ∈ db'.users, v.id = u.id ∧ (u.email = job.address → v.email = u.email)
  origin : ∀ v ∈ db'.users, v ∈ db.users ∨ (v.email = job.address ∧ job.Owns db.nextUserId v.id)
  holder : (∀ own, job.ownRow = some own → ∃ u ∈ db.users, u.id = own) →
    ∃ v ∈ db'.users, v.email = job.address ∧ job.Owns db.nextUserId v.id

theorem writes_insert {email hash : String} {password : NewPassword env} {broker : Bool}
    {createdAt : Instant} {roles : List Role} {user : User}
    (h : db.insertUser (env.lower email) (some hash) true false createdAt roles =
      some (user, db')) : Writes (.register email password broker) db db' := by
  have hconsistent := fun hc => insertUser_consistent hc h
  obtain ⟨_, huser, rfl⟩ := insertUser_some h
  have hnew : user.email = env.lower email ∧ db.nextUserId ≤ user.id := by
    rw [huser]
    exact ⟨rfl, Nat.le_refl _⟩
  refine ⟨hconsistent, Nat.le_succ _, ?_, ?_, ?_⟩
  · intro u hu
    exact ⟨u, List.mem_append_left _ hu, rfl, fun _ => rfl⟩
  · intro v hv
    rcases List.mem_append.mp hv with hv | hv
    · exact Or.inl hv
    · rw [List.mem_singleton.mp hv]
      exact Or.inr hnew
  · intro _
    exact ⟨user, by simp, hnew⟩

theorem writes_change {user : User} {newEmail : String}
    (h : db.changeEmail user.id (env.lower newEmail) = some db') :
    Writes (.update user newEmail : Job env) db db' := by
  have hconsistent := fun hc => changeEmail_consistent hc h
  obtain ⟨_, rfl⟩ := changeEmail_some h
  have hid : ∀ u, (setEmail (env.lower newEmail) u).id = u.id := fun _ => rfl
  refine ⟨hconsistent, Nat.le_refl _, ?_, ?_, ?_⟩
  · intro u hu
    refine ⟨_, mem_amendUser.mpr ⟨u, hu, rfl⟩, ?_⟩
    split
    · exact ⟨rfl, fun he => he.symm⟩
    · exact ⟨rfl, fun _ => rfl⟩
  · intro v hv
    obtain ⟨u, hu, hvu, rfl | ⟨hown, rfl⟩⟩ := amendUser_origin hid hv
    · exact Or.inl hu
    · exact Or.inr ⟨rfl, hown⟩
  · intro hrow
    obtain ⟨u, hu, hown⟩ := hrow user.id rfl
    refine ⟨_, mem_amendUser.mpr ⟨u, hu, if_pos hown⟩, rfl, hown⟩

/-- The five kinds of steps. -/
inductive StepKind (job : Job env) (s : Server) : Pc → Server → Pc → Prop where
  | lookup {pc' : Pc} (h : pc' = .cleared ∨
      pc' = .finished (.error emailTaken) ∧ Taken job s.db) : StepKind job s .start s pc'
  | refused {s' : Server} (hdb : s'.db = s.db) (htaken : Taken job s.db) :
      StepKind job s .cleared s' (.finished (.error internalServerError))
  | stores {s' : Server} {user : User} (hfree : ¬ Taken job s.db) (hw : Writes job s.db s'.db) :
      StepKind job s .cleared s' (.stored user)
  | answers {s' : Server} {user : User} {reply : Reply} (hdb : s'.db = s.db)
      (h : (job.answers user = true ∧ ∃ body, reply = .ok body) ∨
        (job.answers user = false ∧ reply = .error internalServerError)) :
      StepKind job s (.stored user) s' (.finished reply)
  | idle {reply : Reply} : StepKind job s (.finished reply) s (.finished reply)

theorem taken_iff_any {user : User} {newEmail : String} :
    Taken (.update user newEmail : Job env) db ↔
      (db.users.any fun u => u.email = env.lower newEmail ∧ u.id ≠ user.id) = true := by
  simp only [Taken, Job.address, Job.ownRow, List.any_eq_true, decide_eq_true_eq, ne_eq,
    Option.some.injEq]
  constructor
  · rintro ⟨u, hu, he, hid⟩
    exact ⟨u, hu, he, fun h => hid h.symm⟩
  · rintro ⟨u, hu, he, hid⟩
    exact ⟨u, hu, he, fun h => hid h.symm⟩

theorem taken_register {email : String} {password : NewPassword env} {broker : Bool} :
    Taken (.register email password broker) db ↔ ∃ u ∈ db.users, u.email = env.lower email := by
  simp [Taken, Job.address, Job.ownRow]

theorem stepKind_lookup (job : Job env) (s : Server) :
    StepKind job s .start s (lookupStep s job) := by
  apply StepKind.lookup
  cases job with
  | register email password broker =>
    simp only [lookupStep]
    split
    · rename_i found hfound
      exact Or.inr ⟨rfl, taken_register.mpr ⟨found, userByEmail_some hfound⟩⟩
    · exact Or.inl rfl
  | update user newEmail =>
    simp only [lookupStep]
    split
    · rename_i htaken
      exact Or.inr ⟨rfl, taken_iff_any.mpr htaken⟩
    · exact Or.inl rfl

theorem stepKind_commit (job : Job env) (s : Server) :
    StepKind job s .cleared (commitStep s job).1 (commitStep s job).2 := by
  cases job with
  | register email password broker =>
    simp only [commitStep]
    split
    · rename_i hrefused
      refine .refused rfl (taken_register.mpr ?_)
      by_contra hnone
      have hfree : ∀ u ∈ s.db.users, u.email ≠ env.lower email := fun u hu he => hnone ⟨u, hu, he⟩
      have hstored : ∃ user db, (s.hashPassword env password).2.db.insertUser (env.lower email)
          (some (s.hashPassword env password).1) true false s.now
          (s.db.roleByName defaultUserRoleName).toList = some (user, db) := insertUser_of_free hfree
      obtain ⟨user, db, hstored⟩ := hstored
      exact absurd (hrefused.symm.trans hstored) (by simp)
    · rename_i user db hstored
      refine .stores ?_ (writes_insert hstored)
      rw [taken_register]
      rintro ⟨u, hu, he⟩
      exact (insertUser_some hstored).1 u hu he
  | update user newEmail =>
    simp only [commitStep]
    split
    · rename_i hrefused
      refine .refused rfl ?_
      by_contra hfree
      have hothers : ∀ u ∈ s.db.users, u.id ≠ user.id → u.email ≠ env.lower newEmail :=
        fun u hu hid he => hfree ⟨u, hu, he, fun h => hid (Option.some.inj h).symm⟩
      have hstored := changeEmail_of_free hothers
      exact absurd (hrefused.symm.trans hstored) (by simp)
    · rename_i db hstored
      refine .stores ?_ (writes_change hstored)
      rintro ⟨u, hu, he, hid⟩
      exact (changeEmail_some hstored).1 u hu (fun h => hid (by rw [h]; rfl)) he

theorem stepKind_answer (user : User) (job : Job env) (s : Server) :
    StepKind job s (.stored user) (answerStep user s job).1 (answerStep user s job).2 := by
  cases job with
  | register email password broker =>
    cases broker with
    | true =>
      refine .answers rfl ?_
      simp only [Job.answers, Bool.true_and, registrationResponse]
      cases env.emailStr user.email with
      | none => exact Or.inr ⟨rfl, rfl⟩
      | some address => exact Or.inl ⟨rfl, _, rfl⟩
    | false => exact .answers rfl (Or.inr ⟨rfl, rfl⟩)
  | update loaded newEmail =>
    refine .answers rfl ?_
    simp only [Job.answers, userResponse]
    cases env.emailStr user.email with
    | none => exact Or.inr ⟨rfl, rfl⟩
    | some address => exact Or.inl ⟨rfl, _, rfl⟩

theorem stepKind_of_eq (h : jobStep job s pc = (s', pc')) : StepKind job s pc s' pc' := by
  cases pc with
  | start =>
    cases h
    exact stepKind_lookup job s
  | cleared =>
    have hkind := stepKind_commit job s
    rw [show commitStep s job = (s', pc') from h] at hkind
    exact hkind
  | stored user =>
    have hkind := stepKind_answer user job s
    rw [show answerStep user s job = (s', pc') from h] at hkind
    exact hkind
  | finished reply =>
    cases h
    exact .idle

end Steps

section Race

variable {ι : Type} [DecidableEq ι] {env : Env} {jobs : ι → Job env}

abbrev EmailConfig (ι : Type) := Config ι Server Pc

abbrev EmailTransition (ι : Type) := Transition (EmailConfig ι) (Label ι Unit)

abbrev EmailStep (jobs : ι → Job env) : EmailConfig ι → Label ι Unit → EmailConfig ι → Prop :=
  Processes.Step (Computes fun i _ s pc => jobStep (jobs i) s pc) fun s s' => s'.db = s.db

/-- The surroundings (time, Redis, the queue) leave the tables alone. -/
abbrev EmailRun (jobs : ι → Job env) :
    EmailConfig ι → List (EmailTransition ι) → EmailConfig ι → Prop :=
  Run (EmailStep jobs)

/-- The commit of the request was accepted, and nothing has failed since. -/
def Won : Pc → Prop
  | .stored _ => True
  | .finished (.ok _) => True
  | _ => False

/-- The number of steps that the request `i` has taken. -/
def moves (h : List (EmailTransition ι)) (i : ι) : Nat :=
  h.countP fun t => match t.label with
    | .process j _ => j = i
    | .surroundings => false

/-- Where the requests stand with each other: who finishes without winning answers 409, and
no row but the winner's has changed. -/
structure Settles (jobs : ι → Job env) (c₀ : EmailConfig ι) (h : List (EmailTransition ι))
    (c : EmailConfig ι) : Prop where
  one : ∀ i j, Won (c.proc i) → Won (c.proc j) → i = j
  ends : ∀ i, 3 ≤ moves h i → ∃ reply, c.proc i = .finished reply
  conflict : ∀ i e, c.proc i = .finished (.error e) → e = emailTaken
  kept : ∀ i own e, (jobs i).ownRow = some own → c.proc i = .finished (.error e) →
    c.shared.db.userById own = c₀.shared.db.userById own
  written : ∀ v ∈ c.shared.db.users, v ∈ c₀.shared.db.users ∨
    ∃ i, Won (c.proc i) ∧ (jobs i).Owns c₀.shared.db.nextUserId v.id

/-- A commit comes while no other row has the address and before another request of the same
user has won; the queue takes the mail of a registration that was stored, and the response
model the address of a row that was. -/
def Meets (jobs : ι → Job env) (t : EmailTransition ι) : Prop :=
  ∀ i, t.label = .process i () →
    (t.source.proc i = .cleared → ¬ Taken (jobs i) t.source.shared.db ∧
      ∀ j ≠ i, (jobs i).ownRow ≠ none → (jobs j).ownRow = (jobs i).ownRow →
        ¬ Won (t.source.proc j)) ∧
    (∀ user, t.source.proc i = .stored user → (jobs i).answers user = true)

/-- What holds of every interleaving. -/
structure RaceInv (jobs : ι → Job env) (a : String) (c₀ : EmailConfig ι) (c : EmailConfig ι) :
    Prop where
  consistent : c.shared.db.Consistent
  next_le : c₀.shared.db.nextUserId ≤ c.shared.db.nextUserId
  rows : ∀ u ∈ c₀.shared.db.users, ∃ v ∈ c.shared.db.users, v.id = u.id
  origin : ∀ v ∈ c.shared.db.users, v ∈ c₀.shared.db.users ∨ v.email = a
  won : ∀ i, Won (c.proc i) →
    ∃ v ∈ c.shared.db.users, v.email = a ∧ (jobs i).Owns c₀.shared.db.nextUserId v.id
  lost : ∀ i, c.proc i = .finished (.error emailTaken) → Taken (jobs i) c.shared.db

/-- A deployment in which the requests are about to start. -/
structure Ready (jobs : ι → Job env) (a : String) (c : EmailConfig ι) : Prop where
  consistent : c.shared.db.Consistent
  start : ∀ i, c.proc i = .start
  same : ∀ i, (jobs i).address = a
  present : ∀ i own, (jobs i).ownRow = some own → ∃ u ∈ c.shared.db.users, u.id = own

section Step

variable {a : String} {c₀ c c' : EmailConfig ι} {k : ι} {h : List (EmailTransition ι)}

omit [DecidableEq ι] in
theorem raceInv_start (hready : Ready jobs a c₀) : RaceInv jobs a c₀ c₀ := by
  refine ⟨hready.consistent, Nat.le_refl _, ?_, ?_, ?_, ?_⟩
  · intro u hu
    exact ⟨u, hu, rfl⟩
  · intro v hv
    exact Or.inl hv
  · intro i hwon
    rw [hready.start i] at hwon
    exact hwon.elim
  · intro i hlost
    rw [hready.start i] at hlost
    cases hlost

theorem taken_writes {job job' : Job env} {db db' : Database}
    (hsame : job.address = job'.address) (hw : Writes job' db db') (h : Taken job db) :
    Taken job db' := by
  obtain ⟨u, hu, he, hid⟩ := h
  obtain ⟨v, hv, hvu, hemail⟩ := hw.kept u hu
  exact ⟨v, hv, (hemail (he.trans hsame)).trans he, hvu ▸ hid⟩

omit [DecidableEq ι] in
/-- A step that leaves the tables and the standing of its request alone. -/
theorem raceInv_quiet (hi : RaceInv jobs a c₀ c) (hdb : c'.shared.db = c.shared.db)
    (hothers : ∀ j ≠ k, c'.proc j = c.proc j) (hwon : Won (c'.proc k) → Won (c.proc k))
    (hlost : c'.proc k = .finished (.error emailTaken) → Taken (jobs k) c.shared.db) :
    RaceInv jobs a c₀ c' := by
  obtain ⟨hcons, hnext, hrows, horigin, hwinners, hlosers⟩ := hi
  rw [← hdb] at hcons hnext hrows horigin hwinners hlosers hlost
  refine ⟨hcons, hnext, hrows, horigin, ?_, ?_⟩
  · intro i hwi
    by_cases hik : i = k
    · subst hik
      exact hwinners i (hwon hwi)
    · rw [hothers i hik] at hwi
      exact hwinners i hwi
  · intro i hli
    by_cases hik : i = k
    · subst hik
      exact hlost hli
    · rw [hothers i hik] at hli
      exact hlosers i hli

omit [DecidableEq ι] in
theorem raceInv_write (hready : Ready jobs a c₀) (hi : RaceInv jobs a c₀ c)
    (hw : Writes (jobs k) c.shared.db c'.shared.db) (hothers : ∀ j ≠ k, c'.proc j = c.proc j)
    {user : User} (hstored : c'.proc k = .stored user) : RaceInv jobs a c₀ c' := by
  refine ⟨hw.consistent hi.consistent, Nat.le_trans hi.next_le hw.next_le, ?_, ?_, ?_, ?_⟩
  · intro u hu
    obtain ⟨v, hv, hvu⟩ := hi.rows u hu
    obtain ⟨v', hv', hid, _⟩ := hw.kept v hv
    exact ⟨v', hv', hid.trans hvu⟩
  · intro v hv
    rcases hw.origin v hv with hv | ⟨he, _⟩
    · exact hi.origin v hv
    · exact Or.inr (he.trans (hready.same k))
  · intro i hwi
    by_cases hik : i = k
    · subst hik
      have hrow : ∀ own, (jobs i).ownRow = some own → ∃ v ∈ c.shared.db.users, v.id = own := by
        intro own hown
        obtain ⟨u, hu, hid⟩ := hready.present i own hown
        obtain ⟨v, hv, hvu⟩ := hi.rows u hu
        exact ⟨v, hv, hvu.trans hid⟩
      obtain ⟨v, hv, he, howns⟩ := hw.holder hrow
      exact ⟨v, hv, he.trans (hready.same i), howns.of_le hi.next_le⟩
    · rw [hothers i hik] at hwi
      obtain ⟨v, hv, he, howns⟩ := hi.won i hwi
      obtain ⟨v', hv', hid, hemail⟩ := hw.kept v hv
      exact ⟨v', hv', (hemail (he.trans (hready.same k).symm)).trans he, hid ▸ howns⟩
  · intro i hli
    by_cases hik : i = k
    · subst hik
      cases hstored.symm.trans hli
    · rw [hothers i hik] at hli
      exact taken_writes ((hready.same i).trans (hready.same k).symm) hw (hi.lost i hli)

omit [DecidableEq ι] in
theorem raceInv_step (hready : Ready jobs a c₀) (hi : RaceInv jobs a c₀ c)
    (hkind : StepKind (jobs k) c.shared (c.proc k) c'.shared (c'.proc k))
    (hothers : ∀ j ≠ k, c'.proc j = c.proc j) : RaceInv jobs a c₀ c' := by
  generalize hpc : c.proc k = pc at hkind
  generalize hpc' : c'.proc k = pc' at hkind
  generalize hs : c'.shared = s' at hkind
  cases hkind with
  | lookup hlookup =>
    apply raceInv_quiet hi (congrArg Server.db hs) hothers
    · intro hwon
      rw [hpc'] at hwon
      rcases hlookup with rfl | ⟨rfl, _⟩ <;> exact hwon.elim
    · intro hlost
      rw [hpc'] at hlost
      rcases hlookup with rfl | ⟨_, htaken⟩
      · cases hlost
      · exact htaken
  | refused hdb htaken =>
    apply raceInv_quiet hi (hs ▸ hdb) hothers
    · intro hwon
      rw [hpc'] at hwon
      exact hwon.elim
    · intro _
      exact htaken
  | stores hfree hw => exact raceInv_write hready hi (hs ▸ hw) hothers hpc'
  | answers hdb hreply =>
    apply raceInv_quiet hi (hs ▸ hdb) hothers
    · intro _
      rw [hpc]
      trivial
    · intro hlost
      rw [hpc'] at hlost
      rcases hreply with ⟨_, body, rfl⟩ | ⟨_, rfl⟩
      · cases hlost
      · exact absurd (Except.error.inj (Pc.finished.inj hlost)) (by decide)
  | idle =>
    apply raceInv_quiet hi (congrArg Server.db hs) hothers
    · intro hwon
      rw [hpc'] at hwon
      rw [hpc]
      exact hwon
    · intro hlost
      exact hi.lost k (hpc.trans (hpc'.symm.trans hlost))

end Step

theorem stepKind_of_step {c c' : EmailConfig ι} {i : ι} {e : Unit}
    (h : EmailStep jobs c (.process i e) c') :
    StepKind (jobs i) c.shared (c.proc i) c'.shared (c'.proc i) ∧
      ∀ j ≠ i, c'.proc j = c.proc j := by
  obtain ⟨hstep, hothers⟩ := h.of_process
  exact ⟨stepKind_of_eq hstep, hothers⟩

section Laws

variable {a : String} {c₀ c c' : EmailConfig ι} {k : ι} {h h' : List (EmailTransition ι)}

theorem raceInv_run (hready : Ready jobs a c₀) (r : EmailRun jobs c₀ h c) :
    RaceInv jobs a c₀ c := by
  apply r.invariant (raceInv_start hready)
  intro c l c' hi hstep
  cases l with
  | process i e =>
    obtain ⟨hkind, hothers⟩ := stepKind_of_step hstep
    exact raceInv_step hready hi hkind hothers
  | surroundings =>
    cases hstep with
    | surroundings hdb =>
      obtain ⟨hcons, hnext, hrows, horigin, hwon, hlost⟩ := hi
      rw [← hdb] at hcons hnext hrows horigin hwon hlost
      exact ⟨hcons, hnext, hrows, horigin, hwon, hlost⟩

/-- The steps a request has left. -/
def remaining : Pc → Nat
  | .start => 3
  | .cleared => 2
  | .stored _ => 1
  | .finished _ => 0

theorem remaining_step {job : Job env} {s s' : Server} {pc pc' : Pc}
    (hkind : StepKind job s pc s' pc') : remaining pc' ≤ remaining pc - 1 := by
  cases hkind with
  | lookup hlookup => rcases hlookup with rfl | ⟨rfl, _⟩ <;> simp [remaining]
  | refused | stores | answers | idle => simp [remaining]

theorem remaining_run (hready : Ready jobs a c₀) (r : EmailRun jobs c₀ h c) (i : ι) :
    remaining (c.proc i) ≤ 3 - moves h i := by
  induction r with
  | start =>
    rw [hready.start i]
    simp [remaining, moves]
  | @snoc h c c' l r hstep ih =>
    cases l with
    | process j e =>
      obtain ⟨hkind, hothers⟩ := stepKind_of_step hstep
      by_cases hij : i = j
      · subst hij
        have hless := remaining_step hkind
        simp only [moves, List.countP_append, List.countP_cons, List.countP_nil] at ih ⊢
        simp only [decide_true, if_true]
        omega
      · rw [hothers i hij]
        have hne : ¬ j = i := fun hji => hij hji.symm
        simp only [moves, List.countP_append, List.countP_cons, List.countP_nil] at ih ⊢
        simp only [hne, decide_false, Bool.false_eq_true, if_false]
        omega
    | surroundings =>
      cases hstep with
      | surroundings hdb =>
        simp only [moves, List.countP_append, List.countP_cons, List.countP_nil] at ih ⊢
        simp only [Bool.false_eq_true, if_false]
        omega

theorem ends_of_run (hready : Ready jobs a c₀) (r : EmailRun jobs c₀ h c) (i : ι)
    (hmoves : 3 ≤ moves h i) : ∃ reply, c.proc i = .finished reply := by
  have hremaining := remaining_run hready r i
  cases hpc : c.proc i with
  | finished reply => exact ⟨reply, rfl⟩
  | start | cleared | stored _ =>
    rw [hpc] at hremaining
    simp only [remaining] at hremaining
    omega

omit [DecidableEq ι] in
/-- Whoever updates a row and loses leaves it as it was: another row has the address. -/
theorem kept_of_inv (hready : Ready jobs a c₀) (hi : RaceInv jobs a c₀ c) (i : ι) (own : Nat)
    (hown : (jobs i).ownRow = some own) (hlost : c.proc i = .finished (.error emailTaken)) :
    c.shared.db.userById own = c₀.shared.db.userById own := by
  obtain ⟨w, hw, hwa, hwid⟩ := hi.lost i hlost
  obtain ⟨u, hu, rfl⟩ := hready.present i own hown
  obtain ⟨v, hv, hvu⟩ := hi.rows u hu
  rcases hi.origin v hv with hv₀ | hva
  · obtain rfl := hready.consistent.eq_of_id hv₀ hu hvu
    rw [hi.consistent.userById_of_mem hv, hready.consistent.userById_of_mem hu]
  · have heq := hi.consistent.eq_of_email hv hw (hva.trans (hready.same i ▸ hwa).symm)
    rw [hown, ← hvu, heq] at hwid
    exact absurd rfl hwid

theorem settles_of_run (hready : Ready jobs a c₀) (r : EmailRun jobs c₀ h c)
    (one : ∀ i j, Won (c.proc i) → Won (c.proc j) → i = j)
    (conflict : ∀ i e, c.proc i = .finished (.error e) → e = emailTaken)
    (written : ∀ v ∈ c.shared.db.users, v ∈ c₀.shared.db.users ∨
      ∃ i, Won (c.proc i) ∧ (jobs i).Owns c₀.shared.db.nextUserId v.id) :
    Settles jobs c₀ h c := by
  refine ⟨one, ends_of_run hready r, conflict, ?_, written⟩
  intro i own e hown hlost
  obtain rfl := conflict i e hlost
  exact kept_of_inv hready (raceInv_run hready r) i own hown hlost

theorem settles_quiet (hready : Ready jobs a c₀) (r : EmailRun jobs c₀ h' c')
    (hs : Settles jobs c₀ h c) (hdb : c'.shared.db = c.shared.db)
    (hothers : ∀ j ≠ k, c'.proc j = c.proc j) (hwon : Won (c'.proc k) ↔ Won (c.proc k))
    (hreply : ∀ e, c'.proc k = .finished (.error e) → e = emailTaken) :
    Settles jobs c₀ h' c' := by
  have hwinners : ∀ i, Won (c'.proc i) ↔ Won (c.proc i) := by
    intro i
    by_cases hik : i = k
    · rw [hik]
      exact hwon
    · rw [hothers i hik]
  apply settles_of_run hready r
  · intro i j hwi hwj
    exact hs.one i j ((hwinners i).mp hwi) ((hwinners j).mp hwj)
  · intro i e he
    by_cases hik : i = k
    · exact hreply e (hik ▸ he)
    · exact hs.conflict i e (hothers i hik ▸ he)
  · intro v hv
    rw [hdb] at hv
    rcases hs.written v hv with hv | ⟨i, hwi, howns⟩
    · exact Or.inl hv
    · exact Or.inr ⟨i, (hwinners i).mpr hwi, howns⟩

omit [DecidableEq ι] in
/-- A commit that meets the condition finds no winner. -/
theorem no_winner (hready : Ready jobs a c₀) (hi : RaceInv jobs a c₀ c)
    (hfree : ¬ Taken (jobs k) c.shared.db)
    (halone : ∀ j ≠ k, (jobs k).ownRow ≠ none → (jobs j).ownRow = (jobs k).ownRow →
      ¬ Won (c.proc j)) : ∀ j ≠ k, ¬ Won (c.proc j) := by
  intro j hjk hwon
  obtain ⟨v, hv, hva, howns⟩ := hi.won j hwon
  have hown : (jobs k).ownRow = some v.id := by
    by_contra hother
    exact hfree ⟨v, hv, hva.trans (hready.same k).symm, hother⟩
  unfold Job.Owns at howns
  cases hj : (jobs j).ownRow with
  | none =>
    -- the row of a registration is younger than every row that an update owns
    rw [hj] at howns
    obtain ⟨u, hu, huv⟩ := hready.present k v.id hown
    have hlt := hready.consistent.userIds_lt u hu
    rw [huv] at hlt
    exact absurd howns (Nat.not_le.mpr hlt)
  | some own =>
    rw [hj] at howns
    apply halone j hjk
    · simp [hown]
    · rw [hj, hown, howns]
    · exact hwon

theorem settles_write_iff (hready : Ready jobs a c₀) (hi : RaceInv jobs a c₀ c)
    (r : EmailRun jobs c₀ h' c') (hs : Settles jobs c₀ h c)
    (hcleared : c.proc k = .cleared) {user : User} (hstored : c'.proc k = .stored user)
    (hfree : ¬ Taken (jobs k) c.shared.db) (hw : Writes (jobs k) c.shared.db c'.shared.db)
    (hothers : ∀ j ≠ k, c'.proc j = c.proc j) :
    Settles jobs c₀ h' c' ↔
      ∀ j ≠ k, (jobs k).ownRow ≠ none → (jobs j).ownRow = (jobs k).ownRow → ¬ Won (c.proc j) := by
  have hwk : Won (c'.proc k) := by
    rw [hstored]
    trivial
  constructor
  · intro hs' j hjk _ _ hwj
    rw [← hothers j hjk] at hwj
    exact hjk (hs'.one j k hwj hwk)
  · intro halone
    have hnobody := no_winner hready hi hfree halone
    have honly : ∀ i, Won (c'.proc i) → i = k := by
      intro i hwi
      by_contra hik
      rw [hothers i hik] at hwi
      exact hnobody i hik hwi
    apply settles_of_run hready r
    · intro i j hwi hwj
      rw [honly i hwi, honly j hwj]
    · intro i e he
      by_cases hik : i = k
      · rw [hik, hstored] at he
        cases he
      · exact hs.conflict i e (hothers i hik ▸ he)
    · intro v hv
      rcases hw.origin v hv with hv | ⟨_, howns⟩
      · rcases hs.written v hv with hv | ⟨i, hwi, howns⟩
        · exact Or.inl hv
        · by_cases hik : i = k
          · rw [hik, hcleared] at hwi
            exact hwi.elim
          · exact absurd hwi (hnobody i hik)
      · exact Or.inr ⟨k, hwk, howns.of_le hi.next_le⟩

theorem not_settles_of_error {e : HttpException} (he : c'.proc k = .finished (.error e))
    (hne : e ≠ emailTaken) : ¬ Settles jobs c₀ h' c' :=
  fun hs => hne (hs.conflict k e he)

omit [DecidableEq ι] in
theorem meets_iff {e : Unit} :
    Meets jobs ⟨c, .process k e, c'⟩ ↔
      (c.proc k = .cleared → ¬ Taken (jobs k) c.shared.db ∧
        ∀ j ≠ k, (jobs k).ownRow ≠ none → (jobs j).ownRow = (jobs k).ownRow →
          ¬ Won (c.proc j)) ∧
      (∀ user, c.proc k = .stored user → (jobs k).answers user = true) := by
  constructor
  · intro hmeets
    exact hmeets k rfl
  · intro hmeets i hl
    cases hl
    exact hmeets

theorem settles_process_iff (hready : Ready jobs a c₀) (hi : RaceInv jobs a c₀ c)
    (r : EmailRun jobs c₀ h' c') (hs : Settles jobs c₀ h c) (e : Unit)
    (hkind : StepKind (jobs k) c.shared (c.proc k) c'.shared (c'.proc k))
    (hothers : ∀ j ≠ k, c'.proc j = c.proc j) :
    Settles jobs c₀ h' c' ↔ Meets jobs ⟨c, .process k e, c'⟩ := by
  have h500 : internalServerError ≠ emailTaken := by decide
  rw [meets_iff]
  generalize hpc : c.proc k = pc at hkind
  generalize hpc' : c'.proc k = pc' at hkind
  generalize hshared : c'.shared = s' at hkind
  cases hkind with
  | lookup hlookup =>
    refine iff_of_true ?_ (by simp)
    have hlost : ¬ Won pc' := by rcases hlookup with rfl | ⟨rfl, _⟩ <;> exact id
    apply settles_quiet hready r hs (congrArg Server.db hshared) hothers
    · rw [hpc, hpc']
      exact iff_of_false hlost id
    · intro e he
      rw [hpc'] at he
      rcases hlookup with rfl | ⟨rfl, _⟩ <;> cases he
      rfl
  | refused hdb htaken =>
    refine iff_of_false (not_settles_of_error hpc' h500) ?_
    intro hmeets
    exact (hmeets.1 rfl).1 htaken
  | stores hfree hw =>
    rw [settles_write_iff hready hi r hs hpc hpc' hfree (hshared ▸ hw) hothers]
    simp [hfree]
  | @answers _ user reply hdb hreply =>
    rcases hreply with ⟨hanswers, body, rfl⟩ | ⟨hanswers, rfl⟩
    · refine iff_of_true ?_ (by simp [hanswers])
      apply settles_quiet hready r hs (hshared ▸ hdb) hothers
      · rw [hpc, hpc']
        exact iff_of_true trivial trivial
      · intro e he
        rw [hpc'] at he
        cases he
    · refine iff_of_false (not_settles_of_error hpc' h500) ?_
      intro hmeets
      exact absurd (hmeets.2 user rfl) (by simp [hanswers])
  | @idle reply =>
    refine iff_of_true ?_ (by simp)
    apply settles_quiet hready r hs (congrArg Server.db hshared) hothers
    · rw [hpc, hpc']
    · intro e he
      exact hs.conflict k e (hpc.trans (hpc'.symm.trans he))

theorem settles_step_iff (hready : Ready jobs a c₀) (r : EmailRun jobs c₀ h c)
    (hs : Settles jobs c₀ h c) {l : Label ι Unit} (hstep : EmailStep jobs c l c') :
    Settles jobs c₀ (h ++ [⟨c, l, c'⟩]) c' ↔ Meets jobs ⟨c, l, c'⟩ := by
  have r' := r.snoc hstep
  cases l with
  | process k e =>
    obtain ⟨hkind, hothers⟩ := stepKind_of_step hstep
    exact settles_process_iff hready (raceInv_run hready r) r' hs e hkind hothers
  | surroundings =>
    have hmeets : Meets jobs ⟨c, .surroundings, c'⟩ := by
      intro i hl
      cases hl
    refine iff_of_true ?_ hmeets
    cases hstep with
    | surroundings hdb =>
      apply settles_of_run hready r' hs.one hs.conflict
      intro v hv
      exact hs.written v (hdb ▸ hv)

theorem settles_start (hready : Ready jobs a c₀) : Settles jobs c₀ [] c₀ := by
  apply settles_of_run hready .start
  · intro i j hwi
    rw [hready.start i] at hwi
    exact hwi.elim
  · intro i e he
    rw [hready.start i] at he
    cases he
  · intro v hv
    exact Or.inl hv

end Laws

end Race

/-- In every state that an interleaving reaches, one request at most has won, every other
one that finishes answers 409 and no row but the winner's has changed, just when each commit
finds the address free of other rows and its own user without a winner, the queue takes the
mail of each stored registration and the response model each stored address. -/
theorem one_request_wins_iff {ι : Type} [DecidableEq ι] {env : Env} {jobs : ι → Job env}
    {a : String} {c₀ c : EmailConfig ι} {h : List (EmailTransition ι)}
    (hready : Ready jobs a c₀) (r : EmailRun jobs c₀ h c) :
    (∀ h₁ c₁, h₁ <+: h → EmailRun jobs c₀ h₁ c₁ → Settles jobs c₀ h₁ c₁) ↔
      ∀ t ∈ h, Meets jobs t := by
  rw [r.invariant_iff_guarded (G := fun _ t => Meets jobs t) (settles_start hready)
    (fun r hs hstep => settles_step_iff hready r hs hstep)]
  constructor
  · intro hguarded t ht
    obtain ⟨before, hp, _⟩ := r.step_of_mem ht
    exact hguarded before t hp
  · exact guarded_of_forall_mem

def Pc.refusal : Pc → Option HttpException
  | .finished (.error e) => some e
  | _ => none

theorem finished_of_refusal {pc : Pc} {e : HttpException} (h : pc.refusal = some e) :
    pc = .finished (.error e) := by
  cases pc with
  | finished reply =>
    cases reply with
    | error e' => exact congrArg (fun e => Pc.finished (.error e)) (Option.some.inj h)
    | ok _ => cases h
  | start | cleared | stored _ => cases h

def samplePassword : NewPassword asciiEnv :=
  ⟨"Passw0rd", by decide, by decide, ⟨'a', by decide, rfl⟩, ⟨'P', by decide, rfl⟩,
    ⟨'0', by decide, rfl⟩⟩

/-- Two requests to register one address. -/
def sampleJobs : Bool → Job asciiEnv := fun _ => .register "a@example.com" samplePassword true

def sampleConfig : EmailConfig Bool where
  shared := freshServer 0
  proc := fun _ => .start

theorem sampleReady : Ready sampleJobs "a@example.com" sampleConfig := by
  have hlower : asciiEnv.lower "a@example.com" = "a@example.com" := by decide
  refine ⟨(freshServer_initial 0).consistent, fun _ => rfl, fun _ => hlower, ?_⟩
  intro i own hown
  cases hown

def sampleStep : Bool → Unit → Server → Pc → Server × Pc := fun i _ s pc =>
  jobStep (sampleJobs i) s pc

/-- The first request runs to its end before the second one starts. -/
def sampleSchedule : List (Bool × Unit) := [(false, ()), (false, ()), (false, ()), (true, ())]

theorem one_request_wins_sample :
    Settles sampleJobs sampleConfig (playTrace sampleStep sampleConfig sampleSchedule)
      (play sampleStep sampleConfig sampleSchedule) := by
  have run : EmailRun sampleJobs sampleConfig (playTrace sampleStep sampleConfig sampleSchedule)
      (play sampleStep sampleConfig sampleSchedule) := run_play sampleStep _ _
  refine (one_request_wins_iff sampleReady run).mpr ?_ _ _ (List.prefix_refl _) run
  intro t ht i hl
  simp only [playTrace, sampleSchedule, List.mem_cons, List.not_mem_nil, or_false] at ht
  refine ⟨?_, ?_⟩
  swap
  · intro user hpc
    rcases ht with rfl | rfl | rfl | rfl <;> cases hl <;> cases hpc
    decide +kernel
  intro hpc
  rcases ht with rfl | rfl | rfl | rfl <;> cases hl <;> cases hpc
  refine ⟨?_, fun j _ hrow => absurd rfl hrow⟩
  -- the lookup before this commit has left the empty table
  rintro ⟨u, hu, _⟩
  change u ∈ (freshServer 0).db.users at hu
  rw [freshServer_users] at hu
  cases hu

/-- Both requests look before either has committed; the constraint refuses the second one,
and nothing turns its error into an answer 409. -/
theorem loser_answers_500 :
    ∃ h c, EmailRun sampleJobs sampleConfig h c ∧
      c.proc true = .finished (.error internalServerError) ∧
      ¬ Settles sampleJobs sampleConfig h c := by
  refine ⟨_, _, run_play sampleStep sampleConfig
    [(false, ()), (true, ()), (false, ()), (true, ()), (false, ())], ?_, ?_⟩
  · exact finished_of_refusal (by decide +kernel)
  · intro hs
    have hconflict := hs.conflict true internalServerError (finished_of_refusal (by decide +kernel))
    exact absurd hconflict (by decide)

end FastApiAuth.EmailRace
