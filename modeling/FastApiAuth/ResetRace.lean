import FastApiAuth.Effects
import FastApiAuth.Library.Processes
import Mathlib.Logic.Function.Iterate

/-!
# reset_password, step by step

Several requests with one token run the steps of reset_password in any order, next
to whatever else moves the server, and each may die after any step. The check of the
spent mark, the commit and the mark are separate steps on two stores; one password
change at most is guaranteed for as long as no request checks the mark while another
one is past its own check.
-/

namespace FastApiAuth.ResetRace

set_option autoImplicit false

open Database Processes Runs

/-- How far one request has come. -/
inductive ResetPc where
  | start
  | decoded (claims : TokenClaims Instant)
  | checked (claims : TokenClaims Instant)
  | loaded (claims : TokenClaims Instant) (user : User)
  | committed (claims : TokenClaims Instant)
  | answered
  | refused (e : HttpException)
  | died (afterCommit : Bool)

inductive Event where
  | go
  | die

/-- The process of a request is killed. -/
def ResetPc.dying : ResetPc → ResetPc
  | .committed _ => .died true
  | .answered => .answered
  | .refused e => .refused e
  | .died afterCommit => .died afterCommit
  | _ => .died false

def decodeStep (token : Token) (s : Server) : ResetPc :=
  match s.decodePasswordResetToken token with
  | none => .refused invalidResetToken
  | some claims => .decoded claims

def checkStep (claims : TokenClaims Instant) (s : Server) : ResetPc :=
  if isTokenUsed s.redis s.now claims.jti then .refused invalidResetToken else .checked claims

def loadStep (env : Env) (newPassword : NewPassword env) (claims : TokenClaims Instant)
    (s : Server) : ResetPc :=
  match resettingUser env s claims newPassword.text with
  | .error e => .refused e
  | .ok user => .loaded claims user

/-- The commit writes by primary key; a row that is gone by then makes it raise. -/
def commitStep (env : Env) (newPassword : NewPassword env) (claims : TokenClaims Instant)
    (user : User) (s : Server) : Server × ResetPc :=
  let (hashedPassword, s) := s.hashPassword env newPassword
  if s.db.users.any fun u => u.id = user.id then
    ({ s with db := s.db.amendUser user.id (setHashedPassword hashedPassword) }, .committed claims)
  else (s, .refused internalServerError)

def resetStep (env : Env) (token : Token) (newPassword : NewPassword env) :
    Event → Server → ResetPc → Server × ResetPc
  | .die, s, pc => (s, pc.dying)
  | .go, s, .start => (s, decodeStep token s)
  | .go, s, .decoded claims => (s, checkStep claims s)
  | .go, s, .checked claims => (s, loadStep env newPassword claims s)
  | .go, s, .loaded claims user => commitStep env newPassword claims user s
  | .go, s, .committed claims => (s.markUsed claims, .answered)
  | .go, s, pc => (s, pc)

def ResetPc.reply : ResetPc → Option Reply
  | .answered => some (.ok (.messageResponse "Password reset successfully"))
  | .refused e => some (.error e)
  | _ => none

/-- The steps of one request, with nothing in between, are the handler. -/
theorem alone_eq_resetPassword (env : Env) (token : Token) (newPassword : NewPassword env)
    (s : Server) :
    let last := (fun p => resetStep env token newPassword .go p.1 p.2)^[5] (s, ResetPc.start)
    last.2.reply = some (resetPassword env token newPassword s).1 ∧
      last.1 = (resetPassword env token newPassword s).2 := by
  simp only [Function.iterate_succ, Function.iterate_zero, Function.comp_apply, id_eq]
  unfold resetPassword
  cases hdecode : s.decodePasswordResetToken token with
  | none => simp [resetStep, decodeStep, hdecode, ResetPc.reply]
  | some claims =>
    cases hused : isTokenUsed s.redis s.now claims.jti with
    | true => simp [resetStep, decodeStep, hdecode, checkStep, hused, ResetPc.reply]
    | false =>
      cases huser : resettingUser env s claims newPassword.text with
      | error e =>
        simp [resetStep, decodeStep, hdecode, checkStep, hused, loadStep, huser, ResetPc.reply]
      | ok user =>
        have hrow : (s.db.users.any fun u => u.id = user.id) = true := by
          simp only [List.any_eq_true, decide_eq_true_eq]
          exact ⟨user, (resettingUser_ok huser).2.1, rfl⟩
        simp [resetStep, decodeStep, hdecode, checkStep, hused, loadStep, huser, commitStep,
          Server.hashPassword, hrow, ResetPc.reply]

section Race

/-- The request has written its password, whether or not it lived to mark the token. -/
def HasCommitted : ResetPc → Prop
  | .committed _ | .answered => True
  | .died afterCommit => afterCommit = true
  | _ => False

/-- The request is past its check and may still write. -/
def MayCommit : ResetPc → Prop
  | .checked _ | .loaded _ _ => True
  | _ => False

def Occupies (pc : ResetPc) : Prop := MayCommit pc ∨ HasCommitted pc

def storedPassword (db : Database) (userId : Nat) : Option String :=
  (db.userById userId).bind User.hashedPassword

end Race

section Race

variable {ι : Type} [DecidableEq ι] {env : Env} {token : Token} {newPassword : NewPassword env}
variable {s s' : Server} {pc pc' : ResetPc} {e : Event}

abbrev ResetConfig (ι : Type) := Config ι Server ResetPc

abbrev ResetTransition (ι : Type) := Transition (ResetConfig ι) (Label ι Event)

/-- All requests carry `token`, each with a new password of its own; `surroundings`
is what the rest of the world does to the server. -/
abbrev ResetRun (env : Env) (token : Token) (newPasswords : ι → NewPassword env)
    (surroundings : Server → Server → Prop) :
    ResetConfig ι → List (ResetTransition ι) → ResetConfig ι → Prop :=
  Run (Processes.Step (Computes fun i => resetStep env token (newPasswords i)) surroundings)

/-- A step of the request `i` gives some user another password. -/
def ChangesPassword (t : ResetTransition ι) (i : ι) : Prop :=
  (∃ e, t.label = .process i e) ∧
    ∃ userId, storedPassword t.target.shared.db userId ≠ storedPassword t.source.shared.db userId

/-- A request that finds the token unmarked does so while no other request is past
its own check with the write still ahead, and none has written. -/
def ChecksAlone (t : ResetTransition ι) : Prop :=
  ∀ i claims, t.label = .process i .go → t.source.proc i = .decoded claims →
    isTokenUsed t.source.shared.redis t.source.shared.now claims.jti = false →
    ∀ j ≠ i, ¬ Occupies (t.source.proc j)

theorem hasCommitted_stable (h : HasCommitted pc)
    (hstep : resetStep env token newPassword e s pc = (s', pc')) : HasCommitted pc' := by
  cases pc with
  | committed claims => cases e <;> cases hstep <;> trivial
  | answered => cases e <;> cases hstep <;> trivial
  | died afterCommit => cases e <;> cases hstep <;> exact h
  | start | decoded _ | checked _ | loaded _ _ | refused _ => exact h.elim

/-- Only the commit changes the tables, and only after it has a request committed. -/
theorem commitStep_cases (newPassword : NewPassword env) (claims : TokenClaims Instant)
    (user : User) (s : Server) :
    commitStep env newPassword claims user s =
      ({ s with draws := s.draws + 1 }, .refused internalServerError) ∨
    ∃ db, commitStep env newPassword claims user s =
      ({ s with db, draws := s.draws + 1 }, .committed claims) := by
  unfold commitStep Server.hashPassword
  dsimp only
  split
  · exact .inr ⟨_, rfl⟩
  · exact .inl rfl

/-- A request gets past its check on an unmarked token only. -/
theorem occupies_of_check (hbefore : ¬ Occupies pc) (hafter : Occupies pc')
    (hstep : resetStep env token newPassword e s pc = (s', pc')) :
    e = .go ∧ ∃ claims, pc = .decoded claims ∧ isTokenUsed s.redis s.now claims.jti = false := by
  cases e with
  | die =>
    cases hstep
    exfalso
    cases pc with
    | start | decoded _ | checked _ | loaded _ _ => simp [Occupies, MayCommit, HasCommitted,
        ResetPc.dying] at hafter
    | committed _ => exact hbefore (.inr trivial)
    | answered | refused _ | died _ => exact hbefore hafter
  | go =>
    refine ⟨rfl, ?_⟩
    cases pc with
    | start =>
      cases hstep
      unfold decodeStep at hafter
      split at hafter <;> simp [Occupies, MayCommit, HasCommitted] at hafter
    | decoded claims =>
      cases hstep
      refine ⟨claims, rfl, ?_⟩
      unfold checkStep at hafter
      split at hafter
      · simp [Occupies, MayCommit, HasCommitted] at hafter
      · rename_i hunused
        simpa using hunused
    | checked _ | loaded _ _ => exact absurd (.inl trivial) hbefore
    | committed _ | answered => exact absurd (.inr trivial) hbefore
    | refused _ | died _ =>
      cases hstep
      exact absurd hafter hbefore

theorem hasCommitted_of_change {userId : Nat}
    (hstep : resetStep env token newPassword e s pc = (s', pc'))
    (hne : storedPassword s'.db userId ≠ storedPassword s.db userId) : HasCommitted pc' := by
  cases e with
  | die =>
    cases hstep
    exact absurd rfl hne
  | go =>
    cases pc with
    | loaded claims user =>
      rcases commitStep_cases newPassword claims user s with h | ⟨db, h⟩
      · cases h.symm.trans hstep
        exact absurd rfl hne
      · cases h.symm.trans hstep
        trivial
    | start | decoded _ | checked _ | committed _ | answered | refused _ | died _ =>
      cases hstep
      exact absurd rfl hne

variable {newPasswords : ι → NewPassword env} {surroundings : Server → Server → Prop}
variable {c₀ c : ResetConfig ι} {h : List (ResetTransition ι)}

/-- Whoever has changed the password has committed, now and for good. -/
theorem hasCommitted_of_mem (r : ResetRun env token newPasswords surroundings c₀ h c)
    {t : ResetTransition ι} {i : ι} (ht : t ∈ h) (hchange : ChangesPassword t i) :
    HasCommitted (c.proc i) := by
  obtain ⟨before, hp, rb, hstep⟩ := r.step_of_mem ht
  obtain ⟨⟨e, hl⟩, userId, hne⟩ := hchange
  have hstep' := hstep
  rw [hl] at hstep'
  have htarget : HasCommitted (t.target.proc i) := hasCommitted_of_change hstep'.of_process.1 hne
  refine r.persist (P := fun c => HasCommitted (c.proc i)) ?_ hp (rb.snoc hstep) htarget
  intro t' ht' hsource
  obtain ⟨_, _, _, hstep'⟩ := r.step_of_mem ht'
  exact hstep'.local_stable (P := HasCommitted) hasCommitted_stable hsource

end Race

/-- However the requests with one token interleave and die, one of them at most
changes a password, if each check of the spent mark is made alone. -/
theorem password_changed_at_most_once {ι : Type} [DecidableEq ι] {env : Env} {token : Token}
    {newPasswords : ι → NewPassword env} {surroundings : Server → Server → Prop}
    {c₀ c : ResetConfig ι} {h : List (ResetTransition ι)} (start : ∀ i, c₀.proc i = .start)
    (r : ResetRun env token newPasswords surroundings c₀ h c) (alone : ∀ t ∈ h, ChecksAlone t) :
    ∀ t₁ ∈ h, ∀ t₂ ∈ h, ∀ i j, ChangesPassword t₁ i → ChangesPassword t₂ j → i = j := by
  intro t₁ ht₁ t₂ ht₂ i j hi hj
  have hci := hasCommitted_of_mem r ht₁ hi
  have hcj := hasCommitted_of_mem r ht₂ hj
  refine mutual_exclusion (P := Occupies) ?_ ?_ r i j (.inr hci) (.inr hcj)
  · intro i
    rw [start i]
    simp [Occupies, MayCommit, HasCommitted]
  · intro t ht k hbefore hafter
    obtain ⟨_, _, _, hstep⟩ := r.step_of_mem ht
    obtain ⟨e, hl, hk⟩ := hstep.mover (P := Occupies) hbefore hafter
    obtain ⟨rfl, claims, hpc, hunused⟩ := occupies_of_check hbefore hafter hk
    exact alone t ht k claims hl hpc hunused

def sampleToken : Token :=
  { sub := "1", type := "password_reset", jti := "uuid2", iat := 0, exp := 900 }

/-- A user has registered and asked for a reset mail; two requests use its token. -/
def sampleConfig : ResetConfig Bool where
  shared := Runs.exec (step asciiEnv) (freshServer 0)
    [.request (.register "localhost" ⟨"a@example.com", "Passw0rd"⟩ true),
      .request (.forgotPassword "localhost" ⟨"a@example.com"⟩ true)]
  proc := fun _ => .start

def samplePasswords : Bool → NewPassword asciiEnv
  | false => ⟨"NewPassw0rd", by decide, by decide, ⟨'e', by decide, rfl⟩, ⟨'N', by decide, rfl⟩,
      ⟨'0', by decide, rfl⟩⟩
  | true => ⟨"0therPassword", by decide, by decide, ⟨'t', by decide, rfl⟩, ⟨'P', by decide, rfl⟩,
      ⟨'0', by decide, rfl⟩⟩

def sampleStep : Bool → Event → Server → ResetPc → Server × ResetPc :=
  fun i => resetStep asciiEnv sampleToken (samplePasswords i)

/-- The first request runs to its end before the second one starts. -/
def sampleSchedule : List (Bool × Event) :=
  [(false, .go), (false, .go), (false, .go), (false, .go), (false, .go), (true, .go)]

theorem password_changed_at_most_once_sample :
    ∃ t₁ ∈ playTrace sampleStep sampleConfig sampleSchedule, ChangesPassword t₁ false ∧
      ∀ t₂ ∈ playTrace sampleStep sampleConfig sampleSchedule,
        ∀ j, ChangesPassword t₂ j → false = j := by
  have run : ResetRun asciiEnv sampleToken samplePasswords (fun _ _ => False) sampleConfig
      (playTrace sampleStep sampleConfig sampleSchedule)
      (play sampleStep sampleConfig sampleSchedule) := run_play sampleStep _ _
  have alone : ∀ t ∈ playTrace sampleStep sampleConfig sampleSchedule, ChecksAlone t := by
    intro t ht i claims hl hpc _ j hj
    simp only [playTrace, sampleSchedule, List.mem_cons, List.not_mem_nil, or_false] at ht
    rcases ht with rfl | rfl | rfl | rfl | rfl | rfl
    all_goals
      cases hl
      first
      | cases hpc
      | (obtain rfl : j = true := by simpa using hj
         change ¬ Occupies .start
         simp [Occupies, MayCommit, HasCommitted])
  refine ⟨_, List.mem_of_getElem? (i := 3) rfl, ⟨⟨_, rfl⟩, 1, by decide +kernel⟩, ?_⟩
  intro t₂ ht₂ j hj
  exact password_changed_at_most_once (fun _ => rfl) run alone _
    (List.mem_of_getElem? (i := 3) rfl) t₂ ht₂ false j ⟨⟨_, rfl⟩, 1, by decide +kernel⟩ hj

/-- Both requests check before either has written, and both write. -/
theorem password_changed_twice :
    ∃ h c, ResetRun asciiEnv sampleToken samplePasswords (fun _ _ => False) sampleConfig h c ∧
      ∃ t₁ ∈ h, ∃ t₂ ∈ h, ChangesPassword t₁ false ∧ ChangesPassword t₂ true := by
  refine ⟨_, _, run_play sampleStep sampleConfig
      [(false, .go), (false, .go), (true, .go), (true, .go), (false, .go), (false, .go),
        (true, .go), (true, .go)],
    _, List.mem_of_getElem? (i := 5) rfl, _, List.mem_of_getElem? (i := 7) rfl,
    ⟨⟨_, rfl⟩, 1, ?_⟩, ⟨_, rfl⟩, 1, ?_⟩
  · decide +kernel
  · decide +kernel

end FastApiAuth.ResetRace
