import FastApiAuth.UnlinkRace

/-!
# The state parameter of the OAuth flow

A start request keeps its mode under a fresh state; a callback reads the state in one
Redis command and deletes it in the next. Whatever the order of the steps, a state
that is accepted was minted before, in the mode it is accepted in. It is accepted once
only if no callback reads it between the two commands of another one. The state says
nothing about the provider.
-/

namespace FastApiAuth.OAuthFlow

set_option autoImplicit false

open Processes Runs
open UnlinkRace (CallbackPc callbackStep readState)

section StartSteps

/-- What a start request is about to keep. -/
inductive StartMode where
  | login
  | link (userId : Nat)

def StartMode.stateValue : StartMode → String
  | .login => "login"
  | .link userId => linkPrefix ++ PyInt.str userId

/-- What the callback has to make of it. -/
def StartMode.callbackMode : StartMode → CallbackMode
  | .login => .login
  | .link userId => .link userId

/-- oauth_login, or oauth_link with the access token of the request. -/
inductive StartRoute where
  | login
  | link (credentials : Token)

inductive StartPc where
  | start
  | admitted (mode : StartMode)
  | finished (reply : Reply)

def admitStart (env : Env) (provider : String) (mode : StartMode) : StartPc :=
  match requireClient env provider with
  | .error e => .finished (.error e)
  | .ok _ => .admitted mode

def authorize (env : Env) (provider : String) (s : Server) : StartRoute → StartPc
  | .login => admitStart env provider .login
  | .link credentials =>
    match getCurrentUser s credentials with
    | .error e => .finished (.error e)
    | .ok currentUser => admitStart env provider (.link currentUser.id)

def startStep (env : Env) (provider : String) (route : StartRoute) (s : Server) :
    StartPc → Server × StartPc
  | .start => (s, authorize env provider s route)
  | .admitted mode =>
    ((redirectWithState env mode.stateValue s).2,
      .finished (redirectWithState env mode.stateValue s).1)
  | .finished reply => (s, .finished reply)

theorem alone_eq_oauthLogin (env : Env) (provider : String) (s : Server) :
    (fun p => startStep env provider .login p.1 p.2)^[2] (s, .start) =
      ((oauthLogin env provider s).2, .finished (oauthLogin env provider s).1) := by
  simp only [Function.iterate_succ, Function.iterate_zero, Function.comp_apply, id_eq]
  unfold oauthLogin
  cases hclient : requireClient env provider with
  | error e => simp [startStep, authorize, admitStart, hclient]
  | ok _ => simp [startStep, authorize, admitStart, hclient, StartMode.stateValue]

theorem alone_eq_oauthLink (env : Env) (provider : String) (credentials : Token) (s : Server) :
    (fun p => startStep env provider (.link credentials) p.1 p.2)^[2] (s, .start) =
      ((oauthLink env provider credentials s).2,
        .finished (oauthLink env provider credentials s).1) := by
  simp only [Function.iterate_succ, Function.iterate_zero, Function.comp_apply, id_eq]
  unfold oauthLink withCurrentUser
  cases huser : getCurrentUser s credentials with
  | error e => simp [startStep, authorize, huser]
  | ok user =>
    cases hclient : requireClient env provider with
    | error e => simp [startStep, authorize, huser, admitStart, hclient]
    | ok _ => simp [startStep, authorize, huser, admitStart, hclient, StartMode.stateValue]

/-- The callback reads back the mode and the user id that were kept. -/
theorem callbackMode_stateValue (mode : StartMode) :
    callbackMode mode.stateValue = mode.callbackMode := by
  cases mode with
  | login => decide
  | link userId =>
    simp [callbackMode, StartMode.stateValue, StartMode.callbackMode, linkPrefix,
      String.toList_append, PyInt.int_str]

end StartSteps

section ManyRequests

/-- One request and how far it has come; the state of a callback is any string. -/
inductive Worker where
  | start (provider : String) (route : StartRoute) (pc : StartPc)
  | callback (provider state : String) (answer : Option Identity) (pc : CallbackPc)

def workerStep (env : Env) (s : Server) : Worker → Server × Worker
  | .start provider route pc =>
    ((startStep env provider route s pc).1,
      .start provider route (startStep env provider route s pc).2)
  | .callback provider state answer pc =>
    ((callbackStep env provider state answer s pc).1,
      .callback provider state answer (callbackStep env provider state answer s pc).2)

def Worker.AtStart : Worker → Prop
  | .start _ _ pc => pc = .start
  | .callback _ _ _ pc => pc = .start

/-- The callback has read `state` and not deleted it yet. -/
def Worker.Holds (state : String) : Worker → Prop
  | .callback _ read _ (.stateRead _) => read = state
  | _ => False

/-- Time passes, the tables and other keys are written and random values drawn; a state
that is gone stays gone. -/
def Surroundings (s s' : Server) : Prop :=
  s.now ≤ s'.now ∧ s.draws ≤ s'.draws ∧
    ∀ state e, s'.redis.entry (stateKeyPrefix ++ state) = some e →
      s.redis.entry (stateKeyPrefix ++ state) = some e

/-- What a step of one request does to the states. -/
inductive Move (env : Env) (s : Server) : Worker → Server → Worker → Prop where
  | minted {provider : String} {route : StartRoute} {mode : StartMode} {pc : StartPc} :
      Move env s (.start provider route (.admitted mode))
        (redirectWithState env mode.stateValue s).2 (.start provider route pc)
  | passed {provider state stateValue : String} {answer : Option Identity} :
      s.redis.get s.now (stateKeyPrefix ++ state) = some stateValue →
      Move env s (.callback provider state answer .start) s
        (.callback provider state answer (.stateRead stateValue))
  | consumed {provider state stateValue : String} {answer : Option Identity} {w : Worker} :
      Move env s (.callback provider state answer (.stateRead stateValue))
        { s with redis := s.redis.delete (stateKeyPrefix ++ state) } w
  | quiet {s' : Server} {w w' : Worker} :
      s'.redis = s.redis → s.draws ≤ s'.draws → (∀ state, ¬ w.Holds state) →
      (∀ state, ¬ w'.Holds state) → Move env s w s' w'

end ManyRequests

section Moves

variable {env : Env} {s : Server} {provider state : String} {answer : Option Identity}

theorem readState_cases (env : Env) (s : Server) (provider state : String) :
    (∃ stateValue, s.redis.get s.now (stateKeyPrefix ++ state) = some stateValue ∧
      readState env provider state s = .stateRead stateValue) ∨
    ∃ reply, readState env provider state s = .finished reply := by
  unfold readState
  cases requireClient env provider with
  | error e => exact .inr ⟨_, rfl⟩
  | ok _ =>
    cases hget : s.redis.get s.now (stateKeyPrefix ++ state) with
    | none => exact .inr ⟨_, rfl⟩
    | some stateValue => exact .inl ⟨stateValue, rfl, rfl⟩

theorem not_holds_gate (user : User) (read : String) :
    ¬ (Worker.callback provider state answer (UnlinkRace.gate user)).Holds read := by
  unfold UnlinkRace.gate
  split <;> exact id

/-- Past the two Redis commands the callback never reads a state again. -/
theorem not_holds_selectUser (linkingUserId : Option Int) (identity : Identity)
    (existing : Option OAuthAccount) (read : String) :
    ¬ (Worker.callback provider state answer
      (UnlinkRace.selectUser provider linkingUserId identity existing s)).Holds read := by
  unfold UnlinkRace.selectUser
  cases linkingUserId with
  | some linkingUserId =>
    cases existing with
    | some existing =>
      dsimp only
      split
      · exact id
      · split <;> exact id
    | none =>
      dsimp only
      split <;> exact id
  | none =>
    cases existing with
    | some existing =>
      dsimp only
      split
      · exact id
      · exact not_holds_gate _ _
    | none =>
      dsimp only
      split
      · exact id
      · split <;> exact id

theorem workerStep_move (env : Env) (s : Server) (w : Worker) :
    Move env s w (workerStep env s w).1 (workerStep env s w).2 := by
  cases w with
  | start provider route pc =>
    cases pc with
    | start | finished _ => exact .quiet rfl le_rfl (fun _ => id) fun _ => id
    | admitted mode => exact .minted
  | callback provider state answer pc =>
    cases pc with
    | start =>
      rcases readState_cases env s provider state with
        ⟨stateValue, hget, hread⟩ | ⟨reply, hread⟩
      · simpa [workerStep, callbackStep, hread] using Move.passed hget
      · simp only [workerStep, callbackStep, hread]
        exact .quiet rfl le_rfl (fun _ => id) fun _ => id
    | stateRead stateValue => exact .consumed
    | identified linkingUserId identity =>
      exact .quiet rfl le_rfl (fun _ => id) fun _ => id
    | selected linkingUserId identity existing =>
      exact .quiet rfl le_rfl (fun _ => id) (not_holds_selectUser _ _ _)
    | signingUp identity email =>
      simp only [workerStep, callbackStep, UnlinkRace.commitUser]
      split
      · exact .quiet rfl le_rfl (fun _ => id) fun _ => id
      · exact .quiet rfl le_rfl (fun _ => id) fun _ => id
    | linking gated identity user =>
      simp only [workerStep, callbackStep, UnlinkRace.commitLink]
      split
      · exact .quiet rfl le_rfl (fun _ => id) fun _ => id
      · refine .quiet rfl le_rfl (fun _ => id) fun read => ?_
        cases gated with
        | true => exact not_holds_gate _ _
        | false => exact id
    | answering user => exact .quiet rfl (Nat.le_add_right _ 2) (fun _ => id) fun _ => id
    | finished reply => exact .quiet rfl le_rfl (fun _ => id) fun _ => id

theorem Move.of_computes {ι : Type} {i : ι} {s' : Server} {w w' : Worker} {e : Unit}
    (h : Computes (fun _ _ s w => workerStep env s w) i s w e s' w') : Move env s w s' w' := by
  have hstep : workerStep env s w = (s', w') := h
  have hmove := workerStep_move env s w
  rw [hstep] at hmove
  exact hmove

end Moves

abbrev FlowConfig (ι : Type) := Config ι Server Worker

abbrev FlowTransition (ι : Type) := Transition (FlowConfig ι) (Label ι Unit)

abbrev FlowStep {ι : Type} [DecidableEq ι] (env : Env) :
    FlowConfig ι → Label ι Unit → FlowConfig ι → Prop :=
  Processes.Step (Computes fun _ _ s w => workerStep env s w) Surroundings

abbrev FlowRun {ι : Type} [DecidableEq ι] (env : Env) :
    FlowConfig ι → List (FlowTransition ι) → FlowConfig ι → Prop :=
  Run (FlowStep env)

/-- No request has begun, and Redis holds no state. -/
def Fresh {ι : Type} (c : FlowConfig ι) : Prop :=
  (∀ i, (c.proc i).AtStart) ∧ ∀ state, c.shared.redis.entry (stateKeyPrefix ++ state) = none

section Events

variable {ι : Type} (env : Env) (t : FlowTransition ι) (i : ι)

/-- The start request `i` keeps `mode` under the state it has drawn. -/
def Mints (provider state : String) (mode : StartMode) : Prop :=
  t.label = .process i () ∧ env.tokenUrlsafe t.source.shared.draws = state ∧
    ∃ route, t.source.proc i = .start provider route (.admitted mode)

/-- The callback `i` gets past the state check. -/
def Passes (provider state stateValue : String) : Prop :=
  t.label = .process i () ∧ ∃ answer, t.source.proc i = .callback provider state answer .start ∧
    t.target.proc i = .callback provider state answer (.stateRead stateValue)

/-- Whoever gets past the state check does so while no other callback is between the
two Redis commands on the same state. -/
def ReadsAlone : Prop :=
  ∀ i provider state stateValue, Passes t i provider state stateValue →
    ∀ j ≠ i, ¬ (t.source.proc j).Holds state

/-- `f` gives every callback past the check an earlier start that minted its state, in
the mode and for the user of the callback. -/
def StartsOf (h : List (FlowTransition ι)) (f : Nat → Nat) : Prop :=
  ∀ k t i provider state stateValue, h[k]? = some t → Passes t i provider state stateValue →
    f k < k ∧ ∃ t' j provider' mode, h[f k]? = some t' ∧ Mints env t' j provider' state mode ∧
      callbackMode stateValue = mode.callbackMode

def PassAt (h : List (FlowTransition ι)) (k : Nat) : Prop :=
  ∃ t i provider state stateValue, h[k]? = some t ∧ Passes t i provider state stateValue

end Events

section FlowRuns

variable {ι : Type} [DecidableEq ι] {env : Env} {c₀ c c' : FlowConfig ι}
variable {h : List (FlowTransition ι)} {l : Label ι Unit} {state : String}

/-- Every state in Redis was minted by a start of the history. -/
def Recorded (env : Env) (h : List (FlowTransition ι)) (c : FlowConfig ι) : Prop :=
  ∀ state e, c.shared.redis.entry (stateKeyPrefix ++ state) = some e →
    ∃ t ∈ h, ∃ j provider mode, Mints env t j provider state mode ∧ e.value = mode.stateValue

/-- Nobody mints `state` any more, and it is gone or held by a callback past its check. -/
def Spent (env : Env) (state : String) (c : FlowConfig ι) : Prop :=
  (∃ n < c.shared.draws, env.tokenUrlsafe n = state) ∧
    ((∃ i, (c.proc i).Holds state) ∨ c.shared.redis.entry (stateKeyPrefix ++ state) = none)

theorem Recorded.step (hr : Recorded env h c) (hstep : FlowStep env c l c') :
    Recorded env (h ++ [⟨c, l, c'⟩]) c' := by
  have earlier : ∀ state e, c.shared.redis.entry (stateKeyPrefix ++ state) = some e →
      ∃ t ∈ h ++ [⟨c, l, c'⟩], ∃ j provider mode, Mints env t j provider state mode ∧
        e.value = mode.stateValue := by
    intro state e he
    obtain ⟨t, ht, hmints⟩ := hr state e he
    exact ⟨t, List.mem_append_left _ ht, hmints⟩
  intro state e he
  cases hstep with
  | surroundings henv => exact earlier state e (henv.2.2 state e he)
  | @process i _ s' w' hi =>
    have hmove := Move.of_computes hi
    generalize hw : c.proc i = w at hmove
    cases hmove with
    | passed _ => exact earlier state e he
    | quiet hredis _ _ _ => exact earlier state e (hredis ▸ he)
    | @consumed _ read _ _ _ =>
      by_cases hk : stateKeyPrefix ++ state = stateKeyPrefix ++ read
      · rw [hk] at he
        simp [ExpiringStore.delete] at he
      · exact earlier state e ((ExpiringStore.entry_delete_of_ne hk).symm.trans he)
    | @minted provider route mode _ =>
      by_cases hk : stateKeyPrefix ++ state = stateKeyPrefix ++ env.tokenUrlsafe c.shared.draws
      · have hvalue : e.value = mode.stateValue := by
          rw [hk] at he
          obtain rfl := Option.some_inj.mp (ExpiringStore.entry_put_self.symm.trans he)
          rfl
        refine ⟨_, List.mem_append_right _ (List.mem_singleton_self _), i, provider, mode, ?_,
          hvalue⟩
        exact ⟨rfl, ((String.append_right_inj _).mp hk).symm, route, hw⟩
      · exact earlier state e ((ExpiringStore.entry_put_of_ne hk).symm.trans he)

theorem FlowRun.recorded (h₀ : Fresh c₀) (r : FlowRun env c₀ h c) : Recorded env h c := by
  induction r with
  | start =>
    intro state e he
    rw [h₀.2 state] at he
    cases he
  | snoc _ hstep ih => exact ih.step hstep

omit [DecidableEq ι] in
/-- One transition is the pass of one callback. -/
theorem Passes.unique {t : FlowTransition ι} {i i' : ι}
    {provider provider' state' stateValue stateValue' : String}
    (hp : Passes t i provider state stateValue) (hp' : Passes t i' provider' state' stateValue') :
    state = state' ∧ stateValue = stateValue' := by
  obtain ⟨hlabel, answer, hsource, htarget⟩ := hp
  obtain ⟨hlabel', answer', hsource', htarget'⟩ := hp'
  obtain rfl : i = i' := by simpa [hlabel] using hlabel'
  rw [hsource] at hsource'
  rw [htarget] at htarget'
  cases hsource'
  cases htarget'
  exact ⟨rfl, rfl⟩

/-- Getting past the check means that the state was there. -/
theorem Passes.get {t : FlowTransition ι} {i : ι} {provider stateValue : String}
    (hp : Passes t i provider state stateValue)
    (hstep : FlowStep env t.source t.label t.target) :
    t.source.shared.redis.get t.source.shared.now (stateKeyPrefix ++ state) = some stateValue := by
  obtain ⟨hlabel, answer, hsource, htarget⟩ := hp
  rw [hlabel] at hstep
  have hi : workerStep env t.source.shared (t.source.proc i) =
      (t.target.shared, t.target.proc i) := hstep.of_process.1
  rw [hsource, htarget] at hi
  have hread : readState env provider state t.source.shared = .stateRead stateValue := by
    have hworker := congrArg Prod.snd hi
    simpa [workerStep, callbackStep] using hworker
  rcases readState_cases env t.source.shared provider state with
    ⟨found, hget, hfound⟩ | ⟨reply, hreply⟩
  · obtain rfl : found = stateValue := by simpa [hfound] using hread
    exact hget
  · rw [hreply] at hread
    cases hread

/-- A state that has been accepted is never accepted again without a parallel read. -/
theorem Spent.step (hfresh : Function.Injective env.tokenUrlsafe) (hs : Spent env state c)
    (hstep : FlowStep env c l c') :
    Spent env state c' := by
  obtain ⟨⟨n, hn, hdrawn⟩, hgone⟩ := hs
  cases hstep with
  | surroundings henv =>
    refine ⟨⟨n, hn.trans_le henv.2.1, hdrawn⟩, ?_⟩
    rcases hgone with hheld | hnone
    · exact .inl hheld
    · refine .inr (Option.eq_none_iff_forall_ne_some.mpr fun e he => ?_)
      have hbefore := henv.2.2 state e he
      rw [hnone] at hbefore
      cases hbefore
  | @process i _ s' w' hi =>
    have hmove := Move.of_computes hi
    -- a holder other than `i` goes on holding, and `i` itself unless it deletes
    have others : (¬ (c.proc i).Holds state) → (∃ j, (c.proc j).Holds state) →
        ∃ j, (Function.update c.proc i w' j).Holds state := by
      rintro hnot ⟨j, hj⟩
      have hji : j ≠ i := by
        rintro rfl
        exact hnot hj
      exact ⟨j, by simpa [hji] using hj⟩
    generalize hw : c.proc i = w at hmove
    cases hmove with
    | passed _ => exact ⟨⟨n, hn, hdrawn⟩, hgone.imp_left (others (by rw [hw]; exact id))⟩
    | quiet hredis hdraws hnot _ =>
      refine ⟨⟨n, hn.trans_le hdraws, hdrawn⟩, ?_⟩
      rcases hgone with hheld | hnone
      · exact .inl (others (by rw [hw]; exact hnot state) hheld)
      · exact .inr (by rw [hredis]; exact hnone)
    | @consumed _ read _ _ _ =>
      refine ⟨⟨n, hn, hdrawn⟩, ?_⟩
      by_cases hk : state = read
      · subst hk
        exact .inr (by simp [ExpiringStore.delete])
      · have hkey : stateKeyPrefix ++ state ≠ stateKeyPrefix ++ read :=
          fun hsame => hk ((String.append_right_inj _).mp hsame)
        refine hgone.imp (others ?_) fun hnone => ?_
        · rw [hw]
          exact fun hheld => hk hheld.symm
        · exact (ExpiringStore.entry_delete_of_ne hkey).trans hnone
    | @minted provider route mode _ =>
      refine ⟨⟨n, hn.trans (Nat.lt_succ_self _), hdrawn⟩, ?_⟩
      have hkey : stateKeyPrefix ++ state ≠
          stateKeyPrefix ++ env.tokenUrlsafe c.shared.draws := by
        intro hsame
        rw [← hdrawn] at hsame
        exact hn.ne (hfresh ((String.append_right_inj _).mp hsame))
      refine hgone.imp (others ?_) fun hnone => ?_
      · rw [hw]
        exact id
      · exact (ExpiringStore.entry_put_of_ne hkey).trans hnone

theorem draws_le (hstep : FlowStep env c l c') :
    c.shared.draws ≤ c'.shared.draws := by
  cases hstep with
  | surroundings henv => exact henv.2.1
  | @process i _ s' w' hi =>
    have hmove := Move.of_computes hi
    generalize c.proc i = w at hmove
    cases hmove with
    | minted => exact Nat.le_succ _
    | passed _ | consumed => exact le_rfl
    | quiet _ hdraws _ _ => exact hdraws

/-- What was drawn at a minting is behind the server. -/
theorem FlowRun.draws_lt (r : FlowRun env c₀ h c) {t : FlowTransition ι} (ht : t ∈ h) {i : ι}
    {provider : String} {mode : StartMode} (hm : Mints env t i provider state mode) :
    t.source.shared.draws < c.shared.draws := by
  obtain ⟨before, hp, rb, hstep⟩ := Run.step_of_mem r ht
  obtain ⟨hlabel, _, route, hsource⟩ := hm
  have hmint : t.source.shared.draws < t.target.shared.draws := by
    have hi := hstep
    rw [hlabel] at hi
    have hi : workerStep env t.source.shared (t.source.proc i) =
        (t.target.shared, t.target.proc i) := hi.of_process.1
    rw [hsource] at hi
    have hserver : (redirectWithState env mode.stateValue t.source.shared).2 = t.target.shared :=
      congrArg Prod.fst hi
    rw [← hserver]
    exact Nat.lt_succ_self _
  refine Run.persist (P := fun d => t.source.shared.draws < d.shared.draws) r ?_ hp
    (rb.snoc hstep) hmint
  intro u hu hlt
  obtain ⟨_, _, _, hu⟩ := Run.step_of_mem r hu
  exact hlt.trans_le (draws_le hu)

/-- The start that a callback past the check goes back to. -/
theorem FlowRun.start_of_pass (h₀ : Fresh c₀) (r : FlowRun env c₀ h c) {k : Nat}
    {t : FlowTransition ι} {i : ι} {provider stateValue : String} (ht : h[k]? = some t)
    (hp : Passes t i provider state stateValue) :
    ∃ m < k, ∃ t' j provider' mode, h[m]? = some t' ∧ Mints env t' j provider' state mode ∧
      callbackMode stateValue = mode.callbackMode := by
  obtain ⟨rb, hstep⟩ := Run.of_getElem? r ht
  obtain ⟨e, hfind, rfl⟩ := Option.map_eq_some_iff.mp (hp.get hstep)
  obtain ⟨t', ht', j, provider', mode, hmints, hvalue⟩ :=
    FlowRun.recorded h₀ rb state e (ExpiringStore.find_eq_some_iff.mp hfind).1
  obtain ⟨m, hm⟩ := List.mem_iff_getElem?.mp ht'
  rw [List.getElem?_take] at hm
  split at hm
  · rename_i hlt
    exact ⟨m, hlt, t', j, provider', mode, hm, hmints, hvalue ▸ callbackMode_stateValue mode⟩
  · cases hm

/-- From the moment a callback is past the check its state is spent. -/
theorem FlowRun.spent_of_pass (h₀ : Fresh c₀) (r : FlowRun env c₀ h c) {k : Nat}
    {t : FlowTransition ι} {i : ι} {provider stateValue : String} (ht : h[k]? = some t)
    (hp : Passes t i provider state stateValue) : Spent env state t.target := by
  obtain ⟨rb, hstep⟩ := Run.of_getElem? r ht
  obtain ⟨m, hm, t', j, provider', mode, ht', hmints, _⟩ := FlowRun.start_of_pass h₀ r ht hp
  have hmem : t' ∈ h.take k := List.mem_iff_getElem?.mpr ⟨m, by simpa [hm] using ht'⟩
  refine ⟨⟨_, (FlowRun.draws_lt rb hmem hmints).trans_le (draws_le hstep), hmints.2.1⟩,
    .inl ⟨i, ?_⟩⟩
  obtain ⟨_, answer, _, htarget⟩ := hp
  rw [htarget]
  exact rfl

/-- No state is accepted a second time by a callback that reads it alone. -/
theorem FlowRun.pass_once (hfresh : Function.Injective env.tokenUrlsafe) (h₀ : Fresh c₀)
    (r : FlowRun env c₀ h c) (halone : ∀ t ∈ h, ReadsAlone t) {k k' : Nat}
    {t t' : FlowTransition ι} {i i' : ι} {provider provider' stateValue stateValue' : String}
    (ht : h[k]? = some t) (hp : Passes t i provider state stateValue)
    (ht' : h[k']? = some t') (hp' : Passes t' i' provider' state stateValue') : ¬ k < k' := by
  intro hlt
  obtain ⟨rb', hstep'⟩ := Run.of_getElem? r ht'
  have hspent : Spent env state t'.source := by
    obtain ⟨rb, hstep⟩ := Run.of_getElem? r ht
    have hbefore : h.take k ++ [t] <+: h.take k' := by
      rw [take_snoc ht]
      exact List.take_prefix_take_left hlt
    refine Run.persist rb' ?_ hbefore (rb.snoc hstep) (FlowRun.spent_of_pass h₀ r ht hp)
    intro u hu hs
    obtain ⟨_, _, _, hu⟩ := Run.step_of_mem rb' hu
    exact hs.step hfresh hu
  rcases hspent.2 with ⟨j, hheld⟩ | hnone
  · by_cases hji : j = i'
    · obtain ⟨_, answer, hsource, _⟩ := hp'
      rw [hji, hsource] at hheld
      exact hheld
    · exact halone t' (List.mem_of_getElem? ht') i' provider' state stateValue' hp' j hji hheld
  · obtain ⟨e, hfind, _⟩ := Option.map_eq_some_iff.mp (hp'.get hstep')
    rw [(ExpiringStore.find_eq_some_iff.mp hfind).1] at hnone
    cases hnone

/-- Over every run of starts and callbacks, with any states in the callbacks: whoever
gets past the check goes back to an earlier start that minted the state in that mode and
for that user, and two callbacks to two starts if each reads its state alone. -/
theorem callbacks_go_back_to_starts (hfresh : Function.Injective env.tokenUrlsafe)
    (h₀ : Fresh c₀) (r : FlowRun env c₀ h c) :
    ∃ f, StartsOf env h f ∧ ((∀ t ∈ h, ReadsAlone t) → Set.InjOn f {k | PassAt h k}) := by
  have start : ∀ k : Nat, ∃ m : Nat, ∀ (t : FlowTransition ι) i provider state stateValue,
      h[k]? = some t → Passes t i provider state stateValue →
        m < k ∧ ∃ t' j provider' mode, h[m]? = some t' ∧ Mints env t' j provider' state mode ∧
          callbackMode stateValue = mode.callbackMode := by
    intro k
    by_cases hk : PassAt h k
    · obtain ⟨t, i, provider, state, stateValue, ht, hp⟩ := hk
      obtain ⟨m, hm, hstart⟩ := FlowRun.start_of_pass h₀ r ht hp
      refine ⟨m, fun t' i' provider' state' stateValue' ht' hp' => ⟨hm, ?_⟩⟩
      obtain rfl := Option.some_inj.mp (ht.symm.trans ht')
      obtain ⟨rfl, rfl⟩ := hp.unique hp'
      exact hstart
    · refine ⟨0, fun t i provider state stateValue ht hp => ?_⟩
      exact absurd ⟨t, i, provider, state, stateValue, ht, hp⟩ hk
  choose f hf using start
  refine ⟨f, hf, fun halone k hk k' hk' hsame => ?_⟩
  obtain ⟨t, i, provider, state, stateValue, ht, hp⟩ := hk
  obtain ⟨t', i', provider', state', stateValue', ht', hp'⟩ := hk'
  obtain ⟨_, u, j, _, _, hu, hmints, _⟩ := hf k t i provider state stateValue ht hp
  obtain ⟨_, u', j', _, _, hu', hmints', _⟩ := hf k' t' i' provider' state' stateValue' ht' hp'
  have hstate : state = state' := by
    rw [hsame, hu'] at hu
    obtain rfl := Option.some_inj.mp hu
    exact hmints.2.1.symm.trans hmints'.2.1
  subst hstate
  have hle := not_lt.mp (FlowRun.pass_once hfresh h₀ r halone ht' hp' ht hp)
  have hge := not_lt.mp (FlowRun.pass_once hfresh h₀ r halone ht hp ht' hp')
  exact le_antisymm hle hge

end FlowRuns

/-- A configured provider and a state that is there let the callback past the check. -/
theorem passes_of_get {ι : Type} [DecidableEq ι] (env : Env) {c : FlowConfig ι} {i : ι}
    {provider state stateValue : String} {answer : Option Identity}
    (hsource : c.proc i = .callback provider state answer .start)
    (hclient : requireClient env provider = .ok ())
    (hget : c.shared.redis.get c.shared.now (stateKeyPrefix ++ state) = some stateValue) :
    Passes ⟨c, .process i (), c.next (fun _ _ => workerStep env) i ()⟩ i provider state
      stateValue := by
  have hread : readState env provider state c.shared = .stateRead stateValue := by
    unfold readState
    simp only [hclient, hget]
  refine ⟨rfl, answer, hsource, ?_⟩
  simp [Config.next, hsource, workerStep, callbackStep, hread]

theorem asciiEnv_tokenUrlsafe_injective : Function.Injective asciiEnv.tokenUrlsafe := by
  intro m n hsame
  have hstr : PyInt.str m = PyInt.str n := (String.append_right_inj _).mp hsame
  have hint := congrArg PyInt.int hstr
  rw [PyInt.int_str, PyInt.int_str] at hint
  exact Int.ofNat_inj.mp (Option.some_inj.mp hint)

/-- A login started on google, and two callbacks with its state. -/
inductive SampleRequest where
  | login
  | google
  | github
  deriving DecidableEq

def sampleWorkers : SampleRequest → Worker
  | .login => .start "google" .login .start
  | .google => .callback "google" "state0" (some ⟨"g-1", some "a@example.com"⟩) .start
  | .github => .callback "github" "state0" (some ⟨"h-1", some "b@example.com"⟩) .start

def sampleConfig : FlowConfig SampleRequest := ⟨freshServer 0, sampleWorkers⟩

def sampleStep : SampleRequest → Unit → Server → Worker → Server × Worker :=
  fun _ _ => workerStep asciiEnv

theorem sampleConfig_fresh : Fresh sampleConfig := by
  refine ⟨fun i => ?_, fun _ => rfl⟩
  cases i <;> rfl

def loginSchedule : List (SampleRequest × Unit) := [(.login, ()), (.login, ()), (.google, ())]

/-- Both callbacks read the state before either deletes it. -/
def parallelSchedule : List (SampleRequest × Unit) :=
  [(.login, ()), (.login, ()), (.google, ()), (.github, ())]

theorem callbacks_go_back_to_starts_sample :
    PassAt (playTrace sampleStep sampleConfig loginSchedule) 2 ∧
      ∃ f, StartsOf asciiEnv (playTrace sampleStep sampleConfig loginSchedule) f ∧
        Set.InjOn f {k | PassAt (playTrace sampleStep sampleConfig loginSchedule) k} := by
  have run : FlowRun asciiEnv sampleConfig (playTrace sampleStep sampleConfig loginSchedule)
      (play sampleStep sampleConfig loginSchedule) := run_play sampleStep _ _
  have alone : ∀ t ∈ playTrace sampleStep sampleConfig loginSchedule, ReadsAlone t := by
    intro t ht i provider state stateValue hp j hj hheld
    obtain ⟨hlabel, answer, hsource, _⟩ := hp
    simp only [playTrace, loginSchedule, List.mem_cons, List.not_mem_nil, or_false] at ht
    rcases ht with rfl | rfl | rfl
    · cases hlabel
      cases hsource
    · cases hlabel
      cases hsource
    · cases hlabel
      cases j with
      | login | github => exact hheld
      | google => exact hj rfl
  have pass : PassAt (playTrace sampleStep sampleConfig loginSchedule) 2 :=
    ⟨_, .google, _, _, "login", rfl, passes_of_get asciiEnv rfl rfl (by decide +kernel)⟩
  obtain ⟨f, hf, hinj⟩ :=
    callbacks_go_back_to_starts asciiEnv_tokenUrlsafe_injective sampleConfig_fresh run
  exact ⟨pass, f, hf, hinj alone⟩

theorem parallel_mints {m : Nat} {t : FlowTransition SampleRequest} {i : SampleRequest}
    {provider state : String} {mode : StartMode}
    (ht : (playTrace sampleStep sampleConfig parallelSchedule)[m]? = some t)
    (hm : Mints asciiEnv t i provider state mode) : m = 1 ∧ provider = "google" := by
  obtain ⟨hlabel, _, route, hsource⟩ := hm
  match m with
  | 0 =>
    cases ht
    cases hlabel
    cases hsource
  | 1 =>
    cases ht
    cases hlabel
    have hstart :
        Worker.start "google" .login (authorize asciiEnv "google" (freshServer 0) .login) =
          .start provider route (.admitted mode) := hsource
    exact ⟨rfl, (Worker.start.inj hstart).1.symm⟩
  | 2 =>
    cases ht
    cases hlabel
    cases hsource
  | 3 =>
    cases ht
    cases hlabel
    cases hsource
  | m + 4 => cases ht

/-- The state of a login on google lets a callback on github past the check, next to the
callback on google: two have used one start. -/
theorem mixed_up_parallel_callbacks :
    ∃ h c, FlowRun asciiEnv sampleConfig h c ∧ Fresh sampleConfig ∧
      (∃ t ∈ h, ∃ i state stateValue, Passes t i "github" state stateValue ∧
        ∀ t' ∈ h, ∀ j provider mode, Mints asciiEnv t' j provider state mode →
          provider ≠ "github") ∧
      ∀ f, StartsOf asciiEnv h f → ¬ Set.InjOn f {k | PassAt h k} := by
  have onGoogle : Passes _ SampleRequest.google "google" "state0" "login" :=
    passes_of_get asciiEnv
      (c := play sampleStep sampleConfig [(.login, ()), (.login, ())]) rfl rfl (by decide +kernel)
  have onGithub : Passes _ SampleRequest.github "github" "state0" "login" :=
    passes_of_get asciiEnv
      (c := play sampleStep sampleConfig [(.login, ()), (.login, ()), (.google, ())]) rfl rfl
      (by decide +kernel)
  refine ⟨_, _, run_play sampleStep sampleConfig parallelSchedule, sampleConfig_fresh,
    ⟨_, List.mem_of_getElem? (i := 3) rfl, _, _, _, onGithub,
      fun t' ht' j provider mode hmints => ?_⟩, fun f hf hinj => ?_⟩
  · obtain ⟨m, hm⟩ := List.mem_iff_getElem?.mp ht'
    rw [(parallel_mints hm hmints).2]
    decide
  · obtain ⟨_, t, j, _, _, ht, hmints, _⟩ := hf 2 _ _ _ _ _ rfl onGoogle
    obtain ⟨_, t', j', _, _, ht', hmints', _⟩ := hf 3 _ _ _ _ _ rfl onGithub
    have hsame : f 2 = f 3 :=
      (parallel_mints ht hmints).1.trans (parallel_mints ht' hmints').1.symm
    have hpasses := hinj ⟨_, _, _, _, _, rfl, onGoogle⟩ ⟨_, _, _, _, _, rfl, onGithub⟩ hsame
    cases hpasses

end FastApiAuth.OAuthFlow
