import FastApiAuth.RateLimiting
import FastApiAuth.Library.Processes
import Mathlib.Logic.Function.Iterate

/-!
# The rate limiter when workers die

INCR and EXPIRE are two commands, and only the call that has seen 1 sends the second
one. Any number of calls take their steps in any order and may die after each step.
A key without a deadline is safe for as long as the call that made it is still there
to date it; once that call has died, no later call ever dates the key.
-/

namespace FastApiAuth.RateLimitFaults

set_option autoImplicit false

open Processes RateLimiting

/-- How far one call has come; `counted` holds what INCR has answered. -/
inductive LimiterPc where
  | start
  | counted (current : Int)
  | finished (result : Except HttpException Unit)
  | died

/-- A step, or the end of the worker. A Redis command that fails ends the call too. -/
inductive Event where
  | go
  | die

structure LimiterCall where
  limiter : RateLimiter
  clientHost : String

def LimiterCall.key (call : LimiterCall) : String :=
  limiterKey call.limiter.scope call.clientHost

def incrStep (call : LimiterCall) (s : Server) : Server × LimiterPc :=
  match s.redis.incr s.now call.key with
  | none => (s, .finished (.error internalServerError))
  | some (current, redis) => ({ s with redis }, .counted current)

/-- EXPIRE if it is due, and the decision. -/
def expireStep (call : LimiterCall) (current : Int) (s : Server) : Server × LimiterPc :=
  let redis := if current = 1 then s.redis.expire s.now call.key call.limiter.seconds else s.redis
  ({ s with redis }, .finished
    (if current > call.limiter.times then .error tooManyRequests else .ok ()))

def limiterStep (call : LimiterCall) : Event → Server → LimiterPc → Server × LimiterPc
  | .die, s, .finished result => (s, .finished result)
  | .die, s, _ => (s, .died)
  | .go, s, .start => incrStep call s
  | .go, s, .counted current => expireStep call current s
  | .go, s, pc => (s, pc)

/-- Both steps with nothing in between are the limiter. -/
theorem alone_eq_call (call : LimiterCall) (s : Server) :
    (fun p => limiterStep call .go p.1 p.2)^[2] (s, .start) =
      ((call.limiter.call call.clientHost s).2,
        .finished (call.limiter.call call.clientHost s).1) := by
  simp only [Function.iterate_succ, Function.iterate_zero, Function.comp_apply, id_eq]
  unfold RateLimiter.call
  dsimp only [limiterStep, incrStep, LimiterCall.key, limiterKey]
  cases s.redis.incr s.now ("ratelimit:" ++ call.limiter.scope ++ ":" ++ call.clientHost) with
  | none => rfl
  | some answer =>
    by_cases hover : answer.1 > call.limiter.times
    · simp [expireStep, LimiterCall.key, limiterKey, hover]
    · simp [expireStep, LimiterCall.key, limiterKey, hover]

section ManyCalls

/-- The key belongs to some limiter. -/
def IsLimiterKey (key : String) : Prop := "ratelimit:".toList <+: key.toList

/-- Time passes and other keys are written; only limiters touch the keys of limiters. -/
def Surroundings (s s' : Server) : Prop :=
  s.now ≤ s'.now ∧ ∀ key, IsLimiterKey key → s'.redis.entry key = s.redis.entry key

abbrev LimiterConfig (ι : Type) := Config ι Server LimiterPc

abbrev LimiterTransition (ι : Type) := Runs.Transition (LimiterConfig ι) (Label ι Event)

abbrev LimiterStep {ι : Type} [DecidableEq ι] (calls : ι → LimiterCall) :
    LimiterConfig ι → Label ι Event → LimiterConfig ι → Prop :=
  Processes.Step (Computes fun i => limiterStep (calls i)) Surroundings

abbrev LimiterRun {ι : Type} [DecidableEq ι] (calls : ι → LimiterCall) :
    LimiterConfig ι → List (LimiterTransition ι) → LimiterConfig ι → Prop :=
  Runs.Run (LimiterStep calls)

def InProgress : LimiterPc → Prop
  | .counted _ => True
  | _ => False

/-- The call has made its key and not dated it yet. -/
def OwesExpire (pc : LimiterPc) : Prop := pc = .counted 1

/-- A call dies between the INCR that answered 1 and its EXPIRE. -/
def DiesUndated {ι : Type} (t : LimiterTransition ι) : Prop :=
  ∃ i, t.label = .process i .die ∧ OwesExpire (t.source.proc i)

theorem isLimiterKey_key (call : LimiterCall) : IsLimiterKey call.key := by
  simp [IsLimiterKey, LimiterCall.key, limiterKey, String.toList_append, List.append_assoc]

/-- What a step of one call does to Redis and to what the call owes. -/
inductive Move (call : LimiterCall) (s : Server) :
    Event → LimiterPc → Server → LimiterPc → Prop where
  | idle {e : Event} {pc pc' : LimiterPc} :
      ¬ OwesExpire pc → ¬ OwesExpire pc' → Move call s e pc s pc'
  | dies {pc : LimiterPc} : OwesExpire pc → Move call s .die pc s .died
  | opens {e : Event} : s.redis.find s.now call.key = none →
      Move call s e .start { s with redis := s.redis.put call.key ⟨PyInt.str 1, none⟩ } (.counted 1)
  | counts {e : Event} {entry : Entry String Instant} {n : Int} :
      s.redis.find s.now call.key = some entry → PyInt.int entry.value = some n →
      Move call s e .start
        { s with redis := s.redis.put call.key ⟨PyInt.str (n + 1), entry.deadline⟩ }
        (.counted (n + 1))
  | misses {e : Event} {pc : LimiterPc} {result : Except HttpException Unit} : OwesExpire pc →
      s.redis.find s.now call.key = none → Move call s e pc s (.finished result)
  | dates {e : Event} {pc : LimiterPc} {entry : Entry String Instant}
      {result : Except HttpException Unit} : OwesExpire pc →
      s.redis.find s.now call.key = some entry →
      Move call s e pc
        { s with
          redis := s.redis.put call.key ⟨entry.value, some (s.now + call.limiter.seconds)⟩ }
        (.finished result)

theorem limiterStep_move (call : LimiterCall) (e : Event) (s : Server) (pc : LimiterPc) :
    Move call s e pc (limiterStep call e s pc).1 (limiterStep call e s pc).2 := by
  cases e with
  | die =>
    cases pc with
    | start | finished _ | died =>
      exact .idle (by simp [OwesExpire]) (by simp [limiterStep, OwesExpire])
    | counted current =>
      by_cases howes : current = 1
      · exact .dies (congrArg LimiterPc.counted howes)
      · exact .idle (by simpa [OwesExpire] using howes) (by simp [limiterStep, OwesExpire])
  | go =>
    cases pc with
    | finished _ | died => exact .idle (by simp [OwesExpire]) (by simp [limiterStep, OwesExpire])
    | start =>
      change Move call s .go .start (incrStep call s).1 (incrStep call s).2
      unfold incrStep Redis.incr
      cases hfind : s.redis.find s.now call.key with
      | none => exact .opens hfind
      | some entry =>
        cases hint : PyInt.int entry.value with
        | none =>
          simp only [hint]
          exact .idle (by simp [OwesExpire]) (by simp [OwesExpire])
        | some n => simpa [hint] using Move.counts hfind hint
    | counted current =>
      change Move call s .go _ (expireStep call current s).1 (expireStep call current s).2
      unfold expireStep Redis.expire
      by_cases howes : current = 1
      · cases hfind : s.redis.find s.now call.key with
        | none => simpa [howes] using Move.misses (congrArg LimiterPc.counted howes) hfind
        | some entry => simpa [howes] using Move.dates (congrArg LimiterPc.counted howes) hfind
      · simpa [howes] using Move.idle (s := s) (by simpa [OwesExpire] using howes)
          (by simp [OwesExpire])

end ManyCalls

section Invariants

variable {ι : Type} [DecidableEq ι] {calls : ι → LimiterCall} {c c' : LimiterConfig ι}
variable {l : Label ι Event} {key : String}

omit [DecidableEq ι] in
theorem Move.of_computes {i : ι} {s s' : Server} {pc pc' : LimiterPc} {e : Event}
    (h : Computes (fun i => limiterStep (calls i)) i s pc e s' pc') :
    Move (calls i) s e pc s' pc' := by
  have hstep : limiterStep (calls i) e s pc = (s', pc') := h
  have hmove := limiterStep_move (calls i) e s pc
  rw [hstep] at hmove
  exact hmove

/-- In every state: a limiter's key holds a positive count, and a deadline no further
away than the window of a call on it; a call that owes the EXPIRE is the only one on
its key, which is there without a deadline. -/
structure Sound (calls : ι → LimiterCall) (c : LimiterConfig ι) : Prop where
  counts : ∀ key e, IsLimiterKey key → c.shared.redis.entry key = some e →
    ∃ n : Nat, 0 < n ∧ e.value = PyInt.str n
  deadlines : ∀ key e, IsLimiterKey key → c.shared.redis.entry key = some e →
    ∀ d ∈ e.deadline, ∃ i, (calls i).key = key ∧ d ≤ c.shared.now + (calls i).limiter.seconds
  owed : ∀ i, OwesExpire (c.proc i) →
    ∃ e, c.shared.redis.entry (calls i).key = some e ∧ e.deadline = none
  alone : ∀ i j, OwesExpire (c.proc i) → OwesExpire (c.proc j) →
    (calls i).key = (calls j).key → i = j

/-- Every key without a deadline has a call that owes it one. -/
def Dated (calls : ι → LimiterCall) (c : LimiterConfig ι) : Prop :=
  ∀ key e, IsLimiterKey key → c.shared.redis.entry key = some e → e.deadline = none →
    ∃ i, OwesExpire (c.proc i) ∧ (calls i).key = key

/-- The key is there without a deadline and no call owes it one. -/
def Stuck (calls : ι → LimiterCall) (key : String) (c : LimiterConfig ι) : Prop :=
  (∃ e, c.shared.redis.entry key = some e ∧ e.deadline = none) ∧
    ∀ i, OwesExpire (c.proc i) → (calls i).key ≠ key

theorem live_of_undated {e : Entry String Instant} (h : e.deadline = none) (now : Instant) :
    ExpiringStore.Live e now := by
  simp [ExpiringStore.Live, h]

omit [DecidableEq ι] in
/-- A key that a call owes the EXPIRE is found by INCR. -/
theorem Sound.find_owed (hc : Sound calls c) {i : ι} (howes : OwesExpire (c.proc i)) :
    ∃ e, c.shared.redis.find c.shared.now (calls i).key = some e ∧ e.deadline = none := by
  obtain ⟨e, he, hundated⟩ := hc.owed i howes
  exact ⟨e, ExpiringStore.find_eq_some_iff.mpr ⟨he, live_of_undated hundated _⟩, hundated⟩

/-- The calls that owe an EXPIRE after a step of `i`: those of before and perhaps `i`. -/
theorem owes_update {i j : ι} {pc : LimiterPc}
    (h : OwesExpire (Function.update c.proc i pc j)) :
    (j = i ∧ OwesExpire pc) ∨ (j ≠ i ∧ OwesExpire (c.proc j)) := by
  by_cases hji : j = i
  · subst hji
    exact .inl ⟨rfl, by simpa using h⟩
  · exact .inr ⟨hji, by simpa [hji] using h⟩

theorem not_owes_start : ¬ OwesExpire .start := by simp [OwesExpire]

theorem not_owes_finished {result : Except HttpException Unit} :
    ¬ OwesExpire (.finished result) := by simp [OwesExpire]

theorem not_owes_died : ¬ OwesExpire .died := by simp [OwesExpire]

omit [DecidableEq ι] in
/-- A later INCR of the window never answers 1. -/
theorem Sound.not_owes_counted (hc : Sound calls c) (hkey : IsLimiterKey key)
    {e : Entry String Instant} {n : Int}
    (hfind : c.shared.redis.find c.shared.now key = some e) (hint : PyInt.int e.value = some n) :
    (∃ m : Nat, 0 < m ∧ n + 1 = m) ∧ ¬ OwesExpire (.counted (n + 1)) := by
  obtain ⟨m, hm, hvalue⟩ := hc.counts key e hkey (ExpiringStore.find_eq_some_iff.mp hfind).1
  rw [hvalue, PyInt.int_str] at hint
  obtain rfl := Option.some_inj.mp hint
  refine ⟨⟨m + 1, by omega, by simp⟩, fun howes => ?_⟩
  have hone : (m : Int) + 1 = 1 := by simpa [OwesExpire] using howes
  omega

/-- A step that leaves Redis alone and owes nothing afterwards. -/
theorem Sound.of_quiet (hc : Sound calls c) {i : ι} {pc : LimiterPc} (hpc : ¬ OwesExpire pc) :
    Sound calls ⟨c.shared, Function.update c.proc i pc⟩ := by
  have before : ∀ j, OwesExpire (Function.update c.proc i pc j) → OwesExpire (c.proc j) := by
    intro j hj
    rcases owes_update hj with ⟨_, howes⟩ | ⟨_, hj⟩
    · exact absurd howes hpc
    · exact hj
  exact ⟨hc.counts, hc.deadlines, fun j hj => hc.owed j (before j hj),
    fun j k hj hk => hc.alone j k (before j hj) (before k hk)⟩

/-- A step that writes the key of the call. -/
theorem Sound.of_put (hc : Sound calls c) {i : ι} {pc : LimiterPc} {e : Entry String Instant}
    (hcount : ∃ n : Nat, 0 < n ∧ e.value = PyInt.str n)
    (hdeadline : ∀ d ∈ e.deadline, ∃ j, (calls j).key = (calls i).key ∧
      d ≤ c.shared.now + (calls j).limiter.seconds)
    (hothers : ∀ j ≠ i, OwesExpire (c.proc j) → (calls j).key = (calls i).key →
      e.deadline = none ∧ ¬ OwesExpire pc)
    (hown : OwesExpire pc → e.deadline = none) :
    Sound calls ⟨{ c.shared with redis := c.shared.redis.put (calls i).key e },
      Function.update c.proc i pc⟩ := by
  have hself : (c.shared.redis.put (calls i).key e).entry (calls i).key = some e :=
    ExpiringStore.entry_put_self
  refine ⟨fun key e' hkey he' => ?_, fun key e' hkey he' => ?_, fun j hj => ?_,
    fun j k hj hk hsame => ?_⟩
  · by_cases hk : key = (calls i).key
    · subst hk
      obtain rfl := Option.some_inj.mp (hself.symm.trans he')
      exact hcount
    · exact hc.counts key e' hkey ((ExpiringStore.entry_put_of_ne hk).symm.trans he')
  · by_cases hk : key = (calls i).key
    · subst hk
      obtain rfl := Option.some_inj.mp (hself.symm.trans he')
      exact hdeadline
    · exact hc.deadlines key e' hkey ((ExpiringStore.entry_put_of_ne hk).symm.trans he')
  · by_cases hk : (calls j).key = (calls i).key
    · refine ⟨e, by rw [hk]; exact hself, ?_⟩
      rcases owes_update hj with ⟨_, howes⟩ | ⟨hji, hj⟩
      · exact hown howes
      · exact (hothers j hji hj hk).1
    · rcases owes_update hj with ⟨rfl, _⟩ | ⟨_, hj⟩
      · exact absurd rfl hk
      · obtain ⟨e', he', hundated⟩ := hc.owed j hj
        exact ⟨e', (ExpiringStore.entry_put_of_ne hk).trans he', hundated⟩
  · rcases owes_update hj with ⟨rfl, hpc⟩ | ⟨hji, hj'⟩
    · rcases owes_update hk with ⟨rfl, _⟩ | ⟨hki, hk'⟩
      · rfl
      · exact absurd hpc (hothers k hki hk' hsame.symm).2
    · rcases owes_update hk with ⟨rfl, hpc⟩ | ⟨_, hk'⟩
      · exact absurd hpc (hothers j hji hj' hsame).2
      · exact hc.alone j k hj' hk' hsame

theorem Sound.step (hc : Sound calls c)
    (h : LimiterStep calls c l c') :
    Sound calls c' := by
  cases h with
  | surroundings henv =>
    obtain ⟨hnow, hsame⟩ := henv
    refine ⟨fun key e hkey he => ?_, fun key e hkey he d hd => ?_, fun i hi => ?_, hc.alone⟩
    · exact hc.counts key e hkey ((hsame key hkey).symm.trans he)
    · obtain ⟨i, hi, hle⟩ := hc.deadlines key e hkey ((hsame key hkey).symm.trans he) d hd
      exact ⟨i, hi, hle.trans (by gcongr)⟩
    · obtain ⟨e, he, hundated⟩ := hc.owed i hi
      exact ⟨e, (hsame _ (isLimiterKey_key _)).trans he, hundated⟩
  | @process i e s' pc' hi =>
    have hmove := Move.of_computes hi
    have hkey := isLimiterKey_key (calls i)
    generalize hpc : c.proc i = pc at hmove
    cases hmove with
    | idle _ hafter => exact hc.of_quiet hafter
    | dies _ => exact hc.of_quiet not_owes_died
    | misses _ _ => exact hc.of_quiet not_owes_finished
    | opens hfind =>
      refine hc.of_put ⟨1, by decide, rfl⟩ (by simp) (fun j _ hj hsame => ?_) fun _ => rfl
      obtain ⟨e, he, _⟩ := hc.find_owed hj
      rw [hsame, hfind] at he
      cases he
    | counts hfind hint =>
      obtain ⟨⟨m, hm, hn⟩, hnot⟩ := hc.not_owes_counted hkey hfind hint
      have hdeadline := hc.deadlines _ _ hkey (ExpiringStore.find_eq_some_iff.mp hfind).1
      refine hc.of_put ⟨m, hm, by rw [hn]⟩ hdeadline
        (fun j _ hj hsame => ⟨?_, hnot⟩) fun howes => absurd howes hnot
      obtain ⟨e, he, hundated⟩ := hc.find_owed hj
      rw [hsame, hfind] at he
      cases he
      exact hundated
    | dates howes hfind =>
      have hcount := hc.counts _ _ hkey (ExpiringStore.find_eq_some_iff.mp hfind).1
      refine hc.of_put hcount ?_ (fun j hji hj hsame => ?_)
        fun howes => absurd howes not_owes_finished
      · intro d hd
        obtain rfl := Option.some_inj.mp hd
        exact ⟨i, rfl, le_rfl⟩
      · exact absurd (hc.alone j i hj (hpc ▸ howes) hsame) hji

/-- A step that kills no call between its two commands leaves no key behind. -/
theorem Dated.step (hd : Dated calls c) (hc : Sound calls c)
    (h : LimiterStep calls c l c')
    (hlive : ¬ DiesUndated ⟨c, l, c'⟩) : Dated calls c' := by
  cases h with
  | surroundings henv =>
    intro key e hkey he hundated
    exact hd key e hkey ((henv.2 key hkey).symm.trans he) hundated
  | @process i e s' pc' hi =>
    have hmove := Move.of_computes hi
    have hkey := isLimiterKey_key (calls i)
    -- a call other than `i` goes on owing what it owes
    have others : ∀ {key : String} {e₁ : Entry String Instant}, IsLimiterKey key →
        c.shared.redis.entry key = some e₁ → e₁.deadline = none →
        (OwesExpire (c.proc i) → (calls i).key ≠ key) →
        ∃ k, OwesExpire (Function.update c.proc i pc' k) ∧ (calls k).key = key := by
      intro key e₁ hlimiter he hundated hother
      obtain ⟨j, hj, hk⟩ := hd key e₁ hlimiter he hundated
      have hji : j ≠ i := by
        rintro rfl
        exact hother hj hk
      exact ⟨j, by simpa [hji] using hj, hk⟩
    generalize hpc : c.proc i = pc at hmove
    intro key e₁ hlimiter he hundated
    cases hmove with
    | idle hbefore _ =>
      exact others hlimiter he hundated fun howes => absurd (hpc ▸ howes) hbefore
    | dies howes => exact absurd ⟨i, rfl, hpc ▸ howes⟩ hlive
    | misses howes hfind =>
      obtain ⟨_, he, _⟩ := hc.find_owed (i := i) (hpc ▸ howes)
      rw [hfind] at he
      cases he
    | opens hfind =>
      by_cases hk : key = (calls i).key
      · exact ⟨i, by simp [OwesExpire], hk.symm⟩
      · refine others hlimiter ((ExpiringStore.entry_put_of_ne hk).symm.trans he) hundated ?_
        exact fun _ hsame => hk hsame.symm
    | counts hfind hint =>
      by_cases hk : key = (calls i).key
      · subst hk
        obtain rfl := Option.some_inj.mp (ExpiringStore.entry_put_self.symm.trans he)
        refine others hlimiter (ExpiringStore.find_eq_some_iff.mp hfind).1 hundated ?_
        exact fun howes => absurd (hpc ▸ howes) not_owes_start
      · refine others hlimiter ((ExpiringStore.entry_put_of_ne hk).symm.trans he) hundated ?_
        exact fun _ hsame => hk hsame.symm
    | dates howes hfind =>
      by_cases hk : key = (calls i).key
      · subst hk
        obtain rfl := Option.some_inj.mp (ExpiringStore.entry_put_self.symm.trans he)
        cases hundated
      · refine others hlimiter ((ExpiringStore.entry_put_of_ne hk).symm.trans he) hundated ?_
        exact fun _ hsame => hk hsame.symm

/-- A death between the two commands leaves the key stuck. -/
theorem Stuck.of_death (hc : Sound calls c) {i : ι} (howes : OwesExpire (c.proc i))
    (h : LimiterStep calls c (.process i .die) c') : Stuck calls (calls i).key c' := by
  cases h with
  | process hi =>
    obtain ⟨e, he, hundated⟩ := hc.owed i howes
    have hdied : limiterStep (calls i) .die c.shared (c.proc i) = (c.shared, .died) := by
      rw [howes]
      rfl
    obtain ⟨rfl, rfl⟩ := Prod.mk.inj (hdied.symm.trans hi)
    refine ⟨⟨e, he, hundated⟩, fun j hj hsame => ?_⟩
    rcases owes_update hj with ⟨_, hj'⟩ | ⟨hji, hj'⟩
    · exact not_owes_died hj'
    · exact hji (hc.alone j i hj' howes hsame)

/-- Nothing ever dates a stuck key. -/
theorem Stuck.step (hs : Stuck calls key c) (hlimiter : IsLimiterKey key) (hc : Sound calls c)
    (h : LimiterStep calls c l c') :
    Stuck calls key c' := by
  obtain ⟨⟨e₁, he₁, hundated⟩, hnobody⟩ := hs
  have hfound : c.shared.redis.find c.shared.now key = some e₁ :=
    ExpiringStore.find_eq_some_iff.mpr ⟨he₁, live_of_undated hundated _⟩
  cases h with
  | surroundings henv => exact ⟨⟨e₁, (henv.2 key hlimiter).trans he₁, hundated⟩, hnobody⟩
  | @process i e s' pc' hi =>
    have hmove := Move.of_computes hi
    have quiet : (¬ OwesExpire pc' ∨ (calls i).key ≠ key) →
        ∀ j, OwesExpire (Function.update c.proc i pc' j) → (calls j).key ≠ key := by
      intro hquiet j hj
      rcases owes_update hj with ⟨rfl, howes⟩ | ⟨_, hj'⟩
      · exact hquiet.resolve_left (not_not.mpr howes)
      · exact hnobody j hj'
    generalize hpc : c.proc i = pc at hmove
    cases hmove with
    | idle _ hafter => exact ⟨⟨e₁, he₁, hundated⟩, quiet (.inl hafter)⟩
    | dies _ => exact ⟨⟨e₁, he₁, hundated⟩, quiet (.inl not_owes_died)⟩
    | misses _ _ => exact ⟨⟨e₁, he₁, hundated⟩, quiet (.inl not_owes_finished)⟩
    | opens hfind =>
      have hk : key ≠ (calls i).key := by
        rintro rfl
        rw [hfound] at hfind
        cases hfind
      exact ⟨⟨e₁, (ExpiringStore.entry_put_of_ne hk).trans he₁, hundated⟩, quiet (.inr hk.symm)⟩
    | counts hfind hint =>
      by_cases hk : key = (calls i).key
      · subst hk
        have hnot := (hc.not_owes_counted hlimiter hfind hint).2
        rw [hfound] at hfind
        obtain rfl := Option.some_inj.mp hfind
        exact ⟨⟨_, ExpiringStore.entry_put_self, hundated⟩, quiet (.inl hnot)⟩
      · exact ⟨⟨e₁, (ExpiringStore.entry_put_of_ne hk).trans he₁, hundated⟩,
          quiet (.inr fun hsame => hk hsame.symm)⟩
    | dates howes _ =>
      have hk : key ≠ (calls i).key := fun hsame => hnobody i (hpc ▸ howes) hsame.symm
      exact ⟨⟨e₁, (ExpiringStore.entry_put_of_ne hk).trans he₁, hundated⟩,
        quiet (.inl not_owes_finished)⟩

/-- A step of a call on another key leaves the key as it is. -/
theorem entry_of_other (hlimiter : IsLimiterKey key)
    (h : LimiterStep calls c l c')
    (hother : ∀ i e, l = .process i e → (calls i).key ≠ key) :
    c'.shared.redis.entry key = c.shared.redis.entry key := by
  cases h with
  | surroundings henv => exact henv.2 key hlimiter
  | @process i e s' pc' hi =>
    have hmove := Move.of_computes hi
    have hk : key ≠ (calls i).key := fun hsame => hother i e rfl hsame.symm
    generalize c.proc i = pc at hmove
    cases hmove with
    | idle _ _ | dies _ | misses _ _ => rfl
    | opens _ | counts _ _ | dates _ _ => exact ExpiringStore.entry_put_of_ne hk

end Invariants

section Runs

/-- No call has begun, and no limiter has a key. -/
def Fresh {ι : Type} (c : LimiterConfig ι) : Prop :=
  (∀ i, c.proc i = .start) ∧ ∀ key, IsLimiterKey key → c.shared.redis.entry key = none

end Runs

section LimiterRuns

variable {ι : Type} [DecidableEq ι] {calls : ι → LimiterCall} {c₀ c c' : LimiterConfig ι}
variable {h h' : List (LimiterTransition ι)}

omit [DecidableEq ι] in
theorem Fresh.sound (h₀ : Fresh c₀) : Sound calls c₀ := by
  have idle : ∀ i, ¬ OwesExpire (c₀.proc i) := by
    intro i hi
    rw [h₀.1 i] at hi
    exact not_owes_start hi
  refine ⟨fun key e hkey he => ?_, fun key e hkey he => ?_, fun i hi => absurd hi (idle i),
    fun i _ hi => absurd hi (idle i)⟩
  · rw [h₀.2 key hkey] at he
    cases he
  · rw [h₀.2 key hkey] at he
    cases he

omit [DecidableEq ι] in
theorem Fresh.dated (h₀ : Fresh c₀) : Dated calls c₀ := by
  intro key e hkey he
  rw [h₀.2 key hkey] at he
  cases he

theorem LimiterRun.sound (h₀ : Fresh c₀) (r : LimiterRun calls c₀ h c) : Sound calls c :=
  Runs.Run.invariant h₀.sound (fun hc hstep => hc.step hstep) r

theorem LimiterRun.dated (h₀ : Fresh c₀) (r : LimiterRun calls c₀ h c)
    (hlive : ∀ t ∈ h, ¬ DiesUndated t) : Dated calls c := by
  refine Runs.Run.guarded_invariant (I := fun _ c => Dated calls c)
    (G := fun _ t => ¬ DiesUndated t) h₀.dated ?_ r (Runs.guarded_of_forall_mem hlive)
  intro h c l c' r hd hstep hlives
  exact hd.step (LimiterRun.sound h₀ r) hstep hlives

/-- The key of a call that has died undated is stuck at the end of the run. -/
theorem LimiterRun.stuck (h₀ : Fresh c₀) (r : LimiterRun calls c₀ h c)
    {t : LimiterTransition ι} (ht : t ∈ h) (hdies : DiesUndated t) :
    ∃ i, Stuck calls (calls i).key c := by
  obtain ⟨i, hlabel, howes⟩ := hdies
  obtain ⟨before, hp, rb, hstep⟩ := Runs.Run.step_of_mem r ht
  rw [hlabel] at hstep
  have hafter := Stuck.of_death (LimiterRun.sound h₀ rb) howes hstep
  refine ⟨i, Runs.Run.persist r ?_ hp (rb.snoc (hlabel ▸ hstep)) hafter⟩
  intro u hu hstuck
  obtain ⟨_, _, ru, hu⟩ := Runs.Run.step_of_mem r hu
  exact hstuck.step (isLimiterKey_key _) (LimiterRun.sound h₀ ru) hu

/-- A call that finds no key, or an expired one, is admitted. -/
theorem admitted_of_find_none {call : LimiterCall} {s : Server} (htimes : 1 ≤ call.limiter.times)
    (hfind : s.redis.find s.now call.key = none) :
    (call.limiter.call call.clientHost s).1 = .ok () := by
  rw [call_opens hfind]
  exact if_pos htimes

/-- A key that has no deadline and has counted to the bound refuses for ever. -/
theorem refused_of_undated {call : LimiterCall} {s : Server} {n : Nat} (hn : 0 < n)
    (htimes : call.limiter.times ≤ n)
    (hentry : s.redis.entry call.key = some ⟨PyInt.str n, none⟩) (now : Instant) :
    (call.limiter.call call.clientHost { s with now }).1 = .error tooManyRequests := by
  have hfind : s.redis.find now call.key = some ⟨PyInt.str n, none⟩ :=
    ExpiringStore.find_eq_some_iff.mpr ⟨hentry, live_of_undated rfl now⟩
  have hcall := @call_counts call.limiter call.clientHost { s with now } n none hn hfind
  exact (congrArg Prod.fst hcall).trans (if_neg (not_lt.mpr htimes))

theorem LimiterRun.entry_of_other {key : String} (hlimiter : IsLimiterKey key)
    (r : LimiterRun calls c h c')
    (hothers : ∀ t ∈ h, ∀ i e, t.label = .process i e → (calls i).key ≠ key) :
    c'.shared.redis.entry key = c.shared.redis.entry key := by
  refine Runs.Run.persist (P := fun d => d.shared.redis.entry key = c.shared.redis.entry key)
    r ?_ (List.nil_prefix) .start rfl
  intro t ht hbefore
  obtain ⟨_, _, _, hstep⟩ := Runs.Run.step_of_mem r ht
  exact (RateLimitFaults.entry_of_other hlimiter hstep (hothers t ht)).trans hbefore

omit [DecidableEq ι] in
theorem not_owes_of_idle {i : ι} (hidle : ¬ InProgress (c.proc i)) : ¬ OwesExpire (c.proc i) := by
  intro howes
  rw [howes] at hidle
  exact hidle trivial

/-- A key that no call owes a deadline has one. -/
theorem LimiterRun.deadline (h₀ : Fresh c₀) (r : LimiterRun calls c₀ h c)
    (hlive : ∀ t ∈ h, ¬ DiesUndated t) {key : String} {e : Entry String Instant}
    (hlimiter : IsLimiterKey key) (he : c.shared.redis.entry key = some e)
    (hidle : ∀ i, (calls i).key = key → ¬ InProgress (c.proc i)) :
    ∃ i, (calls i).key = key ∧
      ∃ d ∈ e.deadline, d ≤ c.shared.now + (calls i).limiter.seconds := by
  cases hdeadline : e.deadline with
  | none =>
    obtain ⟨i, howes, hkey⟩ := LimiterRun.dated h₀ r hlive key e hlimiter he hdeadline
    exact absurd howes (not_owes_of_idle (hidle i hkey))
  | some d =>
    obtain ⟨i, hkey, hle⟩ := (LimiterRun.sound h₀ r).deadlines key e hlimiter he d hdeadline
    exact ⟨i, hkey, d, rfl, hle⟩

/-- Whatever the order of the commands and the deaths: with no call in progress, the keys
of the limiters all have a deadline within `seconds` if and only if no call has died
between the INCR that answered 1 and its EXPIRE. As long as none has, a client is
admitted whenever no request has used its key for `seconds`. -/
theorem no_permanent_lockout_iff (h₀ : Fresh c₀) (r : LimiterRun calls c₀ h c) :
    ((∀ i, ¬ InProgress (c.proc i)) →
      ((∀ key e, IsLimiterKey key → c.shared.redis.find c.shared.now key = some e →
          ∃ i, (calls i).key = key ∧
            ∃ d ∈ e.deadline, d ≤ c.shared.now + (calls i).limiter.seconds) ↔
        ∀ t ∈ h, ¬ DiesUndated t)) ∧
    ((∀ t ∈ h, ¬ DiesUndated t) → ∀ i h' c', 1 ≤ (calls i).limiter.times →
      (∀ j, (calls j).key = (calls i).key → ¬ InProgress (c.proc j)) →
      LimiterRun calls c h' c' →
      (∀ t ∈ h', ∀ j e, t.label = .process j e → (calls j).key ≠ (calls i).key) →
      (∀ j, (calls j).key = (calls i).key →
        c.shared.now + (calls j).limiter.seconds ≤ c'.shared.now) →
      ((calls i).limiter.call (calls i).clientHost c'.shared).1 = .ok ()) := by
  refine ⟨fun hidle => ⟨fun hdated t ht hdies => ?_, fun hlive key e hlimiter hfind => ?_⟩,
    fun hlive i h' c' htimes hidle r' hothers hwaits => ?_⟩
  · obtain ⟨i, ⟨e, he, hundated⟩, _⟩ := LimiterRun.stuck h₀ r ht hdies
    have hfind : c.shared.redis.find c.shared.now (calls i).key = some e :=
      ExpiringStore.find_eq_some_iff.mpr ⟨he, live_of_undated hundated _⟩
    obtain ⟨_, _, d, hd, _⟩ := hdated _ e (isLimiterKey_key _) hfind
    rw [hundated] at hd
    cases hd
  · exact LimiterRun.deadline h₀ r hlive hlimiter (ExpiringStore.find_eq_some_iff.mp hfind).1
      fun i _ => hidle i
  · have hlimiter := isLimiterKey_key (calls i)
    refine admitted_of_find_none htimes (ExpiringStore.find_eq_none_iff.mpr fun e he hlives => ?_)
    rw [LimiterRun.entry_of_other hlimiter r' hothers] at he
    obtain ⟨j, hkey, d, hd, hle⟩ := LimiterRun.deadline h₀ r hlive hlimiter he hidle
    exact absurd (hlives d hd) (not_lt.mpr (hle.trans (hwaits j hkey)))

end LimiterRuns

/-- Six logins from one address, with the bounds of the login route. -/
def sampleCalls : Fin 6 → LimiterCall := fun _ =>
  { limiter := { times := 5, seconds := 60, scope := "login" }, clientHost := "10.0.0.1" }

def sampleConfig : LimiterConfig (Fin 6) := ⟨idleServer, fun _ => .start⟩

def sampleStep : Fin 6 → Event → Server → LimiterPc → Server × LimiterPc :=
  fun i => limiterStep (sampleCalls i)

theorem sampleConfig_fresh : Fresh sampleConfig := ⟨fun _ => rfl, fun _ _ => rfl⟩

/-- The first call makes the key and dates it. -/
def datedSchedule : List (Fin 6 × Event) := [(0, .go), (0, .go)]

/-- The first call makes the key and dies, the other five run to their end. -/
def undatedSchedule : List (Fin 6 × Event) :=
  [(0, .go), (0, .die), (1, .go), (1, .go), (2, .go), (2, .go), (3, .go), (3, .go), (4, .go),
    (4, .go), (5, .go), (5, .go)]

instance : DecidablePred InProgress := fun pc =>
  match pc with
  | .counted _ => isTrue trivial
  | .start | .finished _ | .died => isFalse id

theorem no_permanent_lockout_iff_sample :
    (((sampleCalls 0).limiter.call (sampleCalls 0).clientHost
      { (play sampleStep sampleConfig datedSchedule).shared with now := 60 }).1) = .ok () := by
  have run : LimiterRun sampleCalls sampleConfig
      (playTrace sampleStep sampleConfig datedSchedule)
      (play sampleStep sampleConfig datedSchedule) := run_play sampleStep _ _
  have live : ∀ t ∈ playTrace sampleStep sampleConfig datedSchedule, ¬ DiesUndated t := by
    intro t ht hdies
    obtain ⟨i, hlabel, _⟩ := hdies
    simp only [playTrace, datedSchedule, List.mem_cons, List.not_mem_nil, or_false] at ht
    rcases ht with rfl | rfl <;> cases hlabel
  have wait : LimiterRun sampleCalls (play sampleStep sampleConfig datedSchedule) _
      ⟨{ (play sampleStep sampleConfig datedSchedule).shared with now := 60 },
        (play sampleStep sampleConfig datedSchedule).proc⟩ :=
    Runs.Run.single (.surroundings ⟨by decide +kernel, fun _ _ => rfl⟩)
  have idle : ∀ j, (sampleCalls j).key = (sampleCalls 0).key →
      ¬ InProgress ((play sampleStep sampleConfig datedSchedule).proc j) := by decide +kernel
  have admitted :=
    (no_permanent_lockout_iff sampleConfig_fresh run).2 live 0 _ _ (by decide) idle wait
  refine admitted ?_ ?_
  · intro t ht j e hlabel
    obtain rfl := List.mem_singleton.mp ht
    cases hlabel
  · decide +kernel

/-- Nobody is at work, the key has no deadline, and the address is refused at every
later instant. -/
theorem dead_worker_locks_out :
    ∃ h c, Fresh sampleConfig ∧ LimiterRun sampleCalls sampleConfig h c ∧
      (∀ i, ¬ InProgress (c.proc i)) ∧
      (∃ e, c.shared.redis.find c.shared.now (sampleCalls 0).key = some e ∧ e.deadline = none) ∧
      ∀ now : Instant, c.shared.now ≤ now →
        ((sampleCalls 0).limiter.call (sampleCalls 0).clientHost { c.shared with now }).1 =
          .error tooManyRequests := by
  have hentry : (play sampleStep sampleConfig undatedSchedule).shared.redis.entry
      (sampleCalls 0).key = some ⟨PyInt.str (6 : Nat), none⟩ := by rfl
  have hfind : ExpiringStore.find (play sampleStep sampleConfig undatedSchedule).shared.redis
      (play sampleStep sampleConfig undatedSchedule).shared.now (sampleCalls 0).key =
        some ⟨PyInt.str (6 : Nat), none⟩ :=
    ExpiringStore.find_eq_some_iff.mpr ⟨hentry, live_of_undated rfl _⟩
  exact ⟨_, _, sampleConfig_fresh, run_play sampleStep sampleConfig undatedSchedule,
    by decide +kernel, ⟨_, hfind, rfl⟩,
    fun now _ => refused_of_undated (by decide) (by decide) hentry now⟩

end FastApiAuth.RateLimitFaults
