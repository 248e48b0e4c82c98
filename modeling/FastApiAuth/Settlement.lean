import FastApiAuth.Deliveries

/-!
# No message is stuck

As long as a call, or what a listener has of it, is under way, some step of it is possible,
and from every reachable state the workers can bring it to an end.
-/

namespace FastApiAuth.Settlement

set_option autoImplicit false

open PyJson Function Deliveries

universe u

section Pending

variable {ι : Type u} {s : Hub ι}

/-- Every loop that is under way has a socket before it. -/
structure Busy (s : Hub ι) : Prop where
  call : ∀ c call, s.calls c = some call → call.phase ≠ .sending []
  listener : ∀ w item json, (s.listeners w).phase ≠ .sending item json []

theorem listenerPhase_ne_sending_nil (item item' : Item) (json json' : Json)
    (remaining : List Socket) :
    Hub.listenerPhase item json remaining ≠ .sending item' json' [] := by
  unfold Hub.listenerPhase
  split
  · nofun
  · rename_i hsome
    intro heq
    exact hsome (ListenerPhase.sending.inj heq).2.2

theorem listener_ne_sending_nil {w : ι} {l : Listener} (hs : Busy s)
    (hm : ListenerMove s w l) (item : Item) (json : Json) : l.phase ≠ .sending item json [] := by
  cases hm with
  | stays | hears => exact hs.listener w item json
  | idles | stops => nofun
  | takes | forwards => exact listenerPhase_ne_sending_nil _ _ _ _ _

/-- What is left of a call's work, and of a listener's on the message in its hands. -/
def callWork : Option (Call ι) → Nat
  | some call =>
    match call.phase with
    | .sending remaining => remaining.length
    | .publishing => 1
  | none => 0

def phaseWork : ListenerPhase → Nat
  | .sending _ _ remaining => remaining.length
  | _ => 0

theorem callWork_continued {call : Call ι} {remaining : List Socket} :
    callWork (call.continued remaining) = remaining.length := by
  unfold Call.continued
  split
  · rename_i hnil
    rw [hnil]
    rfl
  · rfl

theorem phaseWork_listenerPhase {item : Item} {json : Json} {remaining : List Socket} :
    phaseWork (Hub.listenerPhase item json remaining) = remaining.length := by
  unfold Hub.listenerPhase
  split
  · rename_i hnil
    rw [hnil]
    rfl
  · rfl

theorem length_filter_lt {x : Socket} {remaining : List Socket} (hx : x ∈ remaining) :
    (remaining.filter fun y => y ≠ x).length < remaining.length := by
  refine List.length_filter_lt_length_iff_exists.mpr ⟨x, hx, ?_⟩
  simp

/-- Sending is possible: it raises when the frame cannot be encoded, and can go well
otherwise. -/
theorem mayRaise_not_encodable (s : Hub ι) (x : Socket) (frame : Json) :
    mayRaise s x frame (!frame.encodable) = true := by
  unfold mayRaise
  cases frame.encodable <;> simp

end Pending

section Steps

variable {env : Env} {ι : Type u} [DecidableEq ι] {server : Server} {s s' s₁ : Hub ι}
variable {event : HubEvent ι} {h : List (HubTransition ι)} {c : Nat} {w : ι}

theorem call_ne_sending_nil (hs : Busy s) (hm : TrafficMove s event s₁) {call : Call ι}
    (hc : s₁.calls c = some call) : call.phase ≠ .sending [] := by
  cases hm with
  | quiet | subscribed | dropped | taken | forwardRaised | crashed => exact hs.call c call hc
  | begun =>
    rcases calls_of_setCall hc with hc | ⟨_, hnew⟩
    · exact hs.call c call hc
    · cases hnew
      dsimp only
      split
      · nofun
      · rename_i hsome
        exact fun hnil => hsome (CallPhase.sending.inj hnil)
  | answered => exact hs.call c call (deliver_calls _ _ _ _ ▸ hc)
  | sendRaised =>
    rcases calls_of_setCall hc with hc | ⟨_, hnew⟩
    · exact hs.call c call hc
    · cases hnew
  | sent =>
    rcases calls_of_setCall hc with hc | ⟨_, hnew⟩
    · exact hs.call c call (deliver_calls _ _ _ _ ▸ hc)
    · unfold Call.continued at hnew
      split at hnew
      · cases hnew
      · rename_i hsome
        cases hnew
        exact fun hnil => hsome (CallPhase.sending.inj hnil)
  | @published _ _ up =>
    rcases calls_of_setCall hc with hc | ⟨_, hnew⟩
    · cases up <;> exact hs.call c call hc
    · cases hnew
  | forwarded => exact hs.call c call (deliver_calls _ _ _ _ ▸ hc)

theorem run_busy (r : HubRun env (Hub.start server) h s) : Busy s := by
  have hstart : Busy (Hub.start server : Hub ι) := by
    constructor
    · intro c call hcall
      cases hcall
    · intro w item json hphase
      cases hphase
  refine r.invariant hstart ?_
  intro s event s' hs hstep
  obtain ⟨s₁, htraffic, hsame⟩ := (hub_move hstep).traffic
  constructor
  · intro c call hc
    exact call_ne_sending_nil hs htraffic (hsame.calls ▸ hc)
  · intro w item json
    rw [hsame.listeners]
    exact listener_ne_sending_nil hs (htraffic.listeners w) item json

/-- A call can always take a step. -/
theorem call_progresses (env : Env) (hs : Busy s) {call : Call ι} (hcall : s.calls c = some call) :
    ∃ event s', HubStep env s event s' ∧ callWork (s'.calls c) < callWork (s.calls c) := by
  cases hphase : call.phase with
  | publishing =>
    have hwork : callWork (s.calls c) = 1 := by
      rw [hcall, callWork, hphase]
    refine ⟨.publish c true, (s.fanOut (Hub.itemOf c call)).finishCall c call, ?_, ?_⟩
    · simp only [HubStep, hubStep, hcall, hphase, if_true]
    · rw [hwork, (finishCall_traffic _ _ _).calls, setCall_self]
      exact Nat.one_pos
  | sending remaining =>
    cases remaining with
    | nil => exact absurd hphase (hs.call c call hcall)
    | cons x rest =>
      have hwork : callWork (s.calls c) = (x :: rest).length := by
        rw [hcall, callWork, hphase]
      have hraise := mayRaise_not_encodable s x call.message.toJson
      cases hencodable : call.message.toJson.encodable with
      | false =>
        rw [hencodable] at hraise
        refine ⟨.send c x true, s.abortCall c call, ?_, ?_⟩
        · simp only [HubStep, hubStep, hcall, hphase, List.mem_cons_self, true_and]
          exact if_pos hraise
        · rw [hwork, (abortCall_traffic _ _ _).calls, setCall_self]
          exact Nat.succ_pos _
      | true =>
        rw [hencodable] at hraise
        refine ⟨.send c x false, (s.deliver x (some c) call.message.toJson).continueCall c call
          ((x :: rest).filter fun y => y ≠ x), ?_, ?_⟩
        · simp only [HubStep, hubStep, hcall, hphase, List.mem_cons_self, true_and]
          exact if_pos hraise
        · rw [hwork, (continueCall_traffic _ _ _ _).calls, setCall_self,
            callWork_continued]
          exact length_filter_lt List.mem_cons_self

/-- The listener has fewer messages in its queue, or as many and fewer sockets to serve. -/
def Lighter (l' l : Listener) : Prop :=
  Prod.Lex (· < ·) (· < ·) (l'.queue.length, phaseWork l'.phase)
    (l.queue.length, phaseWork l.phase)

/-- Some step leaves the listener lighter, and the calls as they are. -/
def Lightens (env : Env) (w : ι) (s : Hub ι) : Prop :=
  ∃ event s', HubStep env s event s' ∧ s'.calls = s.calls ∧
    Lighter (s'.listeners w) (s.listeners w)

theorem setListener_self (s : Hub ι) (w : ι) (l : Listener) :
    (s.setListener w l).listeners w = l := update_self _ _ _

theorem lightens_listening {item : Item} {queue : List Item}
    (hphase : (s.listeners w).phase = .listening) (hqueue : (s.listeners w).queue = item :: queue) :
    Lightens env w s := by
  have hl : ∃ l : Listener, HubStep env s (.listen w) (s.setListener w l) ∧ l.queue = queue := by
    cases hread : readItem item with
    | none =>
      refine ⟨⟨.listening, queue⟩, ?_, rfl⟩
      simp only [HubStep, hubStep, hphase, hqueue, hread]
    | some found =>
      refine ⟨⟨Hub.listenerPhase item found.2 (s.connections w found.1), queue⟩, ?_, rfl⟩
      simp only [HubStep, hubStep, hphase, hqueue, hread]
  obtain ⟨l, hstep, rfl⟩ := hl
  refine ⟨.listen w, _, hstep, rfl, ?_⟩
  rw [setListener_self, Lighter, hqueue]
  exact .left _ _ (Nat.lt_succ_self _)

theorem lightens_sending {item : Item} {json : Json} {x : Socket} {rest : List Socket}
    (hphase : (s.listeners w).phase = .sending item json (x :: rest)) : Lightens env w s := by
  have hraise := mayRaise_not_encodable s x json
  cases hencodable : json.encodable with
  | false =>
    rw [hencodable] at hraise
    refine ⟨.forward w x true, s.setListener w ⟨.down, []⟩, ?_, rfl, ?_⟩
    · simp only [HubStep, hubStep, hphase, List.mem_cons_self, true_and]
      exact if_pos hraise
    · rw [setListener_self, Lighter, hphase]
      cases (s.listeners w).queue with
      | nil => exact .right _ (Nat.succ_pos _)
      | cons => exact .left _ _ (Nat.succ_pos _)
  | true =>
    rw [hencodable] at hraise
    refine ⟨.forward w x false, (s.deliver x (some item.call) json).setListener w
      ⟨Hub.listenerPhase item json ((x :: rest).filter fun y => y ≠ x),
        (s.listeners w).queue⟩, ?_, deliver_calls _ _ _ _, ?_⟩
    · simp only [HubStep, hubStep, hphase, List.mem_cons_self, true_and]
      exact if_pos hraise
    · rw [setListener_self, Lighter, hphase, phaseWork_listenerPhase]
      exact .right _ (length_filter_lt List.mem_cons_self)

/-- So can a listener that has something to forward. -/
theorem listener_progresses (env : Env) (hs : Busy s)
    (hidle : (s.listeners w).phase = .down → (s.listeners w).queue = [])
    (hsome : (s.listeners w).queue ≠ [] ∨
      ∃ item json remaining, (s.listeners w).phase = .sending item json remaining) :
    Lightens env w s := by
  cases hphase : (s.listeners w).phase with
  | down =>
    rcases hsome with hsome | ⟨_, _, _, hsending⟩
    · exact absurd (hidle hphase) hsome
    · cases hphase.symm.trans hsending
  | listening =>
    cases hqueue : (s.listeners w).queue with
    | nil =>
      rcases hsome with hsome | ⟨_, _, _, hsending⟩
      · exact absurd hqueue hsome
      · cases hphase.symm.trans hsending
    | cons item queue => exact lightens_listening hphase hqueue
  | sending item json remaining =>
    cases remaining with
    | nil => exact absurd hphase (hs.listener w item json)
    | cons x rest => exact lightens_sending hphase

/-- What is under way for a worker, call first. -/
def pendingWork (c : Nat) (w : ι) (s : Hub ι) : Nat × Nat × Nat :=
  (callWork (s.calls c), (s.listeners w).queue.length, phaseWork (s.listeners w).phase)

theorem unsettled_progresses (r : HubRun env (Hub.start server) h s) (hun : ¬ Settled c w s) :
    ∃ event s', HubStep env s event s' ∧
      Prod.Lex (· < ·) (Prod.Lex (· < ·) (· < ·)) (pendingWork c w s') (pendingWork c w s) := by
  cases hcall : s.calls c with
  | some call =>
    obtain ⟨event, s', hstep, hless⟩ := call_progresses env (run_busy r) hcall
    exact ⟨event, s', hstep, .left _ _ hless⟩
  | none =>
    have hsome : (s.listeners w).queue ≠ [] ∨
        ∃ item json remaining, (s.listeners w).phase = .sending item json remaining := by
      by_contra hnone
      rw [not_or, not_not] at hnone
      refine hun ⟨hcall, fun item hitem => ?_, fun item json remaining hphase => ?_⟩
      · rw [hnone.1] at hitem
        cases hitem
      · exact absurd ⟨item, json, remaining, hphase⟩ hnone.2
    obtain ⟨event, s', hstep, hcalls, hless⟩ :=
      listener_progresses env (run_busy r) (run_idle r w) hsome
    refine ⟨event, s', hstep, ?_⟩
    unfold pendingWork
    rw [hcalls]
    exact .right _ hless

/-- From wherever a run has led, the workers can settle any call. -/
theorem can_settle (r : HubRun env (Hub.start server) h s) (c : Nat) (w : ι) :
    ∃ h' s', HubRun env s h' s' ∧ Settled c w s' := by
  have wf : WellFounded (Prod.Lex (· < ·) (Prod.Lex (· < ·) (· < ·)) :
      Nat × Nat × Nat → Nat × Nat × Nat → Prop) :=
    WellFounded.prod_lex Nat.lt_wfRel.wf (WellFounded.prod_lex Nat.lt_wfRel.wf Nat.lt_wfRel.wf)
  refine Runs.exists_run_to wf (pendingWork c w)
    (I := fun s => ∃ h, HubRun env (Hub.start server) h s) ?_ s ⟨h, r⟩
  rintro s ⟨h, r⟩ hun
  obtain ⟨event, s', hstep, hless⟩ := unsettled_progresses r hun
  exact ⟨event, s', hstep, ⟨_, r.snoc hstep⟩, hless⟩

end Steps

end FastApiAuth.Settlement
