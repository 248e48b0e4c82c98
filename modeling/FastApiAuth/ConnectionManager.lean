import FastApiAuth.HubMoves
import Mathlib.Data.Finset.Insert

/-!
# app/services/connection_manager.py, one await at a time

The dictionary of sets as the code keeps it, with a missing key told apart from an empty set,
under any number of calls of connect and send_local. A call runs from one await to the next;
disconnect has no await and runs at once, wherever it is called.
-/

namespace FastApiAuth.ConnectionManager

set_option autoImplicit false

universe u v w

section Manager

/-- `self._connections`; none where the key is missing. -/
structure Manager (U : Type u) (S : Type v) where
  connections : U → Option (Finset S)

end Manager

namespace Manager

variable {U : Type u} {S : Type v}

def new : Manager U S := ⟨fun _ => none⟩

def isConnectedLocally [DecidableEq S] (m : Manager U S) (userId : U) : Bool :=
  match m.connections userId with
  | none => false
  | some connections => connections ≠ ∅

/-- The sockets the manager has for the user. -/
def registered (m : Manager U S) (userId : U) : Finset S := (m.connections userId).getD ∅

theorem isConnectedLocally_iff [DecidableEq S] (m : Manager U S) (userId : U) :
    m.isConnectedLocally userId = true ↔ m.registered userId ≠ ∅ := by
  unfold isConnectedLocally registered
  cases m.connections userId <;> simp

variable [DecidableEq U] [DecidableEq S]

/-- `self._connections[user_id].add(websocket)` on a defaultdict -/
def add (m : Manager U S) (userId : U) (websocket : S) : Manager U S :=
  ⟨Function.update m.connections userId
    (some (insert websocket ((m.connections userId).getD ∅)))⟩

def disconnect (m : Manager U S) (userId : U) (websocket : S) : Manager U S :=
  match m.connections userId with
  | none => m
  | some connections =>
    let connections := connections.erase websocket
    if connections = ∅ then ⟨Function.update m.connections userId none⟩
    else ⟨Function.update m.connections userId (some connections)⟩

variable {m : Manager U S} {userId userId' : U} {websocket x : S}

theorem mem_registered_add :
    x ∈ (m.add userId websocket).registered userId' ↔
      (userId' = userId ∧ x = websocket) ∨ x ∈ m.registered userId' := by
  unfold registered add
  by_cases hu : userId' = userId
  · subst hu
    simp
  · simp [hu]

theorem mem_registered_disconnect :
    x ∈ (m.disconnect userId websocket).registered userId' ↔
      x ∈ m.registered userId' ∧ ¬ (userId' = userId ∧ x = websocket) := by
  unfold registered disconnect
  cases hc : m.connections userId with
  | none =>
    have habsent : userId' = userId → x ∉ (m.connections userId').getD ∅ := by
      rintro rfl
      simp [hc]
    constructor
    · intro hx
      exact ⟨hx, fun hboth => habsent hboth.1 hx⟩
    · exact And.left
  | some connections =>
    by_cases hu : userId' = userId
    · subst hu
      by_cases hempty : connections.erase websocket = ∅
      · have honly : x ∈ connections → x = websocket := by
          intro hx
          by_contra hne
          have hmem : x ∈ connections.erase websocket := Finset.mem_erase.mpr ⟨hne, hx⟩
          simp [hempty] at hmem
        simp only [hempty, if_true, Function.update_self, hc, Option.getD_none, Option.getD_some,
          Finset.notMem_empty, true_and, false_iff, not_and, not_not]
        exact honly
      · simp [hempty, hc, and_comm]
    · by_cases hempty : connections.erase websocket = ∅ <;> simp [hempty, hu]

/-- No key has an empty set. -/
def NoEmptySet (m : Manager U S) : Prop := ∀ userId, m.connections userId ≠ some ∅

theorem NoEmptySet.add (h : m.NoEmptySet) : (m.add userId websocket).NoEmptySet := by
  intro userId'
  unfold Manager.add
  by_cases hu : userId' = userId
  · subst hu
    simp
  · simp only [Function.update_of_ne hu]
    exact h userId'

theorem NoEmptySet.disconnect (h : m.NoEmptySet) :
    (m.disconnect userId websocket).NoEmptySet := by
  intro userId'
  unfold Manager.disconnect
  cases hc : m.connections userId with
  | none => exact h userId'
  | some connections =>
    by_cases hu : userId' = userId
    · subst hu
      by_cases hempty : connections.erase websocket = ∅ <;> simp [hempty]
    · by_cases hempty : connections.erase websocket = ∅ <;>
        simp only [hempty, if_true, if_false, Function.update_of_ne hu] <;> exact h userId'

end Manager

section Awaits

inductive Task (U : Type u) (S : Type v) where
  | ready
  /-- connect, in `await websocket.accept()` -/
  | accepting (userId : U) (websocket : S)
  /-- send_local, in `await websocket.send_json(message)`, with the sockets still to come -/
  | sending (userId : U) (remaining : List S)
  | returned (answer : Bool)
  | ended

/-- The manager, the calls of its coroutines, and what they have sent to which socket. -/
structure Loop (ι : Type w) (U : Type u) (S : Type v) where
  manager : Manager U S
  tasks : ι → Task U S
  sent : List (ι × S)

inductive Event (ι : Type w) (U : Type u) (S : Type v) where
  | connect (i : ι) (userId : U) (websocket : S)
  | accepted (i : ι)
  | disconnect (userId : U) (websocket : S)
  /-- `order` is the list that `list(connections)` makes of the set. -/
  | sendLocal (i : ι) (userId : U) (order : List S)
  | delivered (i : ι)
  /-- The await of the call raises. -/
  | raises (i : ι)

end Awaits

section Steps

variable {ι : Type w} {U : Type u} {S : Type v} [DecidableEq ι] [DecidableEq U] [DecidableEq S]

def Loop.start : Loop ι U S := ⟨.new, fun _ => .ready, []⟩

def Loop.setTask (s : Loop ι U S) (i : ι) (task : Task U S) : Loop ι U S :=
  { s with tasks := Function.update s.tasks i task }

/-- The loop of send_local, on to its next await. -/
def Loop.sendNext (s : Loop ι U S) (i : ι) (userId : U) : List S → Loop ι U S
  | [] => s.setTask i (.returned true)
  | websocket :: remaining =>
    { s.setTask i (.sending userId remaining) with sent := s.sent ++ [(i, websocket)] }

/-- None where the event cannot happen. -/
def loopStep (s : Loop ι U S) : Event ι U S → Option (Loop ι U S)
  | .connect i userId websocket =>
    match s.tasks i with
    | .ready => some (s.setTask i (.accepting userId websocket))
    | _ => none
  | .accepted i =>
    match s.tasks i with
    | .accepting userId websocket =>
      some { s.setTask i .ended with manager := s.manager.add userId websocket }
    | _ => none
  | .disconnect userId websocket =>
    some { s with manager := s.manager.disconnect userId websocket }
  | .sendLocal i userId order =>
    match s.tasks i with
    | .ready =>
      match s.manager.connections userId with
      | none => some (s.setTask i (.returned false))
      | some connections =>
        if connections = ∅ then some (s.setTask i (.returned false))
        else if order.Nodup ∧ order.toFinset = connections then some (s.sendNext i userId order)
        else none
    | _ => none
  | .delivered i =>
    match s.tasks i with
    | .sending userId remaining => some (s.sendNext i userId remaining)
    | _ => none
  | .raises i =>
    match s.tasks i with
    | .accepting _ _ | .sending _ _ => some (s.setTask i .ended)
    | _ => none

end Steps

section Histories

variable {ι : Type w} {U : Type u} {S : Type v}

abbrev LoopTransition (ι : Type w) (U : Type u) (S : Type v) :=
  Runs.Transition (Loop ι U S) (Event ι U S)

/-- A call of connect for the user and the socket returns. -/
def Completes (t : LoopTransition ι U S) (userId : U) (websocket : S) : Prop :=
  ∃ i, t.label = .accepted i ∧ t.source.tasks i = .accepting userId websocket

/-- The connect of the socket has completed, and it was not disconnected since. -/
def Live (h : List (LoopTransition ι U S)) (userId : U) (websocket : S) : Prop :=
  Runs.Since (fun t => Completes t userId websocket)
    (fun t => t.label = .disconnect userId websocket) h

def Starts (t : LoopTransition ι U S) (i : ι) (userId : U) : Prop :=
  ∃ order, t.label = .sendLocal i userId order

/-- The call has started, and where it did the socket was registered for its user. -/
def RegisteredAtStart (h : List (LoopTransition ι U S)) (i : ι) (websocket : S) : Prop :=
  (∃ t ∈ h, ∃ userId, Starts t i userId) ∧
    ∀ t ∈ h, ∀ userId, Starts t i userId → websocket ∈ t.source.manager.registered userId

variable {h : List (LoopTransition ι U S)} {t : LoopTransition ι U S} {s : Loop ι U S}
variable {i : ι} {userId : U} {x : S}

/-- What the history says of a call at its await. -/
def TaskOk (h : List (LoopTransition ι U S)) (i : ι) : Task U S → Prop
  | .ready => ∀ t ∈ h, ∀ userId, ¬ Starts t i userId
  | .sending _ remaining => ∀ x ∈ remaining, RegisteredAtStart h i x
  | _ => True

structure CallsOk (h : List (LoopTransition ι U S)) (s : Loop ι U S) : Prop where
  tasks : ∀ i, TaskOk h i (s.tasks i)
  sent : ∀ i x, (i, x) ∈ s.sent → RegisteredAtStart h i x

theorem RegisteredAtStart.snoc (hx : RegisteredAtStart h i x)
    (hnot : ∀ userId, ¬ Starts t i userId) : RegisteredAtStart (h ++ [t]) i x := by
  obtain ⟨⟨t₀, ht₀, hstarts⟩, hall⟩ := hx
  refine ⟨⟨t₀, List.mem_append_left _ ht₀, hstarts⟩, ?_⟩
  intro t' ht' userId hstarts'
  rcases List.mem_append.mp ht' with ht' | ht'
  · exact hall t' ht' userId hstarts'
  · rw [List.mem_singleton.mp ht'] at hstarts'
    exact absurd hstarts' (hnot userId)

theorem TaskOk.snoc {task : Task U S} (hok : TaskOk h i task)
    (hnot : ∀ userId, ¬ Starts t i userId) : TaskOk (h ++ [t]) i task := by
  cases task with
  | ready =>
    intro t' ht' userId
    rcases List.mem_append.mp ht' with ht' | ht'
    · exact hok t' ht' userId
    · rw [List.mem_singleton.mp ht']
      exact hnot userId
  | sending userId remaining => exact fun x hx => (hok x hx).snoc hnot
  | accepting _ _ | returned _ | ended => trivial

theorem CallsOk.snoc (hok : CallsOk h s) (hnot : ∀ i userId, ¬ Starts t i userId) :
    CallsOk (h ++ [t]) s :=
  ⟨fun i => (hok.tasks i).snoc (hnot i), fun i x hx => (hok.sent i x hx).snoc (hnot i)⟩

/-- A call that starts was ready, so that nothing was sent for it. -/
theorem CallsOk.start_sendLocal {order : List S} (hok : CallsOk h s) (hready : s.tasks i = .ready)
    (hlabel : t.label = .sendLocal i userId order) (hsource : t.source = s) :
    (∀ j, j ≠ i → TaskOk (h ++ [t]) j (s.tasks j)) ∧
      (∀ j x, (j, x) ∈ s.sent → RegisteredAtStart (h ++ [t]) j x) ∧
      ∀ x ∈ s.manager.registered userId, RegisteredAtStart (h ++ [t]) i x := by
  have hnone : ∀ t' ∈ h, ∀ userId, ¬ Starts t' i userId := by
    have htask := hok.tasks i
    rw [hready] at htask
    exact htask
  have hother : ∀ j, j ≠ i → ∀ userId, ¬ Starts t j userId := by
    rintro j hj userId' ⟨order', hlabel'⟩
    rw [hlabel] at hlabel'
    cases hlabel'
    exact hj rfl
  refine ⟨fun j hj => (hok.tasks j).snoc (hother j hj), ?_, ?_⟩
  · intro j x hx
    have hregistered := hok.sent j x hx
    apply hregistered.snoc
    apply hother
    rintro rfl
    obtain ⟨⟨t', ht', userId', hstarts⟩, _⟩ := hregistered
    exact hnone t' ht' userId' hstarts
  · intro x hx
    refine ⟨⟨t, by simp, userId, order, hlabel⟩, ?_⟩
    intro t' ht' userId' hstarts
    rcases List.mem_append.mp ht' with ht' | ht'
    · exact absurd hstarts (hnone t' ht' userId')
    · obtain rfl := List.mem_singleton.mp ht'
      obtain ⟨order', hlabel'⟩ := hstarts
      rw [hlabel] at hlabel'
      cases hlabel'
      rw [hsource]
      exact hx

variable [DecidableEq ι]

theorem CallsOk.setTask {task : Task U S} (hothers : ∀ j, j ≠ i → TaskOk h j (s.tasks j))
    (htask : TaskOk h i task) (hsent : ∀ j x, (j, x) ∈ s.sent → RegisteredAtStart h j x) :
    CallsOk h (s.setTask i task) := by
  refine ⟨?_, hsent⟩
  intro j
  unfold Loop.setTask
  by_cases hj : j = i
  · subst hj
    simpa using htask
  · simpa [hj] using hothers j hj

theorem CallsOk.sendNext {order : List S} (hothers : ∀ j, j ≠ i → TaskOk h j (s.tasks j))
    (hsent : ∀ j x, (j, x) ∈ s.sent → RegisteredAtStart h j x)
    (horder : ∀ x ∈ order, RegisteredAtStart h i x) : CallsOk h (s.sendNext i userId order) := by
  cases order with
  | nil => exact CallsOk.setTask hothers trivial hsent
  | cons websocket remaining =>
    obtain ⟨hfirst, hrest⟩ := List.forall_mem_cons.mp horder
    have hnext : CallsOk h (s.setTask i (.sending userId remaining)) :=
      CallsOk.setTask hothers hrest hsent
    refine ⟨hnext.tasks, ?_⟩
    intro j x hx
    rcases List.mem_append.mp hx with hx | hx
    · exact hsent j x hx
    · cases List.mem_singleton.mp hx
      exact hfirst

end Histories

section Laws

variable {ι : Type w} {U : Type u} {S : Type v} [DecidableEq ι] [DecidableEq U] [DecidableEq S]

abbrev LoopRun : List (LoopTransition ι U S) → Loop ι U S → Prop :=
  Runs.Run (fun s e s' => loopStep s e = some s') .start

variable {h : List (LoopTransition ι U S)} {s s' : Loop ι U S} {e : Event ι U S} {userId : U}
variable {x : S}

/-- What the events do, each where it can happen. -/
inductive LoopMove (s : Loop ι U S) : Event ι U S → Loop ι U S → Prop where
  | connect {i : ι} {userId : U} {websocket : S} (hready : s.tasks i = .ready) :
      LoopMove s (.connect i userId websocket) (s.setTask i (.accepting userId websocket))
  | accepted {i : ι} {userId : U} {websocket : S}
      (htask : s.tasks i = .accepting userId websocket) :
      LoopMove s (.accepted i)
        { s.setTask i .ended with manager := s.manager.add userId websocket }
  | disconnect {userId : U} {websocket : S} :
      LoopMove s (.disconnect userId websocket)
        { s with manager := s.manager.disconnect userId websocket }
  | unknown {i : ι} {userId : U} {order : List S} (hready : s.tasks i = .ready)
      (hnobody : s.manager.registered userId = ∅) :
      LoopMove s (.sendLocal i userId order) (s.setTask i (.returned false))
  | begins {i : ι} {userId : U} {order : List S} (hready : s.tasks i = .ready)
      (hnodup : order.Nodup) (horder : order.toFinset = s.manager.registered userId) :
      LoopMove s (.sendLocal i userId order) (s.sendNext i userId order)
  | delivered {i : ι} {userId : U} {remaining : List S}
      (htask : s.tasks i = .sending userId remaining) :
      LoopMove s (.delivered i) (s.sendNext i userId remaining)
  | raises {i : ι} : LoopMove s (.raises i) (s.setTask i .ended)

theorem loopStep_move (hstep : loopStep s e = some s') : LoopMove s e s' := by
  cases e with
  | connect i userId websocket =>
    simp only [loopStep] at hstep
    split at hstep <;> cases hstep
    rename_i hready
    exact .connect hready
  | accepted i =>
    simp only [loopStep] at hstep
    split at hstep <;> cases hstep
    rename_i htask
    exact .accepted htask
  | disconnect userId websocket =>
    cases hstep
    exact .disconnect
  | sendLocal i userId order =>
    simp only [loopStep] at hstep
    split at hstep
    · rename_i hready
      split at hstep
      · rename_i hconnections
        cases hstep
        exact .unknown hready (by rw [Manager.registered, hconnections, Option.getD_none])
      · rename_i connections hconnections
        have hregistered : s.manager.registered userId = connections := by
          rw [Manager.registered, hconnections, Option.getD_some]
        split at hstep
        · rename_i hempty
          cases hstep
          exact .unknown hready (hregistered.trans hempty)
        · split at hstep <;> cases hstep
          rename_i horder
          exact .begins hready horder.1 (horder.2.trans hregistered.symm)
    · cases hstep
  | delivered i =>
    simp only [loopStep] at hstep
    split at hstep <;> cases hstep
    rename_i htask
    exact .delivered htask
  | raises i =>
    simp only [loopStep] at hstep
    split at hstep <;> cases hstep <;> exact .raises

omit [DecidableEq U] [DecidableEq S] in
theorem sendNext_manager (s : Loop ι U S) (i : ι) (userId : U) (order : List S) :
    (s.sendNext i userId order).manager = s.manager := by
  cases order <;> rfl

theorem step_mem_registered (hstep : loopStep s e = some s') :
    x ∈ s'.manager.registered userId ↔ Completes ⟨s, e, s'⟩ userId x ∨
      (x ∈ s.manager.registered userId ∧ ¬ e = .disconnect userId x) := by
  have hnever : (∀ i, e ≠ .accepted i) → ¬ Completes ⟨s, e, s'⟩ userId x := by
    rintro haccepted ⟨i, hi, _⟩
    exact haccepted i hi
  have hidle : (∀ i, e ≠ .accepted i) → (∀ userId websocket, e ≠ .disconnect userId websocket) →
      s'.manager = s.manager →
      (x ∈ s'.manager.registered userId ↔ Completes ⟨s, e, s'⟩ userId x ∨
        (x ∈ s.manager.registered userId ∧ ¬ e = .disconnect userId x)) := by
    intro haccepted hdisconnect hmanager
    rw [hmanager]
    simp [hnever haccepted, hdisconnect]
  cases loopStep_move hstep with
  | @accepted i userId' websocket htask =>
    have hcompletes : ∀ target, Completes ⟨s, .accepted i, target⟩ userId x ↔
        userId = userId' ∧ x = websocket := by
      intro target
      constructor
      · rintro ⟨j, hj, hjob⟩
        cases hj
        cases htask.symm.trans hjob
        exact ⟨rfl, rfl⟩
      · rintro ⟨rfl, rfl⟩
        exact ⟨i, rfl, htask⟩
    rw [Manager.mem_registered_add, hcompletes]
    simp
  | @disconnect userId' websocket =>
    rw [Manager.mem_registered_disconnect]
    simp only [hnever nofun, false_or, Event.disconnect.injEq]
    rw [eq_comm (a := userId), eq_comm (a := x)]
  | connect _ | unknown _ _ | raises => exact hidle nofun nofun rfl
  | begins _ _ _ | delivered _ => exact hidle nofun nofun (sendNext_manager s _ _ _)

theorem mem_registered_iff_live (r : LoopRun h s) :
    x ∈ s.manager.registered userId ↔ Live h userId x := by
  induction r with
  | start => simp [Live, Runs.not_since_nil, Loop.start, Manager.new, Manager.registered]
  | snoc _ hstep ih =>
    unfold Live
    rw [step_mem_registered hstep, Runs.since_snoc_iff, ih]
    rfl

theorem noEmptySet (r : LoopRun h s) : s.manager.NoEmptySet := by
  apply r.invariant (I := fun s => s.manager.NoEmptySet)
  · exact nofun
  · intro s e s' hnone hstep
    cases loopStep_move hstep with
    | accepted _ => exact hnone.add
    | disconnect => exact hnone.disconnect
    | connect _ | unknown _ _ | raises => exact hnone
    | begins _ _ _ | delivered _ =>
      rw [sendNext_manager]
      exact hnone

theorem CallsOk.step (hok : CallsOk h s) (hstep : loopStep s e = some s') :
    CallsOk (h ++ [⟨s, e, s'⟩]) s' := by
  -- only send_local starts a call that sends
  have hquiet : (∀ i userId order, e ≠ .sendLocal i userId order) →
      CallsOk (h ++ [⟨s, e, s'⟩]) s := by
    intro hne
    apply hok.snoc
    rintro i userId ⟨order, hlabel⟩
    exact hne i userId order hlabel
  cases loopStep_move hstep with
  | connect _ | raises =>
    have hok' := hquiet nofun
    exact CallsOk.setTask (fun j _ => hok'.tasks j) trivial hok'.sent
  | @accepted i userId websocket _ =>
    have hok' := hquiet nofun
    have hended : CallsOk (h ++ [⟨s, .accepted i, _⟩]) (s.setTask i .ended) :=
      CallsOk.setTask (fun j _ => hok'.tasks j) trivial hok'.sent
    exact ⟨hended.tasks, hended.sent⟩
  | disconnect =>
    have hok' := hquiet nofun
    exact ⟨hok'.tasks, hok'.sent⟩
  | @delivered i userId remaining htask =>
    have hok' := hquiet nofun
    have hremaining := hok'.tasks i
    rw [htask] at hremaining
    exact CallsOk.sendNext (fun j _ => hok'.tasks j) hok'.sent hremaining
  | @unknown i userId order hready _ =>
    obtain ⟨hothers, hsent, _⟩ := hok.start_sendLocal
      (t := ⟨s, .sendLocal i userId order, _⟩) hready rfl rfl
    exact CallsOk.setTask hothers trivial hsent
  | @begins i userId order hready _ horder =>
    obtain ⟨hothers, hsent, hregistered⟩ := hok.start_sendLocal
      (t := ⟨s, .sendLocal i userId order, _⟩) hready rfl rfl
    apply CallsOk.sendNext hothers hsent
    intro x hx
    apply hregistered
    rw [← horder]
    exact List.mem_toFinset.mpr hx

theorem callsOk (r : LoopRun h s) : CallsOk h s := by
  induction r with
  | start => exact ⟨fun i => nofun, nofun⟩
  | snoc _ hstep ih => exact ih.step hstep

end Laws

/-- Whatever the order of the awaits, the manager has exactly the live sockets of each user
and no empty set, and what a call of send_local sends goes to sockets that were registered
for its user when it started. -/
theorem manager_has_live_sockets {ι : Type w} {U : Type u} {S : Type v} [DecidableEq ι]
    [DecidableEq U] [DecidableEq S] {h : List (LoopTransition ι U S)} {s : Loop ι U S}
    (r : LoopRun h s) :
    (∀ userId websocket,
      websocket ∈ s.manager.registered userId ↔ Live h userId websocket) ∧
    s.manager.NoEmptySet ∧
    (∀ userId, s.manager.isConnectedLocally userId = true ↔
      ∃ websocket, Live h userId websocket) ∧
    ∀ i websocket, (i, websocket) ∈ s.sent → RegisteredAtStart h i websocket := by
  refine ⟨fun _ _ => mem_registered_iff_live r, noEmptySet r, ?_, (callsOk r).sent⟩
  intro userId
  rw [Manager.isConnectedLocally_iff, ← Finset.nonempty_iff_ne_empty]
  constructor
  · rintro ⟨websocket, hmem⟩
    exact ⟨websocket, (mem_registered_iff_live r).mp hmem⟩
  · rintro ⟨websocket, hlive⟩
    exact ⟨websocket, (mem_registered_iff_live r).mpr hlive⟩

/-- User 1 leaves with both sockets and comes back with a third while a message is sent. -/
def sampleEvents : List (Event Nat Nat Nat) :=
  [.connect 0 1 10, .connect 1 1 11, .accepted 1, .accepted 0, .sendLocal 2 1 [11, 10],
    .disconnect 1 10, .disconnect 1 11, .disconnect 7 11, .connect 3 1 12, .accepted 3,
    .delivered 2, .delivered 2]

def sampleCheck (s : Loop Nat Nat Nat) : Bool :=
  s.manager.connections 1 = some {12} ∧ s.sent = [(2, 11), (2, 10)]

theorem manager_has_live_sockets_sample :
    ∃ h, ∃ s : Loop Nat Nat Nat, LoopRun h s ∧ sampleCheck s = true ∧
      (∀ userId websocket,
        websocket ∈ s.manager.registered userId ↔ Live h userId websocket) ∧
      ∀ i websocket, (i, websocket) ∈ s.sent → RegisteredAtStart h i websocket := by
  obtain ⟨h, s, hrun, hcheck⟩ := Runs.exists_run loopStep Loop.start sampleEvents
    (fun _ s => sampleCheck s) (by decide)
  have hlaw := manager_has_live_sockets hrun
  exact ⟨h, s, hrun, hcheck, hlaw.1, hlaw.2.2.2⟩

section Workers

variable {env : Env} {ι : Type u} [DecidableEq ι] {s s' : Hub ι} {event : HubEvent ι} {w : ι}
variable {m : Manager Int Socket}

/-- The lists hold what the manager's sets hold. -/
def Represents (m : Manager Int Socket) (connections : Int → List Socket) : Prop :=
  ∀ userId x, x ∈ connections userId ↔ x ∈ m.registered userId

theorem Represents.isConnectedLocally {connections : Int → List Socket}
    (h : Represents m connections) (userId : Int) :
    m.isConnectedLocally userId = true ↔ connections userId ≠ [] := by
  rw [Manager.isConnectedLocally_iff, ne_eq, ne_eq, Finset.eq_empty_iff_forall_notMem,
    List.eq_nil_iff_forall_not_mem]
  simp only [h userId]

theorem Represents.connect {x : Socket} {e : Endpoint ι}
    (h : Represents m (s.connections e.worker)) :
    Represents (m.add e.userId x) ((s.connect x e).connections e.worker) := by
  intro userId y
  rw [Manager.mem_registered_add, ← h userId y]
  by_cases hu : userId = e.userId
  · subst hu
    by_cases hx : x ∈ s.connections e.worker e.userId
    · have heq : (s.connect x e).connections e.worker e.userId =
          s.connections e.worker e.userId := by
        simp [Hub.connect, Hub.setConnections, Hub.setEndpoint, hx]
      rw [heq]
      constructor
      · exact Or.inr
      · rintro (⟨_, rfl⟩ | hy)
        · exact hx
        · exact hy
    · simp [Hub.connect, Hub.setConnections, Hub.setEndpoint, hx]
  · simp [Hub.connect, Hub.setConnections, Hub.setEndpoint, hu]

theorem Represents.closeEndpoint {x : Socket} {e : Endpoint ι}
    (h : Represents m (s.connections e.worker)) :
    Represents (m.disconnect e.userId x) ((s.closeEndpoint x e).connections e.worker) := by
  intro userId y
  rw [Manager.mem_registered_disconnect, ← h userId y]
  by_cases hu : userId = e.userId
  · subst hu
    simp [Hub.closeEndpoint, Hub.setConnections, Hub.setEndpoint]
  · simp [Hub.closeEndpoint, Hub.setConnections, Hub.setEndpoint, hu]

/-- Some run of the manager, with calls to spare, comes to these lists. -/
def ReachedByManager (connections : Int → List Socket) : Prop :=
  ∃ h, ∃ s : Loop Nat Int Socket, LoopRun h s ∧ Represents s.manager connections ∧
    ∃ n, ∀ i, n ≤ i → s.tasks i = .ready

theorem ReachedByManager.connect {x : Socket} {e : Endpoint ι}
    (h : ReachedByManager (s.connections e.worker)) :
    ReachedByManager ((s.connect x e).connections e.worker) := by
  obtain ⟨h, m, hrun, hrep, n, hfree⟩ := h
  have hready : m.tasks n = .ready := hfree n le_rfl
  have hconnect : loopStep m (.connect n e.userId x) =
      some (m.setTask n (.accepting e.userId x)) := by
    simp [loopStep, hready]
  have haccepted : loopStep (m.setTask n (.accepting e.userId x)) (.accepted n) =
      some { (m.setTask n (.accepting e.userId x)).setTask n .ended with
        manager := m.manager.add e.userId x } := by
    simp [loopStep, Loop.setTask]
  refine ⟨_, _, (hrun.snoc hconnect).snoc haccepted, hrep.connect, n + 1, ?_⟩
  intro i hi
  have hne : i ≠ n := by omega
  have hbefore : m.tasks i = .ready := hfree i (by omega)
  simpa [Loop.setTask, hne] using hbefore

theorem ReachedByManager.closeEndpoint {x : Socket} {e : Endpoint ι}
    (h : ReachedByManager (s.connections e.worker)) :
    ReachedByManager ((s.closeEndpoint x e).connections e.worker) := by
  obtain ⟨h, m, hrun, hrep, hfree⟩ := h
  have hdisconnect : loopStep m (.disconnect e.userId x) =
      some { m with manager := m.manager.disconnect e.userId x } := rfl
  exact ⟨_, _, hrun.snoc hdisconnect, hrep.closeEndpoint, hfree⟩

theorem connections_of_other {x : Socket} {e : Endpoint ι} (hw : w ≠ e.worker) :
    (s.connect x e).connections w = s.connections w ∧
      (s.closeEndpoint x e).connections w = s.connections w :=
  ⟨Function.update_of_ne hw _ _, Function.update_of_ne hw _ _⟩

/-- The lists that each worker works with are those of a manager that has run. -/
theorem hub_reached_by_manager {server : Server} {h : List (HubTransition ι)}
    (r : HubRun env (Hub.start server) h s) (w : ι) : ReachedByManager (s.connections w) := by
  apply r.invariant (I := fun s => ReachedByManager (s.connections w))
  · refine ⟨[], .start, .start, ?_, 0, fun _ _ => rfl⟩
    intro userId x
    simp [Hub.start, Loop.start, Manager.new, Manager.registered]
  · intro s event s' hreached hstep
    rcases HubMove.connections (hub_move hstep) with heq | ⟨x, e, heq⟩ | ⟨x, e, heq⟩
    · rw [heq]
      exact hreached
    · rw [heq]
      by_cases hw : w = e.worker
      · subst hw
        exact hreached.connect
      · rw [(connections_of_other hw).1]
        exact hreached
    · rw [heq]
      by_cases hw : w = e.worker
      · subst hw
        exact hreached.closeEndpoint
      · rw [(connections_of_other hw).2]
        exact hreached

end Workers

end FastApiAuth.ConnectionManager
