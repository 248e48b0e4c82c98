import FastApiAuth.WebSockets

/-!
# What a step of the workers can do

`HubMove` lists the outcomes of `hubStep`. `SocketMove` keeps of them what they do to the
sockets, `TrafficMove` what they do to the calls, the listeners and the clients' inboxes.
-/

namespace FastApiAuth

set_option autoImplicit false

open PyJson Function

universe u

variable {env : Env} {ι : Type u} {s s' : Hub ι} {event : HubEvent ι}

section Untouched

/-- Nothing is begun, sent, published or received. -/
structure SameTraffic (s s' : Hub ι) : Prop where
  inbox : s'.inbox = s.inbox
  calls : s'.calls = s.calls
  nextCall : s'.nextCall = s.nextCall
  listeners : s'.listeners = s.listeners

/-- The worker, the user and the token of a socket's handshake; they stay. -/
def Hub.opening (s : Hub ι) (x : Socket) : Option (ι × Int × Token) :=
  (s.endpoints x).map fun e => (e.worker, e.userId, e.token)

/-- The socket was opened at this worker by this user. -/
def Hub.At (s : Hub ι) (x : Socket) (w : ι) (userId : Int) : Prop :=
  ∃ token, s.opening x = some (w, userId, token)

/-- No socket is opened or registered. -/
structure KeepsSockets (s s' : Hub ι) : Prop where
  opening : ∀ x, s'.opening x = s.opening x
  nextSocket : s'.nextSocket = s.nextSocket
  connections : ∀ x w userId, x ∈ s'.connections w userId → x ∈ s.connections w userId

end Untouched

section Operations

variable {x : Socket} {e e' : Endpoint ι}

theorem opening_of_endpoint (he : s.endpoints x = some e) :
    s.opening x = some (e.worker, e.userId, e.token) := congrArg (Option.map _) he

theorem KeepsSockets.of_eq (he : s'.endpoints = s.endpoints) (hn : s'.nextSocket = s.nextSocket)
    (hc : s'.connections = s.connections) : KeepsSockets s s' := by
  refine ⟨fun x => ?_, hn, fun x w userId h => ?_⟩
  · unfold Hub.opening
    rw [he]
  · rwa [hc] at h

theorem KeepsSockets.trans {s₁ s₂ s₃ : Hub ι} (h : KeepsSockets s₁ s₂) (h' : KeepsSockets s₂ s₃) :
    KeepsSockets s₁ s₃ :=
  ⟨fun x => (h'.opening x).trans (h.opening x), h'.nextSocket.trans h.nextSocket,
    fun x w userId hx => h.connections x w userId (h'.connections x w userId hx)⟩

theorem setEndpoint_opening (he : s.endpoints x = some e) (hw : e'.worker = e.worker)
    (hu : e'.userId = e.userId) (ht : e'.token = e.token) (y : Socket) :
    (s.setEndpoint x e').opening y = s.opening y := by
  by_cases hy : y = x
  · subst hy
    rw [opening_of_endpoint he, opening_of_endpoint (update_self _ _ _), hw, hu, ht]
  · exact congrArg (Option.map _) (update_of_ne hy _ _)

theorem setPhase_traffic (s : Hub ι) (x : Socket) (phase : EndpointPhase) :
    SameTraffic s (s.setPhase x phase) := by
  unfold Hub.setPhase
  split <;> exact ⟨rfl, rfl, rfl, rfl⟩

theorem setPhase_keeps (s : Hub ι) (x : Socket) (phase : EndpointPhase) :
    KeepsSockets s (s.setPhase x phase) := by
  unfold Hub.setPhase
  split
  · rename_i e he
    exact ⟨setEndpoint_opening he rfl rfl rfl, rfl, fun _ _ _ h => h⟩
  · exact .of_eq rfl rfl rfl

theorem setPhase_server (s : Hub ι) (x : Socket) (phase : EndpointPhase) :
    (s.setPhase x phase).server = s.server := by
  unfold Hub.setPhase
  split <;> rfl

theorem deliver_server (s : Hub ι) (x : Socket) (origin : Option Nat) (frame : Json) :
    (s.deliver x origin frame).server = s.server := by
  unfold Hub.deliver
  split <;> rfl

theorem finishCall_server (s : Hub ι) (c : Nat) (call : Call ι) :
    (s.finishCall c call).server = s.server := by
  unfold Hub.finishCall
  split
  · exact setPhase_server _ _ _
  · rfl

theorem setPhase_connections (s : Hub ι) (x : Socket) (phase : EndpointPhase) :
    (s.setPhase x phase).connections = s.connections := by
  unfold Hub.setPhase
  split <;> rfl

theorem deliver_connections (s : Hub ι) (x : Socket) (origin : Option Nat) (frame : Json) :
    (s.deliver x origin frame).connections = s.connections := by
  unfold Hub.deliver
  split <;> rfl

theorem finishCall_connections (s : Hub ι) (c : Nat) (call : Call ι) :
    (s.finishCall c call).connections = s.connections := by
  unfold Hub.finishCall
  split
  · exact setPhase_connections _ _ _
  · rfl

theorem startCall_traffic (h : SameTraffic s s') (hc : s'.connections = s.connections) {w : ι}
    {recipient : Recipient} {message : Message} {caller : Option Socket} :
    SameTraffic (s.startCall w recipient message caller)
      (s'.startCall w recipient message caller) := by
  refine ⟨h.inbox, ?_, congrArg (· + 1) h.nextCall, h.listeners⟩
  unfold Hub.startCall Hub.setCall
  dsimp only
  rw [h.calls, h.nextCall, hc]

theorem deliver_keeps (s : Hub ι) (x : Socket) (origin : Option Nat) (frame : Json) :
    KeepsSockets s (s.deliver x origin frame) := by
  unfold Hub.deliver
  split <;> exact .of_eq rfl rfl rfl

theorem finishCall_traffic (s : Hub ι) (c : Nat) (call : Call ι) :
    SameTraffic (s.setCall c none) (s.finishCall c call) := by
  unfold Hub.finishCall
  split
  · exact setPhase_traffic _ _ _
  · exact ⟨rfl, rfl, rfl, rfl⟩

theorem finishCall_keeps (s : Hub ι) (c : Nat) (call : Call ι) :
    KeepsSockets s (s.finishCall c call) := by
  have hcall : KeepsSockets s (s.setCall c none) := .of_eq rfl rfl rfl
  unfold Hub.finishCall
  split
  · exact hcall.trans (setPhase_keeps _ _ _)
  · exact hcall

/-- The call in a loop that has these sockets before it. -/
def Call.continued (call : Call ι) (remaining : List Socket) : Option (Call ι) :=
  if remaining = [] then none else some { call with phase := .sending remaining }

theorem continueCall_traffic (s : Hub ι) (c : Nat) (call : Call ι) (remaining : List Socket) :
    SameTraffic (s.setCall c (call.continued remaining)) (s.continueCall c call remaining) := by
  unfold Hub.continueCall Call.continued
  split
  · exact finishCall_traffic _ _ _
  · exact ⟨rfl, rfl, rfl, rfl⟩

theorem continueCall_keeps (s : Hub ι) (c : Nat) (call : Call ι) (remaining : List Socket) :
    KeepsSockets s (s.continueCall c call remaining) := by
  unfold Hub.continueCall
  split
  · exact finishCall_keeps _ _ _
  · exact .of_eq rfl rfl rfl

/-- `later` is the call at a later point. -/
structure Call.Continues (call later : Call ι) : Prop where
  worker : later.worker = call.worker
  recipient : later.recipient = call.recipient
  message : later.message = call.message
  publishing : later.phase = .publishing → call.phase = .publishing
  sending : ∀ remaining', later.phase = .sending remaining' →
    ∃ remaining, call.phase = .sending remaining ∧ remaining' ⊆ remaining

theorem Call.Continues.rfl (call : Call ι) : call.Continues call :=
  ⟨.refl _, .refl _, .refl _, id, fun remaining h => ⟨remaining, h, List.Subset.refl _⟩⟩

theorem Call.continues_of_continued {call later : Call ι} {remaining remaining' : List Socket}
    (hphase : call.phase = .sending remaining) (hsub : remaining' ⊆ remaining)
    (hlater : call.continued remaining' = some later) : call.Continues later := by
  unfold Call.continued at hlater
  split at hlater
  · cases hlater
  · cases hlater
    refine ⟨.refl _, .refl _, .refl _, nofun, fun sockets h => ?_⟩
    cases h
    exact ⟨remaining, hphase, hsub⟩

theorem calls_of_setCall {c c' : Nat} {entry : Option (Call ι)} {later : Call ι}
    (h : (s.setCall c entry).calls c' = some later) :
    s.calls c' = some later ∨ (c' = c ∧ entry = some later) := by
  unfold Hub.setCall at h
  dsimp only at h
  by_cases hc : c' = c
  · subst hc
    rw [update_self] at h
    exact .inr ⟨.refl _, h⟩
  · rw [update_of_ne hc] at h
    exact .inl h

theorem setCall_self (s : Hub ι) (c : Nat) (entry : Option (Call ι)) :
    (s.setCall c entry).calls c = entry := update_self _ _ _

theorem deliver_calls (s : Hub ι) (x : Socket) (origin : Option Nat) (frame : Json) :
    (s.deliver x origin frame).calls = s.calls := by
  unfold Hub.deliver
  split <;> rfl

theorem inbox_of_deliver {y : Socket} {origin : Option Nat} {frame : Json} {received : Received}
    (h : received ∈ (s.deliver x origin frame).inbox y) :
    received ∈ s.inbox y ∨ (y = x ∧ received = ⟨origin, frame⟩) := by
  unfold Hub.deliver at h
  split at h
  · dsimp only at h
    by_cases hy : y = x
    · subst hy
      rw [update_self] at h
      exact (List.mem_append.mp h).imp_right fun h => ⟨.refl _, List.mem_singleton.mp h⟩
    · rw [update_of_ne hy] at h
      exact .inl h
  · exact .inl h

theorem deliver_nextCall (s : Hub ι) (x : Socket) (origin : Option Nat) (frame : Json) :
    (s.deliver x origin frame).nextCall = s.nextCall := by
  unfold Hub.deliver
  split <;> rfl

theorem deliver_listeners (s : Hub ι) (x : Socket) (origin : Option Nat) (frame : Json) :
    (s.deliver x origin frame).listeners = s.listeners := by
  unfold Hub.deliver
  split <;> rfl

variable [DecidableEq ι]

theorem listeners_of_setListener (s : Hub ι) (v : ι) (l : Listener) (w : ι) :
    (w = v ∧ (s.setListener v l).listeners w = l) ∨
      (w ≠ v ∧ (s.setListener v l).listeners w = s.listeners w) := by
  by_cases hw : w = v
  · subst hw
    exact .inl ⟨.refl _, update_self _ _ _⟩
  · exact .inr ⟨hw, update_of_ne hw _ _⟩

theorem closeEndpoint_traffic (s : Hub ι) (x : Socket) (e : Endpoint ι) :
    SameTraffic s (s.closeEndpoint x e) := ⟨rfl, rfl, rfl, rfl⟩

theorem mem_setConnections {w v : ι} {userId userId' : Int} {sockets : List Socket} :
    x ∈ (s.setConnections w userId sockets).connections v userId' →
      (v = w ∧ userId' = userId ∧ x ∈ sockets) ∨ x ∈ s.connections v userId' := by
  intro h
  unfold Hub.setConnections at h
  dsimp only at h
  by_cases hv : v = w
  · subst hv
    rw [update_self] at h
    by_cases hu : userId' = userId
    · subst hu
      rw [update_self] at h
      exact .inl ⟨rfl, rfl, h⟩
    · rw [update_of_ne hu] at h
      exact .inr h
  · rw [update_of_ne hv] at h
    exact .inr h

theorem closeEndpoint_keeps (he : s.endpoints x = some e) :
    KeepsSockets s (s.closeEndpoint x e) := by
  refine ⟨setEndpoint_opening he rfl rfl rfl, rfl, fun y w userId hy => ?_⟩
  rcases mem_setConnections hy with ⟨rfl, rfl, hmem⟩ | hmem
  · exact (List.mem_filter.mp hmem).1
  · exact hmem

theorem abortCall_traffic (s : Hub ι) (c : Nat) (call : Call ι) :
    SameTraffic (s.setCall c none) (s.abortCall c call) := by
  unfold Hub.abortCall
  split
  · exact closeEndpoint_traffic _ _ _
  · exact ⟨rfl, rfl, rfl, rfl⟩

theorem abortCall_keeps (s : Hub ι) (c : Nat) (call : Call ι) :
    KeepsSockets s (s.abortCall c call) := by
  have hcall : KeepsSockets s (s.setCall c none) := .of_eq rfl rfl rfl
  unfold Hub.abortCall
  split
  · rename_i x e hcaller
    obtain ⟨y, _, hmap⟩ := Option.bind_eq_some_iff.mp hcaller
    obtain ⟨f, hf, heq⟩ := Option.map_eq_some_iff.mp hmap
    cases heq
    exact hcall.trans (closeEndpoint_keeps hf)
  · exact hcall

end Operations

section ListenerStep

/-- What a step makes of one listener. -/
inductive ListenerMove (s : Hub ι) (w : ι) : Listener → Prop where
  | stays : ListenerMove s w (s.listeners w)
  | hears {c : Nat} {call : Call ι} : s.calls c = some call → (s.listeners w).phase ≠ .down →
      ListenerMove s w ⟨(s.listeners w).phase, (s.listeners w).queue ++ [Hub.itemOf c call]⟩
  | idles {queue : List Item} : queue ⊆ (s.listeners w).queue →
      ListenerMove s w ⟨.listening, queue⟩
  | stops : ListenerMove s w ⟨.down, []⟩
  | takes {item : Item} {queue : List Item} {userId : Int} {message : Json} :
      s.listeners w = ⟨.listening, item :: queue⟩ → readItem item = some (userId, message) →
      ListenerMove s w ⟨Hub.listenerPhase item message (s.connections w userId), queue⟩
  | forwards {x : Socket} {item : Item} {message : Json} {remaining : List Socket} :
      (s.listeners w).phase = .sending item message remaining →
      ListenerMove s w ⟨Hub.listenerPhase item message (remaining.filter fun y => y ≠ x),
        (s.listeners w).queue⟩

/-- A message in a queue was there before, or is published at this step. -/
theorem ListenerMove.queue {w : ι} {l : Listener} (h : ListenerMove s w l) {item : Item}
    (hitem : item ∈ l.queue) : item ∈ (s.listeners w).queue ∨
      ∃ c call, s.calls c = some call ∧ item = Hub.itemOf c call := by
  cases h with
  | stays | forwards => exact .inl hitem
  | @hears c call hcall =>
    rcases List.mem_append.mp hitem with hitem | hitem
    · exact .inl hitem
    · exact .inr ⟨c, call, hcall, List.mem_singleton.mp hitem⟩
  | idles hsub => exact .inl (hsub hitem)
  | stops => cases hitem
  | takes hl => exact .inl (hl ▸ List.mem_cons_of_mem _ hitem)

theorem listenerPhase_ne_down (item : Item) (message : Json) (remaining : List Socket) :
    Hub.listenerPhase item message remaining ≠ .down := by
  unfold Hub.listenerPhase
  split <;> nofun

/-- A listener that is down has nothing in its queue. -/
theorem ListenerMove.idle {w : ι} {l : Listener} (h : ListenerMove s w l)
    (hidle : (s.listeners w).phase = .down → (s.listeners w).queue = [])
    (hdown : l.phase = .down) : l.queue = [] := by
  cases h with
  | stays => exact hidle hdown
  | hears _ hup => exact absurd hdown hup
  | idles => cases hdown
  | stops => rfl
  | takes => exact absurd hdown (listenerPhase_ne_down _ _ _)
  | forwards => exact absurd hdown (listenerPhase_ne_down _ _ _)

theorem listenerPhase_eq_sending {item item' : Item} {message message' : Json}
    {remaining remaining' : List Socket}
    (h : Hub.listenerPhase item message remaining = .sending item' message' remaining') :
    item' = item ∧ message' = message ∧ remaining' = remaining := by
  unfold Hub.listenerPhase at h
  split at h
  · cases h
  · cases h
    exact ⟨rfl, rfl, rfl⟩

/-- A message in the hands of a listener was there before, or comes from its queue. -/
theorem ListenerMove.sending {w : ι} {l : Listener} (h : ListenerMove s w l) {item : Item}
    {message : Json} {remaining' : List Socket}
    (hphase : l.phase = .sending item message remaining') :
    (∃ remaining, (s.listeners w).phase = .sending item message remaining ∧
      remaining' ⊆ remaining) ∨
    (item ∈ (s.listeners w).queue ∧
      ∃ userId, readItem item = some (userId, message) ∧ remaining' = s.connections w userId) := by
  cases h with
  | stays | hears => exact .inl ⟨remaining', hphase, List.Subset.refl _⟩
  | idles | stops => cases hphase
  | takes hl hread =>
    obtain ⟨rfl, rfl, rfl⟩ := listenerPhase_eq_sending hphase
    exact .inr ⟨hl ▸ List.mem_cons_self, _, hread, rfl⟩
  | forwards hbefore =>
    obtain ⟨rfl, rfl, rfl⟩ := listenerPhase_eq_sending hphase
    exact .inl ⟨_, hbefore, List.filter_subset_self _⟩

end ListenerStep

variable [DecidableEq ι]

section StepOutcomes

inductive HubMove (env : Env) (s : Hub ι) : HubEvent ι → Hub ι → Prop where
  | acted {w : ι} {a : Action} : assignedRole s.server a = none →
      HubMove env s (.act w a) { s with server := (step env s.server a).2 }
  | granted {w : ι} {a : Action} {user : User} {role : Role} :
      assignedRole s.server a = some (user, role) →
      HubMove env s (.act w a) (Hub.startCall { s with server := (step env s.server a).2 } w
        (.int user.id) (roleNotification role.name) none)
  | refused {w : ι} {token : Token} : HubMove env s (.handshake w token) s
  | opened {w : ι} {token : Token} {user : User} :
      getCurrentUserWs s.server token = some user →
      HubMove env s (.handshake w token) (s.openSocket w user.id token)
  | accepted {x : Socket} {e : Endpoint ι} : s.endpoints x = some e → e.phase = .accepting →
      HubMove env s (.accept x) (s.connect x e)
  | malformed {x : Socket} {e : Endpoint ι} {text : List Char} :
      s.endpoints x = some e → loads text = none →
      HubMove env s (.receive x text) (s.closeEndpoint x e)
  | rejected {x : Socket} {e : Endpoint ι} {text : List Char} {data : Json} {detail : String} :
      s.endpoints x = some e → loads text = some data → readFrame data = .error detail →
      HubMove env s (.receive x text) (s.deliver x none (errorFrame detail).toJson)
  | relayed {x : Socket} {e : Endpoint ι} {text : List Char} {data : Json}
      {recipient : Recipient} {body : PyStr} : s.endpoints x = some e → e.phase = .reading →
      loads text = some data → readFrame data = .ok (recipient, body) →
      HubMove env s (.receive x text) ((s.setPhase x .relaying).startCall e.worker recipient
        (privateMessage e.userId body) (some x))
  | hungUp {x : Socket} :
      HubMove env s (.hangUp x) { s with connected := update s.connected x false }
  | closed {x : Socket} {e : Endpoint ι} :
      s.endpoints x = some e → HubMove env s (.close x) (s.closeEndpoint x e)
  | sendRaised {c : Nat} {x : Socket} {call : Call ι} {remaining : List Socket} :
      s.calls c = some call → call.phase = .sending remaining → x ∈ remaining →
      mayRaise s x call.message.toJson true = true →
      HubMove env s (.send c x true) (s.abortCall c call)
  | sent {c : Nat} {x : Socket} {call : Call ι} {remaining : List Socket} :
      s.calls c = some call → call.phase = .sending remaining → x ∈ remaining →
      HubMove env s (.send c x false) ((s.deliver x (some c) call.message.toJson).continueCall c
        call (remaining.filter fun y => y ≠ x))
  | published {c : Nat} {call : Call ι} {up : Bool} :
      s.calls c = some call → call.phase = .publishing →
      HubMove env s (.publish c up)
        ((if up then s.fanOut (Hub.itemOf c call) else s).finishCall c call)
  | subscribed {w : ι} : (s.listeners w).phase = .down →
      HubMove env s (.subscribe w) (s.setListener w ⟨.listening, []⟩)
  | dropped {w : ι} {item : Item} {queue : List Item} :
      s.listeners w = ⟨.listening, item :: queue⟩ → readItem item = none →
      HubMove env s (.listen w) (s.setListener w ⟨.listening, queue⟩)
  | taken {w : ι} {item : Item} {queue : List Item} {userId : Int} {message : Json} :
      s.listeners w = ⟨.listening, item :: queue⟩ → readItem item = some (userId, message) →
      HubMove env s (.listen w) (s.setListener w
        ⟨Hub.listenerPhase item message (s.connections w userId), queue⟩)
  | forwardRaised {w : ι} {x : Socket} {item : Item} {message : Json} {remaining : List Socket} :
      (s.listeners w).phase = .sending item message remaining → x ∈ remaining →
      mayRaise s x message true = true →
      HubMove env s (.forward w x true) (s.setListener w ⟨.down, []⟩)
  | forwarded {w : ι} {x : Socket} {item : Item} {message : Json} {remaining : List Socket} :
      (s.listeners w).phase = .sending item message remaining → x ∈ remaining →
      HubMove env s (.forward w x false) ((s.deliver x (some item.call) message).setListener w
        ⟨Hub.listenerPhase item message (remaining.filter fun y => y ≠ x),
          (s.listeners w).queue⟩)
  | crashed {w : ι} : (s.listeners w).phase = .listening →
      HubMove env s (.crash w) (s.setListener w ⟨.down, []⟩)

theorem receive_move {x : Socket} {e : Endpoint ι} {text : List Char}
    (he : s.endpoints x = some e) (hphase : e.phase = .reading) :
    HubMove env s (.receive x text) (receiveFrame s x e text) := by
  unfold receiveFrame
  split
  · rename_i hnone
    exact .malformed he hnone
  · rename_i data hdata
    split
    · rename_i detail hread
      exact .rejected he hdata hread
    · rename_i recipient body hread
      exact .relayed he hphase hdata hread

theorem send_move {c : Nat} {x : Socket} {raises : Bool}
    (h : HubStep env s (.send c x raises) s') : HubMove env s (.send c x raises) s' := by
  simp only [HubStep, hubStep] at h
  split at h
  · rename_i call hcall
    split at h
    · rename_i remaining hphase
      split at h
      · rename_i hguard
        cases raises with
        | true =>
          cases h
          exact .sendRaised hcall hphase hguard.1 hguard.2
        | false =>
          cases h
          exact .sent hcall hphase hguard.1
      · cases h
    · cases h
  · cases h

theorem listen_move {w : ι} (h : HubStep env s (.listen w) s') :
    HubMove env s (.listen w) s' := by
  simp only [HubStep, hubStep] at h
  split at h
  · rename_i item queue hphase hqueue
    have hl : s.listeners w = ⟨.listening, item :: queue⟩ := by
      rw [← hphase, ← hqueue]
    split at h
    · rename_i hread
      cases h
      exact .dropped hl hread
    · rename_i userId message hread
      cases h
      exact .taken hl hread
  · cases h

theorem forward_move {w : ι} {x : Socket} {raises : Bool}
    (h : HubStep env s (.forward w x raises) s') : HubMove env s (.forward w x raises) s' := by
  simp only [HubStep, hubStep] at h
  split at h
  · rename_i item message remaining hphase
    split at h
    · rename_i hguard
      cases raises with
      | true =>
        cases h
        exact .forwardRaised hphase hguard.1 hguard.2
      | false =>
        cases h
        exact .forwarded hphase hguard.1
    · cases h
  · cases h

theorem hub_move (h : HubStep env s event s') : HubMove env s event s' := by
  unfold HubStep at h
  cases event with
  | act w a =>
    simp only [hubStep] at h
    split at h
    · rename_i hnone
      cases h
      exact .acted hnone
    · rename_i user role hsome
      cases h
      exact .granted hsome
  | handshake w token =>
    simp only [hubStep] at h
    split at h
    · cases h
      exact .refused
    · rename_i user huser
      cases h
      exact .opened huser
  | accept x =>
    simp only [hubStep] at h
    split at h
    · rename_i e he
      split at h
      · rename_i hphase
        cases h
        exact .accepted he hphase
      · cases h
    · cases h
  | receive x text =>
    simp only [hubStep] at h
    split at h
    · rename_i e he
      split at h
      · rename_i hphase
        cases h
        exact receive_move he hphase
      · cases h
    · cases h
  | hangUp x =>
    cases h
    exact .hungUp
  | close x =>
    simp only [hubStep] at h
    split at h
    · rename_i e he
      split at h
      · cases h
        exact .closed he
      · cases h
    · cases h
  | send c x raises => exact send_move h
  | publish c up =>
    simp only [hubStep] at h
    split at h
    · rename_i call hcall
      split at h
      · rename_i hphase
        cases h
        exact .published hcall hphase
      · cases h
    · cases h
  | subscribe w =>
    simp only [hubStep] at h
    split at h
    · rename_i hdown
      cases h
      exact .subscribed hdown
    · cases h
  | listen w => exact listen_move h
  | forward w x raises => exact forward_move h
  | crash w =>
    simp only [hubStep] at h
    split at h
    · rename_i hphase
      cases h
      exact .crashed hphase
    · cases h

end StepOutcomes

section AcrossAStep

/-- What the event makes of the database, Redis and the clock. -/
def HubEvent.onServer (env : Env) (server : Server) : HubEvent ι → Server
  | .act _ a => (step env server a).2
  | _ => server

theorem HubMove.server (h : HubMove env s event s') : s'.server = event.onServer env s.server := by
  cases h with
  | acted | refused | hungUp | subscribed | dropped | taken | forwardRaised | crashed | opened
  | accepted | malformed | closed | granted => rfl
  | rejected | forwarded => exact deliver_server _ _ _ _
  | relayed => exact setPhase_server _ _ _
  | sendRaised =>
    unfold Hub.abortCall
    split <;> rfl
  | sent =>
    unfold Hub.continueCall
    split
    · exact (finishCall_server _ _ _).trans (deliver_server _ _ _ _)
    · exact deliver_server _ _ _ _
  | @published _ _ up => cases up <;> exact finishCall_server _ _ _

/-- A step of the workers changes the lists by one connect or one disconnect. -/
theorem HubMove.connections (h : HubMove env s event s') :
    s'.connections = s.connections ∨
      (∃ x e, s'.connections = (s.connect x e).connections) ∨
      ∃ x e, s'.connections = (s.closeEndpoint x e).connections := by
  cases h with
  | acted | refused | hungUp | subscribed | dropped | taken | forwardRaised | crashed | granted
  | opened => exact Or.inl rfl
  | @accepted x e _ _ => exact Or.inr (Or.inl ⟨x, e, rfl⟩)
  | @malformed x e _ _ _ => exact Or.inr (Or.inr ⟨x, e, rfl⟩)
  | @closed x e _ => exact Or.inr (Or.inr ⟨x, e, rfl⟩)
  | rejected => exact Or.inl (deliver_connections _ _ _ _)
  | relayed => exact Or.inl (setPhase_connections _ _ _)
  | sendRaised =>
    unfold Hub.abortCall
    split
    · rename_i x e _
      exact Or.inr (Or.inr ⟨x, e, rfl⟩)
    · exact Or.inl rfl
  | sent =>
    left
    unfold Hub.continueCall
    split
    · exact (finishCall_connections _ _ _).trans (deliver_connections _ _ _ _)
    · exact deliver_connections _ _ _ _
  | @published _ _ up => cases up <;> exact Or.inl (finishCall_connections _ _ _)
  | forwarded => exact Or.inl (deliver_connections _ _ _ _)

inductive SocketMove (s : Hub ι) : HubEvent ι → Hub ι → Prop where
  | keeps {event : HubEvent ι} {s' : Hub ι} : KeepsSockets s s' → SocketMove s event s'
  | accepted {x : Socket} {e : Endpoint ι} :
      s.endpoints x = some e → SocketMove s (.accept x) (s.connect x e)
  | opened {w : ι} {token : Token} {user : User} :
      getCurrentUserWs s.server token = some user →
      SocketMove s (.handshake w token) (s.openSocket w user.id token)

theorem HubMove.sockets (h : HubMove env s event s') : SocketMove s event s' := by
  cases h with
  | acted | refused | hungUp | subscribed | dropped | taken | forwardRaised | crashed | granted =>
    exact .keeps (.of_eq rfl rfl rfl)
  | opened huser => exact .opened huser
  | accepted he => exact .accepted he
  | malformed he => exact .keeps (closeEndpoint_keeps he)
  | closed he => exact .keeps (closeEndpoint_keeps he)
  | rejected => exact .keeps (deliver_keeps _ _ _ _)
  | relayed => exact .keeps ((setPhase_keeps _ _ _).trans (.of_eq rfl rfl rfl))
  | sendRaised => exact .keeps (abortCall_keeps _ _ _)
  | sent => exact .keeps ((deliver_keeps _ _ _ _).trans (continueCall_keeps _ _ _ _))
  | @published c call up =>
    cases up with
    | true =>
      have hfan : KeepsSockets s (s.fanOut (Hub.itemOf c call)) := .of_eq rfl rfl rfl
      exact .keeps (hfan.trans (finishCall_keeps _ _ _))
    | false => exact .keeps (finishCall_keeps _ _ _)
  | forwarded => exact .keeps ((deliver_keeps _ _ _ _).trans (.of_eq rfl rfl rfl))

/-- The event begins a call of `publish_to_user` at the worker. -/
inductive Starts (s : Hub ι) : HubEvent ι → ι → Recipient → Message → Prop where
  | granted {w : ι} {a : Action} {user : User} {role : Role} :
      assignedRole s.server a = some (user, role) →
      Starts s (.act w a) w (.int user.id) (roleNotification role.name)
  | relayed {x : Socket} {e : Endpoint ι} {text : List Char} {data : Json}
      {recipient : Recipient} {body : PyStr} : s.endpoints x = some e → e.phase = .reading →
      loads text = some data → readFrame data = .ok (recipient, body) →
      Starts s (.receive x text) e.worker recipient (privateMessage e.userId body)

/-- Events that neither send nor publish nor concern a listener. -/
def HubEvent.OffStage : HubEvent ι → Prop
  | .act .. | .handshake .. | .accept .. | .receive .. | .hangUp .. | .close .. => True
  | _ => False

/-- What a step does to the calls, the listeners and the inboxes. -/
inductive TrafficMove (s : Hub ι) : HubEvent ι → Hub ι → Prop where
  | quiet {event : HubEvent ι} : event.OffStage →
      (∀ w recipient message, ¬ Starts s event w recipient message) → TrafficMove s event s
  | begun {event : HubEvent ι} {w : ι} {recipient : Recipient} {message : Message}
      (caller : Option Socket) : Starts s event w recipient message →
      TrafficMove s event (s.startCall w recipient message caller)
  | answered {x : Socket} {e : Endpoint ι} {text : List Char} {data : Json} {detail : String} :
      s.endpoints x = some e → loads text = some data → readFrame data = .error detail →
      TrafficMove s (.receive x text) (s.deliver x none (errorFrame detail).toJson)
  | sendRaised {c : Nat} {x : Socket} {call : Call ι} {remaining : List Socket} :
      s.calls c = some call → call.phase = .sending remaining → x ∈ remaining →
      TrafficMove s (.send c x true) (s.setCall c none)
  | sent {c : Nat} {x : Socket} {call : Call ι} {remaining : List Socket} :
      s.calls c = some call → call.phase = .sending remaining → x ∈ remaining →
      TrafficMove s (.send c x false) ((s.deliver x (some c) call.message.toJson).setCall c
        (call.continued (remaining.filter fun y => y ≠ x)))
  | published {c : Nat} {call : Call ι} {up : Bool} :
      s.calls c = some call → call.phase = .publishing →
      TrafficMove s (.publish c up)
        ((if up then s.fanOut (Hub.itemOf c call) else s).setCall c none)
  | subscribed {w : ι} : (s.listeners w).phase = .down →
      TrafficMove s (.subscribe w) (s.setListener w ⟨.listening, []⟩)
  | dropped {w : ι} {item : Item} {queue : List Item} :
      s.listeners w = ⟨.listening, item :: queue⟩ → readItem item = none →
      TrafficMove s (.listen w) (s.setListener w ⟨.listening, queue⟩)
  | taken {w : ι} {item : Item} {queue : List Item} {userId : Int} {message : Json} :
      s.listeners w = ⟨.listening, item :: queue⟩ → readItem item = some (userId, message) →
      TrafficMove s (.listen w) (s.setListener w
        ⟨Hub.listenerPhase item message (s.connections w userId), queue⟩)
  | forwardRaised {w : ι} {x : Socket} {item : Item} {message : Json} {remaining : List Socket} :
      (s.listeners w).phase = .sending item message remaining → x ∈ remaining →
      TrafficMove s (.forward w x true) (s.setListener w ⟨.down, []⟩)
  | forwarded {w : ι} {x : Socket} {item : Item} {message : Json} {remaining : List Socket} :
      (s.listeners w).phase = .sending item message remaining → x ∈ remaining →
      TrafficMove s (.forward w x false) ((s.deliver x (some item.call) message).setListener w
        ⟨Hub.listenerPhase item message (remaining.filter fun y => y ≠ x),
          (s.listeners w).queue⟩)
  | crashed {w : ι} : (s.listeners w).phase = .listening →
      TrafficMove s (.crash w) (s.setListener w ⟨.down, []⟩)

theorem HubMove.traffic (h : HubMove env s event s') :
    ∃ s₁, TrafficMove s event s₁ ∧ SameTraffic s₁ s' := by
  cases h with
  | acted hnone =>
    refine ⟨s, .quiet trivial ?_, ⟨rfl, rfl, rfl, rfl⟩⟩
    rintro w recipient message ⟨hrole⟩
    cases hnone.symm.trans hrole
  | granted hrole =>
    exact ⟨_, .begun none (.granted hrole), ⟨rfl, rfl, rfl, rfl⟩⟩
  | refused | opened | accepted | hungUp | closed =>
    refine ⟨s, .quiet trivial ?_, ⟨rfl, rfl, rfl, rfl⟩⟩
    rintro w recipient message ⟨⟩
  | malformed he hnone =>
    refine ⟨s, .quiet trivial ?_, closeEndpoint_traffic _ _ _⟩
    rintro w recipient message ⟨⟩
    rename_i hdata _
    cases hnone.symm.trans hdata
  | rejected he hdata hread => exact ⟨_, .answered he hdata hread, ⟨rfl, rfl, rfl, rfl⟩⟩
  | @relayed x e text data recipient body he hphase hdata hread =>
    exact ⟨_, .begun (some x) (.relayed he hphase hdata hread),
      startCall_traffic (setPhase_traffic s x .relaying) (setPhase_connections s x .relaying)⟩
  | sendRaised hcall hphase hx =>
    exact ⟨_, .sendRaised hcall hphase hx, abortCall_traffic _ _ _⟩
  | sent hcall hphase hx => exact ⟨_, .sent hcall hphase hx, continueCall_traffic _ _ _ _⟩
  | published hcall hphase => exact ⟨_, .published hcall hphase, finishCall_traffic _ _ _⟩
  | subscribed hdown => exact ⟨_, .subscribed hdown, ⟨rfl, rfl, rfl, rfl⟩⟩
  | dropped hl hread => exact ⟨_, .dropped hl hread, ⟨rfl, rfl, rfl, rfl⟩⟩
  | taken hl hread => exact ⟨_, .taken hl hread, ⟨rfl, rfl, rfl, rfl⟩⟩
  | forwardRaised hphase hx => exact ⟨_, .forwardRaised hphase hx, ⟨rfl, rfl, rfl, rfl⟩⟩
  | forwarded hphase hx => exact ⟨_, .forwarded hphase hx, ⟨rfl, rfl, rfl, rfl⟩⟩
  | crashed hphase => exact ⟨_, .crashed hphase, ⟨rfl, rfl, rfl, rfl⟩⟩

end AcrossAStep

section Traffic

variable {s₁ : Hub ι}

theorem TrafficMove.nextCall (h : TrafficMove s event s₁) :
    (s₁.nextCall = s.nextCall ∧ ∀ w recipient message, ¬ Starts s event w recipient message) ∨
      (s₁.nextCall = s.nextCall + 1 ∧
        ∃ w recipient message, Starts s event w recipient message) := by
  cases h with
  | quiet _ hquiet => exact .inl ⟨rfl, hquiet⟩
  | begun _ hstarts => exact .inr ⟨rfl, _, _, _, hstarts⟩
  | answered he hdata hread =>
    refine .inl ⟨deliver_nextCall _ _ _ _, ?_⟩
    rintro w recipient message ⟨⟩
    rename_i hdata' hread'
    cases hdata.symm.trans hdata'
    cases hread.symm.trans hread'
  | sent =>
    refine .inl ⟨deliver_nextCall _ _ _ _, ?_⟩
    rintro w recipient message ⟨⟩
  | @published c call up =>
    refine .inl ⟨?_, ?_⟩
    · cases up <;> rfl
    · rintro w recipient message ⟨⟩
  | forwarded =>
    refine .inl ⟨deliver_nextCall _ _ _ _, ?_⟩
    rintro w recipient message ⟨⟩
  | sendRaised | subscribed | dropped | taken | forwardRaised | crashed =>
    refine .inl ⟨rfl, ?_⟩
    rintro w recipient message ⟨⟩

/-- A call goes on, or it begins. -/
theorem TrafficMove.calls (h : TrafficMove s event s₁) {c : Nat} {later : Call ι}
    (hc : s₁.calls c = some later) :
    (∃ call, s.calls c = some call ∧ call.Continues later) ∨
      (c = s.nextCall ∧ Starts s event later.worker later.recipient later.message ∧
        ∀ remaining, later.phase = .sending remaining →
          remaining = s.connections later.worker later.recipient.key) := by
  have hold : s.calls c = some later → ∃ call, s.calls c = some call ∧ call.Continues later :=
    fun h => ⟨later, h, .rfl later⟩
  cases h with
  | quiet | subscribed | dropped | taken | forwardRaised | crashed => exact .inl (hold hc)
  | begun _ hstarts =>
    rcases calls_of_setCall hc with hc | ⟨rfl, hnew⟩
    · exact .inl (hold hc)
    · cases hnew
      refine .inr ⟨rfl, hstarts, fun remaining hphase => ?_⟩
      dsimp only at hphase
      split at hphase
      · cases hphase
      · exact (CallPhase.sending.inj hphase).symm
  | answered => exact .inl (hold (deliver_calls _ _ _ _ ▸ hc))
  | sendRaised =>
    rcases calls_of_setCall hc with hc | ⟨_, hnew⟩
    · exact .inl (hold hc)
    · cases hnew
  | sent hcall hphase =>
    rcases calls_of_setCall hc with hc | ⟨rfl, hnew⟩
    · exact .inl (hold (deliver_calls _ _ _ _ ▸ hc))
    · exact .inl ⟨_, hcall, Call.continues_of_continued hphase (List.filter_subset_self _) hnew⟩
  | @published _ _ up =>
    rcases calls_of_setCall hc with hc | ⟨_, hnew⟩
    · cases up <;> exact .inl (hold hc)
    · cases hnew
  | forwarded => exact .inl (hold (deliver_calls _ _ _ _ ▸ hc))

theorem ListenerMove.of_setListener {v w : ι} {l : Listener} (h : ListenerMove s v l) :
    ListenerMove s w ((s.setListener v l).listeners w) := by
  rcases listeners_of_setListener s v l w with ⟨rfl, heq⟩ | ⟨_, heq⟩
  · rwa [heq]
  · rw [heq]
    exact .stays

theorem TrafficMove.listeners (h : TrafficMove s event s₁) (w : ι) :
    ListenerMove s w (s₁.listeners w) := by
  cases h with
  | quiet | begun | sendRaised => exact .stays
  | answered => exact deliver_listeners s _ _ _ ▸ .stays
  | @sent c x call => exact deliver_listeners s x (some c) call.message.toJson ▸ .stays
  | @published c call up hcall =>
    cases up with
    | false => exact .stays
    | true =>
      change ListenerMove s w ((s.fanOut (Hub.itemOf c call)).listeners w)
      unfold Hub.fanOut
      dsimp only
      split
      · exact .stays
      · rename_i hup
        exact .hears hcall hup
  | subscribed => exact .of_setListener (.idles (List.nil_subset _))
  | dropped hl => exact .of_setListener (.idles (hl ▸ List.subset_cons_self _ _))
  | taken hl hread => exact .of_setListener (.takes hl hread)
  | forwardRaised | crashed => exact .of_setListener .stops
  | @forwarded v x item message remaining hphase =>
    rcases listeners_of_setListener (s.deliver x (some item.call) message) v
      ⟨Hub.listenerPhase item message (remaining.filter fun y => y ≠ x),
        (s.listeners v).queue⟩ w with ⟨rfl, hnew⟩ | ⟨_, hnew⟩
    · rw [hnew]
      exact .forwards hphase
    · rw [hnew, deliver_listeners]
      exact .stays

/-- A frame at a client was there before, or reaches it at this step. -/
inductive Receives (s : Hub ι) : HubEvent ι → Socket → Received → Prop where
  | answered {x : Socket} {e : Endpoint ι} {text : List Char} {data : Json} {detail : String} :
      s.endpoints x = some e → loads text = some data → readFrame data = .error detail →
      Receives s (.receive x text) x ⟨none, (errorFrame detail).toJson⟩
  | sent {c : Nat} {x : Socket} {call : Call ι} {remaining : List Socket} :
      s.calls c = some call → call.phase = .sending remaining → x ∈ remaining →
      Receives s (.send c x false) x ⟨some c, call.message.toJson⟩
  | forwarded {w : ι} {x : Socket} {item : Item} {message : Json} {remaining : List Socket} :
      (s.listeners w).phase = .sending item message remaining → x ∈ remaining →
      Receives s (.forward w x false) x ⟨some item.call, message⟩

theorem TrafficMove.inbox (h : TrafficMove s event s₁) {x : Socket} {received : Received}
    (hr : received ∈ s₁.inbox x) : received ∈ s.inbox x ∨ Receives s event x received := by
  cases h with
  | quiet | begun | sendRaised | subscribed | dropped | taken | forwardRaised | crashed =>
    exact .inl hr
  | @published _ _ up => cases up <;> exact .inl hr
  | answered he hdata hread =>
    rcases inbox_of_deliver hr with hr | ⟨rfl, rfl⟩
    · exact .inl hr
    · exact .inr (.answered he hdata hread)
  | sent hcall hphase hx =>
    rcases inbox_of_deliver hr with hr | ⟨rfl, rfl⟩
    · exact .inl hr
    · exact .inr (.sent hcall hphase hx)
  | forwarded hphase hx =>
    rcases inbox_of_deliver hr with hr | ⟨rfl, rfl⟩
    · exact .inl hr
    · exact .inr (.forwarded hphase hx)

end Traffic

end FastApiAuth
