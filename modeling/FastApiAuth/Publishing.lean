import FastApiAuth.Authenticity
import FastApiAuth.Library.JsonLimits
import FastApiAuth.Library.RaisingLoop

/-!
# What a push can do to its caller

publish_to_user catches what Redis raises. The sends to the sockets of its own worker stand
before that, and what they raise goes to the caller: to the admin's request after its commit,
and to the loop of the socket that the message came from.
-/

namespace FastApiAuth.Publishing

set_option autoImplicit false

open PyJson RaisingLoop

section Sending

/-- What `send_json` raises: that the client is gone, or anything else. -/
inductive SendError where
  | webSocketDisconnect
  | other
  deriving DecidableEq

/-- The connection manager of a worker, and what sending a frame to a socket raises. -/
structure Sockets where
  connections : Int → List Socket
  send : Socket → Json → Option SendError

/-- The sockets that got the frame, and the answer or the exception. -/
def sendLocal (sockets : Sockets) (userId : Int) (frame : Json) :
    List Socket × Except SendError Bool :=
  let connections := sockets.connections userId
  if connections = [] then ([], .ok false)
  else
    match visit (fun x => sockets.send x frame) connections with
    | (reached, none) => (reached, .ok true)
    | (reached, some e) => (reached, .error e)

structure Publication where
  reached : List Socket
  published : Option (String × List Char)
  raised : Option SendError

/-- `redisUp` is false when one of the calls of the Redis client raises. -/
def publishToUser (sockets : Sockets) (redisUp : Bool) (recipient : Recipient)
    (message : Message) : Publication :=
  match sendLocal sockets recipient.key message.toJson with
  | (reached, .error e) => ⟨reached, none, some e⟩
  | (reached, .ok true) => ⟨reached, none, none⟩
  | (reached, .ok false) =>
    if redisUp then ⟨reached, some (userChannelPrefix ++ recipient.str, dumps message), none⟩
    else ⟨reached, none, none⟩

/-- No socket of the user on this worker raises. -/
def Takes (sockets : Sockets) (userId : Int) (message : Message) : Prop :=
  ∀ x ∈ sockets.connections userId, sockets.send x message.toJson = none

end Sending

section Publish

variable {sockets : Sockets} {userId : Int} {redisUp : Bool} {recipient : Recipient}
variable {message : Message}

theorem sendLocal_cases (sockets : Sockets) (userId : Int) (frame : Json) :
    (∃ delivered, sendLocal sockets userId frame =
      ((visit (fun x => sockets.send x frame) (sockets.connections userId)).1, .ok delivered) ∧
      (visit (fun x => sockets.send x frame) (sockets.connections userId)).2 = none) ∨
    ∃ e, sendLocal sockets userId frame =
      ((visit (fun x => sockets.send x frame) (sockets.connections userId)).1, .error e) ∧
      (visit (fun x => sockets.send x frame) (sockets.connections userId)).2 = some e := by
  unfold sendLocal
  dsimp only
  split
  · rename_i hnone
    rw [hnone]
    exact Or.inl ⟨false, rfl, rfl⟩
  · split
    · rename_i hvisit
      rw [hvisit]
      exact Or.inl ⟨true, rfl, rfl⟩
    · rename_i e hvisit
      rw [hvisit]
      exact Or.inr ⟨e, rfl, rfl⟩

theorem sendLocal_returns_iff :
    (∃ delivered, (sendLocal sockets userId message.toJson).2 = .ok delivered) ↔
      Takes sockets userId message := by
  have hreturns : (visit (fun x => sockets.send x message.toJson)
      (sockets.connections userId)).2 = none ↔ Takes sockets userId message := visit_returns_iff
  rw [← hreturns]
  rcases sendLocal_cases sockets userId message.toJson with ⟨delivered, hlocal, hvisit⟩ |
    ⟨e, hlocal, hvisit⟩
  · rw [hlocal, hvisit]
    exact iff_of_true ⟨delivered, rfl⟩ rfl
  · rw [hlocal, hvisit]
    simp

theorem publishToUser_returns_iff :
    (publishToUser sockets redisUp recipient message).raised = none ↔
      Takes sockets recipient.key message := by
  rw [← sendLocal_returns_iff]
  unfold publishToUser
  split
  · rename_i hlocal
    simp [hlocal]
  · rename_i hlocal
    simp [hlocal]
  · rename_i hlocal
    simp only [hlocal]
    split <;> simp

end Publish

section AssignRole

variable (env : Env) (sockets : Sockets) (redisUp : Bool)

/-- The handler with its push; what the push raises becomes a 500. -/
def assignRolePushing (userId : Int) (roleName : String) (s : Server) : Outcome :=
  match s.db.userById userId with
  | none => (.error userNotFound, s)
  | some user =>
    match s.db.roleByName roleName with
    | none => (.error roleNotFound, s)
    | some role =>
      if role ∈ s.db.rolesOf user.id then (userResponse env s user, s)
      else
        let s := { s with db := s.db.addUserRole user.id role.id }
        let message := roleNotification role.name
        match (publishToUser sockets redisUp (.int user.id) message).raised with
        | some _ => (.error internalServerError, s)
        | none => (userResponse env s user, s)

def assignRoleRoute (credentials : Token) (userId : Int) (roleName : String) (s : Server) :
    Outcome :=
  withPermissions s credentials ["roles:manage"] fun _ =>
    assignRolePushing env sockets redisUp userId roleName s

end AssignRole

section Route

variable {env : Env} {sockets : Sockets} {redisUp : Bool} {credentials : Token} {userId : Int}
variable {roleName : String} {s : Server} {user : User} {role : Role}

theorem assignRolePushing_eq :
    assignRolePushing env sockets redisUp userId roleName s =
      assignRole env userId roleName
        (publishToUser sockets redisUp (.int userId) (roleNotification roleName)).raised.isNone
        s := by
  unfold assignRolePushing assignRole
  cases huser : s.db.userById userId with
  | none => rfl
  | some user =>
    obtain rfl := (Database.userById_some huser).2
    cases hrole : s.db.roleByName roleName with
    | none => rfl
    | some role =>
      obtain rfl := (Database.roleByName_some hrole).2
      by_cases hheld : role ∈ s.db.rolesOf user.id
      · simp only [if_pos hheld]
      · simp only [if_neg hheld]
        cases (publishToUser sockets redisUp (.int user.id) (roleNotification role.name)).raised <;>
          rfl

/-- The route is the one of the API, with what becomes of its push. -/
theorem assignRoleRoute_eq :
    assignRoleRoute env sockets redisUp credentials userId roleName s =
      handle env (.assignRole credentials userId roleName
        (publishToUser sockets redisUp (.int userId) (roleNotification roleName)).raised.isNone)
        s := by
  change withPermissions s credentials ["roles:manage"] _ = withPermissions s credentials _ _
  simp only [assignRolePushing_eq]

theorem userResponse_ok_iff :
    (∃ body, userResponse env s user = .ok body) ↔ env.emailStr user.email ≠ none := by
  unfold userResponse
  cases env.emailStr user.email <;> simp

/-- A request that grants a role has committed it, and answers with success just when the
push returns and the response model takes the address of the user. -/
theorem assignRoleRoute_granted {pushed : Bool}
    (hgrants : assignedRole s (.request (.assignRole credentials userId roleName pushed)) =
      some (user, role)) :
    role ∈ (assignRoleRoute env sockets redisUp credentials userId roleName s).2.db.rolesOf
        user.id ∧
      ((∃ body, (assignRoleRoute env sockets redisUp credentials userId roleName s).1 =
          .ok body) ↔
        (publishToUser sockets redisUp (.int user.id) (roleNotification role.name)).raised =
          none ∧ env.emailStr user.email ≠ none) := by
  obtain ⟨_, _, _, _, admin, haction, hadmin, huser, hrole, hnew⟩ :=
    Authenticity.assignedRole_some hgrants
  cases haction
  have hrow : role ∈ (s.db.addUserRole user.id role.id).rolesOf user.id := by
    apply Database.mem_rolesOf.mpr
    refine ⟨(Database.roleByName_some hrole).1, ?_⟩
    exact List.mem_append_right _ (List.mem_singleton_self _)
  unfold assignRoleRoute withPermissions assignRolePushing
  simp only [hadmin, huser, hrole, if_neg hnew]
  split
  · rename_i e hraised
    simp [hraised, hrow]
  · rename_i hraised
    simp [hraised, hrow, userResponse_ok_iff]

end Route

section WebsocketEndpoint

inductive ClientFrame where
  | text (text : List Char)
  | binary (bytes : List UInt8)

inductive LoopError where
  | decoding (e : LoadsError)
  | keyError
  | raised (e : SendError)
  deriving DecidableEq

/-- `websocket.receive_json()` reads the text of a frame and finds none in a binary one. -/
def receiveJson (limits : Limits) : ClientFrame → Except LoopError Json
  | .binary _ => .error .keyError
  | .text text =>
    match loadsWithin limits text with
    | .error e => .error (.decoding e)
    | .ok data => .ok data

inductive Reaction where
  | errorFrame (detail : String)
  | publish (recipient : Recipient) (message : Message)

def reactionTo (userId : Int) (data : Json) : Reaction :=
  match readFrame data with
  | .error detail => .errorFrame detail
  | .ok (recipient, body) => .publish recipient (privateMessage userId body)

def Reaction.perform (sockets : Sockets) (redisUp : Bool) (own : Socket) :
    Reaction → Option SendError
  | .errorFrame detail => sockets.send own (FastApiAuth.errorFrame detail).toJson
  | .publish recipient message => (publishToUser sockets redisUp recipient message).raised

/-- One round of the loop: how the frame is answered, and what leaves the loop. -/
def loopBody (limits : Limits) (sockets : Sockets) (redisUp : Bool) (own : Socket) (userId : Int)
    (frame : ClientFrame) : Option Reaction × Option LoopError :=
  match receiveJson limits frame with
  | .error e => (none, some e)
  | .ok data =>
    let reaction := reactionTo userId data
    (some reaction, (reaction.perform sockets redisUp own).map .raised)

theorem receiveJson_ok {limits : Limits} {frame : ClientFrame} {data : Json}
    (h : receiveJson limits frame = .ok data) :
    ∃ text, frame = .text text ∧ loadsWithin limits text = .ok data := by
  cases frame with
  | binary bytes => cases h
  | text text =>
    refine ⟨text, rfl, ?_⟩
    simp only [receiveJson] at h
    split at h
    · cases h
    · rename_i hread
      cases h
      exact hread

/-- The round of the hub's endpoint, for a text of a connected client. The hub knows no
limits. -/
theorem receiveFrame_eq {ι : Type} [DecidableEq ι] (s : Hub ι) (x : Socket) (e : Endpoint ι)
    (text : List Char) {limits : Limits} (hwithin : ∀ data, loads text = some data →
      data.within limits.maxStrDigits limits.depth = true) :
    receiveFrame s x e text =
      match receiveJson limits (.text text) with
      | .error _ => s.closeEndpoint x e
      | .ok data =>
        match reactionTo e.userId data with
        | .errorFrame detail => s.deliver x none (FastApiAuth.errorFrame detail).toJson
        | .publish recipient message =>
          (s.setPhase x .relaying).startCall e.worker recipient message (some x) := by
  unfold receiveFrame receiveJson reactionTo
  cases hread : loadsWithin limits text with
  | error e =>
    have hnone : loads text = none := by
      cases hloads : loads text with
      | none => rfl
      | some data =>
        cases hread.symm.trans (loadsWithin_ok_iff.mpr ⟨hloads, hwithin data hloads⟩)
    simp only [hnone, hread]
  | ok data =>
    simp only [loads_of_loadsWithin hread, hread]
    cases readFrame data with
    | error detail => rfl
    | ok read => rfl

theorem loopBody_message {limits : Limits} {sockets : Sockets} {redisUp : Bool} {own : Socket}
    {userId : Int} {frame : ClientFrame} {data : Json} {recipient : Recipient} {body : PyStr}
    (hdata : receiveJson limits frame = .ok data)
    (hread : readFrame data = .ok (recipient, body)) :
    (loopBody limits sockets redisUp own userId frame).2 = none ↔
      (publishToUser sockets redisUp recipient (privateMessage userId body)).raised = none := by
  unfold loopBody reactionTo
  simp only [hdata, hread, Reaction.perform, Option.map_eq_none_iff]

/-- A push returns just when no socket of the recipient on this worker raises. Just then, too,
the loop of the sender goes on, and a request that grants a role answers with success if its
response model takes the address of the user. -/
theorem push_never_fails_iff (env : Env) (limits : Limits) (sockets : Sockets) (redisUp : Bool) :
    (∀ recipient message, (publishToUser sockets redisUp recipient message).raised = none ↔
      Takes sockets recipient.key message) ∧
    (∀ s credentials userId roleName pushed user role,
      assignedRole s (.request (.assignRole credentials userId roleName pushed)) =
        some (user, role) →
      role ∈ (assignRoleRoute env sockets redisUp credentials userId roleName s).2.db.rolesOf
          user.id ∧
      ((∃ body, (assignRoleRoute env sockets redisUp credentials userId roleName s).1 =
          .ok body) ↔
        Takes sockets user.id (roleNotification role.name) ∧
          env.emailStr user.email ≠ none)) ∧
    ∀ own userId frame data recipient body, receiveJson limits frame = .ok data →
      readFrame data = .ok (recipient, body) →
      ((loopBody limits sockets redisUp own userId frame).2 = none ↔
        Takes sockets recipient.key (privateMessage userId body)) := by
  refine ⟨?_, ?_, ?_⟩
  · intro recipient message
    exact publishToUser_returns_iff
  · intro s credentials userId roleName pushed user role hgrants
    obtain ⟨hcommitted, hanswers⟩ := assignRoleRoute_granted hgrants
    exact ⟨hcommitted, hanswers.trans (and_congr_left' publishToUser_returns_iff)⟩
  · intro own userId frame data recipient body hdata hread
    exact (loopBody_message hdata hread).trans publishToUser_returns_iff

/-- The digits that `int` reads by default. How deep the decoder gets depends on the build of
the interpreter. -/
def defaultLimits : Limits := ⟨4300, 1000⟩

/-- A socket whose client is gone, and the message of another client to its user. -/
def closedSocket : Sockets := ⟨fun _ => [1], fun _ _ => some .webSocketDisconnect⟩

theorem closed_socket_raises :
    (publishToUser closedSocket true (.int 1) (roleNotification "admin")).raised =
      some .webSocketDisconnect ∧
    (loopBody defaultLimits closedSocket true 2 2 (.text helloText)).2 =
      some (.raised .webSocketDisconnect) := by
  decide +kernel

end WebsocketEndpoint

section Hub

variable {ι : Type} {s s' : Hub ι} {c : Nat} {call : Call ι}
variable {x own : Socket} {e : Endpoint ι} {remaining : List Socket} {raises : Socket → Bool}

theorem deliver_endpoints (s : Hub ι) (x : Socket) (origin : Option Nat) (frame : Json) :
    (s.deliver x origin frame).endpoints = s.endpoints := by
  unfold Hub.deliver
  split <;> rfl

theorem deliver_connected (s : Hub ι) (x : Socket) (origin : Option Nat) (frame : Json) :
    (s.deliver x origin frame).connected = s.connected := by
  unfold Hub.deliver
  split <;> rfl

/-- The sends of one loop over sockets, up to the first that raises. -/
def sendEvents (event : Socket → Bool → HubEvent ι) (raises : Socket → Bool) :
    List Socket → List (HubEvent ι)
  | [] => []
  | x :: remaining =>
    if raises x then [event x true] else event x false :: sendEvents event raises remaining

/-- The endpoint of the caller at the end of a call: it reads on if nothing was raised. -/
def phaseAfter (raised : Bool) : EndpointPhase := if raised then .closed else .reading

theorem mayRaise_eq (h : s'.connected = s.connected) (x : Socket)
    (frame : Json) (raises : Bool) : mayRaise s' x frame raises = mayRaise s x frame raises := by
  rw [mayRaise, mayRaise, h]

theorem filter_head_of_nodup {rest : List Socket} (hnodup : (x :: rest).Nodup) :
    ((x :: rest).filter fun y => y ≠ x) = rest := by
  have hx := (List.nodup_cons.mp hnodup).1
  rw [List.filter_cons_of_neg (by simp), List.filter_eq_self]
  intro y hy
  simp only [ne_eq, decide_not, Bool.not_eq_eq_eq_not, Bool.not_true, decide_eq_false_iff_not]
  rintro rfl
  exact hx hy

/-- The call is at these sockets, or it has returned and its endpoint reads on. -/
structure CallRemains (c : Nat) (call : Call ι) (own : Socket) (e : Endpoint ι)
    (raises : Socket → Bool) (s : Hub ι) (remaining : List Socket) : Prop where
  nodup : remaining.Nodup
  may : ∀ x ∈ remaining, mayRaise s x call.message.toJson (raises x) = true
  sending : remaining ≠ [] →
    s.calls c = some { call with phase := .sending remaining } ∧ s.endpoints own = some e
  returned : remaining = [] →
    s.calls c = none ∧ s.endpoints own = some { e with phase := .reading }

theorem callRemains_continue {rest : List Socket} (hcaller : call.caller = some own)
    (hown : s.endpoints own = some e) (hnodup : rest.Nodup)
    (hmay : ∀ z ∈ rest, mayRaise s z call.message.toJson (raises z) = true) :
    CallRemains c call own e raises
      ((s.deliver x (some c) call.message.toJson).continueCall c call rest) rest := by
  have hown' : (s.deliver x (some c) call.message.toJson).endpoints own = some e := by
    rw [deliver_endpoints, hown]
  cases rest with
  | nil =>
    have hfinish : (s.deliver x (some c) call.message.toJson).continueCall c call [] =
        ((s.deliver x (some c) call.message.toJson).setCall c none).setEndpoint own
          { e with phase := .reading } := by
      rw [Hub.continueCall, if_pos rfl]
      simp only [Hub.finishCall, hcaller, Hub.setPhase, Hub.setCall, hown']
    rw [hfinish]
    constructor
    · exact hnodup
    · simp
    · intro hne
      exact absurd rfl hne
    · intro _
      exact ⟨Function.update_self _ _ _, Function.update_self _ _ _⟩
  | cons y rest =>
    rw [Hub.continueCall, if_neg (List.cons_ne_nil y rest)]
    constructor
    · exact hnodup
    · intro z hz
      have hconnected : ∀ call', ((s.deliver x (some c) call.message.toJson).setCall c
          call').connected = s.connected := by
        intro call'
        exact deliver_connected s x (some c) call.message.toJson
      rw [mayRaise_eq (hconnected _)]
      exact hmay z hz
    · intro _
      exact ⟨Function.update_self _ _ _, hown'⟩
    · intro hnil
      cases hnil

variable [DecidableEq ι]

theorem hub_send_raises (env : Env) (hcall : s.calls c = some call)
    (hphase : call.phase = .sending remaining)
    (hcaller : call.caller = some own) (hown : s.endpoints own = some e) (hx : x ∈ remaining)
    (hmay : mayRaise s x call.message.toJson true = true) :
    ∃ s', hubStep env s (.send c x true) = some s' ∧ s'.calls c = none ∧
      s'.endpoints own = some { e with phase := .closed } := by
  have hstep : hubStep env s (.send c x true) = some (s.abortCall c call) := by
    simp only [hubStep, hcall, hphase, if_pos (And.intro hx hmay), if_true]
  refine ⟨_, hstep, ?_⟩
  have habort : s.abortCall c call = (s.setCall c none).closeEndpoint own e := by
    simp only [Hub.abortCall, hcaller, Option.bind_some, hown, Option.map_some]
  rw [habort]
  exact ⟨Function.update_self _ _ _, Function.update_self _ _ _⟩

theorem hub_send_returns (env : Env) {rest : List Socket} (hcall : s.calls c = some call)
    (hphase : call.phase = .sending (x :: rest)) (hnodup : (x :: rest).Nodup)
    (hmay : mayRaise s x call.message.toJson false = true) :
    hubStep env s (.send c x false) =
      some ((s.deliver x (some c) call.message.toJson).continueCall c call rest) := by
  have hfilter := filter_head_of_nodup hnodup
  simp only [hubStep, hcall, hphase, if_pos (And.intro List.mem_cons_self hmay), hfilter]
  simp

/-- A loop of sends, from what each of them does: `Remain` is about the hub and the sockets
still to come, and `Ended` about the hub after an exception. -/
theorem sendEvents_run (env : Env) {event : Socket → Bool → HubEvent ι}
    (Remain : Hub ι → List Socket → Prop) (Ended : Hub ι → Prop)
    (hsend : ∀ s x rest, Remain s (x :: rest) → ∃ s',
      hubStep env s (event x (raises x)) = some s' ∧
        (raises x = true → Ended s') ∧ (raises x = false → Remain s' rest))
    (h : Remain s remaining) :
    ∃ s', (sendEvents event raises remaining).foldlM (hubStep env) s = some s' ∧
      (remaining.any raises = true → Ended s') ∧
      (remaining.any raises = false → Remain s' []) := by
  induction remaining generalizing s with
  | nil => exact ⟨s, rfl, by simp, fun _ => h⟩
  | cons x rest ih =>
    obtain ⟨s₁, hstep, hended, hremain⟩ := hsend s x rest h
    cases hraises : raises x with
    | true =>
      rw [hraises] at hstep
      refine ⟨s₁, ?_, fun _ => hended hraises, ?_⟩
      · simp [sendEvents, hraises, hstep]
      · simp [hraises]
    | false =>
      rw [hraises] at hstep
      obtain ⟨s', hrun, hends⟩ := ih (hremain hraises)
      refine ⟨s', ?_, ?_⟩
      · simpa [sendEvents, hraises, hstep] using hrun
      · simpa [hraises] using hends

theorem callRemains_send (env : Env) {rest : List Socket} (hcaller : call.caller = some own)
    (h : CallRemains c call own e raises s (x :: rest)) :
    ∃ s', hubStep env s (.send c x (raises x)) = some s' ∧
      (raises x = true → s'.calls c = none ∧
        s'.endpoints own = some { e with phase := .closed }) ∧
      (raises x = false → CallRemains c call own e raises s' rest) := by
  obtain ⟨hcall, hown⟩ := h.sending (List.cons_ne_nil x rest)
  have hx := h.may x List.mem_cons_self
  cases hraises : raises x with
  | true =>
    rw [hraises] at hx
    obtain ⟨s', hstep, hended⟩ :=
      hub_send_raises env hcall rfl hcaller hown List.mem_cons_self hx
    exact ⟨s', hstep, fun _ => hended, by simp⟩
  | false =>
    rw [hraises] at hx
    refine ⟨_, hub_send_returns env hcall rfl h.nodup hx, by simp, fun _ => ?_⟩
    apply callRemains_continue hcaller hown (List.nodup_cons.mp h.nodup).2
    intro z hz
    exact h.may z (List.mem_cons_of_mem x hz)

/-- A call of the hub whose sends go as in `visit` ends with it: the endpoint that called goes
on just when nothing was raised. -/
theorem hub_call_ends (env : Env) (hcall : s.calls c = some call)
    (hphase : call.phase = .sending remaining)
    (hcaller : call.caller = some own) (hown : s.endpoints own = some e)
    (hne : remaining ≠ []) (hnodup : remaining.Nodup)
    (hmay : ∀ x ∈ remaining, mayRaise s x call.message.toJson (raises x) = true) :
    ∃ s', (sendEvents (.send c) raises remaining).foldlM (hubStep env) s = some s' ∧
      s'.calls c = none ∧
      s'.endpoints own = some { e with phase := phaseAfter (remaining.any raises) } := by
  have hremains : CallRemains c call own e raises s remaining := by
    constructor
    · exact hnodup
    · exact hmay
    · intro _
      rw [hcall, ← hphase]
      exact ⟨rfl, hown⟩
    · intro hnil
      exact absurd hnil hne
  obtain ⟨s', hrun, hended, hreturned⟩ := sendEvents_run env (CallRemains c call own e raises)
    (fun s' => s'.calls c = none ∧ s'.endpoints own = some { e with phase := .closed })
    (fun s x rest h => callRemains_send env hcaller h) hremains
  refine ⟨s', hrun, ?_⟩
  cases hany : remaining.any raises with
  | true => exact hended hany
  | false => exact (hreturned hany).returned rfl

/-- The hub lets the endpoint of the sender go on just when publish_to_user returns. -/
theorem hub_agrees_with_publish (env : Env) (sockets : Sockets) (redisUp : Bool)
    (hcall : s.calls c = some call)
    (hphase : call.phase = .sending (sockets.connections call.recipient.key))
    (hcaller : call.caller = some own) (hown : s.endpoints own = some e)
    (hne : sockets.connections call.recipient.key ≠ [])
    (hnodup : (sockets.connections call.recipient.key).Nodup)
    (hmay : ∀ x ∈ sockets.connections call.recipient.key, mayRaise s x call.message.toJson
      (sockets.send x call.message.toJson).isSome = true) :
    ∃ s', (sendEvents (.send c) (fun x => (sockets.send x call.message.toJson).isSome)
        (sockets.connections call.recipient.key)).foldlM (hubStep env) s = some s' ∧
      s'.calls c = none ∧
      s'.endpoints own = some { e with
        phase := phaseAfter
          (publishToUser sockets redisUp call.recipient call.message).raised.isSome } := by
  have hraised : (publishToUser sockets redisUp call.recipient call.message).raised.isSome =
      (sockets.connections call.recipient.key).any fun x =>
        (sockets.send x call.message.toJson).isSome := by
    rw [Bool.eq_iff_iff, ← not_iff_not, Bool.not_eq_true, Bool.not_eq_true,
      Option.isSome_eq_false_iff, Option.isNone_iff_eq_none, publishToUser_returns_iff]
    simp [Takes]
  rw [hraised]
  exact hub_call_ends env hcall hphase hcaller hown hne hnodup hmay

end Hub

end FastApiAuth.Publishing
