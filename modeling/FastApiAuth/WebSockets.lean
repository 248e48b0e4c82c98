import FastApiAuth.Api
import FastApiAuth.Library.PyJson
import Mathlib.Logic.Function.Basic

/-!
# app/api/websocket.py, app/services/connection_manager.py and ws_pubsub.py

Any number of workers, each with its own connection manager and its own listener on the
Redis channels, in front of one database and one Redis. Everything between two awaits is
one step. A socket, a call of `publish_to_user` and a message in Redis are told apart by
numbers; those of the calls are carried along with what the calls send.
-/

namespace FastApiAuth

set_option autoImplicit false

open PyJson

universe u

abbrev Socket := Nat

/-- `isinstance(recipient_id, int)` holds of the booleans too. -/
inductive Recipient where
  | int (n : Int)
  | bool (b : Bool)
  deriving DecidableEq

/-- The key that a dictionary finds. -/
def Recipient.key : Recipient → Int
  | int n => n
  | bool b => if b then 1 else 0

def Recipient.str : Recipient → String
  | int n => PyInt.str n
  | bool b => if b then "True" else "False"

abbrev Message := List (PyStr × Scalar)

def Message.toJson (message : Message) : Json :=
  .object (message.map fun field => (field.1, field.2.toJson))

def typeKey : PyStr := .ofString "type"

def bodyKey : PyStr := .ofString "body"

def privateMessage (sender : Int) (body : PyStr) : Message :=
  [(typeKey, .str (.ofString "message")), (.ofString "from", .int sender), (bodyKey, .str body)]

def roleNotification (roleName : String) : Message :=
  [(typeKey, .str (.ofString "notification")),
    (bodyKey, .str (.ofString ("You have been granted the '" ++ roleName ++ "' role")))]

def errorFrame (detail : String) : Message :=
  [(typeKey, .str (.ofString "error")), (.ofString "detail", .str (.ofString detail))]

def unsupportedType : String := "Unsupported message type"

def malformedFields : String := "'to' must be an integer user id and 'body' a string"

def recipientOf : Option Json → Option Recipient
  | some (.int n) => some (.int n)
  | some (.bool b) => some (.bool b)
  | _ => none

/-- The recipient and the body of a frame, or the detail of the error that answers it. -/
def readFrame : Json → Except String (Recipient × PyStr)
  | .object fields =>
    match PyJson.get fields typeKey with
    | some (.str type) =>
      if type ≠ .ofString "message" then .error unsupportedType
      else
        match recipientOf (PyJson.get fields (.ofString "to")), PyJson.get fields bodyKey with
        | some recipient, some (.str body) => .ok (recipient, body)
        | _, _ => .error malformedFields
    | _ => .error unsupportedType
  | _ => .error unsupportedType

section State

inductive EndpointPhase where
  | accepting
  | reading
  | relaying
  | closed
  deriving DecidableEq

/-- A run of `websocket_endpoint`, with its worker and the token of its handshake. -/
structure Endpoint (ι : Type u) where
  worker : ι
  userId : Int
  token : Token
  phase : EndpointPhase

inductive CallPhase where
  /-- In the loop of `send_local`, with the sockets still to come. -/
  | sending (remaining : List Socket)
  | publishing
  deriving DecidableEq

/-- A call of `publish_to_user`; the one by `assign_role` has no socket for a caller. -/
structure Call (ι : Type u) where
  worker : ι
  recipient : Recipient
  message : Message
  caller : Option Socket
  phase : CallPhase

/-- A message in Redis. -/
structure Item where
  call : Nat
  channel : String
  data : List Char

inductive ListenerPhase where
  /-- Not subscribed: not yet started, or asleep after an exception. -/
  | down
  | listening
  | sending (item : Item) (message : Json) (remaining : List Socket)

/-- `run_pubsub_listener`, with the messages that Redis holds for its subscription. -/
structure Listener where
  phase : ListenerPhase
  queue : List Item

/-- A frame that has reached the client. -/
structure Received where
  call : Option Nat
  frame : Json

structure Hub (ι : Type u) where
  server : Server
  endpoints : Socket → Option (Endpoint ι)
  nextSocket : Socket
  /-- `manager._connections` of each worker -/
  connections : ι → Int → List Socket
  /-- The client is still there and reads. -/
  connected : Socket → Bool
  inbox : Socket → List Received
  calls : Nat → Option (Call ι)
  nextCall : Nat
  listeners : ι → Listener

inductive HubEvent (ι : Type u) where
  /-- A request that the worker handles, or an action outside of the workers. -/
  | act (w : ι) (a : Action)
  | handshake (w : ι) (token : Token)
  | accept (x : Socket)
  | receive (x : Socket) (text : List Char)
  | hangUp (x : Socket)
  | close (x : Socket)
  | send (c : Nat) (x : Socket) (raises : Bool)
  | publish (c : Nat) (up : Bool)
  | subscribe (w : ι)
  | listen (w : ι)
  | forward (w : ι) (x : Socket) (raises : Bool)
  | crash (w : ι)

/-- The workers before anyone has connected. -/
def Hub.start {ι : Type u} (server : Server) : Hub ι where
  server
  endpoints := fun _ => none
  nextSocket := 0
  connections := fun _ _ => []
  connected := fun _ => false
  inbox := fun _ => []
  calls := fun _ => none
  nextCall := 0
  listeners := fun _ => ⟨.down, []⟩

end State

section Steps

def userChannelPrefix : String := "ws:user:"

def removePrefix (start text : String) : String :=
  if start.toList.isPrefixOf text.toList then String.ofList (text.toList.drop start.toList.length)
  else text

/-- What the listener makes of a message; none is logged as malformed. -/
def readItem (item : Item) : Option (Int × Json) :=
  match PyInt.int (removePrefix userChannelPrefix item.channel), loads item.data with
  | some userId, some message => some (userId, message)
  | _, _ => none

/-- The role that `assign_role` grants. -/
def assignedRole (s : Server) : Action → Option (User × Role)
  | .request (.assignRole credentials userId roleName _) =>
    match requirePermissions s credentials ["roles:manage"] with
    | .error _ => none
    | .ok _ =>
      match s.db.userById userId, s.db.roleByName roleName with
      | some user, some role => if role ∈ s.db.rolesOf user.id then none else some (user, role)
      | _, _ => none
  | _ => none

end Steps

namespace Hub

variable {ι : Type u} [DecidableEq ι]

def setEndpoint (s : Hub ι) (x : Socket) (e : Endpoint ι) : Hub ι :=
  { s with endpoints := Function.update s.endpoints x (some e) }

def setPhase (s : Hub ι) (x : Socket) (phase : EndpointPhase) : Hub ι :=
  match s.endpoints x with
  | some e => s.setEndpoint x { e with phase }
  | none => s

def setListener (s : Hub ι) (w : ι) (l : Listener) : Hub ι :=
  { s with listeners := Function.update s.listeners w l }

def setConnections (s : Hub ι) (w : ι) (userId : Int) (sockets : List Socket) : Hub ι :=
  { s with connections :=
      Function.update s.connections w (Function.update (s.connections w) userId sockets) }

def setCall (s : Hub ι) (c : Nat) (call : Option (Call ι)) : Hub ι :=
  { s with calls := Function.update s.calls c call }

/-- The handshake of a new socket, up to `websocket.accept()`. -/
def openSocket (s : Hub ι) (w : ι) (userId : Int) (token : Token) : Hub ι :=
  { s.setEndpoint s.nextSocket ⟨w, userId, token, .accepting⟩ with
    nextSocket := s.nextSocket + 1
    connected := Function.update s.connected s.nextSocket true }

/-- `manager.connect`, after `websocket.accept()` -/
def connect (s : Hub ι) (x : Socket) (e : Endpoint ι) : Hub ι :=
  let connections := s.connections e.worker e.userId
  (s.setEndpoint x { e with phase := .reading }).setConnections e.worker e.userId
    (if x ∈ connections then connections else x :: connections)

/-- The end of the endpoint, with `manager.disconnect` -/
def closeEndpoint (s : Hub ι) (x : Socket) (e : Endpoint ι) : Hub ι :=
  { (s.setEndpoint x { e with phase := .closed }).setConnections e.worker e.userId
      ((s.connections e.worker e.userId).filter fun y => y ≠ x) with
    connected := Function.update s.connected x false }

/-- A client that is gone receives nothing. -/
def deliver (s : Hub ι) (x : Socket) (call : Option Nat) (frame : Json) : Hub ι :=
  if s.connected x then
    { s with inbox := Function.update s.inbox x (s.inbox x ++ [⟨call, frame⟩]) }
  else s

/-- `publish_to_user`, up to its first await -/
def startCall (s : Hub ι) (w : ι) (recipient : Recipient) (message : Message)
    (caller : Option Socket) : Hub ι :=
  let connections := s.connections w recipient.key
  let phase : CallPhase := if connections = [] then .publishing else .sending connections
  { s.setCall s.nextCall (some ⟨w, recipient, message, caller, phase⟩) with
    nextCall := s.nextCall + 1 }

/-- The call returns, and its endpoint reads on. -/
def finishCall (s : Hub ι) (c : Nat) (call : Call ι) : Hub ι :=
  match call.caller with
  | some x => (s.setCall c none).setPhase x .reading
  | none => s.setCall c none

/-- The call raises, and its endpoint ends. -/
def abortCall (s : Hub ι) (c : Nat) (call : Call ι) : Hub ι :=
  match call.caller.bind fun x => (s.endpoints x).map fun e => (x, e) with
  | some (x, e) => (s.setCall c none).closeEndpoint x e
  | none => s.setCall c none

/-- The loop of `send_local` in a call goes on to the sockets that remain. -/
def continueCall (s : Hub ι) (c : Nat) (call : Call ι) (remaining : List Socket) : Hub ι :=
  if remaining = [] then s.finishCall c call
  else s.setCall c (some { call with phase := .sending remaining })

/-- Redis hands a published message to every subscription. -/
def fanOut (s : Hub ι) (item : Item) : Hub ι :=
  { s with listeners := fun w =>
      match (s.listeners w).phase with
      | .down => s.listeners w
      | _ => { s.listeners w with queue := (s.listeners w).queue ++ [item] } }

def itemOf (c : Nat) (call : Call ι) : Item :=
  ⟨c, userChannelPrefix ++ call.recipient.str, dumps call.message⟩

def listenerPhase (item : Item) (message : Json) (remaining : List Socket) : ListenerPhase :=
  if remaining = [] then .listening else .sending item message remaining

end Hub

section Steps

variable (env : Env) {ι : Type u} [DecidableEq ι]

/-- Sending raises when the frame cannot be encoded, and may when the client is gone. -/
def mayRaise (s : Hub ι) (x : Socket) (frame : Json) (raises : Bool) : Bool :=
  if raises then !(s.connected x && frame.encodable) else frame.encodable

def receiveFrame (s : Hub ι) (x : Socket) (e : Endpoint ι) (text : List Char) : Hub ι :=
  match loads text with
  | none => s.closeEndpoint x e
  | some data =>
    match readFrame data with
    | .error detail => s.deliver x none (errorFrame detail).toJson
    | .ok (recipient, body) =>
      (s.setPhase x .relaying).startCall e.worker recipient (privateMessage e.userId body) (some x)

/-- None where the event cannot happen. -/
def hubStep (s : Hub ι) : HubEvent ι → Option (Hub ι)
  | .act w a =>
    let next : Hub ι := { s with server := (step env s.server a).2 }
    match assignedRole s.server a with
    | none => some next
    | some (user, role) =>
      some (next.startCall w (.int user.id) (roleNotification role.name) none)
  | .handshake w token =>
    match getCurrentUserWs s.server token with
    | none => some s
    | some user => some (s.openSocket w user.id token)
  | .accept x =>
    match s.endpoints x with
    | some e => if e.phase = .accepting then some (s.connect x e) else none
    | none => none
  | .receive x text =>
    match s.endpoints x with
    | some e => if e.phase = .reading then some (receiveFrame s x e text) else none
    | none => none
  | .hangUp x => some { s with connected := Function.update s.connected x false }
  | .close x =>
    match s.endpoints x with
    | some e =>
      if e.phase = .accepting ∨ e.phase = .reading then some (s.closeEndpoint x e) else none
    | none => none
  | .send c x raises =>
    match s.calls c with
    | some call =>
      match call.phase with
      | .sending remaining =>
        if x ∈ remaining ∧ mayRaise s x call.message.toJson raises then
          if raises then some (s.abortCall c call)
          else some ((s.deliver x (some c) call.message.toJson).continueCall c call
            (remaining.filter fun y => y ≠ x))
        else none
      | .publishing => none
    | none => none
  | .publish c up =>
    match s.calls c with
    | some call =>
      if call.phase = .publishing then
        some ((if up then s.fanOut (Hub.itemOf c call) else s).finishCall c call)
      else none
    | none => none
  | .subscribe w =>
    match (s.listeners w).phase with
    | .down => some (s.setListener w ⟨.listening, []⟩)
    | _ => none
  | .listen w =>
    match (s.listeners w).phase, (s.listeners w).queue with
    | .listening, item :: queue =>
      match readItem item with
      | none => some (s.setListener w ⟨.listening, queue⟩)
      | some (userId, message) =>
        some (s.setListener w
          ⟨Hub.listenerPhase item message (s.connections w userId), queue⟩)
    | _, _ => none
  | .forward w x raises =>
    match (s.listeners w).phase with
    | .sending item message remaining =>
      if x ∈ remaining ∧ mayRaise s x message raises then
        if raises then some (s.setListener w ⟨.down, []⟩)
        else some ((s.deliver x (some item.call) message).setListener w
          ⟨Hub.listenerPhase item message (remaining.filter fun y => y ≠ x),
            (s.listeners w).queue⟩)
      else none
    | _ => none
  | .crash w =>
    match (s.listeners w).phase with
    | .listening => some (s.setListener w ⟨.down, []⟩)
    | _ => none

def HubStep (s : Hub ι) (e : HubEvent ι) (s' : Hub ι) : Prop := hubStep env s e = some s'

abbrev HubTransition (ι : Type u) := Runs.Transition (Hub ι) (HubEvent ι)

abbrev HubRun : Hub ι → List (HubTransition ι) → Hub ι → Prop := Runs.Run (HubStep env)

end Steps

end FastApiAuth
