import FastApiAuth.Causes

/-!
# Which frames reach a client

A client receives the private messages that other sockets have sent it, under the id of
the sender, the notifications of roles it was granted, and answers to its own frames.
-/

namespace FastApiAuth.Authenticity

set_option autoImplicit false

open PyJson

universe u

section Frames

variable {data : Json} {recipient : Recipient} {body body' : PyStr} {i i' : Int}

/-- The value under `type`. -/
def frameType : Json → Option Json
  | .object fields => PyJson.get fields typeKey
  | _ => none

/-- The text is a frame of type message with this body, and its `to` equals `j`. -/
def Addresses (text : List Char) (j : Int) (body : PyStr) : Prop :=
  ∃ fields recipient, loads text = some (.object fields) ∧
    frameType (.object fields) = some (.str (.ofString "message")) ∧
    PyJson.get fields bodyKey = some (.str body) ∧
    recipientOf (PyJson.get fields (.ofString "to")) = some recipient ∧ recipient.key = j

theorem readFrame_ok (h : readFrame data = .ok (recipient, body)) :
    ∃ fields, data = .object fields ∧
      frameType (.object fields) = some (.str (.ofString "message")) ∧
      PyJson.get fields bodyKey = some (.str body) ∧
      recipientOf (PyJson.get fields (.ofString "to")) = some recipient := by
  unfold readFrame at h
  split at h
  · rename_i fields
    split at h
    · rename_i type htype
      split at h
      · cases h
      · rename_i hmessage
        split at h
        · rename_i recipient' body' hto hbody
          cases h
          exact ⟨fields, rfl, htype.trans (by rw [not_not.mp hmessage]), hbody, hto⟩
        · cases h
    · cases h
  · cases h

theorem addresses_of_readFrame {text : List Char} (hdata : loads text = some data)
    (h : readFrame data = .ok (recipient, body)) : Addresses text recipient.key body := by
  obtain ⟨fields, rfl, htype, hbody, hto⟩ := readFrame_ok h
  exact ⟨fields, recipient, hdata, htype, hbody, hto, rfl⟩

theorem frameType_message : frameType (privateMessage i body).toJson =
    some (.str (.ofString "message")) := by
  have hfrom : (PyStr.ofString "from") ≠ typeKey := by decide +kernel
  have hbody : bodyKey ≠ typeKey := by decide +kernel
  simp [frameType, privateMessage, Message.toJson, PyJson.get, Scalar.toJson, hfrom, hbody]

theorem frameType_notification {roleName : String} : frameType (roleNotification roleName).toJson =
    some (.str (.ofString "notification")) := by
  have hbody : bodyKey ≠ typeKey := by decide +kernel
  simp [frameType, roleNotification, Message.toJson, PyJson.get, Scalar.toJson, hbody]

theorem frameType_error {detail : String} : frameType (errorFrame detail).toJson =
    some (.str (.ofString "error")) := by
  have hdetail : (PyStr.ofString "detail") ≠ typeKey := by decide +kernel
  simp [frameType, errorFrame, Message.toJson, PyJson.get, Scalar.toJson, hdetail]

theorem privateMessage_inj (h : (privateMessage i body).toJson = (privateMessage i' body').toJson) :
    i = i' ∧ body = body' := by
  simpa [privateMessage, Message.toJson, Scalar.toJson] using h

end Frames

section Granting

variable {s : Server} {a : Action} {user : User} {role : Role}

theorem assignedRole_some (h : assignedRole s a = some (user, role)) :
    ∃ credentials userId roleName pushed admin,
      a = .request (.assignRole credentials userId roleName pushed) ∧
      requirePermissions s credentials ["roles:manage"] = .ok admin ∧
      s.db.userById userId = some user ∧ s.db.roleByName roleName = some role ∧
      role ∉ s.db.rolesOf user.id := by
  unfold assignedRole at h
  split at h
  · rename_i credentials userId roleName pushed
    split at h
    · cases h
    · rename_i admin hadmin
      split at h
      · rename_i user' role' huser hrole
        split at h
        · cases h
        · rename_i hnew
          cases h
          exact ⟨credentials, userId, roleName, pushed, admin, rfl, hadmin, huser, hrole, hnew⟩
      · cases h
  · cases h

/-- The request that notifies has granted the role. -/
theorem role_granted (env : Env) (h : assignedRole s a = some (user, role)) :
    role ∈ (step env s a).2.db.rolesOf user.id := by
  obtain ⟨credentials, userId, roleName, pushed, admin, rfl, hadmin, huser, hrole, hnew⟩ :=
    assignedRole_some h
  have hgranted : role ∈ (s.db.addUserRole user.id role.id).rolesOf user.id := by
    refine Database.mem_rolesOf.mpr ⟨(Database.roleByName_some hrole).1, ?_⟩
    exact List.mem_append_right _ (List.mem_singleton_self _)
  change role ∈ (withPermissions s credentials ["roles:manage"]
    fun _ => assignRole env userId roleName pushed s).2.db.rolesOf user.id
  unfold withPermissions assignRole
  simp only [hadmin, huser, hrole, if_neg hnew]
  cases pushed with
  | false => exact hgranted
  | true => exact hgranted

end Granting

variable {env : Env} {ι : Type u} [DecidableEq ι] {server : Server} {s s' : Hub ι}
variable {h : List (HubTransition ι)} {t : HubTransition ι} {x : Socket} {received : Received}

/-- A socket authenticated as user `i` receives a frame of type message for user `j`. -/
def Relays (h : List (HubTransition ι)) (i j : Int) (body : PyStr) (t : HubTransition ι) : Prop :=
  ∃ y text w token, t.label = .receive y text ∧ Addresses text j body ∧ Opened h y w i token

/-- A call of assign_role grants user `j` the role. -/
def Grants (j : Int) (role : Role) (t : HubTransition ι) : Prop :=
  ∃ w credentials userId roleName pushed user,
    t.label = .act w (.request (.assignRole credentials userId roleName pushed)) ∧
    (user.id : Int) = j ∧
    t.source.server.db.userById userId = some user ∧
    role ∉ t.source.server.db.rolesOf user.id ∧ role ∈ t.target.server.db.rolesOf user.id

/-- What stands behind a frame that a socket of user `j` has received. -/
inductive Authentic (h : List (HubTransition ι)) (x : Socket) (j : Int) : Received → Prop where
  | message {i : Int} {body : PyStr} {t : HubTransition ι} : t ∈ h → Relays h i j body t →
      Authentic h x j ⟨some t.source.nextCall, (privateMessage i body).toJson⟩
  | notification {role : Role} {t : HubTransition ι} : t ∈ h → Grants j role t →
      Authentic h x j ⟨some t.source.nextCall, (roleNotification role.name).toJson⟩
  | answer {frame : Json} : Answers h x frame → Authentic h x j ⟨none, frame⟩

theorem grants_of_assignedRole {w : ι} {a : Action} {user : User} {role : Role}
    (hstep : HubStep env s (.act w a) s')
    (hrole : assignedRole s.server a = some (user, role)) :
    Grants user.id role ⟨s, .act w a, s'⟩ := by
  obtain ⟨credentials, userId, roleName, pushed, admin, rfl, hadmin, huser, hname, hnew⟩ :=
    assignedRole_some hrole
  refine ⟨w, credentials, userId, roleName, pushed, user, rfl, rfl, huser, hnew, ?_⟩
  dsimp only
  rw [(hub_move hstep).server]
  exact role_granted env hrole

theorem authentic_of_begins {recipient : Recipient} {message : Message}
    (r : HubRun env (Hub.start server) h s) (ht : t ∈ h)
    (hstarts : ∃ w, Starts t.source t.label w recipient message) :
    Authentic h x recipient.key ⟨some t.source.nextCall, message.toJson⟩ := by
  obtain ⟨before, hp, rb, hstep⟩ := r.step_of_mem ht
  obtain ⟨source, label, target⟩ := t
  obtain ⟨w, hstarts⟩ := hstarts
  cases hstarts with
  | granted hrole => exact .notification ht (grants_of_assignedRole hstep hrole)
  | @relayed y e text data recipient body he hphase hdata hread =>
    have hopened := (run_traced rb).opened y _ _ _ (opening_of_endpoint he)
    refine .message ht ⟨y, text, e.worker, e.token, rfl, addresses_of_readFrame hdata hread, ?_⟩
    exact hopened.mono ((List.prefix_append _ _).trans hp).subset

theorem run_authentic (r : HubRun env (Hub.start server) h s) (hr : received ∈ s.inbox x) :
    ∃ w j token, s.opening x = some (w, j, token) ∧ Authentic h x j received := by
  cases (run_traced r).received x received hr with
  | @answer _ o hanswer ho =>
    obtain ⟨w, j, token⟩ := o
    exact ⟨w, j, token, ho, .answer hanswer⟩
  | message hcaused hat =>
    obtain ⟨t, ht, rfl, hstarts⟩ := hcaused
    obtain ⟨token, ho⟩ := hat
    exact ⟨_, _, token, ho, authentic_of_begins r ht hstarts⟩

/-- Whatever the clients send: a private message that reaches a socket of user `j` was sent
to `j` by the user it names, with that body; a notification tells `j` of a role that `j` was
granted; and any other frame answers one from the same socket. -/
theorem frames_authentic (r : HubRun env (Hub.start server) h s) (hr : received ∈ s.inbox x) :
    ∃ w j token, s.opening x = some (w, j, token) ∧ Opened h x w j token ∧
      (∀ i body, received.frame = (privateMessage i body).toJson →
        ∃ t ∈ h, Relays h i j body t ∧ received.call = some t.source.nextCall) ∧
      (frameType received.frame = some (.str (.ofString "notification")) →
        ∃ role, ∃ t ∈ h, Grants j role t ∧
          received = ⟨some t.source.nextCall, (roleNotification role.name).toJson⟩) ∧
      ((∃ i body, received.frame = (privateMessage i body).toJson) ∨
        frameType received.frame = some (.str (.ofString "notification")) ∨
        Answers h x received.frame) := by
  have hkinds : PyStr.ofString "message" ≠ PyStr.ofString "notification" ∧
      PyStr.ofString "error" ≠ PyStr.ofString "notification" ∧
      PyStr.ofString "message" ≠ PyStr.ofString "error" := by decide +kernel
  obtain ⟨w, j, token, ho, hauthentic⟩ := run_authentic r hr
  refine ⟨w, j, token, ho, (run_traced r).opened x w j token ho, ?_⟩
  cases hauthentic with
  | @message i body t ht hrelays =>
    refine ⟨fun i' body' heq => ?_, fun htype => ?_, .inl ⟨i, body, rfl⟩⟩
    · obtain ⟨rfl, rfl⟩ := privateMessage_inj heq
      exact ⟨t, ht, hrelays, rfl⟩
    · rw [frameType_message] at htype
      cases hkinds.1 (Json.str.inj (Option.some.inj htype))
  | @notification role t ht hgrants =>
    refine ⟨fun i body heq => ?_, fun _ => ⟨role, t, ht, hgrants, rfl⟩,
      .inr (.inl frameType_notification)⟩
    have htype := (frameType_notification.symm.trans (congrArg frameType heq)).trans
      frameType_message
    cases hkinds.1 (Json.str.inj (Option.some.inj htype)).symm
  | @answer frame hanswer =>
    obtain ⟨t, ht, text, data, detail, hlabel, hdata, hread, rfl⟩ := id hanswer
    refine ⟨fun i body heq => ?_, fun htype => ?_, .inr (.inr hanswer)⟩
    · have htype := (frameType_error.symm.trans (congrArg frameType heq)).trans frameType_message
      cases hkinds.2.2 (Json.str.inj (Option.some.inj htype)).symm
    · rw [frameType_error] at htype
      cases hkinds.2.1 (Json.str.inj (Option.some.inj htype))

/-- A user sends herself a message. -/
def helloEvents : List (HubEvent Unit) :=
  [.handshake () TokenBinding.accessToken, .accept 0, .receive 0 helloText, .send 0 0 false]

theorem frames_authentic_sample :
    ∃ (h : List (HubTransition Unit)) (s : Hub Unit) (received : Received),
      HubRun asciiEnv (Hub.start signedIn) h s ∧ received ∈ s.inbox 0 ∧
      ∃ w j token, s.opening 0 = some (w, j, token) ∧ Opened h 0 w j token ∧
        (∀ i body, received.frame = (privateMessage i body).toJson →
          ∃ t ∈ h, Relays h i j body t ∧ received.call = some t.source.nextCall) ∧
        (frameType received.frame = some (.str (.ofString "notification")) →
          ∃ role, ∃ t ∈ h, Grants j role t ∧
            received = ⟨some t.source.nextCall, (roleNotification role.name).toJson⟩) ∧
        ((∃ i body, received.frame = (privateMessage i body).toJson) ∨
          frameType received.frame = some (.str (.ofString "notification")) ∨
          Answers h 0 received.frame) := by
  obtain ⟨h, s, r, hcheck⟩ := Runs.exists_run (hubStep asciiEnv) (Hub.start signedIn) helloEvents
    (fun _ s => (s.inbox 0).length = 1) (by decide +kernel)
  obtain ⟨received, hinbox⟩ := List.length_eq_one_iff.mp (of_decide_eq_true hcheck)
  have hr : received ∈ s.inbox 0 := hinbox ▸ List.mem_singleton_self received
  exact ⟨h, s, received, r, hr, frames_authentic r hr⟩

end FastApiAuth.Authenticity
