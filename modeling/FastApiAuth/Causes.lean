import FastApiAuth.HubMoves
import FastApiAuth.TokenBinding

/-!
# Where the frames come from

Along every run, a call, a message in Redis or at a listener, and a frame at a client are
traced to the step that began the call, and a socket to its handshake. A message passes
through Redis as text, and `readItem` makes of it what `publish_to_user` was given.
-/

namespace FastApiAuth

set_option autoImplicit false

open PyJson Function

universe u

section Channel

theorem removePrefix_append (start text : String) : removePrefix start (start ++ text) = text := by
  have hstart : start.toList.isPrefixOf (start ++ text).toList = true := by
    simp
  unfold removePrefix
  rw [if_pos hstart, String.toList_append, List.drop_left, String.ofList_toList]

/-- What `publish_to_user` puts into Redis for this recipient. -/
structure Carries (item : Item) (recipient : Recipient) (message : Message) : Prop where
  channel : item.channel = userChannelPrefix ++ recipient.str
  data : item.data = dumps message

theorem Carries.readItem {item : Item} {recipient : Recipient} {message : Message}
    (h : Carries item recipient message) :
    readItem item = (PyInt.int recipient.str).map fun userId => (userId, message.toJson) := by
  unfold FastApiAuth.readItem
  rw [h.channel, removePrefix_append, h.data, loads_dumps]
  cases PyInt.int recipient.str <;> rfl

theorem int_recipient (n : Int) : PyInt.int (Recipient.int n).str = some n := PyInt.int_str n

/-- The name of a boolean is no integer. -/
theorem bool_recipient (b : Bool) : PyInt.int (Recipient.bool b).str = none := by
  cases b <;> decide +kernel

theorem Carries.of_readItem {item : Item} {recipient : Recipient} {message : Message}
    (h : Carries item recipient message) {userId : Int} {json : Json}
    (hread : FastApiAuth.readItem item = some (userId, json)) :
    userId = recipient.key ∧ json = message.toJson := by
  rw [h.readItem] at hread
  cases recipient with
  | int n =>
    rw [int_recipient] at hread
    cases hread
    exact ⟨rfl, rfl⟩
  | bool b =>
    rw [bool_recipient] at hread
    cases hread

end Channel

section Causes

variable {env : Env} {ι : Type u} {s s' : Hub ι} {h h' : List (HubTransition ι)}
variable {t : HubTransition ι} {c : Nat} {recipient : Recipient} {message : Message}

/-- The transition begins this call of `publish_to_user`. -/
structure Begins (c : Nat) (recipient : Recipient) (message : Message)
    (t : HubTransition ι) : Prop where
  number : t.source.nextCall = c
  starts : ∃ w, Starts t.source t.label w recipient message

def Caused (h : List (HubTransition ι)) (c : Nat) (recipient : Recipient)
    (message : Message) : Prop := ∃ t ∈ h, Begins c recipient message t

/-- The handshake of the socket, which `get_current_user_ws` let through. -/
def Opened (h : List (HubTransition ι)) (x : Socket) (w : ι) (userId : Int)
    (token : Token) : Prop :=
  ∃ t ∈ h, t.label = .handshake w token ∧ t.source.nextSocket = x ∧
    ∃ user, getCurrentUserWs t.source.server token = some user ∧ user.id = userId

/-- The frame answers one that the same socket has sent. -/
def Answers (h : List (HubTransition ι)) (x : Socket) (frame : Json) : Prop :=
  ∃ t ∈ h, ∃ text data detail, t.label = .receive x text ∧ loads text = some data ∧
    readFrame data = .error detail ∧ frame = (errorFrame detail).toJson

/-- Every socket that a worker knows was opened at it, by the user it is filed under. -/
structure Placed (s : Hub ι) : Prop where
  fresh : ∀ x, s.nextSocket ≤ x → s.opening x = none
  registered : ∀ x w userId, x ∈ s.connections w userId → s.At x w userId

inductive Sourced (h : List (HubTransition ι)) (s : Hub ι) (x : Socket) : Received → Prop where
  | answer {frame : Json} {o : ι × Int × Token} : Answers h x frame → s.opening x = some o →
      Sourced h s x ⟨none, frame⟩
  | message {c : Nat} {recipient : Recipient} {message : Message} {w : ι} :
      Caused h c recipient message → s.At x w recipient.key →
      Sourced h s x ⟨some c, message.toJson⟩

/-- All that is under way, and all that has arrived, has its cause in the history. -/
structure Traced (h : List (HubTransition ι)) (s : Hub ι) : Prop where
  opened : ∀ x w userId token, s.opening x = some (w, userId, token) →
    Opened h x w userId token
  called : ∀ c call, s.calls c = some call → Caused h c call.recipient call.message
  sending : ∀ c call remaining, s.calls c = some call → call.phase = .sending remaining →
    ∀ x ∈ remaining, s.At x call.worker call.recipient.key
  queued : ∀ w item, item ∈ (s.listeners w).queue →
    ∃ recipient message, Caused h item.call recipient message ∧ Carries item recipient message
  forwarding : ∀ w item json remaining, (s.listeners w).phase = .sending item json remaining →
    ∃ recipient message, Caused h item.call recipient message ∧ json = message.toJson ∧
      ∀ x ∈ remaining, s.At x w recipient.key
  received : ∀ x received, received ∈ s.inbox x → Sourced h s x received

theorem Caused.mono (hsub : h ⊆ h') (hc : Caused h c recipient message) :
    Caused h' c recipient message := by
  obtain ⟨t, ht, hbegins⟩ := hc
  exact ⟨t, hsub ht, hbegins⟩

theorem Opened.mono {x : Socket} {w : ι} {userId : Int} {token : Token} (hsub : h ⊆ h')
    (ho : Opened h x w userId token) : Opened h' x w userId token := by
  obtain ⟨t, ht, hopened⟩ := ho
  exact ⟨t, hsub ht, hopened⟩

theorem Sourced.mono {x : Socket} {received : Received} (hsub : h ⊆ h')
    (hstays : ∀ o, s.opening x = some o → s'.opening x = some o) (hr : Sourced h s x received) :
    Sourced h' s' x received := by
  cases hr with
  | answer hanswer ho =>
    obtain ⟨t, ht, hanswer⟩ := hanswer
    exact .answer ⟨t, hsub ht, hanswer⟩ (hstays _ ho)
  | message hcaused hat =>
    obtain ⟨token, ho⟩ := hat
    exact .message (hcaused.mono hsub) ⟨token, hstays _ ho⟩

variable {event : HubEvent ι} {recipient' : Recipient} {message' : Message}

theorem Starts.unique {w w' : ι} (hs : Starts s event w recipient message)
    (hs' : Starts s event w' recipient' message') :
    w = w' ∧ recipient = recipient' ∧ message = message' := by
  cases hs with
  | granted hrole =>
    cases hs' with
    | granted hrole' =>
      cases hrole.symm.trans hrole'
      exact ⟨rfl, rfl, rfl⟩
  | relayed he hphase hdata hread =>
    cases hs' with
    | relayed he' hphase' hdata' hread' =>
      cases he.symm.trans he'
      cases hdata.symm.trans hdata'
      cases hread.symm.trans hread'
      exact ⟨rfl, rfl, rfl⟩

theorem caused_snoc {t : HubTransition ι} (hc : Caused (h ++ [t]) c recipient message) :
    Caused h c recipient message ∨ Begins c recipient message t := by
  obtain ⟨t', ht', hbegins⟩ := hc
  rcases List.mem_append.mp ht' with ht' | ht'
  · exact .inl ⟨t', ht', hbegins⟩
  · exact .inr (List.mem_singleton.mp ht' ▸ hbegins)

end Causes

section Steps

variable {env : Env} {ι : Type u} {s s' : Hub ι} {event : HubEvent ι}
variable {h : List (HubTransition ι)}

theorem openSocket_opening (s : Hub ι) (w : ι) (userId : Int) (token : Token) (x : Socket) :
    (s.openSocket w userId token).opening x =
      if x = s.nextSocket then some (w, userId, token) else s.opening x := by
  split
  · rename_i hx
    subst hx
    exact opening_of_endpoint (s := s.openSocket w userId token) (update_self _ _ _)
  · rename_i hx
    exact congrArg (Option.map _) (update_of_ne hx _ _)

theorem ListenerMove.queued {w : ι} {l : Listener} (hs : Traced h s) (hm : ListenerMove s w l)
    {item : Item} (hitem : item ∈ l.queue) :
    ∃ recipient message, Caused h item.call recipient message ∧ Carries item recipient message := by
  rcases hm.queue hitem with hold | ⟨c, call, hcall, rfl⟩
  · exact hs.queued w item hold
  · exact ⟨call.recipient, call.message, hs.called c call hcall, rfl, rfl⟩

theorem ListenerMove.forwarding {w : ι} {l : Listener} (hp : Placed s) (hs : Traced h s)
    (hm : ListenerMove s w l) {item : Item} {json : Json} {remaining : List Socket}
    (hphase : l.phase = .sending item json remaining) :
    ∃ recipient message, Caused h item.call recipient message ∧ json = message.toJson ∧
      ∀ x ∈ remaining, s.At x w recipient.key := by
  rcases hm.sending hphase with ⟨more, hmore, hsub⟩ | ⟨hitem, userId, hread, rfl⟩
  · obtain ⟨recipient, message, hcaused, hjson, hat⟩ := hs.forwarding w item json more hmore
    exact ⟨recipient, message, hcaused, hjson, fun x hx => hat x (hsub hx)⟩
  · obtain ⟨recipient, message, hcaused, hcarries⟩ := hs.queued w item hitem
    obtain ⟨rfl, rfl⟩ := hcarries.of_readItem hread
    exact ⟨recipient, message, hcaused, rfl, fun x hx => hp.registered x _ _ hx⟩

theorem Receives.sourced (hs : Traced h s) {x : Socket} {received : Received}
    (hr : Receives s event x received) : Sourced (h ++ [⟨s, event, s'⟩]) s x received := by
  have hsub : h ⊆ h ++ [⟨s, event, s'⟩] := List.subset_append_left _ _
  cases hr with
  | @answered x e text data detail he hdata hread =>
    exact .answer ⟨_, List.mem_append_right _ List.mem_cons_self, text, data, detail, rfl, hdata,
      hread, rfl⟩ (opening_of_endpoint he)
  | @sent c x call remaining hcall hphase hx =>
    exact .message ((hs.called c call hcall).mono hsub)
      (hs.sending c call remaining hcall hphase x hx)
  | @forwarded w x item message remaining hphase hx =>
    obtain ⟨recipient, message, hcaused, rfl, hat⟩ := hs.forwarding w item _ remaining hphase
    exact .message (hcaused.mono hsub) (hat x hx)

variable [DecidableEq ι]

theorem connect_opening {x : Socket} {e : Endpoint ι} (he : s.endpoints x = some e)
    (y : Socket) : (s.connect x e).opening y = s.opening y := by
  change (s.setEndpoint x { e with phase := .reading }).opening y = s.opening y
  refine setEndpoint_opening he ?_ ?_ ?_ y <;> rfl

/-- A handshake is never forgotten, and never comes twice. -/
theorem SocketMove.opening_stays (hs : Placed s) (hm : SocketMove s event s') {x : Socket}
    {o : ι × Int × Token} (ho : s.opening x = some o) : s'.opening x = some o := by
  cases hm with
  | keeps hkeeps => exact (hkeeps.opening x).trans ho
  | accepted he => exact (connect_opening he x).trans ho
  | opened =>
    have hx : x ≠ s.nextSocket := by
      rintro rfl
      cases ho.symm.trans (hs.fresh _ (Nat.le_refl _))
    rw [openSocket_opening, if_neg hx, ho]

theorem SocketMove.at_stays (hs : Placed s) (hm : SocketMove s event s') {x : Socket} {w : ι}
    {userId : Int} (hat : s.At x w userId) : s'.At x w userId := by
  obtain ⟨token, ho⟩ := hat
  exact ⟨token, hm.opening_stays hs ho⟩

theorem SocketMove.placed (hs : Placed s) (hm : SocketMove s event s') : Placed s' := by
  have hstays : ∀ {x w userId}, s.At x w userId → s'.At x w userId := hm.at_stays hs
  cases hm with
  | keeps hkeeps =>
    refine ⟨fun x hx => ?_, fun x w userId hx => ?_⟩
    · rw [hkeeps.opening]
      exact hs.fresh x (hkeeps.nextSocket ▸ hx)
    · exact hstays (hs.registered x w userId (hkeeps.connections x w userId hx))
  | @accepted x e he =>
    refine ⟨fun y hy => (connect_opening he y).trans (hs.fresh y hy), fun y w userId hy => ?_⟩
    rcases mem_setConnections hy with ⟨rfl, rfl, hmem⟩ | hmem
    · have hcases : y = x ∨ y ∈ s.connections e.worker e.userId := by
        split at hmem
        · exact .inr hmem
        · exact List.mem_cons.mp hmem
      rcases hcases with rfl | hold
      · exact hstays ⟨e.token, opening_of_endpoint he⟩
      · exact hstays (hs.registered _ _ _ hold)
    · exact hstays (hs.registered _ _ _ hmem)
  | @opened w token user =>
    refine ⟨fun x hx => ?_, fun x v userId hx => hstays (hs.registered x v userId hx)⟩
    have hlt : s.nextSocket < x := hx
    rw [openSocket_opening, if_neg (Nat.ne_of_gt hlt)]
    exact hs.fresh x (Nat.le_of_lt hlt)

theorem SocketMove.opening_cases (hm : SocketMove s event s') {x : Socket} {w : ι}
    {userId : Int} {token : Token} (ho : s'.opening x = some (w, userId, token)) :
    s.opening x = some (w, userId, token) ∨ (event = .handshake w token ∧ s.nextSocket = x ∧
      ∃ user, getCurrentUserWs s.server token = some user ∧ user.id = userId) := by
  cases hm with
  | keeps hkeeps => exact .inl ((hkeeps.opening x).symm.trans ho)
  | accepted he => exact .inl ((connect_opening he x).symm.trans ho)
  | opened huser =>
    rw [openSocket_opening] at ho
    split at ho
    · rename_i hx
      cases ho
      exact .inr ⟨rfl, hx.symm, _, huser, rfl⟩
    · exact .inl ho

theorem TrafficMove.called {s₁ : Hub ι} (hs : Traced h s) (hm : TrafficMove s event s₁) {c : Nat}
    {call : Call ι} (hc : s₁.calls c = some call) :
    Caused (h ++ [⟨s, event, s'⟩]) c call.recipient call.message := by
  rcases hm.calls hc with ⟨before, hbefore, hcont⟩ | ⟨rfl, hstarts, _⟩
  · rw [hcont.recipient, hcont.message]
    exact (hs.called c before hbefore).mono (List.subset_append_left _ _)
  · exact ⟨_, List.mem_append_right _ List.mem_cons_self, rfl, _, hstarts⟩

theorem TrafficMove.sending {s₁ : Hub ι} (hp : Placed s) (hs : Traced h s)
    (hm : TrafficMove s event s₁) {c : Nat} {call : Call ι} {remaining : List Socket}
    (hc : s₁.calls c = some call) (hphase : call.phase = .sending remaining) {x : Socket}
    (hx : x ∈ remaining) : s.At x call.worker call.recipient.key := by
  rcases hm.calls hc with ⟨before, hbefore, hcont⟩ | ⟨_, _, hfirst⟩
  · obtain ⟨more, hmore, hsub⟩ := hcont.sending remaining hphase
    rw [hcont.worker, hcont.recipient]
    exact hs.sending c before more hbefore hmore x (hsub hx)
  · rw [hfirst remaining hphase] at hx
    exact hp.registered x _ _ hx

theorem traced_step (hp : Placed s) (hs : Traced h s) (hm : HubMove env s event s') :
    Traced (h ++ [⟨s, event, s'⟩]) s' := by
  have hsub : h ⊆ h ++ [⟨s, event, s'⟩] := List.subset_append_left _ _
  have hat : ∀ {x w userId}, s.At x w userId → s'.At x w userId := hm.sockets.at_stays hp
  obtain ⟨s₁, htraffic, hsame⟩ := hm.traffic
  constructor
  case opened =>
    intro x w userId token ho
    rcases hm.sockets.opening_cases ho with ho | ⟨rfl, hx, huser⟩
    · exact (hs.opened x w userId token ho).mono hsub
    · exact ⟨_, List.mem_append_right _ List.mem_cons_self, rfl, hx, huser⟩
  case called =>
    intro c call hc
    exact htraffic.called hs (hsame.calls ▸ hc)
  case sending =>
    intro c call remaining hc hphase x hx
    exact hat (htraffic.sending hp hs (hsame.calls ▸ hc) hphase hx)
  case queued =>
    intro w item hitem
    rw [hsame.listeners] at hitem
    obtain ⟨recipient, message, hcaused, hcarries⟩ := (htraffic.listeners w).queued hs hitem
    exact ⟨recipient, message, hcaused.mono hsub, hcarries⟩
  case forwarding =>
    intro w item json remaining hphase
    rw [hsame.listeners] at hphase
    obtain ⟨recipient, message, hcaused, hjson, hremaining⟩ :=
      (htraffic.listeners w).forwarding hp hs hphase
    exact ⟨recipient, message, hcaused.mono hsub, hjson, fun x hx => hat (hremaining x hx)⟩
  case received =>
    intro x received hr
    rw [hsame.inbox] at hr
    rcases htraffic.inbox hr with hr | hr
    · exact (hs.received x received hr).mono hsub fun _ => hm.sockets.opening_stays hp
    · exact (hr.sourced hs).mono (List.Subset.refl _) fun _ => hm.sockets.opening_stays hp

variable {server : Server}

theorem run_placed (r : HubRun env (Hub.start server) h s) : Placed s := by
  refine r.invariant ?_ fun hs hstep => (hub_move hstep).sockets.placed hs
  exact ⟨fun _ _ => rfl, fun _ _ _ hx => absurd hx List.not_mem_nil⟩

theorem run_traced (r : HubRun env (Hub.start server) h s) : Traced h s := by
  induction r with
  | start =>
    exact ⟨nofun, nofun, nofun, fun _ _ hitem => absurd hitem List.not_mem_nil, nofun,
      fun _ _ hr => absurd hr List.not_mem_nil⟩
  | snoc r hstep ih => exact traced_step (run_placed r) ih (hub_move hstep)

theorem HubMove.nextCall_le (hm : HubMove env s event s') : s.nextCall ≤ s'.nextCall := by
  obtain ⟨s₁, htraffic, hsame⟩ := hm.traffic
  rw [hsame.nextCall]
  rcases htraffic.nextCall with ⟨heq, _⟩ | ⟨heq, _⟩ <;> omega

theorem HubMove.nextCall_of_starts (hm : HubMove env s event s') {w : ι} {recipient : Recipient}
    {message : Message} (hstarts : Starts s event w recipient message) :
    s'.nextCall = s.nextCall + 1 := by
  obtain ⟨s₁, htraffic, hsame⟩ := hm.traffic
  rw [hsame.nextCall]
  rcases htraffic.nextCall with ⟨_, hnone⟩ | ⟨heq, _⟩
  · exact absurd hstarts (hnone _ _ _)
  · exact heq

/-- Every number is that of one call at most, and used before it is passed by. -/
theorem run_caused (r : HubRun env (Hub.start server) h s) :
    (∀ c recipient message, Caused h c recipient message → c < s.nextCall) ∧
    ∀ c recipient recipient' message message', Caused h c recipient message →
      Caused h c recipient' message' → recipient = recipient' ∧ message = message' := by
  induction r with
  | start =>
    refine ⟨?_, ?_⟩
    · rintro c recipient message ⟨t, ht, _⟩
      cases ht
    · rintro c recipient recipient' message message' ⟨t, ht, _⟩
      cases ht
  | @snoc h s s' event r hstep ih =>
    obtain ⟨hlt, hunique⟩ := ih
    have hm := hub_move hstep
    constructor
    · intro c recipient message hc
      rcases caused_snoc hc with hc | ⟨rfl, w, hstarts⟩
      · exact Nat.lt_of_lt_of_le (hlt c recipient message hc) hm.nextCall_le
      · exact hm.nextCall_of_starts hstarts ▸ Nat.lt_succ_self _
    · intro c recipient recipient' message message' hc hc'
      rcases caused_snoc hc with hc | ⟨hnumber, w, hstarts⟩ <;>
        rcases caused_snoc hc' with hc' | ⟨hnumber', w', hstarts'⟩
      · exact hunique c recipient recipient' message message' hc hc'
      · exact absurd hnumber' (Nat.ne_of_gt (hlt c recipient message hc))
      · exact absurd hnumber (Nat.ne_of_gt (hlt c recipient' message' hc'))
      · exact (hstarts.unique hstarts').2

/-- A call that is new has begun. -/
theorem starts_of_call {c : Nat} {call : Call ι} (hstep : HubStep env s event s')
    (hnone : s.calls c = none) (hcall : s'.calls c = some call) :
    Starts s event call.worker call.recipient call.message := by
  obtain ⟨s₁, htraffic, hsame⟩ := (hub_move hstep).traffic
  rw [hsame.calls] at hcall
  rcases htraffic.calls hcall with ⟨_, hsome, _⟩ | ⟨_, hstarts, _⟩
  · cases hnone.symm.trans hsome
  · exact hstarts

end Steps

section Connecting

/-- One user has signed in, and nobody is connected. -/
def signedIn : Server := Runs.exec (step asciiEnv) (freshServer 0) TokenBinding.sampleActions

/-- A private message to user 1 -/
def helloText : List Char :=
  "\x7b\"type\": \"message\", \"to\": 1, \"body\": \"hello\"\x7d".toList

end Connecting

end FastApiAuth
