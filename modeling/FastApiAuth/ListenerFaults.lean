import FastApiAuth.Publishing
import FastApiAuth.Library.PyCodecs

/-!
# Faults in the listener of a worker

A malformed message is logged and skipped, and so is one with an integer too long for `int`.
An exception of a send or of a decoder that is in too deep is not: it leaves the loop over the
messages, the subscription is given up, and what is published until the next one five seconds
later is lost to this worker.
-/

namespace FastApiAuth.ListenerFaults

set_option autoImplicit false

open PyCodecs PyJson RaisingLoop Publishing

/-- A message on the subscription, with the sockets of the worker when it is handled. -/
structure Arrival where
  kind : String
  channel : List UInt8
  data : List UInt8
  sockets : Sockets

/-- The client decodes what it reads (`decode_responses=True`), and raises if it cannot. -/
def Arrival.decoded (a : Arrival) : Option Item := do
  let channel ← Utf8.decode a.channel
  let data ← Utf8.decode a.data
  some ⟨0, channel, data.toList⟩

variable (unicode : UnicodeData) (limits : Limits)

/-- `int(channel.removeprefix(USER_CHANNEL_PREFIX))` -/
def userIdOf (item : Item) : Option Int :=
  (parseInt unicode (removePrefix userChannelPrefix item.channel)).toOption

/-- The body of the inner `try`. -/
def readArrival (item : Item) : Except LoadsError (Int × Json) :=
  match userIdOf unicode item with
  | none => .error .valueError
  | some userId =>
    match loadsWithin limits item.data with
    | .error e => .error e
    | .ok message => .ok (userId, message)

/-- One round of `async for item in pubsub.listen()`: what is sent, and if an exception leaves
the loop. A ValueError is logged, and a JSONDecodeError is one. -/
def handleItem (a : Arrival) : List (Socket × Json) × Bool :=
  match a.decoded with
  | none => ([], true)
  | some item =>
    if a.kind ≠ "pmessage" then ([], false)
    else
      match readArrival unicode limits item with
      | .error e => ([], e = .recursionError)
      | .ok (userId, message) =>
        match sendLocal a.sockets userId message with
        | (reached, .ok _) => (reached.map fun x => (x, message), false)
        | (reached, .error _) => (reached.map fun x => (x, message), true)

/-- `run_pubsub_listener`; `pauses` are the numbers of messages that come between an exception
and the next subscription. -/
def runPubsubListener (pauses : List Nat) (arrivals : List Arrival) : List (Socket × Json) :=
  retry (handleItem unicode limits) pauses 0 arrivals

section Due

/-- The channel names a user, and the data are JSON, whatever its length and depth. -/
def Arrival.wellFormed (a : Arrival) : Option (Int × Json) :=
  if a.kind ≠ "pmessage" then none
  else a.decoded.bind fun item =>
    (userIdOf unicode item).bind fun userId => (loads item.data).map fun message =>
      (userId, message)

/-- The healthy sockets of the user, each with the message. -/
def due (a : Arrival) : List (Socket × Json) :=
  match a.wellFormed unicode with
  | none => []
  | some (userId, message) =>
    ((a.sockets.connections userId).filter fun x => (a.sockets.send x message).isNone).map
      fun x => (x, message)

/-- A message that `json.loads` cannot read for the depth of its data. -/
def TooDeep (a : Arrival) : Prop :=
  a.kind = "pmessage" ∧ ∃ item, a.decoded = some item ∧
    readArrival unicode limits item = .error .recursionError

/-- The bytes are no text, the data too deep, or some socket of the user raises. -/
def Crashes (a : Arrival) : Prop :=
  a.decoded = none ∨ TooDeep unicode limits a ∨ ∃ userId message,
    a.wellFormed unicode = some (userId, message) ∧
    message.within limits.maxStrDigits limits.depth = true ∧
    ∃ x ∈ a.sockets.connections userId, a.sockets.send x message ≠ none

/-- No healthy socket of the user comes after one that raises, or has a message that the
decoder refuses. -/
def LeavesNobodyOut (a : Arrival) : Prop :=
  ∀ userId message, a.wellFormed unicode = some (userId, message) →
    if message.within limits.maxStrDigits limits.depth then
      RaisesLast (fun x => a.sockets.send x message) (a.sockets.connections userId)
    else ∀ x ∈ a.sockets.connections userId, a.sockets.send x message ≠ none

def NobodyHealthy (a : Arrival) : Prop :=
  ∀ userId message, a.wellFormed unicode = some (userId, message) →
    ∀ x ∈ a.sockets.connections userId, a.sockets.send x message ≠ none

end Due

section Rounds

variable {a : Arrival} {userId : Int} {message : Json} {unicode limits}

/-- A well-formed item that is read is read as what it says. -/
theorem readArrival_ok_iff {item : Item} (hkind : a.kind = "pmessage")
    (hdecoded : a.decoded = some item) :
    readArrival unicode limits item = .ok (userId, message) ↔
      a.wellFormed unicode = some (userId, message) ∧
        message.within limits.maxStrDigits limits.depth = true := by
  have hwell : a.wellFormed unicode = some (userId, message) ↔
      userIdOf unicode item = some userId ∧ loads item.data = some message := by
    unfold Arrival.wellFormed
    rw [if_neg (not_not_intro hkind), hdecoded, Option.bind_some]
    cases userIdOf unicode item <;> cases loads item.data <;> simp
  rw [hwell]
  unfold readArrival
  cases hid : userIdOf unicode item with
  | none => simp
  | some id =>
    dsimp only
    have hread : ∀ value, loadsWithin limits item.data = .ok value ↔
        loads item.data = some value ∧
          value.within limits.maxStrDigits limits.depth = true := fun _ => loadsWithin_ok_iff
    split
    · rename_i e he
      apply iff_of_false nofun
      rintro ⟨⟨_, hloads⟩, hwithin⟩
      cases he.symm.trans ((hread message).mpr ⟨hloads, hwithin⟩)
    · rename_i value hvalue
      obtain ⟨hloads, hwithin⟩ := (hread value).mp hvalue
      constructor
      · intro heq
        cases heq
        exact ⟨⟨rfl, hloads⟩, hwithin⟩
      · rintro ⟨⟨heq, hloads'⟩, _⟩
        cases heq
        cases hloads.symm.trans hloads'
        rfl

/-- A message that is read goes to its sockets, up to one that raises. -/
structure IsRead (unicode : UnicodeData) (limits : Limits) (a : Arrival)
    (userId : Int) (message : Json) : Prop where
  wellFormed : a.wellFormed unicode = some (userId, message)
  within : message.within limits.maxStrDigits limits.depth = true
  decoded : a.decoded ≠ none
  shallow : ¬ TooDeep unicode limits a
  handled : handleItem unicode limits a =
    ((visit (fun x => a.sockets.send x message) (a.sockets.connections userId)).1.map
      fun x => (x, message),
    (visit (fun x => a.sockets.send x message) (a.sockets.connections userId)).2.isSome)

/-- Nothing is sent, because there is nothing to send or because it was not read. -/
structure IsUnread (unicode : UnicodeData) (limits : Limits) (a : Arrival) :
    Prop where
  beyond : ∀ userId message, a.wellFormed unicode = some (userId, message) →
    message.within limits.maxStrDigits limits.depth = false
  silent : (handleItem unicode limits a).1 = []
  crashes : (handleItem unicode limits a).2 = true ↔ a.decoded = none ∨ TooDeep unicode limits a

theorem isUnread_of_kind {item : Item} (hkind : a.kind ≠ "pmessage")
    (hdecoded : a.decoded = some item) : IsUnread unicode limits a := by
  have hhandle : handleItem unicode limits a = ([], false) := by
    unfold handleItem
    rw [hdecoded]
    dsimp only
    rw [if_pos hkind]
  refine ⟨?_, by rw [hhandle], ?_⟩
  · intro userId message hwell
    unfold Arrival.wellFormed at hwell
    rw [if_pos hkind] at hwell
    cases hwell
  · rw [hhandle, hdecoded]
    apply iff_of_false nofun
    rintro (hnone | ⟨heq, _⟩)
    · cases hnone
    · exact hkind heq

theorem isUnread_of_undecoded (hdecoded : a.decoded = none) : IsUnread unicode limits a := by
  have hhandle : handleItem unicode limits a = ([], true) := by
    unfold handleItem
    rw [hdecoded]
  refine ⟨?_, by rw [hhandle], ?_⟩
  · intro userId message hwell
    unfold Arrival.wellFormed at hwell
    rw [hdecoded] at hwell
    split at hwell <;> cases hwell
  · rw [hhandle]
    exact iff_of_true rfl (.inl hdecoded)

theorem isUnread_of_error {item : Item} {e : LoadsError} (hkind : a.kind = "pmessage")
    (hdecoded : a.decoded = some item) (hread : readArrival unicode limits item = .error e) :
    IsUnread unicode limits a := by
  have hhandle : handleItem unicode limits a = ([], decide (e = .recursionError)) := by
    unfold handleItem
    rw [hdecoded]
    dsimp only
    rw [if_neg (not_not_intro hkind), hread]
  refine ⟨?_, by rw [hhandle], ?_⟩
  · intro userId message hwell
    by_contra hwithin
    have hok := (readArrival_ok_iff hkind hdecoded).mpr ⟨hwell, by simpa using hwithin⟩
    cases hread.symm.trans hok
  · rw [hhandle, decide_eq_true_iff]
    constructor
    · rintro rfl
      exact .inr ⟨hkind, item, hdecoded, hread⟩
    · rintro (hnone | ⟨_, item', hdecoded', hread'⟩)
      · cases hdecoded.symm.trans hnone
      · cases hdecoded.symm.trans hdecoded'
        exact Except.error.inj (hread.symm.trans hread')

theorem isRead_of_ok {item : Item} (hkind : a.kind = "pmessage")
    (hdecoded : a.decoded = some item)
    (hread : readArrival unicode limits item = .ok (userId, message)) :
    IsRead unicode limits a userId message := by
  obtain ⟨hwell, hwithin⟩ := (readArrival_ok_iff hkind hdecoded).mp hread
  refine ⟨hwell, hwithin, by simp [hdecoded], ?_, ?_⟩
  · rintro ⟨_, item', hdecoded', hdeep⟩
    cases hdecoded.symm.trans hdecoded'
    cases hread.symm.trans hdeep
  · unfold handleItem
    rw [hdecoded]
    dsimp only
    rw [if_neg (not_not_intro hkind), hread]
    dsimp only
    rcases sendLocal_cases a.sockets userId message with ⟨delivered, hlocal, hvisit⟩ |
      ⟨e, hlocal, hvisit⟩
    · rw [hlocal, hvisit]
      rfl
    · rw [hlocal, hvisit]
      rfl

theorem read_or_unread (unicode : UnicodeData) (limits : Limits) (a : Arrival) :
    (∃ userId message, IsRead unicode limits a userId message) ∨ IsUnread unicode limits a := by
  cases hdecoded : a.decoded with
  | none => exact .inr (isUnread_of_undecoded hdecoded)
  | some item =>
    by_cases hkind : a.kind = "pmessage"
    · cases hread : readArrival unicode limits item with
      | error e => exact .inr (isUnread_of_error hkind hdecoded hread)
      | ok read => exact .inl ⟨read.1, read.2, isRead_of_ok hkind hdecoded hread⟩
    · exact .inr (isUnread_of_kind hkind hdecoded)

theorem due_of_wellFormed (h : a.wellFormed unicode = some (userId, message)) :
    due unicode a = ((a.sockets.connections userId).filter fun x =>
      (a.sockets.send x message).isNone).map fun x => (x, message) := by
  rw [due, h]

theorem due_eq_nil_iff : due unicode a = [] ↔ NobodyHealthy unicode a := by
  unfold due NobodyHealthy
  cases h : a.wellFormed unicode with
  | none => simp
  | some item =>
    obtain ⟨userId, message⟩ := item
    simp [List.filter_eq_nil_iff]

theorem handleItem_crashes_iff :
    (handleItem unicode limits a).2 = true ↔ Crashes unicode limits a := by
  rcases read_or_unread unicode limits a with ⟨userId, message, h⟩ | h
  · have hreturns : (visit (fun x => a.sockets.send x message)
        (a.sockets.connections userId)).2 = none ↔
        ∀ x ∈ a.sockets.connections userId, a.sockets.send x message = none := visit_returns_iff
    rw [h.handled, Option.isSome_iff_ne_none, ne_eq, hreturns]
    simp [Crashes, h.wellFormed, h.decoded, h.shallow, h.within]
  · rw [h.crashes]
    constructor
    · rintro (hdecoded | hdeep)
      · exact .inl hdecoded
      · exact .inr (.inl hdeep)
    · rintro (hdecoded | hdeep | ⟨userId, message, hwell, hwithin, _⟩)
      · exact .inl hdecoded
      · exact .inr hdeep
      · rw [h.beyond userId message hwell] at hwithin
        cases hwithin

theorem handleItem_part (unicode : UnicodeData) (limits : Limits) (a : Arrival) :
    ((handleItem unicode limits a).1).Sublist (due unicode a) := by
  rcases read_or_unread unicode limits a with ⟨userId, message, h⟩ | h
  · rw [h.handled, due_of_wellFormed h.wellFormed]
    exact visit_sublist_healthy.map _
  · rw [h.silent]
    exact List.nil_sublist _

theorem handleItem_eq_due_iff :
    (handleItem unicode limits a).1 = due unicode a ↔ LeavesNobodyOut unicode limits a := by
  rcases read_or_unread unicode limits a with ⟨userId, message, h⟩ | h
  · have hinj : Function.Injective fun x : Socket => (x, message) := by
      intro x y heq
      exact (Prod.mk.inj heq).1
    rw [h.handled, due_of_wellFormed h.wellFormed, (List.map_injective_iff.mpr hinj).eq_iff,
      visit_eq_healthy_iff]
    simp [LeavesNobodyOut, h.wellFormed, h.within]
  · rw [h.silent, eq_comm, due_eq_nil_iff]
    unfold LeavesNobodyOut NobodyHealthy
    apply forall₃_congr
    intro userId message hwell
    rw [h.beyond userId message hwell]
    simp

end Rounds

/-- Under all pauses every well-formed item is sent to the healthy sockets of its user just
when none of them is left out where the item is handled, and no item that crashes the
listener comes before one that has a healthy socket to go to. -/
theorem listener_isolates_iff (unicode : UnicodeData) (limits : Limits)
    (arrivals : List Arrival) :
    (∀ pauses, runPubsubListener unicode limits pauses arrivals =
        arrivals.flatMap (due unicode)) ↔
      (∀ a ∈ arrivals, LeavesNobodyOut unicode limits a) ∧
      ∀ front a back, arrivals = front ++ a :: back → Crashes unicode limits a →
        ∀ b ∈ back, NobodyHealthy unicode b := by
  unfold runPubsubListener
  rw [retry_eq_due_iff (handleItem_part unicode limits)]
  simp only [handleItem_crashes_iff, handleItem_eq_due_iff, due_eq_nil_iff]

/-- A notification for a user with two sockets, the first of which has lost its client. -/
def brokenFirst : Arrival where
  kind := "pmessage"
  channel := "ws:user:1".toUTF8.data.toList
  data := (String.ofList (dumps (roleNotification "admin"))).toUTF8.data.toList
  sockets := ⟨fun _ => [1, 2], fun x _ => if x = 1 then some .other else none⟩

theorem second_socket_left_out :
    ¬ ∀ pauses, runPubsubListener asciiOnly defaultLimits pauses [brokenFirst] =
      [brokenFirst].flatMap (due asciiOnly) := by
  intro hall
  have hsent := congrArg (List.map Prod.fst) (hall [])
  revert hsent
  decide +kernel

section Hub

variable {ι : Type} [DecidableEq ι] {s : Hub ι} {w : ι} {item : Item} {message : Json}
variable {remaining : List Socket} {queue : List Item} {raises : Socket → Bool} {x : Socket}

/-- The listener at the end of a loop over sockets: an exception takes the queue with it. -/
def listenerAfter (raised : Bool) (queue : List Item) : Listener :=
  if raised then ⟨.down, []⟩ else ⟨.listening, queue⟩

theorem hub_forward_raises (env : Env)
    (hlistener : s.listeners w = ⟨.sending item message remaining, queue⟩) (hx : x ∈ remaining)
    (hmay : mayRaise s x message true = true) :
    hubStep env s (.forward w x true) = some (s.setListener w ⟨.down, []⟩) := by
  simp only [hubStep, hlistener, if_pos (And.intro hx hmay), if_true]

theorem hub_forward_returns (env : Env) {rest : List Socket}
    (hlistener : s.listeners w = ⟨.sending item message (x :: rest), queue⟩)
    (hnodup : (x :: rest).Nodup) (hmay : mayRaise s x message false = true) :
    hubStep env s (.forward w x false) =
      some ((s.deliver x (some item.call) message).setListener w
        ⟨Hub.listenerPhase item message rest, queue⟩) := by
  have hfilter := filter_head_of_nodup hnodup
  simp only [hubStep, hlistener, if_pos (And.intro List.mem_cons_self hmay), hfilter]
  simp

/-- The listener is at these sockets, or back at its queue. -/
structure ListenerRemains (w : ι) (item : Item) (message : Json) (queue : List Item)
    (raises : Socket → Bool) (s : Hub ι) (remaining : List Socket) : Prop where
  nodup : remaining.Nodup
  may : ∀ x ∈ remaining, mayRaise s x message (raises x) = true
  phase : s.listeners w = ⟨Hub.listenerPhase item message remaining, queue⟩

theorem listenerRemains_forward (env : Env) {rest : List Socket}
    (h : ListenerRemains w item message queue raises s (x :: rest)) :
    ∃ s', hubStep env s (.forward w x (raises x)) = some s' ∧
      (raises x = true → s'.listeners w = ⟨.down, []⟩) ∧
      (raises x = false → ListenerRemains w item message queue raises s' rest) := by
  have hx := h.may x List.mem_cons_self
  cases hraises : raises x with
  | true =>
    rw [hraises] at hx
    refine ⟨_, hub_forward_raises env h.phase List.mem_cons_self hx, fun _ => ?_, by simp⟩
    exact Function.update_self _ _ _
  | false =>
    rw [hraises] at hx
    refine ⟨_, hub_forward_returns env h.phase h.nodup hx, by simp, fun _ => ?_⟩
    constructor
    · exact (List.nodup_cons.mp h.nodup).2
    · intro z hz
      have hconnected : ∀ l, ((s.deliver x (some item.call) message).setListener w l).connected =
          s.connected := by
        intro l
        exact deliver_connected s x (some item.call) message
      rw [mayRaise_eq (hconnected _)]
      exact h.may z (List.mem_cons_of_mem x hz)
    · exact Function.update_self _ _ _

/-- A listener of the hub whose sends go as in `visit` keeps its queue just when nothing was
raised. -/
theorem hub_listener_ends (env : Env)
    (hlistener : s.listeners w = ⟨.sending item message remaining, queue⟩)
    (hne : remaining ≠ []) (hnodup : remaining.Nodup)
    (hmay : ∀ x ∈ remaining, mayRaise s x message (raises x) = true) :
    ∃ s', (sendEvents (.forward w) raises remaining).foldlM (hubStep env) s = some s' ∧
      s'.listeners w = listenerAfter (remaining.any raises) queue := by
  have hremains : ListenerRemains w item message queue raises s remaining := by
    constructor
    · exact hnodup
    · exact hmay
    · rw [hlistener, Hub.listenerPhase, if_neg hne]
  obtain ⟨s', hrun, hended, hreturned⟩ := sendEvents_run env
    (ListenerRemains w item message queue raises) (fun s' => s'.listeners w = ⟨.down, []⟩)
    (fun s x rest h => listenerRemains_forward env h) hremains
  refine ⟨s', hrun, ?_⟩
  cases hany : remaining.any raises with
  | true => exact hended hany
  | false => exact (hreturned hany).phase

end Hub

end FastApiAuth.ListenerFaults
