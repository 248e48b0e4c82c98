import FastApiAuth.Publishing

/-!
# What the endpoint makes of the frames of its client

A JSON text that the interpreter can read is answered with an error frame or relayed.
Everything else, and every exception of a push, leaves the loop while the client is still
there. A boolean passes for the integer that names the recipient.
-/

namespace FastApiAuth.FrameProtocol

set_option autoImplicit false

open PyJson Publishing

section Loop

/-- The worker at the time of a frame. The client of the socket is there and takes the error
frames. -/
structure Moment (own : Socket) where
  sockets : Sockets
  redisUp : Bool
  connected : ∀ detail, sockets.send own (errorFrame detail).toJson = none

/-- `while True` for these frames: the answers, and what has left the loop. -/
def websocketLoop (limits : Limits) {own : Socket} (userId : Int) :
    List (ClientFrame × Moment own) → List Reaction × Option LoopError
  | [] => ([], none)
  | (frame, moment) :: rest =>
    match loopBody limits moment.sockets moment.redisUp own userId frame with
    | (reaction, some e) => (reaction.toList, some e)
    | (reaction, none) =>
      (reaction.toList ++ (websocketLoop limits userId rest).1,
        (websocketLoop limits userId rest).2)

end Loop

section Protocol

/-- An object of type message with this recipient and a string as its body. -/
def Fields (data recipient : Json) (body : PyStr) : Prop :=
  ∃ fields, data = .object fields ∧
    PyJson.get fields typeKey = some (.str (.ofString "message")) ∧
    PyJson.get fields (.ofString "to") = some recipient ∧
    PyJson.get fields bodyKey = some (.str body)

/-- The text is JSON, whatever its length and depth. -/
def IsMessage (frame : ClientFrame) (recipient : Int) (body : PyStr) : Prop :=
  ∃ text data, frame = .text text ∧ loads text = some data ∧ Fields data (.int recipient) body

/-- A message is published, and every other frame gets one error frame. -/
def Answers (userId : Int) (frame : ClientFrame) (reaction : Reaction) : Prop :=
  (∃ recipient body, IsMessage frame recipient body ∧
      reaction = .publish (.int recipient) (privateMessage userId body)) ∨
    (∀ recipient body, ¬ IsMessage frame recipient body) ∧
      ∃ detail, reaction = .errorFrame detail

/-- Every frame of a connected client is answered so, and the loop is still running. -/
def KeepsProtocol (limits : Limits) {own : Socket} (userId : Int)
    (frames : List (ClientFrame × Moment own)) : Prop :=
  List.Forall₂ (fun received reaction => Answers userId received.1 reaction) frames
      (websocketLoop limits userId frames).1 ∧
    (websocketLoop limits userId frames).2 = none

end Protocol

section KeptProtocol

/-- The frame is a text that `json.loads` reads within its limits, it is not a message but for a
boolean recipient, and if it is a message no socket of the recipient on this worker raises. -/
structure Handled (limits : Limits) {own : Socket} (userId : Int) (frame : ClientFrame)
    (moment : Moment own) : Prop where
  json : ∃ text data, frame = .text text ∧ loads text = some data ∧
    data.within limits.maxStrDigits limits.depth = true ∧ ∀ b body, ¬ Fields data (.bool b) body
  takes : ∀ recipient body, IsMessage frame recipient body →
    Takes moment.sockets recipient (privateMessage userId body)

end KeptProtocol

section Reading

variable {data : Json} {frame : ClientFrame} {userId : Int} {recipient : Recipient} {body : PyStr}

def Recipient.json : Recipient → Json
  | .int n => .int n
  | .bool b => .bool b

theorem recipientOf_some {field : Option Json} (h : recipientOf field = some recipient) :
    field = some (Recipient.json recipient) := by
  unfold recipientOf at h
  split at h
  · cases h
    rfl
  · cases h
    rfl
  · cases h

theorem recipientOf_json (recipient : Recipient) :
    recipientOf (some (Recipient.json recipient)) = some recipient := by
  cases recipient <;> rfl

theorem readFrame_ok_iff :
    readFrame data = .ok (recipient, body) ↔ Fields data (Recipient.json recipient) body := by
  constructor
  · intro h
    obtain ⟨fields, rfl, htype, hbody, hto⟩ := Authenticity.readFrame_ok h
    exact ⟨fields, rfl, htype, recipientOf_some hto, hbody⟩
  · rintro ⟨fields, rfl, htype, hto, hbody⟩
    simp [readFrame, htype, hto, hbody, recipientOf_json]

theorem Fields.unique {to' to'' : Json} {body' : PyStr} (h : Fields data to' body)
    (h' : Fields data to'' body') : to' = to'' ∧ body = body' := by
  obtain ⟨fields, rfl, _, hto, hbody⟩ := h
  obtain ⟨fields', heq, _, hto', hbody'⟩ := h'
  cases heq
  rw [hto] at hto'
  rw [hbody] at hbody'
  cases hto'
  cases hbody'
  exact ⟨rfl, rfl⟩

end Reading

section Frame

variable {limits : Limits} {own : Socket} {userId : Int} {frame : ClientFrame}
variable {moment : Moment own}

theorem receiveJson_ok_iff {data : Json} : receiveJson limits frame = .ok data ↔
    ∃ text, frame = .text text ∧ loads text = some data ∧
      data.within limits.maxStrDigits limits.depth = true := by
  constructor
  · intro h
    obtain ⟨text, rfl, hread⟩ := receiveJson_ok h
    exact ⟨text, rfl, loadsWithin_ok_iff.mp hread⟩
  · rintro ⟨text, rfl, hread⟩
    simp only [receiveJson, loadsWithin_ok_iff.mpr hread]

/-- The round goes on with an answer that keeps to the protocol. -/
def GoesOn (limits : Limits) (userId : Int) (frame : ClientFrame) (moment : Moment own) : Prop :=
  ∃ reaction,
    loopBody limits moment.sockets moment.redisUp own userId frame = (some reaction, none) ∧
    Answers userId frame reaction

theorem loopBody_of_data {data : Json} (hdata : receiveJson limits frame = .ok data) :
    loopBody limits moment.sockets moment.redisUp own userId frame =
      (some (reactionTo userId data),
        ((reactionTo userId data).perform moment.sockets moment.redisUp own).map .raised) := by
  rw [loopBody, hdata]

theorem isMessage_iff {data : Json} (hdata : receiveJson limits frame = .ok data) {recipient : Int}
    {body : PyStr} : IsMessage frame recipient body ↔ Fields data (.int recipient) body := by
  constructor
  · rintro ⟨text, data', rfl, hloads, hfields⟩
    obtain ⟨_, heq, hloads', _⟩ := receiveJson_ok_iff.mp hdata
    cases heq
    cases hloads.symm.trans hloads'
    exact hfields
  · intro hfields
    obtain ⟨text, rfl, hloads, _⟩ := receiveJson_ok_iff.mp hdata
    exact ⟨text, data, rfl, hloads, hfields⟩

theorem handled_iff {data : Json} (hdata : receiveJson limits frame = .ok data) :
    Handled limits userId frame moment ↔ (∀ b body, ¬ Fields data (.bool b) body) ∧
      ∀ n body, Fields data (.int n) body →
        Takes moment.sockets n (privateMessage userId body) := by
  obtain ⟨text, htext, hloads, hwithin⟩ := receiveJson_ok_iff.mp hdata
  constructor
  · rintro ⟨⟨text', data', htext', hloads', _, hnone⟩, htakes⟩
    cases htext.symm.trans htext'
    cases hloads.symm.trans hloads'
    refine ⟨hnone, ?_⟩
    intro n body hfields
    exact htakes n body ((isMessage_iff hdata).mpr hfields)
  · rintro ⟨hnone, htakes⟩
    refine ⟨⟨text, data, htext, hloads, hwithin, hnone⟩, ?_⟩
    intro n body hmessage
    exact htakes n body ((isMessage_iff hdata).mp hmessage)

theorem goesOn_iff_of_error {e : LoopError} (herror : receiveJson limits frame = .error e) :
    GoesOn limits userId frame moment ↔ Handled limits userId frame moment := by
  apply iff_of_false
  · rintro ⟨reaction, hbody, _⟩
    rw [loopBody, herror] at hbody
    cases hbody
  · rintro ⟨⟨text, data, htext, hloads, hwithin, _⟩, _⟩
    cases herror.symm.trans (receiveJson_ok_iff.mpr ⟨text, htext, hloads, hwithin⟩)

theorem goesOn_iff_of_refused {data : Json} {detail : String}
    (hdata : receiveJson limits frame = .ok data) (hread : readFrame data = .error detail) :
    GoesOn limits userId frame moment ↔ Handled limits userId frame moment := by
  have hnone : ∀ recipient body, ¬ Fields data (Recipient.json recipient) body := by
    intro recipient body hfields
    cases hread.symm.trans (readFrame_ok_iff.mpr hfields)
  have hmessage : ∀ n body, ¬ IsMessage frame n body := by
    intro n body hmessage
    exact hnone (.int n) body ((isMessage_iff hdata).mp hmessage)
  apply iff_of_true
  · refine ⟨.errorFrame detail, ?_, Or.inr ⟨hmessage, detail, rfl⟩⟩
    have hreaction : reactionTo userId data = .errorFrame detail := by
      rw [reactionTo, hread]
    rw [loopBody_of_data hdata, hreaction, Reaction.perform, moment.connected detail]
    rfl
  · rw [handled_iff hdata]
    constructor
    · intro b body
      exact hnone (.bool b) body
    · intro n body hfields
      exact absurd hfields (hnone (.int n) body)

theorem goesOn_iff_of_message {data : Json} {n : Int} {body : PyStr}
    (hdata : receiveJson limits frame = .ok data) (hread : readFrame data = .ok (.int n, body)) :
    GoesOn limits userId frame moment ↔ Handled limits userId frame moment := by
  have hfields : Fields data (.int n) body := readFrame_ok_iff.mp hread
  have hmessage : IsMessage frame n body := (isMessage_iff hdata).mpr hfields
  have hreaction : reactionTo userId data = .publish (.int n) (privateMessage userId body) := by
    rw [reactionTo, hread]
  have hpush : ((reactionTo userId data).perform moment.sockets moment.redisUp own).map
      LoopError.raised = none ↔ Takes moment.sockets n (privateMessage userId body) := by
    rw [hreaction, Option.map_eq_none_iff]
    exact publishToUser_returns_iff
  rw [handled_iff hdata]
  constructor
  · rintro ⟨reaction, hbody, _⟩
    rw [loopBody_of_data hdata] at hbody
    constructor
    · intro b body' hbool
      cases (hfields.unique hbool).1
    · intro n' body' hfields'
      obtain ⟨heq, rfl⟩ := hfields.unique hfields'
      cases heq
      exact hpush.mp (Prod.mk.inj hbody).2
  · rintro ⟨_, htakes⟩
    refine ⟨reactionTo userId data, ?_, Or.inl ⟨n, body, hmessage, hreaction⟩⟩
    rw [loopBody_of_data hdata, hpush.mpr (htakes n body hfields)]

theorem goesOn_iff_of_boolean {data : Json} {b : Bool} {body : PyStr}
    (hdata : receiveJson limits frame = .ok data) (hread : readFrame data = .ok (.bool b, body)) :
    GoesOn limits userId frame moment ↔ Handled limits userId frame moment := by
  have hfields : Fields data (.bool b) body := readFrame_ok_iff.mp hread
  have hreaction : reactionTo userId data = .publish (.bool b) (privateMessage userId body) := by
    rw [reactionTo, hread]
  apply iff_of_false
  · rintro ⟨reaction, hbody, hanswers⟩
    rw [loopBody_of_data hdata, hreaction] at hbody
    obtain rfl := Option.some.inj (Prod.mk.inj hbody).1
    rcases hanswers with ⟨n, body', _, hpublish⟩ | ⟨_, detail, herror⟩
    · cases hpublish
    · cases herror
  · rw [handled_iff hdata]
    rintro ⟨hnone, _⟩
    exact hnone b body hfields

theorem goesOn_iff : GoesOn limits userId frame moment ↔ Handled limits userId frame moment := by
  cases hdata : receiveJson limits frame with
  | error e => exact goesOn_iff_of_error hdata
  | ok data =>
    cases hread : readFrame data with
    | error detail => exact goesOn_iff_of_refused hdata hread
    | ok read =>
      obtain ⟨recipient, body⟩ := read
      cases recipient with
      | int n => exact goesOn_iff_of_message hdata hread
      | bool b => exact goesOn_iff_of_boolean hdata hread

theorem loopBody_answered
    (h : (loopBody limits moment.sockets moment.redisUp own userId frame).2 = none) :
    ∃ reaction, loopBody limits moment.sockets moment.redisUp own userId frame =
      (some reaction, none) := by
  cases hdata : receiveJson limits frame with
  | error e =>
    rw [loopBody, hdata] at h
    cases h
  | ok data =>
    rw [loopBody_of_data hdata] at h ⊢
    dsimp only at h
    rw [h]
    exact ⟨_, rfl⟩

theorem websocketLoop_raised {e : LoopError} {rest : List (ClientFrame × Moment own)}
    (h : (loopBody limits moment.sockets moment.redisUp own userId frame).2 = some e) :
    (websocketLoop limits userId ((frame, moment) :: rest)).2 = some e := by
  rw [websocketLoop]
  generalize loopBody limits moment.sockets moment.redisUp own userId frame = round at h ⊢
  obtain ⟨reaction, left⟩ := round
  dsimp only at h
  rw [h]

theorem websocketLoop_answered {reaction : Reaction} {rest : List (ClientFrame × Moment own)}
    (h : loopBody limits moment.sockets moment.redisUp own userId frame = (some reaction, none)) :
    websocketLoop limits userId ((frame, moment) :: rest) =
      (reaction :: (websocketLoop limits userId rest).1, (websocketLoop limits userId rest).2) := by
  rw [websocketLoop, h]
  rfl

end Frame

/-- The endpoint keeps to its protocol for a sequence of frames just when each is a JSON text
within the limits of the interpreter, none is a message but for a boolean recipient, and no
push raises. -/
theorem endpoint_keeps_protocol_iff (limits : Limits) {own : Socket} (userId : Int)
    (frames : List (ClientFrame × Moment own)) :
    KeepsProtocol limits userId frames ↔
      ∀ received ∈ frames, Handled limits userId received.1 received.2 := by
  unfold KeepsProtocol
  induction frames with
  | nil => simp [websocketLoop]
  | cons received frames ih =>
    obtain ⟨frame, moment⟩ := received
    rw [List.forall_mem_cons, ← ih, ← goesOn_iff]
    cases hround : (loopBody limits moment.sockets moment.redisUp own userId frame).2 with
    | some e =>
      apply iff_of_false
      · rintro ⟨_, hopen⟩
        cases (websocketLoop_raised hround).symm.trans hopen
      · rintro ⟨⟨reaction, hbody, _⟩, _⟩
        rw [hbody] at hround
        cases hround
    | none =>
      obtain ⟨reaction, hbody⟩ := loopBody_answered hround
      have hgoesOn : GoesOn limits userId frame moment ↔ Answers userId frame reaction := by
        constructor
        · rintro ⟨reaction', hbody', hanswers⟩
          cases hbody.symm.trans hbody'
          exact hanswers
        · intro hanswers
          exact ⟨reaction, hbody, hanswers⟩
      rw [websocketLoop_answered hbody, List.forall₂_cons, hgoesOn, and_assoc]

/-- A worker on which nothing raises. -/
def calmMoment (own : Socket) : Moment own := ⟨⟨fun _ => [], fun _ _ => none⟩, true, fun _ => rfl⟩

def trueText : List Char :=
  "\x7b\"type\": \"message\", \"to\": true, \"body\": \"hi\"\x7d".toList

theorem trueText_read : (loadsWithin defaultLimits trueText).toOption.map readFrame =
    some (.ok (.bool true, .ofString "hi")) := by
  decide +kernel

/-- A text that is not JSON, a binary frame and arrays too deep inside each other end the loop,
and a boolean recipient is published. -/
theorem frames_outside_protocol :
    ¬ KeepsProtocol defaultLimits 2 [(.text "hello".toList, calmMoment 1)] ∧
    ¬ KeepsProtocol defaultLimits 2 [(.binary [0], calmMoment 1)] ∧
    ¬ KeepsProtocol defaultLimits 2
      [(.text (List.replicate 1001 '[' ++ List.replicate 1001 ']'), calmMoment 1)] ∧
    ¬ KeepsProtocol defaultLimits 2 [(.text trueText, calmMoment 1)] := by
  refine ⟨?_, ?_, ?_, ?_⟩
  · rintro ⟨_, hopen⟩
    revert hopen
    decide +kernel
  · rintro ⟨_, hopen⟩
    revert hopen
    decide +kernel
  · rintro ⟨_, hopen⟩
    revert hopen
    decide +kernel
  · rintro ⟨hanswers, _⟩
    obtain ⟨data, hdata, hread⟩ := Option.map_eq_some_iff.mp trueText_read
    have hreceived : receiveJson defaultLimits (.text trueText) = .ok data := by
      cases hloads : loadsWithin defaultLimits trueText with
      | error e =>
        rw [hloads] at hdata
        cases hdata
      | ok data' =>
        rw [hloads] at hdata
        cases hdata
        simp only [receiveJson, hloads]
    have hround : loopBody defaultLimits (calmMoment 1).sockets (calmMoment 1).redisUp 1 2
        (.text trueText) =
          (some (.publish (.bool true) (privateMessage 2 (.ofString "hi"))), none) := by
      rw [loopBody_of_data hreceived, reactionTo, hread]
      rfl
    rw [websocketLoop_answered hround, List.forall₂_cons] at hanswers
    rcases hanswers.1 with ⟨recipient, body, _, hpublish⟩ | ⟨_, detail, herror⟩
    · cases hpublish
    · cases herror

end FastApiAuth.FrameProtocol
