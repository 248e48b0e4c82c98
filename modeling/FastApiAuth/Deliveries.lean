import FastApiAuth.Causes

/-!
# What becomes of a message to a user

A socket of the user that stays connected is owed one copy of every message. The copy is
followed from the call of `publish_to_user` to the client: either the call has it, or the
listener of the socket's worker, or the client. `Loses` lists where it is lost.
-/

namespace FastApiAuth.Deliveries

set_option autoImplicit false

open PyJson Function

universe u

section Copies

variable {ι : Type u} (c : Nat) (x : Socket)

/-- The frames of the call that have reached the client. -/
def received (inbox : List Received) : Nat := inbox.countP fun r => r.call = some c

/-- The copy that the call itself still has. -/
def inHand : Option (Call ι) → Nat
  | some call =>
    match call.phase with
    | .sending remaining => if x ∈ remaining then 1 else 0
    | .publishing => 1
  | none => 0

/-- The copy that the listener is about to forward. -/
def forwarding : ListenerPhase → Nat
  | .sending item _ remaining => if item.call = c ∧ x ∈ remaining then 1 else 0
  | _ => 0

/-- The copies that the listener still has. -/
def heard (l : Listener) : Nat :=
  (l.queue.countP fun item => item.call = c) + forwarding c x l.phase

/-- The copies for the socket, which was opened at the worker. -/
def copies (w : ι) (s : Hub ι) : Nat :=
  received c (s.inbox x) + inHand x (s.calls c) + heard c x (s.listeners w)

/-- The events by which the socket loses its copy. -/
inductive Loses (w : ι) (s : Hub ι) : HubEvent ι → Prop where
  /-- The call finds sockets of the user at its worker, and returns when those are served. -/
  | returned {event : HubEvent ι} {v : ι} {recipient : Recipient} {message : Message} :
      s.nextCall = c → Starts s event v recipient message →
      s.connections v recipient.key ≠ [] → x ∉ s.connections v recipient.key →
      Loses w s event
  /-- The call raises, for this socket or for one before it. -/
  | sendRaised {y : Socket} {call : Call ι} {remaining : List Socket} : s.calls c = some call →
      call.phase = .sending remaining → x ∈ remaining → Loses w s (.send c y true)
  /-- The listener raises, and what it has not forwarded is gone. -/
  | forwardRaised {y : Socket} : 0 < heard c x (s.listeners w) → Loses w s (.forward w y true)
  /-- The listener cannot read the recipient, and drops the message. -/
  | unread {item : Item} {queue : List Item} : s.listeners w = ⟨.listening, item :: queue⟩ →
      item.call = c → readItem item = none → Loses w s (.listen w)

/-- Redis is up, and every listener subscribed when the call publishes. -/
structure Subscribed (s : Hub ι) (event : HubEvent ι) : Prop where
  publish : ∀ up, event = .publish c up → up = true ∧ ∀ w, (s.listeners w).phase ≠ .down
  crash : ∀ w, event ≠ .crash w

/-- Nothing of the call is on its way to the worker's sockets. -/
structure Settled (w : ι) (s : Hub ι) : Prop where
  call : s.calls c = none
  queue : ∀ item ∈ (s.listeners w).queue, item.call ≠ c
  phase : ∀ item json remaining,
    (s.listeners w).phase = .sending item json remaining → item.call ≠ c

end Copies

/-- The socket is known to its worker, and its client is there. -/
structure Live {ι : Type u} (x : Socket) (w : ι) (userId : Int) (s : Hub ι) : Prop where
  registered : x ∈ s.connections w userId
  connected : s.connected x = true

section Counting

variable {ι : Type u} {c c' : Nat} {x y : Socket} {w : ι} {s s₁ : Hub ι} {event : HubEvent ι}

theorem received_append (inbox : List Received) (r : Received) :
    received c (inbox ++ [r]) = received c inbox + if r.call = some c then 1 else 0 := by
  simp [received, List.countP_append, List.countP_singleton]

theorem received_deliver (origin : Option Nat) (frame : Json) :
    received c ((s.deliver y origin frame).inbox x) = received c (s.inbox x) +
      if y = x ∧ s.connected x = true ∧ origin = some c then 1 else 0 := by
  unfold Hub.deliver
  split
  · rename_i hconnected
    dsimp only
    by_cases hy : y = x
    · subst hy
      rw [update_self, received_append]
      simp [hconnected]
    · rw [update_of_ne (Ne.symm hy), if_neg fun h => hy h.1, Nat.add_zero]
  · rename_i hgone
    rw [if_neg, Nat.add_zero]
    rintro ⟨rfl, hconnected, _⟩
    exact hgone hconnected

theorem inHand_continued {call : Call ι} {remaining : List Socket} :
    inHand x (call.continued remaining) = if x ∈ remaining then 1 else 0 := by
  unfold Call.continued
  split
  · rename_i hnil
    rw [hnil, if_neg List.not_mem_nil]
    rfl
  · rfl

theorem forwarding_listenerPhase {item : Item} {json : Json} {remaining : List Socket} :
    forwarding c x (Hub.listenerPhase item json remaining) =
      if item.call = c ∧ x ∈ remaining then 1 else 0 := by
  unfold Hub.listenerPhase
  split
  · rename_i hnil
    rw [hnil, if_neg fun h => List.not_mem_nil h.2]
    rfl
  · rfl

theorem copies_of_settled (h : Settled c w s) : copies c x w s = received c (s.inbox x) := by
  have hqueue : (s.listeners w).queue.countP (fun item => item.call = c) = 0 :=
    List.countP_eq_zero.mpr fun item hitem => by simpa using h.queue item hitem
  have hphase : forwarding c x (s.listeners w).phase = 0 := by
    unfold forwarding
    split
    · rename_i item json remaining hsending
      exact if_neg fun hc => h.phase item json remaining hsending hc.1
    · rfl
  simp only [copies, heard, h.call, hqueue, hphase, inHand, Nat.add_zero]

theorem nothing_before {h : List (HubTransition ι)} (htraced : Traced h s)
    (hfresh : ∀ recipient message, ¬ Caused h c recipient message) :
    received c (s.inbox x) = 0 ∧ heard c x (s.listeners w) = 0 := by
  have hqueue : (s.listeners w).queue.countP (fun item => item.call = c) = 0 := by
    refine List.countP_eq_zero.mpr fun item hitem hc => ?_
    obtain ⟨recipient, message, hcaused, _⟩ := htraced.queued w item hitem
    exact hfresh recipient message (of_decide_eq_true hc ▸ hcaused)
  have hphase : forwarding c x (s.listeners w).phase = 0 := by
    unfold forwarding
    split
    · rename_i item json remaining hsending
      refine if_neg fun hc => ?_
      obtain ⟨recipient, message, hcaused, _⟩ := htraced.forwarding w item json remaining hsending
      exact hfresh recipient message (hc.1 ▸ hcaused)
    · rfl
  refine ⟨List.countP_eq_zero.mpr fun r hr hc => ?_, by rw [heard, hqueue, hphase]⟩
  cases htraced.received x r hr with
  | answer => cases of_decide_eq_true hc
  | message hcaused =>
    cases of_decide_eq_true hc
    exact hfresh _ _ hcaused

end Counting

section OneStep

/-- An event that `L` says to lose something lowers the number, any other keeps it. -/
structure Kept (L : Prop) (before after : Nat) : Prop where
  same : ¬ L → after = before
  less : L → after < before

theorem Kept.of_eq {L : Prop} {before after : Nat} (hL : ¬ L) (h : after = before) :
    Kept L before after := ⟨fun _ => h, fun h => absurd h hL⟩

theorem Kept.of_lt {L : Prop} {before after : Nat} (hL : L) (h : after < before) :
    Kept L before after := ⟨fun h => absurd hL h, fun _ => h⟩

/-- A state in which the copy of a call that has begun is followed. -/
structure Followed {ι : Type u} (h : List (HubTransition ι)) (c : Nat) (x : Socket) (w : ι)
    (userId : Int) (s : Hub ι) : Prop where
  placed : Placed s
  traced : Traced h s
  idle : ∀ v, (s.listeners v).phase = .down → (s.listeners v).queue = []
  begun : c < s.nextCall
  addressed : ∀ recipient message, Caused h c recipient message → recipient.key = userId
  live : Live x w userId s

end OneStep

section Step

variable {ι : Type u} {c : Nat} {x : Socket} {w : ι} {userId : Int} {s s₁ : Hub ι}
variable {h : List (HubTransition ι)} {event : HubEvent ι}

theorem not_loses_offStage (hoff : event.OffStage) (hc : c < s.nextCall) :
    ¬ Loses c x w s event := by
  rintro (⟨hnumber, _⟩ | _ | _ | _)
  · omega
  all_goals cases hoff

/-- A socket that is sent to by another worker's listener is another. -/
theorem Followed.not_elsewhere (hf : Followed h c x w userId s) {v : ι} (hv : w ≠ v) {item : Item}
    {json : Json} {remaining : List Socket}
    (hphase : (s.listeners v).phase = .sending item json remaining) : x ∉ remaining := by
  intro hx
  obtain ⟨_, _, _, _, hat⟩ := hf.traced.forwarding v item json remaining hphase
  obtain ⟨token, ho⟩ := hat x hx
  obtain ⟨token', ho'⟩ := hf.placed.registered x w userId hf.live.registered
  cases ho.symm.trans ho'
  exact hv rfl

theorem copies_setCall (c' : Nat) (entry : Option (Call ι)) :
    copies c x w (s.setCall c' entry) = received c (s.inbox x) +
      inHand x (if c = c' then entry else s.calls c) + heard c x (s.listeners w) := by
  unfold copies Hub.setCall
  simp only [update_apply]

/-- The phase in which a call begins. -/
def firstPhase (s : Hub ι) (v : ι) (recipient : Recipient) : CallPhase :=
  if s.connections v recipient.key = [] then .publishing
  else .sending (s.connections v recipient.key)

theorem copies_startCall (v : ι) (recipient : Recipient) (message : Message)
    (caller : Option Socket) :
    copies c x w (s.startCall v recipient message caller) = received c (s.inbox x) +
      inHand x (if c = s.nextCall then
        some ⟨v, recipient, message, caller, firstPhase s v recipient⟩ else s.calls c) +
      heard c x (s.listeners w) := by
  unfold copies Hub.startCall Hub.setCall firstPhase
  simp only [update_apply]

theorem inHand_none : inHand x (none : Option (Call ι)) = 0 := rfl

theorem inHand_sending {call : Call ι} {remaining : List Socket} (hcall : s.calls c = some call)
    (hphase : call.phase = .sending remaining) (x : Socket) :
    inHand x (s.calls c) = if x ∈ remaining then 1 else 0 := by
  rw [hcall, inHand, hphase]

theorem kept_sendRaised {c' : Nat} {y : Socket} {call : Call ι} {remaining : List Socket}
    (hcall : s.calls c' = some call) (hphase : call.phase = .sending remaining) :
    Kept (Loses c x w s (.send c' y true)) (copies c x w s) (copies c x w (s.setCall c' none)) := by
  rw [copies_setCall]
  by_cases hc : c = c'
  · subst hc
    have hbefore := inHand_sending hcall hphase x
    rw [if_pos rfl, inHand_none]
    unfold copies
    by_cases hx : x ∈ remaining
    · rw [if_pos hx] at hbefore
      exact .of_lt (.sendRaised hcall hphase hx) (by omega)
    · rw [if_neg hx] at hbefore
      refine .of_eq ?_ (by omega)
      rintro (⟨_, hstarts, _⟩ | ⟨hcall', hphase', hx'⟩)
      · cases hstarts
      · cases hcall.symm.trans hcall'
        cases hphase.symm.trans hphase'
        exact hx hx'
  · rw [if_neg hc]
    refine .of_eq ?_ rfl
    rintro (⟨_, hstarts, _⟩ | _)
    · cases hstarts
    · exact hc rfl

theorem kept_sent (hf : Followed h c x w userId s) {c' : Nat} {y : Socket} {call : Call ι}
    {remaining : List Socket} (hcall : s.calls c' = some call)
    (hphase : call.phase = .sending remaining) (hy : y ∈ remaining) :
    Kept (Loses c x w s (.send c' y false)) (copies c x w s)
      (copies c x w ((s.deliver y (some c') call.message.toJson).setCall c'
        (call.continued (remaining.filter fun z => z ≠ y)))) := by
  refine .of_eq ?_ ?_
  · rintro (⟨_, hstarts, _⟩)
    cases hstarts
  rw [copies_setCall, received_deliver, deliver_calls, deliver_listeners]
  by_cases hc : c = c'
  · subst hc
    have hbefore := inHand_sending hcall hphase x
    rw [if_pos rfl, inHand_continued]
    unfold copies
    by_cases hx : y = x
    · subst hx
      rw [if_pos hy] at hbefore
      rw [if_pos ⟨rfl, hf.live.connected, rfl⟩, if_neg (by simp)]
      omega
    · have hmem : x ∈ remaining.filter (fun z => z ≠ y) ↔ x ∈ remaining := by
        simp [Ne.symm hx]
      rw [if_neg fun h => hx h.1, if_congr hmem rfl rfl, ← hbefore, Nat.add_zero]
  · have hother : ¬ (y = x ∧ s.connected x = true ∧ some c' = some c) := by
      rintro ⟨_, _, heq⟩
      exact hc (Option.some.inj heq).symm
    rw [if_neg hother, if_neg hc, Nat.add_zero]
    rfl

theorem heard_append (l : Listener) (item : Item) :
    heard c x ⟨l.phase, l.queue ++ [item]⟩ = heard c x l + if item.call = c then 1 else 0 := by
  unfold heard
  rw [List.countP_append, List.countP_singleton]
  simp only [decide_eq_true_eq]
  omega

theorem heard_fanOut (item : Item) (hw : (s.listeners w).phase ≠ .down) :
    heard c x ((s.fanOut item).listeners w) =
      heard c x (s.listeners w) + if item.call = c then 1 else 0 := by
  unfold Hub.fanOut
  dsimp only
  split
  · rename_i hdown
    exact absurd hdown hw
  · exact heard_append _ _

theorem heard_fanOut_other {item : Item} (hc : item.call ≠ c) :
    heard c x ((s.fanOut item).listeners w) = heard c x (s.listeners w) := by
  unfold Hub.fanOut
  dsimp only
  split
  · rfl
  · rw [heard_append, if_neg hc, Nat.add_zero]

theorem kept_published {c' : Nat} {call : Call ι} {up : Bool} (hcall : s.calls c' = some call)
    (hphase : call.phase = .publishing) (hsub : Subscribed c s (.publish c' up)) :
    Kept (Loses c x w s (.publish c' up)) (copies c x w s) (copies c x w
      ((if up then s.fanOut (Hub.itemOf c' call) else s).setCall c' none)) := by
  refine .of_eq ?_ ?_
  · rintro (⟨_, hstarts, _⟩)
    cases hstarts
  rw [copies_setCall]
  by_cases hc : c = c'
  · subst hc
    obtain ⟨rfl, hlisten⟩ := hsub.publish up rfl
    have hbefore : inHand x (s.calls c) = 1 := by
      rw [hcall, inHand, hphase]
    have hitem : (Hub.itemOf c call).call = c := rfl
    rw [if_pos rfl, if_pos rfl, inHand_none, heard_fanOut _ (hlisten w), if_pos hitem]
    change received c (s.inbox x) + 0 + _ = _
    unfold copies
    omega
  · have hheard : heard c x
        ((if up then s.fanOut (Hub.itemOf c' call) else s).listeners w) =
          heard c x (s.listeners w) := by
      cases up with
      | false => rfl
      | true => exact heard_fanOut_other (Ne.symm hc)
    rw [if_neg hc, hheard]
    cases up <;> rfl

theorem copies_sameTraffic {s' : Hub ι} (h : SameTraffic s s') :
    copies c x w s' = copies c x w s := by
  unfold copies
  rw [h.inbox, h.calls, h.listeners]

variable [DecidableEq ι]

theorem copies_setListener (v : ι) (l : Listener) :
    copies c x w (s.setListener v l) = received c (s.inbox x) + inHand x (s.calls c) +
      heard c x (if w = v then l else s.listeners w) := by
  unfold copies Hub.setListener
  simp only [update_apply]

theorem heard_cons {l : Listener} {item : Item} {queue : List Item}
    (hl : l = ⟨.listening, item :: queue⟩) :
    heard c x l = heard c x ⟨.listening, queue⟩ + if item.call = c then 1 else 0 := by
  rw [hl]
  unfold heard forwarding
  rw [List.countP_cons]
  simp only [decide_eq_true_eq, Nat.add_zero]

theorem kept_listening {v : ι} {l : Listener} (hloses : ¬ Loses c x w s event)
    (hl : w = v → heard c x l = heard c x (s.listeners w)) :
    Kept (Loses c x w s event) (copies c x w s) (copies c x w (s.setListener v l)) := by
  refine .of_eq hloses ?_
  rw [copies_setListener]
  by_cases hv : w = v
  · rw [if_pos hv, hl hv]
    rfl
  · rw [if_neg hv]
    rfl

theorem kept_subscribed (hf : Followed h c x w userId s) {v : ι}
    (hdown : (s.listeners v).phase = .down) :
    Kept (Loses c x w s (.subscribe v)) (copies c x w s)
      (copies c x w (s.setListener v ⟨.listening, []⟩)) := by
  refine kept_listening ?_ ?_
  · rintro (⟨_, hstarts, _⟩)
    cases hstarts
  · rintro rfl
    unfold heard
    rw [hf.idle w hdown, hdown]
    rfl

theorem kept_dropped {v : ι} {item : Item} {queue : List Item}
    (hl : s.listeners v = ⟨.listening, item :: queue⟩) (hread : readItem item = none) :
    Kept (Loses c x w s (.listen v)) (copies c x w s)
      (copies c x w (s.setListener v ⟨.listening, queue⟩)) := by
  have hcons := heard_cons (c := c) (x := x) hl
  by_cases hlost : w = v ∧ item.call = c
  · obtain ⟨rfl, hc⟩ := hlost
    refine .of_lt (.unread hl hc hread) ?_
    rw [copies_setListener, if_pos rfl]
    rw [if_pos hc] at hcons
    unfold copies
    omega
  · refine kept_listening ?_ ?_
    · rintro (⟨_, hstarts, _⟩ | _ | _ | ⟨hl', hc, _⟩)
      · cases hstarts
      · cases hl.symm.trans hl'
        exact hlost ⟨rfl, hc⟩
    · rintro rfl
      rw [hcons, if_neg fun hc => hlost ⟨rfl, hc⟩]
      rfl

theorem kept_taken (hf : Followed h c x w userId s) {v : ι} {item : Item} {queue : List Item}
    {readId : Int} {json : Json} (hl : s.listeners v = ⟨.listening, item :: queue⟩)
    (hread : readItem item = some (readId, json)) :
    Kept (Loses c x w s (.listen v)) (copies c x w s) (copies c x w
      (s.setListener v ⟨Hub.listenerPhase item json (s.connections v readId), queue⟩)) := by
  refine kept_listening ?_ ?_
  · rintro (⟨_, hstarts, _⟩ | _ | _ | ⟨hl', _, hnone⟩)
    · cases hstarts
    · cases hl.symm.trans hl'
      cases hread.symm.trans hnone
  · rintro rfl
    rw [heard_cons hl]
    unfold heard
    rw [forwarding_listenerPhase]
    by_cases hc : item.call = c
    · have hitem : item ∈ (s.listeners w).queue := hl ▸ List.mem_cons_self
      obtain ⟨recipient, message, hcaused, hcarries⟩ := hf.traced.queued w item hitem
      have hid : readId = userId :=
        (hcarries.of_readItem hread).1.trans (hf.addressed _ _ (hc ▸ hcaused))
      rw [if_pos ⟨hc, hid ▸ hf.live.registered⟩, if_pos hc]
      rfl
    · rw [if_neg fun h => hc h.1, if_neg hc]
      rfl

theorem kept_forwardRaised {v : ι} {y : Socket} :
    Kept (Loses c x w s (.forward v y true)) (copies c x w s)
      (copies c x w (s.setListener v ⟨.down, []⟩)) := by
  by_cases hlost : w = v ∧ 0 < heard c x (s.listeners w)
  · obtain ⟨rfl, hheard⟩ := hlost
    refine .of_lt (.forwardRaised hheard) ?_
    have hempty : heard c x ⟨.down, []⟩ = 0 := rfl
    rw [copies_setListener, if_pos rfl, hempty]
    unfold copies
    omega
  · refine kept_listening ?_ ?_
    · rintro (⟨_, hstarts, _⟩ | _ | hheard | _)
      · cases hstarts
      · exact hlost ⟨rfl, hheard⟩
    · rintro rfl
      have hnone : heard c x (s.listeners w) = 0 := by
        by_contra hheard
        exact hlost ⟨rfl, Nat.pos_of_ne_zero hheard⟩
      rw [hnone]
      rfl

theorem kept_forwarded (hf : Followed h c x w userId s) {v : ι} {y : Socket} {item : Item}
    {json : Json} {remaining : List Socket}
    (hphase : (s.listeners v).phase = .sending item json remaining) (hy : y ∈ remaining) :
    Kept (Loses c x w s (.forward v y false)) (copies c x w s) (copies c x w
      ((s.deliver y (some item.call) json).setListener v
        ⟨Hub.listenerPhase item json (remaining.filter fun z => z ≠ y),
          (s.listeners v).queue⟩)) := by
  refine .of_eq ?_ ?_
  · rintro (⟨_, hstarts, _⟩)
    cases hstarts
  have hbefore : heard c x (s.listeners v) = ((s.listeners v).queue.countP fun i => i.call = c) +
      if item.call = c ∧ x ∈ remaining then 1 else 0 := by
    rw [heard, hphase]
    rfl
  have hafter : heard c x ⟨Hub.listenerPhase item json (remaining.filter fun z => z ≠ y),
      (s.listeners v).queue⟩ = ((s.listeners v).queue.countP fun i => i.call = c) +
        if item.call = c ∧ x ∈ remaining.filter (fun z => z ≠ y) then 1 else 0 := by
    rw [heard, forwarding_listenerPhase]
  rw [copies_setListener, received_deliver, deliver_calls, deliver_listeners]
  by_cases hx : y = x ∧ item.call = c
  · -- the copy moves from the listener to the client
    obtain ⟨rfl, hc⟩ := hx
    have hv : w = v := by
      by_contra hv
      exact hf.not_elsewhere hv hphase hy
    subst hv
    rw [if_pos ⟨hc, hy⟩] at hbefore
    have hgone : ¬ (item.call = c ∧ y ∈ remaining.filter (fun z => z ≠ y)) := by
      simp
    rw [if_pos ⟨rfl, hf.live.connected, congrArg some hc⟩, if_pos rfl, hafter, if_neg hgone]
    unfold copies
    omega
  · have hinbox : ¬ (y = x ∧ s.connected x = true ∧ some item.call = some c) := by
      rintro ⟨hyx, _, hc⟩
      exact hx ⟨hyx, Option.some.inj hc⟩
    have hmem : (item.call = c ∧ x ∈ remaining.filter (fun z => z ≠ y)) ↔
        (item.call = c ∧ x ∈ remaining) := by
      refine and_congr_right fun hc => ?_
      have hne : x ≠ y := fun heq => hx ⟨heq.symm, hc⟩
      simp [hne]
    rw [if_congr hmem rfl rfl, ← hbefore] at hafter
    rw [if_neg hinbox]
    by_cases hv : w = v
    · rw [if_pos hv, hafter, hv]
      rfl
    · rw [if_neg hv]
      rfl

/-- An event keeps the copy or loses it, and `Loses` says which. -/
theorem kept_step (hf : Followed h c x w userId s) (hm : TrafficMove s event s₁)
    (hsub : Subscribed c s event) :
    Kept (Loses c x w s event) (copies c x w s) (copies c x w s₁) := by
  cases hm with
  | quiet hoff => exact .of_eq (not_loses_offStage hoff hf.begun) rfl
  | begun _ hstarts =>
    refine .of_eq (not_loses_offStage (by cases hstarts <;> trivial) hf.begun) ?_
    rw [copies_startCall, if_neg (Nat.ne_of_lt hf.begun)]
    rfl
  | answered =>
    refine .of_eq (not_loses_offStage trivial hf.begun) ?_
    unfold copies
    rw [received_deliver, deliver_calls, deliver_listeners, if_neg fun h => nomatch h.2.2]
    rfl
  | sendRaised hcall hphase hy => exact kept_sendRaised hcall hphase
  | sent hcall hphase hy => exact kept_sent hf hcall hphase hy
  | published hcall hphase => exact kept_published hcall hphase hsub
  | subscribed hdown => exact kept_subscribed hf hdown
  | dropped hl hread => exact kept_dropped hl hread
  | taken hl hread => exact kept_taken hf hl hread
  | forwardRaised => exact kept_forwardRaised
  | forwarded hphase hy => exact kept_forwarded hf hphase hy
  | crashed => exact absurd rfl (hsub.crash _)

end Step

section EveryRun

variable {env : Env} {ι : Type u} [DecidableEq ι] {server : Server} {s s' : Hub ι}
variable {h before after : List (HubTransition ι)} {event : HubEvent ι} {c : Nat} {x : Socket}
variable {v w : ι} {recipient : Recipient} {message : Message}

theorem run_idle (r : HubRun env (Hub.start server) h s) :
    ∀ v, (s.listeners v).phase = .down → (s.listeners v).queue = [] := by
  refine r.invariant (I := fun s => ∀ v, (s.listeners v).phase = .down →
    (s.listeners v).queue = []) (fun _ _ => rfl) ?_
  intro s event s' hidle hstep v
  obtain ⟨s₁, htraffic, hsame⟩ := (hub_move hstep).traffic
  rw [hsame.listeners]
  exact (htraffic.listeners v).idle (hidle v)

theorem startCall_of_starts {s₁ : Hub ι} (hm : TrafficMove s event s₁)
    (hstarts : Starts s event v recipient message) :
    ∃ caller, s₁ = s.startCall v recipient message caller := by
  cases hm with
  | quiet _ hnone => exact absurd hstarts (hnone _ _ _)
  | begun caller hstarts' =>
    obtain ⟨rfl, rfl, rfl⟩ := hstarts.unique hstarts'
    exact ⟨caller, rfl⟩
  | answered he hdata hread =>
    cases hstarts with
    | relayed _ _ hdata' hread' =>
      cases hdata.symm.trans hdata'
      cases hread.symm.trans hread'
  | sendRaised | sent | published | subscribed | dropped | taken | forwardRaised | forwarded
  | crashed => cases hstarts

/-- A call that begins has one copy for the socket, or has lost it. -/
theorem copies_begun (r : HubRun env (Hub.start server) h s) (hstep : HubStep env s event s')
    (hstarts : Starts s event v recipient message) :
    (¬ Loses s.nextCall x w s event → copies s.nextCall x w s' = 1) ∧
      (Loses s.nextCall x w s event → copies s.nextCall x w s' = 0) := by
  have hfresh : ∀ recipient message, ¬ Caused h s.nextCall recipient message :=
    fun recipient message hc => Nat.lt_irrefl _ ((run_caused r).1 _ recipient message hc)
  obtain ⟨hreceived, hheard⟩ := nothing_before (x := x) (w := w) (run_traced r) hfresh
  obtain ⟨s₁, htraffic, hsame⟩ := (hub_move hstep).traffic
  obtain ⟨caller, rfl⟩ := startCall_of_starts htraffic hstarts
  rw [copies_sameTraffic hsame, copies_startCall, if_pos rfl, hreceived, hheard, inHand,
    firstPhase, Nat.zero_add, Nat.add_zero]
  by_cases hnil : s.connections v recipient.key = []
  · refine ⟨fun _ => by simp only [if_pos hnil], ?_⟩
    rintro (⟨_, hstarts', hsome, _⟩ | _ | _ | _)
    · obtain ⟨rfl, rfl, rfl⟩ := hstarts.unique hstarts'
      exact absurd hnil hsome
    all_goals cases hstarts
  · simp only [if_neg hnil]
    by_cases hx : x ∈ s.connections v recipient.key
    · refine ⟨fun _ => if_pos hx, ?_⟩
      rintro (⟨_, hstarts', _, hnot⟩ | _ | _ | _)
      · obtain ⟨rfl, rfl, rfl⟩ := hstarts.unique hstarts'
        exact absurd hx hnot
      all_goals cases hstarts
    · exact ⟨fun hkept => absurd (.returned rfl hstarts hnil hx) hkept, fun _ => if_neg hx⟩

/-- After a call has begun, its copy for a live socket can be followed. -/
theorem followed {t : HubTransition ι} (r : HubRun env (Hub.start server) h s) (ht : t ∈ h)
    (hbegins : Begins c recipient message t) (hlive : Live x w recipient.key s) :
    Followed h c x w recipient.key s := by
  have hcaused : Caused h c recipient message := ⟨t, ht, hbegins⟩
  obtain ⟨hlt, hunique⟩ := run_caused r
  refine ⟨run_placed r, run_traced r, run_idle r, hlt c recipient message hcaused, ?_, hlive⟩
  intro recipient' message' hcaused'
  exact congrArg Recipient.key (hunique _ _ _ _ _ hcaused' hcaused).1

/-- Whatever of the call has arrived is its message. -/
theorem frames_of_call {t : HubTransition ι} (r : HubRun env (Hub.start server) h s) (ht : t ∈ h)
    (hbegins : Begins c recipient message t) {received : Received} (hr : received ∈ s.inbox x)
    (hc : received.call = some c) : received.frame = message.toJson := by
  cases (run_traced r).received x received hr with
  | answer => cases hc
  | message hcaused =>
    cases hc
    obtain ⟨_, rfl⟩ := (run_caused r).2 _ _ _ _ _ hcaused ⟨t, ht, hbegins⟩
    rfl

/-- A socket that stays connected receives a message to its user exactly once, exactly when
none of the events that lose it happens; and never twice, nor anything else for it. -/
theorem delivered_once_iff {begin : HubTransition ι}
    (r : HubRun env (Hub.start server) (before ++ begin :: after) s)
    (hstarts : Starts begin.source begin.label v recipient message)
    (hlive : ∀ t ∈ begin :: after, Live x w recipient.key t.source)
    (hsub : ∀ t ∈ after, Subscribed begin.source.nextCall t.source t.label)
    (hsettled : Settled begin.source.nextCall w s) :
    (received begin.source.nextCall (s.inbox x) = 1 ↔
      ∀ t ∈ begin :: after, ¬ Loses begin.source.nextCall x w t.source t.label) ∧
    received begin.source.nextCall (s.inbox x) ≤ 1 ∧
    ∀ r ∈ s.inbox x, r.call = some begin.source.nextCall → r.frame = message.toJson := by
  have hbegins : Begins begin.source.nextCall recipient message begin := ⟨rfl, v, hstarts⟩
  have hmem : begin ∈ before ++ begin :: after :=
    List.mem_append_right _ List.mem_cons_self
  obtain ⟨rb, hbegin, r₂⟩ := r.split_at
  have hstep : ∀ t ∈ after, Kept (Loses begin.source.nextCall x w t.source t.label)
      (copies begin.source.nextCall x w t.source) (copies begin.source.nextCall x w t.target) := by
    intro t ht
    obtain ⟨middle, _, rm, hstep⟩ := r₂.step_of_mem ht
    have hfollowed := followed ((rb.snoc hbegin).append rm) (List.mem_append_left _ (by simp))
      hbegins (hlive t (List.mem_cons_of_mem _ ht))
    obtain ⟨s₂, htraffic, hsame⟩ := (hub_move hstep).traffic
    rw [copies_sameTraffic hsame]
    exact kept_step hfollowed htraffic (hsub t ht)
  obtain ⟨hle, hiff⟩ := r₂.kept_iff (f := copies begin.source.nextCall x w)
    (L := fun t => Loses begin.source.nextCall x w t.source t.label)
    (fun t ht => (hstep t ht).same) fun t ht => (hstep t ht).less
  obtain ⟨hkept, hlost⟩ := copies_begun (x := x) (w := w) rb hbegin hstarts
  rw [← copies_of_settled (x := x) hsettled, List.forall_mem_cons]
  refine ⟨?_, ?_, fun received hr => frames_of_call r hmem hbegins hr⟩
  · by_cases hL : Loses begin.source.nextCall x w begin.source begin.label
    · rw [hlost hL] at hle
      exact ⟨fun hone => by omega, fun hnone => absurd hL hnone.1⟩
    · rw [hkept hL] at hiff
      exact ⟨fun hone => ⟨hL, hiff.mp hone⟩, fun hnone => hiff.mpr hnone.2⟩
  · by_cases hL : Loses begin.source.nextCall x w begin.source begin.label
    · rw [hlost hL] at hle
      omega
    · rwa [hkept hL] at hle

end EveryRun

section TwoWorkers

/-- In this run user 1 is sent a message, with Redis up and every listener subscribed, while
the socket stays connected, and in the end nothing of it is left under way. -/
structure Case (x : Socket) (w : Bool) (before : List (HubTransition Bool))
    (begin : HubTransition Bool) (after : List (HubTransition Bool)) (s : Hub Bool)
    (call : Call Bool) : Prop where
  run : HubRun asciiEnv (Hub.start signedIn) (before ++ begin :: after) s
  starts : Starts begin.source begin.label call.worker call.recipient call.message
  live : ∀ t ∈ begin :: after, Live x w call.recipient.key t.source
  still : Live x w call.recipient.key s
  subscribed : ∀ t ∈ after, Subscribed begin.source.nextCall t.source t.label
  settled : Settled begin.source.nextCall w s

/-- The same as a check, with the message sent after `k` steps. -/
def isCase (k : Nat) (x : Socket) (w : Bool) (h : List (HubTransition Bool)) (s : Hub Bool) :
    Bool :=
  match h.drop k with
  | begin :: after =>
    let c := begin.source.nextCall
    (begin.source.calls c).isNone && (begin.target.calls c).any (fun call => call.recipient.key = 1)
      && (begin :: after).all (fun t => x ∈ t.source.connections w 1 && t.source.connected x)
      && x ∈ s.connections w 1 && s.connected x
      && after.all (fun t => match t.label with | .publish .. | .crash .. => false | _ => true)
      && (s.calls c).isNone && (s.listeners w).queue.isEmpty
      && match (s.listeners w).phase with | .sending .. => false | _ => true
  | [] => false

theorem exists_case (events : List (HubEvent Bool)) (k : Nat) (x : Socket) (w : Bool)
    (more : Hub Bool → Bool)
    (hc : (Runs.attempt (hubStep asciiEnv) (Hub.start signedIn) events).any
      (fun run => isCase k x w run.1 run.2 && more run.2) = true) :
    ∃ before begin after s call, Case x w before begin after s call ∧ more s = true := by
  obtain ⟨h, s, r, hcheck⟩ := Runs.exists_run _ _ _
    (fun h s => isCase k x w h s && more s) hc
  obtain ⟨hcase, hmore⟩ := Bool.and_eq_true_iff.mp hcheck
  unfold isCase at hcase
  split at hcase
  · rename_i begin after hdrop
    obtain ⟨before, rfl⟩ : ∃ before, h = before ++ begin :: after :=
      ⟨h.take k, by rw [← hdrop, List.take_append_drop]⟩
    simp only [Bool.and_eq_true, List.all_eq_true, decide_eq_true_eq, Option.isNone_iff_eq_none,
      Option.any_eq_true, List.isEmpty_iff] at hcase
    obtain ⟨⟨⟨⟨⟨⟨⟨⟨hnone, call, hcall, hkey⟩, hlive⟩, hmem⟩, hconnected⟩, hsub⟩, hgone⟩, hqueue⟩,
      hphase⟩ := hcase
    refine ⟨before, begin, after, s, call, ⟨r, ?_, ?_, ?_, ?_, ?_⟩, hmore⟩
    · exact starts_of_call r.split_at.2.1 hnone hcall
    · intro t ht
      rw [hkey]
      exact ⟨(hlive t ht).1, (hlive t ht).2⟩
    · rw [hkey]
      exact ⟨hmem, hconnected⟩
    · intro t ht
      have hlabel := hsub t ht
      constructor <;> intro y heq <;> rw [heq] at hlabel <;> cases hlabel
    · refine ⟨hgone, fun item hitem => ?_, fun item json remaining hsending => ?_⟩
      · rw [hqueue] at hitem
        cases hitem
      · rw [hsending] at hphase
        cases hphase
  · cases hcase

/-- A user sends herself a message. -/
def helloEvents : List (HubEvent Bool) :=
  [.handshake false TokenBinding.accessToken, .accept 0, .receive 0 helloText, .send 0 0 false]

/-- She does so with a second socket at the other worker. -/
def splitEvents : List (HubEvent Bool) :=
  [.handshake false TokenBinding.accessToken, .accept 0,
    .handshake true TokenBinding.accessToken, .accept 1, .subscribe false, .subscribe true,
    .receive 0 helloText, .send 0 0 false]

/-- She does so with three sockets at one worker, and the client of the first has gone. -/
def brokenEvents : List (HubEvent Bool) :=
  [.handshake false TokenBinding.accessToken, .accept 0,
    .handshake false TokenBinding.accessToken, .accept 1,
    .handshake false TokenBinding.accessToken, .accept 2, .subscribe false, .subscribe true,
    .hangUp 0, .receive 1 helloText, .send 0 0 true]

theorem delivered_once_iff_sample : ∃ before begin after s call,
    Case 0 false before begin after s call ∧
    (received begin.source.nextCall (s.inbox 0) = 1 ↔
      ∀ t ∈ begin :: after, ¬ Loses begin.source.nextCall 0 false t.source t.label) ∧
    received begin.source.nextCall (s.inbox 0) ≤ 1 ∧
    ∀ r ∈ s.inbox 0, r.call = some begin.source.nextCall → r.frame = call.message.toJson := by
  obtain ⟨before, begin, after, s, call, hcase, _⟩ := exists_case helloEvents 2 0 false
    (fun _ => true) (by decide +kernel)
  exact ⟨before, begin, after, s, call, hcase,
    delivered_once_iff hcase.run hcase.starts hcase.live hcase.subscribed hcase.settled⟩

/-- The second socket receives nothing, and in the other run the third. -/
theorem sockets_missed :
    (∃ before begin after s call, Case 1 true before begin after s call ∧
      received begin.source.nextCall (s.inbox 1) = 0) ∧
    ∃ before begin after s call, Case 2 false before begin after s call ∧
      received begin.source.nextCall (s.inbox 2) = 0 := by
  constructor
  · obtain ⟨before, begin, after, s, call, hcase, hinbox⟩ := exists_case splitEvents 6 1 true
      (fun s => (s.inbox 1).isEmpty) (by decide +kernel)
    exact ⟨before, begin, after, s, call, hcase, by rw [List.isEmpty_iff.mp hinbox]; rfl⟩
  · obtain ⟨before, begin, after, s, call, hcase, hinbox⟩ := exists_case brokenEvents 9 2 false
      (fun s => (s.inbox 2).isEmpty) (by decide +kernel)
    exact ⟨before, begin, after, s, call, hcase, by rw [List.isEmpty_iff.mp hinbox]; rfl⟩

end TwoWorkers

end FastApiAuth.Deliveries
