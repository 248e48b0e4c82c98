import FastApiAuth.Causes
import FastApiAuth.RedisIsolation

/-!
# How long a socket stays authorized

The handshake checks the token and the user; the endpoint never looks at them again. In
between only a logout, a deactivation, a deletion or the expiry can end what was checked,
and none of them ends the socket.
-/

namespace FastApiAuth.SocketAuthorization

set_option autoImplicit false

open PyJson RedisIsolation

universe u

/-- The user exists and is active, and the token is unexpired and not blacklisted. -/
structure Authorized (s : Server) (userId : Int) (token : Token) : Prop where
  user : ∃ u ∈ s.db.users, (u.id : Int) = userId ∧ u.isActive = true
  unexpired : (s.decodeAccessToken token).isSome = true
  notBlacklisted : isTokenBlacklisted s.redis s.now token.jti = false

/-- What ends it. -/
inductive Ends (s' : Server) (userId : Int) (token : Token) : Action → Prop where
  | loggedOut {a : Action} {token' : Token} : PresentsToLogout a token' →
      token'.jti = token.jti → Ends s' userId token a
  | deactivated {a : Action} {u : User} : u ∈ s'.db.users → (u.id : Int) = userId →
      u.isActive = false → Ends s' userId token a
  | deleted {a : Action} : (∀ u ∈ s'.db.users, (u.id : Int) ≠ userId) → Ends s' userId token a
  | expired {a : Action} : ¬ Unexpired s'.now token → Ends s' userId token a

section Steps

variable {env : Env} {s s' : Server} {l : Action × Reply} {userId : Int} {token : Token}
variable {user : User}

/-- The handshake lets no one else in. -/
theorem authorized_of_handshake (h : getCurrentUserWs s token = some user) :
    Authorized s user.id token := by
  obtain ⟨claims, hclaims, hblacklist, huser, hactive⟩ :=
    getCurrentUser_ok (getCurrentUserWs_some h)
  obtain ⟨_, _, _, rfl⟩ := decodeToken_eq_some_iff.mp hclaims
  exact ⟨⟨user, (Database.userByEmail_some huser).1, rfl, hactive⟩,
    Option.isSome_iff_exists.mpr ⟨_, hclaims⟩, hblacklist⟩

/-- A record that was not there, or had run out, is there again only when it is written. -/
theorem entry_changed {key : String} (hnow : s.now ≤ s'.now)
    (hbefore : s.redis.contains s.now key = false) (hafter : s'.redis.contains s'.now key = true) :
    s'.redis.entry key ≠ s.redis.entry key := by
  intro heq
  obtain ⟨e, he, hlive⟩ := ExpiringStore.contains_iff.mp hafter
  rw [heq] at he
  have hthere : s.redis.contains s.now key = true :=
    ExpiringStore.contains_iff.mpr ⟨e, he, fun d hd => lt_of_le_of_lt hnow (hlive d hd)⟩
  rw [hthere] at hbefore
  cases hbefore

/-- One action leaves the authorization as it was, or ends it in one of the four ways. -/
theorem step_authorized (hstep : Step env s l s') (h : Authorized s userId token) :
    Authorized s' userId token ∨ Ends s' userId token l.1 := by
  by_cases huser : ∃ u ∈ s'.db.users, (u.id : Int) = userId
  case neg =>
    exact .inr (.deleted fun u hu hid => huser ⟨u, hu, hid⟩)
  obtain ⟨u, hu, hid⟩ := huser
  by_cases hactive : u.isActive = true
  case neg => exact .inr (.deactivated hu hid (by simpa using hactive))
  by_cases hunexpired : Unexpired s'.now token
  case neg => exact .inr (.expired hunexpired)
  have hdecode : (s'.decodeAccessToken token).isSome = true := by
    obtain ⟨claims, hclaims⟩ := Option.isSome_iff_exists.mp h.unexpired
    obtain ⟨hmem, _, htype, _⟩ := decodeToken_eq_some_iff.mp hclaims
    exact Option.isSome_iff_exists.mpr ⟨_, decodeToken_eq_some_iff.mpr
      ⟨RedisKeys.mem_signed_step hstep hmem, hunexpired, htype, rfl⟩⟩
  cases hblacklist : isTokenBlacklisted s'.redis s'.now token.jti with
  | false => exact .inl ⟨⟨u, hu, hid, hactive⟩, hdecode, hblacklist⟩
  | true =>
    have hchanged := entry_changed (step_effect hstep).now h.notBlacklisted hblacklist
    obtain ⟨token', _, hpresents, hjti⟩ := (blacklist_step hstep token.jti).1 hchanged
    exact .inr (.loggedOut hpresents hjti)

end Steps

/-- The transition handles the request, or the passing of time, that ends it. -/
def EndsAt {ι : Type u} (userId : Int) (token : Token) (t : HubTransition ι) : Prop :=
  ∃ w a, t.label = .act w a ∧ Authorized t.source.server userId token ∧
    Ends t.target.server userId token a

section Runs

variable {env : Env} {ι : Type u} [DecidableEq ι] {s s' : Hub ι} {event : HubEvent ι}
variable {h : List (HubTransition ι)} {userId : Int} {token : Token} {x : Socket}
variable {text : List Char} {w : ι} {recipient : Recipient} {body : PyStr} {server : Server}

theorem hub_authorized (hstep : HubStep env s event s')
    (hs : Authorized s.server userId token) :
    Authorized s'.server userId token ∨ EndsAt userId token ⟨s, event, s'⟩ := by
  have hserver := (hub_move hstep).server
  cases event with
  | act w a =>
    have haction : Step env s.server (a, (step env s.server a).1) s'.server := by
      rw [hserver]
      rfl
    exact (step_authorized haction hs).imp_right fun hends => ⟨w, a, rfl, hs, hends⟩
  | handshake | accept | receive | hangUp | close | send | publish | subscribe | listen | forward
  | crash => exact .inl (hserver ▸ hs)

theorem run_authorized (r : HubRun env s h s') (hs : Authorized s.server userId token) :
    Authorized s'.server userId token ∨ ∃ t ∈ h, EndsAt userId token t := by
  refine r.holds_until (P := fun s => Authorized s.server userId token) ?_ hs
  intro t ht hsource
  obtain ⟨_, _, _, hstep⟩ := r.step_of_mem ht
  exact hub_authorized hstep hsource

theorem receiveFrame_server (server : Server) (e : Endpoint ι) :
    receiveFrame { s with server } x e text = { receiveFrame s x e text with server } := by
  unfold receiveFrame
  cases loads text with
  | none => rfl
  | some data =>
    dsimp only
    cases readFrame data with
    | error detail =>
      unfold Hub.deliver
      dsimp only
      split <;> rfl
    | ok sent =>
      unfold Hub.setPhase
      dsimp only
      split <;> rfl

/-- What the endpoint makes of a frame does not depend on the tables, Redis or the clock. -/
theorem receive_any_server (server : Server) (hstep : HubStep env s (.receive x text) s') :
    HubStep env { s with server } (.receive x text) { s' with server } := by
  unfold HubStep hubStep at hstep ⊢
  dsimp only at hstep ⊢
  split at hstep
  · split at hstep
    · rename_i hphase
      cases hstep
      rw [if_pos hphase, receiveFrame_server]
    · cases hstep
  · cases hstep

/-- Whenever a frame of user `i` is relayed, the handshake of its socket has found `i`
authorized. It is not checked again: if it no longer holds, then a logout, a deactivation, a
deletion or the expiry has come while the socket was open. -/
theorem relays_authorized_once (r : HubRun env (Hub.start server) h s)
    (hstep : HubStep env s (.receive x text) s')
    (hrelay : Starts s (.receive x text) w recipient (privateMessage userId body)) :
    ∃ before opening after token, h = before ++ opening :: after ∧
      opening.label = .handshake w token ∧ opening.source.nextSocket = x ∧
      Authorized opening.source.server userId token ∧
      (Authorized s.server userId token ∨ ∃ t ∈ after, EndsAt userId token t) ∧
      ∀ server, HubStep env { s with server } (.receive x text) { s' with server } := by
  generalize hmessage : privateMessage userId body = message at hrelay
  cases hrelay with
  | @relayed _ e _ _ _ body' he =>
    obtain rfl : userId = e.userId := by
      simp only [privateMessage, List.cons.injEq, Prod.mk.injEq, Scalar.int.injEq, true_and]
        at hmessage
      exact hmessage.1
    obtain ⟨opening, hopening, hlabel, hx, user, huser, hid⟩ :=
      (run_traced r).opened x _ _ _ (opening_of_endpoint he)
    obtain ⟨before, after, rfl⟩ := List.append_of_mem hopening
    obtain ⟨_, hopens, ra⟩ := r.split_at
    have hauthorized : Authorized opening.source.server e.userId e.token :=
      hid ▸ authorized_of_handshake huser
    have hserver : opening.target.server = opening.source.server := by
      rw [(hub_move hopens).server, hlabel]
      rfl
    exact ⟨before, opening, after, e.token, rfl, hlabel, hx, hauthorized,
      run_authorized ra (hserver ▸ hauthorized), fun server => receive_any_server server hstep⟩

end Runs

section LoggedOut

def connectEvents : List (HubEvent Unit) :=
  [.handshake () TokenBinding.accessToken, .accept 0]

def logoutEvents : List (HubEvent Unit) :=
  connectEvents ++ [.act () (.request (.logout TokenBinding.accessToken none))]

/-- After these events user 1 has a socket, and a frame on it is relayed. -/
def isRelay (s : Hub Unit) : Bool :=
  (s.calls 0).isNone && s.opening 0 = some ((), 1, TokenBinding.accessToken) &&
    (hubStep asciiEnv s (.receive 0 helloText)).any fun s' => (s'.calls 0).isSome

theorem exists_relay (events : List (HubEvent Unit)) (more : Hub Unit → Bool)
    (hc : (Runs.attempt (hubStep asciiEnv) (Hub.start signedIn) events).any
      (fun run => isRelay run.2 && more run.2) = true) :
    ∃ h s s' recipient body, HubRun asciiEnv (Hub.start signedIn) h s ∧
      HubStep asciiEnv s (.receive 0 helloText) s' ∧
      Starts s (.receive 0 helloText) () recipient (privateMessage 1 body) ∧
      s.opening 0 = some ((), 1, TokenBinding.accessToken) ∧ more s = true := by
  obtain ⟨h, s, r, hcheck⟩ := Runs.exists_run _ _ _ (fun _ s => isRelay s && more s) hc
  simp only [isRelay, Bool.and_eq_true, Option.isNone_iff_eq_none, decide_eq_true_eq,
    Option.any_eq_true, Option.isSome_iff_exists] at hcheck
  obtain ⟨⟨⟨hnone, ho⟩, s', hstep, call, hcall⟩, hmore⟩ := hcheck
  have hstarts := starts_of_call hstep hnone hcall
  generalize call.worker = w, call.recipient = recipient, call.message = message at hstarts
  cases hstarts with
  | @relayed _ e _ _ _ body he hphase hdata hread =>
    have huser : e.userId = 1 := by
      rw [opening_of_endpoint he] at ho
      exact (Prod.mk.inj (Prod.mk.inj (Option.some.inj ho)).2).1
    exact ⟨h, s, s', recipient, body, r, hstep, huser ▸ .relayed he hphase hdata hread, ho, hmore⟩

theorem relays_authorized_once_sample :
    ∃ (h : List (HubTransition Unit)) (s s' : Hub Unit),
      HubRun asciiEnv (Hub.start signedIn) h s ∧
      HubStep asciiEnv s (.receive 0 helloText) s' ∧
      ∃ before opening after token, h = before ++ opening :: after ∧
        opening.label = .handshake () token ∧ opening.source.nextSocket = 0 ∧
        Authorized opening.source.server 1 token ∧
        (Authorized s.server 1 token ∨ ∃ t ∈ after, EndsAt 1 token t) ∧
        ∀ server, HubStep asciiEnv { s with server } (.receive 0 helloText) { s' with server } := by
  obtain ⟨h, s, s', recipient, body, r, hstep, hstarts, _⟩ :=
    exists_relay connectEvents (fun _ => true) (by decide +kernel)
  exact ⟨h, s, s', r, hstep, relays_authorized_once r hstep hstarts⟩

/-- A frame is relayed although its socket's token has been revoked. -/
theorem relayed_after_logout :
    ∃ (h : List (HubTransition Unit)) (s s' : Hub Unit) (recipient : Recipient) (body : PyStr),
      HubRun asciiEnv (Hub.start signedIn) h s ∧
      HubStep asciiEnv s (.receive 0 helloText) s' ∧
      Starts s (.receive 0 helloText) () recipient (privateMessage 1 body) ∧
      s.opening 0 = some ((), 1, TokenBinding.accessToken) ∧
      ¬ Authorized s.server 1 TokenBinding.accessToken := by
  obtain ⟨h, s, s', recipient, body, r, hstep, hstarts, ho, hrevoked⟩ :=
    exists_relay logoutEvents (fun s => isTokenBlacklisted s.server.redis s.server.now
      TokenBinding.accessToken.jti) (by decide +kernel)
  refine ⟨h, s, s', recipient, body, r, hstep, hstarts, ho, fun hauthorized => ?_⟩
  rw [hauthorized.notBlacklisted] at hrevoked
  cases hrevoked

end LoggedOut

end FastApiAuth.SocketAuthorization
