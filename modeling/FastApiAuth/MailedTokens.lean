import FastApiAuth.OAuthGates
import FastApiAuth.Provenance
import FastApiAuth.TokenStamps

/-!
# Who gets to see a token

Replies hand out access and refresh tokens; the tokens that verify an address or reset a
password leave the server in one mail each, to the address of the account they name. A
client that presents only what it was handed or has read in its mail can therefore verify
an account, or give it a new password, only out of a mail to that account.
-/

namespace FastApiAuth.MailedTokens

set_option autoImplicit false

open Database OAuthGates Provenance Runs
open RedisIsolation (PresentsToSpend)

def tokenType : MailKind → String
  | .verification => "email_verification"
  | .passwordReset => "password_reset"

/-- The queue has taken a mail for `user`, with a token that was signed for it. -/
structure Sends (s s' : Server) (mail : Mail) (user : User) : Prop where
  queued : s'.mails = s.mails ++ [mail]
  issued : s'.issued = s.issued ++ [⟨mail.token, user.id⟩]
  mem : user ∈ s'.db.users
  recipient : mail.recipient = user.email
  sub : mail.token.sub = PyInt.str user.id
  type : mail.token.type = tokenType mail.kind

/-- At most one mail is queued. -/
def SendsOne (s s' : Server) : Prop := s'.mails = s.mails ∨ ∃ mail user, Sends s s' mail user

/-- The mail is among those of the transition. -/
def Queues (t : ApiTransition) (mail : Mail) : Prop := t.target.mails = t.source.mails ++ [mail]

/-- The token has left the server, in a reply or in a mail. -/
def Disclosed (before : List ApiTransition) (token : Token) : Prop :=
  ∃ t ∈ before, token ∈ handedOut t.label.2 ∨ ∃ mail, Queues t mail ∧ mail.token = token

/-- No request spends a signed token that has not left the server. -/
def Unforged (h : List ApiTransition) : Prop :=
  Guarded (fun before t => ∀ token, PresentsToSpend t.label.1 token → token ∈ t.source.signed →
    Disclosed before token) h

/-- The token went to the address that the account had, in a mail that one transition queued;
no other one has queued a mail that carries it. -/
def SentTo (before : List ApiTransition) (kind : MailKind) (userId : Nat) (token : Token) : Prop :=
  ∃ earlier t, earlier ++ [t] <+: before ∧ ∃ user ∈ t.target.db.users, user.id = userId ∧
    Queues t ⟨kind, user.email, token⟩ ∧
    ∀ earlier' t' mail, earlier' ++ [t'] <+: before → Queues t' mail → mail.token = token →
      earlier' ++ [t'] = earlier ++ [t] ∧ mail = ⟨kind, user.email, token⟩

section Actions

variable {env : Env} {s s' : Server} {r : Request}

theorem registerUser_sendsOne (email : String) (password : NewPassword env) (broker : Bool)
    {redis : Redis Instant} :
    SendsOne s (registerUser env email password broker { s with redis }).2 := by
  apply registerUser_rule (P := fun o => SendsOne s o.2)
  · exact fun _ _ => Or.inl rfl
  intro user db _ hins
  obtain ⟨_, _, rfl⟩ := insertUser_some hins
  refine ⟨fun _ => Or.inl rfl, fun _ => Or.inr ⟨_, user, rfl, rfl, ?_, rfl, rfl, rfl⟩⟩
  exact List.mem_append_right _ (List.mem_singleton_self _)

theorem forgotPassword_sendsOne (email : String) (broker : Bool) {redis : Redis Instant} :
    SendsOne s (forgotPassword env email broker { s with redis }).2 := by
  apply forgotPassword_rule (P := fun o => SendsOne s o.2)
  · exact Or.inl rfl
  intro user huser _
  exact ⟨fun _ => Or.inl rfl,
    fun _ => Or.inr ⟨_, user, rfl, rfl, (userByEmail_some huser).1, rfl, rfl, rfl⟩⟩

theorem answerActive_mails (env : Env) (user : User) (s : Server) :
    (answerActive env user s).2.mails = s.mails :=
  answerActive_rule (P := fun o => o.2.mails = s.mails) (fun _ => rfl) fun _ => rfl

theorem callbackLink_mails (provider : String) (identity : Identity) (linkingUserId : Int) :
    (callbackLink env provider identity linkingUserId s).2.mails = s.mails :=
  callbackLink_rule (P := fun o => o.2.mails = s.mails) (fun _ _ => rfl) (fun _ _ _ _ _ => rfl)
    fun _ _ _ _ _ => rfl

theorem callbackLogin_mails (provider : String) (identity : Identity) :
    (callbackLogin env provider identity s).2.mails = s.mails :=
  callbackLogin_rule (P := fun o => o.2.mails = s.mails) (fun _ _ => rfl)
    (fun _ _ _ _ => answerActive_mails _ _ _) (fun _ _ _ _ _ _ _ => answerActive_mails _ _ _)
    fun _ _ _ _ _ _ _ _ _ => answerActive_mails _ _ _

/-- Requests that send nothing. -/
theorem handle_mails (hr : ∀ clientHost body broker, r ≠ .register clientHost body broker)
    (hf : ∀ clientHost body broker, r ≠ .forgotPassword clientHost body broker) :
    (handle env r s).2.mails = s.mails := by
  have refused : ∀ e : HttpException, e.Ordinary →
      ((.error e, s) : Outcome).2.mails = s.mails := fun _ _ => rfl
  cases r with
  | register => exact absurd rfl (hr _ _ _)
  | forgotPassword => exact absurd rfl (hf _ _ _)
  | login clientHost body =>
    apply login_rule (P := fun o => o.2.mails = s.mails)
    · exact fun _ _ _ _ _ => rfl
    intro email redis _ _
    exact loginUser_rule (P := fun o => o.2.mails = s.mails) (fun _ _ => rfl)
      (fun _ _ _ _ _ => rfl) fun _ _ _ _ _ _ _ => rfl
  | refresh token =>
    exact refreshAccessToken_rule (P := fun o => o.2.mails = s.mails) refused fun _ _ => rfl
  | logout credentials refreshToken =>
    exact logout_rule (P := fun o => o.2.mails = s.mails) refused (fun _ _ => rfl)
      fun _ _ _ _ _ _ => rfl
  | verifyEmail token =>
    exact verifyEmail_rule (P := fun o => o.2.mails = s.mails) refused rfl fun _ _ _ _ _ _ _ => rfl
  | resetPassword token text =>
    exact reset_rule (P := fun o => o.2.mails = s.mails) refused fun _ _ =>
      resetPassword_rule (P := fun o => o.2.mails = s.mails) refused fun _ _ _ _ _ => rfl
  | oauthLogin provider =>
    exact oauthLogin_rule (P := fun o => o.2.mails = s.mails) refused fun _ => rfl
  | oauthLink provider credentials =>
    exact oauthLink_rule (P := fun o => o.2.mails = s.mails) refused fun _ _ _ => rfl
  | oauthCallback provider state answer =>
    exact oauthCallback_rule (P := fun o => o.2.mails = s.mails) refused (fun _ _ _ _ => rfl)
      (fun _ _ _ _ _ _ _ => callbackLink_mails _ _ _) fun _ _ _ _ _ _ => callbackLogin_mails _ _
  | listLinkedAccounts credentials | readCurrentUser credentials =>
    exact withCurrentUser_rule (P := fun o => o.2.mails = s.mails) refused fun _ _ => rfl
  | unlinkProvider provider credentials =>
    exact unlinkProvider_rule (P := fun o => o.2.mails = s.mails) refused fun _ _ _ _ _ => rfl
  | updateCurrentUser credentials email =>
    exact updateCurrentUser_rule (P := fun o => o.2.mails = s.mails) refused (fun _ _ _ => rfl)
      fun _ _ _ _ _ _ _ _ => rfl
  | changeCurrentUserPassword credentials passwordData =>
    exact changeCurrentUserPassword_rule (P := fun o => o.2.mails = s.mails) refused
      (fun _ _ _ _ _ _ _ => rfl) fun _ _ _ _ _ _ _ => rfl
  | deactivateCurrentUser credentials =>
    exact deactivateCurrentUser_rule (P := fun o => o.2.mails = s.mails) refused fun _ _ => rfl
  | updateUserStatus credentials userId payload =>
    exact withPermissions_rule (P := fun o => o.2.mails = s.mails) refused fun _ _ =>
      updateUserStatus_rule (P := fun o => o.2.mails = s.mails) refused fun _ _ => rfl
  | adminDeactivateUser credentials userId =>
    exact withPermissions_rule (P := fun o => o.2.mails = s.mails) refused fun _ _ =>
      adminDeactivateUser_rule (P := fun o => o.2.mails = s.mails) refused fun _ _ => rfl
  | listRoles credentials =>
    exact withPermissions_rule (P := fun o => o.2.mails = s.mails) refused fun _ _ => rfl
  | assignRole credentials userId role pushed =>
    exact withPermissions_rule (P := fun o => o.2.mails = s.mails) refused fun _ _ =>
      assignRole_rule (P := fun o => o.2.mails = s.mails) refused (fun _ _ _ _ _ => rfl)
        fun _ _ _ _ _ => ⟨fun _ => rfl, fun _ => rfl⟩
  | revokeRole credentials userId roleName =>
    exact withPermissions_rule (P := fun o => o.2.mails = s.mails) refused fun _ _ =>
      revokeRole_rule (P := fun o => o.2.mails = s.mails) refused fun _ _ => rfl
  | websocket token =>
    exact websocketEndpoint_rule (P := fun o => o.2.mails = s.mails) refused fun _ _ => rfl

theorem handle_sendsOne (r : Request) : SendsOne s (handle env r s).2 := by
  cases r with
  | register clientHost body broker =>
    apply register_rule (P := fun o => SendsOne s o.2)
    · exact fun _ _ _ _ _ => Or.inl rfl
    · exact fun email password _ _ _ _ => registerUser_sendsOne email password broker
  | forgotPassword clientHost body broker =>
    apply forgot_rule (P := fun o => SendsOne s o.2)
    · exact fun _ _ _ _ _ => Or.inl rfl
    · exact fun email _ _ _ => forgotPassword_sendsOne email broker
  | _ => exact Or.inl (handle_mails (by simp) (by simp))

theorem step_sendsOne {l : Action × Reply} (h : Step env s l s') : SendsOne s s' := by
  obtain ⟨a, reply⟩ := l
  rw [show s' = (step env s a).2 from (congrArg Prod.snd h).symm]
  cases a with
  | cleanup => exact Or.inl rfl
  | wait until_ => exact Or.inl rfl
  | grantBySql userId roleName =>
    exact grantBySql_rule (P := SendsOne s) (Or.inl rfl) fun _ _ _ _ => Or.inl rfl
  | request r => exact handle_sendsOne r

/-- Every token in the reply is one for a session. -/
def HandsSessions (o : Outcome) : Prop :=
  ∀ token ∈ handedOut o.1, token.type = "access" ∨ token.type = "refresh"

theorem handsSessions_of_silent {o : Outcome} (h : handedOut o.1 = []) : HandsSessions o := by
  intro token htoken
  rw [h] at htoken
  cases htoken

theorem answerWithTokens_hands (user : User) : HandsSessions (s.answerWithTokens env user) := by
  obtain ⟨_, _, hreply, _, _, _, _, haccess, _, hrefresh⟩ := answerWithTokens_spec env user s
  unfold HandsSessions
  rw [hreply]
  simp [handedOut, Body.handedOut, haccess, hrefresh]

theorem handsSessions_refused (e : HttpException) (_ : e.Ordinary) :
    HandsSessions (.error e, s) :=
  handsSessions_of_silent rfl

theorem answerActive_hands (user : User) : HandsSessions (answerActive env user s) :=
  answerActive_rule (fun _ => handsSessions_of_silent rfl) fun _ => answerWithTokens_hands user

theorem callbackLink_hands (provider : String) (identity : Identity) (linkingUserId : Int) :
    HandsSessions (callbackLink env provider identity linkingUserId s) :=
  callbackLink_rule handsSessions_refused (fun _ user _ _ _ => answerWithTokens_hands user)
    fun user _ _ _ _ => answerWithTokens_hands user

theorem callbackLogin_hands (provider : String) (identity : Identity) :
    HandsSessions (callbackLogin env provider identity s) :=
  callbackLogin_rule handsSessions_refused (fun _ user _ _ => answerActive_hands user)
    (fun _ user _ _ _ _ _ => answerActive_hands user)
    fun _ user _ _ _ _ _ _ _ => answerActive_hands user

theorem loginUser_hands (email : String) (password : PyStr) :
    HandsSessions (loginUser env email password s) :=
  loginUser_rule handsSessions_refused (fun _ _ _ _ _ => handsSessions_of_silent rfl)
    fun user _ _ _ _ _ _ => answerWithTokens_hands user

theorem refreshAccessToken_hands (refreshToken : Token) :
    HandsSessions (refreshAccessToken env refreshToken s) := by
  apply refreshAccessToken_rule handsSessions_refused
  intro user _ token htoken
  rw [List.mem_singleton.mp htoken]
  exact Or.inl rfl

theorem oauthCallback_hands (provider state : String) (answer : Option Identity) :
    HandsSessions (oauthCallback env provider state answer s) :=
  oauthCallback_rule handsSessions_refused (fun _ _ _ _ => handsSessions_of_silent rfl)
    (fun _ identity userId _ _ _ _ => callbackLink_hands provider identity userId)
    fun _ identity _ _ _ _ => callbackLogin_hands provider identity

theorem handle_hands (r : Request) : HandsSessions (handle env r s) := by
  by_cases hr : IssuesTokens r
  · cases r with
    | login clientHost body =>
      exact login_rule (fun _ _ _ _ _ => handsSessions_of_silent rfl)
        fun email _ _ _ => loginUser_hands email body.password
    | refresh refreshToken => exact refreshAccessToken_hands refreshToken
    | oauthCallback provider state answer => exact oauthCallback_hands provider state answer
    | _ => exact hr.elim
  · exact handsSessions_of_silent (handle_silent hr)

theorem step_hands {l : Action × Reply} (h : Step env s l s') :
    ∀ token ∈ handedOut l.2, token.type = "access" ∨ token.type = "refresh" := by
  obtain ⟨a, reply⟩ := l
  have hreply : reply = (step env s a).1 := (congrArg Prod.fst h).symm
  cases a with
  | request r =>
    rw [hreply]
    exact handle_hands r
  | cleanup | wait _ | grantBySql _ _ =>
    rw [hreply]
    exact handsSessions_of_silent (o := (.ok .noContent, s)) rfl

end Actions

section Runs

variable {env : Env} {s₀ s s' : Server} {h : List ApiTransition} {t t' : ApiTransition}
variable {mail mail' : Mail} {token : Token} {kind : MailKind} {userId : Nat}

theorem tokenType_not_session : ¬ (tokenType kind = "access" ∨ tokenType kind = "refresh") := by
  cases kind with
  | verification => decide
  | passwordReset => decide

theorem tokenType_injective {kind' : MailKind} (h : tokenType kind = tokenType kind') :
    kind = kind' := by
  cases kind with
  | verification =>
    cases kind' with
    | verification => rfl
    | passwordReset => exact absurd h (by decide)
  | passwordReset =>
    cases kind' with
    | verification => exact absurd h (by decide)
    | passwordReset => rfl

theorem sends_of_queues {l : Action × Reply} (hstep : Step env s l s')
    (hqueued : s'.mails = s.mails ++ [mail]) : ∃ user, Sends s s' mail user := by
  rcases step_sendsOne hstep with hsame | ⟨mail', user, hsends⟩
  · rw [hsame] at hqueued
    have hlength := congrArg List.length hqueued
    simp at hlength
  · have hboth := hsends.queued.symm.trans hqueued
    obtain ⟨_, hmail⟩ := List.append_inj' hboth rfl
    cases hmail
    exact ⟨user, hsends⟩

/-- The token of a mail is signed for it, not before. -/
theorem Sends.fresh {l : Action × Reply} {user : User} (huuid : Function.Injective env.uuid4)
    (h₀ : Initial s₀) (r : ApiRun env s₀ h s) (hstep : Step env s l s')
    (hsends : Sends s s' mail user) : mail.token ∉ s.signed ∧ mail.token ∈ s'.signed := by
  have hnodup := TokenStamps.run_jtis huuid h₀ (r.snoc hstep)
  rw [hsends.issued, List.map_append, List.nodup_append] at hnodup
  constructor
  · intro hold
    obtain ⟨i, hi, htoken⟩ := List.mem_map.mp hold
    apply hnodup.2.2 i.token.jti (List.mem_map_of_mem hi) mail.token.jti (by simp)
    rw [htoken]
  · unfold Server.signed
    rw [hsends.issued]
    simp

theorem signed_later (r : ApiRun env s₀ h s) (ht : t ∈ h) (hsigned : token ∈ t.target.signed) :
    token ∈ s.signed := by
  obtain ⟨i, hi, rfl⟩ := List.mem_map.mp hsigned
  exact List.mem_map_of_mem (r.issued_of_mem ht hi)

theorem not_mailed_before (huuid : Function.Injective env.uuid4) (h₀ : Initial s₀)
    (r : ApiRun env s₀ h s) {l : Action × Reply} (hstep : Step env s l s')
    (hqueued : s'.mails = s.mails ++ [mail']) (ht : t ∈ h) (hq : Queues t mail) :
    mail.token ≠ mail'.token := by
  intro hsame
  obtain ⟨_, hnow⟩ := sends_of_queues hstep hqueued
  obtain ⟨_, _, rb, hstep'⟩ := r.step_of_mem ht
  obtain ⟨_, hthen⟩ := sends_of_queues hstep' hq
  have hsigned := signed_later r ht (hthen.fresh huuid h₀ rb hstep').2
  rw [hsame] at hsigned
  exact (hnow.fresh huuid h₀ r hstep).1 hsigned

/-- No token is mailed twice. -/
theorem mailed_once (huuid : Function.Injective env.uuid4) (h₀ : Initial s₀)
    (r : ApiRun env s₀ h s) {before before' : List ApiTransition} (hp : before ++ [t] <+: h)
    (hp' : before' ++ [t'] <+: h) (hq : Queues t mail) (hq' : Queues t' mail')
    (hsame : mail.token = mail'.token) : before ++ [t] = before' ++ [t'] := by
  have later : ∀ {b b' : List ApiTransition} {u u' : ApiTransition} {m m' : Mail},
      b ++ [u] <+: h → b' ++ [u'] <+: h → Queues u m → Queues u' m' → m.token = m'.token →
      b'.length ≤ b.length := by
    intro b b' u u' m m' hb hb' hu hu' htokens
    by_contra hshort
    have hin : b ++ [u] <+: b' := List.prefix_of_prefix_length_le hb
      ((List.prefix_append b' [u']).trans hb') (by simp; omega)
    obtain ⟨rb, hstep⟩ := r.of_prefix_snoc hb'
    exact not_mailed_before huuid h₀ rb hstep hu' (hin.subset (by simp)) hu htokens
  have hle := later hp hp' hq hq' hsame
  have hge := later hp' hp hq' hq hsame.symm
  have hlength : (before ++ [t]).length = (before' ++ [t']).length := by
    simp
    omega
  exact (List.prefix_of_prefix_length_le hp hp' hlength.le).eq_of_length hlength

/-- A token for mails that has left the server has gone to the address of its account. -/
theorem disclosed_by_mail (kind : MailKind) (huuid : Function.Injective env.uuid4) (h₀ : Initial s₀)
    (r : ApiRun env s₀ h s) (hissued : ⟨token, userId⟩ ∈ s.issued)
    (htype : token.type = tokenType kind) (hd : Disclosed h token) :
    SentTo h kind userId token := by
  obtain ⟨t, ht, hdisclosed⟩ := hd
  obtain ⟨earlier, hp, rb, hstep⟩ := r.step_of_mem ht
  rcases hdisclosed with hhanded | ⟨mail, hq, rfl⟩
  · have hsession := step_hands hstep token hhanded
    rw [htype] at hsession
    exact absurd hsession tokenType_not_session
  obtain ⟨user, hsends⟩ := sends_of_queues hstep hq
  have howner : (⟨mail.token, user.id⟩ : Issued) ∈ t.target.issued := by
    rw [hsends.issued]
    simp
  have hone := List.inj_on_of_nodup_map (TokenStamps.run_jtis huuid h₀ r)
    (r.issued_of_mem ht howner) hissued rfl
  have hid : user.id = userId := congrArg Issued.owner hone
  have hkind : mail.kind = kind := tokenType_injective (hsends.type.symm.trans htype)
  have hmail : mail = ⟨kind, user.email, mail.token⟩ := by
    rw [← hkind, ← hsends.recipient]
  refine ⟨earlier, t, hp, user, hsends.mem, hid, hmail ▸ hq, ?_⟩
  intro earlier' t' mail' hp' hq' htoken
  have hsame := mailed_once huuid h₀ r hp' hp hq' hq htoken
  obtain ⟨_, hlast⟩ := List.append_inj' hsame rfl
  cases hlast
  obtain ⟨_, hmails⟩ := List.append_inj' (hq'.symm.trans hq) rfl
  cases hmails
  exact ⟨hsame, hmail⟩

theorem issued_of_signedBy {before : List ApiTransition} (r : ApiRun env s₀ before s)
    (ht : t ∈ before) (hmints : Mints t ⟨token, userId⟩) : ⟨token, userId⟩ ∈ s.issued := by
  obtain ⟨new, hnew, hin⟩ := hmints
  apply r.issued_of_mem ht
  rw [hnew]
  exact List.mem_append_right _ hin

end Runs

/-- In every run in which no client spends a token before it has left the server: replies
hand out session tokens only; whoever verifies an account by mail, or gives it a new
password by a reset token, presents the token of the one mail that went to the address
the account had then. -/
theorem mail_proves_the_address (env : Env) (huuid : Function.Injective env.uuid4)
    {s₀ s : Server} {h : List ApiTransition} (h₀ : Initial s₀) (r : ApiRun env s₀ h s)
    (hunforged : Unforged h) :
    (∀ t ∈ h, ∀ token ∈ handedOut t.label.2, token.type = "access" ∨ token.type = "refresh") ∧
    ∀ before t, before ++ [t] <+: h → ∀ u ∈ t.source.db.users, ∀ u' ∈ t.target.db.users,
      u'.id = u.id →
      (∀ token, t.label.1 = .request (.verifyEmail token) → u.isVerified = false →
        u'.isVerified = true → SentTo before .verification u.id token) ∧
      ∀ token text, t.label.1 = .request (.resetPassword token text) →
        u'.hashedPassword ≠ u.hashedPassword → SentTo before .passwordReset u.id token := by
  constructor
  · intro t ht
    obtain ⟨_, _, _, hstep⟩ := r.step_of_mem ht
    exact step_hands hstep
  intro before t hp u hu u' hu' hid
  obtain ⟨rb, hstep⟩ := r.of_prefix_snoc hp
  have hc := ApiRun.consistent h₀.consistent rb
  constructor
  · intro token hlabel hunverified hverified
    have hwarrant := verification_warranted hc h₀.issued rb hstep hu hu' hid hunverified hverified
    rw [hlabel] at hwarrant
    cases hwarrant with
    | verifyEmail htype _ hsigned =>
      obtain ⟨t₁, ht₁, hmints, _⟩ := hsigned
      have hissued := issued_of_signedBy rb ht₁ hmints
      apply disclosed_by_mail .verification huuid h₀ rb hissued htype
      apply hunforged before t hp token _ (List.mem_map_of_mem hissued)
      rw [hlabel]
      rfl
  · intro token text hlabel hchanged
    obtain ⟨text', _, _, hwarrant⟩ :=
      password_change_warranted hc h₀.issued rb hstep hu hu' hid hchanged
    rw [hlabel] at hwarrant
    cases hwarrant with
    | reset htype _ hsigned =>
      obtain ⟨t₁, ht₁, hmints, _⟩ := hsigned
      have hissued := issued_of_signedBy rb ht₁ hmints
      apply disclosed_by_mail .passwordReset huuid h₀ rb hissued htype
      apply hunforged before t hp token _ (List.mem_map_of_mem hissued)
      rw [hlabel]
      rfl

/-- The reset that follows the mail to a new account. -/
def mailedReset : ApiTransition :=
  ⟨sampleServer, (sampleReset, (step asciiEnv sampleServer sampleReset).1),
    (step asciiEnv sampleServer sampleReset).2⟩

theorem mailedReset_unforged : Unforged (sampleHistory ++ [mailedReset]) := by
  unfold Unforged
  rw [guarded_snoc_iff]
  constructor
  · intro before t hp token hpresents _
    have hmem : t ∈ sampleHistory := hp.subset (by simp)
    have hlabel : t.label.1 ∈ sampleHistory.map fun t => t.label.1 := List.mem_map_of_mem hmem
    rw [sampleHistory, map_trace] at hlabel
    rcases List.mem_pair.mp hlabel with heq | heq
    · rw [heq] at hpresents
      exact hpresents.elim
    · rw [heq] at hpresents
      exact hpresents.elim
  · intro token hpresents _
    obtain rfl : token = sampleToken := hpresents
    -- the second transition is the one that has queued the mail
    refine ⟨sampleHistory.get ⟨1, by decide⟩, List.get_mem _ _, Or.inr ?_⟩
    refine ⟨⟨.passwordReset, "a@example.com", sampleToken⟩, ?_, rfl⟩
    unfold Queues
    decide +kernel

theorem mail_proves_the_address_sample : SentTo sampleHistory .passwordReset 1 sampleToken := by
  have r : ApiRun asciiEnv (freshServer 0) (sampleHistory ++ [mailedReset]) mailedReset.target :=
    (run_trace (step asciiEnv) (freshServer 0) _).append
      (run_trace (step asciiEnv) sampleServer [sampleReset])
  exact ((mail_proves_the_address asciiEnv TokenStamps.asciiEnv_uuid4_injective
    (freshServer_initial 0) r mailedReset_unforged).2 sampleHistory mailedReset
    (List.prefix_refl _) ⟨1, "a@example.com", some "Passw0rd$0", true, false, 0⟩
    (by decide +kernel) ⟨1, "a@example.com", some "NewPassw0rd$3", true, false, 0⟩
    (by decide +kernel) rfl).2 sampleToken "NewPassw0rd" rfl (by decide)

end FastApiAuth.MailedTokens
