import FastApiAuth.Api

/-!
# The four families of tokens, as texts

The server keeps a token as the payload it carries. Here a token is a text, and encode and
decode of the JWT library are parameters. create_token and decode_token are translated with
every check they make on what comes back, and with the end of the calendar: a datetime lies in
the years 1 to 9999. The server's tokens are one instance of them.
-/

namespace FastApiAuth.TokenFamilies

set_option autoImplicit false

/-- The payload that create_token builds. -/
structure Payload (τ : Type) where
  sub : String
  type : String
  jti : String
  iat : τ
  exp : τ

/-- What decode_token tells apart in a decoded payload; a boolean counts as a number. -/
inductive JsonValue (τ : Type) where
  | text (text : String)
  | number (seconds : τ)
  | other
  deriving DecidableEq

/-- `jwt.encode(payload, key, algorithm)` and `jwt.decode(token, key, algorithms)` at an
instant; `none` is a JWTError. -/
structure Jose (τ Text : Type) where
  encode : Payload τ → String → String → Text
  decode : Text → String → List String → τ → Option (List (String × JsonValue τ))

def algorithm : String := "HS256"

/-- What `datetime` raises beyond its years, an OverflowError or a ValueError. -/
inductive DateError where
  | outOfRange
  deriving DecidableEq

/-- The first second of year 1 and the last of year 9999. -/
def firstSecond : Int := -62135596800

def lastSecond : Int := 253402300799

section Calendar

variable {τ : Type} [Ring τ] [LinearOrder τ] [FloorRing τ]

def Representable (instant : τ) : Prop := firstSecond ≤ ⌊instant⌋ ∧ ⌊instant⌋ ≤ lastSecond

instance (instant : τ) : Decidable (Representable instant) :=
  inferInstanceAs (Decidable (firstSecond ≤ ⌊instant⌋ ∧ ⌊instant⌋ ≤ lastSecond))

/-- `now + timedelta(seconds=expires_delta)` -/
def addDelta (now : τ) (expiresDelta : Int) : Except DateError τ :=
  if Representable (now + (expiresDelta : τ)) then .ok (now + expiresDelta)
  else .error .outOfRange

/-- `datetime.fromtimestamp(seconds, tz=timezone.utc)` -/
def fromTimestamp (seconds : τ) : Except DateError τ :=
  if Representable seconds then .ok seconds else .error .outOfRange

end Calendar

section Create

variable {τ Text : Type} [Ring τ] [LinearOrder τ] [FloorRing τ]
variable (jose : Jose τ Text) (secretKey : String) (env : Env)

def createToken (now : τ) (uuid4 subject tokenType : String) (expiresDelta : Int) :
    Except DateError Text := do
  let exp ← addDelta now expiresDelta
  return jose.encode { sub := subject, type := tokenType, jti := uuid4, iat := now, exp }
    secretKey algorithm

def createAccessToken (now : τ) (uuid4 subject : String) : Except DateError Text :=
  createToken jose secretKey now uuid4 subject "access" (env.accessTokenExpireMinutes * 60)

def createRefreshToken (now : τ) (uuid4 subject : String) : Except DateError Text :=
  createToken jose secretKey now uuid4 subject "refresh"
    (env.refreshTokenExpireDays * (24 * 60 * 60))

def createEmailVerificationToken (now : τ) (uuid4 subject : String) : Except DateError Text :=
  createToken jose secretKey now uuid4 subject "email_verification" (30 * 60)

def createPasswordResetToken (now : τ) (uuid4 subject : String) : Except DateError Text :=
  createToken jose secretKey now uuid4 subject "password_reset" (15 * 60)

end Create

section Decode

variable {τ Text : Type} [Ring τ] [LinearOrder τ] [FloorRing τ]
variable (jose : Jose τ Text) (secretKey : String)

def decodeToken (now : τ) (token : Text) (expectedType : String) :
    Except DateError (Option (TokenClaims τ)) :=
  match jose.decode token secretKey [algorithm] now with
  | none => .ok none
  | some payload =>
    match payload.lookup "sub", payload.lookup "jti" with
    | some (.text subject), some (.text jti) =>
      if payload.lookup "type" ≠ some (.text expectedType) then .ok none
      else
        match payload.lookup "exp" with
        | some (.number exp) => (fromTimestamp exp).map fun instant => some ⟨subject, jti, instant⟩
        | _ => .ok none
    | _, _ => .ok none

def decodeAccessToken (now : τ) (token : Text) : Except DateError (Option (TokenClaims τ)) :=
  decodeToken jose secretKey now token "access"

def decodeRefreshToken (now : τ) (token : Text) : Except DateError (Option (TokenClaims τ)) :=
  decodeToken jose secretKey now token "refresh"

def decodeEmailVerificationToken (now : τ) (token : Text) :
    Except DateError (Option (TokenClaims τ)) :=
  decodeToken jose secretKey now token "email_verification"

def decodePasswordResetToken (now : τ) (token : Text) :
    Except DateError (Option (TokenClaims τ)) :=
  decodeToken jose secretKey now token "password_reset"

end Decode

inductive TokenFamily where
  | access
  | refresh
  | emailVerification
  | passwordReset
  deriving DecidableEq

namespace TokenFamily

variable {τ Text : Type} [Ring τ] [LinearOrder τ] [FloorRing τ]
variable (jose : Jose τ Text) (secretKey : String) (env : Env)

def create : TokenFamily → τ → String → String → Except DateError Text
  | access => createAccessToken jose secretKey env
  | refresh => createRefreshToken jose secretKey env
  | emailVerification => createEmailVerificationToken jose secretKey
  | passwordReset => createPasswordResetToken jose secretKey

def decode : TokenFamily → τ → Text → Except DateError (Option (TokenClaims τ))
  | access => decodeAccessToken jose secretKey
  | refresh => decodeRefreshToken jose secretKey
  | emailVerification => decodeEmailVerificationToken jose secretKey
  | passwordReset => decodePasswordResetToken jose secretKey

def type : TokenFamily → String
  | access => "access"
  | refresh => "refresh"
  | emailVerification => "email_verification"
  | passwordReset => "password_reset"

/-- In seconds. -/
def lifetime : TokenFamily → Int
  | access => env.accessTokenExpireMinutes * 60
  | refresh => env.refreshTokenExpireDays * (24 * 60 * 60)
  | emailVerification => 30 * 60
  | passwordReset => 15 * 60

theorem type_injective : Function.Injective type := by
  intro family other heq
  cases family <;> cases other <;> simp [type] at heq ⊢

variable {jose secretKey env}

theorem create_eq (family : TokenFamily) (now : τ) (uuid4 subject : String) :
    family.create jose secretKey env now uuid4 subject =
      createToken jose secretKey now uuid4 subject family.type (family.lifetime env) := by
  cases family <;> rfl

theorem decode_eq (family : TokenFamily) (now : τ) (token : Text) :
    family.decode jose secretKey now token = decodeToken jose secretKey now token family.type := by
  cases family <;> rfl

end TokenFamily

section Laws

variable {τ Text : Type} [Ring τ] [LinearOrder τ] [FloorRing τ]

/-- The payload as it comes back: instants are whole seconds. -/
def Payload.decoded (payload : Payload τ) : List (String × JsonValue τ) :=
  [("sub", .text payload.sub), ("type", .text payload.type), ("jti", .text payload.jti),
    ("iat", .number (⌊payload.iat⌋ : Int)), ("exp", .number (⌊payload.exp⌋ : Int))]

/-- What was encoded is decoded with the same key and algorithm until its last second. -/
def Jose.Lawful (jose : Jose τ Text) : Prop :=
  ∀ payload key now, jose.decode (jose.encode payload key algorithm) key [algorithm] now =
    if ⌊now⌋ ≤ ⌊payload.exp⌋ then some payload.decoded else none

/-- The payload in whole seconds, and what it was signed with. -/
structure SignedText where
  token : Token
  key : String
  algorithm : String

def wholeSeconds : Jose τ SignedText where
  encode := fun payload key algorithm =>
    ⟨⟨payload.sub, payload.type, payload.jti, ⌊payload.iat⌋, ⌊payload.exp⌋⟩, key, algorithm⟩
  decode := fun text key algorithms now =>
    if text.key = key ∧ text.algorithm ∈ algorithms ∧ Unexpired now text.token then
      some [("sub", .text text.token.sub), ("type", .text text.token.type),
        ("jti", .text text.token.jti), ("iat", .number text.token.iat),
        ("exp", .number text.token.exp)]
    else none

theorem wholeSeconds_lawful : (wholeSeconds : Jose τ SignedText).Lawful := by
  intro payload key now
  simp [wholeSeconds, Payload.decoded, Unexpired]

theorem createToken_wholeSeconds (secretKey : String) {now : τ}
    (uuid4 subject tokenType : String) {expiresDelta : Int}
    (hexp : Representable (now + (expiresDelta : τ))) :
    createToken wholeSeconds secretKey now uuid4 subject tokenType expiresDelta =
      .ok ⟨FastApiAuth.createToken now uuid4 subject tokenType expiresDelta, secretKey,
        algorithm⟩ := by
  unfold createToken addDelta
  rw [if_pos hexp]
  rfl

theorem decodeToken_wholeSeconds (secretKey : String) {signed : List Token} {token : Token}
    (hsigned : token ∈ signed) (hexp : Representable (token.exp : τ)) (now : τ)
    (expectedType : String) :
    decodeToken wholeSeconds secretKey now ⟨token, secretKey, algorithm⟩ expectedType =
      .ok (FastApiAuth.decodeToken signed now token expectedType) := by
  unfold decodeToken FastApiAuth.decodeToken jwtDecode wholeSeconds Unexpired fromTimestamp
  by_cases hlive : ⌊now⌋ ≤ token.exp
  · by_cases htype : token.type = expectedType
    · simp [hsigned, hlive, htype, hexp, List.lookup_cons, Except.map]
    · simp [hsigned, hlive, htype, List.lookup_cons]
  · simp [hlive]

variable {jose : Jose τ Text}

theorem createToken_ok_iff (secretKey : String) {minted : τ} {uuid4 subject tokenType : String}
    {expiresDelta : Int} :
    (∃ token, createToken jose secretKey minted uuid4 subject tokenType expiresDelta = .ok token) ↔
      Representable (minted + (expiresDelta : τ)) := by
  unfold createToken addDelta
  split
  · rename_i hexp
    exact iff_of_true ⟨_, rfl⟩ hexp
  · rename_i hexp
    apply iff_of_false _ hexp
    rintro ⟨_, hok⟩
    cases hok

variable [IsStrictOrderedRing τ]

theorem representable_floor {instant : τ} :
    Representable (⌊instant⌋ : τ) ↔ Representable instant := by
  unfold Representable
  rw [Int.floor_intCast]

theorem decode_create (hj : jose.Lawful) (secretKey : String) {minted : τ} (now : τ)
    {uuid4 subject tokenType : String} {expiresDelta : Int} (expectedType : String) {token : Text}
    (htoken : createToken jose secretKey minted uuid4 subject tokenType expiresDelta =
      .ok token) :
    decodeToken jose secretKey now token expectedType =
      .ok (if tokenType = expectedType ∧ ⌊now⌋ ≤ ⌊minted⌋ + expiresDelta then
        some ⟨subject, uuid4, ((⌊minted⌋ + expiresDelta : Int) : τ)⟩
      else none) := by
  have hrange : Representable (minted + (expiresDelta : τ)) :=
    (createToken_ok_iff secretKey).mp ⟨token, htoken⟩
  have hexp : ⌊minted + (expiresDelta : τ)⌋ = ⌊minted⌋ + expiresDelta :=
    Int.floor_add_intCast minted expiresDelta
  have hback : fromTimestamp ((⌊minted⌋ + expiresDelta : Int) : τ) =
      .ok ((⌊minted⌋ + expiresDelta : Int) : τ) := by
    unfold fromTimestamp
    rw [← hexp, if_pos (representable_floor.mpr hrange)]
  unfold createToken addDelta at htoken
  rw [if_pos hrange] at htoken
  obtain rfl := Except.ok.inj htoken
  unfold decodeToken
  rw [hj, hexp]
  by_cases hlive : ⌊now⌋ ≤ ⌊minted⌋ + expiresDelta
  · rw [if_pos hlive]
    by_cases htype : tokenType = expectedType
    · simp [Payload.decoded, List.lookup_cons, htype, hlive, hexp, hback, Except.map,
        -Int.cast_add]
    · simp [Payload.decoded, List.lookup_cons, htype]
  · rw [if_neg hlive, if_neg]
    intro hboth
    exact hlive hboth.2

theorem family_decode_create (hj : jose.Lawful) (secretKey : String) (env : Env)
    (family other : TokenFamily) {minted : τ} (now : τ) {uuid4 subject : String} {token : Text}
    (htoken : family.create jose secretKey env minted uuid4 subject = .ok token) :
    other.decode jose secretKey now token =
      .ok (if family = other ∧ ⌊now⌋ ≤ ⌊minted⌋ + family.lifetime env then
        some ⟨subject, uuid4, ((⌊minted⌋ + family.lifetime env : Int) : τ)⟩
      else none) := by
  rw [TokenFamily.create_eq] at htoken
  rw [TokenFamily.decode_eq, decode_create hj secretKey now other.type htoken]
  simp only [TokenFamily.type_injective.eq_iff]

/-- A token of the server, once signed, is accepted until its last second as its own type. -/
theorem server_decode_create {signed : List Token} {minted : τ}
    {uuid4 subject tokenType : String} {expiresDelta : Int}
    (hrange : Representable (minted + (expiresDelta : τ)))
    (hsigned : FastApiAuth.createToken minted uuid4 subject tokenType expiresDelta ∈ signed)
    (now : τ) (expectedType : String) :
    FastApiAuth.decodeToken signed now
        (FastApiAuth.createToken minted uuid4 subject tokenType expiresDelta) expectedType =
      if tokenType = expectedType ∧ ⌊now⌋ ≤ ⌊minted⌋ + expiresDelta then
        some ⟨subject, uuid4, ((⌊minted⌋ + expiresDelta : Int) : τ)⟩
      else none := by
  have hexp : Representable
      ((FastApiAuth.createToken minted uuid4 subject tokenType expiresDelta).exp : τ) :=
    representable_floor.mpr hrange
  have htext := decode_create wholeSeconds_lawful "" now expectedType
    (createToken_wholeSeconds "" uuid4 subject tokenType hrange)
  rw [decodeToken_wholeSeconds "" hsigned hexp] at htext
  exact Except.ok.inj htext

end Laws

/-- With a library that encodes and decodes, a token is minted just when its expiry is within
the calendar. It is then accepted exactly as the type it was minted for and until its last
whole second, and comes back with what was put in; no family accepts a token of another. -/
theorem token_round_trip {τ Text : Type} [Ring τ] [LinearOrder τ] [FloorRing τ]
    [IsStrictOrderedRing τ] {jose : Jose τ Text} (hj : jose.Lawful) (secretKey : String)
    (env : Env) :
    (∀ (minted : τ) (uuid4 subject tokenType : String) (expiresDelta : Int),
      Representable (minted + (expiresDelta : τ)) →
      ∃ token,
        createToken jose secretKey minted uuid4 subject tokenType expiresDelta = .ok token ∧
        ∀ (now : τ) (expectedType : String),
          decodeToken jose secretKey now token expectedType =
            .ok (if tokenType = expectedType ∧ ⌊now⌋ ≤ ⌊minted⌋ + expiresDelta then
              some ⟨subject, uuid4, ((⌊minted⌋ + expiresDelta : Int) : τ)⟩
            else none)) ∧
    (∀ (minted : τ) (uuid4 subject tokenType : String) (expiresDelta : Int),
      ¬ Representable (minted + (expiresDelta : τ)) →
      createToken jose secretKey minted uuid4 subject tokenType expiresDelta =
        .error .outOfRange) ∧
    ∀ (family other : TokenFamily) (minted now : τ) (uuid4 subject : String) (token : Text),
      family ≠ other → family.create jose secretKey env minted uuid4 subject = .ok token →
      other.decode jose secretKey now token = .ok none := by
  refine ⟨?_, ?_, ?_⟩
  · intro minted uuid4 subject tokenType expiresDelta hrange
    obtain ⟨token, htoken⟩ := (createToken_ok_iff secretKey).mpr hrange
    refine ⟨token, htoken, ?_⟩
    intro now expectedType
    exact decode_create hj secretKey now expectedType htoken
  · intro minted uuid4 subject tokenType expiresDelta hrange
    unfold createToken addDelta
    rw [if_neg hrange]
    rfl
  · intro family other minted now uuid4 subject token hother htoken
    rw [family_decode_create hj secretKey env family other now htoken, if_neg]
    intro hboth
    exact hother hboth.1

def sampleJose : Jose Rat SignedText := wholeSeconds

theorem sampleJose_lawful : sampleJose.Lawful := wholeSeconds_lawful

/-- An access token where it belongs, and offered to the refresh endpoint. -/
theorem token_round_trip_sample :
    (∃ token, createToken sampleJose "key" (3 / 2) "uuid1" "a@example.com" "access" 1800 =
        .ok token ∧
      decodeToken sampleJose "key" (3601 / 2) token "access" =
        .ok (some ⟨"a@example.com", "uuid1", 1801⟩)) ∧
    ∀ token, TokenFamily.access.create sampleJose "key" asciiEnv (3 / 2) "uuid1" "a@example.com" =
        .ok token →
      TokenFamily.refresh.decode sampleJose "key" (3601 / 2) token = .ok none := by
  obtain ⟨hminted, _, hfamilies⟩ := token_round_trip sampleJose_lawful "key" asciiEnv
  have hstart : ⌊(3 / 2 : Rat)⌋ = 1 := by norm_num
  have hnow : ⌊(3601 / 2 : Rat)⌋ = 1800 := by norm_num
  constructor
  · obtain ⟨token, htoken, hdecoded⟩ :=
      hminted (3 / 2) "uuid1" "a@example.com" "access" 1800 (by decide +kernel)
    refine ⟨token, htoken, ?_⟩
    rw [hdecoded, hstart, hnow]
    norm_num
  · intro token htoken
    exact hfamilies .access .refresh _ _ _ _ token (by decide) htoken

/-- A lifetime of 9506 years: no token is made. -/
theorem lifetime_beyond_calendar :
    ¬ ∃ token, createToken sampleJose "key" 1800000000 "uuid1" "a@example.com" "access"
        300000000000 = .ok token ∧
      decodeToken sampleJose "key" 1800000000 token "access" =
        .ok (some ⟨"a@example.com", "uuid1", 301800000000⟩) := by
  rintro ⟨token, htoken, _⟩
  have hrange := (createToken_ok_iff "key").mp ⟨token, htoken⟩
  revert hrange
  decide +kernel

end FastApiAuth.TokenFamilies
