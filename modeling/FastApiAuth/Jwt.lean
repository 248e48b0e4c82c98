import Mathlib.Algebra.Order.Floor.Ring
import Mathlib.Algebra.Order.Ring.Cast

/-!
# app/auth/jwt.py

A token string is represented by the payload it carries. The signature check of
the JWT library is membership in the list of payloads the server has signed, so
nobody else can make a token that verifies. Instants are taken from any ordered
field with a floor; the library writes and compares whole seconds.
-/

namespace FastApiAuth

set_option autoImplicit false

structure Token where
  sub : String
  type : String
  jti : String
  iat : Int
  exp : Int
  deriving DecidableEq

structure TokenClaims (τ : Type) where
  subject : String
  jti : String
  expiresAt : τ

section Tokens

variable {τ : Type} [Ring τ] [LinearOrder τ] [FloorRing τ]

def createToken (now : τ) (jti subject tokenType : String) (expiresDelta : Int) : Token :=
  { sub := subject, type := tokenType, jti, iat := ⌊now⌋, exp := ⌊now + (expiresDelta : τ)⌋ }

/-- `jwt.decode`; `none` is the JWTError of a bad signature or an expired token. -/
def jwtDecode (signed : List Token) (now : τ) (token : Token) : Option Token :=
  if token ∈ signed ∧ ⌊now⌋ ≤ token.exp then some token else none

def decodeToken (signed : List Token) (now : τ) (token : Token) (expectedType : String) :
    Option (TokenClaims τ) :=
  match jwtDecode signed now token with
  | none => none
  | some payload =>
    if payload.type ≠ expectedType then none
    else some ⟨payload.sub, payload.jti, payload.exp⟩

/-- `int(x)` on a number of seconds: rounding towards zero. -/
def truncate (x : τ) : Int := if 0 ≤ x then ⌊x⌋ else ⌈x⌉

def remainingTtlSeconds (now expiresAt : τ) : Int := max (truncate (expiresAt - now)) 0

/-- The token would still be decoded at `now`, whatever type is asked for. -/
def Unexpired (now : τ) (token : Token) : Prop := ⌊now⌋ ≤ token.exp

instance (now : τ) (token : Token) : Decidable (Unexpired now token) :=
  inferInstanceAs (Decidable (⌊now⌋ ≤ token.exp))

variable {signed : List Token} {now : τ} {token : Token} {expectedType : String}
variable {claims : TokenClaims τ}

theorem decodeToken_eq_some_iff :
    decodeToken signed now token expectedType = some claims ↔
      token ∈ signed ∧ Unexpired now token ∧ token.type = expectedType ∧
        claims = ⟨token.sub, token.jti, token.exp⟩ := by
  unfold decodeToken jwtDecode Unexpired
  by_cases hs : token ∈ signed ∧ ⌊now⌋ ≤ token.exp
  · rw [if_pos hs]
    by_cases ht : token.type = expectedType
    · simp [ht, hs, eq_comm]
    · simp [ht]
  · rw [if_neg hs]
    simp only [reduceCtorEq, false_iff, not_and]
    exact fun h1 h2 => absurd ⟨h1, h2⟩ hs

theorem decodeToken_own_type_eq_none_iff :
    decodeToken signed now token token.type = none ↔ token ∈ signed → ¬ Unexpired now token := by
  unfold decodeToken jwtDecode Unexpired
  by_cases hs : token ∈ signed ∧ ⌊now⌋ ≤ token.exp
  · simp [hs]
  · rw [if_neg hs]
    simpa using hs

end Tokens

section Clock

variable {τ : Type} [Ring τ] [LinearOrder τ] [FloorRing τ]
variable {now later expiresAt : τ} {token : Token}

theorem unexpired_iff_lt : Unexpired now token ↔ now < (token.exp : τ) + 1 := by
  rw [Unexpired, ← Int.lt_add_one_iff, Int.floor_lt]
  push_cast
  rfl

theorem Unexpired.of_le (h : Unexpired later token) (hle : now ≤ later) : Unexpired now token :=
  (Int.floor_le_floor hle).trans h

variable [IsStrictOrderedRing τ]

/-- The whole seconds left never reach past the expiry. -/
theorem add_remainingTtlSeconds_le (h : 0 < remainingTtlSeconds now expiresAt) :
    now + (remainingTtlSeconds now expiresAt : τ) ≤ expiresAt := by
  unfold remainingTtlSeconds truncate at *
  split at h
  · rename_i hle
    rw [if_pos hle]
    have hfloor : max ⌊expiresAt - now⌋ 0 = ⌊expiresAt - now⌋ :=
      max_eq_left (Int.floor_nonneg.mpr hle)
    rw [hfloor]
    have hsub := Int.floor_le (expiresAt - now)
    have hcancel : now + (expiresAt - now) = expiresAt := add_sub_cancel now expiresAt
    calc now + (⌊expiresAt - now⌋ : τ) ≤ now + (expiresAt - now) := by gcongr
      _ = expiresAt := hcancel
  · rename_i hneg
    have hceil : ⌈expiresAt - now⌉ ≤ 0 := by
      apply Int.ceil_le.mpr
      push_cast
      exact le_of_lt (not_le.mp hneg)
    omega

end Clock

end FastApiAuth
