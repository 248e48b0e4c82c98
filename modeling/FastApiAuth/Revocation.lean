import FastApiAuth.TokenBlacklist
import Mathlib.Algebra.Order.Archimedean.Real.Basic

/-!
# How long a revocation record lasts

The Redis key written for a token is compared with the instants at which the
token is still decoded. The key's lifetime is a whole number of seconds counted
from the revocation, so it ends at the latest at the expiry; the library refuses
the token only once a full second has passed after the expiry.
-/

namespace FastApiAuth.Revocation

set_option autoImplicit false

open ExpiringStore

section Records

variable {τ : Type} [Ring τ] [LinearOrder τ] [FloorRing τ]

/-- What logout, verify_email and reset_password do for one token at `t0`. -/
def recordAt (keyPrefix : String) (redis : Redis τ) (t0 : τ) (token : Token) : Redis τ :=
  recordToken keyPrefix redis t0 token.jti (remainingTtlSeconds t0 (token.exp : τ))

/-- From the record written at `t0` on, the token is never decoded without its
key being present. -/
def Outlives (keyPrefix : String) (signed : List Token) (redis : Redis τ) (t0 : τ)
    (token : Token) : Prop :=
  ∀ t1, t0 < t1 → (decodeToken signed t1 token token.type).isSome →
    isRecorded keyPrefix (recordAt keyPrefix redis t0 token) t1 token.jti = true

variable {keyPrefix : String} {signed : List Token} {redis : Redis τ} {t0 t1 : τ} {token : Token}

theorem isSome_decodeToken_iff :
    (decodeToken signed t1 token token.type).isSome = true ↔
      token ∈ signed ∧ Unexpired t1 token := by
  constructor
  · intro h
    obtain ⟨claims, hc⟩ := Option.isSome_iff_exists.mp h
    obtain ⟨hs, hu, _, _⟩ := decodeToken_eq_some_iff.mp hc
    exact ⟨hs, hu⟩
  · rintro ⟨hs, hu⟩
    exact Option.isSome_iff_exists.mpr ⟨_, decodeToken_eq_some_iff.mpr ⟨hs, hu, rfl, rfl⟩⟩

theorem outlives_of_refused (h : decodeToken signed t0 token token.type = none) :
    Outlives keyPrefix signed redis t0 token := by
  intro t1 hlt hd
  obtain ⟨hs, hu⟩ := isSome_decodeToken_iff.mp hd
  exact absurd (hu.of_le hlt.le) (decodeToken_own_type_eq_none_iff.mp h hs)

end Records

section Deadline

variable {τ : Type} [Ring τ] [LinearOrder τ] [FloorRing τ] [IsStrictOrderedRing τ]
variable {keyPrefix : String} {redis : Redis τ} {t0 t1 : τ} {token : Token}

omit [FloorRing τ] [IsStrictOrderedRing τ] in
/-- A record under the prefix leaves the key of `token` alone or ends by its expiry. -/
theorem recordToken_deadBy {jti : String} {ttlSeconds : Int}
    (h : redis.DeadBy (keyPrefix ++ token.jti) (token.exp : τ))
    (hend : jti = token.jti → 0 < ttlSeconds → t0 + (ttlSeconds : τ) ≤ (token.exp : τ)) :
    (recordToken keyPrefix redis t0 jti ttlSeconds).DeadBy (keyPrefix ++ token.jti)
      (token.exp : τ) := by
  unfold recordToken
  split
  · exact h
  · rename_i hpos
    by_cases hjti : jti = token.jti
    · subst hjti
      exact DeadBy.put rfl (hend rfl (not_le.mp hpos))
    · refine h.put_of_ne fun hkey => hjti ?_
      exact ((String.append_right_inj keyPrefix).mp hkey).symm

/-- No record of a token, however often it is written, is left after the token's expiry. -/
theorem recordAt_deadBy (h : redis.DeadBy (keyPrefix ++ token.jti) (token.exp : τ)) :
    (recordAt keyPrefix redis t0 token).DeadBy (keyPrefix ++ token.jti) (token.exp : τ) :=
  recordToken_deadBy h fun _ hpos => add_remainingTtlSeconds_le hpos

theorem not_isRecorded_from_expiry (h : redis.DeadBy (keyPrefix ++ token.jti) (token.exp : τ))
    (ht : (token.exp : τ) ≤ t1) :
    isRecorded keyPrefix (recordAt keyPrefix redis t0 token) t1 token.jti = false :=
  (recordAt_deadBy h).not_contains ht

end Deadline

section Field

variable {τ : Type} [Field τ] [LinearOrder τ] [FloorRing τ] [IsStrictOrderedRing τ]
variable {t0 : τ} {token : Token}

/-- A token that is not refused yet can still be presented after its expiry. -/
theorem exists_unexpired_after_expiry (h : Unexpired t0 token) :
    ∃ t1, t0 < t1 ∧ (token.exp : τ) ≤ t1 ∧ Unexpired t1 token := by
  have hmax : max t0 (token.exp : τ) < (token.exp : τ) + 1 :=
    max_lt (unexpired_iff_lt.mp h) (lt_add_one _)
  obtain ⟨t1, hlow, hhigh⟩ := exists_between hmax
  exact ⟨t1, (le_max_left _ _).trans_lt hlow, ((le_max_right _ _).trans_lt hlow).le,
    unexpired_iff_lt.mpr hhigh⟩

theorem outlives_iff_refused {keyPrefix : String} {signed : List Token} {redis : Redis τ}
    (h : redis.DeadBy (keyPrefix ++ token.jti) (token.exp : τ)) :
    Outlives keyPrefix signed redis t0 token ↔ decodeToken signed t0 token token.type = none := by
  refine ⟨?_, outlives_of_refused⟩
  intro hout
  apply decodeToken_own_type_eq_none_iff.mpr
  intro hs hu
  obtain ⟨t1, hlt, hexp, hu1⟩ := exists_unexpired_after_expiry hu
  have hrec := hout t1 hlt (isSome_decodeToken_iff.mpr ⟨hs, hu1⟩)
  rw [not_isRecorded_from_expiry h hexp] at hrec
  exact absurd hrec (by decide)

end Field

/-- Neither the blacklist key nor the spent mark of a token outlives the token,
unless the token was refused already when the key was written. -/
theorem record_outlives_iff_already_refused (signed : List Token) (token : Token) (t0 : ℝ)
    (redis : Redis ℝ)
    (hb : redis.DeadBy (blacklistKeyPrefix ++ token.jti) (token.exp : ℝ))
    (hm : redis.DeadBy (usedKeyPrefix ++ token.jti) (token.exp : ℝ)) :
    ((∀ t1, t0 < t1 → (decodeToken signed t1 token token.type).isSome →
        isTokenBlacklisted (blacklistToken redis t0 token.jti
          (remainingTtlSeconds t0 (token.exp : ℝ))) t1 token.jti = true) ↔
      decodeToken signed t0 token token.type = none) ∧
    ((∀ t1, t0 < t1 → (decodeToken signed t1 token token.type).isSome →
        isTokenUsed (markTokenUsed redis t0 token.jti
          (remainingTtlSeconds t0 (token.exp : ℝ))) t1 token.jti = true) ↔
      decodeToken signed t0 token token.type = none) :=
  ⟨outlives_iff_refused hb, outlives_iff_refused hm⟩

def sampleToken : Token :=
  { sub := "a@example.com", type := "access", jti := "0", iat := 0, exp := 1800 }

theorem record_outlives_iff_already_refused_sample :
    ((∀ t1 : ℝ, 1000 < t1 → (decodeToken [sampleToken] t1 sampleToken "access").isSome →
        isTokenBlacklisted (blacklistToken empty 1000 "0"
          (remainingTtlSeconds 1000 ((1800 : Int) : ℝ))) t1 "0" = true) ↔
      decodeToken [sampleToken] (1000 : ℝ) sampleToken "access" = none) ∧
    ((∀ t1 : ℝ, 1000 < t1 → (decodeToken [sampleToken] t1 sampleToken "access").isSome →
        isTokenUsed (markTokenUsed empty 1000 "0"
          (remainingTtlSeconds 1000 ((1800 : Int) : ℝ))) t1 "0" = true) ↔
      decodeToken [sampleToken] (1000 : ℝ) sampleToken "access" = none) :=
  record_outlives_iff_already_refused [sampleToken] sampleToken 1000 empty
    (by simp [DeadBy, empty]) (by simp [DeadBy, empty])

/-- A logout half a second past a full second: the key lasts until 1799.5, the
token is decoded until 1801. -/
theorem revoked_token_decoded_again :
    ∃ (signed : List Token) (token : Token) (t0 t1 : ℝ), t0 < t1 ∧
      (decodeToken signed t0 token token.type).isSome ∧
      (decodeToken signed t1 token token.type).isSome ∧
      isTokenBlacklisted (blacklistToken empty t0 token.jti
        (remainingTtlSeconds t0 (token.exp : ℝ))) t1 token.jti = false ∧
      isTokenUsed (markTokenUsed empty t0 token.jti
        (remainingTtlSeconds t0 (token.exp : ℝ))) t1 token.jti = false := by
  have hdead : ∀ keyPrefix : String, (empty : Redis ℝ).DeadBy (keyPrefix ++ sampleToken.jti)
      (sampleToken.exp : ℝ) := fun _ => by simp [DeadBy, empty]
  have hexp : (sampleToken.exp : ℝ) = 1800 := by norm_num [sampleToken]
  refine ⟨[sampleToken], sampleToken, 1000.5, 1800, by norm_num, ?_, ?_, ?_, ?_⟩
  · exact isSome_decodeToken_iff.mpr
      ⟨by simp, unexpired_iff_lt.mpr (by rw [hexp]; norm_num)⟩
  · exact isSome_decodeToken_iff.mpr
      ⟨by simp, unexpired_iff_lt.mpr (by rw [hexp]; norm_num)⟩
  · exact not_isRecorded_from_expiry (hdead blacklistKeyPrefix) hexp.le
  · exact not_isRecorded_from_expiry (hdead usedKeyPrefix) hexp.le

end FastApiAuth.Revocation
