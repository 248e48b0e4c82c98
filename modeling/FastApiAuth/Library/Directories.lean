import FastApiAuth.Library.Runs
import Mathlib.Data.Set.Lattice
import Mathlib.Logic.Function.Basic

/-!
# Directories of accounts

Profiles under numbers that are given out in order. A profile has an address, perhaps a
secret, and sets of identities and roles. An operation has a precondition and one result;
what the preconditions protect is `Sound`, and an account ends in a purge only.
-/

namespace Directories

set_option autoImplicit false

open Runs

universe u v w x

structure Profile (ε : Type u) (σ : Type v) (ι : Type w) (ρ : Type x) where
  address : ε
  secret : Option σ
  active : Bool
  verified : Bool
  identities : Set ι
  roles : Set ρ

/-- `next` is the number of the next account. -/
structure Directory (ε : Type u) (σ : Type v) (ι : Type w) (ρ : Type x) where
  profile : Nat → Option (Profile ε σ ι ρ)
  next : Nat

inductive Op (ε : Type u) (σ : Type v) (ι : Type w) (ρ : Type x) where
  | join (p : Profile ε σ ι ρ)
  | rename (i : Nat) (address : ε)
  | setSecret (i : Nat) (secret : σ)
  | flag (i : Nat) (active verified : Option Bool)
  | link (i : Nat) (identity : ι)
  | unlink (i : Nat) (identity : ι)
  | grant (i : Nat) (role : ρ)
  | revoke (i : Nat) (role : ρ)
  | purge (gone : Set Nat)

variable {ε : Type u} {σ : Type v} {ι : Type w} {ρ : Type x}

/-- A profile can be entered with a secret or with an identity. -/
def Profile.CanSignIn (p : Profile ε σ ι ρ) : Prop := p.secret ≠ none ∨ p.identities.Nonempty

namespace Directory

def amend (d : Directory ε σ ι ρ) (i : Nat) (f : Profile ε σ ι ρ → Profile ε σ ι ρ) :
    Directory ε σ ι ρ :=
  { d with profile := Function.update d.profile i ((d.profile i).map f) }

/-- No other profile than the one of `i` has the address. -/
def Free (d : Directory ε σ ι ρ) (i : Nat) (address : ε) : Prop :=
  ∀ j q, j ≠ i → d.profile j = some q → q.address ≠ address

def Unlinked (d : Directory ε σ ι ρ) (identity : ι) : Prop :=
  ∀ j q, d.profile j = some q → identity ∉ q.identities

end Directory

namespace Op

def Legal (d : Directory ε σ ι ρ) : Op ε σ ι ρ → Prop
  | .join p => p.CanSignIn ∧ d.Free d.next p.address ∧ ∀ x ∈ p.identities, d.Unlinked x
  | .rename i address => d.profile i ≠ none ∧ d.Free i address
  | .setSecret i _ => d.profile i ≠ none
  | .flag i _ _ => d.profile i ≠ none
  | .link i x => d.profile i ≠ none ∧ d.Unlinked x
  | .unlink i x => ∃ p, d.profile i = some p ∧ x ∈ p.identities ∧
      (p.secret ≠ none ∨ ∃ y ∈ p.identities, y ≠ x)
  | .grant i _ => d.profile i ≠ none
  | .revoke i _ => d.profile i ≠ none
  | .purge gone => ∀ i ∈ gone, ∃ p, d.profile i = some p ∧ p.verified = false

open Classical in
noncomputable def apply (d : Directory ε σ ι ρ) : Op ε σ ι ρ → Directory ε σ ι ρ
  | .join p => { profile := Function.update d.profile d.next (some p), next := d.next + 1 }
  | .rename i address => d.amend i fun p => { p with address }
  | .setSecret i secret => d.amend i fun p => { p with secret := some secret }
  | .flag i active verified => d.amend i fun p =>
      { p with active := active.getD p.active, verified := verified.getD p.verified }
  | .link i x => d.amend i fun p => { p with identities := insert x p.identities }
  | .unlink i x => d.amend i fun p => { p with identities := p.identities \ {x} }
  | .grant i r => d.amend i fun p => { p with roles := insert r p.roles }
  | .revoke i r => d.amend i fun p => { p with roles := p.roles \ {r} }
  | .purge gone => { d with profile := fun i => if i ∈ gone then none else d.profile i }

end Op

/-- An operation, or nothing. -/
def Step (d : Directory ε σ ι ρ) (o : Option (Op ε σ ι ρ)) (d' : Directory ε σ ι ρ) : Prop :=
  match o with
  | none => d' = d
  | some o => o.Legal d ∧ d' = o.apply d

/-- No number is in use before it is given out, no two profiles share an address or an
identity, and everybody can sign in. -/
structure Sound (d : Directory ε σ ι ρ) : Prop where
  given : ∀ i p, d.profile i = some p → i < d.next
  addresses : ∀ i j p q, d.profile i = some p → d.profile j = some q →
    p.address = q.address → i = j
  identities : ∀ i j p q x, d.profile i = some p → d.profile j = some q →
    x ∈ p.identities → x ∈ q.identities → i = j
  signIn : ∀ i p, d.profile i = some p → p.CanSignIn

section Laws

variable {d d' : Directory ε σ ι ρ} {o : Op ε σ ι ρ} {i j : Nat} {p q : Profile ε σ ι ρ}
variable {f : Profile ε σ ι ρ → Profile ε σ ι ρ}

theorem profile_amend_of_ne (h : j ≠ i) : (d.amend i f).profile j = d.profile j :=
  Function.update_of_ne h _ _

theorem profile_amend_self : (d.amend i f).profile i = (d.profile i).map f :=
  Function.update_self _ _ _

theorem profile_purge_of_mem {gone : Set Nat} (hi : i ∈ gone) :
    ((Op.purge gone).apply d).profile i = none :=
  if_pos hi

theorem profile_purge_of_notMem {gone : Set Nat} (hi : i ∉ gone) :
    ((Op.purge gone).apply d).profile i = d.profile i :=
  if_neg hi

/-- A profile of the amended directory is an old one, or the amended one. -/
theorem profile_amend (h : (d.amend i f).profile j = some q) :
    (j ≠ i ∧ d.profile j = some q) ∨ ∃ p, j = i ∧ d.profile i = some p ∧ q = f p := by
  by_cases hj : j = i
  · subst hj
    rw [profile_amend_self] at h
    obtain ⟨p, hp, rfl⟩ := Option.map_eq_some_iff.mp h
    exact .inr ⟨p, rfl, hp, rfl⟩
  · rw [profile_amend_of_ne hj] at h
    exact .inl ⟨hj, h⟩

theorem Sound.amend (h : Sound d)
    (haddress : ∀ p, d.profile i = some p → d.Free i (f p).address)
    (hidentities : ∀ p, d.profile i = some p → ∀ x ∈ (f p).identities,
      x ∈ p.identities ∨ d.Unlinked x)
    (hsign : ∀ p, d.profile i = some p → (f p).CanSignIn) : Sound (d.amend i f) := by
  constructor
  · intro j q hq
    rcases profile_amend hq with ⟨_, hq⟩ | ⟨p, rfl, hp, rfl⟩
    · exact h.given j q hq
    · exact h.given j p hp
  · intro j k p q hp hq he
    rcases profile_amend hp with ⟨hj, hj'⟩ | ⟨p', rfl, hp', rfl⟩
    · rcases profile_amend hq with ⟨_, hk'⟩ | ⟨q', rfl, hq', rfl⟩
      · exact h.addresses j k p q hj' hk' he
      · exact absurd he (haddress q' hq' j p hj hj')
    · rcases profile_amend hq with ⟨hk, hk'⟩ | ⟨q', rfl, hq', rfl⟩
      · exact absurd he.symm (haddress p' hp' k q hk hk')
      · rfl
  · intro j k p q x hp hq hx hy
    rcases profile_amend hp with ⟨hj, hj'⟩ | ⟨p', rfl, hp', rfl⟩
    · rcases profile_amend hq with ⟨_, hk'⟩ | ⟨q', rfl, hq', rfl⟩
      · exact h.identities j k p q x hj' hk' hx hy
      · rcases hidentities q' hq' x hy with hy | hfree
        · exact h.identities j k p q' x hj' hq' hx hy
        · exact absurd hx (hfree j p hj')
    · rcases profile_amend hq with ⟨hk, hk'⟩ | ⟨q', rfl, hq', rfl⟩
      · rcases hidentities p' hp' x hx with hx | hfree
        · exact h.identities j k p' q x hp' hk' hx hy
        · exact absurd hy (hfree k q hk')
      · rfl
  · intro j q hq
    rcases profile_amend hq with ⟨_, hq⟩ | ⟨p, rfl, hp, rfl⟩
    · exact h.signIn j q hq
    · exact hsign p hp

/-- An amendment of the fields that no law is about. -/
theorem Sound.amend_other (h : Sound d) (haddress : ∀ p, (f p).address = p.address)
    (hidentities : ∀ p, (f p).identities = p.identities)
    (hsecret : ∀ p, (f p).secret = p.secret) : Sound (d.amend i f) := by
  apply h.amend
  · intro p hp j q hj hq he
    rw [haddress] at he
    exact hj (h.addresses j i q p hq hp he)
  · intro p _ x hx
    rw [hidentities] at hx
    exact .inl hx
  · intro p hp
    have hs := h.signIn i p hp
    unfold Profile.CanSignIn at hs ⊢
    rw [hsecret, hidentities]
    exact hs

theorem Sound.free (h : Sound d) (hp : d.profile i = some p) : d.Free i p.address := by
  intro j q hj hq he
  exact hj (h.addresses j i q p hq hp he)

theorem Sound.join (h : Sound d) (hlegal : (Op.join p).Legal d) :
    Sound ((Op.join p).apply d) := by
  obtain ⟨hsign, hfree, hunlinked⟩ := hlegal
  -- a profile of the new directory is an old one with a smaller number, or the new one
  have hcases : ∀ j q, ((Op.join p).apply d).profile j = some q →
      (j < d.next ∧ d.profile j = some q) ∨ (j = d.next ∧ q = p) := by
    intro j q hq
    simp only [Op.apply] at hq
    by_cases hj : j = d.next
    · subst hj
      rw [Function.update_self, Option.some.injEq] at hq
      exact .inr ⟨rfl, hq.symm⟩
    · rw [Function.update_of_ne hj] at hq
      exact .inl ⟨h.given j q hq, hq⟩
  constructor
  · intro j q hq
    change j < d.next + 1
    rcases hcases j q hq with ⟨hj, _⟩ | ⟨rfl, _⟩ <;> omega
  · intro j k q r hq hr he
    rcases hcases j q hq with ⟨hj, hj'⟩ | ⟨rfl, rfl⟩
    · rcases hcases k r hr with ⟨_, hk'⟩ | ⟨rfl, rfl⟩
      · exact h.addresses j k q r hj' hk' he
      · exact absurd he (hfree j q hj.ne hj')
    · rcases hcases k r hr with ⟨hk, hk'⟩ | ⟨rfl, rfl⟩
      · exact absurd he.symm (hfree k r hk.ne hk')
      · rfl
  · intro j k q r x hq hr hx hy
    rcases hcases j q hq with ⟨_, hj'⟩ | ⟨rfl, rfl⟩
    · rcases hcases k r hr with ⟨_, hk'⟩ | ⟨rfl, rfl⟩
      · exact h.identities j k q r x hj' hk' hx hy
      · exact absurd hx (hunlinked x hy j q hj')
    · rcases hcases k r hr with ⟨_, hk'⟩ | ⟨rfl, rfl⟩
      · exact absurd hy (hunlinked x hx k r hk')
      · rfl
  · intro j q hq
    rcases hcases j q hq with ⟨_, hq⟩ | ⟨_, rfl⟩
    · exact h.signIn j q hq
    · exact hsign

theorem Sound.purge {gone : Set Nat} (h : Sound d) : Sound ((Op.purge gone).apply d) := by
  have hold : ∀ j q, ((Op.purge gone).apply d).profile j = some q → d.profile j = some q := by
    intro j q hq
    by_cases hj : j ∈ gone
    · rw [profile_purge_of_mem hj] at hq
      cases hq
    · rwa [profile_purge_of_notMem hj] at hq
  exact
    { given := fun j q hq => h.given j q (hold j q hq)
      addresses := fun j k q r hq hr => h.addresses j k q r (hold j q hq) (hold k r hr)
      identities := fun j k q r x hq hr => h.identities j k q r x (hold j q hq) (hold k r hr)
      signIn := fun j q hq => h.signIn j q (hold j q hq) }

theorem Sound.apply (h : Sound d) (hlegal : o.Legal d) : Sound (o.apply d) := by
  cases o with
  | join p => exact h.join hlegal
  | rename i address =>
    obtain ⟨_, hfree⟩ := hlegal
    apply h.amend
    · exact fun _ _ => hfree
    · exact fun _ _ _ hx => .inl hx
    · exact fun p hp => h.signIn i p hp
  | setSecret i secret =>
    apply h.amend
    · exact fun p hp => h.free (p := p) hp
    · exact fun _ _ _ hx => .inl hx
    · exact fun _ _ => .inl (Option.some_ne_none _)
  | flag i active verified | grant i r | revoke i r =>
    exact h.amend_other (fun _ => rfl) (fun _ => rfl) fun _ => rfl
  | link i x =>
    obtain ⟨_, hunlinked⟩ := hlegal
    apply h.amend
    · exact fun p hp => h.free (p := p) hp
    · intro p _ y hy
      rcases Set.mem_insert_iff.mp hy with rfl | hy
      · exact .inr hunlinked
      · exact .inl hy
    · exact fun _ _ => .inr ⟨x, Set.mem_insert _ _⟩
  | unlink i x =>
    obtain ⟨p, hp, _, hleft⟩ := hlegal
    apply h.amend
    · exact fun p hp => h.free (p := p) hp
    · exact fun _ _ y hy => .inl hy.1
    · intro q hq
      rw [hp, Option.some.injEq] at hq
      subst hq
      rcases hleft with hsecret | ⟨y, hy, hne⟩
      · exact .inl hsecret
      · exact .inr ⟨y, hy, hne⟩
  | purge gone => exact h.purge

theorem Sound.step {o : Option (Op ε σ ι ρ)} (h : Sound d) (hstep : Step d o d') : Sound d' := by
  cases o with
  | none =>
    obtain rfl : d' = d := hstep
    exact h
  | some o =>
    obtain ⟨hlegal, rfl⟩ := hstep
    exact h.apply hlegal

/-- An account that joins and links an identity at once. -/
theorem link_join {identity : ι} :
    (Op.link d.next identity).apply ((Op.join p).apply d) =
      (Op.join { p with identities := insert identity p.identities }).apply d := by
  simp only [Op.apply, Directory.amend, Function.update_self, Option.map_some,
    Function.update_idem]

theorem next_le_apply : d.next ≤ (o.apply d).next := by
  cases o with
  | join p => exact Nat.le_succ _
  | rename | setSecret | flag | link | unlink | grant | revoke | purge => exact le_rfl

/-- A number without a profile gets one only when it is given out. -/
theorem profile_apply_eq_none (hlt : i < d.next) (hnone : d.profile i = none) :
    (o.apply d).profile i = none := by
  have hamend : ∀ j (f : Profile ε σ ι ρ → Profile ε σ ι ρ), (d.amend j f).profile i = none := by
    intro j f
    by_cases hj : i = j
    · subst hj
      rw [profile_amend_self, hnone]
      rfl
    · rw [profile_amend_of_ne hj, hnone]
  cases o with
  | join p =>
    simp only [Op.apply]
    rw [Function.update_of_ne hlt.ne, hnone]
  | rename | setSecret | flag | link | unlink | grant | revoke => exact hamend _ _
  | purge gone =>
    by_cases hi : i ∈ gone
    · exact profile_purge_of_mem hi
    · rw [profile_purge_of_notMem hi, hnone]

/-- A profile is there after an operation other than a purge of it. -/
theorem profile_apply_ne_none (h : d.profile i ≠ none)
    (hpurge : ∀ gone, o = .purge gone → i ∉ gone) : (o.apply d).profile i ≠ none := by
  have hamend : ∀ j (f : Profile ε σ ι ρ → Profile ε σ ι ρ), (d.amend j f).profile i ≠ none := by
    intro j f
    by_cases hj : i = j
    · subst hj
      rw [profile_amend_self]
      simpa using h
    · rwa [profile_amend_of_ne hj]
  cases o with
  | join p =>
    simp only [Op.apply]
    by_cases hi : i = d.next
    · rw [hi, Function.update_self]
      exact Option.some_ne_none p
    · rwa [Function.update_of_ne hi]
  | rename | setSecret | flag | link | unlink | grant | revoke => exact hamend _ _
  | purge gone =>
    rwa [profile_purge_of_notMem (hpurge gone rfl)]

end Laws

section Runs

variable {d₀ d : Directory ε σ ι ρ} {i : Nat}
variable {h : List (Transition (Directory ε σ ι ρ) (Option (Op ε σ ι ρ)))}

theorem run_sound (h₀ : Sound d₀) (r : Run Step d₀ h d) : Sound d :=
  r.invariant h₀ fun hd hstep => hd.step hstep

/-- A number whose account has ended names no account again. -/
theorem run_stays_gone (hlt : i < d₀.next) (hnone : d₀.profile i = none) (r : Run Step d₀ h d) :
    i < d.next ∧ d.profile i = none := by
  apply r.invariant (I := fun d => i < d.next ∧ d.profile i = none) ⟨hlt, hnone⟩
  intro d o d' hd hstep
  obtain ⟨hlt, hnone⟩ := hd
  cases o with
  | none =>
    obtain rfl : d' = d := hstep
    exact ⟨hlt, hnone⟩
  | some o =>
    obtain ⟨_, rfl⟩ := hstep
    exact ⟨hlt.trans_le next_le_apply, profile_apply_eq_none hlt hnone⟩

/-- The transition purges the account `i`, which is unverified. -/
def Purges (i : Nat) (t : Transition (Directory ε σ ι ρ) (Option (Op ε σ ι ρ))) : Prop :=
  ∃ gone p, t.label = some (.purge gone) ∧ t.source.profile i = some p ∧ p.verified = false ∧
    t.target.profile i = none

/-- An account ends in a purge. -/
theorem run_ends_in_purge (hsome : d₀.profile i ≠ none) (hnone : d.profile i = none)
    (r : Run Step d₀ h d) : ∃ t ∈ h, Purges i t := by
  induction r with
  | start => exact absurd hnone hsome
  | @snoc h d d' o r hstep ih =>
    by_cases hd : d.profile i = none
    · obtain ⟨t, ht, hpurges⟩ := ih hd
      exact ⟨t, List.mem_append_left _ ht, hpurges⟩
    · refine ⟨_, List.mem_append_right _ (List.mem_singleton_self _), ?_⟩
      cases o with
      | none =>
        obtain rfl : d' = d := hstep
        exact absurd hnone hd
      | some o =>
        obtain ⟨hlegal, rfl⟩ := hstep
        by_contra hno
        refine profile_apply_ne_none hd ?_ hnone
        rintro gone rfl hi
        obtain ⟨p, hp, hverified⟩ := hlegal i hi
        exact hno ⟨gone, p, rfl, hp, hverified, hnone⟩

end Runs

end Directories
