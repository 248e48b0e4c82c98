import Mathlib.Data.List.Forall2
import Mathlib.Data.List.Infix

/-!
# Runs of a labelled transition system

A run is kept as the list of its transitions, oldest first, so that a statement
about a state can refer to everything that happened before it. Nothing here
depends on what the states or the labels are.
-/

namespace Runs

set_option autoImplicit false

universe u v w x

/-- One step of a run, with the states on both sides of it. -/
structure Transition (σ : Type u) (ℓ : Type v) where
  source : σ
  label : ℓ
  target : σ

/-- `Run Step s₀ h s`: the history `h` leads from `s₀` to `s`. -/
inductive Run {σ : Type u} {ℓ : Type v} (Step : σ → ℓ → σ → Prop) (s₀ : σ) :
    List (Transition σ ℓ) → σ → Prop where
  | start : Run Step s₀ [] s₀
  | snoc {h : List (Transition σ ℓ)} {s s' : σ} {l : ℓ} :
      Run Step s₀ h s → Step s l s' → Run Step s₀ (h ++ [⟨s, l, s'⟩]) s'

/-- Every transition of the history meets `G`, given the history before it. -/
def Guarded {σ : Type u} {ℓ : Type v} (G : List (Transition σ ℓ) → Transition σ ℓ → Prop)
    (h : List (Transition σ ℓ)) : Prop :=
  ∀ before t, before ++ [t] <+: h → G before t

section Rules

variable {σ : Type u} {ℓ : Type v} {Step : σ → ℓ → σ → Prop} {s₀ s s' : σ}
variable {h h' : List (Transition σ ℓ)}

theorem prefix_snoc_cases {t : Transition σ ℓ} {before : List (Transition σ ℓ)}
    (hp : before <+: h ++ [t]) : before <+: h ∨ before = h ++ [t] := by
  rcases List.prefix_concat_iff.mp hp with he | hp
  · exact Or.inr he
  · exact Or.inl hp

theorem guarded_snoc_iff {G : List (Transition σ ℓ) → Transition σ ℓ → Prop}
    {t : Transition σ ℓ} : Guarded G (h ++ [t]) ↔ Guarded G h ∧ G h t := by
  constructor
  · intro hg
    refine ⟨fun before t' hp => hg before t' (hp.trans (List.prefix_append _ _)), ?_⟩
    exact hg h t (List.prefix_refl _)
  · rintro ⟨hg, ht⟩ before t' hp
    rcases prefix_snoc_cases hp with hp | he
    · exact hg before t' hp
    · obtain ⟨rfl, ht'⟩ := List.append_inj' he rfl
      cases ht'
      exact ht

theorem guarded_of_forall_mem {P : Transition σ ℓ → Prop} (hP : ∀ t ∈ h, P t) :
    Guarded (fun _ t => P t) h := by
  intro before t hp
  exact hP t (hp.subset (by simp))

theorem Run.append {s₁ s₂ : σ} {h₁ h₂ : List (Transition σ ℓ)}
    (r₁ : Run Step s₀ h₁ s₁) (r₂ : Run Step s₁ h₂ s₂) : Run Step s₀ (h₁ ++ h₂) s₂ := by
  induction r₂ with
  | start => simpa using r₁
  | snoc _ hstep ih =>
    rw [← List.append_assoc]
    exact .snoc ih hstep

theorem Run.single {l : ℓ} (hstep : Step s l s') : Run Step s [⟨s, l, s'⟩] s' :=
  .snoc (h := []) .start hstep

/-- The history fixes the state it leads to, also when the steps are not deterministic. -/
theorem Run.target_unique (r : Run Step s₀ h s) (r' : Run Step s₀ h s') : s = s' := by
  cases r with
  | start =>
    generalize hh : ([] : List (Transition σ ℓ)) = h at r'
    cases r' with
    | start => rfl
    | snoc _ _ => simp at hh
  | @snoc h₁ s₁ _ l₁ r₁ hstep =>
    generalize hh : h₁ ++ [⟨s₁, l₁, s⟩] = h at r'
    cases r' with
    | start => simp at hh
    | snoc _ _ =>
      obtain ⟨_, he⟩ := List.append_inj' hh rfl
      cases he
      rfl

theorem Run.invariant {I : σ → Prop} (start : I s₀)
    (step : ∀ {s l s'}, I s → Step s l s' → I s') (r : Run Step s₀ h s) : I s := by
  induction r with
  | start => exact start
  | snoc _ hstep ih => exact step ih hstep

/-- A law about a state and the history behind it, kept by every transition that meets `G`. -/
theorem Run.guarded_invariant {I : List (Transition σ ℓ) → σ → Prop}
    {G : List (Transition σ ℓ) → Transition σ ℓ → Prop} (start : I [] s₀)
    (step : ∀ {h s l s'}, Run Step s₀ h s → I h s → Step s l s' → G h ⟨s, l, s'⟩ →
      I (h ++ [⟨s, l, s'⟩]) s')
    (r : Run Step s₀ h s) (hg : Guarded G h) : I h s := by
  induction r with
  | start => exact start
  | snoc r hstep ih =>
    obtain ⟨hg, ht⟩ := guarded_snoc_iff.mp hg
    exact step r (ih hg) hstep ht

/-- The part of a run before one of its transitions is a run to that transition's source. -/
theorem Run.of_prefix_snoc {t : Transition σ ℓ} {before : List (Transition σ ℓ)}
    (r : Run Step s₀ h s) (hp : before ++ [t] <+: h) :
    Run Step s₀ before t.source ∧ Step t.source t.label t.target := by
  induction r with
  | start => simp at hp
  | snoc r hstep ih =>
    rcases prefix_snoc_cases hp with hp | he
    · exact ih hp
    · obtain ⟨rfl, ht⟩ := List.append_inj' he rfl
      cases ht
      exact ⟨r, hstep⟩

/-- A run through a state is a run to it and a run from it. -/
theorem Run.of_append {h₁ h₂ : List (Transition σ ℓ)} (r : Run Step s₀ (h₁ ++ h₂) s) :
    ∃ s₁, Run Step s₀ h₁ s₁ ∧ Run Step s₁ h₂ s := by
  generalize hh : h₁ ++ h₂ = h at r
  induction r generalizing h₂ with
  | start =>
    obtain ⟨rfl, rfl⟩ := List.append_eq_nil_iff.mp hh
    exact ⟨s₀, .start, .start⟩
  | @snoc h s s' l r hstep ih =>
    rcases List.eq_nil_or_concat h₂ with rfl | ⟨before, t, rfl⟩
    · rw [List.append_nil] at hh
      exact ⟨s', hh ▸ r.snoc hstep, .start⟩
    · rw [List.concat_eq_append, ← List.append_assoc] at hh
      obtain ⟨hh, ht⟩ := List.append_inj' hh rfl
      obtain ⟨s₁, r₁, r₂⟩ := ih hh
      cases ht
      rw [List.concat_eq_append]
      exact ⟨s₁, r₁, r₂.snoc hstep⟩

/-- A run is the run before one of its transitions, that step, and the run after it. -/
theorem Run.split_at {before after : List (Transition σ ℓ)} {t : Transition σ ℓ}
    (r : Run Step s₀ (before ++ t :: after) s) :
    Run Step s₀ before t.source ∧ Step t.source t.label t.target ∧ Run Step t.target after s := by
  have hsplit : before ++ t :: after = before ++ [t] ++ after := by simp
  rw [hsplit] at r
  obtain ⟨rb, hstep⟩ := r.of_prefix_snoc (List.prefix_append (before ++ [t]) after)
  obtain ⟨s₁, r₁, r₂⟩ := r.of_append
  obtain rfl : t.target = s₁ := (rb.snoc hstep).target_unique r₁
  exact ⟨rb, hstep, r₂⟩

theorem Run.step_of_mem {t : Transition σ ℓ} (r : Run Step s₀ h s) (ht : t ∈ h) :
    ∃ before, before ++ [t] <+: h ∧ Run Step s₀ before t.source ∧
      Step t.source t.label t.target := by
  obtain ⟨before, after, rfl⟩ := List.append_of_mem ht
  have hp : before ++ [t] <+: before ++ t :: after := ⟨after, by simp⟩
  exact ⟨before, hp, r.of_prefix_snoc hp⟩

theorem take_snoc {t : Transition σ ℓ} {k : Nat} (ht : h[k]? = some t) :
    h.take k ++ [t] = h.take (k + 1) := by
  simp [List.take_add_one, ht]

theorem Run.of_getElem? {t : Transition σ ℓ} {k : Nat} (r : Run Step s₀ h s)
    (ht : h[k]? = some t) :
    Run Step s₀ (h.take k) t.source ∧ Step t.source t.label t.target :=
  r.of_prefix_snoc (take_snoc ht ▸ List.take_prefix _ _)

/-- A property kept by every transition lasts from wherever it holds. -/
theorem Run.persist {P : σ → Prop} {s₁ : σ} {h₁ : List (Transition σ ℓ)} (r : Run Step s₀ h s)
    (keeps : ∀ t ∈ h, P t.source → P t.target) (hp : h₁ <+: h) (r₁ : Run Step s₀ h₁ s₁)
    (hP : P s₁) : P s := by
  induction r with
  | start =>
    obtain rfl := List.prefix_nil.mp hp
    exact r₁.target_unique .start ▸ hP
  | snoc r hstep ih =>
    rcases prefix_snoc_cases hp with hp | rfl
    · have hbefore := ih (fun t ht => keeps t (List.mem_append_left _ ht)) hp
      exact keeps _ (List.mem_append_right _ (List.mem_singleton_self _)) hbefore
    · exact r₁.target_unique (r.snoc hstep) ▸ hP

/-- The event `E` came, and the event `C` at no transition after it. -/
def Since (E C : Transition σ ℓ → Prop) (h : List (Transition σ ℓ)) : Prop :=
  ∃ before t after, h = before ++ t :: after ∧ E t ∧ ∀ t' ∈ after, ¬ C t'

theorem not_since_nil {E C : Transition σ ℓ → Prop} : ¬ Since E C [] := by
  rintro ⟨before, t, after, heq, _⟩
  simp at heq

theorem since_snoc_iff {E C : Transition σ ℓ → Prop} {t : Transition σ ℓ} :
    Since E C (h ++ [t]) ↔ E t ∨ (Since E C h ∧ ¬ C t) := by
  constructor
  · rintro ⟨before, t', after, heq, hE, hC⟩
    rcases List.eq_nil_or_concat after with rfl | ⟨after, last, rfl⟩
    · obtain ⟨_, hlast⟩ := List.append_inj' heq rfl
      cases hlast
      exact Or.inl hE
    · rw [List.concat_eq_append, ← List.cons_append, ← List.append_assoc] at heq
      obtain ⟨hinit, hlast⟩ := List.append_inj' heq rfl
      cases hlast
      refine Or.inr ⟨⟨before, t', after, hinit, hE, ?_⟩, hC t (by simp)⟩
      intro t'' ht
      exact hC t'' (by simp [ht])
  · rintro (hE | ⟨⟨before, t', after, rfl, hE, hC⟩, hnot⟩)
    · exact ⟨h, t, [], rfl, hE, by simp⟩
    · refine ⟨before, t', after ++ [t], by simp, hE, ?_⟩
      intro t'' ht
      rcases List.mem_append.mp ht with ht | ht
      · exact hC t'' ht
      · rw [List.mem_singleton.mp ht]
        exact hnot

/-- Of two events that both renew `C`, the last of each is one transition. -/
theorem Since.meet {E E' C : Transition σ ℓ → Prop} (hE : Since E C h) (hE' : Since E' C h)
    (renews : ∀ t, E t → C t) (renews' : ∀ t, E' t → C t) : ∃ t ∈ h, E t ∧ E' t := by
  induction h using List.reverseRecOn with
  | nil => exact absurd hE not_since_nil
  | append_singleton h t ih =>
    rcases since_snoc_iff.mp hE with ht | ⟨hbefore, hnot⟩
    · rcases since_snoc_iff.mp hE' with ht' | ⟨_, hnot⟩
      · exact ⟨t, by simp, ht, ht'⟩
      · exact absurd (renews t ht) hnot
    · rcases since_snoc_iff.mp hE' with ht' | ⟨hbefore', _⟩
      · exact absurd (renews' t ht') hnot
      · obtain ⟨t', ht', hboth⟩ := ih hbefore hbefore'
        exact ⟨t', List.mem_append_left _ ht', hboth⟩

/-- Where there is always a step towards the goal, some run reaches it. -/
theorem exists_run_to {α : Type w} {rel : α → α → Prop} (wf : WellFounded rel) (f : σ → α)
    {I Goal : σ → Prop}
    (progress : ∀ s, I s → ¬ Goal s → ∃ l s', Step s l s' ∧ I s' ∧ rel (f s') (f s)) (s : σ)
    (hs : I s) : ∃ h s', Run Step s h s' ∧ Goal s' := by
  induction hf : f s using wf.induction generalizing s with
  | _ a ih =>
    by_cases hgoal : Goal s
    · exact ⟨[], s, .start, hgoal⟩
    · obtain ⟨l, s₁, hstep, hs₁, hrel⟩ := progress s hs hgoal
      obtain ⟨h, s', r, hgoal'⟩ := ih (f s₁) (hf ▸ hrel) s₁ hs₁ rfl
      exact ⟨_, s', (Run.single hstep).append r, hgoal'⟩

/-- What every transition keeps but those of `E` holds in the end, or one of those came. -/
theorem Run.holds_until {P : σ → Prop} {E : Transition σ ℓ → Prop} (r : Run Step s₀ h s)
    (keeps : ∀ t ∈ h, P t.source → P t.target ∨ E t) (hP : P s₀) : P s ∨ ∃ t ∈ h, E t := by
  induction r with
  | start => exact .inl hP
  | @snoc h s s' l r hstep ih =>
    have hlast : (⟨s, l, s'⟩ : Transition σ ℓ) ∈ h ++ [⟨s, l, s'⟩] :=
      List.mem_append_right _ (List.mem_singleton_self _)
    rcases ih fun t ht => keeps t (List.mem_append_left _ ht) with hP | ⟨t, ht, hE⟩
    · exact (keeps _ hlast hP).imp_right fun hE => ⟨_, hlast, hE⟩
    · exact .inr ⟨t, List.mem_append_left _ ht, hE⟩

/-- What every transition keeps but those of `L`, which lower it, is in the end what it was
exactly when none of those came. -/
theorem Run.kept_iff {f : σ → Nat} {L : Transition σ ℓ → Prop} (r : Run Step s₀ h s)
    (keeps : ∀ t ∈ h, ¬ L t → f t.target = f t.source)
    (lowers : ∀ t ∈ h, L t → f t.target < f t.source) :
    f s ≤ f s₀ ∧ (f s = f s₀ ↔ ∀ t ∈ h, ¬ L t) := by
  induction r with
  | start => exact ⟨Nat.le_refl _, by simp⟩
  | @snoc h s s' l r hstep ih =>
    have hlast : (⟨s, l, s'⟩ : Transition σ ℓ) ∈ h ++ [⟨s, l, s'⟩] :=
      List.mem_append_right _ (List.mem_singleton_self _)
    obtain ⟨hle, hiff⟩ := ih (fun t ht => keeps t (List.mem_append_left _ ht))
      fun t ht => lowers t (List.mem_append_left _ ht)
    rw [List.forall_mem_append, List.forall_mem_singleton, ← hiff]
    by_cases hL : L ⟨s, l, s'⟩
    · have hlt : f s' < f s := lowers _ hlast hL
      refine ⟨by omega, fun heq => ?_, fun hnone => absurd hL hnone.2⟩
      omega
    · have heq : f s' = f s := keeps _ hlast hL
      rw [heq]
      exact ⟨hle, fun h => ⟨h, hL⟩, And.left⟩

/-- A law that one step keeps exactly when it meets `G` holds all along a run
exactly when every transition of the run meets `G`. -/
theorem Run.invariant_iff_guarded {I : List (Transition σ ℓ) → σ → Prop}
    {G : List (Transition σ ℓ) → Transition σ ℓ → Prop} (start : I [] s₀)
    (step : ∀ {h s l s'}, Run Step s₀ h s → I h s → Step s l s' →
      (I (h ++ [⟨s, l, s'⟩]) s' ↔ G h ⟨s, l, s'⟩))
    (r : Run Step s₀ h s) :
    (∀ h₁ s₁, h₁ <+: h → Run Step s₀ h₁ s₁ → I h₁ s₁) ↔ Guarded G h := by
  constructor
  · intro hI before t hp
    obtain ⟨rb, hstep⟩ := r.of_prefix_snoc hp
    have hb := hI before t.source ((List.prefix_append _ _).trans hp) rb
    exact (step rb hb hstep).mp (hI _ _ hp (.snoc rb hstep))
  · intro hg h₁ s₁ hp r₁
    refine r₁.guarded_invariant (I := I) (G := G) start ?_ ?_
    · intro h s l s' r hI hstep ht
      exact (step r hI hstep).mpr ht
    · exact fun before t hb => hg before t (hb.trans hp)

end Rules

section Simulation

variable {σ : Type u} {ℓ : Type v} {τ : Type w} {μ : Type x}

/-- Two transitions with the same states, seen through `view`, and related labels. -/
def Mirrors (view : σ → τ) (R : Transition σ ℓ → μ → Prop) (t : Transition σ ℓ)
    (t' : Transition τ μ) : Prop :=
  t'.source = view t.source ∧ t'.target = view t.target ∧ R t t'.label

/-- A run whose steps are steps of another system, under an invariant, is a run of it. -/
theorem Run.simulates {Step : σ → ℓ → σ → Prop} {Step' : τ → μ → τ → Prop} {I : σ → Prop}
    {s₀ s : σ} {h : List (Transition σ ℓ)} (view : σ → τ) (R : Transition σ ℓ → μ → Prop)
    (start : I s₀) (keeps : ∀ {s l s'}, I s → Step s l s' → I s')
    (sim : ∀ {s l s'}, I s → Step s l s' → ∃ m, Step' (view s) m (view s') ∧ R ⟨s, l, s'⟩ m)
    (r : Run Step s₀ h s) :
    ∃ h', Run Step' (view s₀) h' (view s) ∧ List.Forall₂ (Mirrors view R) h h' := by
  suffices hall : I s ∧
      ∃ h', Run Step' (view s₀) h' (view s) ∧ List.Forall₂ (Mirrors view R) h h' from hall.2
  induction r with
  | start => exact ⟨start, [], .start, .nil⟩
  | snoc _ hstep ih =>
    obtain ⟨hI, h', r', hmirrors⟩ := ih
    obtain ⟨m, hstep', hR⟩ := sim hI hstep
    refine ⟨keeps hI hstep, _, .snoc r' hstep', ?_⟩
    exact List.rel_append hmirrors (.cons ⟨rfl, rfl, hR⟩ .nil)

theorem mirrored_of_mem {R : σ → τ → Prop} {l : List σ} {l' : List τ} {b : τ}
    (h : List.Forall₂ R l l') (hb : b ∈ l') : ∃ a ∈ l, R a b := by
  induction h with
  | nil => cases hb
  | @cons a _ _ _ hR _ ih =>
    rcases List.mem_cons.mp hb with rfl | hb
    · exact ⟨a, List.mem_cons_self, hR⟩
    · obtain ⟨a', ha', hR'⟩ := ih hb
      exact ⟨a', List.mem_cons_of_mem a ha', hR'⟩

end Simulation

section Execution

variable {σ : Type u} {α : Type v} {ω : Type w} (step : σ → α → ω × σ)

/-- The transition relation of a function that answers and moves. -/
def StepOf (s : σ) (l : α × ω) (s' : σ) : Prop := step s l.1 = (l.2, s')

def exec : σ → List α → σ
  | s, [] => s
  | s, a :: as => exec (step s a).2 as

def trace : σ → List α → List (Transition σ (α × ω))
  | _, [] => []
  | s, a :: as => ⟨s, (a, (step s a).1), (step s a).2⟩ :: trace (step s a).2 as

theorem map_trace (s : σ) (as : List α) :
    (trace step s as).map (fun t => t.label.1) = as := by
  induction as generalizing s with
  | nil => rfl
  | cons a as ih => simp [trace, ih]

theorem run_trace (s : σ) (as : List α) :
    Run (StepOf step) s (trace step s as) (exec step s as) := by
  induction as generalizing s with
  | nil => exact .start
  | cons a as ih =>
    have hone : Run (StepOf step) s [⟨s, (a, (step s a).1), (step s a).2⟩] (step s a).2 :=
      Run.single rfl
    exact hone.append (ih (step s a).2)

variable {step} {as : List α} {P : α → Prop} {s s₁ s₂ : σ}

/-- Inputs from `P` keep whatever one of them keeps. -/
theorem exec_keeps {I : σ → Prop} (keeps : ∀ s a, P a → I s → I (step s a).2)
    (hP : ∀ a ∈ as, P a) (hs : I s) : I (exec step s as) := by
  induction as generalizing s with
  | nil => exact hs
  | cons a as ih =>
    have hnext := keeps s a (hP a List.mem_cons_self) hs
    exact ih (fun b hb => hP b (List.mem_cons_of_mem a hb)) hnext

/-- Related states that stay related answer the same inputs alike just when every step meets
the condition under which its two answers are one. -/
theorem trace_labels_eq_iff {R : σ → σ → Prop} {C : σ → α → Prop}
    (agree : ∀ s₁ s₂ a, P a → R s₁ s₂ →
      ((step s₁ a).1 = (step s₂ a).1 ↔ C s₁ a) ∧ R (step s₁ a).2 (step s₂ a).2)
    (hP : ∀ a ∈ as, P a) (hR : R s₁ s₂) :
    (trace step s₁ as).map Transition.label = (trace step s₂ as).map Transition.label ↔
      ∀ t ∈ trace step s₁ as, C t.source t.label.1 := by
  induction as generalizing s₁ s₂ with
  | nil => simp [trace]
  | cons a as ih =>
    obtain ⟨hanswer, hnext⟩ := agree s₁ s₂ a (hP a List.mem_cons_self) hR
    have hrest := ih (fun b hb => hP b (List.mem_cons_of_mem a hb)) hnext
    simp only [trace, List.map_cons, List.cons.injEq, List.forall_mem_cons, hrest, ← hanswer,
      Prod.mk.injEq, true_and]

/-- Two runs on the same inputs answer alike if one step from related states does, and
leads to related states. -/
theorem trace_agree {R : σ → σ → Prop}
    (agree : ∀ s₁ s₂ a, P a → R s₁ s₂ →
      (step s₁ a).1 = (step s₂ a).1 ∧ R (step s₁ a).2 (step s₂ a).2)
    (hP : ∀ a ∈ as, P a) (hR : R s₁ s₂) :
    (trace step s₁ as).map Transition.label = (trace step s₂ as).map Transition.label := by
  refine (trace_labels_eq_iff (C := fun _ _ => True) ?_ hP hR).mpr fun _ _ => trivial
  intro s₁ s₂ a ha h
  obtain ⟨hanswer, hnext⟩ := agree s₁ s₂ a ha h
  exact ⟨iff_of_true hanswer trivial, hnext⟩

end Execution

section Attempts

variable {σ : Type u} {ℓ : Type v} (step : σ → ℓ → Option σ)

/-- The run on these labels, none where one of them is not possible. -/
def attempt : σ → List ℓ → Option (List (Transition σ ℓ) × σ)
  | s, [] => some ([], s)
  | s, l :: ls =>
    (step s l).bind fun s₁ => (attempt s₁ ls).map fun (h, s') => (⟨s, l, s₁⟩ :: h, s')

variable {step} {s s' : σ} {ls : List ℓ} {h : List (Transition σ ℓ)}

theorem run_of_attempt (ha : attempt step s ls = some (h, s')) :
    Run (fun s l s' => step s l = some s') s h s' := by
  induction ls generalizing s h with
  | nil =>
    cases ha
    exact .start
  | cons l ls ih =>
    obtain ⟨s₁, hstep, ha⟩ := Option.bind_eq_some_iff.mp ha
    obtain ⟨⟨h₁, s₂⟩, hrest, heq⟩ := Option.map_eq_some_iff.mp ha
    cases heq
    exact (Run.single hstep).append (ih hrest)

/-- A run on these labels with what can be checked of it. -/
theorem exists_run (step : σ → ℓ → Option σ) (s : σ) (ls : List ℓ)
    (check : List (Transition σ ℓ) → σ → Bool)
    (hc : (attempt step s ls).any (fun run => check run.1 run.2) = true) :
    ∃ h s', Run (fun s l s' => step s l = some s') s h s' ∧ check h s' = true := by
  obtain ⟨⟨h, s'⟩, ha, hcheck⟩ := (Option.any_eq_true _ _).mp hc
  exact ⟨h, s', run_of_attempt ha, hcheck⟩

end Attempts

end Runs
