import FastApiAuth.Library.Processes

/-!
# Processes that seem to do their work in one step

A process works through its job statement by statement while others move. Its job counts
as atomic if one of its own steps does to the shared state what the job does at once,
or if it gives up and none does. `run_linearizes` builds the run of atomic jobs.
-/

namespace Processes

set_option autoImplicit false

open Runs

universe u v w x y

variable {ι : Type u} {σ : Type v} {pc : Type w} {ε : Type x} {ω : Type y} [DecidableEq ι]

/-- How far a process is that does its whole job in one step. -/
inductive Fate (ω : Type y) where
  | pending
  | took (answer : ω)
  | gaveUp

/-- The job at once, or not at all. -/
inductive Atomically (job : ι → σ → ω × σ) (i : ι) : σ → Fate ω → Unit → σ → Fate ω → Prop where
  | takes {s : σ} : Atomically job i s .pending () (job i s).2 (.took (job i s).1)
  | givesUp {s : σ} : Atomically job i s .pending () s .gaveUp

/-- What a step of a process does to its fate. -/
inductive Move (job : ι → σ → ω × σ) (i : ι) (s s' : σ) (f f' : Fate ω) : Prop where
  | stays : s' = s → f' = f → Move job i s s' f f'
  | takes : f = .pending → s' = (job i s).2 → f' = .took (job i s).1 → Move job i s s' f f'
  | givesUp : f = .pending → s' = s → f' = .gaveUp → Move job i s s' f f'

/-- `Rel i s l f` says that a process `i` in the local state `l` has the fate `f`. -/
structure Linearizes (procStep : ι → σ → pc → ε → σ → pc → Prop) (envStep : σ → σ → Prop)
    (job : ι → σ → ω × σ) (I : σ → Prop) (Rel : ι → σ → pc → Fate ω → Prop) : Prop where
  keeps : ∀ {i s l e s' l'}, I s → procStep i s l e s' l' → I s'
  keeps_around : ∀ {s s'}, I s → envStep s s' → I s'
  stable : ∀ {i j s l e s' l' m f}, I s → procStep i s l e s' l' → Rel j s m f → Rel j s' m f
  stable_around : ∀ {j s s' m f}, I s → envStep s s' → Rel j s m f → Rel j s' m f
  moves : ∀ {i s l e s' l' f}, I s → Rel i s l f → procStep i s l e s' l' →
    ∃ f', Move job i s s' f f' ∧ Rel i s' l' f'

/-- Who moves in a transition, and what becomes of the shared state. -/
def mover {δ : Type w} {η : Type x} (t : Transition (Config ι σ δ) (Label ι η)) :
    Option ι × σ × σ :=
  match t.label with
  | .process i _ => (some i, t.source.shared, t.target.shared)
  | .surroundings => (none, t.source.shared, t.target.shared)

section Rules

variable {procStep : ι → σ → pc → ε → σ → pc → Prop} {envStep : σ → σ → Prop}
variable {job : ι → σ → ω × σ} {I : σ → Prop} {Rel : ι → σ → pc → Fate ω → Prop}

omit [DecidableEq ι] in
theorem map_snoc_sublist {δ : Type w} {η : Type x} {α : Type y}
    {as : List α} {f : Transition (Config ι σ δ) (Label ι η) → α}
    {h : List (Transition (Config ι σ δ) (Label ι η))}
    {t : Transition (Config ι σ δ) (Label ι η)} (hsub : as.Sublist (h.map f)) :
    as.Sublist ((h ++ [t]).map f) := by
  rw [List.map_append]
  exact hsub.trans (List.sublist_append_left _ _)

/-- Every interleaving of the steps is a run of atomic jobs on the same shared states: each
job is done at one of the steps of its own process. -/
theorem run_linearizes (hlin : Linearizes procStep envStep job I Rel)
    {c₀ c : Config ι σ pc} {h : List (Transition (Config ι σ pc) (Label ι ε))}
    (hI : I c₀.shared) (hstart : ∀ i, Rel i c₀.shared (c₀.proc i) .pending)
    (r : Run (Step procStep envStep) c₀ h c) :
    I c.shared ∧ ∃ h' fates, Run (Step (Atomically job) envStep) ⟨c₀.shared, fun _ => .pending⟩ h'
        ⟨c.shared, fates⟩ ∧
      (h'.map mover).Sublist (h.map mover) ∧ ∀ i, Rel i c.shared (c.proc i) (fates i) := by
  induction r with
  | start => exact ⟨hI, [], fun _ => .pending, .start, List.Sublist.refl _, hstart⟩
  | @snoc h c c' l r hstep ih =>
    obtain ⟨hc, h', fates, r', hsub, hrel⟩ := ih
    cases hstep with
    | @process i e s' l' hproc =>
      refine ⟨hlin.keeps hc hproc, ?_⟩
      obtain ⟨f', hmove, hrel'⟩ := hlin.moves hc (hrel i) hproc
      have hfates : ∀ j, Rel j s' (Function.update c.proc i l' j)
          (Function.update fates i f' j) := by
        intro j
        by_cases hj : j = i
        · subst hj
          simpa using hrel'
        · rw [Function.update_of_ne hj, Function.update_of_ne hj]
          exact hlin.stable hc hproc (hrel j)
      cases hmove with
      | stays hs hf =>
        subst hs
        subst hf
        rw [Function.update_eq_self] at hfates
        exact ⟨h', fates, r', map_snoc_sublist hsub, hfates⟩
      | takes hf hs hf' =>
        subst hs
        subst hf'
        have hone : Step (Atomically job) envStep ⟨c.shared, fates⟩ (.process i ())
            ⟨(job i c.shared).2, Function.update fates i (.took (job i c.shared).1)⟩ := by
          apply Step.process
          change Atomically job i c.shared (fates i) () _ _
          rw [hf]
          exact .takes
        refine ⟨_, _, r'.snoc hone, ?_, hfates⟩
        rw [List.map_append, List.map_append]
        exact hsub.append (List.Sublist.refl _)
      | givesUp hf hs hf' =>
        subst hs
        subst hf'
        have hone : Step (Atomically job) envStep ⟨c.shared, fates⟩ (.process i ())
            ⟨c.shared, Function.update fates i .gaveUp⟩ := by
          apply Step.process
          change Atomically job i c.shared (fates i) () _ _
          rw [hf]
          exact .givesUp
        refine ⟨_, _, r'.snoc hone, ?_, hfates⟩
        rw [List.map_append, List.map_append]
        exact hsub.append (List.Sublist.refl _)
    | @surroundings s' henv =>
      refine ⟨hlin.keeps_around hc henv, _, fates, r'.snoc (.surroundings henv), ?_, ?_⟩
      · rw [List.map_append, List.map_append]
        exact hsub.append (List.Sublist.refl _)
      · exact fun i => hlin.stable_around hc henv (hrel i)

end Rules

end Processes
