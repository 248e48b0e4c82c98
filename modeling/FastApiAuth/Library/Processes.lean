import FastApiAuth.Library.Runs
import Mathlib.Logic.Function.Basic

/-!
# Interleaved processes over shared state

Any number of processes, each with a local state, take one step at a time on a
shared state; the surroundings may also move the shared state. Every order of
steps is a run of `Step`. A process that has no step left, or never takes one
again, stands for one that has finished or died.
-/

namespace Processes

set_option autoImplicit false

open Runs

universe u v w x

variable {ι : Type u} {σ : Type v} {pc : Type w} {ε : Type x} [DecidableEq ι]

/-- The shared state and the local state of every process. -/
structure Config (ι : Type u) (σ : Type v) (pc : Type w) where
  shared : σ
  proc : ι → pc

inductive Label (ι : Type u) (ε : Type x) where
  | process (i : ι) (event : ε)
  | surroundings

/-- One process, or the surroundings, move. -/
inductive Step (procStep : ι → σ → pc → ε → σ → pc → Prop) (envStep : σ → σ → Prop) :
    Config ι σ pc → Label ι ε → Config ι σ pc → Prop where
  | process {c : Config ι σ pc} {i : ι} {e : ε} {s' : σ} {l' : pc} :
      procStep i c.shared (c.proc i) e s' l' →
      Step procStep envStep c (.process i e) ⟨s', Function.update c.proc i l'⟩
  | surroundings {c : Config ι σ pc} {s' : σ} :
      envStep c.shared s' → Step procStep envStep c .surroundings ⟨s', c.proc⟩

variable {procStep : ι → σ → pc → ε → σ → pc → Prop} {envStep : σ → σ → Prop}

theorem Step.of_process {c c' : Config ι σ pc} {i : ι} {e : ε}
    (h : Step procStep envStep c (.process i e) c') :
    procStep i c.shared (c.proc i) e c'.shared (c'.proc i) ∧ ∀ j ≠ i, c'.proc j = c.proc j := by
  cases h with
  | process h => exact ⟨by simpa using h, fun j hj => by simp [hj]⟩

/-- The process has made a step out of these states. -/
def Stood (h : List (Transition (Config ι σ pc) (Label ι ε))) (i : ι) (s : σ) (l : pc) : Prop :=
  ∃ t ∈ h, (∃ e, t.label = .process i e) ∧ t.source.shared = s ∧ t.source.proc i = l

/-- In a run, every step may be taken to know that the run has it. -/
theorem run_stood {c₀ c : Config ι σ pc} {h H : List (Transition (Config ι σ pc) (Label ι ε))}
    (r : Run (Step procStep envStep) c₀ h c) (hsub : ∀ t ∈ h, t ∈ H) :
    Run (Step (fun i s l e s' l' => procStep i s l e s' l' ∧ Stood H i s l) envStep) c₀ h c := by
  induction r with
  | start => exact .start
  | @snoc h c c' l r hstep ih =>
    have hmem : ⟨c, l, c'⟩ ∈ H := hsub _ (by simp)
    apply (ih fun t ht => hsub t (List.mem_append_left _ ht)).snoc
    cases hstep with
    | process hproc => exact .process ⟨hproc, _, hmem, ⟨_, rfl⟩, rfl, rfl⟩
    | surroundings henv => exact .surroundings henv

/-- A property of local states that no step takes away, once a process has it, stays. -/
theorem Step.local_stable {P : pc → Prop}
    (hP : ∀ {i s l e s' l'}, P l → procStep i s l e s' l' → P l')
    {c c' : Config ι σ pc} {l : Label ι ε} (h : Step procStep envStep c l c') {j : ι}
    (hj : P (c.proc j)) : P (c'.proc j) := by
  cases h with
  | @process i _ _ _ h =>
    by_cases hji : j = i
    · subst hji
      simpa using hP hj h
    · simpa [hji] using hj
  | surroundings _ => exact hj

/-- A process whose local state has changed in some respect has made the step. -/
theorem Step.mover {P : pc → Prop} {c c' : Config ι σ pc} {l : Label ι ε}
    (h : Step procStep envStep c l c') {j : ι} (hbefore : ¬ P (c.proc j)) (hafter : P (c'.proc j)) :
    ∃ e, l = .process j e ∧ procStep j c.shared (c.proc j) e c'.shared (c'.proc j) := by
  cases h with
  | @process i e s' l' h =>
    by_cases hji : j = i
    · subst hji
      exact ⟨e, rfl, by simpa using h⟩
    · exact absurd (by simpa [hji] using hafter) hbefore
  | surroundings _ => exact absurd hafter hbefore

/-- At most one process has a local state with `P`, the critical section, as long as
none enters while another is inside. -/
theorem mutual_exclusion {P : pc → Prop} {c₀ c : Config ι σ pc}
    {h : List (Transition (Config ι σ pc) (Label ι ε))}
    (start : ∀ i, ¬ P (c₀.proc i))
    (entry : ∀ t ∈ h, ∀ i, ¬ P (t.source.proc i) → P (t.target.proc i) →
      ∀ j ≠ i, ¬ P (t.source.proc j))
    (r : Run (Step procStep envStep) c₀ h c) :
    ∀ i j, P (c.proc i) → P (c.proc j) → i = j := by
  induction r with
  | start => exact fun i _ hi => absurd hi (start i)
  | @snoc h c c' l r hstep ih =>
    have ih := ih (fun t ht => entry t (List.mem_append_left _ ht))
    have hentry := entry ⟨c, l, c'⟩ (by simp)
    intro i j hi hj
    cases hstep with
    | @process k _ _ l' hk =>
      -- only `k` has moved; the others stand where `ih` has them
      have other : ∀ m, m ≠ k → P (Function.update c.proc k l' m) →
          P (c.proc m) := fun m hm h => by simpa [hm] using h
      have blocked : ∀ m, m ≠ k → P (Function.update c.proc k l' k) →
          P (c.proc m) → P (c.proc k) := by
        intro m hm hk' hm'
        by_contra hnot
        exact hentry k hnot hk' m hm hm'
      by_cases hik : i = k
      · by_cases hjk : j = k
        · rw [hik, hjk]
        · have hj' := other j hjk hj
          rw [hik] at hi ⊢
          exact ih k j (blocked j hjk hi hj') hj'
      · have hi' := other i hik hi
        by_cases hjk : j = k
        · rw [hjk] at hj ⊢
          exact ih i k hi' (blocked i hik hj hi')
        · exact ih i j hi' (other j hjk hj)
    | surroundings _ => exact ih i j hi hj

section Schedules

variable (act : ι → ε → σ → pc → σ × pc)

/-- The steps of processes that compute what they do next. -/
def Computes (i : ι) (s : σ) (l : pc) (e : ε) (s' : σ) (l' : pc) : Prop := act i e s l = (s', l')

def Config.next (c : Config ι σ pc) (i : ι) (e : ε) : Config ι σ pc :=
  ⟨(act i e c.shared (c.proc i)).1, Function.update c.proc i (act i e c.shared (c.proc i)).2⟩

/-- The processes move in the order of the schedule. -/
def play : Config ι σ pc → List (ι × ε) → Config ι σ pc
  | c, [] => c
  | c, (i, e) :: schedule => play (c.next act i e) schedule

def playTrace : Config ι σ pc → List (ι × ε) → List (Transition (Config ι σ pc) (Label ι ε))
  | _, [] => []
  | c, (i, e) :: schedule =>
    ⟨c, .process i e, c.next act i e⟩ :: playTrace (c.next act i e) schedule

theorem run_play (c : Config ι σ pc) (schedule : List (ι × ε)) :
    Run (Step (Computes act) envStep) c (playTrace act c schedule) (play act c schedule) := by
  induction schedule generalizing c with
  | nil => exact .start
  | cons p schedule ih =>
    have hone : Run (Step (Computes act) envStep) c
        [⟨c, .process p.1 p.2, c.next act p.1 p.2⟩] (c.next act p.1 p.2) :=
      Run.single (.process rfl)
    exact hone.append (ih (c.next act p.1 p.2))

end Schedules

end Processes
