import FastApiAuth.Library.Runs

/-!
# Walks on a ladder

States stand on numbered rungs, with a partial move up and a partial move down, and a move
down undoes the move up before it. Of a walk only its start, its lowest rung and the rung
where it ends matter: it is a descent to the lowest rung and a climb from there.
-/

namespace Ladders

set_option autoImplicit false

open Runs

universe u

inductive Move where
  | up
  | down

/-- The lowest rung so far and the rung after one more move, between the rungs 0 and `top`. -/
def courseStep (top : Nat) : Nat × Nat → Move → Option (Nat × Nat)
  | (low, k), .up => if k < top then some (low, k + 1) else none
  | (low, k), .down => if 0 < k then some (min low (k - 1), k - 1) else none

/-- The lowest and the last rung of a series of moves from rung `k`. -/
def course (top k : Nat) (moves : List Move) : Option (Nat × Nat) :=
  moves.foldlM (courseStep top) (k, k)

theorem course_snoc {top k : Nat} {moves : List Move} {move : Move} :
    course top k (moves ++ [move]) = (course top k moves).bind fun p => courseStep top p move := by
  simp [course, List.foldlM_append]

theorem course_bounds {top k low last : Nat} {moves : List Move} (hk : k ≤ top)
    (h : course top k moves = some (low, last)) : low ≤ k ∧ low ≤ last ∧ last ≤ top := by
  induction moves using List.reverseRecOn generalizing low last with
  | nil =>
    cases h
    exact ⟨le_rfl, le_rfl, hk⟩
  | append_singleton moves move ih =>
    rw [course_snoc] at h
    obtain ⟨⟨low', last'⟩, hbefore, hstep⟩ := Option.bind_eq_some_iff.mp h
    obtain ⟨hstart, hle, htop⟩ := ih hbefore
    cases move with
    | up =>
      obtain ⟨hlt, hnext⟩ := Option.ite_none_right_eq_some.mp hstep
      cases hnext
      exact ⟨hstart, by omega, hlt⟩
    | down =>
      obtain ⟨_, hnext⟩ := Option.ite_none_right_eq_some.mp hstep
      cases hnext
      exact ⟨by omega, by omega, by omega⟩

structure Ladder (σ : Type u) where
  rung : σ → Nat
  up : σ → Option σ
  down : σ → Option σ
  rung_up : ∀ {x y}, up x = some y → rung y = rung x + 1
  rung_down : ∀ {x y}, down x = some y → rung x = rung y + 1
  down_up : ∀ {x y}, up x = some y → down y = some x

namespace Ladder

variable {σ : Type u} (L : Ladder σ)

def move (x : σ) : Move → Option σ
  | .up => L.up x
  | .down => L.down x

def Step (x : σ) (m : Move) (y : σ) : Prop := L.move x m = some y

def descend : Nat → σ → Option σ
  | 0, x => some x
  | n + 1, x => (descend n x).bind L.down

def climb : Nat → σ → Option σ
  | 0, x => some x
  | n + 1, x => (climb n x).bind L.up

/-- The state after a series of moves, if each of them is possible. -/
def follow (x : σ) (moves : List Move) : Option σ := moves.foldlM L.move x

/-- The lowest rung of the states of a walk from `x`. -/
def lowest (x : σ) (h : List (Transition σ Move)) : Nat :=
  h.foldl (fun low t => min low (L.rung t.target)) (L.rung x)

variable {L} {x y z : σ} {h : List (Transition σ Move)} {n m low : Nat}

theorem lowest_snoc (t : Transition σ Move) :
    L.lowest x (h ++ [t]) = min (L.lowest x h) (L.rung t.target) := by
  simp [lowest]

theorem descend_succ : L.descend (n + 1) x = some z ↔
    ∃ w, L.descend n x = some w ∧ L.down w = some z :=
  Option.bind_eq_some_iff

theorem climb_succ : L.climb (n + 1) x = some y ↔
    ∃ w, L.climb n x = some w ∧ L.up w = some y :=
  Option.bind_eq_some_iff

theorem climb_succ_left : L.climb (n + 1) x = (L.up x).bind (L.climb n) := by
  induction n with
  | zero =>
    cases hup : L.up x with
    | none => simp [climb, hup]
    | some y => simp [climb, hup]
  | succ n ih =>
    rw [climb, ih, Option.bind_assoc]
    rfl

theorem rung_descend (hd : L.descend n x = some z) : L.rung x = L.rung z + n := by
  induction n generalizing z with
  | zero =>
    cases hd
    rfl
  | succ n ih =>
    obtain ⟨w, hw, hdown⟩ := descend_succ.mp hd
    have hx := ih hw
    have hstep := L.rung_down hdown
    omega

theorem rung_climb (hc : L.climb m z = some y) : L.rung y = L.rung z + m := by
  induction m generalizing y with
  | zero =>
    cases hc
    rfl
  | succ m ih =>
    obtain ⟨w, hw, hup⟩ := climb_succ.mp hc
    have hy := ih hw
    have hstep := L.rung_up hup
    omega

/-- A walk is a descent to its lowest rung and a climb from there. -/
theorem of_walk (r : Run L.Step x h y) :
    ∃ z n m, L.rung z = L.lowest x h ∧ L.descend n x = some z ∧ L.climb m z = some y := by
  induction r with
  | start => exact ⟨x, 0, 0, rfl, rfl, rfl⟩
  | @snoc h y y' move r hstep ih =>
    obtain ⟨z, n, m, hz, hdescend, hclimb⟩ := ih
    have hy := rung_climb hclimb
    rw [lowest_snoc]
    cases move with
    | up =>
      have hrung := L.rung_up hstep
      refine ⟨z, n, m + 1, ?_, hdescend, climb_succ.mpr ⟨y, hclimb, hstep⟩⟩
      dsimp only
      omega
    | down =>
      have hrung := L.rung_down hstep
      cases m with
      | zero =>
        cases hclimb
        refine ⟨y', n + 1, 0, ?_, descend_succ.mpr ⟨y, hdescend, hstep⟩, rfl⟩
        dsimp only
        omega
      | succ m =>
        obtain ⟨w, hw, hup⟩ := climb_succ.mp hclimb
        obtain rfl : w = y' := Option.some.inj ((L.down_up hup).symm.trans hstep)
        refine ⟨z, n, m, ?_, hdescend, hw⟩
        dsimp only
        omega

theorem walk_down (hd : L.descend n x = some z) :
    ∃ h, Run L.Step x h z ∧ L.lowest x h = L.rung z := by
  induction n generalizing z with
  | zero =>
    cases hd
    exact ⟨[], .start, rfl⟩
  | succ n ih =>
    obtain ⟨w, hw, hdown⟩ := descend_succ.mp hd
    obtain ⟨h, r, hlow⟩ := ih hw
    have hrung := L.rung_down hdown
    have hstep : L.Step w .down z := hdown
    refine ⟨_, r.snoc hstep, ?_⟩
    rw [lowest_snoc]
    dsimp only
    omega

theorem walk_up (r : Run L.Step x h z) (hlow : L.lowest x h = L.rung z)
    (hc : L.climb m z = some y) : ∃ h', Run L.Step x h' y ∧ L.lowest x h' = L.rung z := by
  induction m generalizing y with
  | zero =>
    cases hc
    exact ⟨h, r, hlow⟩
  | succ m ih =>
    obtain ⟨w, hw, hup⟩ := climb_succ.mp hc
    obtain ⟨h', r', hlow'⟩ := ih hw
    have hrung := L.rung_up hup
    have hwz := rung_climb hw
    have hstep : L.Step w .up y := hup
    refine ⟨_, r'.snoc hstep, ?_⟩
    rw [lowest_snoc]
    dsimp only
    omega

/-- What the walks between two rungs reach that go down to `low` and no further. -/
theorem walk_iff (hx : L.rung x = low + n) (hy : L.rung y = low + m) :
    (∃ h, Run L.Step x h y ∧ L.lowest x h = low) ↔
      (L.descend n x).bind (L.climb m) = some y := by
  rw [Option.bind_eq_some_iff]
  constructor
  · rintro ⟨h, r, hlow⟩
    obtain ⟨z, n', m', hz, hdescend, hclimb⟩ := of_walk r
    have hn := rung_descend hdescend
    have hm := rung_climb hclimb
    obtain rfl : n' = n := by omega
    obtain rfl : m' = m := by omega
    exact ⟨z, hdescend, hclimb⟩
  · rintro ⟨z, hdescend, hclimb⟩
    obtain ⟨h, r, hlow⟩ := walk_down hdescend
    obtain ⟨h', r', hlow'⟩ := walk_up r hlow hclimb
    have hn := rung_descend hdescend
    exact ⟨h', r', by omega⟩

theorem follow_snoc {moves : List Move} {move : Move} :
    L.follow x (moves ++ [move]) = (L.follow x moves).bind fun y => L.move y move := by
  simp [follow, List.foldlM_append]

theorem follow_iff {moves : List Move} : L.follow x moves = some y ↔
    ∃ h, Run L.Step x h y ∧ h.map Transition.label = moves := by
  constructor
  · intro hfollow
    induction moves using List.reverseRecOn generalizing y with
    | nil =>
      cases hfollow
      exact ⟨[], .start, rfl⟩
    | append_singleton moves move ih =>
      rw [follow_snoc] at hfollow
      obtain ⟨w, hw, hstep⟩ := Option.bind_eq_some_iff.mp hfollow
      obtain ⟨h, r, rfl⟩ := ih hw
      exact ⟨_, r.snoc hstep, by simp⟩
  · rintro ⟨h, r, rfl⟩
    induction r with
    | start => rfl
    | snoc r hstep ih =>
      rw [List.map_append, List.map_singleton, follow_snoc, ih]
      exact hstep

/-- Any series of moves between the rungs 0 and `top` does what the descent to its lowest rung
and the climb from there do, and fails where they fail. -/
theorem follow_eq {top last : Nat} {moves : List Move} (htop : L.rung x ≤ top)
    (hup : ∀ y, L.rung y < top → ∃ z, L.up y = some z)
    (hcourse : course top (L.rung x) moves = some (low, last)) :
    L.follow x moves = (L.descend (L.rung x - low) x).bind (L.climb (last - low)) := by
  induction moves using List.reverseRecOn generalizing low last with
  | nil =>
    cases hcourse
    simp [follow, descend, climb]
  | append_singleton moves move ih =>
    rw [course_snoc] at hcourse
    obtain ⟨⟨low', last'⟩, hbefore, hstep⟩ := Option.bind_eq_some_iff.mp hcourse
    obtain ⟨hstart, hle, hlast⟩ := course_bounds htop hbefore
    rw [follow_snoc, ih hbefore, Option.bind_assoc]
    cases move with
    | up =>
      obtain ⟨_, hnext⟩ := Option.ite_none_right_eq_some.mp hstep
      cases hnext
      rw [Nat.sub_add_comm hle]
      rfl
    | down =>
      obtain ⟨hpos, hnext⟩ := Option.ite_none_right_eq_some.mp hstep
      cases hnext
      rcases hle.lt_or_eq with hlt | rfl
      · -- the climb stands above the lowest rung, and its last move is taken back
        have hlow : min low' (last' - 1) = low' := by omega
        rw [hlow]
        apply Option.bind_congr
        intro z hz
        have hrung := rung_descend hz
        obtain ⟨n, hn⟩ : ∃ n, last' - low' = n + 1 := ⟨last' - low' - 1, by omega⟩
        have hn' : last' - 1 - low' = n := by omega
        rw [hn, hn', climb, Option.bind_assoc]
        cases hclimb : L.climb n z with
        | none => rfl
        | some w =>
          have hw := rung_climb hclimb
          obtain ⟨w', hw'⟩ := hup w (by omega)
          change (L.up w).bind L.down = some w
          rw [hw']
          exact L.down_up hw'
      · -- the lowest rung is left downwards
        have hlow : min low' (low' - 1) = low' - 1 := by omega
        have hnext : L.rung x - (low' - 1) = L.rung x - low' + 1 := by omega
        rw [hlow, hnext, Nat.sub_self, Nat.sub_self, descend, Option.bind_assoc]
        apply Option.bind_congr
        intro z _
        change L.down z = (L.down z).bind some
        cases L.down z <;> rfl

end Ladder

end Ladders
