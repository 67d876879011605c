import Mathlib.Data.ENat.Lattice
import StrictLambda.Proofs.Execution.Process

/-!
# How long processes run

A run may come to an end or not, so the number of its moves is a natural number or infinite.  The
move that halts is counted, and the state it halts in is kept as the last one of the trail.
-/

namespace StrictLambda
namespace Process

variable {State Result : Type} {process : Process State Result}

/-- The state after so many moves, or the one that the run has halted in by then. -/
def trail (process : Process State Result) : Nat -> State -> State
  | 0, state => state
  | count + 1, state =>
      match process state with
      | .again next => trail process count next
      | .halt _ => state

def spent (process : Process State Result) : Nat -> State -> Nat
  | 0, _ => 0
  | limit + 1, state =>
      match process state with
      | .again next => spent process limit next + 1
      | .halt _ => 1

open Classical in
noncomputable def duration (process : Process State Result) (state : State) : ℕ∞ :=
  if ends : exists limit, (process.run limit state).isSome then Nat.find ends else ⊤

/-!
## Durations
-/

theorem lt_duration_iff {count : Nat} {state : State} :
    (count : ℕ∞) < process.duration state ↔ process.run count state = none := by
  unfold duration
  split
  · next ends =>
      rw [ENat.natCast_lt_natCast, Nat.lt_find_iff]
      constructor
      · intro early
        exact Option.not_isSome_iff_eq_none.mp (early count (Nat.le_refl count))
      · intro paused smaller atMost ended
        rcases Option.isSome_iff_exists.mp ended with ⟨ending, ended⟩
        rw [run_mono ended atMost] at paused
        cases paused
  · next forever =>
      refine iff_of_true (ENat.natCast_lt_top count) ?_
      rw [← Option.not_isSome_iff_eq_none]
      exact fun ended => forever ⟨count, ended⟩

theorem duration_le_iff {count : Nat} {state : State} :
    process.duration state <= count ↔ exists ending, process.run count state = some ending := by
  rw [← not_lt, lt_duration_iff, ← Option.isSome_iff_exists, Option.isSome_iff_ne_none]

theorem eq_of_forall_lt_iff {first second : ℕ∞}
    (same : forall count : Nat, (count : ℕ∞) < first ↔ (count : ℕ∞) < second) :
    first = second := by
  apply ENat.eq_of_forall_natCast_le_iff
  intro count
  cases count with
  | zero => exact iff_of_true zero_le zero_le
  | succ count =>
      rw [Nat.cast_succ, ENat.add_one_le_iff (ENat.natCast_ne_top count),
        ENat.add_one_le_iff (ENat.natCast_ne_top count)]
      exact same count

theorem duration_of_again {state next : State} (moved : process state = .again next) :
    process.duration state = process.duration next + 1 := by
  apply eq_of_forall_lt_iff
  intro count
  rw [lt_duration_iff]
  cases count with
  | zero => exact iff_of_true rfl (by simp)
  | succ count =>
      rw [run, moved, Nat.cast_succ, ENat.add_lt_add_iff_right ENat.one_ne_top, lt_duration_iff]

theorem duration_of_halt {state : State} {ending : Except Failure Result}
    (moved : process state = .halt ending) : process.duration state = 1 := by
  apply eq_of_forall_lt_iff
  intro count
  rw [lt_duration_iff]
  cases count with
  | zero => exact iff_of_true rfl (by simp)
  | succ count =>
      rw [run, moved]
      refine iff_of_false (Option.some_ne_none ending) ?_
      simp

theorem duration_pos (state : State) : 0 < process.duration state :=
  lt_duration_iff.mpr rfl

theorem spent_eq_min (limit : Nat) (state : State) :
    (process.spent limit state : ℕ∞) = min (limit : ℕ∞) (process.duration state) := by
  induction limit generalizing state with
  | zero => simp [spent]
  | succ limit ih =>
      rw [spent]
      cases moved : process state with
      | again next =>
          rw [duration_of_again moved, Nat.cast_succ, Nat.cast_succ, ih next, min_add_add_right]
      | halt ending =>
          rw [duration_of_halt moved]
          simp

/-!
## Runs in two parts
-/

variable {count limit : Nat} {start : State}

theorem steps_trail (paused : process.run count start = none) :
    process.Steps count start (process.trail count start) := by
  induction count generalizing start with
  | zero => exact .refl start
  | succ count ih =>
      rw [run] at paused
      rw [trail]
      cases moved : process start with
      | again next =>
          rw [moved] at paused
          exact .step moved (ih paused)
      | halt ending =>
          rw [moved] at paused
          cases paused

theorem run_add (paused : process.run count start = none) :
    process.run (count + limit) start = process.run limit (process.trail count start) :=
  run_add_of_steps (steps_trail paused) limit

theorem trail_add (paused : process.run count start = none) :
    process.trail (count + limit) start = process.trail limit (process.trail count start) := by
  induction count generalizing start with
  | zero => rw [Nat.zero_add, trail]
  | succ count ih =>
      rw [run] at paused
      rw [Nat.add_right_comm, trail, trail]
      cases moved : process start with
      | again next =>
          rw [moved] at paused
          exact ih paused
      | halt ending =>
          rw [moved] at paused
          cases paused

theorem add_one_sub_add_one (limit : ℕ∞) (count : Nat) :
    limit + 1 - ((count : ℕ∞) + 1) = limit - count := by
  cases limit with
  | top => rfl
  | coe limit =>
      norm_cast
      exact congrArg Nat.cast (Nat.add_sub_add_right limit 1 count)

theorem duration_trail (paused : process.run count start = none) :
    process.duration (process.trail count start) = process.duration start - count := by
  induction count generalizing start with
  | zero => simp [trail]
  | succ count ih =>
      rw [run] at paused
      rw [trail]
      cases moved : process start with
      | again next =>
          rw [moved] at paused
          simp only
          rw [ih paused, duration_of_again moved, Nat.cast_succ, add_one_sub_add_one]
      | halt ending =>
          rw [moved] at paused
          cases paused

theorem spent_add (paused : process.run count start = none) :
    process.spent (count + limit) start =
      count + process.spent limit (process.trail count start) := by
  induction count generalizing start with
  | zero => rw [Nat.zero_add, Nat.zero_add, trail]
  | succ count ih =>
      rw [run] at paused
      rw [Nat.add_right_comm, spent, trail]
      cases moved : process start with
      | again next =>
          rw [moved] at paused
          simp only
          rw [ih paused, Nat.add_right_comm]
      | halt ending =>
          rw [moved] at paused
          cases paused

theorem add_of_ended {ending : Except Failure Result}
    (ended : process.run count start = some ending) (more : Nat) :
    process.trail (count + more) start = process.trail count start ∧
      process.spent (count + more) start = process.spent count start := by
  induction count generalizing start with
  | zero => cases ended
  | succ count ih =>
      rw [run] at ended
      rw [Nat.add_right_comm, trail, trail, spent, spent]
      cases moved : process start with
      | again next =>
          rw [moved] at ended
          rcases ih ended with ⟨trails, spends⟩
          exact ⟨trails, congrArg (· + 1) spends⟩
      | halt own => exact ⟨rfl, rfl⟩

theorem spent_of_paused (paused : process.run limit start = none) :
    process.spent limit start = limit := by
  have whole : (process.spent limit start : ℕ∞) = limit := by
    rw [spent_eq_min, min_eq_left (lt_duration_iff.mpr paused).le]
  exact_mod_cast whole

theorem spent_le (process : Process State Result) (limit : Nat) (start : State) :
    process.spent limit start <= limit := by
  have least : (process.spent limit start : ℕ∞) <= limit := by
    rw [spent_eq_min]
    exact min_le_left _ _
  exact_mod_cast least

theorem spent_suffices (process : Process State Result) (limit : Nat) (start : State) :
    process.run (process.spent limit start) start = process.run limit start ∧
      process.trail (process.spent limit start) start = process.trail limit start := by
  induction limit generalizing start with
  | zero => exact ⟨rfl, rfl⟩
  | succ limit ih =>
      rw [spent]
      cases moved : process start with
      | again next =>
          simp only [run, trail, moved]
          exact ih next
      | halt ending => simp only [run, trail, moved, and_self]

end Process
end StrictLambda
