import StrictLambda.Proofs.Execution.Process

/-!
# Expansions

One process expands another if it makes at least one move for each move of the other one, and comes
to the same ending after some more moves of its own.  As every state has one way to go on, endings
can then be carried both ways.
-/

namespace StrictLambda
namespace Process

variable {State Result Other Shown : Type} {process : Process State Result}
  {follower : Process Other Shown}

structure Expansion (process : Process State Result) (follower : Process Other Shown)
    (Related : State -> Other -> Prop) (shown : Result -> Shown) : Prop where
  again : forall {state next : State} {other : Other}, Related state other ->
    process state = .again next ->
      exists count after, follower.Steps (count + 1) other after ∧ Related next after
  halt : forall {state : State} {other : Other} {ending : Except Failure Result},
    Related state other -> process state = .halt ending ->
      exists count last, follower.Steps count other last ∧
        follower last = .halt (ending.map shown)

theorem lt_of_steps_of_run {count limit : Nat} {start last : Other}
    {ending : Except Failure Shown} (steps : follower.Steps count start last)
    (ended : follower.run limit start = some ending) : count < limit := by
  apply Nat.lt_of_not_le
  intro atMost
  have late := run_mono ended atMost
  rw [run_eq_none_iff.mpr ⟨last, steps⟩] at late
  cases late

namespace Expansion

variable {Related : State -> Other -> Prop} {shown : Result -> Shown} {state : State}
  {other : Other}

theorem ends_of_ends (expansion : Expansion process follower Related shown)
    (related : Related state other) {limit : Nat} {ending : Except Failure Result}
    (ended : process.run limit state = some ending) :
    exists bound, follower.run bound other = some (ending.map shown) := by
  induction limit generalizing state other with
  | zero => cases ended
  | succ limit ih =>
      rw [run] at ended
      cases moved : process state with
      | again next =>
          rw [moved] at ended
          rcases expansion.again related moved with ⟨count, after, steps, stays⟩
          rcases ih stays ended with ⟨bound, follows⟩
          refine ⟨count + 1 + bound, ?_⟩
          rw [run_add_of_steps steps]
          exact follows
      | halt own =>
          rw [moved] at ended
          cases ended
          rcases expansion.halt related moved with ⟨count, last, steps, halted⟩
          exact ⟨count + 1, run_of_halt steps halted⟩

theorem ends_back (expansion : Expansion process follower Related shown)
    (related : Related state other) {bound : Nat} {shownEnding : Except Failure Shown}
    (ended : follower.run bound other = some shownEnding) :
    exists limit ending, process.run limit state = some ending ∧
      shownEnding = ending.map shown := by
  -- Each move of the first process leaves fewer moves to the end of the follower.
  induction bound using Nat.strongRecOn generalizing state other with
  | ind bound ih =>
      cases moved : process state with
      | again next =>
          rcases expansion.again related moved with ⟨count, after, steps, stays⟩
          have within := lt_of_steps_of_run steps ended
          have split : bound = count + 1 + (bound - (count + 1)) := by omega
          rw [split, run_add_of_steps steps] at ended
          rcases ih _ (by omega) stays ended with ⟨limit, ending, ends, shows⟩
          refine ⟨limit + 1, ending, ?_, shows⟩
          rw [run, moved]
          exact ends
      | halt own =>
          rcases expansion.halt related moved with ⟨count, last, steps, halted⟩
          refine ⟨1, own, ?_, run_unique ended (run_of_halt steps halted)⟩
          rw [run, moved]

theorem ends_iff (expansion : Expansion process follower Related shown)
    (related : Related state other) (shownEnding : Except Failure Shown) :
    (exists bound, follower.run bound other = some shownEnding) ↔
      exists limit ending, process.run limit state = some ending ∧
        shownEnding = ending.map shown := by
  constructor
  · rintro ⟨bound, ended⟩
    exact expansion.ends_back related ended
  · rintro ⟨limit, ending, ended, rfl⟩
    exact expansion.ends_of_ends related ended

theorem runs_forever_iff (expansion : Expansion process follower Related shown)
    (related : Related state other) :
    (forall bound, follower.run bound other = none) ↔
      forall limit, process.run limit state = none := by
  have endings := expansion.ends_iff related
  constructor
  · intro forever limit
    cases ended : process.run limit state with
    | none => rfl
    | some ending =>
        rcases (endings _).mpr ⟨limit, ending, ended, rfl⟩ with ⟨bound, follows⟩
        rw [forever bound] at follows
        cases follows
  · intro forever bound
    cases ended : follower.run bound other with
    | none => rfl
    | some shownEnding =>
        rcases (endings shownEnding).mp ⟨bound, ended⟩ with ⟨limit, ending, ends, _⟩
        rw [forever limit] at ends
        cases ends

end Expansion
end Process
end StrictLambda
