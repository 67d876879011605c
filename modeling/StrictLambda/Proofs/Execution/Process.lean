import StrictLambda.Failure

/-!
# Processes

The interpreters of this library have one thing in common: a state either leads to exactly one other
state or ends the run, with a result or with a failure.  Whether and how a run ends can therefore be
said in the same words for all of them, and one argument carries endings from one interpreter to
another.
-/

namespace StrictLambda

inductive Move (State Result : Type) where
  | again (state : State)
  | halt (ending : Except Failure Result)

abbrev Process (State Result : Type) :=
  State -> Move State Result

namespace Process

variable {State Result : Type}

def run (process : Process State Result) : Nat -> State -> Option (Except Failure Result)
  | 0, _ => none
  | limit + 1, state =>
      match process state with
      | .again after => run process limit after
      | .halt ending => some ending

inductive Steps (process : Process State Result) : Nat -> State -> State -> Prop where
  | refl (state : State) : Steps process 0 state state
  | step {count : Nat} {state next last : State} (first : process state = .again next)
      (rest : Steps process count next last) : Steps process (count + 1) state last

variable {process : Process State Result}

theorem Steps.single {state next : State} (first : process state = .again next) :
    Steps process 1 state next :=
  .step first (.refl next)

theorem Steps.trans {first second : Nat} {start middle last : State}
    (before : Steps process first start middle) (after : Steps process second middle last) :
    Steps process (first + second) start last := by
  induction before with
  | refl state =>
      rw [Nat.zero_add]
      exact after
  | step first _ ih =>
      rw [Nat.add_right_comm]
      exact .step first (ih after)

theorem Steps.invariant {Kept : State -> Prop}
    (again : forall state next, process state = .again next -> Kept state -> Kept next)
    {count : Nat} {start last : State} (steps : Steps process count start last)
    (kept : Kept start) : Kept last := by
  induction steps with
  | refl state => exact kept
  | step first _ ih => exact ih (again _ _ first kept)

/-!
## Runs and moves
-/

theorem run_add_of_steps {count : Nat} {start last : State}
    (steps : Steps process count start last) (limit : Nat) :
    process.run (count + limit) start = process.run limit last := by
  induction steps with
  | refl state => rw [Nat.zero_add]
  | step first _ ih =>
      rw [Nat.add_right_comm, run, first]
      exact ih

theorem run_of_halt {count : Nat} {start last : State} {ending : Except Failure Result}
    (steps : Steps process count start last) (halted : process last = .halt ending) :
    process.run (count + 1) start = some ending := by
  rw [run_add_of_steps steps, run, halted]

theorem steps_of_run_eq_some {limit : Nat} {start : State} {ending : Except Failure Result}
    (ended : process.run limit start = some ending) :
    exists count last, Steps process count start last ∧ process last = .halt ending := by
  induction limit generalizing start with
  | zero => cases ended
  | succ limit ih =>
      rw [run] at ended
      cases moved : process start with
      | again next =>
          rw [moved] at ended
          rcases ih ended with ⟨count, last, steps, halted⟩
          exact ⟨count + 1, last, .step moved steps, halted⟩
      | halt own =>
          rw [moved] at ended
          cases ended
          exact ⟨0, start, .refl start, moved⟩

theorem run_eq_none_iff {limit : Nat} {start : State} :
    process.run limit start = none ↔ exists last, Steps process limit start last := by
  constructor
  · intro paused
    induction limit generalizing start with
    | zero => exact ⟨start, .refl start⟩
    | succ limit ih =>
        rw [run] at paused
        cases moved : process start with
        | again next =>
            rw [moved] at paused
            rcases ih paused with ⟨last, steps⟩
            exact ⟨last, .step moved steps⟩
        | halt ending =>
            rw [moved] at paused
            cases paused
  · intro reached
    rcases reached with ⟨last, steps⟩
    have added := run_add_of_steps steps 0
    rw [Nat.add_zero] at added
    exact added

theorem run_mono {limit more : Nat} {start : State} {ending : Except Failure Result}
    (ended : process.run limit start = some ending) (atLeast : limit <= more) :
    process.run more start = some ending := by
  induction limit generalizing more start with
  | zero => cases ended
  | succ limit ih =>
      cases more with
      | zero => omega
      | succ more =>
          rw [run] at ended ⊢
          cases moved : process start with
          | again next =>
              rw [moved] at ended
              exact ih ended (by omega)
          | halt own =>
              rw [moved] at ended
              exact ended

theorem run_unique {first second : Nat} {start : State} {one other : Except Failure Result}
    (ended : process.run first start = some one) (again : process.run second start = some other) :
    one = other := by
  have long := run_mono ended (Nat.le_max_left first second)
  rw [run_mono again (Nat.le_max_right first second)] at long
  exact (Option.some.inj long).symm

/-!
## Simulations

One process follows another if each of its states stands for a state of the other one.  The other
process may make moves of its own in between, as long as it cannot do so forever; the rank counts
how many there can still be.
-/

section Simulation

variable {Other Shown : Type} {follower : Process Other Shown}

structure Simulation (process : Process State Result) (follower : Process Other Shown)
    (Related : State -> Other -> Prop) (rank : State -> Nat) (shown : Result -> Shown) :
    Prop where
  again : forall {state next : State} {other : Other}, Related state other ->
    process state = .again next ->
      (Related next other ∧ rank next < rank state) ∨
        exists after, follower other = .again after ∧ Related next after
  halt : forall {state : State} {other : Other} {ending : Except Failure Result},
    Related state other -> process state = .halt ending ->
      follower other = .halt (ending.map shown)

variable {Related : State -> Other -> Prop} {rank : State -> Nat} {shown : Result -> Shown}
  {state : State} {other : Other}

theorem Simulation.ends_of_ends (simulation : Simulation process follower Related rank shown)
    (related : Related state other) {limit : Nat} {ending : Except Failure Result}
    (ended : process.run limit state = some ending) :
    exists bound, follower.run bound other = some (ending.map shown) := by
  induction limit generalizing state other with
  | zero => cases ended
  | succ limit ih =>
      rw [run] at ended
      cases moved : process state with
      | again next =>
          rw [moved] at ended
          rcases simulation.again related moved with ⟨stays, _⟩ | ⟨after, follows, stays⟩
          · exact ih stays ended
          · rcases ih stays ended with ⟨bound, follow⟩
            refine ⟨bound + 1, ?_⟩
            rw [run, follows]
            exact follow
      | halt own =>
          rw [moved] at ended
          cases ended
          refine ⟨1, ?_⟩
          rw [run, simulation.halt related moved]

theorem Simulation.ends_back (simulation : Simulation process follower Related rank shown)
    (related : Related state other) {bound : Nat} {shownEnding : Except Failure Shown}
    (ended : follower.run bound other = some shownEnding) :
    exists limit ending, process.run limit state = some ending ∧
      shownEnding = ending.map shown := by
  induction bound generalizing state other with
  | zero => cases ended
  | succ bound ih =>
      -- Moves that are not followed lower the rank, so a second induction takes care of them.
      induction bounded : rank state using Nat.strongRecOn generalizing state with
      | ind _ ihRank =>
          cases moved : process state with
          | again next =>
              rcases simulation.again related moved with ⟨stays, less⟩ | ⟨after, follows, stays⟩
              · rcases ihRank (rank next) (bounded ▸ less) stays rfl with
                  ⟨limit, ending, ends, shows⟩
                refine ⟨limit + 1, ending, ?_, shows⟩
                rw [run, moved]
                exact ends
              · rw [run, follows] at ended
                rcases ih stays ended with ⟨limit, ending, ends, shows⟩
                refine ⟨limit + 1, ending, ?_, shows⟩
                rw [run, moved]
                exact ends
          | halt own =>
              rw [run, simulation.halt related moved] at ended
              cases ended
              exact ⟨1, own, by rw [run, moved], rfl⟩

theorem Simulation.ends_iff (simulation : Simulation process follower Related rank shown)
    (related : Related state other) (shownEnding : Except Failure Shown) :
    (exists bound, follower.run bound other = some shownEnding) ↔
      exists limit ending, process.run limit state = some ending ∧
        shownEnding = ending.map shown := by
  constructor
  · intro ends
    rcases ends with ⟨bound, ended⟩
    exact simulation.ends_back related ended
  · intro ends
    rcases ends with ⟨limit, ending, ended, rfl⟩
    exact simulation.ends_of_ends related ended

theorem Simulation.runs_forever_iff (simulation : Simulation process follower Related rank shown)
    (related : Related state other) :
    (forall bound, follower.run bound other = none) ↔
      forall limit, process.run limit state = none := by
  constructor
  · intro forever limit
    cases ended : process.run limit state with
    | none => rfl
    | some ending =>
        rcases simulation.ends_of_ends related ended with ⟨bound, follow⟩
        rw [forever bound] at follow
        cases follow
  · intro forever bound
    cases ended : follower.run bound other with
    | none => rfl
    | some shownEnding =>
        rcases simulation.ends_back related ended with ⟨limit, ending, ends, _⟩
        rw [forever limit] at ends
        cases ends

end Simulation
end Process
end StrictLambda
