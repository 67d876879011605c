import StrictLambda.Machine.Basic
import StrictLambda.Proofs.Execution.Process

/-!
# Machines as processes

A machine that is run from the start makes one move for every instruction.  What it answers is the
ending of that process, with a result turned into its snapshot.
-/

namespace StrictLambda

def Program.process (program : Program) : Process State (Value Entry × Cells Entry) :=
  fun state =>
    match state.step program with
    | .ok (.next after) => .again after
    | .ok (.done value cells) => .halt (.ok (value, cells))
    | .error failure => .halt (.error failure)

def Snapshot.ofResult (result : Value Entry × Cells Entry) : Snapshot :=
  .ofValue id result.2 result.1

namespace Program

variable {program : Program} {state after : State}

theorem process_eq_again_iff :
    program.process state = .again after ↔ state.step program = .ok (.next after) := by
  unfold process
  split <;> simp_all

theorem process_eq_halt_ok_iff {value : Value Entry} {cells : Cells Entry} :
    program.process state = .halt (.ok (value, cells)) ↔
      state.step program = .ok (.done value cells) := by
  unfold process
  split <;> simp_all

theorem process_eq_halt_error_iff {failure : Failure} :
    program.process state = .halt (.error failure) ↔ state.step program = .error failure := by
  unfold process
  split <;> simp_all

def Reachable (program : Program) (state : State) : Prop :=
  exists count, program.process.Steps count (.start program) state

/-- Run long enough on a fresh machine, the program comes to this ending. -/
def Answers (program : Program) (ending : Except Failure Snapshot) : Prop :=
  exists limit, ((Machine.ofProgram program).run limit).1 = ending.map some

def RunsForever (program : Program) : Prop :=
  forall limit, ((Machine.ofProgram program).run limit).1 = .ok none

end Program

theorem Machine.answer_advanceFrom (program : Program) (limit : Nat) (state : State) :
    (Machine.advanceFrom program limit state).answer =
      match program.process.run limit state with
      | none => .ok none
      | some ending => (ending.map Snapshot.ofResult).map some := by
  unfold Machine.advanceFrom
  induction limit generalizing state with
  | zero => rfl
  | succ left ih =>
      rw [State.advance, Process.run]
      cases stepped : state.step program with
      | error failure =>
          rw [Program.process_eq_halt_error_iff.mpr stepped]
          rfl
      | ok transition =>
          cases transition with
          | done value cells =>
              rw [Program.process_eq_halt_ok_iff.mpr stepped]
              rfl
          | next after =>
              rw [Program.process_eq_again_iff.mpr stepped]
              dsimp only
              rw [← ih after]
              cases after.advance program left <;> rfl

theorem Machine.answer_run (program : Program) (limit : Nat) :
    ((Machine.ofProgram program).run limit).1 =
      match program.process.run limit (.start program) with
      | none => .ok none
      | some ending => (ending.map Snapshot.ofResult).map some :=
  Machine.answer_advanceFrom program limit (.start program)

namespace Program

variable {program : Program}

theorem answers_iff {ending : Except Failure Snapshot} :
    program.Answers ending ↔
      exists limit own, program.process.run limit (.start program) = some own ∧
        ending = own.map Snapshot.ofResult := by
  unfold Answers
  constructor
  · intro answers
    rcases answers with ⟨limit, answered⟩
    rw [Machine.answer_run] at answered
    cases ended : program.process.run limit (.start program) with
    | none =>
        rw [ended] at answered
        cases ending <;> cases answered
    | some own =>
        rw [ended] at answered
        refine ⟨limit, own, ended, ?_⟩
        cases ending <;> cases own <;> simp_all [Except.map]
  · intro ends
    rcases ends with ⟨limit, own, ended, rfl⟩
    refine ⟨limit, ?_⟩
    rw [Machine.answer_run, ended]

theorem runsForever_iff :
    program.RunsForever ↔ forall limit, program.process.run limit (.start program) = none := by
  unfold RunsForever
  constructor
  · intro forever limit
    have answered := forever limit
    rw [Machine.answer_run] at answered
    cases ended : program.process.run limit (.start program) with
    | none => rfl
    | some own =>
        rw [ended] at answered
        cases own <;> simp [Except.map] at answered
  · intro forever limit
    rw [Machine.answer_run, forever limit]

end Program
end StrictLambda
