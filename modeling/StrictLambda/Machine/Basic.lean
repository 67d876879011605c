import StrictLambda.Machine.Fuel
import StrictLambda.Machine.Step
import StrictLambda.Snapshot.OfValue

/-!
# Machines

A machine owns a program and runs it in slices.  A slice executes as many instructions as its fuel
pays for and can be followed by another one; a machine that has finished keeps its result, and one
that has failed stays failed until it is reset.
-/

namespace StrictLambda

/-!
## Running a number of instructions
-/

/-- What running at most so many instructions comes to.  A run that ends before its limit says how
many instructions are left, and where it was and how high the stack had been before its last
instruction. -/
inductive Outcome where
  | paused (state : State)
  | finished (left : Nat) (pc : Address) (peak : Nat) (result : Snapshot)
  | failed (left : Nat) (pc : Address) (peak : Nat) (failure : Failure)

def State.advance (program : Program) : Nat -> State -> Outcome
  | 0, state => .paused state
  | left + 1, state =>
      let pc := state.pc
      let peak := state.peak
      match state.step program with
      | .ok (.next after) => after.advance program left
      | .ok (.done value cells) => .finished left pc peak (.ofValue id cells value)
      | .error failure => .failed left pc peak failure

/-!
## Machines and their operations
-/

inductive Status where
  | ready
  | running (state : State)
  | finished (pc : Address) (peak : Nat) (result : Snapshot)
  | failed (pc : Address) (peak : Nat)

structure Machine where
  program : Program
  status : Status

namespace Machine

def ofProgram (program : Program) : Machine :=
  { program := program, status := .ready }

/-- The answer of a slice is the result if there is one by now, and nothing if the slice ended
first. -/
structure Slice where
  answer : Except Failure (Option Snapshot)
  spent : Nat
  machine : Machine

def advanceFrom (program : Program) (limit : Nat) (state : State) : Slice :=
  match state.advance program limit with
  | .paused after =>
      { answer := .ok none, spent := limit, machine := ⟨program, .running after⟩ }
  | .finished left pc peak result =>
      { answer := .ok (some result)
        spent := limit - left
        machine := ⟨program, .finished pc peak result⟩ }
  | .failed left pc peak failure =>
      { answer := .error failure, spent := limit - left, machine := ⟨program, .failed pc peak⟩ }

/-- Executes at most so many instructions.  A machine that is ready is started first, even if
nothing is to be executed. -/
def advance (limit : Nat) : Machine -> Slice
  | ⟨program, .ready⟩ => advanceFrom program limit (.start program)
  | ⟨program, .running state⟩ => advanceFrom program limit state
  | ⟨program, .finished pc peak result⟩ =>
      { answer := .ok (some result), spent := 0, machine := ⟨program, .finished pc peak result⟩ }
  | ⟨program, .failed pc peak⟩ =>
      { answer := .error (.defect .halted none)
        spent := 0
        machine := ⟨program, .failed pc peak⟩ }

def step (machine : Machine) (fuel : Fuel) : Except Failure (Option Snapshot) × Fuel × Machine :=
  let slice := machine.advance fuel.available
  (slice.answer, fuel.consume (Int32.ofNat slice.spent), slice.machine)

/-- Runs to the end without fuel, giving up after so many instructions. -/
def run (machine : Machine) (limit : Nat) : Except Failure (Option Snapshot) × Machine :=
  let slice := machine.advance limit
  (slice.answer, slice.machine)

def reset (machine : Machine) : Machine :=
  ofProgram machine.program

/-!
## Observing a machine
-/

/-- Where the next instruction will be fetched from, or the last one was. -/
def pc (machine : Machine) : Address :=
  match machine.status with
  | .ready => machine.program.entry
  | .running state => state.pc
  | .finished pc _ _ => pc
  | .failed pc _ => pc

/-- The greatest size of the stack since the start, frame headers included. -/
def peak (machine : Machine) : Nat :=
  match machine.status with
  | .ready => 0
  | .running state => state.peak
  | .finished _ peak _ => peak
  | .failed _ peak => peak

def result? (machine : Machine) : Option Snapshot :=
  match machine.status with
  | .finished _ _ result => some result
  | _ => none

def isFinished (machine : Machine) : Bool :=
  machine.result?.isSome

end Machine
end StrictLambda
