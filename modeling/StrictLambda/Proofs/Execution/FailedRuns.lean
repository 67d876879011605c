import StrictLambda.Proofs.Execution.Sessions
import StrictLambda.Proofs.Machine.Faults

/-!
# Machines that have failed

A machine that fails stops in front of the instruction that could not be executed.  However the
host has sliced the execution, the machine shows where that was and how high the stack had been
by then, and the failure itself points to the same place.
-/

namespace StrictLambda

/-!
## What a failure leaves behind
-/

/-- The machine stands where the state does, in which the next instruction has failed.  Unless there
was no such instruction, the failure points there, and the instruction can raise it. -/
structure Machine.FailedIn (machine : Machine) (program : Program) (before : State)
    (failure : Failure) : Prop where
  failed : before.step program = .error failure
  pc : machine.pc = before.pc
  peak : machine.peak = before.peak
  unfetched : program.fetch? machine.pc = none ->
    failure = .defect (.addressOutside machine.pc) none
  span : forall span, failure.span = some span -> program.spans[machine.pc.index]? = some span
  fault : forall cause span, failure = .fault cause span ->
    program.spans[machine.pc.index]? = some span ∧
      exists instruction, program.code[machine.pc.index]? = some instruction ∧
        instruction.Raises cause

def Machine.FailedAfter (machine : Machine) (program : Program) (count : Nat)
    (failure : Failure) : Prop :=
  exists before,
    (ofProgram program).advance count = ⟨.ok none, count, ⟨program, .running before⟩⟩ ∧
      machine.FailedIn program before failure

/-- The last instruction that the session has paid for is the one that failed. -/
structure Session.BlamesTheLast (program : Program) (session : Session) : Prop where
  step : session.machine.Unfinished -> forall failure,
    (session.machine.step session.fuel).1 = .error failure ->
      exists count, session.stepped.executed = count + 1 ∧
        session.stepped.machine.FailedAfter program count failure
  run : session.machine.Unfinished -> forall slice failure, session.machine.Completes slice ->
    slice.answer = .error failure ->
      exists count, session.executed + slice.spent = count + 1 ∧
        slice.machine.FailedAfter program count failure
  since : forall pc peak, session.machine.status = .failed pc peak ->
    exists count failure, session.executed = count + 1 ∧
      session.machine.FailedAfter program count failure

/-!
## Failed steps
-/

theorem Machine.failedIn {program : Program} {before : State} {failure : Failure}
    {machine : Machine} (failed : before.step program = .error failure)
    (pc : machine.pc = before.pc) (peak : machine.peak = before.peak) :
    machine.FailedIn program before failure := by
  rcases State.blames_of_step failed with ⟨missing, rfl⟩ | ⟨instruction, span, fetched, blames⟩
  · refine ⟨failed, pc, peak, ?_, ?_, ?_⟩
    · intro _
      rw [pc]
    · intro span points
      cases points
    · intro cause span same
      cases same
  · have comes := blames.comesFrom
    rcases Program.getElem?_of_fetch? fetched with ⟨code, place⟩
    rw [← pc] at fetched code place
    refine ⟨failed, pc, peak, ?_, ?_, ?_⟩
    · intro missing
      rw [fetched] at missing
      cases missing
    · intro own points
      rw [comes.span own points]
      exact place
    · rintro cause own rfl
      rw [comes.span own rfl]
      exact ⟨place, instruction, code, comes.fault cause own rfl⟩

/-!
## Failed runs
-/

namespace Program

variable {program : Program} {count : Nat} {failure : Failure}

theorem advance_of_paused (paused : program.process.run count (.start program) = none) :
    (Machine.ofProgram program).advance count =
      ⟨.ok none, count, ⟨program, .running (program.stateAfter count)⟩⟩ := by
  rw [Machine.ofProgram, Machine.advance, Machine.advanceFrom_eq, paused,
    Process.spent_of_paused paused]
  rfl

theorem halts_of_run (paused : program.process.run count (.start program) = none)
    {ending : Except Failure (Value Entry × Cells Entry)}
    (ended : program.process.run (count + 1) (.start program) = some ending) :
    program.process (program.stateAfter count) = .halt ending := by
  rw [Process.run_add paused, Process.run] at ended
  unfold stateAfter
  split at ended
  · cases ended
  · next own halts =>
      cases ended
      exact halts

theorem stateAfter_of_halt (paused : program.process.run count (.start program) = none)
    {ending : Except Failure (Value Entry × Cells Entry)}
    (halts : program.process (program.stateAfter count) = .halt ending) :
    program.stateAfter (count + 1) = program.stateAfter count := by
  unfold stateAfter at halts ⊢
  rw [Process.trail_add paused, Process.trail, halts]

theorem failedAfter_of_run (paused : program.process.run count (.start program) = none)
    (ended : program.process.run (count + 1) (.start program) = some (.error failure)) :
    (program.machineAfter (count + 1)).FailedAfter program count failure := by
  have halts := halts_of_run paused ended
  have stays := stateAfter_of_halt paused halts
  refine ⟨program.stateAfter count, advance_of_paused paused, ?_⟩
  apply Machine.failedIn (process_eq_halt_error_iff.mp halts)
  · rw [pc_machineAfter, stays]
  · rw [peak_machineAfter, stays]

theorem exists_failedAfter {executed : Nat} (within : (executed : ℕ∞) <= program.length)
    (ended : program.process.run executed (.start program) = some (.error failure)) :
    exists count, executed = count + 1 ∧
      (program.machineAfter executed).FailedAfter program count failure := by
  cases executed with
  | zero => cases ended
  | succ count =>
      have earlier : (count : ℕ∞) < program.length := by
        refine lt_of_lt_of_le ?_ within
        exact_mod_cast Nat.lt_succ_self count
      exact ⟨count, rfl, failedAfter_of_run (lt_length_iff.mp earlier) ended⟩

end Program

/-!
## Sessions with failures
-/

namespace Session

variable {program : Program} {session : Session}

theorem run_of_shown {ended : Option (Except Failure (Value Entry × Cells Entry))}
    {failure : Failure} (failed : Machine.shown ended = .error failure) :
    ended = some (.error failure) := by
  cases ended with
  | none => cases failed
  | some ending =>
      cases ending with
      | ok result => cases failed
      | error own =>
          cases failed
          rfl

theorem Kept.fails (kept : session.Kept program) (unfinished : session.machine.Unfinished)
    {limit : Nat} {failure : Failure}
    (failed : (session.machine.advance limit).answer = .error failure) :
    exists count,
      session.executed + (session.machine.advance limit).spent = count + 1 ∧
        (session.machine.advance limit).machine.FailedAfter program count failure := by
  rw [kept.answer unfinished limit] at failed
  have ended := run_of_shown failed
  rcases kept.exists_spent limit with ⟨spent, least, spends, moves⟩
  rw [spends] at ended
  rw [spends, moves]
  apply Program.exists_failedAfter _ ended
  rw [Nat.cast_add]
  exact add_le_length kept.within least

theorem Kept.failed (kept : session.Kept program) {pc : Address} {peak : Nat}
    (failed : session.machine.status = .failed pc peak) :
    exists count failure, session.executed = count + 1 ∧
      session.machine.FailedAfter program count failure := by
  cases kept with
  | idle unstarted none machine =>
      rw [machine] at failed
      cases failed
  | underway started within machine =>
      rw [machine] at failed ⊢
      unfold Program.machineAfter at failed
      cases ended : program.process.run session.executed (.start program) with
      | none =>
          rw [ended] at failed
          cases failed
      | some ending =>
          rw [ended] at failed
          cases ending with
          | ok result => cases failed
          | error failure =>
              rcases Program.exists_failedAfter within ended with ⟨count, last, after⟩
              exact ⟨count, failure, last, after⟩

/-- Failures point at the instruction that has failed, for every program and however its execution
is cut into slices. -/
theorem failures_point_at_their_instruction (program : Program) (session : Session)
    (reached : session.Reachable program) : session.BlamesTheLast program := by
  have kept := reached.kept
  refine ⟨?_, ?_, ?_⟩
  · intro unfinished failure failed
    exact kept.fails unfinished failed
  · intro unfinished slice failure completes failed
    rcases (Machine.completes_iff.mp completes).2 with ⟨limit, rfl⟩
    exact kept.fails unfinished failed
  · intro pc peak failed
    exact kept.failed failed

/-- Calls a function that asks its argument for a field. -/
def fieldOfInteger : Program where
  code := #[.function ⟨0⟩ ⟨⟨4⟩, 2⟩ ⟨0, 0⟩, .operation (.literal ⟨1⟩ (.integer 5)),
    .operation (.call ⟨2⟩ ⟨0⟩ ⟨1⟩), .operation (.exit ⟨2⟩),
    .operation (.member ⟨1⟩ ⟨0⟩ ⟨7⟩)]
  spans := #[⟨⟨0⟩, 0, 1⟩, ⟨⟨0⟩, 1, 2⟩, ⟨⟨0⟩, 2, 3⟩, ⟨⟨0⟩, 3, 4⟩, ⟨⟨0⟩, 4, 5⟩]
  operands := #[]
  declarations := #[]
  blocks := []
  entry := ⟨0⟩
  entryFrameSize := 3

def halfwayCalled : Session :=
  ((opening fieldOfInteger).refuelled (.full 3)).stepped.refuelled (.full 2)

theorem failures_point_at_their_instruction_of_fieldOfInteger :
    halfwayCalled.Reachable fieldOfInteger ∧ halfwayCalled.BlamesTheLast fieldOfInteger ∧
      halfwayCalled.machine.Unfinished ∧
      (halfwayCalled.machine.step halfwayCalled.fuel).1 =
        .error (.fault (.notData ⟨7⟩ .integer) ⟨⟨0⟩, 4, 5⟩) ∧
      halfwayCalled.stepped.machine.pc = ⟨4⟩ ∧ halfwayCalled.stepped.machine.peak = 9 := by
  have reached : halfwayCalled.Reachable fieldOfInteger :=
    .turn (.turn (.turn .opening (.exchange _ _)) (.step _)) (.exchange _ _)
  refine ⟨reached, failures_point_at_their_instruction _ _ reached, trivial, ?_, ?_, ?_⟩
  · rfl
  · rfl
  · rfl

end Session
end StrictLambda
