import Mathlib.Order.Bounds.Defs
import StrictLambda.Proofs.Execution.Bind
import StrictLambda.Proofs.Execution.Slices

/-!
# The peak of the stack

Every instruction ends by comparing the size of the stack with the peak.  So the peak is the
greatest size that the stack has had at the end of an instruction, or before the first one.
-/

namespace StrictLambda

def Transition.Records (peak : Nat) : Transition -> Prop
  | .next after => after.peak = max peak after.stack.size
  | .done _ _ => True

def Records (peak : Nat) (outcome : Except Failure Transition) : Prop :=
  forall transition, outcome = .ok transition -> transition.Records peak

variable {program : Program} {state after : State}

theorem Records.bind {First : Type} {peak : Nat} {first : Except Failure First}
    {rest : First -> Except Failure Transition}
    (continued : forall value, Records peak (rest value)) : Records peak (first >>= rest) := by
  intro transition together
  rcases bind_eq_ok_iff.mp together with ⟨value, _, last⟩
  exact continued value transition last

theorem Records.ok {peak : Nat} {transition : Transition} (records : transition.Records peak) :
    Records peak (.ok transition) := by
  intro other same
  cases same
  exact records

theorem Records.error {peak : Nat} (failure : Failure) : Records peak (.error failure) :=
  fun _ same => nomatch same

namespace State

theorem records_store (state : State) (dest : Register) (value : Value Entry) :
    Records state.peak (state.store dest value) := by
  unfold store
  exact .bind fun stack => .ok rfl

theorem records_perform (program : Program) (span : Span) (state : State) (action : Operation) :
    Records state.peak (state.perform program span action) := by
  cases action with
  | beginFixpoint dest => exact records_store { state with cells := state.cells.allocate.2 } _ _
  | derefFixpoint dest source =>
      exact .bind fun _ => .bind fun _ => .bind fun _ => state.records_store dest _
  | endFixpoint fixpoint source =>
      refine .bind fun _ => .bind fun cell => .bind fun value => ?_
      rcases state with ⟨pc, base, peak, stack, cells⟩
      unfold tie
      dsimp only
      cases blameDefect span (cells.tie cell value) with
      | error failure => exact .error failure
      | ok cells => exact .ok rfl
  | copy dest source => exact .bind fun _ => state.records_store dest _
  | member dest source field => exact .bind fun _ => .bind fun _ => state.records_store dest _
  | literal dest value => exact state.records_store dest _
  | primitive dest operator lhs rhs =>
      exact .bind fun _ => .bind fun _ => .bind fun _ => state.records_store dest _
  | call dest function argument =>
      exact .bind fun _ => .bind fun (entry, captures) => .bind fun value => .ok rfl
  | tailCall function argument =>
      refine .bind fun _ => .bind fun (entry, captures) => .bind fun value => ?_
      unfold tailCall
      exact .bind fun (saved, address) => .ok rfl
  | leave source =>
      refine .bind fun value => ?_
      unfold leave
      refine .bind fun (saved, address) => ?_
      dsimp only
      split
      · exact .ok trivial
      · exact .bind fun dest => .bind fun stack => .ok rfl
  | exit source => exact .bind fun _ => .ok trivial

theorem records_step (program : Program) (state : State) :
    Records state.peak (state.step program) := by
  unfold step
  split
  · next instruction span _ =>
      cases instruction with
      | operation action => exact state.records_perform program span action
      | function dest entry captures =>
          exact .bind fun _ => .bind fun _ => state.records_store dest _
      | data dest type tag fields =>
          exact .bind fun _ => .bind fun _ => .bind fun _ => .bind fun _ => .bind fun _ =>
            state.records_store dest _
      | dataType dest index =>
          unfold execute
          dsimp only
          cases program.declaration? index with
          | none => exact .error _
          | some declaration => exact state.records_store dest _
      | jump target => exact .ok rfl
      | jumpUnless condition target => exact .bind fun _ => .bind fun _ => .ok rfl
  · exact .error _

end State

namespace Program

theorem peak_of_again (moved : program.process state = .again after) :
    after.peak = max state.peak after.stack.size :=
  state.records_step program _ (process_eq_again_iff.mp moved)

/-!
## Whole runs
-/

def heights (program : Program) (limit : Nat) : Set Nat :=
  { height | exists count, count <= limit ∧ height = (program.stateAfter count).stack.size }

theorem peak_start (program : Program) :
    (State.start program).peak = (State.start program).stack.size := by
  simp [State.start, Stack.outermost, Stack.size, Stack.headerSize, Nat.add_comm]

theorem stateAfter_succ (program : Program) (count : Nat) :
    program.process (program.stateAfter count) = .again (program.stateAfter (count + 1)) ∨
      program.stateAfter (count + 1) = program.stateAfter count := by
  unfold stateAfter
  cases ended : program.process.run count (.start program) with
  | some ending => exact .inr (Process.add_of_ended ended 1).1
  | none =>
      rw [Process.trail_add ended, Process.trail]
      cases moved : program.process (program.process.trail count (.start program)) with
      | again next => exact .inl rfl
      | halt ending => exact .inr rfl

theorem isGreatest_peak (program : Program) (limit : Nat) :
    IsGreatest (program.heights limit) (program.stateAfter limit).peak := by
  induction limit with
  | zero =>
      have first : (program.stateAfter 0).peak = (program.stateAfter 0).stack.size :=
        peak_start program
      refine ⟨⟨0, Nat.le_refl 0, first⟩, ?_⟩
      rintro height ⟨count, within, rfl⟩
      rw [Nat.le_zero.mp within, first]
  | succ limit ih =>
      rcases ih with ⟨⟨best, within, reached⟩, most⟩
      have grows : (program.stateAfter (limit + 1)).peak =
          max (program.stateAfter limit).peak (program.stateAfter (limit + 1)).stack.size := by
        rcases program.stateAfter_succ limit with moved | same
        · exact peak_of_again moved
        · rw [same]
          exact (Nat.max_eq_left (most ⟨limit, Nat.le_refl limit, rfl⟩)).symm
      constructor
      · rcases Nat.le_total (program.stateAfter (limit + 1)).stack.size
          (program.stateAfter limit).peak with lower | higher
        · refine ⟨best, Nat.le_succ_of_le within, ?_⟩
          rw [grows, Nat.max_eq_left lower, reached]
        · refine ⟨limit + 1, Nat.le_refl _, ?_⟩
          rw [grows, Nat.max_eq_right higher]
      · rintro height ⟨count, atMost, rfl⟩
        rw [grows]
        rcases Nat.lt_or_eq_of_le atMost with earlier | rfl
        · exact Nat.le_trans (most ⟨count, Nat.le_of_lt_succ earlier, rfl⟩) (Nat.le_max_left _ _)
        · exact Nat.le_max_right _ _

end Program

theorem Machine.peak_run (program : Program) (limit : Nat) :
    ((Machine.ofProgram program).run limit).2.peak = (program.stateAfter limit).peak := by
  have slice : (Machine.ofProgram program).run limit =
      ((advanceFrom program limit (.start program)).answer,
        (advanceFrom program limit (.start program)).machine) := rfl
  rw [slice, advanceFrom_eq]
  unfold Program.stateAfter settled peak
  rcases program.process.run limit (.start program) with _ | _ | _ <;> rfl

end StrictLambda
