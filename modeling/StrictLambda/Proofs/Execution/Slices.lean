import StrictLambda.Proofs.Execution.Duration
import StrictLambda.Proofs.Execution.Machine

/-!
# Running in slices

A machine that is run in slices comes through the same states as one that is run in one go.  Two
slices, one after the other, do what one slice of both their lengths does, and a slice that has an
answer makes all later ones superfluous.
-/

namespace StrictLambda

/-!
## The unsliced execution
-/

namespace Program

/-- The state after so many instructions, or the one in which the last instruction was executed. -/
def stateAfter (program : Program) (count : Nat) : State :=
  program.process.trail count (.start program)

noncomputable def length (program : Program) : ℕ∞ :=
  program.process.duration (.start program)

def EndsWithin (program : Program) (count : Nat) (ending : Except Failure Snapshot) : Prop :=
  exists own, program.process.run count (.start program) = some own ∧
    ending = own.map Snapshot.ofResult

end Program

/-!
## One slice
-/

namespace Machine

def shown : Option (Except Failure (Value Entry × Cells Entry)) -> Except Failure (Option Snapshot)
  | none => .ok none
  | some ending => (ending.map Snapshot.ofResult).map some

/-- The machine that a run leaves behind, with the last state it was in. -/
def settled (program : Program) (last : State) :
    Option (Except Failure (Value Entry × Cells Entry)) -> Machine
  | none => ⟨program, .running last⟩
  | some (.ok result) => ⟨program, .finished last.pc last.peak (.ofResult result)⟩
  | some (.error _) => ⟨program, .failed last.pc last.peak⟩

theorem settled_none (program : Program) (last : State) :
    settled program last none = ⟨program, .running last⟩ :=
  rfl

variable {program : Program} {limit more : Nat} {state : State}

theorem advance_eq (program : Program) (limit : Nat) (state : State) :
    state.advance program limit =
      match program.process.run limit state with
      | none => .paused (program.process.trail limit state)
      | some (.ok result) =>
          .finished (limit - program.process.spent limit state)
            (program.process.trail limit state).pc (program.process.trail limit state).peak
            (.ofResult result)
      | some (.error failure) =>
          .failed (limit - program.process.spent limit state)
            (program.process.trail limit state).pc (program.process.trail limit state).peak
            failure := by
  induction limit generalizing state with
  | zero => rfl
  | succ limit ih =>
      rw [State.advance, Process.run, Process.spent, Process.trail]
      cases stepped : state.step program with
      | error failure =>
          rw [Program.process_eq_halt_error_iff.mpr stepped]
          rfl
      | ok transition =>
          cases transition with
          | done value cells =>
              rw [Program.process_eq_halt_ok_iff.mpr stepped]
              rfl
          | next after =>
              rw [Program.process_eq_again_iff.mpr stepped]
              simp only [Nat.add_sub_add_right]
              exact ih after

theorem advanceFrom_eq (program : Program) (limit : Nat) (state : State) :
    advanceFrom program limit state =
      { answer := shown (program.process.run limit state)
        spent := program.process.spent limit state
        machine := settled program (program.process.trail limit state)
          (program.process.run limit state) } := by
  have paid := Nat.sub_sub_self (Process.spent_le program.process limit state)
  unfold advanceFrom
  rw [advance_eq]
  cases ended : program.process.run limit state with
  | none =>
      simp only [shown, settled]
      rw [Process.spent_of_paused ended]
  | some ending =>
      cases ending with
      | ok result =>
          simp only [shown, settled, Except.map]
          rw [paid]
      | error failure =>
          simp only [shown, settled, Except.map]
          rw [paid]

theorem shown_eq_none_iff {ended : Option (Except Failure (Value Entry × Cells Entry))} :
    shown ended = .ok none ↔ ended = none := by
  cases ended with
  | none => exact iff_of_true rfl rfl
  | some ending =>
      refine iff_of_false ?_ (fun same => nomatch same)
      cases ending <;> simp [shown, Except.map]

/-! ## Two slices -/

def Slice.followedBy (slice : Slice) (limit : Nat) : Slice :=
  let rest := slice.machine.advance limit
  { rest with spent := slice.spent + rest.spent }

theorem advanceFrom_add_of_paused
    (paused : (advanceFrom program limit state).answer = .ok none) :
    advanceFrom program (limit + more) state =
      (advanceFrom program limit state).followedBy more := by
  rw [advanceFrom_eq, shown_eq_none_iff] at paused
  unfold Slice.followedBy
  rw [advanceFrom_eq, advanceFrom_eq, paused]
  rw [settled_none, advance, advanceFrom_eq, Process.run_add paused, Process.trail_add paused,
    Process.spent_add paused, Process.spent_of_paused paused]

theorem advanceFrom_add_of_answered
    (answered : (advanceFrom program limit state).answer ≠ .ok none) :
    advanceFrom program (limit + more) state = advanceFrom program limit state := by
  rw [advanceFrom_eq, ne_eq, shown_eq_none_iff, ← ne_eq, Option.ne_none_iff_exists'] at answered
  rcases answered with ⟨ending, ended⟩
  rcases Process.add_of_ended ended more with ⟨trails, spends⟩
  rw [advanceFrom_eq, advanceFrom_eq, trails, spends, ended,
    Process.run_mono ended (Nat.le_add_right limit more)]

variable {machine : Machine}

theorem advance_add_of_paused (paused : (machine.advance limit).answer = .ok none) :
    machine.advance (limit + more) = (machine.advance limit).followedBy more := by
  rcases machine with ⟨program, status⟩
  cases status with
  | ready => exact advanceFrom_add_of_paused paused
  | running state => exact advanceFrom_add_of_paused paused
  | finished pc peak result => cases paused
  | failed pc peak => cases paused

theorem advance_add_of_answered (answered : (machine.advance limit).answer ≠ .ok none) :
    machine.advance (limit + more) = machine.advance limit := by
  rcases machine with ⟨program, status⟩
  cases status with
  | ready => exact advanceFrom_add_of_answered answered
  | running state => exact advanceFrom_add_of_answered answered
  | finished pc peak result => rfl
  | failed pc peak => rfl

end Machine

/-!
## Paying for a slice
-/

namespace Fuel

theorem consume_zero (fuel : Fuel) : fuel.consume (Int32.ofNat 0) = fuel := by
  simp [consume, Int32.ofIntClamp_toInt]

theorem toInt_consume {fuel : Fuel} {spent : Nat} (affordable : spent <= fuel.available) :
    (fuel.consume (Int32.ofNat spent)).remaining.toInt = fuel.remaining.toInt - spent := by
  have bounded := fuel.remaining.toInt_lt
  have above := fuel.remaining.le_toInt
  have paid : (Int32.ofNat spent).toInt = spent := by
    apply Int32.toInt_ofNat_of_lt
    unfold available at affordable
    split at affordable <;> omega
  unfold consume
  simp only
  rw [paid, Int32.toInt_ofIntClamp]
  · rw [Int32.toInt_minValue]
    unfold available at affordable
    split at affordable <;> omega
  · rw [Int32.toInt_maxValue]
    omega

end Fuel

/-!
## Running to the end in slices
-/

namespace Machine

def sliceFuel : Int32 :=
  4096

/-- Runs on fuel of its own, which is refilled before each slice, until a slice has an answer. -/
def runSlices : Nat -> Fuel -> Machine -> Slice
  | 0, _, machine => { answer := .ok none, spent := 0, machine := machine }
  | count + 1, fuel, machine =>
      let fuel := fuel.refill sliceFuel sliceFuel
      let spent := (machine.advance fuel.available).spent
      match machine.step fuel with
      | (.ok none, left, after) =>
          let rest := after.runSlices count left
          { rest with spent := spent + rest.spent }
      | (answer, _, after) => { answer := answer, spent := spent, machine := after }

theorem spent_of_paused {machine : Machine} {limit : Nat}
    (paused : (machine.advance limit).answer = .ok none) :
    (machine.advance limit).spent = limit := by
  rcases machine with ⟨program, status⟩
  cases status with
  | ready =>
      rw [advance, advanceFrom_eq] at paused ⊢
      exact Process.spent_of_paused (shown_eq_none_iff.mp paused)
  | running state =>
      rw [advance, advanceFrom_eq] at paused ⊢
      exact Process.spent_of_paused (shown_eq_none_iff.mp paused)
  | finished pc peak result => cases paused
  | failed pc peak => cases paused

theorem refill_sliceFuel {fuel : Fuel} (used : fuel.remaining.toInt = 0) :
    fuel.refill sliceFuel sliceFuel = .full sliceFuel := by
  simp only [Fuel.refill, used, Int.zero_add, Int32.ofIntClamp_toInt]
  rfl

theorem available_sliceFuel : (Fuel.full sliceFuel).available = 4096 :=
  rfl

theorem runSlices_of_paused {fuel : Fuel} {machine : Machine} {count : Nat}
    (used : fuel.remaining.toInt = 0) (paused : (machine.advance 4096).answer = .ok none) :
    exists left : Fuel, left.remaining.toInt = 0 ∧
      machine.runSlices (count + 1) fuel =
        let rest := (machine.advance 4096).machine.runSlices count left
        { rest with spent := 4096 + rest.spent } := by
  refine ⟨(Fuel.full sliceFuel).consume (Int32.ofNat 4096), rfl, ?_⟩
  rw [runSlices, refill_sliceFuel used, step, available_sliceFuel, paused]
  simp only
  rw [spent_of_paused paused]

theorem runSlices_of_answered {fuel : Fuel} {machine : Machine} {count : Nat}
    (used : fuel.remaining.toInt = 0) (answered : (machine.advance 4096).answer ≠ .ok none) :
    machine.runSlices (count + 1) fuel = machine.advance 4096 := by
  rw [runSlices, refill_sliceFuel used, step, available_sliceFuel]
  simp only

theorem eq_of_paused {machine : Machine} {limit : Nat}
    (paused : (machine.advance limit).answer = .ok none) :
    machine.advance limit = ⟨.ok none, limit, (machine.advance limit).machine⟩ := by
  have spent := spent_of_paused paused
  cases advanced : machine.advance limit
  rw [advanced] at paused spent
  rw [← paused, ← spent]

theorem runSlices_eq_advance {fuel : Fuel} (used : fuel.remaining.toInt = 0) (machine : Machine)
    (count : Nat) :
    machine.runSlices (count + 1) fuel = machine.advance (4096 * (count + 1)) := by
  induction count generalizing fuel machine with
  | zero =>
      by_cases paused : (machine.advance 4096).answer = .ok none
      · rcases runSlices_of_paused used paused with ⟨left, _, slices⟩
        rw [slices, runSlices]
        exact (eq_of_paused paused).symm
      · exact runSlices_of_answered used paused
  | succ count ih =>
      have longer : 4096 * (count + 1 + 1) = 4096 + 4096 * (count + 1) := by
        rw [Nat.mul_succ, Nat.add_comm]
      rw [longer]
      by_cases paused : (machine.advance 4096).answer = .ok none
      · rcases runSlices_of_paused used paused with ⟨left, usedAgain, slices⟩
        rw [slices, ih usedAgain, advance_add_of_paused paused, Slice.followedBy,
          spent_of_paused paused]
      · rw [runSlices_of_answered used paused, advance_add_of_answered paused]

end Machine
end StrictLambda
