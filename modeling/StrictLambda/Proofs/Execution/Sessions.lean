import StrictLambda.Proofs.Execution.Slices

/-!
# Sessions

A host works on one machine with one fuel: it changes the fuel, has slices executed, lets the
machine run to its end, asks for the result or resets the machine, in any order.  How the execution
is cut into slices cannot be told from what the host gets to see.
-/

namespace StrictLambda

/-- A machine, the fuel its slices are paid from, and what has happened since the machine was made
or reset. -/
structure Session where
  machine : Machine
  fuel : Fuel
  executed : Nat
  started : Bool

namespace Session

/-- The first fuel does not matter, as it can be exchanged. -/
def opening (program : Program) : Session :=
  { machine := .ofProgram program, fuel := .empty, executed := 0, started := false }

def refuelled (session : Session) (fuel : Fuel) : Session :=
  { session with fuel := fuel }

def stepped (session : Session) : Session where
  machine := (session.machine.step session.fuel).2.2
  fuel := (session.machine.step session.fuel).2.1
  executed := session.executed + (session.machine.advance session.fuel.available).spent
  started := true

def completed (session : Session) (slice : Machine.Slice) : Session where
  machine := slice.machine
  fuel := session.fuel
  executed := session.executed + slice.spent
  started := true

def restarted (session : Session) : Session where
  machine := session.machine.reset
  fuel := session.fuel
  executed := 0
  started := false

end Session

def Machine.Completes (machine : Machine) (slice : Machine.Slice) : Prop :=
  slice.answer ≠ .ok none ∧ exists count, machine.runSlices count .empty = slice

theorem Machine.completes_iff {machine : Machine} {slice : Machine.Slice} :
    machine.Completes slice ↔
      slice.answer ≠ .ok none ∧ exists limit, machine.advance limit = slice := by
  unfold Completes
  constructor
  · rintro ⟨answered, count, rfl⟩
    refine ⟨answered, ?_⟩
    cases count with
    | zero => exact absurd rfl answered
    | succ count => exact ⟨4096 * (count + 1), (runSlices_eq_advance rfl machine count).symm⟩
  · rintro ⟨answered, limit, rfl⟩
    have whole : 4096 * (limit + 1) = limit + (4095 * limit + 4096) := by omega
    refine ⟨answered, limit + 1, ?_⟩
    rw [runSlices_eq_advance rfl machine limit, whole, advance_add_of_answered answered]

/-- What the host can do next.  Looking at the result changes nothing, and a run that does not end
leaves no session behind. -/
inductive Session.Turn : Session -> Session -> Prop where
  | exchange (session : Session) (fuel : Fuel) : Turn session (session.refuelled fuel)
  | refill (session : Session) (amount cap : Int32) :
      Turn session (session.refuelled (session.fuel.refill amount cap))
  | consume (session : Session) (amount : Int32) :
      Turn session (session.refuelled (session.fuel.consume amount))
  | interrupt (session : Session) : Turn session (session.refuelled session.fuel.interrupt)
  | step (session : Session) : Turn session session.stepped
  | run (session : Session) {slice : Machine.Slice} (completes : session.machine.Completes slice) :
      Turn session (session.completed slice)
  | result (session : Session) : Turn session session
  | reset (session : Session) : Turn session session.restarted

inductive Session.Reachable (program : Program) : Session -> Prop where
  | opening : Reachable program (.opening program)
  | turn {session after : Session} (reached : Reachable program session)
      (turn : session.Turn after) : Reachable program after

/-!
## Machines after so many instructions
-/

namespace Program

variable {program : Program} {count limit : Nat}

def machineAfter (program : Program) (count : Nat) : Machine :=
  .settled program (program.stateAfter count) (program.process.run count (.start program))

theorem advance_machineAfter (paused : program.process.run count (.start program) = none)
    (limit : Nat) :
    exists spent : Nat, (spent : ℕ∞) = min (limit : ℕ∞) (program.length - count) ∧
      (program.machineAfter count).advance limit =
        { answer := Machine.shown (program.process.run (count + spent) (.start program))
          spent := spent
          machine := program.machineAfter (count + spent) } := by
  refine ⟨program.process.spent limit (program.stateAfter count), ?_, ?_⟩
  · rw [Process.spent_eq_min]
    exact congrArg (min (limit : ℕ∞)) (Process.duration_trail paused)
  · rcases Process.spent_suffices program.process limit (program.stateAfter count) with
      ⟨runs, trails⟩
    unfold machineAfter
    rw [paused, Machine.settled_none, Machine.advance, Machine.advanceFrom_eq, ← runs, ← trails,
      Process.run_add paused]
    unfold stateAfter
    rw [Process.trail_add paused]

theorem lt_length_iff :
    (count : ℕ∞) < program.length ↔ program.process.run count (.start program) = none :=
  Process.lt_duration_iff

theorem program_machineAfter (program : Program) (count : Nat) :
    (program.machineAfter count).program = program := by
  unfold machineAfter
  cases program.process.run count (.start program) with
  | none => rfl
  | some ending => cases ending <;> rfl

theorem pc_machineAfter (program : Program) (count : Nat) :
    (program.machineAfter count).pc = (program.stateAfter count).pc := by
  unfold machineAfter
  cases program.process.run count (.start program) with
  | none => rfl
  | some ending => cases ending <;> rfl

theorem peak_machineAfter (program : Program) (count : Nat) :
    (program.machineAfter count).peak = (program.stateAfter count).peak := by
  unfold machineAfter
  cases program.process.run count (.start program) with
  | none => rfl
  | some ending => cases ending <;> rfl

theorem endsWithin_of_length_le (ended : program.length <= count) :
    exists ending, program.EndsWithin count ending := by
  rcases Process.duration_le_iff.mp ended with ⟨own, ran⟩
  exact ⟨own.map Snapshot.ofResult, own, ran, rfl⟩

theorem shown_of_endsWithin {ending : Except Failure Snapshot}
    (ends : program.EndsWithin count ending) :
    Machine.shown (program.process.run count (.start program)) = ending.map some := by
  rcases ends with ⟨own, ran, rfl⟩
  rw [ran]
  rfl

def repeated : Except Failure Snapshot -> Except Failure (Option Snapshot)
  | .ok result => .ok (some result)
  | .error _ => .error (.defect .halted none)

theorem advance_of_endsWithin {ending : Except Failure Snapshot}
    (ends : program.EndsWithin count ending) (limit : Nat) :
    (program.machineAfter count).advance limit =
      { answer := repeated ending, spent := 0, machine := program.machineAfter count } := by
  rcases ends with ⟨own, ran, rfl⟩
  unfold machineAfter
  rw [ran]
  cases own <;> rfl

theorem result?_of_endsWithin {ending : Except Failure Snapshot}
    (ends : program.EndsWithin count ending) :
    (program.machineAfter count).result? = ending.toOption := by
  rcases ends with ⟨own, ran, rfl⟩
  unfold machineAfter
  rw [ran]
  cases own <;> rfl

theorem advance_ofProgram (program : Program) (limit : Nat) :
    (Machine.ofProgram program).advance limit = (program.machineAfter 0).advance limit :=
  rfl

end Program

/-!
## What a session keeps
-/

namespace Session

variable {program : Program} {session after : Session}

inductive Kept (program : Program) (session : Session) : Prop where
  | idle (unstarted : session.started = false) (none : session.executed = 0)
      (machine : session.machine = .ofProgram program) : Kept program session
  | underway (started : session.started = true)
      (within : (session.executed : ℕ∞) <= program.length)
      (machine : session.machine = program.machineAfter session.executed) : Kept program session

theorem Kept.within (kept : session.Kept program) :
    (session.executed : ℕ∞) <= program.length := by
  cases kept with
  | idle _ none _ =>
      rw [none]
      exact zero_le
  | underway _ within _ => exact within

theorem Kept.advance (kept : session.Kept program) (limit : Nat) :
    session.machine.advance limit =
      (program.machineAfter session.executed).advance limit := by
  cases kept with
  | idle _ none machine =>
      rw [none, machine]
      exact program.advance_ofProgram limit
  | underway _ _ machine => rw [machine]

theorem Kept.program_eq (kept : session.Kept program) : session.machine.program = program := by
  cases kept with
  | idle _ _ machine => rw [machine, Machine.ofProgram]
  | underway _ _ machine =>
      rw [machine]
      exact program.program_machineAfter session.executed

theorem Kept.exists_spent (kept : session.Kept program) (limit : Nat) :
    exists spent : Nat, (spent : ℕ∞) = min (limit : ℕ∞) (program.length - session.executed) ∧
      (session.machine.advance limit).spent = spent ∧
      (session.machine.advance limit).machine =
        program.machineAfter (session.executed + spent) := by
  rw [kept.advance limit]
  by_cases unfinished : (session.executed : ℕ∞) < program.length
  · rcases Program.advance_machineAfter (Program.lt_length_iff.mp unfinished) limit with
      ⟨spent, least, advanced⟩
    rw [advanced]
    exact ⟨spent, least, rfl, rfl⟩
  · have ended := not_lt.mp unfinished
    rcases Program.endsWithin_of_length_le ended with ⟨ending, ends⟩
    rw [Program.advance_of_endsWithin ends limit, tsub_eq_zero_of_le ended]
    exact ⟨0, by simp, rfl, rfl⟩

theorem add_le_length {executed spent limit : ℕ∞} {length : ℕ∞} (within : executed <= length)
    (least : spent = min limit (length - executed)) : executed + spent <= length := by
  rw [add_comm]
  apply add_le_of_le_tsub_right_of_le within
  rw [least]
  exact min_le_right _ _

theorem Kept.after_slice (kept : session.Kept program) (fuel : Fuel) (limit : Nat) :
    Kept program
      { machine := (session.machine.advance limit).machine
        fuel := fuel
        executed := session.executed + (session.machine.advance limit).spent
        started := true } := by
  rcases kept.exists_spent limit with ⟨spent, least, spends, moves⟩
  rw [spends, moves]
  refine .underway rfl ?_ rfl
  rw [Nat.cast_add]
  exact add_le_length kept.within least

theorem Kept.refuelled (kept : session.Kept program) (fuel : Fuel) :
    (session.refuelled fuel).Kept program := by
  cases kept with
  | idle unstarted none machine => exact .idle unstarted none machine
  | underway started within machine => exact .underway started within machine

theorem Kept.turn (kept : session.Kept program) (turn : session.Turn after) :
    after.Kept program := by
  cases turn with
  | exchange | refill | consume | interrupt => exact kept.refuelled _
  | step => exact kept.after_slice _ _
  | run completes =>
      rcases (Machine.completes_iff.mp completes).2 with ⟨limit, rfl⟩
      exact kept.after_slice _ limit
  | result => exact kept
  | reset => exact .idle rfl rfl (congrArg Machine.ofProgram kept.program_eq)

theorem Reachable.kept (reached : session.Reachable program) : session.Kept program := by
  induction reached with
  | opening => exact .idle rfl rfl rfl
  | turn _ turn kept => exact kept.turn turn

end Session

/-!
## What the host gets to see
-/

def Machine.Unfinished (machine : Machine) : Prop :=
  match machine.status with
  | .ready => True
  | .running _ => True
  | .finished _ _ _ => False
  | .failed _ _ => False

/-- A slice of an unfinished machine: so many instructions of the unsliced execution are executed
and paid for, and the answer is there if and only if the last instruction is among them. -/
structure Session.Slices (program : Program) (session : Session) (spent : Nat) : Prop where
  least : (spent : ℕ∞) =
    min (session.fuel.available : ℕ∞) (program.length - session.executed)
  executed : session.stepped.executed = session.executed + spent
  paid : session.stepped.fuel.remaining.toInt = session.fuel.remaining.toInt - spent
  interrupted : session.stepped.fuel.interrupted = session.fuel.interrupted
  ending : 0 < spent ∧ (session.executed + spent : ℕ∞) = program.length ->
    exists ending, program.EndsWithin (session.executed + spent) ending ∧
      (session.machine.step session.fuel).1 = ending.map some
  pending : ¬ (0 < spent ∧ (session.executed + spent : ℕ∞) = program.length) ->
    (session.machine.step session.fuel).1 = .ok none
  pc : session.stepped.machine.pc = (program.stateAfter (session.executed + spent)).pc
  peak : session.stepped.machine.peak = (program.stateAfter (session.executed + spent)).peak

/-- A slice of the session executes nothing and costs nothing.  All that it can change is that the
machine has been started. -/
structure Session.Rests (session : Session) : Prop where
  executed : session.stepped.executed = session.executed
  fuel : session.stepped.fuel = session.fuel
  pending : session.machine.Unfinished -> (session.machine.step session.fuel).1 = .ok none
  machine : session.started = true -> session.stepped.machine = session.machine

/-- A run of an unfinished machine to the end: what is left of the unsliced execution is
executed. -/
structure Session.Completes (program : Program) (session : Session) (slice : Machine.Slice) :
    Prop where
  whole : (session.executed + slice.spent : ℕ∞) = program.length
  ending : exists ending, program.EndsWithin (session.executed + slice.spent) ending ∧
    slice.answer = ending.map some
  pc : slice.machine.pc = (program.stateAfter (session.executed + slice.spent)).pc
  peak : slice.machine.peak = (program.stateAfter (session.executed + slice.spent)).peak

/-- The session shows the unsliced execution as far as it has got, and whatever the host does next
goes on with it. -/
structure Session.Unsliced (program : Program) (session : Session) : Prop where
  within : (session.executed : ℕ∞) <= program.length
  unfinished_iff : session.machine.Unfinished ↔ (session.executed : ℕ∞) < program.length
  unstarted : session.started = false ->
    session.executed = 0 ∧ session.machine.pc = program.entry ∧ session.machine.peak = 0
  starts : session.started = false -> session.fuel.available = 0 ->
    session.stepped.machine.pc = program.entry ∧
      session.stepped.machine.peak = Stack.headerSize + program.entryFrameSize
  rests : session.fuel.available = 0 -> session.Rests
  interrupt : session.fuel.interrupt.remaining = session.fuel.remaining ∧
    (session.refuelled session.fuel.interrupt).Rests
  started : session.started = true ->
    session.machine.pc = (program.stateAfter session.executed).pc ∧
      session.machine.peak = (program.stateAfter session.executed).peak
  step : session.machine.Unfinished -> exists spent, session.Slices program spent
  run : session.machine.Unfinished -> forall slice, session.machine.Completes slice ->
    session.Completes program slice
  run_ends : (exists slice, session.machine.Completes slice) ↔ program.length ≠ ⊤
  result : session.machine.Unfinished -> session.machine.result? = none
  ended : ¬ session.machine.Unfinished ->
    exists ending, program.EndsWithin session.executed ending ∧
      session.machine.result? = ending.toOption ∧
      session.machine.step session.fuel =
        (Program.repeated ending, session.fuel, session.machine) ∧
      forall slice, session.machine.Completes slice ->
        slice = ⟨Program.repeated ending, 0, session.machine⟩
  reset : session.restarted = { Session.opening program with fuel := session.fuel }

namespace Session

variable {program : Program} {session : Session}

theorem Kept.unfinished_iff (kept : session.Kept program) :
    session.machine.Unfinished ↔ (session.executed : ℕ∞) < program.length := by
  cases kept with
  | idle _ none machine =>
      rw [none, machine]
      exact iff_of_true trivial (Process.duration_pos _)
  | underway _ _ machine =>
      rw [machine, Program.lt_length_iff, Program.machineAfter]
      cases program.process.run session.executed (.start program) with
      | none => exact iff_of_true trivial rfl
      | some ending =>
          refine iff_of_false ?_ (fun same => nomatch same)
          cases ending <;> exact id

theorem Kept.endsWithin (kept : session.Kept program) (finished : ¬ session.machine.Unfinished) :
    exists ending, program.EndsWithin session.executed ending := by
  rw [kept.unfinished_iff, not_lt] at finished
  exact Program.endsWithin_of_length_le finished

theorem Kept.machine_eq (kept : session.Kept program) (finished : ¬ session.machine.Unfinished) :
    session.machine = program.machineAfter session.executed := by
  cases kept with
  | idle _ none machine =>
      rw [machine] at finished
      exact absurd trivial finished
  | underway _ _ machine => exact machine

theorem Kept.answer (kept : session.Kept program) (unfinished : session.machine.Unfinished)
    (limit : Nat) :
    (session.machine.advance limit).answer =
      Machine.shown (program.process.run
        (session.executed + (session.machine.advance limit).spent) (.start program)) := by
  rw [kept.unfinished_iff, Program.lt_length_iff] at unfinished
  rcases Program.advance_machineAfter unfinished limit with ⟨spent, _, advanced⟩
  rw [kept.advance limit, advanced]

theorem Kept.slices (kept : session.Kept program) (unfinished : session.machine.Unfinished) :
    exists spent, session.Slices program spent := by
  rcases kept.exists_spent session.fuel.available with ⟨spent, least, spends, moves⟩
  have answer := kept.answer unfinished session.fuel.available
  rw [spends] at answer
  have affordable : spent <= session.fuel.available := by
    have most : (spent : ℕ∞) <= session.fuel.available := least.trans_le (min_le_left _ _)
    exact_mod_cast most
  refine ⟨spent, least, congrArg (session.executed + ·) spends, ?_, rfl, ?_, ?_, ?_, ?_⟩
  · unfold stepped Machine.step
    simp only
    rw [spends]
    exact Fuel.toInt_consume affordable
  · rintro ⟨_, whole⟩
    have ended : program.length <= (session.executed + spent : Nat) := by
      rw [Nat.cast_add]
      exact whole.ge
    rcases Program.endsWithin_of_length_le ended with ⟨ending, ends⟩
    exact ⟨ending, ends, answer.trans (Program.shown_of_endsWithin ends)⟩
  · intro short
    have atMost : ((session.executed + spent : Nat) : ℕ∞) <= program.length := by
      rw [Nat.cast_add]
      exact add_le_length kept.within least
    have paused : ((session.executed + spent : Nat) : ℕ∞) < program.length := by
      cases spent with
      | zero => exact kept.unfinished_iff.mp unfinished
      | succ spent =>
          apply lt_of_le_of_ne atMost
          rw [Nat.cast_add]
          exact fun whole => short ⟨Nat.succ_pos spent, whole⟩
    rw [Program.lt_length_iff] at paused
    rw [paused] at answer
    exact answer
  · exact (congrArg Machine.pc moves).trans (program.pc_machineAfter _)
  · exact (congrArg Machine.peak moves).trans (program.peak_machineAfter _)

theorem Kept.completes (kept : session.Kept program) (unfinished : session.machine.Unfinished)
    {slice : Machine.Slice} (completes : session.machine.Completes slice) :
    session.Completes program slice := by
  rcases Machine.completes_iff.mp completes with ⟨answered, limit, rfl⟩
  have answer := kept.answer unfinished limit
  rcases kept.exists_spent limit with ⟨spent, least, spends, moves⟩
  rw [spends] at answer
  have ended : program.length <= (session.executed + spent : Nat) := by
    rw [← not_lt, Program.lt_length_iff, ← Machine.shown_eq_none_iff, ← answer]
    exact answered
  rcases Program.endsWithin_of_length_le ended with ⟨ending, ends⟩
  rw [Nat.cast_add] at ended
  refine ⟨?_, ?_, ?_, ?_⟩
  · rw [spends]
    exact le_antisymm (add_le_length kept.within least) ended
  · rw [spends]
    exact ⟨ending, ends, answer.trans (Program.shown_of_endsWithin ends)⟩
  · rw [spends, moves]
    exact program.pc_machineAfter _
  · rw [spends, moves]
    exact program.peak_machineAfter _

theorem Kept.exists_completes (kept : session.Kept program)
    (unfinished : session.machine.Unfinished) {length : Nat} (finite : program.length = length) :
    exists slice, session.machine.Completes slice := by
  have answer := kept.answer unfinished length
  rcases kept.exists_spent length with ⟨spent, least, spends, _⟩
  refine ⟨_, Machine.completes_iff.mpr ⟨?_, length, rfl⟩⟩
  rw [answer, spends, ne_eq, Machine.shown_eq_none_iff, ← Program.lt_length_iff, not_lt,
    Nat.cast_add, least, finite, min_eq_right tsub_le_self]
  exact (add_tsub_cancel_of_le (kept.within.trans_eq finite)).ge

theorem Kept.ended (kept : session.Kept program) (finished : ¬ session.machine.Unfinished) :
    exists ending, program.EndsWithin session.executed ending ∧
      forall limit, session.machine.advance limit =
        ⟨Program.repeated ending, 0, session.machine⟩ := by
  rcases kept.endsWithin finished with ⟨ending, ends⟩
  refine ⟨ending, ends, ?_⟩
  intro limit
  rw [kept.machine_eq finished]
  exact Program.advance_of_endsWithin ends limit

theorem repeated_ne_none (ending : Except Failure Snapshot) :
    Program.repeated ending ≠ .ok none := by
  cases ending <;> simp [Program.repeated]

theorem Kept.exists_completes_iff (kept : session.Kept program) :
    (exists slice, session.machine.Completes slice) ↔ program.length ≠ ⊤ := by
  by_cases unfinished : session.machine.Unfinished
  · constructor
    · rintro ⟨slice, completes⟩
      rw [← (kept.completes unfinished completes).whole]
      exact_mod_cast ENat.natCast_ne_top (session.executed + slice.spent)
    · intro finite
      rcases ENat.ne_top_iff_exists.mp finite with ⟨length, finite⟩
      exact kept.exists_completes unfinished finite.symm
  · rcases kept.ended unfinished with ⟨ending, _, advances⟩
    refine iff_of_true ?_ ?_
    · refine ⟨_, Machine.completes_iff.mpr ⟨?_, 0, advances 0⟩⟩
      exact repeated_ne_none ending
    · rw [kept.unfinished_iff, not_lt] at unfinished
      exact ne_top_of_le_ne_top (ENat.natCast_ne_top session.executed) unfinished

theorem Kept.unstarted (kept : session.Kept program) (unstarted : session.started = false) :
    session.executed = 0 ∧ session.machine = .ofProgram program := by
  cases kept with
  | idle _ none machine => exact ⟨none, machine⟩
  | underway started _ _ =>
      rw [unstarted] at started
      cases started

theorem Kept.started (kept : session.Kept program) (started : session.started = true) :
    session.machine = program.machineAfter session.executed := by
  cases kept with
  | idle unstarted _ _ =>
      rw [started] at unstarted
      cases unstarted
  | underway _ _ machine => exact machine

theorem stepped_opening (unstarted : session.machine = .ofProgram program)
    (exhausted : session.fuel.available = 0) :
    session.stepped.machine = ⟨program, .running (.start program)⟩ := by
  -- Even a slice that executes nothing lays out the outermost frame.
  rw [stepped, Machine.step, unstarted, exhausted]
  rfl

theorem result?_of_unfinished {machine : Machine} (unfinished : machine.Unfinished) :
    machine.result? = none := by
  rcases machine with ⟨program, status⟩
  cases status with
  | ready | running | failed => rfl
  | finished => exact unfinished.elim

theorem Kept.step_ended (kept : session.Kept program) (finished : ¬ session.machine.Unfinished) :
    exists ending, program.EndsWithin session.executed ending ∧
      session.machine.result? = ending.toOption ∧
      session.machine.step session.fuel =
        (Program.repeated ending, session.fuel, session.machine) ∧
      forall slice, session.machine.Completes slice ->
        slice = ⟨Program.repeated ending, 0, session.machine⟩ := by
  rcases kept.ended finished with ⟨ending, ends, advances⟩
  refine ⟨ending, ends, ?_, ?_, ?_⟩
  · rw [kept.machine_eq finished]
    exact Program.result?_of_endsWithin ends
  · rw [Machine.step, advances]
    simp only
    rw [Fuel.consume_zero]
  · intro slice completes
    rcases (Machine.completes_iff.mp completes).2 with ⟨limit, rfl⟩
    exact advances limit

theorem Kept.rests (kept : session.Kept program) (exhausted : session.fuel.available = 0) :
    session.Rests := by
  rcases kept.exists_spent 0 with ⟨spent, least, spends, moves⟩
  have none : spent = 0 := by
    rw [Nat.cast_zero, min_eq_left zero_le] at least
    exact_mod_cast least
  rw [none] at spends moves
  constructor
  · show session.executed + (session.machine.advance session.fuel.available).spent = _
    rw [exhausted, spends, Nat.add_zero]
  · show session.fuel.consume (Int32.ofNat (session.machine.advance _).spent) = _
    rw [exhausted, spends, Fuel.consume_zero]
  · intro unfinished
    show (session.machine.advance session.fuel.available).answer = _
    have paused := Program.lt_length_iff.mp (kept.unfinished_iff.mp unfinished)
    rw [exhausted, kept.answer unfinished, spends, Nat.add_zero, paused]
    rfl
  · intro started
    show (session.machine.advance session.fuel.available).machine = _
    rw [exhausted, moves, Nat.add_zero, kept.started started]

/-- How the host cuts the execution into slices makes no difference to what it sees: a slice always
executes as many instructions of the one unsliced execution as its fuel and the end of the execution
allow, a run executes the rest, and a machine that has ended stays as it is. -/
theorem slicing_is_invisible (program : Program) (session : Session)
    (reached : session.Reachable program) : session.Unsliced program := by
  have kept := reached.kept
  refine ⟨kept.within, kept.unfinished_iff, ?_, ?_, kept.rests, ?_, ?_, kept.slices, ?_,
    kept.exists_completes_iff, result?_of_unfinished, kept.step_ended, ?_⟩
  · intro unstarted
    rcases kept.unstarted unstarted with ⟨none, machine⟩
    rw [machine]
    exact ⟨none, rfl, rfl⟩
  · intro unstarted exhausted
    rw [stepped_opening (kept.unstarted unstarted).2 exhausted]
    exact ⟨rfl, rfl⟩
  · constructor
    · exact session.fuel.remaining_interrupt
    · exact (kept.refuelled _).rests session.fuel.available_interrupt
  · intro started
    rw [kept.started started]
    exact ⟨program.pc_machineAfter _, program.peak_machineAfter _⟩
  · intro unfinished slice completes
    exact kept.completes unfinished completes
  · rw [restarted, Machine.reset, kept.program_eq]
    rfl

/-- Two instructions that yield a boolean. -/
def constantProgram : Program where
  code := #[.operation (.literal ⟨0⟩ (.boolean true)), .operation (.exit ⟨0⟩)]
  spans := #[⟨⟨0⟩, 0, 0⟩, ⟨⟨0⟩, 0, 0⟩]
  operands := #[]
  declarations := #[]
  blocks := [⟨⟨0⟩, 2, 1⟩]
  entry := ⟨0⟩
  entryFrameSize := 1

def halfwayExecuted : Session :=
  ((opening constantProgram).refuelled (.full 1)).stepped

theorem slicing_is_invisible_halfway :
    halfwayExecuted.Reachable constantProgram ∧ halfwayExecuted.executed = 1 ∧
      halfwayExecuted.machine.pc = ⟨1⟩ ∧ halfwayExecuted.machine.peak = 3 ∧
      halfwayExecuted.fuel = .empty ∧ halfwayExecuted.Unsliced constantProgram := by
  have reached : halfwayExecuted.Reachable constantProgram :=
    .turn (.turn .opening (.exchange _ _)) (.step _)
  exact ⟨reached, rfl, rfl, rfl, rfl, slicing_is_invisible _ _ reached⟩

end Session
end StrictLambda
