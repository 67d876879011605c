import StrictLambda.Proofs.Machine.Failures
import StrictLambda.Proofs.Machine.Values

/-!
# Cells are written once

Values do not change once they are made, with one exception: a cell is empty at first and is tied
later, and by then copies of it can be in registers of many frames, in captures and in fields.
Nothing is known of the program here.  Still every cell is made once, is tied at most once, and from
then on holds the same value for the rest of the run.
-/

namespace StrictLambda

namespace Cells

variable {Code : Type} {cells after : Cells Code} {cell : Cell} {value : Value Code}

theorem content?_eq_none_of_tie (tied : cells.tie cell value = .ok after) :
    cells.content? cell = none := by
  unfold tie at tied
  split at tied
  · cases tied
  · assumption

theorem read_of_content? (holds : cells.content? cell = some value) :
    cells.read cell = .ok value := by
  unfold read
  rw [holds]

theorem read_of_content?_eq_none (empty : cells.content? cell = none) :
    cells.read cell = .error .untied := by
  unfold read
  rw [empty]

end Cells

theorem Stack.read_of_write {stack after : Stack} {base : Nat} {register : Register}
    {value : Value Entry} (written : stack.write base register value = .ok after) :
    after.read base register = .ok value := by
  rcases write_eq_ok_iff.mp written with ⟨inside, slots⟩
  rw [Stack.size, ← Array.length_toList] at inside
  unfold Stack.read
  rw [← Array.getElem?_toList, slots, List.getElem?_set_self inside]

/-!
## One instruction
-/

namespace State

variable {program : Program} {state after : State} {instruction : Instruction} {cell : Cell}
  {value : Value Entry}

theorem Leads.cells_cases (leads : state.Leads program instruction after) :
    after.cells = state.cells ∨
      (exists dest, instruction = .operation (.beginFixpoint dest) ∧
        after.cells = state.cells.allocate.2) ∨
      exists fixpoint source tied content,
        instruction = .operation (.endFixpoint fixpoint source) ∧
          state.read fixpoint = .ok (.fixpoint tied) ∧ state.read source = .ok content ∧
            state.cells.tie tied content = .ok after.cells := by
  cases leads with
  | store produced _ =>
      cases produced with
      | beginFixpoint => exact .inr (.inl ⟨_, rfl, rfl⟩)
      | derefFixpoint | copy | member | literal | primitive | function | data | dataType =>
          exact .inl rfl
  | endFixpoint found read tied => exact .inr (.inr ⟨_, _, _, _, rfl, found, read, tied⟩)
  | call | tailCall | leave | jump | jumpUnless => exact .inl rfl

theorem Leads.size_le (leads : state.Leads program instruction after) :
    state.cells.size <= after.cells.size := by
  rcases leads.cells_cases with same | ⟨_, _, made⟩ | ⟨_, _, _, _, _, _, _, ties⟩
  · exact Nat.le_of_eq (congrArg Cells.size same.symm)
  · rw [made, Cells.size_allocate]
    exact Nat.le_succ _
  · exact Nat.le_of_eq (Cells.size_of_tie ties).symm

theorem Leads.of_content?_ne (leads : state.Leads program instruction after)
    (differs : after.cells.content? cell ≠ state.cells.content? cell) :
    exists fixpoint source content, instruction = .operation (.endFixpoint fixpoint source) ∧
      state.read fixpoint = .ok (.fixpoint cell) ∧ state.read source = .ok content ∧
        state.cells.content? cell = none ∧ after.cells.content? cell = some content := by
  -- Only tying changes what a cell holds, and it changes an empty cell only.
  rcases leads.cells_cases with same | ⟨dest, _, made⟩ |
    ⟨fixpoint, source, tied, content, ends, found, read, ties⟩
  · exact absurd (congrArg (fun cells => cells.content? cell) same) differs
  · rw [made, Cells.content?_allocate] at differs
    exact absurd rfl differs
  · by_cases other : cell = tied
    · subst other
      have empty := Cells.content?_eq_none_of_tie ties
      rw [empty] at differs
      rcases Option.ne_none_iff_exists'.mp differs with ⟨content', holds⟩
      rcases Cells.eq_or_content?_of_tie ties holds with rfl | old
      · exact ⟨fixpoint, source, _, ends, found, read, empty, holds⟩
      · rw [empty] at old
        cases old
    · exact absurd (Cells.content?_of_tie_of_ne ties other) differs

theorem Leads.content?_eq (leads : state.Leads program instruction after)
    (holds : state.cells.content? cell = some value) :
    after.cells.content? cell = some value := by
  by_cases same : after.cells.content? cell = state.cells.content? cell
  · exact same.trans holds
  · rcases leads.of_content?_ne same with ⟨_, _, _, _, _, _, empty, _⟩
    rw [holds] at empty
    cases empty

theorem step_derefFixpoint {dest source : Register} {span : Span}
    (fetched : program.fetch? state.pc = some (.operation (.derefFixpoint dest source), span))
    (read : state.read source = .ok (.fixpoint cell)) :
    state.step program =
      blameDefect span (state.cells.read cell) >>= fun found => state.store dest found := by
  unfold step
  rw [fetched]
  change (state.read source >>= _) = _
  rw [read]
  rfl

theorem tie_of_content? {span : Span} {content : Value Entry}
    (holds : state.cells.content? cell = some value) :
    state.tie span cell content = .error (.defect .tiedTwice (some span)) := by
  unfold tie Cells.tie
  dsimp only
  rw [holds]
  rfl

theorem step_endFixpoint {fixpoint source : Register} {span : Span}
    (fetched : program.fetch? state.pc = some (.operation (.endFixpoint fixpoint source), span))
    (read : state.read fixpoint = .ok (.fixpoint cell)) :
    state.step program = state.read source >>= fun content =>
      state.tie span cell content >>= fun tied => pure (tied.goto state.pc.next) := by
  unfold step
  rw [fetched]
  change (state.read fixpoint >>= _) = _
  rw [read]
  rfl

/-!
## Cells that have been made
-/

def Creates (program : Program) (state : State) (cell : Cell) (after : State) : Prop :=
  program.process state = .again after ∧ exists dest span,
    program.fetch? state.pc = some (.operation (.beginFixpoint dest), span) ∧
      after.read dest = .ok (.fixpoint cell)

theorem of_begin {dest : Register} {span : Span}
    (fetched : program.fetch? state.pc = some (.operation (.beginFixpoint dest), span))
    (moved : program.process state = .again after) :
    after.cells = state.cells.allocate.2 ∧
      after.read dest = .ok (.fixpoint state.cells.allocate.1) := by
  rcases leads_of_step (Program.process_eq_again_iff.mp moved) with ⟨instruction, _, own, leads⟩
  cases fetched.symm.trans own
  cases leads with
  | store produced written =>
      cases produced
      exact ⟨rfl, Stack.read_of_write written⟩

theorem Creates.eq (creates : state.Creates program cell after) :
    cell = state.cells.allocate.1 ∧ after.cells = state.cells.allocate.2 := by
  rcases creates with ⟨moved, dest, span, fetched, read⟩
  rcases of_begin fetched moved with ⟨cells, own⟩
  rw [own] at read
  cases read
  exact ⟨rfl, cells⟩

end State

def Value.Known (cells : Cells Entry) (value : Value Entry) : Prop :=
  forall cell, value = .fixpoint cell -> cell.index < cells.size

theorem Value.allNew_known (cells : Cells Entry) : Value.AllNew (Value.Known cells) cells where
  literal := by
    rintro value ⟨literal, rfl⟩ cell same
    cases literal <;> cases same
  dataType _ _ same := nomatch same
  cell cell inside := by
    intro other same
    cases same
    exact inside
  function _ _ _ same := nomatch same
  data _ _ _ _ _ same := nomatch same

theorem State.AllValues.known {program : Program} {state after : State} {instruction : Instruction}
    (all : state.AllValues (Value.Known state.cells))
    (leads : state.Leads program instruction after) :
    after.AllValues (Value.Known after.cells) := by
  -- The only new cell that an instruction can put anywhere is the one that it makes.
  have wider : state.AllValues (Value.Known after.cells) := by
    apply all.mono
    intro value known cell same
    exact Nat.lt_of_lt_of_le (known cell same) leads.size_le
  exact wider.leads (Value.allNew_known after.cells) leads

/-!
## Whole runs
-/

namespace Program

variable {program : Program} {state later : State} {count : Nat} {cell : Cell}
  {value : Value Entry}

theorem known_of_reachable (reachable : program.Reachable state) :
    state.AllValues (Value.Known state.cells) := by
  have again : forall (before : State) (instruction : Instruction) (span : Span) (after : State),
      program.fetch? before.pc = some (instruction, span) ->
        before.Leads program instruction after ->
          before.AllValues (Value.Known before.cells) ->
            after.AllValues (Value.Known after.cells) :=
    fun _ _ _ _ _ leads all => all.known leads
  rcases reachable with ⟨count, steps⟩
  have kept := kept_of_steps again steps (State.allValues_start program)
  exact kept

theorem size_le_of_steps (steps : program.process.Steps count state later) :
    state.cells.size <= later.cells.size := by
  apply kept_of_steps _ steps (Nat.le_refl _)
  intro before instruction span after _ leads atLeast
  exact Nat.le_trans atLeast leads.size_le

theorem content?_of_steps (steps : program.process.Steps count state later)
    (holds : state.cells.content? cell = some value) :
    later.cells.content? cell = some value := by
  apply kept_of_steps _ steps holds
  intro before instruction span after _ leads kept
  exact leads.content?_eq kept

/-- The next instruction fails in this way.  The run comes to no other state, so the cells stay as
they are. -/
def StopsWith (program : Program) (state : State) (failure : Failure) : Prop :=
  program.process state = .halt (.error failure) ∧
    forall count later, program.process.Steps count state later -> later.cells = state.cells

theorem stopsWith_of_step {failure : Failure} (failed : state.step program = .error failure) :
    program.StopsWith state failure := by
  have halted := process_eq_halt_error_iff.mpr failed
  refine ⟨halted, ?_⟩
  intro count later steps
  cases steps with
  | refl => rfl
  | step first _ =>
      rw [halted] at first
      cases first

/-- What a program does with cells.  Beginning a fixpoint makes a cell that is empty and that the
machine did not know before, and no two of them make the same one.  A cell changes only when a
fixpoint is ended on it, and only from empty to tied.  From then on it holds that value: whichever
register it is read through, and however it came to be there, the value is found, and it is still
there when the run ends.  Reading an empty cell or tying a tied one is where a run stops. -/
structure WritesCellsOnce (program : Program) : Prop where
  begins : forall state after dest span, program.Reachable state ->
    program.fetch? state.pc = some (.operation (.beginFixpoint dest), span) ->
      program.process state = .again after -> exists cell,
        state.Creates program cell after ∧ after.cells.content? cell = none
  unknown : forall state after cell, program.Reachable state ->
    state.Creates program cell after -> ¬ state.Reaches (.fixpoint cell)
  apart : forall earlier middle later after one other count, program.Reachable earlier ->
    earlier.Creates program one middle -> program.process.Steps count middle later ->
      later.Creates program other after -> one ≠ other
  changes : forall state after cell, program.Reachable state ->
    program.process state = .again after ->
      after.cells.content? cell ≠ state.cells.content? cell ->
        exists fixpoint source span value,
          program.fetch? state.pc = some (.operation (.endFixpoint fixpoint source), span) ∧
            state.read fixpoint = .ok (.fixpoint cell) ∧ state.read source = .ok value ∧
              state.cells.content? cell = none ∧ after.cells.content? cell = some value
  ends : forall state after fixpoint source span, program.Reachable state ->
    program.fetch? state.pc = some (.operation (.endFixpoint fixpoint source), span) ->
      program.process state = .again after -> exists cell value,
        state.read fixpoint = .ok (.fixpoint cell) ∧ state.read source = .ok value ∧
          state.cells.content? cell = none ∧ after.cells.content? cell = some value
  keeps : forall state later cell value count, program.Reachable state ->
    state.cells.content? cell = some value -> program.process.Steps count state later ->
      later.cells.content? cell = some value ∧
        (forall dest source span,
          program.fetch? later.pc = some (.operation (.derefFixpoint dest source), span) ->
            later.read source = .ok (.fixpoint cell) ->
              later.step program = later.store dest value) ∧
        forall result cells, program.process later = .halt (.ok (result, cells)) ->
          cells.content? cell = some value
  untied : forall state dest source span cell, program.Reachable state ->
    program.fetch? state.pc = some (.operation (.derefFixpoint dest source), span) ->
      state.read source = .ok (.fixpoint cell) -> state.cells.content? cell = none ->
        program.StopsWith state (.defect .untied (some span))
  tied : forall state fixpoint source span cell value, program.Reachable state ->
    program.fetch? state.pc = some (.operation (.endFixpoint fixpoint source), span) ->
      state.read fixpoint = .ok (.fixpoint cell) -> state.cells.content? cell = some value ->
        exists failure, program.StopsWith state failure ∧
          forall content, state.read source = .ok content ->
            failure = .defect .tiedTwice (some span)

theorem cells_are_written_once (program : Program) : program.WritesCellsOnce where
  begins := by
    intro state after dest span reachable fetched moved
    rcases State.of_begin fetched moved with ⟨cells, read⟩
    refine ⟨_, ⟨moved, dest, span, fetched, read⟩, ?_⟩
    rw [cells, Cells.content?_allocate]
    exact Cells.content?_next state.cells
  unknown := by
    intro state after cell reachable creates reached
    have known := ((known_of_reachable reachable).reaches reached).here cell rfl
    rw [creates.eq.1] at known
    exact Nat.lt_irrefl _ known
  apart := by
    intro earlier middle later after one other count _ first steps second same
    have grown := size_le_of_steps steps
    rw [first.eq.2, Cells.size_allocate] at grown
    rw [first.eq.1, second.eq.1] at same
    exact Nat.ne_of_lt grown (congrArg Cell.index same)
  changes := by
    intro state after cell _ moved differs
    rcases State.leads_of_step (process_eq_again_iff.mp moved) with
      ⟨instruction, span, fetched, leads⟩
    rcases leads.of_content?_ne differs with
      ⟨fixpoint, source, value, rfl, found, read, empty, holds⟩
    exact ⟨fixpoint, source, span, value, fetched, found, read, empty, holds⟩
  ends := by
    intro state after fixpoint source span reachable fetched moved
    rcases State.leads_of_step (process_eq_again_iff.mp moved) with ⟨instruction, _, own, leads⟩
    cases fetched.symm.trans own
    cases leads with
    | store produced _ => cases produced
    | @endFixpoint _ _ cell value _ found read tied =>
        have inside := ((known_of_reachable reachable).stack.read found).here cell rfl
        exact ⟨cell, value, found, read, Cells.content?_eq_none_of_tie tied,
          Cells.content?_of_tie_self tied inside⟩
  keeps := by
    intro state later cell value count _ holds steps
    have kept := content?_of_steps steps holds
    refine ⟨kept, ?_, ?_⟩
    · intro dest source span fetched read
      rw [State.step_derefFixpoint fetched read, Cells.read_of_content? kept]
      rfl
    · intro result cells ended
      rw [(State.yields_of_step (process_eq_halt_ok_iff.mp ended)).1]
      exact kept
  untied := by
    intro state dest source span cell _ fetched read empty
    apply stopsWith_of_step
    rw [State.step_derefFixpoint fetched read, Cells.read_of_content?_eq_none empty]
    rfl
  tied := by
    intro state fixpoint source span cell value _ fetched found holds
    have step := State.step_endFixpoint fetched found
    cases read : state.read source with
    | error failure =>
        rw [read] at step
        refine ⟨failure, stopsWith_of_step step, ?_⟩
        intro content other
        cases other
    | ok content =>
        rw [read, ok_bind, State.tie_of_content? holds] at step
        exact ⟨_, stopsWith_of_step step, fun _ _ => rfl⟩

end Program
end StrictLambda
