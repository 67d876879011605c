import StrictLambda.Proofs.Execution.Duration
import StrictLambda.Proofs.Execution.Performance
import StrictLambda.Proofs.Layout.Heights

/-!
# Functions that a machine enters

A machine enters the functions that the block interpreter enters, in the same order, and has one
frame more than there are callers when it does.
-/

namespace StrictLambda

def Instruction.entersFunction : Instruction -> Bool
  | .operation (.call _ _ _) => true
  | .operation (.tailCall _ _) => true
  | _ => false

theorem Process.exists_steps_trail {State Result Mark : Type} (process : Process State Result)
    (mark : State -> State -> List Mark) (limit : Nat) (start : State) :
    exists count, count <= limit ∧ process.Steps count start (process.trail limit start) ∧
      process.marks mark limit start = process.marks mark count start := by
  induction limit generalizing start with
  | zero => exact ⟨0, Nat.le_refl 0, .refl start, rfl⟩
  | succ limit ih =>
      rw [trail]
      cases moved : process start with
      | halt ending =>
          exact ⟨0, Nat.zero_le _, .refl start, marks_of_halt moved _⟩
      | again next =>
          rcases ih next with ⟨count, within, steps, same⟩
          refine ⟨count + 1, Nat.succ_le_succ within, .step moved steps, ?_⟩
          rw [marks_of_again moved, marks_of_again moved, same]

namespace Program

/-- The code at the address is entered, and with the frame of this function there are so many. -/
structure Entrance where
  body : Address
  frames : Nat

def entrances (program : Program) (state next : State) : List Entrance :=
  if (program.fetch? state.pc).any fun fetched => fetched.1.entersFunction then
    [⟨next.pc, next.frames⟩]
  else
    []

def entered (program : Program) (limit : Nat) : List Entrance :=
  program.process.marks program.entrances limit (.start program)

theorem entered_mono (program : Program) {count limit : Nat} (within : count <= limit) :
    program.entered count <+: program.entered limit :=
  Process.marks_mono within (State.start program)

def entranceOf (program : Program) (entrance : Block.Entrance) : Entrance where
  body := (program.entryOf entrance.number).body
  frames := entrance.callers + 1

variable {program : Program} {state next : Block.State} {machine after : State} {node : Node}

/-!
## One instruction
-/

theorem Realizes.entersFunction_eq {body : Block.Body} {position : Nat}
    {instruction : Instruction} (realizes : program.Realizes body position node instruction) :
    instruction.entersFunction = Block.Node.entersFunction node := by
  cases realizes with
  | @operation action span => cases action <;> rfl
  | function | data | dataType | jump | jumpUnless => rfl

theorem position_of_leads (leads : state.Leads node next)
    (enters : Block.Node.entersFunction node = true) : next.frame.position = 0 := by
  cases leads with
  | call | tailCall => rfl
  | store produced => cases produced <;> cases enters
  | endFixpoint | leave | jump | holds | fails | label => cases enters

theorem Follows.entrances_eq (follows : program.Follows state machine)
    (found : state.frame.node? = some node) (emits : node.codeLength = 1)
    (leads : state.Leads node next) (represents : program.Represents next after) :
    program.entrances machine after = (state.entrances next).map program.entranceOf := by
  rcases follows with ⟨sound, before⟩
  rcases sound.frame.holds.fetch?_eq found emits with ⟨instruction, realizes, fetched⟩
  unfold entrances
  rw [before.pc, fetched, Option.any_some, realizes.entersFunction_eq]
  cases enters : Block.Node.entersFunction node with
  | false =>
      rw [Block.State.entrances_eq_nil found enters]
      rfl
  | true =>
      have pc := represents.pc
      rw [position_of_leads leads enters, addressOf_zero] at pc
      rw [Block.State.entrances_eq found enters, pc, represents.frames_eq]
      rfl

theorem Follows.again_of_again (follows : program.Follows state machine)
    (returns : forall source span, node = .operation (.leave source) span ->
      program.Returns state.callers)
    (found : state.frame.node? = some node) (emits : node.codeLength = 1)
    (moved : Block.process state = .again next) :
    exists after, program.process machine = .again after ∧ program.Follows next after ∧
      program.entrances machine after = (state.entrances next).map program.entranceOf := by
  have agrees := follows.2.step follows.1 returns found emits
  have stepped := Block.process_eq_again_iff.mp moved
  rcases Block.State.step_eq_next_iff.mp stepped with ⟨own, foundOwn, leads⟩
  rcases agrees.exists_next stepped with ⟨after, stepsTo, represents⟩
  cases found.symm.trans foundOwn
  exact ⟨after, process_eq_again_iff.mpr stepsTo, ⟨follows.1.leads found leads, represents⟩,
    follows.entrances_eq found emits leads represents⟩

theorem Follows.skip (follows : program.Follows state machine) {label : Label} {span : Span}
    (found : state.frame.node? = some (.label label span)) :
    Block.process state = .again { state with frame := state.frame.advance } ∧
      program.Follows { state with frame := state.frame.advance } machine ∧
      state.entrances { state with frame := state.frame.advance } = [] :=
  ⟨Block.process_eq_again_iff.mpr (Block.State.step_eq_next_iff.mpr ⟨_, found, .label⟩),
    ⟨follows.1.leads found .label, follows.2.skip found⟩,
    Block.State.entrances_eq_nil found rfl⟩

/-!
## Whole runs
-/

theorem Follows.settle (follows : program.Follows state machine) :
    exists count settled node, Block.process.Steps count state settled ∧
      Block.process.marks Block.State.entrances count state = [] ∧
      program.Follows settled machine ∧ settled.frame.node? = some node ∧
      node.codeLength = 1 := by
  induction bounded : remaining state using Nat.strongRecOn generalizing state with
  | ind _ ih =>
      rcases follows.1.frame.exists_node with ⟨node, found⟩
      rcases codeLength_eq_one_or_label node with emits | ⟨label, span, rfl⟩
      · exact ⟨0, state, node, .refl state, rfl, follows, found, emits⟩
      · have inside := follows.1.frame.inside
        have fewer : remaining { state with frame := state.frame.advance } < remaining state := by
          unfold remaining
          simp only [Block.Frame.advance, Block.Frame.goto]
          omega
        rcases follows.skip found with ⟨skipped, followsNext, nothing⟩
        rcases ih _ (bounded ▸ fewer) followsNext rfl with
          ⟨count, settled, node, steps, quiet, rest⟩
        refine ⟨count + 1, settled, node, .step skipped steps, ?_, rest⟩
        rw [Process.marks_of_again skipped, nothing, quiet, List.nil_append]

theorem Follows.again (follows : program.Follows state machine)
    (moved : program.process machine = .again after) :
    exists count next, Block.process.Steps count state next ∧
      (Block.process.marks Block.State.entrances count state).map program.entranceOf =
        program.entrances machine after ∧
      program.Follows next after := by
  rcases follows.settle with ⟨count, settled, node, steps, quiet, followsHere, found, emits⟩
  have returns := followsHere.2.returns_of_step followsHere.1 found (process_eq_again_iff.mp moved)
  have agrees := followsHere.2.step followsHere.1 returns found emits
  rcases agrees.exists_next_back (process_eq_again_iff.mp moved) with ⟨next, stepped, _⟩
  have moves := Block.process_eq_again_iff.mpr stepped
  rcases followsHere.again_of_again returns found emits moves with
    ⟨own, same, followsNext, marked⟩
  rw [moved] at same
  cases same
  refine ⟨count + 1, next, steps.trans (.single moves), ?_, followsNext⟩
  rw [Process.marks_add_of_steps _ steps, quiet, List.nil_append,
    Process.marks_of_again moves, Process.marks, List.append_nil, marked]

/-- Wherever the machine comes, it has entered what the block interpreter has entered on the way to
a state that the machine stands for. -/
theorem Follows.exists_of_steps {count : Nat}
    (steps : program.process.Steps count machine after)
    (follows : program.Follows state machine) :
    exists moves next, Block.process.Steps moves state next ∧
      (Block.process.marks Block.State.entrances moves state).map program.entranceOf =
        program.process.marks program.entrances count machine ∧
      program.Follows next after := by
  induction steps generalizing state with
  | refl machine => exact ⟨0, state, .refl state, rfl, follows⟩
  | step moved _ ih =>
      rcases follows.again moved with ⟨first, middle, before, marked, followsMiddle⟩
      rcases ih followsMiddle with ⟨second, next, later, markedLater, followsNext⟩
      refine ⟨first + second, next, before.trans later, ?_, followsNext⟩
      rw [Process.marks_add_of_steps _ before, List.map_append, marked, markedLater,
        Process.marks_of_again moved]

theorem callers_length_le {moves depth : Nat} (steps : Block.process.Steps moves state next)
    (first : state.callers.length <= depth)
    (each : forall entrance, entrance ∈ Block.process.marks Block.State.entrances moves state ->
      entrance.callers <= depth) : next.callers.length <= depth := by
  induction steps with
  | refl state => exact first
  | @step count state middle last moved _ ih =>
      rw [Process.marks_of_again moved] at each
      refine ih ?_ fun entrance member => each entrance (List.mem_append_right _ member)
      rcases Block.State.step_eq_next_iff.mp (Block.process_eq_again_iff.mp moved) with
        ⟨node, found, leads⟩
      cases enters : Block.Node.entersFunction node with
      | true =>
          rw [Block.State.entrances_eq found enters] at each
          exact each _ (List.mem_append_left _ List.mem_cons_self)
      | false =>
          cases leads with
          | call | tailCall => cases enters
          | store | endFixpoint | jump | holds | fails | label => exact first
          | leave read waiting written =>
              rw [waiting, List.length_cons] at first
              exact Nat.le_of_succ_le first

theorem Follows.exists_marks_eq (small : program.size < Address.halt.index)
    (follows : program.Follows state machine) (moves : Nat) :
    exists count, program.process.marks program.entrances count machine =
      (Block.process.marks Block.State.entrances moves state).map program.entranceOf := by
  induction moves generalizing state machine with
  | zero => exact ⟨0, rfl⟩
  | succ moves ih =>
      cases moved : Block.process state with
      | halt ending =>
          rw [Process.marks_of_halt moved]
          exact ⟨0, rfl⟩
      | again next =>
          rw [Process.marks_of_again moved]
          rcases follows.1.frame.exists_node with ⟨node, found⟩
          rcases codeLength_eq_one_or_label node with emits | ⟨label, span, rfl⟩
          · rcases follows.again_of_again (fun _ _ _ => follows.1.returns small) found emits
              moved with ⟨after, moves, followsNext, marked⟩
            rcases ih followsNext with ⟨count, same⟩
            refine ⟨count + 1, ?_⟩
            rw [Process.marks_of_again moves, List.map_append, marked, same]
          · rcases follows.skip found with ⟨skipped, followsNext, nothing⟩
            rw [skipped] at moved
            cases moved
            rw [nothing, List.nil_append]
            exact ih followsNext

end Program
end StrictLambda
