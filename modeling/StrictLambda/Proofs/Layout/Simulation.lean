import StrictLambda.Proofs.Execution.Machine
import StrictLambda.Proofs.Layout.Representation

/-!
# The machine follows the block interpreter

The machine executes an instruction for every node but labels, and both come to states that
correspond again or to the same ending.
-/

namespace StrictLambda
namespace Program

open Block (Body Frame)

variable {program : Program} {state : Block.State} {machine : State}

/-!
## One instruction
-/

theorem Represents.perform (represents : program.Represents state machine)
    (sound : program.Sound state) {action : Operation} {span : Span}
    (returns : forall source, action = .leave source -> program.Returns state.callers)
    (found : state.frame.node? = some (.operation action span)) :
    Agrees program (state.perform span action) (machine.perform program span action) := by
  cases action with
  | beginFixpoint dest =>
      unfold Block.State.perform State.perform State.allocate
      rcases machine with ⟨pc, base, peak, stack, cells⟩
      have sameCells : cells = _ := represents.cells
      dsimp only
      rw [sameCells, Cells.allocate_map]
      have after : program.Represents { state with cells := state.cells.allocate.2 }
          ⟨pc, base, peak, stack, state.cells.allocate.2.map program.shown⟩ :=
        ⟨represents.pc, represents.base, represents.top, rfl⟩
      have stored := after.store found rfl dest (.fixpoint state.cells.allocate.1)
      rw [Value.map_fixpoint] at stored
      exact stored
  | derefFixpoint dest source =>
      apply agrees_bind (represents.read_eq source)
      intro content _
      apply agrees_bind_same (Value.expectCell_map _ span content)
      intro cell _
      have read := Cells.read_map program.shown state.cells cell
      rw [← represents.cells] at read
      rw [read, blameDefect_map]
      apply agrees_bind rfl
      intro value _
      exact represents.store found rfl dest value
  | endFixpoint fixpoint source =>
      apply agrees_bind (represents.read_eq fixpoint)
      intro content _
      apply agrees_bind_same (Value.expectCell_map _ span content)
      intro cell _
      apply agrees_bind (represents.read_eq source)
      intro value _
      rcases machine with ⟨pc, base, peak, stack, cells⟩
      have sameCells : cells = _ := represents.cells
      have tie := Cells.tie_map program.shown state.cells cell value
      rw [← sameCells] at tie
      unfold State.tie
      dsimp only
      rw [tie, blameDefect_map]
      cases blameDefect span (state.cells.tie cell value) with
      | error failure => exact .error failure
      | ok after =>
          refine .next ⟨?_, represents.base, represents.top, rfl⟩
          have pc_eq : pc = _ := represents.pc
          rw [pc_eq]
          exact (addressOf_succ found rfl).symm
  | copy dest source =>
      apply agrees_bind (represents.read_eq source)
      intro value _
      exact represents.store found rfl dest value
  | member dest source field =>
      apply agrees_bind (represents.read_eq source)
      intro content _
      apply agrees_bind (Value.member_map _ span field content)
      intro value _
      exact represents.store found rfl dest value
  | literal dest value =>
      have stored := represents.store found rfl dest (.ofLiteral value)
      rw [Value.map_ofLiteral] at stored
      exact stored
  | primitive dest operator lhs rhs =>
      apply agrees_bind (represents.read_eq lhs)
      intro left _
      apply agrees_bind (represents.read_eq rhs)
      intro right _
      rw [Operator.apply_map, blameFault_map]
      apply agrees_bind rfl
      intro value _
      exact represents.store found rfl dest value
  | call dest function argument =>
      apply agrees_bind (represents.read_eq function)
      intro callee read
      apply agrees_bind (Value.expectFunction_map _ span callee)
      intro pair expected
      rcases pair with ⟨body, captures⟩
      apply agrees_bind (represents.read_eq argument)
      intro value _
      cases Value.eq_function_of_expectFunction expected
      exact represents.call found rfl (sound.values.frame.read read).here dest value
  | tailCall function argument =>
      apply agrees_bind (represents.read_eq function)
      intro callee read
      apply agrees_bind (Value.expectFunction_map _ span callee)
      intro pair expected
      rcases pair with ⟨body, captures⟩
      apply agrees_bind (represents.read_eq argument)
      intro value _
      cases Value.eq_function_of_expectFunction expected
      exact represents.tailCall (sound.values.frame.read read).here value
  | leave source =>
      apply agrees_bind (represents.read_eq source)
      intro value _
      exact represents.leave sound (returns source rfl) value
  | exit source =>
      apply agrees_bind (represents.read_eq source)
      intro value _
      rw [represents.cells]
      exact .done value state.cells

theorem operandRegisters_eq {segment : Segment} {registers : List Register}
    (operands : program.operands? segment = some registers) :
    program.operandRegisters segment = .ok registers := by
  unfold operandRegisters
  rw [operands]

theorem Represents.execute (represents : program.Represents state machine)
    (sound : program.Sound state) {node : Node}
    (returns : forall source span, node = .operation (.leave source) span ->
      program.Returns state.callers)
    (found : state.frame.node? = some node) {instruction : Instruction}
    (realizes : program.Realizes state.frame.body state.frame.position node instruction) :
    Agrees program (state.execute node) (machine.execute program node.span instruction) := by
  cases realizes with
  | operation =>
      apply represents.perform sound ?_ found
      rintro source rfl
      exact returns source _ rfl
  | @function dest block captures span segment operands fits holds =>
      rw [Block.State.execute, State.execute, operandRegisters_eq operands, ok_bind]
      apply agrees_bind (represents.readAll_eq _)
      intro values _
      have stored := represents.store found rfl dest
        (.function (state.frame.body.nested state.frame.position block) values)
      rw [Value.map_function, ← entryOf_eq_shown holds] at stored
      exact stored
  | data operands =>
      rw [Block.State.execute, State.execute, operandRegisters_eq operands]
      apply agrees_bind (represents.read_eq _)
      intro content _
      apply agrees_bind_same (Value.constructorNumbered_map _ _ _ content)
      intro pair _
      rcases pair with ⟨declaration, constructor⟩
      dsimp only
      rw [ok_bind]
      apply agrees_bind (represents.readAll_eq _)
      intro values _
      apply agrees_bind (Value.construct_map _ _ _ _ _ values)
      intro value _
      exact represents.store found rfl _ value
  | @dataType dest declaration span index declared =>
      unfold Block.State.execute State.execute
      dsimp only
      rw [declared]
      have stored := represents.store found rfl dest (.dataType declaration)
      rw [Value.map_dataType] at stored
      exact stored
  | jump stands =>
      unfold Block.State.execute State.execute Block.State.jump
      dsimp only
      rw [stands]
      exact represents.goto rfl
  | jumpUnless stands =>
      unfold Block.State.execute State.execute Block.State.jump
      apply agrees_bind (represents.read_eq _)
      intro content _
      apply agrees_bind_same (Value.expectBoolean_map _ _ content)
      intro holds _
      dsimp only
      rw [stands]
      cases holds with
      | true =>
          apply represents.goto
          rw [represents.pc]
          exact (addressOf_succ found rfl).symm
      | false => exact represents.goto rfl

/-- Anything but a label is one instruction of the program, which does the same.  A return does so
if its return address is not taken for the one that ends a run. -/
theorem Represents.step (represents : program.Represents state machine)
    (sound : program.Sound state) {node : Node}
    (returns : forall source span, node = .operation (.leave source) span ->
      program.Returns state.callers)
    (found : state.frame.node? = some node) (emits : node.codeLength = 1) :
    Agrees program state.step (machine.step program) := by
  rcases sound.frame.holds.fetch?_eq found emits with ⟨instruction, realizes, fetched⟩
  unfold Block.State.step State.step
  rw [found, represents.pc, fetched]
  exact represents.execute sound returns found realizes

theorem Represents.returns_of_step (represents : program.Represents state machine)
    (sound : program.Sound state) {node : Node} (found : state.frame.node? = some node)
    {after : State} (stepped : machine.step program = .ok (.next after)) (source : Register)
    (span : Span) (leaves : node = .operation (.leave source) span) :
    program.Returns state.callers := by
  subst leaves
  rcases sound.frame.holds.fetch?_eq found rfl with ⟨instruction, realizes, fetched⟩
  rcases State.leads_of_step stepped with ⟨own, ownSpan, fetchedHere, leads⟩
  rw [represents.pc, fetched] at fetchedHere
  cases fetchedHere
  cases realizes
  cases leads with
  | store produced => cases produced
  | leave _ header returns =>
      rw [represents.base_eq, Stack.header_of_hasTop represents.top] at header
      cases header
      exact fun _ => returns

theorem Represents.skip (represents : program.Represents state machine) {label : Label}
    {span : Span} (found : state.frame.node? = some (.label label span)) :
    program.Represents { state with frame := state.frame.advance } machine where
  pc := by
    rw [represents.pc]
    exact (addressOf_succ_label found).symm
  base := represents.base
  top := represents.top
  cells := represents.cells

/-!
## Whole runs
-/

def Follows (program : Program) (state : Block.State) (machine : State) : Prop :=
  program.Sound state ∧ program.Represents state machine

def remaining (state : Block.State) : Nat :=
  state.frame.body.block.nodes.length - state.frame.position

def shownResult (program : Program) (result : Value Body × Cells Body) :
    Value Entry × Cells Entry :=
  (result.1.map program.shown, result.2.map program.shown)

theorem codeLength_eq_one_or_label (node : Node) :
    node.codeLength = 1 ∨ exists label span, node = .label label span := by
  cases node with
  | label label span => exact .inr ⟨label, span, rfl⟩
  | operation | function | data | dataType | jump | jumpUnless => exact .inl rfl

theorem simulation (small : program.size < Address.halt.index) :
    Process.Simulation Block.process program.process program.Follows remaining
      program.shownResult where
  again := by
    intro state next machine follows moved
    rcases follows with ⟨sound, represents⟩
    have stepped := Block.process_eq_again_iff.mp moved
    rcases Block.State.step_eq_next_iff.mp stepped with ⟨node, found, leads⟩
    have soundNext := sound.leads found leads
    -- Labels are passed over, and every other node is one instruction.
    rcases codeLength_eq_one_or_label node with emits | ⟨label, span, rfl⟩
    · have agrees := represents.step sound (fun _ _ _ => sound.returns small) found emits
      rcases agrees.exists_next stepped with ⟨after, stepsTo, representsNext⟩
      exact .inr ⟨after, process_eq_again_iff.mpr stepsTo, soundNext, representsNext⟩
    · have inside := sound.frame.inside
      have skipped := represents.skip found
      cases leads with
      | store produced => cases produced
      | label =>
          refine .inl ⟨⟨soundNext, skipped⟩, ?_⟩
          unfold remaining
          simp only [Frame.advance, Frame.goto]
          omega
  halt := by
    intro state machine ending follows moved
    rcases follows with ⟨sound, represents⟩
    rcases sound.frame.exists_node with ⟨node, found⟩
    rcases codeLength_eq_one_or_label node with emits | ⟨label, span, rfl⟩
    · have agrees := represents.step sound (fun _ _ _ => sound.returns small) found emits
      cases ending with
      | error failure =>
          have stopped := Block.process_eq_halt_error_iff.mp moved
          exact process_eq_halt_error_iff.mpr (agrees.eq_error_iff.mp stopped)
      | ok result =>
          have ended := Block.process_eq_halt_ok_iff.mp moved
          exact process_eq_halt_ok_iff.mpr (agrees.eq_done ended)
    · have stepped : state.step = .ok (.next { state with frame := state.frame.advance }) :=
        Block.State.step_eq_next_iff.mpr ⟨_, found, .label⟩
      rw [Block.process_eq_again_iff.mpr stepped] at moved
      cases moved

theorem follows_start {tree : Block} (accepted : ofBlock tree = .ok program) :
    program.Follows (.start tree) (.start program) := by
  rcases entryOf_zero_of_ofBlock accepted with ⟨entry, frameSize⟩
  refine ⟨sound_start (holds_of_ofBlock accepted), ?_, rfl, ?_, ?_⟩
  · have address := addressOf_zero program ⟨0, tree⟩
    unfold shown at address
    rw [entry] at address
    exact address.symm
  · unfold State.start Stack.outermost
    rw [frameSize]
    simp [Stack.HasTop, Stack.frameSlots, callerSlots, savedBase, returnAddress, registersOf,
      Block.State.start, Frame.outermost, Stack.slotOf]
  · exact (Cells.map_empty program.shown).symm

end Program
end StrictLambda
