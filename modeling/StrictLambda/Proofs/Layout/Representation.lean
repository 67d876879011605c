import StrictLambda.Machine.Step
import StrictLambda.Proofs.Layout.Frames
import StrictLambda.Proofs.Layout.Soundness
import StrictLambda.Proofs.Machine.Steps
import StrictLambda.Proofs.Value.Map

/-!
# Machine states that stand for states of the block interpreter

A sound state of the block interpreter determines a state of the machine: the frames lie one above
the other on the slot stack, positions become addresses, and functions refer to the code of their
blocks.  Registers, and the frames of callers, are then found where the block interpreter finds
them.
-/

namespace StrictLambda
namespace Program

open Block (Body Caller Frame)

/-!
## Corresponding states
-/

/-- What a function of the block interpreter looks like in the program: where its block starts, and
how many registers the block uses. -/
def shown (program : Program) (body : Body) : Entry where
  body := (program.entryOf body.number).body
  frameSize := body.block.frameSize

def registersOf (program : Program) (frame : Frame) : List (Option (Value Entry)) :=
  frame.registers.map (Option.map (Value.map program.shown))

def height : List Caller -> Nat
  | [] => 0
  | caller :: rest => height rest + (Stack.headerSize + caller.frame.registers.length)

def savedBase : List Caller -> Nat
  | [] => 0
  | _ :: rest => height rest

def returnAddress (program : Program) : List Caller -> Address
  | [] => Address.halt
  | caller :: _ => program.addressOf caller.frame.body caller.frame.position

def callerSlots (program : Program) : List Caller -> List Slot
  | [] => []
  | caller :: rest =>
      program.callerSlots rest ++
        Stack.frameSlots (savedBase rest) (program.returnAddress rest)
          (program.registersOf caller.frame)

/-- The machine state that stands for a state of the block interpreter. -/
structure Represents (program : Program) (state : Block.State) (machine : State) : Prop where
  pc : machine.pc = program.addressOf state.frame.body state.frame.position
  base : machine.base = height state.callers
  top : machine.stack.HasTop (program.callerSlots state.callers) (savedBase state.callers)
    (program.returnAddress state.callers) (program.registersOf state.frame)
  cells : machine.cells = state.cells.map program.shown

variable {program : Program} {state : Block.State} {machine : State}

@[simp] theorem length_registersOf (program : Program) (frame : Frame) :
    (program.registersOf frame).length = frame.registers.length := by
  simp [registersOf]

@[simp] theorem length_callerSlots (program : Program) (callers : List Caller) :
    (program.callerSlots callers).length = height callers := by
  induction callers with
  | nil => rfl
  | cons caller rest ih =>
      rw [callerSlots, List.length_append, ih, Stack.length_frameSlots, length_registersOf,
        height]

theorem Represents.base_eq (represents : program.Represents state machine) :
    machine.base = (program.callerSlots state.callers).length := by
  rw [represents.base, length_callerSlots]

/-!
## Corresponding outcomes
-/

inductive Agrees (program : Program) : Except Failure Block.Transition ->
    Except Failure Transition -> Prop where
  | next {after : Block.State} {machine : State} (represents : program.Represents after machine) :
      Agrees program (.ok (.next after)) (.ok (.next machine))
  | done (value : Value Body) (cells : Cells Body) :
      Agrees program (.ok (.done value cells))
        (.ok (.done (value.map program.shown) (cells.map program.shown)))
  | error (failure : Failure) : Agrees program (.error failure) (.error failure)

namespace Agrees

variable {outcome : Except Failure Block.Transition} {other : Except Failure Transition}

theorem exists_next (agrees : Agrees program outcome other) {after : Block.State}
    (moved : outcome = .ok (.next after)) :
    exists machine, other = .ok (.next machine) ∧ program.Represents after machine := by
  subst moved
  cases agrees with
  | next represents => exact ⟨_, rfl, represents⟩

theorem exists_next_back (agrees : Agrees program outcome other) {machine : State}
    (moved : other = .ok (.next machine)) :
    exists after, outcome = .ok (.next after) ∧ program.Represents after machine := by
  subst moved
  cases agrees with
  | next represents => exact ⟨_, rfl, represents⟩

theorem eq_done (agrees : Agrees program outcome other) {value : Value Body} {cells : Cells Body}
    (ended : outcome = .ok (.done value cells)) :
    other = .ok (.done (value.map program.shown) (cells.map program.shown)) := by
  subst ended
  cases agrees
  rfl

theorem exists_done_back (agrees : Agrees program outcome other) {value : Value Entry}
    {cells : Cells Entry} (ended : other = .ok (.done value cells)) :
    exists own ownCells, outcome = .ok (.done own ownCells) ∧
      own.map program.shown = value ∧ ownCells.map program.shown = cells := by
  subst ended
  cases agrees with
  | done own ownCells => exact ⟨own, ownCells, rfl, rfl, rfl⟩

theorem eq_error_iff (agrees : Agrees program outcome other) {failure : Failure} :
    outcome = .error failure ↔ other = .error failure := by
  cases agrees <;> simp

end Agrees

theorem agrees_bind {First Second : Type} {first : Except Failure First}
    {second : Except Failure Second} {change : First -> Second}
    {rest : First -> Except Failure Block.Transition}
    {others : Second -> Except Failure Transition} (same : second = first.map change)
    (continued : forall value, first = .ok value ->
      Agrees program (rest value) (others (change value))) :
    Agrees program (first >>= rest) (second >>= others) := by
  subst same
  cases first with
  | error failure => exact .error failure
  | ok value => exact continued value rfl

theorem agrees_bind_same {First : Type} {first second : Except Failure First}
    {rest : First -> Except Failure Block.Transition}
    {others : First -> Except Failure Transition} (same : second = first)
    (continued : forall value, first = .ok value -> Agrees program (rest value) (others value)) :
    Agrees program (first >>= rest) (second >>= others) := by
  subst same
  cases second with
  | error failure => exact .error failure
  | ok value => exact continued value rfl

theorem blameDefect_map {First Second : Type} (span : Span) (change : First -> Second)
    (outcome : Except Defect First) :
    blameDefect span (outcome.map change) = (blameDefect span outcome).map change := by
  cases outcome <;> rfl

theorem blameFault_map {First Second : Type} (span : Span) (change : First -> Second)
    (outcome : Except Fault First) :
    blameFault span (outcome.map change) = (blameFault span outcome).map change := by
  cases outcome <;> rfl

/-! ## Reading and writing -/

theorem Represents.read_eq (represents : program.Represents state machine)
    (register : Register) :
    machine.read register = (state.frame.read register).map (Value.map program.shown) := by
  unfold State.read
  rw [represents.base_eq, Stack.read_of_hasTop represents.top]
  unfold registersOf Frame.read
  rw [List.getElem?_map, List.length_map]
  cases state.frame.registers[register.index]? with
  | none => rfl
  | some content =>
      cases content with
      | none => rfl
      | some value => rfl

theorem Represents.readAll_eq (represents : program.Represents state machine)
    (registers : List Register) :
    machine.readAll registers =
      (state.frame.readAll registers).map (List.map (Value.map program.shown)) := by
  unfold State.readAll
  induction registers with
  | nil => rfl
  | cons register rest ih =>
      have first := represents.read_eq register
      unfold State.read at first
      rw [Stack.readAll, Frame.readAll, first, ih]
      cases state.frame.read register with
      | error failure => rfl
      | ok value =>
          cases state.frame.readAll rest with
          | error failure => rfl
          | ok values => rfl

theorem write_of_hasTop {stack : Stack} {below : List Slot} {saved : Nat} {address : Address}
    {frame : Frame} (top : stack.HasTop below saved address (program.registersOf frame))
    (register : Register) (value : Value Body) :
    (exists after registers, frame.write register value = .ok { frame with registers } ∧
      stack.write below.length register (value.map program.shown) = .ok after ∧
        after.HasTop below saved address
          (program.registersOf { frame with registers })) ∨
      exists failure, frame.write register value = .error failure ∧
        stack.write below.length register (value.map program.shown) = .error failure := by
  unfold Frame.write
  by_cases inside : register.index < frame.registers.length
  · have fits : register.index < (program.registersOf frame).length := by
      rw [length_registersOf]
      exact inside
    rcases Stack.write_of_hasTop_of_lt top (value.map program.shown) fits with
      ⟨after, written, topAfter⟩
    refine .inl ⟨after, _, if_pos inside, written, ?_⟩
    unfold registersOf at topAfter ⊢
    simp only [List.map_set, Option.map_some]
    exact topAfter
  · have misses : ¬ register.index < (program.registersOf frame).length := by
      rw [length_registersOf]
      exact inside
    refine .inr ⟨_, if_neg inside, ?_⟩
    rw [Stack.write_of_hasTop_of_not_lt top _ misses, length_registersOf]
    rfl

theorem addressOf_succ {body : Body} {position : Nat} {node : Node}
    (found : body.block.nodes[position]? = some node) (emits : node.codeLength = 1) :
    program.addressOf body (position + 1) = (program.addressOf body position).next := by
  unfold addressOf Address.next
  rw [List.take_add_one, found]
  simp [emits, Nat.add_assoc]

theorem addressOf_succ_label {body : Body} {position : Nat} {label : Label} {span : Span}
    (found : body.block.nodes[position]? = some (.label label span)) :
    program.addressOf body (position + 1) = program.addressOf body position := by
  unfold addressOf
  rw [List.take_add_one, found]
  simp [Node.codeLength]

theorem Represents.goto (represents : program.Represents state machine) {position : Nat}
    {address : Address} (same : address = program.addressOf state.frame.body position) :
    Agrees program (.ok (state.goto position)) (.ok (machine.goto address)) :=
  .next ⟨same, represents.base, represents.top, represents.cells⟩

theorem Represents.store (represents : program.Represents state machine) {node : Node}
    (found : state.frame.node? = some node) (emits : node.codeLength = 1) (dest : Register)
    (value : Value Body) :
    Agrees program (state.store dest value)
      (machine.store dest (value.map program.shown)) := by
  rcases machine with ⟨pc, base, peak, stack, cells⟩
  have base_eq : base = _ := represents.base_eq
  have top := represents.top
  unfold Block.State.store State.store
  dsimp only
  rw [base_eq]
  rcases write_of_hasTop top dest value with
    ⟨after, registers, here, there, topAfter⟩ | ⟨failure, here, there⟩
  · rw [here, there]
    refine .next ⟨?_, length_callerSlots program state.callers, topAfter, represents.cells⟩
    have pc_eq : pc = _ := represents.pc
    rw [pc_eq]
    exact (addressOf_succ found emits).symm
  · rw [here, there]
    exact .error failure

/-!
## Entering and leaving functions
-/

theorem addressOf_zero (program : Program) (body : Body) :
    program.addressOf body 0 = (program.shown body).body := by
  simp [addressOf, shown]

theorem entryOf_eq_shown {body : Body} (holds : program.Holds body) :
    program.entryOf body.number = program.shown body := by
  unfold shown
  rw [← holds.frameSize_eq]

theorem registersOf_enter (program : Program) (body : Body) (argument : Value Body)
    (captures : List (Value Body)) :
    program.registersOf (.enter body argument captures) =
      some (argument.map program.shown) :: (captures.map (Value.map program.shown)).map some ++
        List.replicate ((program.shown body).frameSize -
          ((captures.map (Value.map program.shown)).length + 1)) none := by
  simp [registersOf, Frame.enter, shown, Function.comp_def]

theorem hasTop_enter_of_fits {body : Body} {captures : List (Value Body)}
    (fits : program.Fits (.function body captures)) (argument : Value Body) (stack : Stack)
    (saved : Nat) (address : Address) :
    (stack.enter saved address (argument.map program.shown) (program.shown body)
      (captures.map (Value.map program.shown))).HasTop stack.slots.toList saved address
        (program.registersOf (.enter body argument captures)) := by
  have room : (captures.map (Value.map program.shown)).length + 1 <=
      (program.shown body).frameSize := by
    rw [List.length_map]
    exact fits.captures_lt
  rw [registersOf_enter, ← Stack.enteredRegisters_eq (argument.map program.shown) room]
  exact Stack.hasTop_enter stack saved address _ _ _

theorem Represents.call (represents : program.Represents state machine) {node : Node}
    (found : state.frame.node? = some node) (emits : node.codeLength = 1) {body : Body}
    {captures : List (Value Body)} (fits : program.Fits (.function body captures))
    (dest : Register) (argument : Value Body) :
    Agrees program
      (.ok (.next
        { state with
          frame := .enter body argument captures
          callers := ⟨state.frame.advance, dest⟩ :: state.callers }))
      (.ok (machine.call (argument.map program.shown) (program.shown body)
        (captures.map (Value.map program.shown)))) := by
  rcases machine with ⟨pc, base, peak, stack, cells⟩
  have base_eq : base = _ := represents.base
  have here : pc = _ := represents.pc
  have top := represents.top
  have size := Stack.size_of_hasTop top
  rw [length_callerSlots, length_registersOf] at size
  refine .next ⟨(addressOf_zero program body).symm, ?_, ?_, represents.cells⟩
  · rw [height, ← Nat.add_assoc]
    exact size
  · have entered := hasTop_enter_of_fits fits argument stack base pc.next
    have below : stack.slots.toList =
        program.callerSlots (⟨state.frame.advance, dest⟩ :: state.callers) := top
    rw [below] at entered
    have address : pc.next =
        program.returnAddress (⟨state.frame.advance, dest⟩ :: state.callers) := by
      rw [here]
      exact (addressOf_succ found emits).symm
    rw [address, base_eq] at entered ⊢
    exact entered

theorem Represents.tailCall (represents : program.Represents state machine) {body : Body}
    {captures : List (Value Body)} (fits : program.Fits (.function body captures))
    (argument : Value Body) :
    Agrees program (.ok (.next { state with frame := .enter body argument captures }))
      (machine.tailCall (argument.map program.shown) (program.shown body)
        (captures.map (Value.map program.shown))) := by
  rcases machine with ⟨pc, base, peak, stack, cells⟩
  have base_eq : base = _ := represents.base_eq
  have top := represents.top
  unfold State.tailCall
  dsimp only
  rw [base_eq, Stack.header_of_hasTop top]
  refine .next ⟨(addressOf_zero program body).symm, ?_, ?_, represents.cells⟩
  · exact length_callerSlots program state.callers
  · have entered := hasTop_enter_of_fits fits argument
      (stack.truncate (program.callerSlots state.callers).length) (savedBase state.callers)
      (program.returnAddress state.callers)
    rw [Stack.toList_truncate_of_hasTop top] at entered
    exact entered

theorem returnRegister_of_waits {caller : Caller} (runs : program.Runs caller.frame)
    (waits : Waits caller) :
    program.returnRegister
      (program.addressOf caller.frame.body caller.frame.position) = .ok caller.dest := by
  rcases waits with ⟨position, function, argument, span, behind, found⟩
  rcases runs.holds.fetch?_eq found rfl with ⟨instruction, realizes, fetched⟩
  cases realizes with
  | operation =>
      rw [behind, addressOf_succ found rfl]
      exact returnRegister_next fetched

theorem addressOf_ne_halt (small : program.size < Address.halt.index) {frame : Frame}
    (runs : program.Runs frame) (position : Nat) (behind : frame.position = position + 1)
    {node : Node} (found : frame.body.block.nodes[position]? = some node)
    (emits : node.codeLength = 1) :
    program.addressOf frame.body frame.position ≠ Address.halt := by
  -- Only the outermost frame returns to the halting address, which lies outside of the program.
  rcases runs.holds.fetch?_eq found emits with ⟨instruction, _, fetched⟩
  intro same
  rw [behind, addressOf_succ found emits] at same
  have index_eq : (program.addressOf frame.body position).index + 1 = Address.halt.index :=
    congrArg Address.index same
  have inside := lt_size_of_fetch? fetched
  omega

/-- The innermost caller, if there is one, does not wait at the address that ends a run. -/
def Returns (program : Program) (callers : List Caller) : Prop :=
  callers ≠ [] -> program.returnAddress callers ≠ Address.halt

theorem Sound.returns (sound : program.Sound state) (small : program.size < Address.halt.index) :
    program.Returns state.callers := by
  intro some
  rcases List.exists_cons_of_ne_nil some with ⟨caller, rest, waiting⟩
  rcases sound.callers caller (by rw [waiting]; exact List.mem_cons_self) with ⟨runs, waits⟩
  rcases waits with ⟨position, function, argument, span, behind, found⟩
  rw [waiting]
  exact addressOf_ne_halt small runs position behind found rfl

theorem Represents.leave (represents : program.Represents state machine)
    (sound : program.Sound state) (returns : program.Returns state.callers)
    (value : Value Body) :
    Agrees program (state.leave value) (machine.leave program (value.map program.shown)) := by
  rcases machine with ⟨pc, base, peak, stack, cells⟩
  have base_eq : base = _ := represents.base_eq
  have sameCells : cells = _ := represents.cells
  have top := represents.top
  unfold State.leave Block.State.leave
  dsimp only
  rw [base_eq, Stack.header_of_hasTop top]
  have below := Stack.toList_truncate_of_hasTop top
  dsimp only [bind, Except.bind]
  generalize stack.truncate (program.callerSlots state.callers).length = lower at below ⊢
  cases waiting : state.callers with
  | nil =>
      rw [if_pos (by rfl), sameCells]
      exact .done value state.cells
  | cons caller rest =>
      have callers := sound.callers caller (by rw [waiting]; exact List.mem_cons_self)
      rcases callers with ⟨runs, waits⟩
      have dest := returnRegister_of_waits runs waits
      have proper := returns (by rw [waiting]; exact List.cons_ne_nil caller rest)
      rw [waiting, returnAddress] at proper
      rw [waiting] at below
      have topBelow : lower.HasTop (program.callerSlots rest) (savedBase rest)
          (program.returnAddress rest) (program.registersOf caller.frame) := below
      rw [returnAddress, if_neg proper, dest]
      dsimp only
      rw [savedBase, ← length_callerSlots program rest]
      rcases write_of_hasTop topBelow caller.dest value with
        ⟨after, registers, here, there, topAfter⟩ | ⟨failure, here, there⟩
      · rw [here, there]
        exact .next ⟨rfl, length_callerSlots program rest, topAfter, sameCells⟩
      · rw [here, there]
        exact .error failure

end Program
end StrictLambda
