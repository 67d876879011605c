import StrictLambda.Machine.Step
import StrictLambda.Proofs.Execution.Bind
import StrictLambda.Proofs.Value.Parts

/-!
# What one instruction can do

Nothing is known of a program here: its code, its tables and the sizes of its frames can be
anything.  Still, an instruction that succeeds does one of a few things.  Most compute one value,
put it into their destination and go on; the others tie a cell, move control or work on the frames.
-/

namespace StrictLambda

theorem Program.getElem?_of_fetch? {program : Program} {address : Address}
    {instruction : Instruction} {span : Span}
    (fetched : program.fetch? address = some (instruction, span)) :
    program.code[address.index]? = some instruction ∧
      program.spans[address.index]? = some span := by
  unfold fetch? at fetched
  split at fetched
  · next found place =>
      cases fetched
      exact ⟨found, place⟩
  · cases fetched

theorem Program.returnRegister_next {program : Program} {address : Address}
    {dest function argument : Register} {span : Span}
    (fetched : program.fetch? address = some (.operation (.call dest function argument), span)) :
    program.returnRegister address.next = .ok dest := by
  unfold returnRegister Address.next
  dsimp only
  rw [fetched]

namespace State

/-!
## Parts of an instruction
-/

def moved (state : State) (address : Address) : State :=
  { state with pc := address, peak := max state.peak state.stack.size }

variable {program : Program} {state after : State} {span : Span} {instruction : Instruction}

theorem store_eq_ok_iff {dest : Register} {value : Value Entry} {transition : Transition} :
    state.store dest value = .ok transition ↔
      exists stack, state.stack.write state.base dest value = .ok stack ∧
        transition = .next ({ state with stack := stack }.moved state.pc.next) := by
  unfold store
  rw [bind_eq_ok_iff]
  constructor
  · rintro ⟨stack, written, last⟩
    cases last
    exact ⟨stack, written, rfl⟩
  · rintro ⟨stack, written, rfl⟩
    exact ⟨stack, written, rfl⟩

theorem of_tie {cell : Cell} {value : Value Entry}
    (tied : state.tie span cell value = .ok after) :
    exists cells, state.cells.tie cell value = .ok cells ∧
      after = { state with cells := cells } := by
  rcases bind_eq_ok_iff.mp tied with ⟨cells, blamed, last⟩
  cases last
  exact ⟨cells, blameDefect_eq_ok_iff.mp blamed, rfl⟩

theorem of_tailCall {argument : Value Entry} {entry : Entry} {captures : List (Value Entry)}
    {transition : Transition}
    (called : state.tailCall argument entry captures = .ok transition) :
    exists saved address, state.stack.header state.base = .ok (saved, address) ∧
      transition = .next ({ state with
        stack := (state.stack.truncate state.base).enter saved address argument entry
          captures }.moved entry.body) := by
  rcases bind_eq_ok_iff.mp called with ⟨⟨saved, address⟩, header, last⟩
  cases last
  exact ⟨saved, address, header, rfl⟩

/-!
## Values that instructions produce
-/

inductive Produces (program : Program) (state : State) :
    Instruction -> Register -> Value Entry -> Cells Entry -> Prop where
  | beginFixpoint {dest : Register} :
      Produces program state (.operation (.beginFixpoint dest)) dest
        (.fixpoint state.cells.allocate.1) state.cells.allocate.2
  | derefFixpoint {dest source : Register} {cell : Cell} {value : Value Entry}
      (found : state.read source = .ok (.fixpoint cell))
      (content : state.cells.read cell = .ok value) :
      Produces program state (.operation (.derefFixpoint dest source)) dest value state.cells
  | copy {dest source : Register} {value : Value Entry} (found : state.read source = .ok value) :
      Produces program state (.operation (.copy dest source)) dest value state.cells
  | member {dest source : Register} {field : Symbol} {span : Span} {found value : Value Entry}
      (read : state.read source = .ok found) (accessed : found.member span field = .ok value) :
      Produces program state (.operation (.member dest source field)) dest value state.cells
  | literal {dest : Register} {literal : Literal} :
      Produces program state (.operation (.literal dest literal)) dest (.ofLiteral literal)
        state.cells
  | primitive {dest lhs rhs : Register} {operator : Operator} {left right value : Value Entry}
      (first : state.read lhs = .ok left) (second : state.read rhs = .ok right)
      (applied : operator.apply left right = .ok value) :
      Produces program state (.operation (.primitive dest operator lhs rhs)) dest value state.cells
  | function {dest : Register} {entry : Entry} {segment : Segment} {registers : List Register}
      {values : List (Value Entry)} (listed : program.operands? segment = some registers)
      (read : state.readAll registers = .ok values) :
      Produces program state (.function dest entry segment) dest (.function entry values)
        state.cells
  | data {dest type : Register} {tag : Nat} {segment : Segment} {declaration : Declaration}
      {constructor : Constructor} {registers : List Register} {values : List (Value Entry)}
      (first : state.read type = .ok (.dataType declaration))
      (named : declaration.constructors[tag]? = some constructor)
      (listed : program.operands? segment = some registers)
      (read : state.readAll registers = .ok values)
      (arity : values.length = constructor.fields.length) :
      Produces program state (.data dest type tag segment) dest (.data declaration tag values)
        state.cells
  | dataType {dest : Register} {index : Nat} {declaration : Declaration}
      (listed : program.declaration? index = some declaration) :
      Produces program state (.dataType dest index) dest (.dataType declaration) state.cells

/-!
## All instructions
-/

inductive Leads (program : Program) (state : State) : Instruction -> State -> Prop where
  | store {instruction : Instruction} {dest : Register} {value : Value Entry}
      {cells : Cells Entry} {stack : Stack}
      (produced : state.Produces program instruction dest value cells)
      (written : state.stack.write state.base dest value = .ok stack) :
      Leads program state instruction
        ({ state with stack := stack, cells := cells }.moved state.pc.next)
  | endFixpoint {fixpoint source : Register} {cell : Cell} {value : Value Entry}
      {cells : Cells Entry} (found : state.read fixpoint = .ok (.fixpoint cell))
      (read : state.read source = .ok value) (tied : state.cells.tie cell value = .ok cells) :
      Leads program state (.operation (.endFixpoint fixpoint source))
        ({ state with cells := cells }.moved state.pc.next)
  | call {dest function argument : Register} {entry : Entry} {captures : List (Value Entry)}
      {value : Value Entry} (callee : state.read function = .ok (.function entry captures))
      (read : state.read argument = .ok value) :
      Leads program state (.operation (.call dest function argument))
        ({ state with
          base := state.stack.size
          stack := state.stack.enter state.base state.pc.next value entry captures }.moved
            entry.body)
  | tailCall {function argument : Register} {entry : Entry} {captures : List (Value Entry)}
      {value : Value Entry} {saved : Nat} {address : Address}
      (callee : state.read function = .ok (.function entry captures))
      (read : state.read argument = .ok value)
      (header : state.stack.header state.base = .ok (saved, address)) :
      Leads program state (.operation (.tailCall function argument))
        ({ state with
          stack := (state.stack.truncate state.base).enter saved address value entry
            captures }.moved entry.body)
  | leave {source dest : Register} {value : Value Entry} {saved : Nat} {address : Address}
      {stack : Stack} (read : state.read source = .ok value)
      (header : state.stack.header state.base = .ok (saved, address))
      (returns : address ≠ Address.halt) (waits : program.returnRegister address = .ok dest)
      (written : (state.stack.truncate state.base).write saved dest value = .ok stack) :
      Leads program state (.operation (.leave source))
        ({ state with base := saved, stack := stack }.moved address)
  | jump {target : Address} : Leads program state (.jump target) (state.moved target)
  | jumpUnless {condition : Register} {target : Address} {holds : Bool}
      (read : state.read condition = .ok (.boolean holds)) :
      Leads program state (.jumpUnless condition target)
        (state.moved (if holds then state.pc.next else target))

inductive Yields (state : State) : Instruction -> Value Entry -> Prop where
  | leave {source : Register} {value : Value Entry} {saved : Nat}
      (read : state.read source = .ok value)
      (header : state.stack.header state.base = .ok (saved, Address.halt)) :
      Yields state (.operation (.leave source)) value
  | exit {source : Register} {value : Value Entry} (read : state.read source = .ok value) :
      Yields state (.operation (.exit source)) value

inductive Explained (program : Program) (state : State) (instruction : Instruction) :
    Transition -> Prop where
  | next {after : State} (leads : state.Leads program instruction after) :
      Explained program state instruction (.next after)
  | done {value : Value Entry} (yields : state.Yields instruction value) :
      Explained program state instruction (.done value state.cells)

/-!
## Every outcome is one of these
-/

variable {transition : Transition}

theorem explained_of_store {dest : Register} {value : Value Entry} {cells : Cells Entry}
    (produced : state.Produces program instruction dest value cells)
    (stored : { state with cells := cells }.store dest value = .ok transition) :
    state.Explained program instruction transition := by
  rcases store_eq_ok_iff.mp stored with ⟨stack, written, rfl⟩
  exact .next (.store produced written)

theorem explained_of_leave {source : Register} {value : Value Entry}
    (read : state.read source = .ok value)
    (left : state.leave program value = .ok transition) :
    state.Explained program (.operation (.leave source)) transition := by
  rcases bind_eq_ok_iff.mp left with ⟨⟨saved, address⟩, header, left⟩
  dsimp only at left
  split at left
  · next halts =>
      cases left
      rw [halts] at header
      exact .done (.leave read header)
  · next returns =>
      rcases bind_eq_ok_iff.mp left with ⟨dest, waits, left⟩
      rcases bind_eq_ok_iff.mp left with ⟨stack, written, last⟩
      cases last
      exact .next (.leave read header returns waits written)

theorem explained_of_perform {action : Operation}
    (performed : state.perform program span action = .ok transition) :
    state.Explained program (.operation action) transition := by
  cases action with
  | beginFixpoint dest => exact explained_of_store .beginFixpoint performed
  | derefFixpoint dest source =>
      rcases bind_eq_ok_iff.mp performed with ⟨found, read, performed⟩
      rcases bind_eq_ok_iff.mp performed with ⟨cell, expected, performed⟩
      rcases bind_eq_ok_iff.mp performed with ⟨value, content, stored⟩
      cases Value.eq_fixpoint_of_expectCell expected
      exact explained_of_store (.derefFixpoint read (blameDefect_eq_ok_iff.mp content)) stored
  | endFixpoint fixpoint source =>
      rcases bind_eq_ok_iff.mp performed with ⟨found, read, performed⟩
      rcases bind_eq_ok_iff.mp performed with ⟨cell, expected, performed⟩
      rcases bind_eq_ok_iff.mp performed with ⟨value, second, performed⟩
      rcases bind_eq_ok_iff.mp performed with ⟨tying, done, last⟩
      cases Value.eq_fixpoint_of_expectCell expected
      rcases of_tie done with ⟨cells, tied, rfl⟩
      cases last
      exact .next (.endFixpoint read second tied)
  | copy dest source =>
      rcases bind_eq_ok_iff.mp performed with ⟨value, read, stored⟩
      exact explained_of_store (.copy read) stored
  | member dest source field =>
      rcases bind_eq_ok_iff.mp performed with ⟨found, read, performed⟩
      rcases bind_eq_ok_iff.mp performed with ⟨value, accessed, stored⟩
      exact explained_of_store (.member read accessed) stored
  | literal dest value => exact explained_of_store .literal performed
  | primitive dest operator lhs rhs =>
      rcases bind_eq_ok_iff.mp performed with ⟨left, first, performed⟩
      rcases bind_eq_ok_iff.mp performed with ⟨right, second, performed⟩
      rcases bind_eq_ok_iff.mp performed with ⟨value, applied, stored⟩
      exact explained_of_store (.primitive first second (blameFault_eq_ok_iff.mp applied)) stored
  | call dest function argument =>
      rcases bind_eq_ok_iff.mp performed with ⟨callee, first, performed⟩
      rcases bind_eq_ok_iff.mp performed with ⟨⟨entry, captures⟩, expected, performed⟩
      rcases bind_eq_ok_iff.mp performed with ⟨value, second, last⟩
      cases Value.eq_function_of_expectFunction expected
      cases last
      exact .next (.call first second)
  | tailCall function argument =>
      rcases bind_eq_ok_iff.mp performed with ⟨callee, first, performed⟩
      rcases bind_eq_ok_iff.mp performed with ⟨⟨entry, captures⟩, expected, performed⟩
      rcases bind_eq_ok_iff.mp performed with ⟨value, second, called⟩
      cases Value.eq_function_of_expectFunction expected
      rcases of_tailCall called with ⟨saved, address, header, rfl⟩
      exact .next (.tailCall first second header)
  | leave source =>
      rcases bind_eq_ok_iff.mp performed with ⟨value, read, left⟩
      exact explained_of_leave read left
  | exit source =>
      rcases bind_eq_ok_iff.mp performed with ⟨value, read, last⟩
      cases last
      exact .done (.exit read)

theorem operands_of_operandRegisters {segment : Segment} {registers : List Register}
    (listed : program.operandRegisters segment = .ok registers) :
    program.operands? segment = some registers := by
  unfold Program.operandRegisters at listed
  split at listed
  · next found =>
      cases listed
      exact found
  · cases listed

theorem explained_of_execute (executed : state.execute program span instruction = .ok transition) :
    state.Explained program instruction transition := by
  cases instruction with
  | operation action => exact explained_of_perform executed
  | function dest entry segment =>
      rcases bind_eq_ok_iff.mp executed with ⟨registers, listed, executed⟩
      rcases bind_eq_ok_iff.mp executed with ⟨values, read, stored⟩
      exact explained_of_store (.function (operands_of_operandRegisters listed) read) stored
  | data dest type tag segment =>
      rcases bind_eq_ok_iff.mp executed with ⟨found, first, executed⟩
      rcases bind_eq_ok_iff.mp executed with ⟨⟨declaration, constructor⟩, numbered, executed⟩
      rcases bind_eq_ok_iff.mp executed with ⟨registers, listed, executed⟩
      rcases bind_eq_ok_iff.mp executed with ⟨values, read, executed⟩
      rcases bind_eq_ok_iff.mp executed with ⟨value, constructed, stored⟩
      rcases Value.of_constructorNumbered numbered with ⟨rfl, named⟩
      rcases Value.of_construct constructed with ⟨rfl, arity⟩
      exact explained_of_store
        (.data first named (operands_of_operandRegisters listed) read arity) stored
  | dataType dest index =>
      rw [execute] at executed
      split at executed
      · next found => exact explained_of_store (.dataType found) executed
      · cases executed
  | jump target =>
      cases executed
      exact .next .jump
  | jumpUnless condition target =>
      rcases bind_eq_ok_iff.mp executed with ⟨found, read, executed⟩
      rcases bind_eq_ok_iff.mp executed with ⟨holds, expected, last⟩
      cases Value.eq_boolean_of_expectBoolean expected
      cases last
      exact .next (.jumpUnless read)

theorem explained_of_step (stepped : state.step program = .ok transition) :
    exists instruction span, program.fetch? state.pc = some (instruction, span) ∧
      state.Explained program instruction transition := by
  unfold step at stepped
  split at stepped
  · next instruction span fetched =>
      exact ⟨instruction, span, fetched, explained_of_execute stepped⟩
  · cases stepped

theorem leads_of_step (stepped : state.step program = .ok (.next after)) :
    exists instruction span, program.fetch? state.pc = some (instruction, span) ∧
      state.Leads program instruction after := by
  rcases explained_of_step stepped with ⟨instruction, span, fetched, explained⟩
  cases explained with
  | next leads => exact ⟨instruction, span, fetched, leads⟩

theorem yields_of_step {value : Value Entry} {cells : Cells Entry}
    (stepped : state.step program = .ok (.done value cells)) :
    cells = state.cells ∧ exists instruction span,
      program.fetch? state.pc = some (instruction, span) ∧ state.Yields instruction value := by
  rcases explained_of_step stepped with ⟨instruction, span, fetched, explained⟩
  cases explained with
  | done yields => exact ⟨rfl, instruction, span, fetched, yields⟩

end State
end StrictLambda
