import Mathlib.Data.List.Forall2
import StrictLambda.Proofs.Block.Interpreter
import StrictLambda.Proofs.Execution.Bind
import StrictLambda.Proofs.Value.Parts

/-!
# What a step of the block interpreter can do

Most nodes compute one value from registers, put it into their destination and go on.  The others
tie a cell or move control.  The relations of this module say so node by node, once, so that later
proofs go through the cases without opening the interpreter.
-/

namespace StrictLambda

/-!
## Registers a node reads
-/

def Operation.sources : Operation -> List Register
  | .beginFixpoint _ => []
  | .derefFixpoint _ source => [source]
  | .endFixpoint fixpoint value => [fixpoint, value]
  | .copy _ source => [source]
  | .member _ source _ => [source]
  | .literal _ _ => []
  | .primitive _ _ lhs rhs => [lhs, rhs]
  | .call _ function argument => [function, argument]
  | .tailCall function argument => [function, argument]
  | .leave source => [source]
  | .exit source => [source]

def Node.sources : Node -> List Register
  | .operation action _ => action.sources
  | .function _ _ captures _ => captures
  | .data _ type _ fields _ => type :: fields
  | .dataType _ _ _ => []
  | .jump _ _ => []
  | .jumpUnless condition _ _ => [condition]
  | .label _ _ => []

namespace Block

/-!
## Reading and writing registers
-/

namespace Frame

variable {frame after : Frame} {register : Register} {value : Value Body}

theorem read_eq_ok_iff :
    frame.read register = .ok value ↔ frame.registers[register.index]? = some (some value) := by
  unfold read
  split <;> simp_all

theorem write_eq_ok_iff :
    frame.write register value = .ok after ↔
      register.index < frame.registers.length ∧
        after = { frame with registers := frame.registers.set register.index (some value) } := by
  unfold write
  split
  · next inside => simp [inside, eq_comm]
  · next outside => simp [outside]

theorem read_eq_error {failure : Failure} (inside : register.index < frame.registers.length)
    (failed : frame.read register = .error failure) :
    frame.registers[register.index]? = some none ∧
      failure = .defect (.unwrittenRegister register) none := by
  unfold read at failed
  split at failed
  · cases failed
  · next stored =>
      cases failed
      exact ⟨stored, rfl⟩
  · next missing =>
      rw [List.getElem?_eq_none_iff] at missing
      omega

theorem readAll_eq_ok_iff {registers : List Register} {values : List (Value Body)} :
    frame.readAll registers = .ok values ↔
      List.Forall₂ (fun register value => frame.read register = .ok value) registers values := by
  induction registers generalizing values with
  | nil =>
      rw [List.forall₂_nil_left_iff, readAll, Except.ok.injEq]
      exact eq_comm
  | cons register rest ih =>
      rw [readAll, bind_eq_ok_iff, List.forall₂_cons_left_iff]
      constructor
      · intro stored
        rcases stored with ⟨head, stored, continued⟩
        rcases bind_eq_ok_iff.mp continued with ⟨tail, others, last⟩
        cases last
        exact ⟨head, tail, stored, ih.mp others, rfl⟩
      · intro related
        rcases related with ⟨head, tail, stored, others, rfl⟩
        exact ⟨head, stored, bind_eq_ok_iff.mpr ⟨tail, ih.mpr others, rfl⟩⟩

theorem readAll_eq_error {registers : List Register} {failure : Failure}
    (failed : frame.readAll registers = .error failure) :
    exists register, register ∈ registers ∧ frame.read register = .error failure := by
  induction registers with
  | nil => cases failed
  | cons register rest ih =>
      rcases bind_eq_error_iff.mp failed with first | ⟨head, _, failed⟩
      · exact ⟨register, List.mem_cons_self, first⟩
      · rcases bind_eq_error_iff.mp failed with later | ⟨tail, _, last⟩
        · rcases ih later with ⟨other, member, own⟩
          exact ⟨other, List.mem_cons_of_mem register member, own⟩
        · cases last

theorem exists_read_of_readAll {registers : List Register} {values : List (Value Body)}
    (all : frame.readAll registers = .ok values) (member : value ∈ values) :
    exists register, register ∈ registers ∧ frame.read register = .ok value := by
  have related := readAll_eq_ok_iff.mp all
  clear all
  induction related with
  | nil => cases member
  | @cons head own rest others stored _ ih =>
      rcases List.mem_cons.mp member with rfl | member
      · exact ⟨head, List.mem_cons_self, stored⟩
      · rcases ih member with ⟨register, inside, stored⟩
        exact ⟨register, List.mem_cons_of_mem head inside, stored⟩

end Frame

/-!
## Nodes that produce a value
-/

/-- The node puts this value into this register and leaves these cells behind. -/
inductive State.Produces (state : State) : Node -> Register -> Value Body -> Cells Body -> Prop
    where
  | beginFixpoint {dest : Register} {span : Span} :
      Produces state (.operation (.beginFixpoint dest) span) dest
        (.fixpoint state.cells.allocate.1) state.cells.allocate.2
  | derefFixpoint {dest source : Register} {span : Span} {cell : Cell} {value : Value Body}
      (found : state.frame.read source = .ok (.fixpoint cell))
      (content : state.cells.read cell = .ok value) :
      Produces state (.operation (.derefFixpoint dest source) span) dest value state.cells
  | copy {dest source : Register} {span : Span} {value : Value Body}
      (found : state.frame.read source = .ok value) :
      Produces state (.operation (.copy dest source) span) dest value state.cells
  | member {dest source : Register} {field : Symbol} {span : Span} {found value : Value Body}
      (read : state.frame.read source = .ok found)
      (accessed : found.member span field = .ok value) :
      Produces state (.operation (.member dest source field) span) dest value state.cells
  | literal {dest : Register} {literal : Literal} {span : Span} :
      Produces state (.operation (.literal dest literal) span) dest (.ofLiteral literal)
        state.cells
  | primitive {dest lhs rhs : Register} {operator : Operator} {span : Span}
      {left right value : Value Body} (first : state.frame.read lhs = .ok left)
      (second : state.frame.read rhs = .ok right)
      (applied : operator.apply left right = .ok value) :
      Produces state (.operation (.primitive dest operator lhs rhs) span) dest value state.cells
  | function {dest : Register} {block : Block} {captures : List Register} {span : Span}
      {values : List (Value Body)} (read : state.frame.readAll captures = .ok values) :
      Produces state (.function dest block captures span) dest
        (.function (state.frame.body.nested state.frame.position block) values) state.cells
  | data {dest type : Register} {tag : Nat} {fields : List Register} {span : Span}
      {declaration : Declaration} {constructor : Constructor} {values : List (Value Body)}
      (first : state.frame.read type = .ok (.dataType declaration))
      (named : declaration.constructors[tag]? = some constructor)
      (read : state.frame.readAll fields = .ok values)
      (arity : values.length = constructor.fields.length) :
      Produces state (.data dest type tag fields span) dest (.data declaration tag values)
        state.cells
  | dataType {dest : Register} {declaration : Declaration} {span : Span} :
      Produces state (.dataType dest declaration span) dest (.dataType declaration) state.cells

/-!
## All nodes
-/

inductive State.Leads (state : State) : Node -> State -> Prop where
  | store {node : Node} {dest : Register} {value : Value Body} {cells : Cells Body}
      {frame : Frame} (produced : state.Produces node dest value cells)
      (written : state.frame.write dest value = .ok frame) :
      Leads state node { state with frame := frame.advance, cells := cells }
  | endFixpoint {fixpoint source : Register} {span : Span} {cell : Cell} {value : Value Body}
      {cells : Cells Body} (found : state.frame.read fixpoint = .ok (.fixpoint cell))
      (read : state.frame.read source = .ok value)
      (tied : state.cells.tie cell value = .ok cells) :
      Leads state (.operation (.endFixpoint fixpoint source) span)
        { state with frame := state.frame.advance, cells := cells }
  | call {dest function argument : Register} {span : Span} {body : Body}
      {captures : List (Value Body)} {value : Value Body}
      (callee : state.frame.read function = .ok (.function body captures))
      (read : state.frame.read argument = .ok value) :
      Leads state (.operation (.call dest function argument) span)
        { state with
          frame := .enter body value captures
          callers := ⟨state.frame.advance, dest⟩ :: state.callers }
  | tailCall {function argument : Register} {span : Span} {body : Body}
      {captures : List (Value Body)} {value : Value Body}
      (callee : state.frame.read function = .ok (.function body captures))
      (read : state.frame.read argument = .ok value) :
      Leads state (.operation (.tailCall function argument) span)
        { state with frame := .enter body value captures }
  | leave {source : Register} {span : Span} {value : Value Body} {caller : Caller}
      {rest : List Caller} {frame : Frame} (read : state.frame.read source = .ok value)
      (waiting : state.callers = caller :: rest)
      (written : caller.frame.write caller.dest value = .ok frame) :
      Leads state (.operation (.leave source) span)
        { state with frame := frame, callers := rest }
  | jump {target : Label} {span : Span} {position : Nat}
      (stands : labelPosition? target state.frame.body.block.nodes = some position) :
      Leads state (.jump target span) { state with frame := state.frame.goto position }
  | holds {condition : Register} {target : Label} {span : Span}
      (read : state.frame.read condition = .ok (.boolean true)) :
      Leads state (.jumpUnless condition target span)
        { state with frame := state.frame.advance }
  | fails {condition : Register} {target : Label} {span : Span} {position : Nat}
      (read : state.frame.read condition = .ok (.boolean false))
      (stands : labelPosition? target state.frame.body.block.nodes = some position) :
      Leads state (.jumpUnless condition target span)
        { state with frame := state.frame.goto position }
  | label {label : Label} {span : Span} :
      Leads state (.label label span) { state with frame := state.frame.advance }

inductive State.Yields (state : State) : Node -> Value Body -> Prop where
  | leave {source : Register} {span : Span} {value : Value Body}
      (read : state.frame.read source = .ok value) (outermost : state.callers = []) :
      Yields state (.operation (.leave source) span) value
  | exit {source : Register} {span : Span} {value : Value Body}
      (read : state.frame.read source = .ok value) :
      Yields state (.operation (.exit source) span) value

namespace State

variable {state after : State} {node : Node} {dest : Register} {value : Value Body}
  {cells : Cells Body}

theorem store_eq_ok_iff {transition : Transition} :
    state.store dest value = .ok transition ↔
      exists frame, state.frame.write dest value = .ok frame ∧
        transition = .next { state with frame := frame.advance } := by
  unfold store
  rw [bind_eq_ok_iff]
  constructor
  · intro chain
    rcases chain with ⟨frame, written, last⟩
    cases last
    exact ⟨frame, written, rfl⟩
  · intro written
    rcases written with ⟨frame, written, rfl⟩
    exact ⟨frame, written, rfl⟩

theorem execute_of_produces (produced : state.Produces node dest value cells) :
    state.execute node = { state with cells := cells }.store dest value := by
  cases produced with
  | beginFixpoint => rfl
  | derefFixpoint found content =>
      rw [execute, perform, found]
      dsimp only [bind, Except.bind, Value.expectCell]
      rw [content]
      rfl
  | copy found =>
      rw [execute, perform, found]
      rfl
  | member read accessed =>
      rw [execute, perform, read]
      dsimp only [bind, Except.bind]
      rw [accessed]
  | literal => rfl
  | primitive first second applied =>
      rw [execute, perform, first]
      dsimp only [bind, Except.bind]
      rw [second]
      dsimp only
      rw [applied]
      rfl
  | function read =>
      rw [execute, read]
      rfl
  | data first named read arity =>
      rw [execute, first]
      dsimp only [bind, Except.bind, Value.constructorNumbered]
      rw [named, read]
      dsimp only
      rw [Value.construct, if_pos arity]
  | dataType => rfl

theorem execute_of_leads (leads : state.Leads node after) :
    state.execute node = .ok (.next after) := by
  cases leads with
  | store produced written =>
      rw [execute_of_produces produced]
      exact store_eq_ok_iff.mpr ⟨_, written, rfl⟩
  | endFixpoint found read tied =>
      rw [execute, perform, found]
      dsimp only [bind, Except.bind, Value.expectCell]
      rw [read]
      dsimp only
      rw [tied]
      rfl
  | call callee read =>
      rw [execute, perform, callee]
      dsimp only [bind, Except.bind, Value.expectFunction]
      rw [read]
      rfl
  | tailCall callee read =>
      rw [execute, perform, callee]
      dsimp only [bind, Except.bind, Value.expectFunction]
      rw [read]
      rfl
  | leave read waiting written =>
      rw [execute, perform, read]
      dsimp only [bind, Except.bind]
      rw [State.leave, waiting]
      dsimp only [bind, Except.bind]
      rw [written]
      rfl
  | jump stands =>
      rw [execute, State.jump, stands]
      rfl
  | holds read =>
      rw [execute, read]
      rfl
  | fails read stands =>
      rw [execute, read]
      dsimp only [bind, Except.bind, Value.expectBoolean]
      rw [if_neg (by decide), State.jump, stands]
      rfl
  | label => rfl

theorem execute_of_yields (yields : state.Yields node value) :
    state.execute node = .ok (.done value state.cells) := by
  cases yields with
  | leave read outermost =>
      rw [execute, perform, read]
      dsimp only [bind, Except.bind]
      rw [State.leave, outermost]
  | exit read =>
      rw [execute, perform, read]
      rfl

/-!
## Every outcome is one of these
-/

theorem of_store {transition : Transition} (stored : state.execute node = .ok transition)
    (produced : state.Produces node dest value cells) :
    exists after, transition = .next after ∧ state.Leads node after := by
  rw [execute_of_produces produced] at stored
  rcases store_eq_ok_iff.mp stored with ⟨frame, written, rfl⟩
  exact ⟨_, rfl, .store produced written⟩

theorem of_jump {target : Label} {transition : Transition}
    (jumped : state.jump target = .ok transition) :
    exists position, labelPosition? target state.frame.body.block.nodes = some position ∧
      transition = state.goto position := by
  unfold jump at jumped
  cases stands : labelPosition? target state.frame.body.block.nodes with
  | none =>
      rw [stands] at jumped
      cases jumped
  | some position =>
      rw [stands] at jumped
      cases jumped
      exact ⟨position, rfl, rfl⟩

inductive Explained (state : State) (node : Node) : Transition -> Prop where
  | next {after : State} (leads : state.Leads node after) : Explained state node (.next after)
  | done {value : Value Body} (yields : state.Yields node value) :
      Explained state node (.done value state.cells)

theorem explained_of_produces {transition : Transition}
    (executed : state.execute node = .ok transition)
    (produced : state.Produces node dest value cells) : state.Explained node transition := by
  rcases of_store executed produced with ⟨after, rfl, leads⟩
  exact .next leads

theorem explained_of_perform {action : Operation} {span : Span} {transition : Transition}
    (executed : state.execute (.operation action span) = .ok transition) :
    state.Explained (.operation action span) transition := by
  have performed : state.perform span action = .ok transition := executed
  cases action with
  | beginFixpoint dest => exact explained_of_produces executed .beginFixpoint
  | derefFixpoint dest source =>
      rcases bind_eq_ok_iff.mp performed with ⟨found, read, performed⟩
      rcases bind_eq_ok_iff.mp performed with ⟨cell, expected, performed⟩
      rcases bind_eq_ok_iff.mp performed with ⟨value, content, _⟩
      cases Value.eq_fixpoint_of_expectCell expected
      exact explained_of_produces executed
        (.derefFixpoint read (blameDefect_eq_ok_iff.mp content))
  | endFixpoint fixpoint source =>
      rcases bind_eq_ok_iff.mp performed with ⟨found, read, performed⟩
      rcases bind_eq_ok_iff.mp performed with ⟨cell, expected, performed⟩
      rcases bind_eq_ok_iff.mp performed with ⟨value, second, performed⟩
      rcases bind_eq_ok_iff.mp performed with ⟨cells, tied, last⟩
      cases Value.eq_fixpoint_of_expectCell expected
      cases last
      exact .next (.endFixpoint read second (blameDefect_eq_ok_iff.mp tied))
  | copy dest source =>
      rcases bind_eq_ok_iff.mp performed with ⟨found, read, _⟩
      exact explained_of_produces executed (.copy read)
  | member dest source field =>
      rcases bind_eq_ok_iff.mp performed with ⟨found, read, performed⟩
      rcases bind_eq_ok_iff.mp performed with ⟨value, accessed, _⟩
      exact explained_of_produces executed (.member read accessed)
  | literal dest value => exact explained_of_produces executed .literal
  | primitive dest operator lhs rhs =>
      rcases bind_eq_ok_iff.mp performed with ⟨left, first, performed⟩
      rcases bind_eq_ok_iff.mp performed with ⟨right, second, performed⟩
      rcases bind_eq_ok_iff.mp performed with ⟨value, applied, _⟩
      exact explained_of_produces executed
        (.primitive first second (blameFault_eq_ok_iff.mp applied))
  | call dest function argument =>
      rcases bind_eq_ok_iff.mp performed with ⟨callee, first, performed⟩
      rcases bind_eq_ok_iff.mp performed with ⟨⟨body, captures⟩, expected, performed⟩
      rcases bind_eq_ok_iff.mp performed with ⟨value, second, last⟩
      cases Value.eq_function_of_expectFunction expected
      cases last
      exact .next (.call first second)
  | tailCall function argument =>
      rcases bind_eq_ok_iff.mp performed with ⟨callee, first, performed⟩
      rcases bind_eq_ok_iff.mp performed with ⟨⟨body, captures⟩, expected, performed⟩
      rcases bind_eq_ok_iff.mp performed with ⟨value, second, last⟩
      cases Value.eq_function_of_expectFunction expected
      cases last
      exact .next (.tailCall first second)
  | leave source =>
      rcases bind_eq_ok_iff.mp performed with ⟨value, read, performed⟩
      unfold State.leave at performed
      split at performed
      · next outermost =>
          cases performed
          exact .done (.leave read outermost)
      · next caller rest waiting =>
          rcases bind_eq_ok_iff.mp performed with ⟨frame, written, last⟩
          cases last
          exact .next (.leave read waiting written)
  | exit source =>
      rcases bind_eq_ok_iff.mp performed with ⟨value, read, last⟩
      cases last
      exact .done (.exit read)

theorem explained_of_execute {transition : Transition}
    (executed : state.execute node = .ok transition) : state.Explained node transition := by
  cases node with
  | operation action span => exact explained_of_perform executed
  | function dest block captures span =>
      rcases bind_eq_ok_iff.mp executed with ⟨values, read, _⟩
      exact explained_of_produces executed (.function read)
  | data dest type tag fields span =>
      rcases bind_eq_ok_iff.mp executed with ⟨found, first, continued⟩
      rcases bind_eq_ok_iff.mp continued with ⟨⟨declaration, constructor⟩, numbered, continued⟩
      rcases bind_eq_ok_iff.mp continued with ⟨values, read, continued⟩
      rcases bind_eq_ok_iff.mp continued with ⟨value, constructed, _⟩
      rcases Value.of_constructorNumbered numbered with ⟨rfl, named⟩
      exact explained_of_produces executed
        (.data first named read (Value.of_construct constructed).2)
  | dataType dest declaration span => exact explained_of_produces executed .dataType
  | jump target span =>
      rcases of_jump executed with ⟨position, stands, rfl⟩
      exact .next (.jump stands)
  | jumpUnless condition target span =>
      rcases bind_eq_ok_iff.mp executed with ⟨found, read, continued⟩
      rcases bind_eq_ok_iff.mp continued with ⟨holds, expected, continued⟩
      cases Value.eq_boolean_of_expectBoolean expected
      cases holds with
      | true =>
          cases continued
          exact .next (.holds read)
      | false =>
          rcases of_jump continued with ⟨position, stands, rfl⟩
          exact .next (.fails read stands)
  | label label span =>
      cases executed
      exact .next .label

theorem step_eq_next_iff :
    state.step = .ok (.next after) ↔
      exists node, state.frame.node? = some node ∧ state.Leads node after := by
  unfold step
  constructor
  · intro stepped
    split at stepped
    · next node found =>
        cases explained_of_execute stepped with
        | next leads => exact ⟨node, found, leads⟩
    · cases stepped
  · intro moves
    rcases moves with ⟨node, found, leads⟩
    rw [found]
    exact execute_of_leads leads

theorem step_eq_done_iff :
    state.step = .ok (.done value cells) ↔
      cells = state.cells ∧
        exists node, state.frame.node? = some node ∧ state.Yields node value := by
  unfold step
  constructor
  · intro stepped
    split at stepped
    · next node found =>
        cases explained_of_execute stepped with
        | done yields => exact ⟨rfl, node, found, yields⟩
    · cases stepped
  · intro ends
    rcases ends with ⟨rfl, node, found, yields⟩
    rw [found]
    exact execute_of_yields yields

end State
end Block
end StrictLambda
