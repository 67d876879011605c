import StrictLambda.Proofs.Machine.Steps

/-!
# How one instruction can fail

An instruction fails with the first thing that goes wrong: an operand that cannot be read, a value
of another kind than the instruction asks for, a cell at the wrong time, a header that is none, or a
destination outside of the frame.
-/

namespace StrictLambda
namespace State

inductive Blames (program : Program) (span : Span) (state : State) :
    Instruction -> Failure -> Prop where
  | read {instruction : Instruction} {register : Register} {failure : Failure}
      (failed : state.read register = .error failure) :
      Blames program span state instruction failure
  | write {instruction : Instruction} {dest : Register} {value : Value Entry} {failure : Failure}
      (failed : state.stack.write state.base dest value = .error failure) :
      Blames program span state instruction failure
  | operands {instruction : Instruction} :
      Blames program span state instruction (.defect .operandsOutside none)
  | derefOther {dest source : Register} {found : Value Entry} {failure : Failure}
      (other : found.expectCell span = .error failure) :
      Blames program span state (.operation (.derefFixpoint dest source)) failure
  | derefPending {dest source : Register} :
      Blames program span state (.operation (.derefFixpoint dest source))
        (.defect .untied (some span))
  | endOther {fixpoint source : Register} {found : Value Entry} {failure : Failure}
      (other : found.expectCell span = .error failure) :
      Blames program span state (.operation (.endFixpoint fixpoint source)) failure
  | endTied {fixpoint source : Register} :
      Blames program span state (.operation (.endFixpoint fixpoint source))
        (.defect .tiedTwice (some span))
  | member {dest source : Register} {field : Symbol} {found : Value Entry} {failure : Failure}
      (read : state.read source = .ok found)
      (failed : found.member span field = .error failure) :
      Blames program span state (.operation (.member dest source field)) failure
  | primitive {dest lhs rhs : Register} {operator : Operator} {left right : Value Entry}
      {cause : Fault} (failed : operator.apply left right = .error cause) :
      Blames program span state (.operation (.primitive dest operator lhs rhs))
        (.fault cause span)
  | callOther {dest function argument : Register} {found : Value Entry} {failure : Failure}
      (other : found.expectFunction span = .error failure) :
      Blames program span state (.operation (.call dest function argument)) failure
  | tailCallOther {function argument : Register} {found : Value Entry} {failure : Failure}
      (other : found.expectFunction span = .error failure) :
      Blames program span state (.operation (.tailCall function argument)) failure
  | tailCallHeader {function argument : Register} {failure : Failure}
      (failed : state.stack.header state.base = .error failure) :
      Blames program span state (.operation (.tailCall function argument)) failure
  | leaveHeader {source : Register} {failure : Failure}
      (failed : state.stack.header state.base = .error failure) :
      Blames program span state (.operation (.leave source)) failure
  | leaveNowhere {source : Register} {saved : Nat} {address : Address} {failure : Failure}
      (header : state.stack.header state.base = .ok (saved, address))
      (returns : address ≠ Address.halt)
      (failed : program.returnRegister address = .error failure) :
      Blames program span state (.operation (.leave source)) failure
  | leaveWrite {source dest : Register} {saved : Nat} {value : Value Entry} {failure : Failure}
      (failed : (state.stack.truncate state.base).write saved dest value = .error failure) :
      Blames program span state (.operation (.leave source)) failure
  | dataOther {dest type : Register} {tag : Nat} {fields : Segment} {found : Value Entry}
      {failure : Failure} (failed : found.constructorNumbered span tag = .error failure) :
      Blames program span state (.data dest type tag fields) failure
  | arity {dest type : Register} {tag : Nat} {fields : Segment} {declaration : Declaration}
      {constructor : Constructor} {values : List (Value Entry)} {failure : Failure}
      (failed : Value.construct span declaration constructor tag values = .error failure) :
      Blames program span state (.data dest type tag fields) failure
  | notBoolean {condition : Register} {target : Address} {found : Value Entry}
      {failure : Failure} (other : found.expectBoolean span = .error failure) :
      Blames program span state (.jumpUnless condition target) failure

variable {program : Program} {state : State} {span : Span} {instruction : Instruction}
  {failure : Failure}

/-!
## Parts of an instruction
-/

theorem blames_of_store {dest : Register} {value : Value Entry} {cells : Cells Entry}
    (failed : { state with cells := cells }.store dest value = .error failure) :
    state.Blames program span instruction failure := by
  rcases bind_eq_error_iff.mp failed with written | ⟨stack, _, last⟩
  · exact .write written
  · cases last

theorem blames_of_readAll {registers : List Register}
    (failed : state.readAll registers = .error failure) :
    state.Blames program span instruction failure := by
  unfold readAll at failed
  induction registers with
  | nil => cases failed
  | cons register rest ih =>
      rcases bind_eq_error_iff.mp failed with first | ⟨value, _, failed⟩
      · exact .read first
      · rcases bind_eq_error_iff.mp failed with later | ⟨values, _, last⟩
        · exact ih later
        · cases last

theorem blames_of_operandRegisters {segment : Segment}
    (failed : program.operandRegisters segment = .error failure) :
    state.Blames program span instruction failure := by
  unfold Program.operandRegisters at failed
  split at failed
  · cases failed
  · cases failed
    exact .operands

theorem tie_eq_error {cell : Cell} {value : Value Entry}
    (failed : state.tie span cell value = .error failure) :
    failure = .defect .tiedTwice (some span) := by
  rcases bind_eq_error_iff.mp failed with tied | ⟨cells, _, last⟩
  · rcases blameDefect_eq_error_iff.mp tied with ⟨cause, outcome, rfl⟩
    rw [(Cells.tie_eq_error outcome).1]
  · cases last

theorem blameDefect_read_eq_error {cells : Cells Entry} {cell : Cell}
    (failed : blameDefect span (cells.read cell) = .error failure) :
    failure = .defect .untied (some span) := by
  rcases blameDefect_eq_error_iff.mp failed with ⟨cause, outcome, rfl⟩
  rw [(Cells.read_eq_error outcome).1]

theorem blames_of_tailCall {function register : Register} {argument : Value Entry}
    {entry : Entry} {captures : List (Value Entry)}
    (failed : state.tailCall argument entry captures = .error failure) :
    state.Blames program span (.operation (.tailCall function register)) failure := by
  rcases bind_eq_error_iff.mp failed with header | ⟨⟨saved, address⟩, _, last⟩
  · exact .tailCallHeader header
  · cases last

theorem blames_of_leave {source : Register} {value : Value Entry}
    (failed : state.leave program value = .error failure) :
    state.Blames program span (.operation (.leave source)) failure := by
  rcases bind_eq_error_iff.mp failed with none | ⟨⟨saved, address⟩, header, failed⟩
  · exact .leaveHeader none
  dsimp only at failed
  split at failed
  · cases failed
  · next returns =>
      rcases bind_eq_error_iff.mp failed with nowhere | ⟨dest, _, failed⟩
      · exact .leaveNowhere header returns nowhere
      · rcases bind_eq_error_iff.mp failed with written | ⟨stack, _, last⟩
        · exact .leaveWrite written
        · cases last

/-!
## Every failure is one of these
-/

theorem blames_of_perform {action : Operation}
    (failed : state.perform program span action = .error failure) :
    state.Blames program span (.operation action) failure := by
  cases action with
  | beginFixpoint dest => exact blames_of_store failed
  | derefFixpoint dest source =>
      rcases bind_eq_error_iff.mp failed with first | ⟨found, _, failed⟩
      · exact .read first
      rcases bind_eq_error_iff.mp failed with other | ⟨cell, _, failed⟩
      · exact .derefOther other
      rcases bind_eq_error_iff.mp failed with pending | ⟨value, _, stored⟩
      · rw [blameDefect_read_eq_error pending]
        exact .derefPending
      · exact blames_of_store stored
  | endFixpoint fixpoint source =>
      rcases bind_eq_error_iff.mp failed with first | ⟨found, _, failed⟩
      · exact .read first
      rcases bind_eq_error_iff.mp failed with other | ⟨cell, _, failed⟩
      · exact .endOther other
      rcases bind_eq_error_iff.mp failed with second | ⟨value, _, failed⟩
      · exact .read second
      rcases bind_eq_error_iff.mp failed with tied | ⟨after, _, last⟩
      · rw [tie_eq_error tied]
        exact .endTied
      · cases last
  | copy dest source =>
      rcases bind_eq_error_iff.mp failed with first | ⟨value, _, stored⟩
      · exact .read first
      · exact blames_of_store stored
  | member dest source field =>
      rcases bind_eq_error_iff.mp failed with first | ⟨found, read, failed⟩
      · exact .read first
      rcases bind_eq_error_iff.mp failed with access | ⟨value, _, stored⟩
      · exact .member read access
      · exact blames_of_store stored
  | literal dest value => exact blames_of_store failed
  | primitive dest operator lhs rhs =>
      rcases bind_eq_error_iff.mp failed with first | ⟨left, _, failed⟩
      · exact .read first
      rcases bind_eq_error_iff.mp failed with second | ⟨right, _, failed⟩
      · exact .read second
      rcases bind_eq_error_iff.mp failed with blamed | ⟨value, _, stored⟩
      · rcases blameFault_eq_error_iff.mp blamed with ⟨cause, applied, rfl⟩
        exact .primitive applied
      · exact blames_of_store stored
  | call dest function argument =>
      rcases bind_eq_error_iff.mp failed with first | ⟨callee, _, failed⟩
      · exact .read first
      rcases bind_eq_error_iff.mp failed with other | ⟨code, _, failed⟩
      · exact .callOther other
      rcases bind_eq_error_iff.mp failed with second | ⟨value, _, last⟩
      · exact .read second
      · cases last
  | tailCall function argument =>
      rcases bind_eq_error_iff.mp failed with first | ⟨callee, _, failed⟩
      · exact .read first
      rcases bind_eq_error_iff.mp failed with other | ⟨code, _, failed⟩
      · exact .tailCallOther other
      rcases bind_eq_error_iff.mp failed with second | ⟨value, _, called⟩
      · exact .read second
      · exact blames_of_tailCall called
  | leave source =>
      rcases bind_eq_error_iff.mp failed with first | ⟨value, _, left⟩
      · exact .read first
      · exact blames_of_leave left
  | exit source =>
      rcases bind_eq_error_iff.mp failed with first | ⟨value, _, last⟩
      · exact .read first
      · cases last

theorem blames_of_execute (failed : state.execute program span instruction = .error failure) :
    state.Blames program span instruction failure := by
  cases instruction with
  | operation action => exact blames_of_perform failed
  | function dest entry segment =>
      rcases bind_eq_error_iff.mp failed with outside | ⟨registers, _, failed⟩
      · exact blames_of_operandRegisters outside
      rcases bind_eq_error_iff.mp failed with all | ⟨values, _, stored⟩
      · exact blames_of_readAll all
      · exact blames_of_store stored
  | data dest type tag segment =>
      rcases bind_eq_error_iff.mp failed with first | ⟨found, _, failed⟩
      · exact .read first
      rcases bind_eq_error_iff.mp failed with other | ⟨declared, _, failed⟩
      · exact .dataOther other
      rcases bind_eq_error_iff.mp failed with outside | ⟨registers, _, failed⟩
      · exact blames_of_operandRegisters outside
      rcases bind_eq_error_iff.mp failed with all | ⟨values, _, failed⟩
      · exact blames_of_readAll all
      rcases bind_eq_error_iff.mp failed with arity | ⟨value, _, stored⟩
      · exact .arity arity
      · exact blames_of_store stored
  | dataType dest index =>
      rw [execute] at failed
      split at failed
      · exact blames_of_store failed
      · cases failed
        exact .operands
  | jump target => cases failed
  | jumpUnless condition target =>
      rcases bind_eq_error_iff.mp failed with first | ⟨found, _, failed⟩
      · exact .read first
      rcases bind_eq_error_iff.mp failed with other | ⟨holds, _, last⟩
      · exact .notBoolean other
      · cases last

theorem blames_of_step (failed : state.step program = .error failure) :
    (program.fetch? state.pc = none ∧ failure = .defect (.addressOutside state.pc) none) ∨
      exists instruction span, program.fetch? state.pc = some (instruction, span) ∧
        state.Blames program span instruction failure := by
  unfold step at failed
  split at failed
  · next instruction span fetched =>
      exact .inr ⟨instruction, span, fetched, blames_of_execute failed⟩
  · next missing =>
      cases failed
      exact .inl ⟨missing, rfl⟩

end State
end StrictLambda
