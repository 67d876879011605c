import StrictLambda.Proofs.Block.Steps

/-!
# How a step of the block interpreter can fail

Most failures are faults, mistakes of the evaluated program.  The others mean that the tree was
malformed: a register that is empty or does not exist, something else in the place of a cell, a cell
that is used at the wrong time, or a label that is not there.
-/

namespace StrictLambda

namespace Block

inductive State.Blames (state : State) : Node -> Failure -> Prop where
  | read {node : Node} {register : Register} {failure : Failure}
      (named : register ∈ node.sources)
      (failed : state.frame.read register = .error failure) : Blames state node failure
  | write {node : Node} {dest : Register} {value : Value Body} {failure : Failure}
      (named : dest ∈ node.registers) (failed : state.frame.write dest value = .error failure) :
      Blames state node failure
  | derefOther {dest source : Register} {span : Span} {found : Value Body} {failure : Failure}
      (read : state.frame.read source = .ok found)
      (other : found.expectCell span = .error failure) :
      Blames state (.operation (.derefFixpoint dest source) span) failure
  | derefPending {dest source : Register} {span : Span} {cell : Cell}
      (read : state.frame.read source = .ok (.fixpoint cell))
      (pending : state.cells.content? cell = none) :
      Blames state (.operation (.derefFixpoint dest source) span) (.defect .untied (some span))
  | endOther {fixpoint source : Register} {span : Span} {found : Value Body} {failure : Failure}
      (read : state.frame.read fixpoint = .ok found)
      (other : found.expectCell span = .error failure) :
      Blames state (.operation (.endFixpoint fixpoint source) span) failure
  | endTied {fixpoint source : Register} {span : Span} {cell : Cell}
      (read : state.frame.read fixpoint = .ok (.fixpoint cell))
      (tied : state.cells.content? cell ≠ none) :
      Blames state (.operation (.endFixpoint fixpoint source) span)
        (.defect .tiedTwice (some span))
  | member {dest source : Register} {field : Symbol} {span : Span} {found : Value Body}
      {failure : Failure} (read : state.frame.read source = .ok found)
      (failed : found.member span field = .error failure) :
      Blames state (.operation (.member dest source field) span) failure
  | fault {node : Node} {cause : Fault} : Blames state node (.fault cause node.span)
  | jump {node : Node} {target : Label} (aims : node.target? = some target)
      (missing : labelPosition? target state.frame.body.block.nodes = none) :
      Blames state node
        (.defect (.unknownLabel target) (some state.frame.body.block.span))
  | leave {source : Register} {span : Span} {caller : Caller} {rest : List Caller}
      {value : Value Body} {failure : Failure} (waiting : state.callers = caller :: rest)
      (failed : caller.frame.write caller.dest value = .error failure) :
      Blames state (.operation (.leave source) span) failure

namespace State

variable {state : State} {node : Node} {failure : Failure}

theorem blames_of_store {dest : Register} {value : Value Body} {cells : Cells Body}
    (named : dest ∈ node.registers)
    (failed : { state with cells := cells }.store dest value = .error failure) :
    state.Blames node failure := by
  rcases bind_eq_error_iff.mp failed with written | ⟨frame, _, last⟩
  · exact .write named written
  · cases last

theorem blames_of_jump {target : Label} (aims : node.target? = some target)
    (failed : state.jump target = .error failure) : state.Blames node failure := by
  unfold jump at failed
  split at failed
  · cases failed
  · next missing =>
      cases failed
      exact .jump aims missing

theorem blames_of_perform {action : Operation} {span : Span}
    (failed : state.perform span action = .error failure) :
    state.Blames (.operation action span) failure := by
  cases action with
  | beginFixpoint dest =>
      exact blames_of_store (by simp [Node.registers, Operation.registers]) failed
  | derefFixpoint dest source =>
      rcases bind_eq_error_iff.mp failed with first | ⟨found, read, afterRead⟩
      · exact .read (by simp [Node.sources, Operation.sources]) first
      rcases bind_eq_error_iff.mp afterRead with other | ⟨cell, expected, afterCell⟩
      · exact .derefOther read other
      cases Value.eq_fixpoint_of_expectCell expected
      rcases bind_eq_error_iff.mp afterCell with pending | ⟨value, _, stored⟩
      · rcases blameDefect_eq_error_iff.mp pending with ⟨cause, outcome, rfl⟩
        rcases Cells.read_eq_error outcome with ⟨rfl, content⟩
        exact .derefPending read content
      · exact blames_of_store (by simp [Node.registers, Operation.registers]) stored
  | endFixpoint fixpoint source =>
      rcases bind_eq_error_iff.mp failed with first | ⟨found, read, afterRead⟩
      · exact .read (by simp [Node.sources, Operation.sources]) first
      rcases bind_eq_error_iff.mp afterRead with other | ⟨cell, expected, afterCell⟩
      · exact .endOther read other
      cases Value.eq_fixpoint_of_expectCell expected
      rcases bind_eq_error_iff.mp afterCell with second | ⟨value, _, afterValue⟩
      · exact .read (by simp [Node.sources, Operation.sources]) second
      rcases bind_eq_error_iff.mp afterValue with tied | ⟨cells, _, last⟩
      · rcases blameDefect_eq_error_iff.mp tied with ⟨cause, outcome, rfl⟩
        rcases Cells.tie_eq_error outcome with ⟨rfl, content⟩
        exact .endTied read content
      · cases last
  | copy dest source =>
      rcases bind_eq_error_iff.mp failed with first | ⟨value, _, stored⟩
      · exact .read (by simp [Node.sources, Operation.sources]) first
      · exact blames_of_store (by simp [Node.registers, Operation.registers]) stored
  | member dest source field =>
      rcases bind_eq_error_iff.mp failed with first | ⟨found, read, failed⟩
      · exact .read (by simp [Node.sources, Operation.sources]) first
      rcases bind_eq_error_iff.mp failed with access | ⟨value, _, stored⟩
      · exact .member read access
      · exact blames_of_store (by simp [Node.registers, Operation.registers]) stored
  | literal dest value =>
      exact blames_of_store (by simp [Node.registers, Operation.registers]) failed
  | primitive dest operator lhs rhs =>
      rcases bind_eq_error_iff.mp failed with first | ⟨left, _, failed⟩
      · exact .read (by simp [Node.sources, Operation.sources]) first
      rcases bind_eq_error_iff.mp failed with second | ⟨right, _, failed⟩
      · exact .read (by simp [Node.sources, Operation.sources]) second
      rcases bind_eq_error_iff.mp failed with applied | ⟨value, _, stored⟩
      · rcases blameFault_eq_error_iff.mp applied with ⟨cause, _, rfl⟩
        exact .fault
      · exact blames_of_store (by simp [Node.registers, Operation.registers]) stored
  | call _ function argument | tailCall function argument =>
      rcases bind_eq_error_iff.mp failed with first | ⟨callee, _, failed⟩
      · exact .read (by simp [Node.sources, Operation.sources]) first
      rcases bind_eq_error_iff.mp failed with other | ⟨code, _, failed⟩
      · cases Value.expectFunction_eq_error other
        exact .fault
      rcases bind_eq_error_iff.mp failed with second | ⟨value, _, last⟩
      · exact .read (by simp [Node.sources, Operation.sources]) second
      · cases last
  | leave source =>
      rcases bind_eq_error_iff.mp failed with first | ⟨value, _, failed⟩
      · exact .read (by simp [Node.sources, Operation.sources]) first
      unfold State.leave at failed
      split at failed
      · cases failed
      · next caller rest waiting =>
          rcases bind_eq_error_iff.mp failed with written | ⟨frame, _, last⟩
          · exact .leave waiting written
          · cases last
  | exit source =>
      rcases bind_eq_error_iff.mp failed with first | ⟨value, _, last⟩
      · exact .read (by simp [Node.sources, Operation.sources]) first
      · cases last

theorem blames_of_execute (failed : state.execute node = .error failure) :
    state.Blames node failure := by
  cases node with
  | operation action span => exact blames_of_perform failed
  | function dest block captures span =>
      rcases bind_eq_error_iff.mp failed with all | ⟨values, _, stored⟩
      · rcases Frame.readAll_eq_error all with ⟨register, named, first⟩
        exact .read named first
      · exact blames_of_store (by simp [Node.registers]) stored
  | data dest type tag fields span =>
      rcases bind_eq_error_iff.mp failed with first | ⟨found, _, failed⟩
      · exact .read (by simp [Node.sources]) first
      rcases bind_eq_error_iff.mp failed with other | ⟨declared, _, failed⟩
      · rcases Value.constructorNumbered_eq_error other with ⟨cause, rfl⟩
        exact .fault
      rcases bind_eq_error_iff.mp failed with all | ⟨values, _, failed⟩
      · rcases Frame.readAll_eq_error all with ⟨register, named, first⟩
        exact .read (List.mem_cons_of_mem type named) first
      rcases bind_eq_error_iff.mp failed with arity | ⟨value, _, stored⟩
      · rcases Value.construct_eq_error arity with ⟨cause, rfl⟩
        exact .fault
      · exact blames_of_store (by simp [Node.registers]) stored
  | dataType dest declaration span =>
      exact blames_of_store (by simp [Node.registers]) failed
  | jump target span => exact blames_of_jump rfl failed
  | jumpUnless condition target span =>
      rcases bind_eq_error_iff.mp failed with first | ⟨found, _, failed⟩
      · exact .read (by simp [Node.sources]) first
      rcases bind_eq_error_iff.mp failed with other | ⟨holds, _, failed⟩
      · cases Value.expectBoolean_eq_error other
        exact .fault
      split at failed
      · cases failed
      · exact blames_of_jump rfl failed
  | label label span => cases failed

end State
end Block
end StrictLambda
