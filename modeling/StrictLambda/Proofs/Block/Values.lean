import StrictLambda.Proofs.Block.Steps

/-!
# The values of a state

The values a state of the block interpreter consists of are those in registers and cells, and what
is inside of them.  A step moves values around and adds at most one new one, so a property that the
new value has is kept by the whole state.
-/

namespace StrictLambda
namespace Block

variable {Holds : Value Body -> Prop}

def Frame.AllValues (Holds : Value Body -> Prop) (frame : Frame) : Prop :=
  forall value, some value ∈ frame.registers -> value.Everywhere Holds

structure State.AllValues (Holds : Value Body -> Prop) (state : State) : Prop where
  frame : state.frame.AllValues Holds
  callers : forall caller, caller ∈ state.callers -> caller.frame.AllValues Holds
  cells : forall cell value, state.cells.content? cell = some value -> value.Everywhere Holds

/-- The property holds of whatever the node about to be executed can put into the world. -/
structure State.Creates (Holds : Value Body -> Prop) (state : State) : Prop where
  literal : forall value : Value Body, value.IsLiteral -> Holds value
  dataType : forall declaration, Holds (.dataType declaration)
  cell : forall cell, Holds (.fixpoint cell)
  function : forall {dest block captures span values},
    state.frame.node? = some (.function dest block captures span) ->
      state.frame.readAll captures = .ok values ->
      Holds (.function (state.frame.body.nested state.frame.position block) values)
  data : forall {dest type tag fields span values declaration constructor},
    state.frame.node? = some (.data dest type tag fields span) ->
      state.frame.readAll fields = .ok values ->
      declaration.constructors[tag]? = some constructor ->
      values.length = constructor.fields.length ->
      Holds (.data declaration tag values)

/-!
## Frames
-/

namespace Frame

variable {frame after : Frame} {register : Register} {value : Value Body}

theorem AllValues.read (all : frame.AllValues Holds) (read : frame.read register = .ok value) :
    value.Everywhere Holds := by
  rw [read_eq_ok_iff] at read
  exact all value (List.mem_of_getElem? read)

theorem AllValues.readAll (all : frame.AllValues Holds) {registers : List Register}
    {values : List (Value Body)} (read : frame.readAll registers = .ok values)
    {part : Value Body} (member : part ∈ values) : part.Everywhere Holds := by
  rcases exists_read_of_readAll read member with ⟨register, _, single⟩
  exact all.read single

theorem AllValues.write (all : frame.AllValues Holds) (here : value.Everywhere Holds)
    (written : frame.write register value = .ok after) : after.AllValues Holds := by
  rcases write_eq_ok_iff.mp written with ⟨_, rfl⟩
  intro other member
  rcases List.mem_or_eq_of_mem_set member with old | new
  · exact all other old
  · cases new
    exact here

theorem allValues_enter {body : Body} {argument : Value Body} {captures : List (Value Body)}
    (here : argument.Everywhere Holds)
    (inside : forall part, part ∈ captures -> part.Everywhere Holds) :
    (enter body argument captures).AllValues Holds := by
  intro value member
  simp only [enter, List.cons_append, List.mem_cons, List.mem_append, List.mem_map,
    List.mem_replicate] at member
  rcases member with first | ⟨part, capture, same⟩ | ⟨_, empty⟩
  · cases first
    exact here
  · cases same
    exact inside value capture
  · cases empty

theorem allValues_outermost (tree : Block) : (outermost tree).AllValues Holds := by
  intro value member
  simp [outermost] at member

end Frame

/-!
## Steps
-/

theorem State.allValues_start (tree : Block) : (State.start tree).AllValues Holds where
  frame := Frame.allValues_outermost tree
  callers := by
    intro caller member
    cases member
  cells := by
    intro cell value content
    simp [State.start, Cells.empty, Cells.content?] at content

namespace State

variable {state after : State} {node : Node} {dest : Register} {value : Value Body}
  {cells : Cells Body}

theorem AllValues.produces (all : state.AllValues Holds) (creates : state.Creates Holds)
    (found : state.frame.node? = some node) (produced : state.Produces node dest value cells) :
    value.Everywhere Holds ∧
      forall cell content, cells.content? cell = some content -> content.Everywhere Holds := by
  have same := all.cells
  cases produced with
  | beginFixpoint =>
      refine ⟨.of_no_parts (creates.cell _) rfl, ?_⟩
      intro cell content holds
      rw [Cells.content?_allocate] at holds
      exact same cell content holds
  | derefFixpoint _ content => exact ⟨same _ _ (Cells.content?_of_read content), same⟩
  | copy read => exact ⟨all.frame.read read, same⟩
  | member read accessed =>
      exact ⟨(all.frame.read read).inside (Value.mem_parts_of_member accessed), same⟩
  | literal =>
      exact ⟨.of_no_parts (creates.literal _ (Value.isLiteral_ofLiteral _))
        (Value.isLiteral_ofLiteral _).parts_eq_nil, same⟩
  | primitive _ _ applied =>
      have literal := Operator.isLiteral_of_apply applied
      exact ⟨.of_no_parts (creates.literal _ literal) literal.parts_eq_nil, same⟩
  | function read =>
      exact ⟨.intro (creates.function found read) fun part member => all.frame.readAll read member,
        same⟩
  | data _ named read arity =>
      exact ⟨.intro (creates.data found read named arity) fun part member =>
        all.frame.readAll read member, same⟩
  | dataType => exact ⟨.of_no_parts (creates.dataType _) rfl, same⟩

theorem AllValues.leads (all : state.AllValues Holds) (creates : state.Creates Holds)
    (found : state.frame.node? = some node) (leads : state.Leads node after) :
    after.AllValues Holds := by
  cases leads with
  | store produced written =>
      rcases all.produces creates found produced with ⟨here, cells⟩
      have frame := all.frame.write here written
      exact ⟨frame, all.callers, cells⟩
  | endFixpoint _ read tied =>
      refine ⟨all.frame, all.callers, ?_⟩
      intro cell content holds
      rcases Cells.eq_or_content?_of_tie tied holds with rfl | old
      · exact all.frame.read read
      · exact all.cells cell content old
  | call callee read =>
      refine ⟨Frame.allValues_enter (all.frame.read read) ?_, ?_, all.cells⟩
      · intro part member
        exact (all.frame.read callee).inside member
      · intro caller member
        rcases List.mem_cons.mp member with rfl | older
        · exact all.frame
        · exact all.callers caller older
  | tailCall callee read =>
      refine ⟨Frame.allValues_enter (all.frame.read read) ?_, all.callers, all.cells⟩
      intro part member
      exact (all.frame.read callee).inside member
  | leave read waiting written =>
      have callers := all.callers
      rw [waiting] at callers
      refine ⟨(callers _ List.mem_cons_self).write (all.frame.read read) written, ?_, all.cells⟩
      intro caller member
      exact callers caller (List.mem_cons_of_mem _ member)
  | jump | holds | fails | label => exact ⟨all.frame, all.callers, all.cells⟩

end State
end Block
end StrictLambda
