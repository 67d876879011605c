import StrictLambda.Proofs.Execution.Expansion
import StrictLambda.Proofs.Layout.Safety
import StrictLambda.Proofs.TailCalls.Unrolling

/-!
# Forwarding results

In the run of a tree without tail calls the frame that would have been replaced stays on the stack,
and does nothing more than to hand the result on.  So one frame of the original run corresponds to a
frame with any number of such forwarding frames below it.
-/

namespace StrictLambda
namespace Block

/-!
## Corresponding states
-/

def Body.unrolled (body : Body) : Body where
  number := body.number
  block := body.block.unrolled

def Frame.unrolled (frame : Frame) : Frame where
  body := frame.body.unrolled
  position := unrolledPosition frame.body.block.spare frame.body.block.nodes frame.position
  registers :=
    frame.registers.map (Option.map (Value.map Body.unrolled)) ++
      List.replicate (frame.body.block.unrolled.frameSize - frame.body.block.frameSize) none

theorem Body.nested_unrolled (body : Body) (position : Nat) (block : Block) :
    body.unrolled.nested (unrolledPosition body.block.spare body.block.nodes position)
      block.unrolled = (body.nested position block).unrolled := by
  unfold nested unrolled
  dsimp only
  rw [nodes_unrolled, nestedCount_take_unrolledPosition]

/-- The callers of the rewritten run: those of the original one, and frames in between that return
what they receive. -/
inductive Forwarded : List Caller -> List Caller -> Prop where
  | nil : Forwarded [] []
  | waits {caller : Caller} {rest others : List Caller} (later : Forwarded rest others) :
      Forwarded (caller :: rest) (⟨caller.frame.unrolled, caller.dest⟩ :: others)
  | forwards {callers others : List Caller} {frame : Frame} {dest : Register} {span : Span}
      (returns : frame.node? = some (.operation (.leave dest) span))
      (inside : dest.index < frame.registers.length) (later : Forwarded callers others) :
      Forwarded callers (⟨frame, dest⟩ :: others)

structure Unrolls (state other : State) : Prop where
  frame : other.frame = state.frame.unrolled
  callers : Forwarded state.callers other.callers
  cells : other.cells = state.cells.map Body.unrolled

/-!
## Frames
-/

namespace Frame

variable {frame : Frame} {register : Register}

theorem getElem?_unrolled {node : Node} (found : frame.node? = some node) {offset : Nat}
    (inside : offset < (node.unrolled frame.body.block.spare).length) :
    frame.unrolled.body.block.nodes[frame.unrolled.position + offset]? =
      (node.unrolled frame.body.block.spare)[offset]? := by
  unfold unrolled Body.unrolled
  dsimp only
  rw [nodes_unrolled]
  exact getElem?_unrolledPosition _ found inside

theorem node?_unrolled {node own : Node} (found : frame.node? = some node)
    (single : node.unrolled frame.body.block.spare = [own]) :
    frame.unrolled.node? = some own := by
  have here := getElem?_unrolled found (by rw [single]; exact Nat.succ_pos 0)
  rw [single] at here
  exact here

theorem advance_unrolled {node own : Node} (found : frame.node? = some node)
    (single : node.unrolled frame.body.block.spare = [own]) :
    frame.unrolled.advance = frame.advance.unrolled := by
  have next := unrolledPosition_succ frame.body.block.spare found
  rw [single] at next
  unfold advance goto unrolled
  dsimp only
  rw [next]
  rfl

theorem read_unrolled (inside : register.index < frame.registers.length) :
    frame.unrolled.read register = (frame.read register).map (Value.map Body.unrolled) := by
  unfold read unrolled
  dsimp only
  rw [List.getElem?_append_left (by rw [List.length_map]; exact inside), List.getElem?_map]
  cases found : frame.registers[register.index]? with
  | none =>
      rw [List.getElem?_eq_none_iff] at found
      exact absurd inside (Nat.not_lt.mpr found)
  | some content => cases content <;> rfl

theorem readAll_unrolled {registers : List Register}
    (inside : forall register, register ∈ registers ->
      register.index < frame.registers.length) :
    frame.unrolled.readAll registers =
      (frame.readAll registers).map (List.map (Value.map Body.unrolled)) := by
  induction registers with
  | nil => rfl
  | cons register rest ih =>
      rcases List.forall_mem_cons.mp inside with ⟨first, others⟩
      rw [readAll, readAll, read_unrolled first, ih others]
      cases frame.read register with
      | error failure => rfl
      | ok value =>
          cases frame.readAll rest with
          | error failure => rfl
          | ok values => rfl

theorem write_unrolled (inside : register.index < frame.registers.length) (value : Value Body) :
    frame.unrolled.write register (value.map Body.unrolled) =
      (frame.write register value).map Frame.unrolled := by
  have insideAfter : register.index < frame.unrolled.registers.length := by
    unfold unrolled
    rw [List.length_append, List.length_map]
    exact Nat.lt_add_right _ inside
  unfold write
  rw [if_pos inside, if_pos insideAfter, Except.map, unrolled, unrolled]
  dsimp only
  rw [List.set_append_left _ _ (by rw [List.length_map]; exact inside), List.map_set]
  rfl

theorem length_registers_unrolled (complete : frame.registers.length = frame.body.block.frameSize) :
    frame.unrolled.registers.length = frame.body.block.unrolled.frameSize := by
  have larger := frameSize_le_unrolled frame.body.block
  simp only [unrolled, List.length_append, List.length_map, List.length_replicate]
  omega

theorem enter_unrolled {body : Body} {captures : List (Value Body)} (argument : Value Body)
    (room : captures.length + 1 <= body.block.frameSize) :
    Frame.enter body.unrolled (argument.map Body.unrolled)
        (captures.map (Value.map Body.unrolled)) =
      (Frame.enter body argument captures).unrolled := by
  have larger := frameSize_le_unrolled body.block
  have filled : body.block.unrolled.frameSize - (captures.length + 1) =
      body.block.frameSize - (captures.length + 1) +
        (body.block.unrolled.frameSize - body.block.frameSize) := by omega
  unfold enter unrolled
  simp [Body.unrolled, unrolledPosition, filled]

end Frame

/-!
## Steps
-/

inductive Transition.Unrolls : Transition -> Transition -> Prop where
  | next {after other : State} (unrolls : Block.Unrolls after other) :
      Transition.Unrolls (.next after) (.next other)
  | done (value : Value Body) (cells : Cells Body) :
      Transition.Unrolls (.done value cells)
        (.done (value.map Body.unrolled) (cells.map Body.unrolled))

namespace Unrolls

variable {program : Program} {state other : State} {node own : Node}

theorem read_eq (unrolls : Unrolls state other) {register : Register}
    (inside : register.index < state.frame.registers.length) :
    other.frame.read register = (state.frame.read register).map (Value.map Body.unrolled) := by
  rw [unrolls.frame]
  exact Frame.read_unrolled inside

theorem advance_eq (unrolls : Unrolls state other) (found : state.frame.node? = some node)
    (single : node.unrolled state.frame.body.block.spare = [own]) :
    other.frame.advance = state.frame.advance.unrolled := by
  rw [unrolls.frame]
  exact Frame.advance_unrolled found single

theorem store (unrolls : Unrolls state other) (found : state.frame.node? = some node)
    (single : node.unrolled state.frame.body.block.spare = [own]) {dest : Register}
    (inside : dest.index < state.frame.registers.length) (value : Value Body) :
    Corresponds Transition.Unrolls (state.store dest value)
      (other.store dest (value.map Body.unrolled)) := by
  unfold State.store
  rw [unrolls.frame]
  apply Corresponds.bind (Frame.write_unrolled inside value)
  intro frame written
  rcases Frame.write_eq_ok_iff.mp written with ⟨_, rfl⟩
  have same : Frame.node?
      { state.frame with registers := state.frame.registers.set dest.index (some value) } =
        some node := found
  exact .ok (.next ⟨Frame.advance_unrolled same single, unrolls.callers, unrolls.cells⟩)

theorem goto (unrolls : Unrolls state other) (position : Nat) :
    Transition.Unrolls (state.goto position)
      (other.goto
        (unrolledPosition state.frame.body.block.spare state.frame.body.block.nodes position)) := by
  refine .next ⟨?_, unrolls.callers, unrolls.cells⟩
  unfold Frame.goto
  rw [unrolls.frame]
  rfl

theorem advance (unrolls : Unrolls state other) (found : state.frame.node? = some node)
    (single : node.unrolled state.frame.body.block.spare = [own]) :
    Transition.Unrolls (state.goto (state.frame.position + 1))
      (other.goto (other.frame.position + 1)) :=
  .next ⟨unrolls.advance_eq found single, unrolls.callers, unrolls.cells⟩

theorem jump (unrolls : Unrolls state other) (target : Label) :
    Corresponds Transition.Unrolls (state.jump target) (other.jump target) := by
  have stands := labelPosition?_unrolledNodes state.frame.body.block.spare target
    state.frame.body.block.nodes
  rw [← nodes_unrolled] at stands
  unfold State.jump
  rw [unrolls.frame, Frame.unrolled, Body.unrolled]
  dsimp only
  rw [stands]
  cases labelPosition? target state.frame.body.block.nodes with
  | none =>
      rw [span_unrolled]
      exact .error _
  | some position => exact .ok (unrolls.goto position)

theorem perform (unrolls : Unrolls state other) (sound : program.Sound state)
    {action : Operation} {span : Span}
    (found : state.frame.node? = some (.operation action span))
    (single : action.unrolled state.frame.body.block.spare span = [.operation action span])
    (stays : forall source, action ≠ .leave source) :
    Corresponds Transition.Unrolls (state.perform span action) (other.perform span action) := by
  have inside {register : Register} (named : register ∈ action.registers) :
      register.index < state.frame.registers.length :=
    sound.frame.inside_of_mem (List.mem_of_getElem? found) named
  have cells_eq := unrolls.cells
  cases action with
  | beginFixpoint dest =>
      have allocated := Cells.allocate_map Body.unrolled state.cells
      unfold State.perform
      rw [cells_eq, allocated]
      have after : Unrolls { state with cells := state.cells.allocate.2 }
          { other with cells := state.cells.allocate.2.map Body.unrolled } :=
        ⟨unrolls.frame, unrolls.callers, rfl⟩
      have stored := after.store found single (inside List.mem_cons_self)
        (.fixpoint state.cells.allocate.1)
      rw [Value.map_fixpoint] at stored
      exact stored
  | derefFixpoint dest source =>
      apply Corresponds.bind (unrolls.read_eq (inside (.tail _ List.mem_cons_self)))
      intro content _
      apply Corresponds.bind_same (Value.expectCell_map _ span content)
      intro cell _
      rw [cells_eq, Cells.read_map, Program.blameDefect_map]
      apply Corresponds.bind rfl
      intro value _
      exact unrolls.store found single (inside List.mem_cons_self) value
  | endFixpoint fixpoint source =>
      apply Corresponds.bind (unrolls.read_eq (inside List.mem_cons_self))
      intro content _
      apply Corresponds.bind_same (Value.expectCell_map _ span content)
      intro cell _
      apply Corresponds.bind (unrolls.read_eq (inside (.tail _ List.mem_cons_self)))
      intro value _
      rw [cells_eq, Cells.tie_map, Program.blameDefect_map]
      apply Corresponds.bind rfl
      intro cells _
      exact .ok (.next ⟨unrolls.advance_eq found single, unrolls.callers, rfl⟩)
  | copy dest source =>
      apply Corresponds.bind (unrolls.read_eq (inside (.tail _ List.mem_cons_self)))
      intro value _
      exact unrolls.store found single (inside List.mem_cons_self) value
  | member dest source field =>
      apply Corresponds.bind (unrolls.read_eq (inside (.tail _ List.mem_cons_self)))
      intro content _
      apply Corresponds.bind (Value.member_map _ span field content)
      intro value _
      exact unrolls.store found single (inside List.mem_cons_self) value
  | literal dest value =>
      have stored := unrolls.store found single (inside List.mem_cons_self) (.ofLiteral value)
      rw [Value.map_ofLiteral] at stored
      exact stored
  | primitive dest operator lhs rhs =>
      apply Corresponds.bind (unrolls.read_eq (inside (.tail _ List.mem_cons_self)))
      intro left _
      apply Corresponds.bind (unrolls.read_eq (inside (.tail _ (.tail _ List.mem_cons_self))))
      intro right _
      rw [Operator.apply_map, Program.blameFault_map]
      apply Corresponds.bind rfl
      intro value _
      exact unrolls.store found single (inside List.mem_cons_self) value
  | call dest function argument =>
      apply Corresponds.bind (unrolls.read_eq (inside (.tail _ List.mem_cons_self)))
      intro callee read
      apply Corresponds.bind (Value.expectFunction_map _ span callee)
      rintro ⟨body, captures⟩ expected
      apply Corresponds.bind
        (unrolls.read_eq (inside (.tail _ (.tail _ List.mem_cons_self))))
      intro value _
      cases Value.eq_function_of_expectFunction expected
      refine .ok (.next ⟨?_, ?_, cells_eq⟩)
      · exact Frame.enter_unrolled value (sound.values.frame.read read).here.captures_lt
      · rw [unrolls.advance_eq found single]
        exact .waits unrolls.callers
  | tailCall function argument => cases single
  | leave source => exact absurd rfl (stays source)
  | exit source =>
      apply Corresponds.bind (unrolls.read_eq (inside List.mem_cons_self))
      intro value _
      rw [cells_eq]
      exact .ok (.done value state.cells)

theorem tailCall (unrolls : Unrolls state other) (sound : program.Sound state)
    {function argument : Register} {span : Span}
    (found : state.frame.node? = some (.operation (.tailCall function argument) span)) :
    Corresponds Transition.Unrolls (state.perform span (.tailCall function argument))
      (other.perform span (.call state.frame.body.block.spare function argument)) := by
  -- A former tail call leaves a frame behind that returns what it receives.
  have member := List.mem_of_getElem? found
  have inside {register : Register} (named : register ∈ [function, argument]) :
      register.index < state.frame.registers.length :=
    sound.frame.inside_of_mem member named
  apply Corresponds.bind (unrolls.read_eq (inside List.mem_cons_self))
  intro callee read
  apply Corresponds.bind (Value.expectFunction_map _ span callee)
  rintro ⟨body, captures⟩ expected
  apply Corresponds.bind (unrolls.read_eq (inside (.tail _ List.mem_cons_self)))
  intro value _
  cases Value.eq_function_of_expectFunction expected
  refine .ok (.next ⟨?_, ?_, unrolls.cells⟩)
  · exact Frame.enter_unrolled value (sound.values.frame.read read).here.captures_lt
  · have returns := Frame.getElem?_unrolled found (Nat.lt_succ_self 1)
    have room : state.frame.body.block.spare.index < state.frame.unrolled.registers.length := by
      rw [Frame.length_registers_unrolled sound.frame.length]
      exact spare_lt_of_mem member
    rw [unrolls.frame]
    exact .forwards returns room unrolls.callers

theorem execute (unrolls : Unrolls state other) (sound : program.Sound state)
    (found : state.frame.node? = some node)
    (single : node.unrolled state.frame.body.block.spare = [own])
    (stays : forall source span, node ≠ .operation (.leave source) span) :
    Corresponds Transition.Unrolls (state.execute node) (other.execute own) := by
  have inside {register : Register} (named : register ∈ node.registers) :
      register.index < state.frame.registers.length :=
    sound.frame.inside_of_mem (List.mem_of_getElem? found) named
  have frame_eq := unrolls.frame
  cases node with
  | operation action span =>
      have stays : forall source, action ≠ .leave source := by
        rintro source rfl
        exact stays source span rfl
      cases action with
      | tailCall => cases single
      | beginFixpoint | derefFixpoint | endFixpoint | copy | member | literal | primitive | call
      | leave | exit =>
          cases single
          exact unrolls.perform sound found rfl stays
  | function dest block captures span =>
      cases single
      apply Corresponds.bind (by
        rw [frame_eq]
        exact Frame.readAll_unrolled fun register named => inside (.tail _ named))
      intro values _
      have stored := unrolls.store found rfl (inside List.mem_cons_self)
        (.function (state.frame.body.nested state.frame.position block) values)
      rw [Value.map_function, ← Body.nested_unrolled] at stored
      rw [frame_eq]
      exact stored
  | data dest type tag fields span =>
      cases single
      apply Corresponds.bind (unrolls.read_eq (inside (.tail _ List.mem_cons_self)))
      intro content _
      apply Corresponds.bind_same (Value.constructorNumbered_map _ span tag content)
      rintro ⟨declaration, constructor⟩ _
      apply Corresponds.bind (by
        rw [frame_eq]
        exact Frame.readAll_unrolled fun register named => inside (.tail _ (.tail _ named)))
      intro values _
      apply Corresponds.bind (Value.construct_map _ span declaration constructor tag values)
      intro value _
      exact unrolls.store found rfl (inside List.mem_cons_self) value
  | dataType dest declaration span =>
      cases single
      have stored := unrolls.store found rfl (inside List.mem_cons_self) (.dataType declaration)
      rw [Value.map_dataType] at stored
      exact stored
  | jump target span =>
      cases single
      exact unrolls.jump target
  | jumpUnless condition target span =>
      cases single
      apply Corresponds.bind (unrolls.read_eq (inside List.mem_cons_self))
      intro content _
      apply Corresponds.bind_same (Value.expectBoolean_map _ span content)
      intro holds _
      cases holds with
      | true => exact .ok (unrolls.advance found rfl)
      | false => exact unrolls.jump target
  | label label span =>
      cases single
      exact .ok (unrolls.advance found rfl)

theorem step (unrolls : Unrolls state other) (sound : program.Sound state)
    (found : state.frame.node? = some node)
    (stays : forall source span, node ≠ .operation (.leave source) span) :
    Corresponds Transition.Unrolls state.step other.step := by
  unfold State.step
  rw [found]
  rcases unrolled_eq_singleton_or state.frame.body.block.spare node with
    ⟨own, single, _⟩ | ⟨function, argument, span, rfl⟩
  · rw [unrolls.frame, Frame.node?_unrolled found single]
    exact unrolls.execute sound found single stays
  · have called := Frame.getElem?_unrolled found (Nat.succ_pos 1)
    have here : other.frame.node? =
        some (.operation (.call state.frame.body.block.spare function argument) span) := by
      rw [unrolls.frame]
      exact called
    rw [here]
    exact unrolls.tailCall sound found

end Unrolls
end Block
end StrictLambda
