import StrictLambda.Proofs.Block.Relays
import StrictLambda.Proofs.Layout.Arrangement
import StrictLambda.Proofs.Layout.Spans

/-!
# Programs that differ where values are handed on

Blocks that differ in nothing but the spans of nodes that hand on a value are laid out as programs
that differ in nothing but the spans of these instructions.
-/

namespace StrictLambda

/-!
## Blocks and nodes in their order
-/

namespace Block

mutual

theorem bodies_fade : (block : Block) -> block.fade.bodies = block.bodies.map fade
  | .mk _ nodes _ => by
      rw [fade, bodies, bodies, List.map_cons, nestedBodies_fadeAll nodes, fade]

theorem nestedBodies_fadeAll : (nodes : List Node) ->
    nestedBodies (fadeAll nodes) = (nestedBodies nodes).map fade
  | [] => rfl
  | .function dest body captures span :: rest => by
      rw [fadeAll, Node.fade, nestedBodies, nestedBodies, List.map_append, bodies_fade body,
        nestedBodies_fadeAll rest]
  | .operation .. :: rest | .data .. :: rest | .dataType .. :: rest | .jump .. :: rest
  | .jumpUnless .. :: rest | .label .. :: rest => nestedBodies_fadeAll rest

end

theorem emitted_map_fade (nodes : List Node) :
    emitted (nodes.map Node.fade) = (emitted nodes).map Node.fade := by
  induction nodes with
  | nil => rfl
  | cons node rest ih =>
      have same : node.fade.isLabel = node.isLabel := by
        cases node <;> rfl
      rw [List.map_cons, emitted_cons, emitted_cons, same, ih]
      split
      · rfl
      · rw [List.map_cons]

variable {block other : Block}

theorem exists_emitted_of_fade (alike : other.fade = block.fade) {number : Nat} {body : Block}
    (found : block.bodies[number]? = some body) {index : Nat} {node : Node}
    (here : (emitted body.nodes)[index]? = some node) :
    exists otherBody otherNode, other.bodies[number]? = some otherBody ∧
      (emitted otherBody.nodes)[index]? = some otherNode ∧ otherNode.fade = node.fade := by
  have bodies : (other.bodies.map fade)[number]? = (block.bodies.map fade)[number]? := by
    rw [← bodies_fade, ← bodies_fade, alike]
  rw [List.getElem?_map, List.getElem?_map, found] at bodies
  rcases Option.map_eq_some_iff.mp bodies with ⟨otherBody, listed, alikeBodies⟩
  have nodes := congrArg (fun block => (emitted block.nodes)[index]?) alikeBodies
  rw [nodes_fade, nodes_fade, emitted_map_fade, emitted_map_fade, List.getElem?_map,
    List.getElem?_map, here] at nodes
  rcases Option.map_eq_some_iff.mp nodes with ⟨otherNode, stands, alikeNodes⟩
  exact ⟨otherBody, otherNode, listed, stands, alikeNodes⟩

end Block

/-!
## Programs
-/

def Instruction.relays : Instruction -> Bool
  | .operation action => action.relays
  | _ => false

namespace Program

/-- The programs are the same, except that instructions that hand on a value may have other
spans. -/
structure DiffersInRelays (program other : Program) : Prop where
  code : other.code = program.code
  operands : other.operands = program.operands
  declarations : other.declarations = program.declarations
  blocks : other.blocks = program.blocks
  entry : other.entry = program.entry
  entryFrameSize : other.entryFrameSize = program.entryFrameSize
  spans : other.spans.size = program.spans.size
  span : forall (index : Nat) (instruction : Instruction),
    program.code[index]? = some instruction -> instruction.relays = false ->
      other.spans[index]? = program.spans[index]?

variable {program second : Program} {tree other : Block}

theorem mapSpans_eq_of_fade (alike : other.fade = tree.fade) (accepted : ofBlock tree = .ok program)
    (acceptedOther : ofBlock other = .ok second) (span : Span) :
    second.mapSpans (fun _ => span) = program.mapSpans (fun _ => span) := by
  have blank : other.mapSpans (fun _ => span) = tree.mapSpans (fun _ => span) := by
    rw [← Block.mapSpans_fade, alike, Block.mapSpans_fade]
  have placed : ofBlock (tree.mapSpans fun _ => span) = _ := ofBlock_mapSpans id tree
  have placedOther : ofBlock (other.mapSpans fun _ => span) = _ := ofBlock_mapSpans id other
  rw [accepted] at placed
  rw [acceptedOther, blank, placed] at placedOther
  exact (Except.ok.inj placedOther).symm

theorem Translates.relays_eq {block : Block} {number index : Nat} {placement : Placement}
    {node : Node} {instruction : Instruction}
    (translates : program.Translates tree number block placement index node instruction) :
    instruction.relays = node.relays := by
  cases translates <;> rfl

theorem span_eq_of_fade (alike : other.fade = tree.fade) (accepted : ofBlock tree = .ok program)
    (acceptedOther : ofBlock other = .ok second) (blocks : second.blocks = program.blocks)
    {index : Nat} {instruction : Instruction} (found : program.code[index]? = some instruction)
    (plain : instruction.relays = false) : second.spans[index]? = program.spans[index]? := by
  have inside : index < program.spans.size := by
    rw [(ofBlock_arranges accepted).spans]
    exact (Array.getElem?_eq_some_iff.mp found).1
  have place := Array.getElem?_eq_getElem inside
  have fetched : program.fetch? ⟨index⟩ = some (instruction, program.spans[index]) := by
    unfold fetch?
    rw [found, place]
  rcases exists_translates_of_fetch? accepted fetched with
    ⟨number, block, placement, offset, node, body, listed, emits, address, own, translates⟩
  rw [translates.relays_eq] at plain
  rcases Block.exists_emitted_of_fade alike body emits with
    ⟨otherBody, otherNode, otherListed, otherEmits, alikeNodes⟩
  rcases exists_places_of_ofBlock acceptedOther otherListed with ⟨same, listedSame, places⟩
  rw [blocks] at listedSame
  cases listed.symm.trans listedSame
  rcases places.code offset otherNode otherEmits with ⟨otherInstruction, otherFetched, _⟩
  have otherPlace := (getElem?_of_fetch? otherFetched).2
  dsimp only at address otherPlace
  rw [address, Node.span_eq_of_fade alikeNodes plain, own] at otherPlace
  exact otherPlace.trans place.symm

theorem differsInRelays_of_fade (alike : other.fade = tree.fade)
    (accepted : ofBlock tree = .ok program) (acceptedOther : ofBlock other = .ok second) :
    program.DiffersInRelays second := by
  have same := mapSpans_eq_of_fade alike accepted acceptedOther .blank
  unfold mapSpans at same
  rcases Program.mk.inj same with
    ⟨code, spans, operands, declarations, blocks, entry, entryFrameSize⟩
  have sizes := congrArg Array.size spans
  rw [Array.size_map, Array.size_map] at sizes
  exact ⟨code, operands, declarations, blocks, entry, entryFrameSize, sizes,
    fun _ _ => span_eq_of_fade alike accepted acceptedOther blocks⟩

/-!
## Steps
-/

namespace DiffersInRelays

variable (differs : program.DiffersInRelays second)

include differs

theorem fetch?_cases (address : Address) :
    second.fetch? address = program.fetch? address ∨
      exists instruction span other, program.fetch? address = some (instruction, span) ∧
        second.fetch? address = some (instruction, other) ∧ instruction.relays = true := by
  unfold fetch?
  rw [differs.code]
  cases found : program.code[address.index]? with
  | none => exact .inl rfl
  | some instruction =>
      cases relays : instruction.relays with
      | false =>
          rw [differs.span _ _ found relays]
          exact .inl rfl
      | true =>
          by_cases inside : address.index < program.spans.size
          · have insideOther : address.index < second.spans.size := by
              rw [differs.spans]
              exact inside
            rw [Array.getElem?_eq_getElem inside, Array.getElem?_eq_getElem insideOther]
            exact .inr ⟨instruction, _, _, rfl, rfl, relays⟩
          · have outside := Nat.le_of_not_lt inside
            rw [Array.getElem?_eq_none outside,
              Array.getElem?_eq_none (differs.spans ▸ outside)]
            exact .inl rfl

theorem operandRegisters_eq (segment : Segment) :
    second.operandRegisters segment = program.operandRegisters segment := by
  unfold operandRegisters operands?
  rw [differs.operands]

theorem returnRegister_eq (address : Address) :
    second.returnRegister address = program.returnRegister address := by
  -- A call hands on no value that was computed before, so it is found in both programs.
  unfold returnRegister
  split
  · rfl
  · next index _ =>
      rcases differs.fetch?_cases ⟨index⟩ with same | ⟨instruction, span, other, own, its, relays⟩
      · rw [same]
      · rw [own, its]
        cases instruction with
        | operation action =>
            cases action with
            | call => cases relays
            | beginFixpoint | derefFixpoint | endFixpoint | copy | member | literal | primitive
            | tailCall | leave | exit => rfl
        | function | data | dataType | jump | jumpUnless => rfl

theorem execute_eq (span : Span) (state : State) (instruction : Instruction) :
    state.execute second span instruction = state.execute program span instruction := by
  cases instruction with
  | operation action =>
      cases action with
      | leave source =>
          unfold State.execute State.perform State.leave
          simp only [differs.returnRegister_eq]
      | beginFixpoint | derefFixpoint | endFixpoint | copy | member | literal | primitive | call
      | tailCall | exit => rfl
  | function | data =>
      unfold State.execute
      simp only [differs.operandRegisters_eq]
  | dataType =>
      unfold State.execute declaration?
      rw [differs.declarations]
  | jump | jumpUnless => rfl

end DiffersInRelays

/-- If a fixpoint is about to end in this state, its register holds a cell that was not tied. -/
def EndsFreshly (program : Program) (state : State) : Prop :=
  forall fixpoint source span,
    program.fetch? state.pc = some (.operation (.endFixpoint fixpoint source), span) ->
      exists cell, state.read fixpoint = .ok (.fixpoint cell) ∧ state.cells.content? cell = none

theorem perform_endFixpoint_eq (program : Program) {state : State}
    {fixpoint source : Register} {cell : Cell}
    (read : state.read fixpoint = .ok (.fixpoint cell))
    (empty : state.cells.content? cell = none) (span blame : Span) :
    state.perform program span (.endFixpoint fixpoint source) =
      state.perform program blame (.endFixpoint fixpoint source) := by
  -- Only tying a cell for the second time is blamed on the span.
  have ties : forall value, state.tie span cell value = state.tie blame cell value := by
    intro value
    rcases state with ⟨pc, base, peak, stack, cells⟩
    have untied : cells.content? cell = none := empty
    unfold State.tie Cells.tie
    dsimp only
    rw [untied]
    rfl
  simp only [State.perform, read, ok_bind, Value.expectCell, ties]

theorem DiffersInRelays.step_eq (differs : program.DiffersInRelays second) {state : State}
    (ends : program.EndsFreshly state) : state.step second = state.step program := by
  unfold State.step
  rcases differs.fetch?_cases state.pc with same | ⟨instruction, span, other, own, its, relays⟩
  · rw [same]
    cases program.fetch? state.pc with
    | none => rfl
    | some found => exact differs.execute_eq _ _ _
  · rw [own, its]
    dsimp only
    rw [differs.execute_eq]
    cases instruction with
    | operation action =>
        cases action with
        | copy => rfl
        | endFixpoint fixpoint source =>
            rcases ends fixpoint source span own with ⟨cell, read, empty⟩
            exact perform_endFixpoint_eq program read empty other span
        | beginFixpoint | derefFixpoint | member | literal | primitive | call | tailCall | leave
        | exit => cases relays
    | function | data | dataType | jump | jumpUnless => cases relays

/-!
## Runs
-/

/-- For as long as both programs are run, they come to the same states, the same result or the same
failure. -/
def RunsLike (program other : Program) : Prop :=
  forall limit,
    (State.start other).advance other limit = (State.start program).advance program limit ∧
      ((Machine.ofProgram other).run limit).1 = ((Machine.ofProgram program).run limit).1

theorem DiffersInRelays.advance_eq (differs : program.DiffersInRelays second)
    (ends : forall state, program.Reachable state -> program.EndsFreshly state) (limit : Nat)
    {state : State} (reachable : program.Reachable state) :
    state.advance second limit = state.advance program limit := by
  induction limit generalizing state with
  | zero => rfl
  | succ limit ih =>
      rw [State.advance, State.advance, differs.step_eq (ends state reachable)]
      cases stepped : state.step program with
      | error failure => rfl
      | ok transition =>
          cases transition with
          | done value cells => rfl
          | next after =>
              rcases reachable with ⟨count, steps⟩
              exact ih ⟨count + 1, steps.trans (.single (process_eq_again_iff.mpr stepped))⟩

theorem DiffersInRelays.runsLike (differs : program.DiffersInRelays second)
    (ends : forall state, program.Reachable state -> program.EndsFreshly state) :
    program.RunsLike second := by
  intro limit
  have start : State.start second = State.start program := by
    unfold State.start
    rw [differs.entry, differs.entryFrameSize]
  have same : (State.start second).advance second limit =
      (State.start program).advance program limit := by
    rw [start]
    exact differs.advance_eq ends limit ⟨0, .refl _⟩
  refine ⟨same, ?_⟩
  unfold Machine.run Machine.advance Machine.ofProgram Machine.advanceFrom
  dsimp only
  rw [same]
  cases (State.start program).advance program limit <;> rfl

end Program
end StrictLambda
