import StrictLambda.Proofs.Layout.Acceptance
import StrictLambda.Proofs.Layout.Bodies
import StrictLambda.Proofs.Layout.Tables
import StrictLambda.Proofs.Layout.Tiling

/-!
# How a program is arranged

Everything there is to find in the program of a tree of blocks: where each block lies, which node
each instruction was made from, where jumps go and functions begin, and which parts of the tables
belong to an instruction.
-/

namespace StrictLambda

def Node.isLabel : Node -> Bool
  | .label _ _ => true
  | _ => false

namespace Block

/-!
## Nodes that become instructions
-/

/-- The nodes that become instructions, in their order. -/
def emitted (nodes : List Node) : List Node :=
  nodes.filter fun node => !node.isLabel

theorem codeLength_eq (node : Node) : node.codeLength = if node.isLabel then 0 else 1 := by
  cases node <;> rfl

theorem emitted_cons (node : Node) (rest : List Node) :
    emitted (node :: rest) = if node.isLabel then emitted rest else node :: emitted rest := by
  unfold emitted
  rw [List.filter_cons]
  cases node.isLabel <;> rfl

theorem length_emitted (nodes : List Node) : (emitted nodes).length = ownLength nodes := by
  induction nodes with
  | nil => rfl
  | cons node rest ih =>
      rw [emitted_cons, ownLength_cons, codeLength_eq]
      split
      · rw [ih, Nat.zero_add]
      · rw [List.length_cons, ih, Nat.add_comm]

theorem nestedCount_emitted (nodes : List Node) :
    nestedCount (emitted nodes) = nestedCount nodes := by
  induction nodes with
  | nil => rfl
  | cons node rest ih =>
      rw [emitted_cons, nestedCount_cons]
      split
      · next label =>
          have none : node.blockCount = 0 := by
            cases node <;> first | rfl | cases label
          rw [ih, none, Nat.zero_add]
      · rw [nestedCount_cons, ih]

theorem exists_position_of_emitted {nodes : List Node} {index : Nat} {node : Node}
    (found : (emitted nodes)[index]? = some node) :
    exists position, nodes[position]? = some node ∧ node.codeLength = 1 ∧
      emitted (nodes.take position) = (emitted nodes).take index := by
  induction nodes generalizing index with
  | nil => cases found
  | cons head rest ih =>
      rw [emitted_cons] at found ⊢
      cases label : head.isLabel with
      | true =>
          rw [label, if_pos rfl] at found
          rcases ih found with ⟨position, here, emits, before⟩
          refine ⟨position + 1, here, emits, ?_⟩
          rw [List.take_succ_cons, emitted_cons, label]
          exact before
      | false =>
          rw [label, if_neg Bool.false_ne_true] at found
          cases index with
          | zero =>
              cases found
              refine ⟨0, rfl, ?_, rfl⟩
              rw [codeLength_eq, label, if_neg Bool.false_ne_true]
          | succ index =>
              rcases ih found with ⟨position, here, emits, before⟩
              refine ⟨position + 1, here, emits, ?_⟩
              rw [List.take_succ_cons, emitted_cons, label, if_neg Bool.false_ne_true,
                if_neg Bool.false_ne_true, List.take_succ_cons, before]

theorem emitted_ne_nil {nodes : List Node}
    (terminated : nodes.getLast?.any Node.isTerminator = true) : emitted nodes ≠ [] := by
  cases ends : nodes.getLast? with
  | none =>
      rw [ends] at terminated
      cases terminated
  | some last =>
      rw [ends, Option.any_some] at terminated
      have plain : (!last.isLabel) = true := by
        cases last with
        | label => cases terminated
        | operation | function | data | dataType | jump | jumpUnless => rfl
      exact List.ne_nil_of_mem (List.mem_filter.mpr ⟨List.mem_of_getLast? ends, plain⟩)

/-!
## Labels
-/

/-- The address is where the block, which lies at this place, goes on behind the last occurrence of
the label.  An instruction of the block stands there. -/
def ResolvesTo (block : Block) (placement : Placement) (target : Label) (address : Address) :
    Prop :=
  exists before span after, block.nodes = before ++ .label target span :: after ∧
    (forall other, Node.label target other ∉ after) ∧ emitted after ≠ [] ∧
      address = ⟨placement.start.index + (emitted before).length⟩ ∧
        placement.contains address = true

theorem resolvesTo_of_labelPosition? {block : Block} (terminated : block.isTerminated = true)
    {placement : Placement} (length : placement.length = (emitted block.nodes).length)
    {target : Label} {goal : Nat} (stands : labelPosition? target block.nodes = some goal) :
    block.ResolvesTo placement target
      ⟨placement.start.index + ownLength (block.nodes.take goal)⟩ := by
  -- In a block that ends in a terminator, an instruction follows every label.
  rcases exists_split_of_labelPosition? stands with ⟨span, after, whole, last⟩
  have follows : emitted after ≠ [] := by
    apply emitted_ne_nil
    unfold isTerminated at terminated
    rw [whole, List.getLast?_append, List.getLast?_cons, Option.some_or, Option.any_some]
      at terminated
    cases ends : after.getLast? with
    | none =>
        rw [ends] at terminated
        cases terminated
    | some node =>
        rw [ends] at terminated
        exact terminated
  generalize block.nodes.take goal = before at whole
  have inside : ownLength before < (emitted block.nodes).length := by
    have positive := List.length_pos_iff.mpr follows
    rw [length_emitted] at positive ⊢
    rw [whole, ownLength_append, ownLength_cons]
    omega
  refine ⟨before, span, after, whole, last, follows, ?_, ?_⟩
  · rw [length_emitted]
  · rw [Placement.contains_iff, length]
    exact ⟨Nat.le_add_right _ _, Nat.add_lt_add_left inside _⟩

end Block

namespace Program

/-!
## Arrangements
-/

/-- The instruction made from a node.  The block has this number in the tree and lies at this place,
and of its nodes that become instructions this one has the given index. -/
inductive Translates (program : Program) (tree : Block) (number : Nat) (block : Block)
    (placement : Placement) (index : Nat) : Node -> Instruction -> Prop where
  | operation {action : Operation} {span : Span} :
      Translates program tree number block placement index (.operation action span)
        (.operation action)
  | function {dest : Register} {body : Block} {captures : List Register} {span : Span}
      {child : Nat} {lies : Placement} {segment : Segment}
      (counted : child =
        number + 1 + Block.nestedCount ((Block.emitted block.nodes).take index))
      (own : tree.bodies[child]? = some body) (listed : program.blocks[child]? = some lies)
      (operands : program.operands? segment = some captures) :
      Translates program tree number block placement index (.function dest body captures span)
        (.function dest ⟨lies.start, lies.frameSize⟩ segment)
  | data {dest type : Register} {tag : Nat} {fields : List Register} {span : Span}
      {segment : Segment} (operands : program.operands? segment = some fields) :
      Translates program tree number block placement index (.data dest type tag fields span)
        (.data dest type tag segment)
  | dataType {dest : Register} {declaration : Declaration} {span : Span} {entry : Nat}
      (declared : program.declaration? entry = some declaration) :
      Translates program tree number block placement index (.dataType dest declaration span)
        (.dataType dest entry)
  | jump {target : Label} {span : Span} {address : Address}
      (resolves : block.ResolvesTo placement target address) :
      Translates program tree number block placement index (.jump target span) (.jump address)
  | jumpUnless {condition : Register} {target : Label} {span : Span} {address : Address}
      (resolves : block.ResolvesTo placement target address) :
      Translates program tree number block placement index (.jumpUnless condition target span)
        (.jumpUnless condition address)

/-- The block with this number lies at this place.  Its instructions are its nodes without the
labels, in their order and with their spans. -/
structure Places (program : Program) (tree : Block) (number : Nat) (block : Block)
    (placement : Placement) : Prop where
  length : placement.length = (Block.emitted block.nodes).length
  frameSize : placement.frameSize = block.frameSize
  code : forall index node, (Block.emitted block.nodes)[index]? = some node ->
    exists instruction,
      program.fetch? ⟨placement.start.index + index⟩ = some (instruction, node.span) ∧
        program.Translates tree number block placement index node instruction

/-- The program is an arrangement of the blocks of the tree.  It begins with the outermost block,
and lists all of them with the places at which they lie.  These follow one another without gaps up
to the end of the code, so an address belongs to one block, which is the one that is found.
Functions begin where blocks do, and what instructions take from the tables covers the tables in the
order of the code. -/
structure Arranges (program : Program) (tree : Block) : Prop where
  entry : program.entry = ⟨0⟩
  entryFrameSize : program.entryFrameSize = tree.frameSize
  spans : program.spans.size = program.size
  listed : program.blocks.length = tree.bodies.length
  blocks : forall number block, tree.bodies[number]? = some block ->
    exists placement, program.blocks[number]? = some placement ∧
      program.Places tree number block placement
  tiles : Tiles 0 program.blocks ∧ Tiles.total program.blocks = program.size
  blockOf : forall address : Address, address.index < program.size ->
    exists number placement, program.blockOf? address = some placement ∧
      program.blocks[number]? = some placement ∧ placement.contains address = true ∧
        forall (other : Nat) (second : Placement), program.blocks[other]? = some second ->
          second.contains address = true -> other = number
  functions : forall address dest entry segment span,
    program.fetch? address = some (.function dest entry segment, span) ->
      exists placement, placement ∈ program.blocks ∧
        entry = ⟨placement.start, placement.frameSize⟩ ∧ entry.body.index < program.size
  operands : Consecutive 0 (program.code.toList.filterMap Instruction.operandRange?)
    program.operands.size
  declarations : Consecutive 0 (program.code.toList.filterMap Instruction.declarationRange?)
    program.declarations.size

/-!
## Blocks in their places
-/

variable {program : Program} {tree block : Block} {number : Nat}

theorem Holds.exists_listed {body : Block.Body} (holds : program.Holds body) :
    exists placement, program.blocks[body.number]? = some placement ∧
      program.entryOf body.number = ⟨placement.start, placement.frameSize⟩ ∧
        placement.length = (Block.emitted body.block.nodes).length ∧
          placement.frameSize = body.block.frameSize := by
  rcases holds with ⟨frontier, layout, placed, lies⟩
  refine ⟨_, placement_of_place placed lies, entryOf_of_place body placed lies, ?_, rfl⟩
  exact (Block.length_emitted _).symm

theorem Holds.exists_places (holds : program.Holds ⟨number, block⟩)
    (stands : (Block.Body.mk number block).StandsIn tree) :
    exists placement, program.blocks[number]? = some placement ∧
      program.Places tree number block placement := by
  rcases holds.exists_listed with ⟨placement, listed, entry, length, frameSize⟩
  refine ⟨placement, listed, length, frameSize, ?_⟩
  intro index node found
  rcases Block.exists_position_of_emitted found with ⟨position, here, emits, before⟩
  have inside := (List.getElem?_eq_some_iff.mp found).1
  have count : Block.ownLength (block.nodes.take position) = index := by
    rw [← Block.length_emitted, before, List.length_take, Nat.min_eq_left (Nat.le_of_lt inside)]
  have resolves : forall {target : Label} {goal : Nat},
      Block.labelPosition? target block.nodes = some goal ->
        block.ResolvesTo placement target (program.addressOf ⟨number, block⟩ goal) := by
    intro target goal marks
    unfold addressOf
    rw [entry]
    exact Block.resolvesTo_of_labelPosition? holds.isTerminated length marks
  rcases holds.fetch?_eq here emits with ⟨instruction, realizes, fetched⟩
  unfold addressOf at fetched
  rw [entry] at fetched
  dsimp only at fetched
  rw [count] at fetched
  refine ⟨instruction, fetched, ?_⟩
  cases realizes with
  | operation => exact .operation
  | function operands _ holdsChild =>
      rcases holdsChild.exists_listed with ⟨lies, listedChild, entryChild, _, _⟩
      rw [entryChild]
      refine .function ?_ (stands.nested here).getElem?_eq listedChild operands
      rw [← before, Block.nestedCount_emitted]
      rfl
  | data operands => exact .data operands
  | dataType declared => exact .dataType declared
  | jump marks => exact .jump (resolves marks)
  | jumpUnless marks => exact .jumpUnless (resolves marks)

theorem exists_places_of_ofBlock (accepted : ofBlock tree = .ok program)
    (found : tree.bodies[number]? = some block) :
    exists placement, program.blocks[number]? = some placement ∧
      program.Places tree number block placement :=
  (holds_of_getElem? accepted found).exists_places (Block.standsIn_of_getElem? found)

theorem length_blocks_of_ofBlock (accepted : ofBlock tree = .ok program) :
    program.blocks.length = tree.bodies.length := by
  rcases ofBlock_eq_ok_iff.mp accepted with ⟨layout, placed, rfl⟩
  rw [Block.length_bodies]
  exact (Block.length_of_place tree placed).2

theorem exists_block_of_lt (accepted : ofBlock tree = .ok program) {address : Address}
    (inside : address.index < program.size) :
    exists (number : Nat) (block : Block) (placement : Placement),
      tree.bodies[number]? = some block ∧ program.blocks[number]? = some placement ∧
        placement.contains address = true := by
  have tiles := tiles_of_ofBlock accepted
  rw [← total_of_ofBlock accepted, ← Nat.zero_add (Tiles.total _)] at inside
  rcases tiles.exists_contains (Nat.zero_le _) inside with ⟨number, placement, listed, own⟩
  have bound := (List.getElem?_eq_some_iff.mp listed).1
  rw [length_blocks_of_ofBlock accepted] at bound
  exact ⟨number, _, placement, List.getElem?_eq_getElem bound, listed, own⟩

theorem exists_translates_of_fetch? (accepted : ofBlock tree = .ok program) {address : Address}
    {instruction : Instruction} {span : Span}
    (fetched : program.fetch? address = some (instruction, span)) :
    exists (number : Nat) (block : Block) (placement : Placement) (index : Nat) (node : Node),
      tree.bodies[number]? = some block ∧ program.blocks[number]? = some placement ∧
      (Block.emitted block.nodes)[index]? = some node ∧
      placement.start.index + index = address.index ∧ node.span = span ∧
      program.Translates tree number block placement index node instruction := by
  rcases exists_block_of_lt accepted (lt_size_of_fetch? fetched) with
    ⟨number, block, placement, found, listed, own⟩
  rcases exists_places_of_ofBlock accepted found with ⟨same, listedSame, places⟩
  cases listed.symm.trans listedSame
  rw [Placement.contains_iff] at own
  rcases Nat.exists_eq_add_of_le own.1 with ⟨index, counted⟩
  have below : index < (Block.emitted block.nodes).length := by
    rw [← places.length]
    omega
  rcases places.code index _ (List.getElem?_eq_getElem below) with
    ⟨made, fetchedHere, translates⟩
  rw [← counted] at fetchedHere
  cases fetchedHere.symm.trans fetched
  exact ⟨number, block, placement, index, _, found, listed, List.getElem?_eq_getElem below,
    counted.symm, rfl, translates⟩

theorem start_lt_size_of_ofBlock (accepted : ofBlock tree = .ok program) {placement : Placement}
    (listed : program.blocks[number]? = some placement) :
    placement.start.index < program.size := by
  -- No block is empty, so each begins inside of the program.
  have bound := (List.getElem?_eq_some_iff.mp listed).1
  rw [length_blocks_of_ofBlock accepted] at bound
  have found := List.getElem?_eq_getElem bound
  rcases exists_places_of_ofBlock accepted found with ⟨same, listedSame, places⟩
  cases listed.symm.trans listedSame
  have terminated := (holds_of_getElem? accepted found).isTerminated
  have positive := List.length_pos_iff.mpr (Block.emitted_ne_nil terminated)
  have ends := (tiles_of_ofBlock accepted).end_le listed
  rw [total_of_ofBlock accepted, Nat.zero_add, places.length] at ends
  dsimp only at positive
  omega

theorem function_of_ofBlock (accepted : ofBlock tree = .ok program) {address : Address}
    {dest : Register} {entry : Entry} {segment : Segment} {span : Span}
    (fetched : program.fetch? address = some (.function dest entry segment, span)) :
    exists placement, placement ∈ program.blocks ∧
      entry = ⟨placement.start, placement.frameSize⟩ ∧ entry.body.index < program.size := by
  rcases exists_translates_of_fetch? accepted fetched with
    ⟨number, block, placement, index, node, _, _, _, _, _, translates⟩
  cases translates with
  | function _ _ listed _ =>
      exact ⟨_, List.mem_of_getElem? listed, rfl, start_lt_size_of_ofBlock accepted listed⟩

theorem ofBlock_arranges (accepted : ofBlock tree = .ok program) : program.Arranges tree := by
  have shape := ofBlock_eq_ok_iff.mp accepted
  rcases refers_of_ofBlock accepted with ⟨operands, declarations⟩
  constructor
  · rcases shape with ⟨layout, _, rfl⟩
    rfl
  · rcases shape with ⟨layout, _, rfl⟩
    rfl
  · rcases shape with ⟨layout, _, rfl⟩
    simp [size]
  · exact length_blocks_of_ofBlock accepted
  · intro number block found
    exact exists_places_of_ofBlock accepted found
  · exact ⟨tiles_of_ofBlock accepted, total_of_ofBlock accepted⟩
  · intro address inside
    rcases exists_block_of_lt accepted inside with ⟨number, block, placement, _, listed, own⟩
    have tiles := tiles_of_ofBlock accepted
    refine ⟨number, placement, tiles.find?_eq listed own, listed, own, ?_⟩
    intro other second found inside
    exact tiles.index_unique inside own found listed
  · intro address dest entry segment span fetched
    exact function_of_ofBlock accepted fetched
  · exact operands
  · exact declarations

theorem ofBlock_arranges_identityTree :
    exists program, ofBlock Block.identityTree = .ok program ∧
      program.blocks = [⟨⟨0⟩, 4, 3⟩, ⟨⟨4⟩, 3, 1⟩] ∧ program.Arranges Block.identityTree :=
  ⟨_, rfl, rfl, ofBlock_arranges rfl⟩

end Program
end StrictLambda
