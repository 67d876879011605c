import StrictLambda.Proofs.Layout.Arrangement

/-!
# Moving layouts

Where a tree is laid out shows in its addresses and in its positions in the tables, and nowhere
else.  So the share that a nested block has in a program is the program of that block alone, moved.
-/

namespace StrictLambda

/-!
## Moving one thing
-/

def Address.shift (amount : Nat) (address : Address) : Address :=
  ⟨address.index + amount⟩

def Segment.shift (amount : Nat) (segment : Segment) : Segment :=
  { segment with start := segment.start + amount }

def Placement.shift (amount : Nat) (placement : Placement) : Placement :=
  { placement with start := placement.start.shift amount }

/-- Addresses move with the code, segments with the operands, and declarations with their own table.
Everything else stays. -/
def Instruction.shift (offset : Frontier) : Instruction -> Instruction
  | .operation action => .operation action
  | .function dest entry captures =>
      .function dest { entry with body := entry.body.shift offset.code }
        (captures.shift offset.operands)
  | .data dest type tag fields => .data dest type tag (fields.shift offset.operands)
  | .dataType dest declaration => .dataType dest (declaration + offset.declarations)
  | .jump target => .jump (target.shift offset.code)
  | .jumpUnless condition target => .jumpUnless condition (target.shift offset.code)

def Frontier.shift (frontier offset : Frontier) : Frontier where
  code := frontier.code + offset.code
  operands := frontier.operands + offset.operands
  declarations := frontier.declarations + offset.declarations

def Layout.shift (offset : Frontier) (layout : Layout) : Layout where
  code := layout.code.map (Prod.map (Instruction.shift offset) id)
  operands := layout.operands
  declarations := layout.declarations
  blocks := layout.blocks.map (Placement.shift offset.code)

theorem Frontier.shift_start (offset : Frontier) : Frontier.start.shift offset = offset := by
  simp [Frontier.shift, Frontier.start]

theorem Frontier.past_shift (offset frontier : Frontier) (node : Node) :
    (frontier.shift offset).past node = (frontier.past node).shift offset := by
  simp only [Frontier.past, Frontier.shift, Nat.add_right_comm]

namespace Layout

theorem shift_append (offset : Frontier) (first second : Layout) :
    (first.append second).shift offset = (first.shift offset).append (second.shift offset) := by
  simp only [append, shift, List.map_append]

theorem finish_shift (offset frontier : Frontier) (layout : Layout) :
    (layout.shift offset).finish (frontier.shift offset) =
      (layout.finish frontier).shift offset := by
  simp only [finish, shift, Frontier.shift, List.length_map, Nat.add_right_comm]

end Layout

/-!
## Instructions
-/

section

variable {offset frontier : Frontier} {labels moved : Label -> Option Address} {blame : Span}

theorem Block.labelAddress?_shift (label : Label) (amount start : Nat) (nodes : List Node) :
    labelAddress? label (start + amount) nodes =
      (labelAddress? label start nodes).map (Address.shift amount) := by
  rw [Block.labelAddress?_eq, Block.labelAddress?_eq, Option.map_map]
  refine Option.map_congr ?_
  intro position _
  simp only [Function.comp_apply, Address.shift, Nat.add_right_comm]

theorem resolveLabel_shift {amount : Nat}
    (same : forall label, moved label = (labels label).map (Address.shift amount))
    (target : Label) :
    resolveLabel moved blame target =
      (resolveLabel labels blame target).map (Address.shift amount) := by
  unfold resolveLabel
  rw [same]
  cases labels target <;> rfl

theorem Node.place_shift
    (same : forall label, moved label = (labels label).map (Address.shift offset.code))
    (node : Node) :
    node.place moved blame (frontier.shift offset) =
      (node.place labels blame frontier).map
        (List.map (Prod.map (Instruction.shift offset) id)) := by
  cases node with
  | operation | data | dataType | label => rfl
  | function dest body captures span =>
      simp only [Node.place]
      split <;> rfl
  | jump target span | jumpUnless condition target span =>
      exact bind_eq_map (resolveLabel_shift same target) fun address => rfl

theorem placeNodes_shift
    (same : forall label, moved label = (labels label).map (Address.shift offset.code))
    (nodes : List Node) :
    placeNodes moved blame (frontier.shift offset) nodes =
      (placeNodes labels blame frontier nodes).map
        (List.map (Prod.map (Instruction.shift offset) id)) := by
  induction nodes generalizing frontier with
  | nil => rfl
  | cons node rest ih =>
      unfold placeNodes
      refine bind_eq_map (node.place_shift same) fun own => ?_
      rw [Frontier.past_shift]
      refine bind_eq_map ih fun others => ?_
      exact congrArg Except.ok List.map_append.symm

end

/-!
## Blocks
-/

namespace Block

theorem placeOwn_shift (offset frontier : Frontier) (block : Block) :
    block.placeOwn (frontier.shift offset) =
      (block.placeOwn frontier).map (Layout.shift offset) := by
  unfold placeOwn
  split
  · have behind : forall length : Nat,
        { frontier.shift offset with code := (frontier.shift offset).code + length } =
          ({ frontier with code := frontier.code + length } : Frontier).shift offset := by
      intro length
      simp only [Frontier.shift, Nat.add_right_comm frontier.code]
    dsimp only
    rw [behind]
    exact bind_eq_map (placeNodes_shift (labelAddress?_shift · _ _ _) block.nodes) fun code => rfl
  · rfl

mutual

theorem place_shift (offset : Frontier) : (block : Block) -> (frontier : Frontier) ->
    block.place (frontier.shift offset) = (block.place frontier).map (Layout.shift offset)
  | .mk parameters nodes span, frontier => by
      rw [place, place]
      refine bind_eq_map (placeOwn_shift offset frontier _) fun own => ?_
      rw [Layout.finish_shift]
      refine bind_eq_map (placeNested_shift offset nodes _) fun nested => ?_
      exact congrArg Except.ok (Layout.shift_append offset own nested).symm

theorem placeNested_shift (offset : Frontier) : (nodes : List Node) -> (frontier : Frontier) ->
    placeNested (frontier.shift offset) nodes =
      (placeNested frontier nodes).map (Layout.shift offset)
  | [], _ => rfl
  | node :: rest, frontier => by
      cases node with
      | function dest body captures span =>
          rw [placeNested, placeNested]
          refine bind_eq_map (place_shift offset body frontier) fun first => ?_
          rw [Layout.finish_shift]
          refine bind_eq_map (placeNested_shift offset rest _) fun others => ?_
          exact congrArg Except.ok (Layout.shift_append offset first others).symm
      | operation | data | dataType | jump | jumpUnless | label =>
          exact placeNested_shift offset rest frontier

end

theorem exists_place_start {frontier : Frontier} {block : Block} {layout : Layout}
    (placed : block.place frontier = .ok layout) :
    exists own, block.place .start = .ok own ∧ layout = own.shift frontier := by
  have same := place_shift frontier block .start
  rw [Frontier.shift_start, placed] at same
  cases alone : block.place .start with
  | error failure =>
      rw [alone] at same
      cases same
  | ok own =>
      rw [alone] at same
      cases same
      exact ⟨own, rfl, rfl⟩

end Block

/-!
## Programs
-/

namespace Program

/-- A part of the program is the other program, moved.  Its blocks are listed from this number on,
and the offset says where its share of the code and of the tables begins. -/
structure Embeds (program part : Program) (number : Nat) (offset : Frontier) : Prop where
  code : StandsAt (part.code.toList.map (Instruction.shift offset)) offset.code
    program.code.toList
  spans : StandsAt part.spans.toList offset.code program.spans.toList
  operands : StandsAt part.operands.toList offset.operands program.operands.toList
  declarations : StandsAt part.declarations.toList offset.declarations
    program.declarations.toList
  blocks : StandsAt (part.blocks.map (Placement.shift offset.code)) number program.blocks

variable {program : Program} {tree block : Block} {number : Nat}

/-- Every block of a tree that can be laid out can be laid out alone.  With what is nested in it, it
then has the shape that it has in the program of the tree. -/
theorem ofBlock_is_position_independent (accepted : ofBlock tree = .ok program)
    (found : tree.bodies[number]? = some block) :
    exists part placement offset, ofBlock block = .ok part ∧
      program.blocks[number]? = some placement ∧
      part.blocks.length = block.bodies.length ∧
      offset.code = placement.start.index ∧ program.Embeds part number offset := by
  rcases holds_of_getElem? accepted found with ⟨offset, layout, placed, lies⟩
  have listed := placement_of_place placed lies
  rcases Block.exists_place_start placed with ⟨own, alone, rfl⟩
  have lowered := ofBlock_eq_ok_iff.mpr ⟨own, alone, rfl⟩
  refine ⟨_, _, offset, lowered, listed, length_blocks_of_ofBlock lowered, rfl, ?_⟩
  rcases lies with ⟨code, spans, operands, declarations, blocks⟩
  simp only [Layout.shift, List.map_map] at code spans
  constructor
  · simpa [Function.comp_def] using code
  · simpa [Function.comp_def] using spans
  · exact operands
  · exact declarations
  · exact blocks

/-- A tree of three blocks, one in the other, of which the outer two use both tables. -/
def nestedTree : Block :=
  let span (start : Nat) : Span := ⟨⟨0⟩, start, start + 1⟩
  let inner : Block :=
    .mk 2
      [.jump ⟨3⟩ (span 7), .label ⟨3⟩ (span 8), .operation (.leave ⟨1⟩) (span 9)]
      (span 6)
  let middle : Block :=
    .mk 2
      [.dataType ⟨2⟩ ⟨⟨1⟩, [⟨⟨2⟩, [⟨3⟩]⟩]⟩ (span 4), .data ⟨3⟩ ⟨2⟩ 0 [⟨1⟩] (span 5),
        .function ⟨4⟩ inner [⟨3⟩] (span 6), .operation (.leave ⟨4⟩) (span 6)]
      (span 3)
  .mk 0
    [.dataType ⟨0⟩ ⟨⟨0⟩, [⟨⟨1⟩, []⟩]⟩ (span 1), .function ⟨1⟩ middle [⟨0⟩] (span 3),
      .operation (.exit ⟨1⟩) (span 2)]
    (span 0)

theorem ofBlock_is_position_independent_in_nestedTree :
    exists program block, ofBlock nestedTree = .ok program ∧
      nestedTree.bodies[1]? = some block ∧ program.blocks[1]? = some ⟨⟨3⟩, 4, 5⟩ ∧
      exists part placement offset, ofBlock block = .ok part ∧
        program.blocks[1]? = some placement ∧
        part.blocks.length = block.bodies.length ∧
        offset.code = placement.start.index ∧ program.Embeds part 1 offset :=
  ⟨_, _, rfl, rfl, rfl,
    ofBlock_is_position_independent (rfl : ofBlock nestedTree = .ok _) rfl⟩

end Program
end StrictLambda
