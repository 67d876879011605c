import StrictLambda.Proofs.Layout.Sizes

/-!
# Where the blocks of a tree lie

A layout is a stretch of a program, and the layouts of nested blocks are stretches of their own
behind it.  From that one learns for every block of a tree what the program has at the address of
each of its nodes: the instruction made from the node, with everything in it resolved.
-/

namespace StrictLambda

/-!
## Parts of lists
-/

/-- The part stands in the whole list from the given index on. -/
def StandsAt {Item : Type} (part : List Item) (start : Nat) (whole : List Item) : Prop :=
  exists before after, whole = before ++ part ++ after ∧ before.length = start

namespace StandsAt

variable {Item : Type} {part first second middle whole : List Item} {start index : Nat}

theorem refl (whole : List Item) : StandsAt whole 0 whole :=
  ⟨[], [], by simp, rfl⟩

theorem left (stands : StandsAt (first ++ second) start whole) : StandsAt first start whole := by
  rcases stands with ⟨before, after, rfl, hlength⟩
  exact ⟨before, second ++ after, by simp, hlength⟩

theorem right (stands : StandsAt (first ++ second) start whole) :
    StandsAt second (start + first.length) whole := by
  rcases stands with ⟨before, after, rfl, hlength⟩
  exact ⟨before ++ first, after, by simp, by simp [hlength]⟩

theorem trans (inner : StandsAt part index middle) (outer : StandsAt middle start whole) :
    StandsAt part (start + index) whole := by
  rcases inner with ⟨before, after, rfl, hlength⟩
  rcases outer with ⟨front, back, rfl, hfront⟩
  exact ⟨front ++ before, after ++ back, by simp, by simp [hlength, hfront]⟩

theorem le (stands : StandsAt part start whole) : start + part.length <= whole.length := by
  rcases stands with ⟨before, after, rfl, hlength⟩
  simp only [List.length_append]
  omega

theorem getElem?_eq {item : Item} (stands : StandsAt part start whole)
    (found : part[index]? = some item) : whole[start + index]? = some item := by
  rcases stands with ⟨before, after, rfl, rfl⟩
  have inside : index < part.length := (List.getElem?_eq_some_iff.mp found).1
  rw [List.append_assoc, List.getElem?_append_right (Nat.le_add_right _ _),
    Nat.add_sub_cancel_left, List.getElem?_append_left inside]
  exact found

theorem head {item : Item} {rest : List Item} (stands : StandsAt (item :: rest) start whole) :
    whole[start]? = some item :=
  stands.getElem?_eq (List.getElem?_cons_zero)

theorem extract_eq (stands : StandsAt part start whole) :
    whole.extract start (start + part.length) = part := by
  rcases stands with ⟨before, after, rfl, rfl⟩
  simp [List.extract_eq_take_drop]

end StandsAt

theorem standsAt_flatMap {Item Other : Type} (share : Item -> List Other) {items : List Item}
    {position : Nat} {item : Item} (found : items[position]? = some item) :
    StandsAt (share item) ((items.take position).flatMap share).length (items.flatMap share) := by
  induction items generalizing position with
  | nil => cases found
  | cons head rest ih =>
      cases position with
      | zero =>
          cases found
          exact ⟨[], rest.flatMap share, by simp, rfl⟩
      | succ position =>
          rcases ih found with ⟨before, after, heq, hlength⟩
          exact ⟨share head ++ before, after, by simp [heq], by simp [hlength]⟩

/-!
## Stretches of a program
-/

/-- The layout is part of the program, with its beginning at the given places. -/
structure Layout.LiesIn (layout : Layout) (frontier : Frontier) (number : Nat)
    (program : Program) : Prop where
  code : StandsAt (layout.code.map Prod.fst) frontier.code program.code.toList
  spans : StandsAt (layout.code.map Prod.snd) frontier.code program.spans.toList
  operands : StandsAt layout.operands frontier.operands program.operands.toList
  declarations : StandsAt layout.declarations frontier.declarations program.declarations.toList
  blocks : StandsAt layout.blocks number program.blocks

namespace Layout.LiesIn

variable {layout first second : Layout} {frontier : Frontier} {number : Nat} {program : Program}

theorem left (lies : (first.append second).LiesIn frontier number program) :
    first.LiesIn frontier number program := by
  rcases lies with ⟨code, spans, operands, declarations, blocks⟩
  simp only [append, List.map_append] at code spans
  exact ⟨code.left, spans.left, operands.left, declarations.left, blocks.left⟩

theorem right (lies : (first.append second).LiesIn frontier number program) :
    second.LiesIn (first.finish frontier) (number + first.blocks.length) program := by
  rcases lies with ⟨code, spans, operands, declarations, blocks⟩
  simp only [append, List.map_append] at code spans
  have hcode := code.right
  have hspans := spans.right
  rw [List.length_map] at hcode hspans
  exact ⟨hcode, hspans, operands.right, declarations.right, blocks.right⟩

theorem fetch?_eq (lies : layout.LiesIn frontier number program) {index : Nat}
    {instruction : Instruction} {span : Span}
    (found : layout.code[index]? = some (instruction, span)) :
    program.fetch? ⟨frontier.code + index⟩ = some (instruction, span) := by
  have hinstruction : program.code[frontier.code + index]? = some instruction := by
    rw [← Array.getElem?_toList]
    exact lies.code.getElem?_eq (by simp [found])
  have hspan : program.spans[frontier.code + index]? = some span := by
    rw [← Array.getElem?_toList]
    exact lies.spans.getElem?_eq (by simp [found])
  unfold Program.fetch?
  rw [hinstruction, hspan]

end Layout.LiesIn

theorem Program.lt_size_of_fetch? {program : Program} {address : Address}
    {found : Instruction × Span} (fetched : program.fetch? address = some found) :
    address.index < program.size := by
  unfold Program.fetch? at fetched
  split at fetched
  · next stored _ => exact (Array.getElem?_eq_some_iff.mp stored).1
  · cases fetched

theorem Program.operands?_of_standsAt {program : Program} {registers : List Register}
    {start : Nat} (stands : StandsAt registers start program.operands.toList) :
    program.operands? ⟨start, registers.length⟩ = some registers := by
  unfold Program.operands?
  have inside : start + registers.length <= program.operands.size := by
    simpa using stands.le
  rw [if_pos inside, Array.toList_extract, stands.extract_eq]

theorem Program.declaration?_of_standsAt {program : Program} {declaration : Declaration}
    {start : Nat} (stands : StandsAt [declaration] start program.declarations.toList) :
    program.declaration? start = some declaration := by
  unfold Program.declaration?
  rw [← Array.getElem?_toList]
  exact stands.head

namespace Block

/-!
## The nodes of a block
-/

def pastAll (frontier : Frontier) (nodes : List Node) : Frontier :=
  nodes.foldl Frontier.past frontier

theorem pastAll_eq (frontier : Frontier) (nodes : List Node) :
    pastAll frontier nodes =
      { code := frontier.code + nestedLength nodes
        operands := frontier.operands + (nodes.flatMap Node.operands).length
        declarations := frontier.declarations + (nodes.flatMap Node.declarations).length } := by
  induction nodes generalizing frontier with
  | nil => simp [pastAll]
  | cons node rest ih =>
      rw [pastAll, List.foldl_cons, ← pastAll, ih]
      simp [Frontier.past, Nat.add_assoc]

theorem placeNodes_getElem? {labels : Label -> Option Address} {blame : Span}
    {frontier : Frontier} {nodes : List Node} {code : List (Instruction × Span)}
    (placed : placeNodes labels blame frontier nodes = .ok code) {position : Nat} {node : Node}
    (found : nodes[position]? = some node) :
    exists own, node.place labels blame (pastAll frontier (nodes.take position)) = .ok own ∧
      StandsAt own (ownLength (nodes.take position)) code := by
  induction nodes generalizing frontier code position with
  | nil => cases found
  | cons head rest ih =>
      rcases bind_eq_ok_iff.mp placed with ⟨own, hown, placed⟩
      rcases bind_eq_ok_iff.mp placed with ⟨others, hothers, last⟩
      cases last
      cases position with
      | zero =>
          cases found
          exact ⟨own, hown, [], others, rfl, rfl⟩
      | succ position =>
          rcases ih hothers found with ⟨inner, hinner, before, after, heq, hlength⟩
          refine ⟨inner, hinner, own ++ before, after, by simp [heq], ?_⟩
          simp [hlength, length_of_place_node hown]

theorem placeNested_getElem? {frontier : Frontier} {nodes : List Node} {layout : Layout}
    {number : Nat} {program : Program} (placed : placeNested frontier nodes = .ok layout)
    (lies : layout.LiesIn frontier number program) {position : Nat} {dest : Register}
    {block : Block} {captures : List Register} {span : Span}
    (found : nodes[position]? = some (.function dest block captures span)) :
    exists inner child, place inner block = .ok child ∧
      child.LiesIn inner (number + nestedCount (nodes.take position)) program ∧
      inner.code = frontier.code + nestedLength (nodes.take position) := by
  induction nodes generalizing frontier layout number position with
  | nil => cases found
  | cons head rest ih =>
      cases head with
      | function headDest headBlock headCaptures headSpan =>
          rcases placeNested_function_eq_ok_iff.mp placed with
            ⟨first, others, hfirst, hothers, rfl⟩
          cases position with
          | zero =>
              cases found
              exact ⟨frontier, first, hfirst, by simpa using lies.left, by simp⟩
          | succ position =>
              rcases ih hothers lies.right found with ⟨inner, child, hchild, hlies, hcode⟩
              have hsizes := length_of_place headBlock hfirst
              refine ⟨inner, child, hchild, ?_, ?_⟩
              · simpa [Node.blockCount, hsizes, Nat.add_assoc] using hlies
              · simpa [Layout.finish, Node.bodySize, hsizes, Nat.add_assoc] using hcode
      | operation | data | dataType | jump | jumpUnless | label =>
          cases position with
          | zero => cases found
          | succ position =>
              rcases ih placed lies found with ⟨inner, child, hchild, hlies, hcode⟩
              refine ⟨inner, child, hchild, ?_, ?_⟩
              · simpa [Node.blockCount] using hlies
              · simpa [Node.bodySize] using hcode

end Block

/-!
## Blocks in a program
-/

namespace Program

def entryOf (program : Program) (number : Nat) : Entry :=
  match program.blocks[number]? with
  | some placement => { body := placement.start, frameSize := placement.frameSize }
  | none => { body := ⟨0⟩, frameSize := 0 }

def addressOf (program : Program) (body : Block.Body) (position : Nat) : Address :=
  ⟨(program.entryOf body.number).body.index +
    Block.ownLength (body.block.nodes.take position)⟩

def Holds (program : Program) (body : Block.Body) : Prop :=
  exists frontier layout, body.block.place frontier = .ok layout ∧
    layout.LiesIn frontier body.number program

inductive Realizes (program : Program) (body : Block.Body) (position : Nat) :
    Node -> Instruction -> Prop where
  | operation {action : Operation} {span : Span} :
      Realizes program body position (.operation action span) (.operation action)
  | function {dest : Register} {block : Block} {captures : List Register} {span : Span}
      {segment : Segment} (operands : program.operands? segment = some captures)
      (fits : block.parameters = captures.length + 1)
      (holds : program.Holds (body.nested position block)) :
      Realizes program body position (.function dest block captures span)
        (.function dest (program.entryOf (body.nested position block).number) segment)
  | data {dest type : Register} {tag : Nat} {fields : List Register} {span : Span}
      {segment : Segment} (operands : program.operands? segment = some fields) :
      Realizes program body position (.data dest type tag fields span)
        (.data dest type tag segment)
  | dataType {dest : Register} {declaration : Declaration} {span : Span} {index : Nat}
      (declared : program.declaration? index = some declaration) :
      Realizes program body position (.dataType dest declaration span) (.dataType dest index)
  | jump {target : Label} {span : Span} {goal : Nat}
      (stands : Block.labelPosition? target body.block.nodes = some goal) :
      Realizes program body position (.jump target span) (.jump (program.addressOf body goal))
  | jumpUnless {condition : Register} {target : Label} {span : Span} {goal : Nat}
      (stands : Block.labelPosition? target body.block.nodes = some goal) :
      Realizes program body position (.jumpUnless condition target span)
        (.jumpUnless condition (program.addressOf body goal))

variable {program : Program} {body : Block.Body}

theorem placement_of_place {frontier : Frontier} {layout : Layout}
    (placed : body.block.place frontier = .ok layout)
    (lies : layout.LiesIn frontier body.number program) :
    program.blocks[body.number]? =
      some ⟨⟨frontier.code⟩, Block.ownLength body.block.nodes, body.block.frameSize⟩ := by
  rcases Block.place_eq_ok_iff.mp placed with ⟨own, nested, hown, _, rfl⟩
  rcases Block.placeOwn_eq_ok_iff.mp hown with ⟨_, code, _, rfl⟩
  exact lies.left.blocks.head

theorem entryOf_of_place (body : Block.Body) {frontier : Frontier} {layout : Layout}
    (placed : body.block.place frontier = .ok layout)
    (lies : layout.LiesIn frontier body.number program) :
    program.entryOf body.number = ⟨⟨frontier.code⟩, body.block.frameSize⟩ := by
  unfold entryOf
  rw [placement_of_place placed lies]

theorem Holds.isTerminated (holds : program.Holds body) : body.block.isTerminated = true := by
  rcases holds with ⟨frontier, layout, placed, _⟩
  rcases Block.place_eq_ok_iff.mp placed with ⟨own, nested, hown, _, rfl⟩
  exact (Block.placeOwn_eq_ok_iff.mp hown).1

theorem Holds.frameSize_eq (holds : program.Holds body) :
    (program.entryOf body.number).frameSize = body.block.frameSize := by
  rcases holds with ⟨frontier, layout, placed, lies⟩
  rw [entryOf_of_place body placed lies]

theorem Holds.fetch?_eq (holds : program.Holds body) {position : Nat} {node : Node}
    (found : body.block.nodes[position]? = some node) (emits : node.codeLength = 1) :
    exists instruction, program.Realizes body position node instruction ∧
      program.fetch? (program.addressOf body position) = some (instruction, node.span) := by
  rcases holds with ⟨frontier, layout, placed, lies⟩
  have hentry := entryOf_of_place body placed lies
  rcases Block.place_eq_ok_iff.mp placed with ⟨own, nested, hown, hnested, rfl⟩
  have hownLength := Block.length_of_placeOwn hown
  rcases Block.placeOwn_eq_ok_iff.mp hown with ⟨_, code, hcode, rfl⟩
  rcases Block.placeNodes_getElem? hcode found with ⟨made, hmade, hstands⟩
  rw [Block.pastAll_eq] at hmade
  -- The tables hold the share of this node behind the shares of the nodes in front of it.
  have hoperands := (standsAt_flatMap Node.operands found).trans lies.left.operands
  have hdeclarations := (standsAt_flatMap Node.declarations found).trans lies.left.declarations
  have hfetch : forall instruction, made = [(instruction, node.span)] ->
      program.fetch? (program.addressOf body position) = some (instruction, node.span) := by
    intro instruction hsingle
    rw [hsingle] at hstands
    unfold addressOf
    rw [hentry]
    exact lies.left.fetch?_eq hstands.head
  have hresolve : forall {target : Label} {address : Address},
      resolveLabel (fun label => labelAddress? label frontier.code body.block.nodes)
        body.block.span target = .ok address ->
      exists goal, Block.labelPosition? target body.block.nodes = some goal ∧
        address = program.addressOf body goal := by
    intro target address hresolved
    rcases Block.resolveLabel_eq_ok_iff.mp hresolved with ⟨goal, hgoal, rfl⟩
    refine ⟨goal, hgoal, ?_⟩
    unfold addressOf
    rw [hentry]
  cases node with
  | operation action span =>
      cases hmade
      exact ⟨_, .operation, hfetch _ rfl⟩
  | function dest block captures span =>
      simp only [Node.place] at hmade
      split at hmade
      · next fits =>
          cases hmade
          rcases Block.placeNested_getElem? hnested lies.right found with
            ⟨inner, child, hchild, hinner, hinnerCode⟩
          have hlies : child.LiesIn inner (body.nested position block).number program := hinner
          have hchildEntry := entryOf_of_place (body.nested position block) hchild hlies
          refine ⟨_, ?_, hfetch _ rfl⟩
          have hsame : (⟨⟨frontier.code + Block.ownLength body.block.nodes +
              Block.nestedLength (body.block.nodes.take position)⟩, block.frameSize⟩ : Entry) =
                program.entryOf (body.nested position block).number := by
            rw [hchildEntry, hinnerCode]
            simp only [Layout.finish, hownLength.1]
            rfl
          rw [hsame]
          exact .function (operands?_of_standsAt hoperands) fits ⟨inner, child, hchild, hlies⟩
      · cases hmade
  | data dest type tag fields span =>
      cases hmade
      exact ⟨_, .data (operands?_of_standsAt hoperands), hfetch _ rfl⟩
  | dataType dest declaration span =>
      cases hmade
      exact ⟨_, .dataType (declaration?_of_standsAt hdeclarations), hfetch _ rfl⟩
  | jump target span =>
      rcases bind_eq_ok_iff.mp hmade with ⟨address, hresolved, last⟩
      cases last
      rcases hresolve hresolved with ⟨goal, hgoal, rfl⟩
      exact ⟨_, .jump hgoal, hfetch _ rfl⟩
  | jumpUnless condition target span =>
      rcases bind_eq_ok_iff.mp hmade with ⟨address, hresolved, last⟩
      cases last
      rcases hresolve hresolved with ⟨goal, hgoal, rfl⟩
      exact ⟨_, .jumpUnless hgoal, hfetch _ rfl⟩
  | label label span => cases emits

/-! ## Programs of trees -/

theorem ofBlock_eq_ok_iff {tree : Block} :
    ofBlock tree = .ok program ↔
      exists layout, tree.place .start = .ok layout ∧
        program =
          { code := (layout.code.map Prod.fst).toArray
            spans := (layout.code.map Prod.snd).toArray
            operands := layout.operands.toArray
            declarations := layout.declarations.toArray
            blocks := layout.blocks
            entry := ⟨0⟩
            entryFrameSize := tree.frameSize } := by
  constructor
  · intro accepted
    rcases bind_eq_ok_iff.mp accepted with ⟨layout, placed, last⟩
    cases last
    exact ⟨layout, placed, rfl⟩
  · intro placed
    rcases placed with ⟨layout, placed, rfl⟩
    exact bind_eq_ok_iff.mpr ⟨layout, placed, rfl⟩

theorem liesIn_of_ofBlock {tree : Block} (accepted : ofBlock tree = .ok program) :
    exists layout, tree.place .start = .ok layout ∧ layout.LiesIn .start 0 program := by
  rcases ofBlock_eq_ok_iff.mp accepted with ⟨layout, placed, rfl⟩
  refine ⟨layout, placed, ?_⟩
  constructor <;> simpa [Frontier.start] using StandsAt.refl _

theorem holds_of_ofBlock {tree : Block} (accepted : ofBlock tree = .ok program) :
    program.Holds ⟨0, tree⟩ := by
  rcases liesIn_of_ofBlock accepted with ⟨layout, placed, lies⟩
  exact ⟨.start, layout, placed, lies⟩

theorem entryOf_zero_of_ofBlock {tree : Block} (accepted : ofBlock tree = .ok program) :
    program.entryOf 0 = ⟨program.entry, tree.frameSize⟩ ∧
      program.entryFrameSize = tree.frameSize := by
  rcases liesIn_of_ofBlock accepted with ⟨layout, placed, lies⟩
  have entry := entryOf_of_place ⟨0, tree⟩ placed lies
  rcases ofBlock_eq_ok_iff.mp accepted with ⟨_, _, rfl⟩
  exact ⟨entry, rfl⟩

end Program
end StrictLambda
