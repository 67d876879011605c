import StrictLambda.Proofs.Layout.Simulation

/-!
# The blocks of a tree by their numbers

The blocks of a tree can be listed in the order of their numbers, so that a number alone says which
block is meant.  The layout of a tree lists its blocks in the same order.
-/

namespace StrictLambda
namespace Block

/-!
## Lists of blocks
-/

mutual

/-- A block and everything nested in it, in the order of the numbers. -/
def bodies : Block -> List Block
  | .mk parameters nodes span => .mk parameters nodes span :: nestedBodies nodes

def nestedBodies : List Node -> List Block
  | [] => []
  | .function _ body _ _ :: rest => body.bodies ++ nestedBodies rest
  | _ :: rest => nestedBodies rest

end

theorem bodies_eq (block : Block) : block.bodies = block :: nestedBodies block.nodes := by
  cases block with
  | mk parameters nodes span => rw [bodies, Block.nodes]

mutual

theorem length_bodies : (block : Block) -> block.bodies.length = block.blockCount
  | .mk parameters nodes span => by
      rw [bodies, blockCount, List.length_cons, length_nestedBodies nodes]

theorem length_nestedBodies : (nodes : List Node) ->
    (nestedBodies nodes).length = nestedCount nodes
  | [] => by
      rw [nestedBodies, nestedCount_nil, List.length_nil]
  | node :: rest => by
      cases node with
      | function dest block captures span =>
          rw [nestedBodies, nestedCount_cons, List.length_append, length_bodies block,
            length_nestedBodies rest, Node.blockCount]
      | operation | data | dataType | jump | jumpUnless | label =>
          simp [nestedBodies, Node.blockCount, length_nestedBodies rest]

end

theorem standsAt_nestedBodies {nodes : List Node} {position : Nat} {dest : Register}
    {block : Block} {captures : List Register} {span : Span}
    (found : nodes[position]? = some (.function dest block captures span)) :
    StandsAt block.bodies (nestedCount (nodes.take position)) (nestedBodies nodes) := by
  induction nodes generalizing position with
  | nil => cases found
  | cons node rest ih =>
      cases position with
      | zero =>
          cases found
          refine ⟨[], nestedBodies rest, ?_, ?_⟩
          · rw [nestedBodies, List.nil_append]
          · rw [List.take_zero, nestedCount_nil, List.length_nil]
      | succ position =>
          rw [List.getElem?_cons_succ] at found
          rcases ih found with ⟨before, after, whole, length⟩
          rw [List.take_succ_cons, nestedCount_cons]
          cases node with
          | function headDest headBlock headCaptures headSpan =>
              refine ⟨headBlock.bodies ++ before, after, ?_, ?_⟩
              · simp [nestedBodies, whole]
              · rw [List.length_append, length_bodies, length, Node.blockCount]
          | operation | data | dataType | jump | jumpUnless | label =>
              refine ⟨before, after, ?_, ?_⟩
              · rw [nestedBodies, whole]
                all_goals exact fun _ _ _ _ same => nomatch same
              · simp [Node.blockCount, length]

/-!
## Blocks by number
-/

def Body.StandsIn (body : Body) (tree : Block) : Prop :=
  StandsAt body.block.bodies body.number tree.bodies

theorem standsIn_tree (tree : Block) : (Body.mk 0 tree).StandsIn tree :=
  StandsAt.refl _

theorem Body.StandsIn.nested {tree : Block} {body : Body} (stands : body.StandsIn tree)
    {position : Nat} {dest : Register} {block : Block} {captures : List Register} {span : Span}
    (found : body.block.nodes[position]? = some (.function dest block captures span)) :
    (body.nested position block).StandsIn tree := by
  unfold StandsIn at stands
  rw [bodies_eq] at stands
  have behind : StandsAt ([body.block] ++ nestedBodies body.block.nodes) body.number
      tree.bodies := stands
  exact (standsAt_nestedBodies found).trans behind.right

mutual

/-- What goes from a block to every block its nodes create functions from holds of the whole
tree. -/
theorem kept_of_getElem?_bodies {Kept : Body -> Prop}
    (nested : forall (body : Body) position dest block captures span, Kept body ->
      body.block.nodes[position]? = some (.function dest block captures span) ->
        Kept (body.nested position block)) :
    (block : Block) -> (number : Nat) -> Kept ⟨number, block⟩ -> {index : Nat} ->
      {inner : Block} -> block.bodies[index]? = some inner -> Kept ⟨number + index, inner⟩
  | .mk parameters nodes span, number, kept, index, inner, found => by
      rw [bodies] at found
      cases index with
      | zero =>
          cases found
          exact kept
      | succ index =>
          rw [List.getElem?_cons_succ] at found
          have inside := kept_of_getElem?_nestedBodies nested nodes _ [] rfl kept found
          rw [nestedCount_nil, Nat.add_zero, Nat.add_assoc, Nat.add_comm 1] at inside
          exact inside

theorem kept_of_getElem?_nestedBodies {Kept : Body -> Prop}
    (nested : forall (body : Body) position dest block captures span, Kept body ->
      body.block.nodes[position]? = some (.function dest block captures span) ->
        Kept (body.nested position block)) :
    (nodes : List Node) -> (body : Body) -> (before : List Node) ->
      body.block.nodes = before ++ nodes -> Kept body -> {index : Nat} -> {inner : Block} ->
        (nestedBodies nodes)[index]? = some inner ->
          Kept ⟨body.number + 1 + nestedCount before + index, inner⟩
  | [], _, _, _, _, _, _, found => by
      rw [nestedBodies] at found
      cases found
  | .function dest block captures span :: rest, body, before, whole, kept, index, inner,
      found => by
      rw [nestedBodies] at found
      -- The blocks of this node come first, those of later nodes follow.
      by_cases here : index < block.bodies.length
      · rw [List.getElem?_append_left here] at found
        have created : body.block.nodes[before.length]? =
            some (.function dest block captures span) := by
          rw [whole, List.getElem?_append_right (Nat.le_refl _), Nat.sub_self]
          rfl
        have own := nested body before.length dest block captures span kept created
        rw [Body.nested, whole, List.take_left] at own
        exact kept_of_getElem?_bodies nested block _ own found
      · rw [List.getElem?_append_right (Nat.le_of_not_lt here)] at found
        have extended : body.block.nodes =
            (before ++ [.function dest block captures span]) ++ rest := by
          rw [whole, List.append_assoc, List.singleton_append]
        have later := kept_of_getElem?_nestedBodies nested rest body _ extended kept found
        rw [nestedCount_append, nestedCount_cons, nestedCount_nil, Node.blockCount,
          ← length_bodies block] at later
        have same : body.number + 1 + (nestedCount before + (block.bodies.length + 0)) +
            (index - block.bodies.length) = body.number + 1 + nestedCount before + index := by
          omega
        rw [same] at later
        exact later
  | .operation .. :: rest, body, before, whole, kept, index, inner, found
  | .data .. :: rest, body, before, whole, kept, index, inner, found
  | .dataType .. :: rest, body, before, whole, kept, index, inner, found
  | .jump .. :: rest, body, before, whole, kept, index, inner, found
  | .jumpUnless .. :: rest, body, before, whole, kept, index, inner, found
  | .label .. :: rest, body, before, whole, kept, index, inner, found => by
      rw [nestedBodies] at found
      · have extended := whole.trans (List.append_cons before _ rest)
        have later := kept_of_getElem?_nestedBodies nested rest body _ extended kept found
        rw [nestedCount_append, nestedCount_cons, nestedCount_nil, Node.blockCount] at later
        · exact later
        · exact fun _ _ _ _ same => nomatch same
      · exact fun _ _ _ _ same => nomatch same

end

theorem standsIn_of_getElem? {tree block : Block} {number : Nat}
    (found : tree.bodies[number]? = some block) : (Body.mk number block).StandsIn tree := by
  have kept := kept_of_getElem?_bodies
    (fun body position dest inner captures span (stands : body.StandsIn tree) created =>
      stands.nested created) tree 0 (standsIn_tree tree) found
  rw [Nat.zero_add] at kept
  exact kept

def bodyAt (tree : Block) (number : Nat) : Body where
  number := number
  block := (tree.bodies[number]?).getD (.mk 0 [] ⟨⟨0⟩, 0, 0⟩)

theorem Body.StandsIn.getElem?_eq {tree : Block} {body : Body} (stands : body.StandsIn tree) :
    tree.bodies[body.number]? = some body.block := by
  unfold StandsIn at stands
  rw [bodies_eq] at stands
  exact stands.head

theorem Body.StandsIn.bodyAt_eq {tree : Block} {body : Body} (stands : body.StandsIn tree) :
    tree.bodyAt body.number = body := by
  unfold bodyAt
  rw [stands.getElem?_eq, Option.getD_some]

/-!
## Blocks of a layout
-/

mutual

theorem frameSizes_of_place : (block : Block) -> {frontier : Frontier} -> {layout : Layout} ->
    place frontier block = .ok layout ->
      layout.blocks.map Placement.frameSize = block.bodies.map frameSize
  | .mk parameters nodes span, _, _, placed => by
      rcases place_eq_ok_iff.mp placed with ⟨own, nested, hown, hnested, rfl⟩
      rcases placeOwn_eq_ok_iff.mp hown with ⟨_, code, _, rfl⟩
      rw [bodies, List.map_cons, ← frameSizes_of_placeNested nodes hnested]
      rfl

theorem frameSizes_of_placeNested : (nodes : List Node) -> {frontier : Frontier} ->
    {layout : Layout} -> placeNested frontier nodes = .ok layout ->
      layout.blocks.map Placement.frameSize = (nestedBodies nodes).map frameSize
  | [], _, _, placed => by
      cases placed
      rw [nestedBodies]
      rfl
  | node :: rest, frontier, layout, placed => by
      cases node with
      | function dest block captures span =>
          rcases placeNested_function_eq_ok_iff.mp placed with
            ⟨first, others, hfirst, hothers, rfl⟩
          rw [nestedBodies, List.map_append, ← frameSizes_of_place block hfirst,
            ← frameSizes_of_placeNested rest hothers]
          exact List.map_append
      | operation | data | dataType | jump | jumpUnless | label =>
          rw [nestedBodies]
          · exact frameSizes_of_placeNested rest placed
          · exact fun _ _ _ _ same => nomatch same

end

end Block

namespace Program

theorem holds_of_getElem? {program : Program} {tree block : Block} {number : Nat}
    (accepted : ofBlock tree = .ok program) (found : tree.bodies[number]? = some block) :
    program.Holds ⟨number, block⟩ := by
  have nested : forall (body : Block.Body) position dest inner captures span,
      program.Holds body ->
        body.block.nodes[position]? = some (.function dest inner captures span) ->
          program.Holds (body.nested position inner) := by
    intro body position dest inner captures span holds created
    rcases holds.fetch?_eq created rfl with ⟨instruction, realizes, _⟩
    cases realizes with
    | function _ _ holds => exact holds
  have kept := Block.kept_of_getElem?_bodies nested tree 0 (holds_of_ofBlock accepted) found
  rw [Nat.zero_add] at kept
  exact kept

theorem shown_bodyAt {program : Program} {tree : Block} (accepted : ofBlock tree = .ok program)
    (number : Nat) : program.shown (tree.bodyAt number) = program.entryOf number := by
  rcases liesIn_of_ofBlock accepted with ⟨layout, placed, _⟩
  have sizes := Block.frameSizes_of_place tree placed
  have same : layout.blocks = program.blocks := by
    rcases ofBlock_eq_ok_iff.mp accepted with ⟨own, placedOwn, rfl⟩
    rw [placed] at placedOwn
    cases placedOwn
    rfl
  rw [same] at sizes
  have size : (program.blocks[number]?).map Placement.frameSize =
      (tree.bodies[number]?).map Block.frameSize := by
    rw [← List.getElem?_map, sizes, List.getElem?_map]
  unfold shown entryOf Block.bodyAt
  dsimp only
  cases found : program.blocks[number]? with
  | none =>
      rw [found] at size
      cases listed : tree.bodies[number]? with
      | none => rfl
      | some block =>
          rw [listed] at size
          cases size
  | some placement =>
      rw [found] at size
      cases listed : tree.bodies[number]? with
      | none =>
          rw [listed] at size
          cases size
      | some block =>
          rw [listed] at size
          have same : placement.frameSize = block.frameSize := Option.some.inj size
          simp only [Option.getD_some, same]

end Program
end StrictLambda
