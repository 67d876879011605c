import StrictLambda.Proofs.Block.Spans
import StrictLambda.Proofs.Layout.Placement

/-!
# Laying out blocks with other spans

A block with other spans is laid out in the same way, and fails in the same way.
-/

namespace StrictLambda

variable {spans : Span -> Span} (names : Symbol -> Symbol)

def Layout.mapSpans (spans : Span -> Span) (layout : Layout) : Layout :=
  { layout with code := layout.code.map (Prod.map id spans) }

def Program.mapSpans (spans : Span -> Span) (program : Program) : Program :=
  { program with spans := program.spans.map spans }

theorem Program.mapSpans_id (program : Program) : program.mapSpans id = program := by
  simp [mapSpans]

namespace Layout

theorem mapSpans_append (first second : Layout) :
    (first.append second).mapSpans spans =
      (first.mapSpans spans).append (second.mapSpans spans) := by
  simp only [append, mapSpans, List.map_append]

theorem finish_mapSpans (frontier : Frontier) (layout : Layout) :
    (layout.mapSpans spans).finish frontier = layout.finish frontier := by
  simp only [finish, mapSpans, List.length_map]

end Layout

/-!
## Instructions
-/

namespace Node

theorem codeLength_mapSpans (node : Node) :
    (node.mapSpans spans).codeLength = node.codeLength := by
  cases node <;> rfl

theorem operands_mapSpans (node : Node) : (node.mapSpans spans).operands = node.operands := by
  cases node <;> rfl

theorem declarations_mapSpans (node : Node) :
    (node.mapSpans spans).declarations = node.declarations := by
  cases node <;> rfl

end Node

mutual

theorem Block.codeSize_mapSpans : (block : Block) ->
    (block.mapSpans spans).codeSize = block.codeSize
  | .mk _ nodes _ => nodesCodeSize_mapSpansAll nodes

theorem Block.nodesCodeSize_mapSpansAll : (nodes : List Node) ->
    nodesCodeSize (mapSpansAll spans nodes) = nodesCodeSize nodes
  | [] => rfl
  | .function dest body captures span :: rest => by
      rw [mapSpansAll, Node.mapSpans, nodesCodeSize, nodesCodeSize, codeSize_mapSpans body,
        nodesCodeSize_mapSpansAll rest]
  | .operation .. :: rest | .data .. :: rest | .dataType .. :: rest | .jump .. :: rest
  | .jumpUnless .. :: rest | .label .. :: rest =>
      congrArg (_ + ·) (nodesCodeSize_mapSpansAll rest)

end

theorem Node.bodySize_mapSpans (node : Node) :
    (node.mapSpans spans).bodySize = node.bodySize := by
  cases node with
  | function dest body captures span => exact body.codeSize_mapSpans
  | operation | data | dataType | jump | jumpUnless | label => rfl

theorem Frontier.past_mapSpans (frontier : Frontier) (node : Node) :
    frontier.past (node.mapSpans spans) = frontier.past node := by
  simp only [past, Node.bodySize_mapSpans, Node.operands_mapSpans, Node.declarations_mapSpans]

theorem Block.ownLength_mapSpans (nodes : List Node) :
    ownLength (nodes.map (Node.mapSpans spans)) = ownLength nodes := by
  induction nodes with
  | nil => rfl
  | cons node rest ih =>
      rw [List.map_cons, ownLength_cons, ownLength_cons, node.codeLength_mapSpans, ih]

theorem Block.labelAddress?_mapSpans (label : Label) (position : Nat) (nodes : List Node) :
    labelAddress? label position (nodes.map (Node.mapSpans spans)) =
      labelAddress? label position nodes := by
  induction nodes generalizing position with
  | nil => rfl
  | cons node rest ih =>
      cases node <;> simp only [List.map_cons, Node.mapSpans, labelAddress?, ih, Node.codeLength]

theorem resolveLabel_mapSpans (labels : Label -> Option Address) (blame : Span) (label : Label) :
    resolveLabel labels (spans blame) label =
      (resolveLabel labels blame label).mapError (Failure.recast names spans) := by
  unfold resolveLabel
  cases labels label <;> rfl

theorem Node.place_mapSpans (labels : Label -> Option Address) (blame : Span) (frontier : Frontier)
    (node : Node) :
    (node.mapSpans spans).place labels (spans blame) frontier =
      ((node.place labels blame frontier).mapError (Failure.recast names spans)).map
        (List.map (Prod.map id spans)) := by
  cases node with
  | operation | data | dataType | label => rfl
  | function dest body captures span =>
      simp only [mapSpans, Node.place, Block.parameters_mapSpans, Block.frameSize_mapSpans]
      split <;> rfl
  | jump target span | jumpUnless condition target span =>
      simp only [mapSpans, Node.place, resolveLabel_mapSpans names]
      cases resolveLabel labels blame target <;> rfl

theorem placeNodes_mapSpans (labels : Label -> Option Address) (blame : Span)
    (frontier : Frontier) (nodes : List Node) :
    placeNodes labels (spans blame) frontier (nodes.map (Node.mapSpans spans)) =
      ((placeNodes labels blame frontier nodes).mapError (Failure.recast names spans)).map
        (List.map (Prod.map id spans)) := by
  induction nodes generalizing frontier with
  | nil => rfl
  | cons node rest ih =>
      rw [List.map_cons, placeNodes, placeNodes, mapError_bind]
      refine bind_eq_map (node.place_mapSpans names labels blame frontier) fun own => ?_
      rw [Frontier.past_mapSpans, mapError_bind]
      refine bind_eq_map (ih _) fun others => ?_
      exact congrArg Except.ok List.map_append.symm

/-!
## Blocks
-/

namespace Block

theorem placeOwn_mapSpans (frontier : Frontier) (block : Block) :
    (block.mapSpans spans).placeOwn frontier =
      ((block.placeOwn frontier).mapError (Failure.recast names spans)).map
        (Layout.mapSpans spans) := by
  unfold placeOwn
  rw [isTerminated_mapSpans]
  split
  · dsimp only
    rw [mapError_bind]
    simp only [nodes_mapSpans, span_mapSpans, frameSize_mapSpans, labelAddress?_mapSpans,
      ownLength_mapSpans, List.flatMap_map,
      Node.operands_mapSpans, Node.declarations_mapSpans]
    exact bind_eq_map (placeNodes_mapSpans names _ _ _ _) fun code => rfl
  · rw [span_mapSpans]
    rfl

mutual

theorem place_mapSpans : (block : Block) -> (frontier : Frontier) ->
    (block.mapSpans spans).place frontier =
      ((block.place frontier).mapError (Failure.recast names spans)).map (Layout.mapSpans spans)
  | .mk parameters nodes span, frontier => by
      rw [mapSpans, place, place, mapError_bind]
      refine bind_eq_map (placeOwn_mapSpans names frontier (.mk parameters nodes span)) ?_
      intro own
      rw [Layout.finish_mapSpans, mapError_bind]
      refine bind_eq_map (placeNested_mapSpans nodes _) fun nested => ?_
      exact congrArg Except.ok (Layout.mapSpans_append own nested).symm

theorem placeNested_mapSpans : (nodes : List Node) -> (frontier : Frontier) ->
    placeNested frontier (mapSpansAll spans nodes) =
      ((placeNested frontier nodes).mapError (Failure.recast names spans)).map
        (Layout.mapSpans spans)
  | [], _ => rfl
  | node :: rest, frontier => by
      cases node with
      | function dest body captures span =>
          rw [mapSpansAll, Node.mapSpans, placeNested, placeNested, mapError_bind]
          refine bind_eq_map (place_mapSpans body frontier) fun first => ?_
          rw [Layout.finish_mapSpans, mapError_bind]
          refine bind_eq_map (placeNested_mapSpans rest _) fun others => ?_
          exact congrArg Except.ok (Layout.mapSpans_append first others).symm
      | operation | data | dataType | jump | jumpUnless | label =>
          exact placeNested_mapSpans rest frontier

end

end Block

/-!
## Programs
-/

theorem Program.ofBlock_mapSpans (block : Block) :
    ofBlock (block.mapSpans spans) =
      ((ofBlock block).mapError (Failure.recast names spans)).map (Program.mapSpans spans) := by
  unfold ofBlock
  rw [mapError_bind]
  refine bind_eq_map (block.place_mapSpans names .start) fun layout => ?_
  refine congrArg Except.ok ?_
  rw [Block.frameSize_mapSpans]
  simp [Layout.mapSpans, mapSpans, Function.comp_def]

end StrictLambda
