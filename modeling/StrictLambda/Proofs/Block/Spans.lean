import StrictLambda.Block.Basic
import StrictLambda.Failure

/-!
# Other spans

Spans are carried along and shown, and nothing is ever decided by them.  This module puts other
spans into blocks and failures; what follows from a block without its spans stays as it is.
-/

namespace StrictLambda

/-!
## Failures
-/

def Defect.rename (names : Symbol -> Symbol) : Defect -> Defect
  | .unboundVariable name => .unboundVariable (names name)
  | cause => cause

/-- The same failure of a program with other spans and other names of variables. -/
def Failure.recast (names : Symbol -> Symbol) (spans : Span -> Span) : Failure -> Failure
  | .defect cause span => .defect (cause.rename names) (span.map spans)
  | .fault cause span => .fault cause (spans span)

/-!
## Blocks
-/

mutual

def Block.mapSpans (spans : Span -> Span) : Block -> Block
  | .mk parameters nodes span => .mk parameters (Block.mapSpansAll spans nodes) (spans span)

def Node.mapSpans (spans : Span -> Span) : Node -> Node
  | .operation action span => .operation action (spans span)
  | .function dest body captures span =>
      .function dest (body.mapSpans spans) captures (spans span)
  | .data dest type tag fields span => .data dest type tag fields (spans span)
  | .dataType dest declaration span => .dataType dest declaration (spans span)
  | .jump target span => .jump target (spans span)
  | .jumpUnless condition target span => .jumpUnless condition target (spans span)
  | .label label span => .label label (spans span)

def Block.mapSpansAll (spans : Span -> Span) : List Node -> List Node
  | [] => []
  | node :: rest => node.mapSpans spans :: Block.mapSpansAll spans rest

end

variable (spans : Span -> Span)

theorem Block.mapSpansAll_eq_map (nodes : List Node) :
    mapSpansAll spans nodes = nodes.map (Node.mapSpans spans) := by
  induction nodes with
  | nil => rfl
  | cons node rest ih => rw [mapSpansAll, ih, List.map_cons]

namespace Node

theorem registers_mapSpans (node : Node) :
    (node.mapSpans spans).registers = node.registers := by
  cases node <;> rfl

theorem isTerminator_mapSpans (node : Node) :
    (node.mapSpans spans).isTerminator = node.isTerminator := by
  cases node <;> rfl

end Node

namespace Block

theorem nodes_mapSpans (block : Block) :
    (block.mapSpans spans).nodes = block.nodes.map (Node.mapSpans spans) := by
  cases block with
  | mk parameters nodes span => exact mapSpansAll_eq_map spans nodes

theorem parameters_mapSpans (block : Block) :
    (block.mapSpans spans).parameters = block.parameters := by
  cases block with
  | mk parameters nodes span => rfl

theorem span_mapSpans (block : Block) : (block.mapSpans spans).span = spans block.span := by
  cases block with
  | mk parameters nodes span => rfl

theorem frameSize_mapSpans (block : Block) :
    (block.mapSpans spans).frameSize = block.frameSize := by
  unfold frameSize
  rw [nodes_mapSpans, parameters_mapSpans, List.flatMap_map]
  simp only [Node.registers_mapSpans]

theorem isTerminated_mapSpans (block : Block) :
    (block.mapSpans spans).isTerminated = block.isTerminated := by
  unfold isTerminated
  rw [nodes_mapSpans, List.getLast?_map, Option.any_map]
  refine congrArg (fun ends => Option.any ends _) ?_
  funext node
  exact node.isTerminator_mapSpans spans

end Block
end StrictLambda
