import StrictLambda.Proofs.Block.Spans

/-!
# Nodes that hand on a value

A copy puts a value that was computed before into another register, and the end of a fixpoint puts
it into a cell.  Such a node has the span of a term that was built already, and that term may be a
group.  This module blanks out these spans, and with them the span of each block, which is shown
only when something is wrong with the block as a whole.
-/

namespace StrictLambda

/-- Whether the operation only hands on a value that was computed before. -/
def Operation.relays : Operation -> Bool
  | .copy _ _ => true
  | .endFixpoint _ _ => true
  | _ => false

def Span.blank : Span :=
  ⟨⟨0⟩, 0, 0⟩

mutual

/-- The block without its own span and without the spans of nodes that hand on a value. -/
def Block.fade : Block -> Block
  | .mk parameters nodes _ => .mk parameters (Block.fadeAll nodes) .blank

def Node.fade : Node -> Node
  | .operation action span => .operation action (if action.relays then .blank else span)
  | .function dest body captures span => .function dest body.fade captures span
  | .data dest type tag fields span => .data dest type tag fields span
  | .dataType dest declaration span => .dataType dest declaration span
  | .jump target span => .jump target span
  | .jumpUnless condition target span => .jumpUnless condition target span
  | .label label span => .label label span

def Block.fadeAll : List Node -> List Node
  | [] => []
  | node :: rest => node.fade :: Block.fadeAll rest

end

theorem Block.fadeAll_eq_map (nodes : List Node) : fadeAll nodes = nodes.map Node.fade := by
  induction nodes with
  | nil => rfl
  | cons node rest ih => rw [fadeAll, ih, List.map_cons]

theorem Block.nodes_fade (block : Block) : block.fade.nodes = block.nodes.map Node.fade := by
  cases block with
  | mk parameters nodes span => exact fadeAll_eq_map nodes

def Node.relays : Node -> Bool
  | .operation action _ => action.relays
  | _ => false

theorem Node.fade_operation {action : Operation} (relays : action.relays = true)
    (first second : Span) :
    Node.fade (.operation action first) = Node.fade (.operation action second) := by
  rw [fade, fade, if_pos relays, if_pos relays]

theorem Node.span_eq_of_fade {node other : Node} (alike : other.fade = node.fade)
    (plain : node.relays = false) : other.span = node.span := by
  have kept : forall node : Node, node.relays = false -> node.fade.span = node.span := by
    intro node plain
    cases node with
    | operation action span => exact if_neg (Bool.not_eq_true _ ▸ plain)
    | function | data | dataType | jump | jumpUnless | label => rfl
  have same : other.relays = node.relays := by
    have faded : forall node : Node, node.fade.relays = node.relays := by
      intro node
      cases node <;> rfl
    rw [← faded other, alike, faded]
  rw [← kept node plain, ← kept other (same.trans plain), alike]

/-!
## Blocks without any spans
-/

mutual

theorem Block.mapSpans_fade (span : Span) : (block : Block) ->
    block.fade.mapSpans (fun _ => span) = block.mapSpans (fun _ => span)
  | .mk _ nodes _ => by rw [fade, mapSpans, mapSpans, mapSpansAll_fadeAll span nodes]

theorem Block.mapSpansAll_fadeAll (span : Span) : (nodes : List Node) ->
    mapSpansAll (fun _ => span) (fadeAll nodes) = mapSpansAll (fun _ => span) nodes
  | [] => rfl
  | node :: rest => by
      rw [fadeAll, mapSpansAll, mapSpansAll, mapSpansAll_fadeAll span rest]
      cases node with
      | function dest body captures own =>
          rw [Node.fade, Node.mapSpans, Node.mapSpans, mapSpans_fade span body]
      | operation | data | dataType | jump | jumpUnless | label => rfl

end

end StrictLambda
