import StrictLambda.Proofs.Layout.Acceptance
import StrictLambda.Proofs.Layout.Bodies

/-!
# Trees without tail calls

A tail call can be written as a call whose result is returned at once.  The result waits in a spare
register, behind all those that the block has.  This module says what else changes in a tree that is
rewritten in this way: positions, as two nodes stand for one, and the sizes of frames.
-/

namespace StrictLambda

def Operation.unrolled (spare : Register) (span : Span) : Operation -> List Node
  | .tailCall function argument =>
      [.operation (.call spare function argument) span, .operation (.leave spare) span]
  | action => [.operation action span]

mutual

/-- The tree with a call and a return in the place of every tail call, in nested blocks too. -/
def Block.unrolled : Block -> Block
  | .mk parameters nodes span =>
      .mk parameters (Block.unrolledNodes ⟨(Block.mk parameters nodes span).frameSize⟩ nodes) span

def Node.unrolled (spare : Register) : Node -> List Node
  | .operation action span => action.unrolled spare span
  | .function dest body captures span => [.function dest body.unrolled captures span]
  | .data dest type tag fields span => [.data dest type tag fields span]
  | .dataType dest declaration span => [.dataType dest declaration span]
  | .jump target span => [.jump target span]
  | .jumpUnless condition target span => [.jumpUnless condition target span]
  | .label label span => [.label label span]

def Block.unrolledNodes (spare : Register) : List Node -> List Node
  | [] => []
  | node :: rest => node.unrolled spare ++ Block.unrolledNodes spare rest

end

namespace Block

/-- A tree whose outermost block ends with a tail call of a function that calls another one in the
same way. -/
def relayTree : Block :=
  let span : Span := ⟨⟨0⟩, 0, 0⟩
  let identity : Block := .mk 1 [.operation (.leave ⟨0⟩) span] span
  let relay : Block := .mk 2 [.operation (.tailCall ⟨1⟩ ⟨0⟩) span] span
  .mk 0
    [.function ⟨0⟩ identity [] span, .function ⟨1⟩ relay [⟨0⟩] span,
      .operation (.literal ⟨2⟩ (.boolean true)) span, .operation (.tailCall ⟨1⟩ ⟨2⟩) span]
    span

def spare (block : Block) : Register :=
  ⟨block.frameSize⟩

variable {spare : Register}

@[simp] theorem parameters_unrolled (block : Block) :
    block.unrolled.parameters = block.parameters := by
  cases block
  rw [unrolled]
  rfl

@[simp] theorem span_unrolled (block : Block) : block.unrolled.span = block.span := by
  cases block
  rw [unrolled]
  rfl

@[simp] theorem nodes_unrolled (block : Block) :
    block.unrolled.nodes = unrolledNodes block.spare block.nodes := by
  cases block
  rw [unrolled]
  rfl

@[simp] theorem unrolledNodes_nil : unrolledNodes spare [] = [] := by
  rw [unrolledNodes]

@[simp] theorem unrolledNodes_cons (node : Node) (rest : List Node) :
    unrolledNodes spare (node :: rest) = node.unrolled spare ++ unrolledNodes spare rest := by
  rw [unrolledNodes]

theorem unrolledNodes_eq_flatMap (nodes : List Node) :
    unrolledNodes spare nodes = nodes.flatMap (Node.unrolled spare) := by
  induction nodes with
  | nil => simp
  | cons node rest ih => simp [ih]

@[simp] theorem unrolledNodes_append (spare : Register) (first second : List Node) :
    unrolledNodes spare (first ++ second) =
      unrolledNodes spare first ++ unrolledNodes spare second := by
  simp [unrolledNodes_eq_flatMap]

theorem mem_unrolledNodes_iff {nodes : List Node} {node : Node} :
    node ∈ unrolledNodes spare nodes ↔ exists own, own ∈ nodes ∧ node ∈ own.unrolled spare := by
  rw [unrolledNodes_eq_flatMap, List.mem_flatMap]

/-!
## Positions
-/

def unrolledPosition (spare : Register) (nodes : List Node) (position : Nat) : Nat :=
  (unrolledNodes spare (nodes.take position)).length

theorem drop_unrolledPosition (nodes : List Node) (position : Nat) :
    (unrolledNodes spare nodes).drop (unrolledPosition spare nodes position) =
      unrolledNodes spare (nodes.drop position) := by
  have parts := unrolledNodes_append spare (nodes.take position) (nodes.drop position)
  rw [List.take_append_drop] at parts
  rw [parts, unrolledPosition, List.drop_left]

theorem getElem?_unrolledPosition (spare : Register) {nodes : List Node} {position : Nat}
    {node : Node} (found : nodes[position]? = some node) {offset : Nat}
    (inside : offset < (node.unrolled spare).length) :
    (unrolledNodes spare nodes)[unrolledPosition spare nodes position + offset]? =
      (node.unrolled spare)[offset]? := by
  rcases List.getElem?_eq_some_iff.mp found with ⟨bound, rfl⟩
  rw [← List.getElem?_drop, drop_unrolledPosition, List.drop_eq_getElem_cons bound,
    unrolledNodes_cons, List.getElem?_append_left inside]

theorem unrolledPosition_succ (spare : Register) {nodes : List Node} {position : Nat}
    {node : Node} (found : nodes[position]? = some node) :
    unrolledPosition spare nodes (position + 1) =
      unrolledPosition spare nodes position + (node.unrolled spare).length := by
  unfold unrolledPosition
  rw [List.take_add_one, found]
  simp

theorem unrolled_eq_singleton_or (spare : Register) (node : Node) :
    (exists own, node.unrolled spare = [own] ∧ own.isTerminator = node.isTerminator ∧
      own.target? = node.target? ∧ forall label, own.marks label = node.marks label) ∨
    exists function argument span,
      node = .operation (.tailCall function argument) span := by
  cases node with
  | operation action span =>
      cases action with
      | tailCall function argument => exact .inr ⟨function, argument, span, rfl⟩
      | beginFixpoint | derefFixpoint | endFixpoint | copy | member | literal | primitive | call
      | leave | exit => exact .inl ⟨_, rfl, rfl, rfl, fun _ => rfl⟩
  | function | data | dataType | jump | jumpUnless | label =>
      exact .inl ⟨_, rfl, rfl, rfl, fun _ => rfl⟩

/-!
## Labels
-/

theorem labelPosition?_append (label : Label) (first second : List Node) :
    labelPosition? label (first ++ second) =
      match labelPosition? label second with
      | some position => some (first.length + position)
      | none => labelPosition? label first := by
  induction first with
  | nil => cases found : labelPosition? label second <;> simp [labelPosition?, found]
  | cons node rest ih =>
      rw [List.cons_append, labelPosition?, ih]
      cases found : labelPosition? label second with
      | none => rw [labelPosition?]
      | some position => simp [Nat.add_right_comm]

theorem labelPosition?_unrolled (label : Label) (node : Node) (rest : List Node) :
    labelPosition? label (node.unrolled spare) =
      (if node.marks label then some 0 else none).map (unrolledPosition spare (node :: rest)) := by
  rcases unrolled_eq_singleton_or spare node with
    ⟨own, single, _, _, marks⟩ | ⟨function, argument, span, rfl⟩
  · rw [single, labelPosition?, labelPosition?, marks label]
    cases node.marks label <;> rfl
  · rfl

theorem labelPosition?_unrolledNodes (spare : Register) (label : Label) (nodes : List Node) :
    labelPosition? label (unrolledNodes spare nodes) =
      (labelPosition? label nodes).map (unrolledPosition spare nodes) := by
  induction nodes with
  | nil => rfl
  | cons node rest ih =>
      rw [unrolledNodes_cons, labelPosition?_append, ih, labelPosition?]
      cases labelPosition? label rest with
      | some position => simp [unrolledPosition]
      | none => exact labelPosition?_unrolled label node rest

/-!
## Numbers of blocks
-/

mutual

theorem blockCount_unrolled : (block : Block) -> block.unrolled.blockCount = block.blockCount
  | .mk parameters nodes span => by
      rw [unrolled, blockCount, blockCount, nestedCount_unrolledNodes _ nodes]

theorem nestedCount_unrolled (spare : Register) : (node : Node) ->
    nestedCount (node.unrolled spare) = node.blockCount
  | .function dest body captures span => by
      rw [Node.unrolled, nestedCount_cons, nestedCount_nil]
      exact blockCount_unrolled body
  | .operation action span => by
      cases action <;> simp [Node.unrolled, Operation.unrolled, Node.blockCount]
  | .data .. | .dataType .. | .jump .. | .jumpUnless .. | .label .. => by
      simp [Node.unrolled, Node.blockCount]

theorem nestedCount_unrolledNodes (spare : Register) : (nodes : List Node) ->
    nestedCount (unrolledNodes spare nodes) = nestedCount nodes
  | [] => by rw [unrolledNodes_nil]
  | node :: rest => by
      rw [unrolledNodes_cons, nestedCount_append, nestedCount_cons,
        nestedCount_unrolled spare node, nestedCount_unrolledNodes spare rest]

end

theorem nestedCount_take_unrolledPosition (nodes : List Node) (position : Nat) :
    nestedCount ((unrolledNodes spare nodes).take (unrolledPosition spare nodes position)) =
      nestedCount (nodes.take position) := by
  have parts := unrolledNodes_append spare (nodes.take position) (nodes.drop position)
  rw [List.take_append_drop] at parts
  rw [parts, unrolledPosition, List.take_left, nestedCount_unrolledNodes]

/-!
## Sizes of frames
-/

theorem exists_mem_unrolled {node : Node} {register : Register}
    (named : register ∈ node.registers) :
    exists own, own ∈ node.unrolled spare ∧ register ∈ own.registers := by
  cases node with
  | operation action span =>
      cases action with
      | tailCall function argument =>
          refine ⟨_, List.mem_cons_self, ?_⟩
          exact List.mem_cons_of_mem _ named
      | beginFixpoint | derefFixpoint | endFixpoint | copy | member | literal | primitive | call
      | leave | exit => exact ⟨_, List.mem_singleton_self _, named⟩
  | function | data | dataType | jump | jumpUnless | label =>
      exact ⟨_, List.mem_singleton_self _, named⟩

theorem frameSize_le_unrolled (block : Block) : block.frameSize <= block.unrolled.frameSize := by
  rw [frameSize_le_iff]
  constructor
  · rw [← parameters_unrolled]
    exact parameters_le_frameSize _
  · intro node member register named
    rcases exists_mem_unrolled named with ⟨own, inside, names⟩
    apply lt_frameSize_of_mem _ names
    rw [nodes_unrolled, mem_unrolledNodes_iff]
    exact ⟨node, member, inside⟩

theorem spare_lt_of_mem {block : Block} {function argument : Register} {span : Span}
    (member : .operation (.tailCall function argument) span ∈ block.nodes) :
    block.spare.index < block.unrolled.frameSize := by
  have called : Node.operation (.call block.spare function argument) span ∈
      block.unrolled.nodes := by
    rw [nodes_unrolled, mem_unrolledNodes_iff]
    exact ⟨_, member, List.mem_cons_self⟩
  exact lt_frameSize_of_mem called List.mem_cons_self

/-!
## Rewritten trees can be laid out
-/

theorem any_isTerminator_unrolled (spare : Register) (node : Node) :
    (node.unrolled spare).getLast?.any Node.isTerminator = node.isTerminator := by
  rcases unrolled_eq_singleton_or spare node with
    ⟨own, single, terminator, _, _⟩ | ⟨function, argument, span, rfl⟩
  · rw [single, ← terminator]
    rfl
  · rfl

theorem isTerminated_unrolled {block : Block} (terminated : block.isTerminated = true) :
    block.unrolled.isTerminated = true := by
  unfold isTerminated at terminated ⊢
  rw [nodes_unrolled]
  rcases List.eq_nil_or_concat' block.nodes with empty | ⟨first, last, whole⟩
  · rw [empty] at terminated
    cases terminated
  · rw [whole, List.getLast?_concat, Option.any_some] at terminated
    have ends := any_isTerminator_unrolled block.spare last
    rw [whole, unrolledNodes_append, unrolledNodes_cons, unrolledNodes_nil, List.append_nil,
      List.getLast?_append]
    cases found : (last.unrolled block.spare).getLast? with
    | none =>
        rw [found, terminated] at ends
        cases ends
    | some own =>
        rw [found, terminated] at ends
        exact ends

theorem mem_tailCall_unrolled {function argument : Register} {span : Span} {node : Node} :
    node ∈ (Node.operation (.tailCall function argument) span).unrolled spare ↔
      node = .operation (.call spare function argument) span ∨
        node = .operation (.leave spare) span :=
  List.mem_pair

theorem of_function_mem_unrolled {node : Node} {dest : Register} {body : Block}
    {captures : List Register} {span : Span}
    (member : .function dest body captures span ∈ node.unrolled spare) :
    exists own, node = .function dest own captures span ∧ body = own.unrolled := by
  cases node with
  | function ownDest own ownCaptures ownSpan =>
      cases List.mem_singleton.mp member
      exact ⟨own, rfl, rfl⟩
  | operation action ownSpan =>
      cases action with
      | tailCall => cases mem_tailCall_unrolled.mp member <;> contradiction
      | beginFixpoint | derefFixpoint | endFixpoint | copy | member | literal | primitive | call
      | leave | exit => cases List.mem_singleton.mp member
  | data | dataType | jump | jumpUnless | label => cases List.mem_singleton.mp member

theorem target?_of_mem_unrolled {node own : Node} {label : Label}
    (member : own ∈ node.unrolled spare) (jumps : own.target? = some label) :
    node.target? = some label := by
  rcases unrolled_eq_singleton_or spare node with
    ⟨only, single, _, target, _⟩ | ⟨function, argument, span, rfl⟩
  · rw [single] at member
    rw [← target, ← List.mem_singleton.mp member, jumps]
  · rcases mem_tailCall_unrolled.mp member with rfl | rfl <;> cases jumps

theorem Acceptable.unrolled {block : Block} (acceptable : Acceptable block) :
    Acceptable block.unrolled := by
  induction acceptable with
  | @mk parameters nodes span terminated targets captures _ ih =>
      have terminatedAfter := isTerminated_unrolled terminated
      rw [Block.unrolled] at terminatedAfter ⊢
      refine .mk terminatedAfter ?_ ?_ ?_
      · intro node target member jumps
        rcases mem_unrolledNodes_iff.mp member with ⟨own, inside, stands⟩
        rcases targets own target inside (target?_of_mem_unrolled stands jumps) with
          ⟨labelSpan, labelled⟩
        exact ⟨labelSpan, mem_unrolledNodes_iff.mpr ⟨_, labelled, List.mem_singleton_self _⟩⟩
      · intro dest body sources nodeSpan member
        rcases mem_unrolledNodes_iff.mp member with ⟨own, inside, stands⟩
        rcases of_function_mem_unrolled stands with ⟨before, rfl, rfl⟩
        rw [parameters_unrolled]
        exact captures dest before sources nodeSpan inside
      · intro dest body sources nodeSpan member
        rcases mem_unrolledNodes_iff.mp member with ⟨own, inside, stands⟩
        rcases of_function_mem_unrolled stands with ⟨before, rfl, rfl⟩
        exact ih dest before sources nodeSpan inside

/-!
## No tail call is left
-/

theorem nestedBodies_append (first second : List Node) :
    nestedBodies (first ++ second) = nestedBodies first ++ nestedBodies second := by
  induction first with
  | nil => rw [List.nil_append, nestedBodies, List.nil_append]
  | cons node rest ih =>
      cases node with
      | function => rw [List.cons_append, nestedBodies, nestedBodies, ih, List.append_assoc]
      | operation | data | dataType | jump | jumpUnless | label =>
          simp only [List.cons_append, nestedBodies, ih]

mutual

theorem bodies_unrolled : (block : Block) ->
    block.unrolled.bodies = block.bodies.map Block.unrolled
  | .mk parameters nodes span => by
      have inner := nestedBodies_unrolledNodes (Block.mk parameters nodes span).spare nodes
      rw [bodies_eq, nodes_unrolled, Block.nodes, inner, bodies, List.map_cons]

theorem nestedBodies_unrolled (spare : Register) : (node : Node) ->
    nestedBodies (node.unrolled spare) = (nestedBodies [node]).map Block.unrolled
  | .function dest body captures span => by
      rw [Node.unrolled, nestedBodies, nestedBodies, bodies_unrolled body]
      simp [nestedBodies]
  | .operation action span => by
      cases action <;> simp [Node.unrolled, Operation.unrolled, nestedBodies]
  | .data .. | .dataType .. | .jump .. | .jumpUnless .. | .label .. => by
      simp [Node.unrolled, nestedBodies]

theorem nestedBodies_unrolledNodes (spare : Register) : (nodes : List Node) ->
    nestedBodies (unrolledNodes spare nodes) = (nestedBodies nodes).map Block.unrolled
  | [] => by
      rw [unrolledNodes_nil, nestedBodies]
      rfl
  | node :: rest => by
      rw [unrolledNodes_cons, nestedBodies_append, nestedBodies_unrolled spare node,
        nestedBodies_unrolledNodes spare rest, ← List.map_append, ← nestedBodies_append,
        List.singleton_append]

end

theorem tailCall_not_mem_unrolled (spare : Register) (node : Node) {function argument : Register}
    {span : Span} : .operation (.tailCall function argument) span ∉ node.unrolled spare := by
  intro member
  cases node with
  | operation action own =>
      cases action with
      | tailCall => cases mem_tailCall_unrolled.mp member <;> contradiction
      | beginFixpoint | derefFixpoint | endFixpoint | copy | member | literal | primitive | call
      | leave | exit => cases List.mem_singleton.mp member
  | function | data | dataType | jump | jumpUnless | label => cases List.mem_singleton.mp member

theorem tailCall_not_mem_of_mem_bodies {tree block : Block} (member : block ∈ tree.unrolled.bodies)
    {function argument : Register} {span : Span} :
    .operation (.tailCall function argument) span ∉ block.nodes := by
  rw [bodies_unrolled] at member
  rcases List.mem_map.mp member with ⟨own, _, rfl⟩
  rw [nodes_unrolled, mem_unrolledNodes_iff]
  rintro ⟨node, _, stands⟩
  exact tailCall_not_mem_unrolled own.spare node stands

/-! ## Sizes of programs -/

theorem nodesCodeSize_append (first second : List Node) :
    nodesCodeSize (first ++ second) = nodesCodeSize first + nodesCodeSize second := by
  simp only [nodesCodeSize_eq, ownLength_append]
  simp only [nestedLength_append]
  omega

mutual

theorem codeSize_le_unrolled : (block : Block) -> block.codeSize <= block.unrolled.codeSize
  | .mk parameters nodes span => by
      rw [unrolled, codeSize, codeSize]
      exact nodesCodeSize_le_unrolledNodes _ nodes

theorem nodesCodeSize_le_unrolled (spare : Register) : (node : Node) ->
    nodesCodeSize [node] <= nodesCodeSize (node.unrolled spare)
  | .function dest body captures span => by
      have nested := codeSize_le_unrolled body
      simp only [Node.unrolled, nodesCodeSize]
      omega
  | .operation action span => by
      cases action with
      | tailCall => exact Nat.le_succ 1
      | beginFixpoint | derefFixpoint | endFixpoint | copy | member | literal | primitive | call
      | leave | exit => exact Nat.le_refl 1
  | .data .. | .dataType .. | .jump .. | .jumpUnless .. => Nat.le_refl 1
  | .label .. => Nat.le_refl 0

theorem nodesCodeSize_le_unrolledNodes (spare : Register) : (nodes : List Node) ->
    nodesCodeSize nodes <= nodesCodeSize (unrolledNodes spare nodes)
  | [] => Nat.le_refl _
  | node :: rest => by
      rw [unrolledNodes_cons, nodesCodeSize_append, ← List.singleton_append, nodesCodeSize_append]
      exact Nat.add_le_add (nodesCodeSize_le_unrolled spare node)
        (nodesCodeSize_le_unrolledNodes spare rest)

end

end Block
end StrictLambda
