import StrictLambda.Proofs.Block.Paths

/-!
# Fixpoints that are open

A fixpoint is open from the node that begins it to the node that ends it.  In a block of a term the
fixpoints lie inside of one another, as the definitions do that they were made for, and jumps lead
neither into them nor out of them.
-/

namespace StrictLambda

/-!
## Nodes
-/

namespace Node

def reopen (opened : List Register) : Node -> List Register
  | .operation (.beginFixpoint dest) _ => dest :: opened
  | .operation (.endFixpoint _ _) _ => opened.tail
  | _ => opened

/-- The node leaves the registers of open fixpoints alone, and ends none but the innermost one. -/
structure Respects (opened : List Register) (node : Node) : Prop where
  spares : forall register, node.dest? = some register -> register ∉ opened
  ends : forall fixpoint value span, node = .operation (.endFixpoint fixpoint value) span ->
    opened.head? = some fixpoint

def Steady (node : Node) : Prop :=
  forall opened, node.reopen opened = opened

variable {node : Node} {opened : List Register}

theorem steady_of_target? {target : Label} (jumps : node.target? = some target) :
    node.Steady := by
  cases node with
  | jump | jumpUnless => exact fun _ => rfl
  | operation | function | data | dataType | label => cases jumps

theorem fresh_of_dest?_eq_none (silent : node.dest? = none) :
    forall register, node.dest? = some register -> register ∉ opened := by
  intro register own
  rw [silent] at own
  cases own

theorem Steady.respects (steady : node.Steady)
    (fresh : forall register, node.dest? = some register -> register ∉ opened) :
    node.Respects opened where
  spares := fresh
  ends := by
    intro fixpoint value span same
    subst same
    cases steady [fixpoint]

end Node

namespace Block

/-!
## Lists of nodes
-/

/-- If these fixpoints are open before the nodes, every node respects those that are open where it
stands, and a jump goes to where the same ones are open. -/
def Nests (opened : List Register) : List Node -> Prop
  | [] => True
  | node :: rest =>
      node.Respects opened ∧
      (forall target, node.target? = some target -> exists before span after,
        rest = before ++ .label target span :: after ∧
          before.foldl Node.reopen opened = opened) ∧
      Nests (node.reopen opened) rest

namespace Nests

variable {opened : List Register} {first second nodes : List Node} {node : Node}

theorem append (front : Nests opened first) (rear : Nests (first.foldl Node.reopen opened) second) :
    Nests opened (first ++ second) := by
  induction first generalizing opened with
  | nil => exact rear
  | cons node rest ih =>
      rcases front with ⟨respects, jumps, others⟩
      refine ⟨respects, ?_, ih others rear⟩
      intro target aims
      rcases jumps target aims with ⟨before, span, after, whole, same⟩
      refine ⟨before, span, after ++ second, ?_, same⟩
      rw [whole]
      exact List.append_assoc before _ second

theorem cons (respects : node.Respects opened) (plain : node.target? = none)
    (rest : Nests (node.reopen opened) nodes) : Nests opened (node :: nodes) := by
  refine ⟨respects, ?_, rest⟩
  intro target jumps
  rw [plain] at jumps
  cases jumps

theorem steady (steady : node.Steady) (plain : node.target? = none)
    (fresh : forall register, node.dest? = some register -> register ∉ opened)
    (rest : Nests opened nodes) : Nests opened (node :: nodes) := by
  apply Nests.cons (steady.respects fresh) plain
  rw [steady opened]
  exact rest

theorem jump {target : Label} {span : Span} {before after : List Node}
    (jumps : node.target? = some target) (silent : node.dest? = none)
    (closes : before.foldl Node.reopen opened = opened)
    (rest : Nests opened (before ++ .label target span :: after)) :
    Nests opened (node :: (before ++ .label target span :: after)) := by
  have steady := Node.steady_of_target? jumps
  refine ⟨steady.respects (Node.fresh_of_dest?_eq_none silent), ?_, ?_⟩
  · intro goal aims
    cases jumps.symm.trans aims
    exact ⟨before, span, after, rfl, closes⟩
  · rw [steady opened]
    exact rest

theorem at_position (nests : Nests opened nodes) {position : Nat}
    (found : nodes[position]? = some node) :
    node.Respects ((nodes.take position).foldl Node.reopen opened) ∧
      forall target, node.target? = some target ->
        exists (goal : Nat) (span : Span), nodes[goal]? = some (.label target span) ∧
          (nodes.take goal).foldl Node.reopen opened =
            (nodes.take position).foldl Node.reopen opened := by
  induction nodes generalizing opened position with
  | nil => cases found
  | cons head rest ih =>
      rcases nests with ⟨respects, jumps, others⟩
      cases position with
      | zero =>
          cases found
          refine ⟨respects, ?_⟩
          intro target aims
          rcases jumps target aims with ⟨before, span, after, whole, same⟩
          refine ⟨before.length + 1, span, ?_, ?_⟩
          · rw [List.getElem?_cons_succ, whole, List.getElem?_append_right (Nat.le_refl _),
              Nat.sub_self]
            rfl
          · rw [List.take_succ_cons, whole, List.take_left, List.foldl_cons,
              Node.steady_of_target? aims opened]
            exact same
      | succ position =>
          rcases ih others found with ⟨respectsHere, jumpsHere⟩
          refine ⟨respectsHere, ?_⟩
          intro target aims
          rcases jumpsHere target aims with ⟨goal, span, stands, same⟩
          exact ⟨goal + 1, span, stands, same⟩

end Nests

/-!
## Blocks
-/

def openAt (nodes : List Node) (position : Nat) : List Register :=
  (nodes.take position).foldl Node.reopen []

theorem openAt_succ {nodes : List Node} {position : Nat} {node : Node}
    (found : nodes[position]? = some node) :
    openAt nodes (position + 1) = node.reopen (openAt nodes position) := by
  unfold openAt
  rw [List.take_add_one, found, Option.toList_some, List.foldl_append, List.foldl_cons,
    List.foldl_nil]

structure NestsFixpoints (block : Block) : Prop where
  respects : forall (position : Nat) (node : Node), block.nodes[position]? = some node ->
    node.Respects (openAt block.nodes position)
  jumps : forall (position : Nat) (node : Node) (target : Label) (goal : Nat),
    block.nodes[position]? = some node -> node.target? = some target ->
      labelPosition? target block.nodes = some goal ->
        openAt block.nodes goal = openAt block.nodes position

end Block
end StrictLambda
