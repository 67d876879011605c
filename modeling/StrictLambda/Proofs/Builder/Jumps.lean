import StrictLambda.Proofs.Builder.Bodies
import StrictLambda.Proofs.Layout.Activations

/-!
# Constructed blocks only jump forward

Jumps come from conditionals alone.  A conditional puts each of its labels behind the jump to it,
with nothing but one of its branches in between, however the branches are nested.
-/

namespace StrictLambda
namespace Block

open Draft

/-!
## What constructions add
-/

def Draft.GoesAhead (draft after : Draft) : Prop :=
  exists added, after.nodes.toList = draft.nodes.toList ++ added ∧ JumpsAhead added

namespace Draft.GoesAhead

variable {draft middle after : Draft} {node : Node}

theorem refl (draft : Draft) : draft.GoesAhead draft :=
  ⟨[], (List.append_nil _).symm, trivial⟩

theorem trans (first : draft.GoesAhead middle) (second : middle.GoesAhead after) :
    draft.GoesAhead after := by
  rcases first with ⟨front, same, ahead⟩
  rcases second with ⟨rear, sameRear, aheadRear⟩
  refine ⟨front ++ rear, ?_, ahead.append aheadRear⟩
  rw [sameRear, same, List.append_assoc]

theorem emit (plain : node.target? = none) : draft.GoesAhead (draft.emit node) :=
  ⟨[node], nodes_emit draft node, .single plain⟩

theorem produce (plain : node.target? = none) : draft.GoesAhead (draft.produce node) :=
  ⟨[node], nodes_produce draft node, .single plain⟩

theorem cond {tested first second : Draft} {test left right : Register}
    {span leftSpan rightSpan : Span} (tests : draft.GoesAhead tested)
    (holds : (tested.forkValue test span).GoesAhead first)
    (fails : (first.switchValue tested left leftSpan span).GoesAhead second) :
    draft.GoesAhead (second.joinValue tested right rightSpan span) := by
  apply tests.trans
  rcases holds with ⟨consequent, same, ahead⟩
  rcases fails with ⟨alternative, sameSecond, aheadSecond⟩
  let ends : List Node :=
    [.operation (.copy tested.next right) rightSpan, .label tested.secondLabel span]
  let second := .label tested.label span :: alternative ++ ends
  let leaves := .jump tested.secondLabel span :: second
  let first := consequent ++ .operation (.copy tested.next left) leftSpan :: leaves
  have aheadSecond : JumpsAhead second :=
    (JumpsAhead.single rfl).append
      (aheadSecond.append ((JumpsAhead.single rfl).append (.single rfl)))
  have aheadLeaves : JumpsAhead leaves := by
    refine ⟨?_, aheadSecond⟩
    intro target jumps
    cases jumps
    exact ⟨span, by simp [second, ends]⟩
  have aheadFirst : JumpsAhead first := ahead.append ((JumpsAhead.single rfl).append aheadLeaves)
  refine ⟨.jumpUnless test tested.label span :: first, ?_, ?_, aheadFirst⟩
  · rw [nodes_joinValue, sameSecond, nodes_switchValue, same, nodes_forkValue]
    simp [first, leaves, second, ends]
  · intro target jumps
    cases jumps
    exact ⟨span, by simp [first, leaves, second]⟩

theorem tailCond {tested first second : Draft} {test : Register} {span : Span}
    (tests : draft.GoesAhead tested) (holds : (tested.forkTail test span).GoesAhead first)
    (fails : (first.switchTail tested span).GoesAhead second) : draft.GoesAhead second := by
  apply tests.trans
  rcases holds with ⟨consequent, same, ahead⟩
  rcases fails with ⟨alternative, sameSecond, aheadSecond⟩
  let branches := consequent ++ .label tested.label span :: alternative
  have aheadBranches : JumpsAhead branches :=
    ahead.append ((JumpsAhead.single rfl).append aheadSecond)
  refine ⟨.jumpUnless test tested.label span :: branches, ?_, ?_, aheadBranches⟩
  · rw [sameSecond, nodes_switchTail, same, nodes_forkTail]
    simp [branches]
  · intro target jumps
    cases jumps
    exact ⟨span, by simp [branches]⟩

end Draft.GoesAhead

theorem target?_eq_none_of_combines {term : Term} {operands : List Term} {dest : Register}
    {registers : List Register} {node : Node}
    (combines : Combines term operands dest registers node) : node.target? = none := by
  cases combines <;> rfl

theorem target?_readNode (span : Span) (dest : Register) (place : Local) :
    (readNode span dest place).target? = none := by
  unfold readNode
  split <;> rfl

theorem goesAhead_of_builds {construction : Construction} {draft after : Draft}
    (builds : Builds construction draft after) : draft.GoesAhead after := by
  induction builds with
  | none => exact .refl _
  | more _ _ first others => exact first.trans others
  | var => exact .produce (target?_readNode _ _ _)
  | abs => exact .produce rfl
  | combine combines _ built => exact built.trans (.produce (target?_eq_none_of_combines combines))
  | letIn _ _ bound built | tailLetIn _ _ bound built => exact bound.trans built
  | group _ built | tailGroup _ built => exact built
  | cond _ _ _ tests holds fails => exact .cond tests holds fails
  | bindPlain _ _ built => exact built
  | @bindRecursive draft after span binding definition register _ _ built =>
      have begins : draft.GoesAhead
          (draft.produce (.operation (.beginFixpoint draft.next) span)) := .produce rfl
      have ends : after.GoesAhead
          (after.emit (.operation (.endFixpoint draft.next register) definition.span)) := .emit rfl
      exact begins.trans (GoesAhead.trans built ends)
  | leave _ _ built | tailCall _ built => exact built.trans (.emit rfl)
  | tailCond _ _ _ tests holds fails => exact .tailCond tests holds fails

/-!
## Blocks
-/

/-- Control goes through the block in one direction: every label that occurs or is jumped to occurs
once, and every jump leads to a later position. -/
structure RunsForward (block : Block) : Prop where
  once : forall label,
    (exists span, Node.label label span ∈ block.nodes) ∨
      (exists node, node ∈ block.nodes ∧ node.target? = some label) ->
    occurrences label block.nodes = 1
  ahead : forall (position : Nat) node target, block.nodes[position]? = some node ->
    node.target? = some target ->
      exists goal span, position < goal ∧ block.nodes[goal]? = some (.label target span)

variable {block : Block} {site : Site} {term : Term} {locals : Locals} {inner : Draft}

theorem Made.jumpsAhead (made : block.Made site term locals inner) : JumpsAhead block.nodes := by
  rcases goesAhead_of_builds made.builds with ⟨added, nodes, ahead⟩
  rw [made.nodes, nodes, nodes_start]
  exact ahead

theorem occurrences_pos {label : Label} {span : Span} {nodes : List Node}
    (stands : Node.label label span ∈ nodes) : 0 < occurrences label nodes :=
  List.countP_pos_iff.mpr ⟨_, stands, by simp [Node.marks]⟩

theorem Made.runsForward (made : block.Made site term locals inner) : block.RunsForward where
  once := by
    intro label known
    have stands : exists span, Node.label label span ∈ block.nodes := by
      rcases known with here | ⟨node, member, jumps⟩
      · exact here
      · rcases List.mem_iff_getElem?.mp member with ⟨position, found⟩
        rcases made.jumpsAhead.exists_goal found jumps with ⟨goal, span, _, here⟩
        exact ⟨span, List.mem_of_getElem? here⟩
    rcases stands with ⟨span, here⟩
    have most := occurrences_le_one made.builds label
    rw [← made.nodes] at most
    exact Nat.le_antisymm most (occurrences_pos here)
  ahead _ _ _ found jumps := made.jumpsAhead.exists_goal found jumps

end Block
end StrictLambda
