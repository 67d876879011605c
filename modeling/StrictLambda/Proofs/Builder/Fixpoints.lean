import StrictLambda.Proofs.Block.Fixpoints
import StrictLambda.Proofs.Builder.Jumps
import StrictLambda.Proofs.Builder.Registers

/-!
# Fixpoints of constructed blocks

A recursive binding begins its fixpoint in a register of its own, builds its definition behind it,
and ends the fixpoint behind that.  So whatever is constructed closes the fixpoints that it opens.
-/

namespace StrictLambda
namespace Block

open Draft

/-!
## What constructions add
-/

def Draft.HasTaken (draft : Draft) (opened : List Register) : Prop :=
  forall register, register ∈ opened -> register.index < draft.nextRegister

theorem Draft.HasTaken.mono {draft after : Draft} {opened : List Register}
    (taken : draft.HasTaken opened) (le : draft.nextRegister <= after.nextRegister) :
    after.HasTaken opened :=
  fun register inside => Nat.lt_of_lt_of_le (taken register inside) le

theorem Draft.HasTaken.fresh {draft : Draft} {opened : List Register}
    (taken : draft.HasTaken opened) {node : Node} {dest : Register}
    (writes : node.dest? = some dest) (le : draft.nextRegister <= dest.index) :
    forall register, node.dest? = some register -> register ∉ opened := by
  intro register own inside
  rw [writes] at own
  cases own
  exact Nat.not_lt.mpr le (taken dest inside)

/-- The second draft has more nodes than the first one.  They nest behind any fixpoints whose
registers have been handed out before, and in the end the same ones are open again. -/
structure Draft.Balances (draft after : Draft) : Prop where
  registers : draft.nextRegister <= after.nextRegister
  added : exists nodes, after.nodes.toList = draft.nodes.toList ++ nodes ∧
    forall opened, draft.HasTaken opened ->
      Nests opened nodes ∧ nodes.foldl Node.reopen opened = opened

namespace Draft.Balances

variable {draft middle after : Draft} {node : Node}

theorem refl (draft : Draft) : draft.Balances draft :=
  ⟨Nat.le_refl _, [], (List.append_nil _).symm, fun _ _ => ⟨trivial, rfl⟩⟩

theorem trans (first : draft.Balances middle) (second : middle.Balances after) :
    draft.Balances after := by
  refine ⟨Nat.le_trans first.registers second.registers, ?_⟩
  rcases first.added with ⟨front, same, nests⟩
  rcases second.added with ⟨rear, sameRear, nestsRear⟩
  refine ⟨front ++ rear, ?_, ?_⟩
  · rw [sameRear, same, List.append_assoc]
  · intro opened taken
    rcases nests opened taken with ⟨inFront, closes⟩
    rcases nestsRear opened (taken.mono first.registers) with ⟨inRear, closesRear⟩
    refine ⟨inFront.append ?_, ?_⟩
    · rw [closes]
      exact inRear
    · rw [List.foldl_append, closes, closesRear]

theorem define (balances : draft.Balances after) (binding : Binding) (place : Local) :
    draft.Balances (after.define binding place) :=
  ⟨balances.registers, balances.added⟩

theorem produce (steady : node.Steady) (plain : node.target? = none)
    (writes : node.dest? = some draft.next) : draft.Balances (draft.produce node) := by
  refine ⟨Nat.le_succ _, [node], nodes_produce draft node, ?_⟩
  intro opened taken
  exact ⟨.steady steady plain (taken.fresh writes (Nat.le_refl _)) trivial, steady opened⟩

theorem emit (steady : node.Steady) (plain : node.target? = none) (silent : node.dest? = none) :
    draft.Balances (draft.emit node) := by
  refine ⟨Nat.le_refl _, [node], nodes_emit draft node, ?_⟩
  intro opened _
  exact ⟨.steady steady plain (Node.fresh_of_dest?_eq_none silent) trivial, steady opened⟩

theorem cond {tested first second : Draft} {test left right : Register}
    {span leftSpan rightSpan : Span} (tests : draft.Balances tested)
    (holds : (tested.forkValue test span).Balances first)
    (fails : (first.switchValue tested left leftSpan span).Balances second) :
    draft.Balances (second.joinValue tested right rightSpan span) := by
  apply tests.trans
  have early : tested.nextRegister <= first.nextRegister :=
    Nat.le_trans (Nat.le_succ _) holds.registers
  refine ⟨Nat.le_trans early fails.registers, ?_⟩
  rcases holds.added with ⟨consequent, same, nestsHolds⟩
  rcases fails.added with ⟨alternative, sameSecond, nestsFails⟩
  let copies (source : Register) (span : Span) : Node := .operation (.copy tested.next source) span
  let leaves : List Node := [copies left leftSpan, .jump tested.secondLabel span]
  let otherwise : List Node := .label tested.label span :: (alternative ++ [copies right rightSpan])
  let joins : Node := .label tested.secondLabel span
  refine ⟨.jumpUnless test tested.label span :: (consequent ++ leaves ++ (otherwise ++ [joins])),
    ?_, ?_⟩
  · rw [nodes_joinValue, sameSecond, nodes_switchValue, same, nodes_forkValue]
    simp [leaves, otherwise, joins, copies]
  intro opened taken
  rcases nestsHolds opened (taken.mono (Nat.le_succ _)) with ⟨inHolds, closesHolds⟩
  rcases nestsFails opened (taken.mono early) with ⟨inFails, closesFails⟩
  have labelled : forall {label nodes}, Nests opened nodes ->
      Nests opened (.label label span :: nodes) :=
    .steady (fun _ => rfl) rfl (Node.fresh_of_dest?_eq_none rfl)
  have copied : forall {source span nodes}, Nests opened nodes ->
      Nests opened (copies source span :: nodes) :=
    .steady (fun _ => rfl) rfl (taken.fresh rfl (Nat.le_refl _))
  have closesOtherwise : otherwise.foldl Node.reopen opened = opened := by
    simpa [otherwise, copies, Node.reopen] using closesFails
  have closesFirst : (consequent ++ leaves).foldl Node.reopen opened = opened := by
    simpa [leaves, copies, Node.reopen] using closesHolds
  have inOtherwise : Nests opened (otherwise ++ [joins]) := by
    have inAlternative : Nests opened (alternative ++ [copies right rightSpan] ++ [joins]) := by
      rw [List.append_assoc]
      apply inFails.append
      rw [closesFails]
      exact copied (labelled trivial)
    exact labelled inAlternative
  have inLeaves : Nests opened (.jump tested.secondLabel span :: (otherwise ++ [joins])) :=
    .jump rfl rfl closesOtherwise inOtherwise
  have inFirst : Nests opened (consequent ++ leaves ++ (otherwise ++ [joins])) := by
    rw [List.append_assoc]
    apply inHolds.append
    rw [closesHolds]
    exact copied inLeaves
  refine ⟨.jump rfl rfl closesFirst inFirst, ?_⟩
  rw [List.foldl_cons, List.foldl_append]
  simp [Node.reopen, closesFirst, closesOtherwise, joins]

theorem tailCond {tested first second : Draft} {test : Register} {span : Span}
    (tests : draft.Balances tested) (holds : (tested.forkTail test span).Balances first)
    (fails : (first.switchTail tested span).Balances second) : draft.Balances second := by
  apply tests.trans
  have early : tested.nextRegister <= first.nextRegister := holds.registers
  refine ⟨Nat.le_trans early fails.registers, ?_⟩
  rcases holds.added with ⟨consequent, same, nestsHolds⟩
  rcases fails.added with ⟨alternative, sameSecond, nestsFails⟩
  refine ⟨.jumpUnless test tested.label span ::
    (consequent ++ .label tested.label span :: alternative), ?_, ?_⟩
  · rw [sameSecond, nodes_switchTail, same, nodes_forkTail]
    simp
  intro opened taken
  rcases nestsHolds opened taken with ⟨inHolds, closesHolds⟩
  rcases nestsFails opened (taken.mono early) with ⟨inFails, closesFails⟩
  have inBranches : Nests opened (consequent ++ .label tested.label span :: alternative) := by
    apply inHolds.append
    rw [closesHolds]
    exact .steady (fun _ => rfl) rfl (Node.fresh_of_dest?_eq_none rfl) inFails
  refine ⟨.jump rfl rfl closesHolds inBranches, ?_⟩
  simp [Node.reopen, closesHolds, closesFails]

theorem fixpoint {span : Span} {binding : Binding} {place : Local}
    (inside : ((draft.produce (.operation (.beginFixpoint draft.next) span)).define binding
      place).Balances after) (value : Register) (endSpan : Span) :
    draft.Balances (after.emit (.operation (.endFixpoint draft.next value) endSpan)) := by
  refine ⟨Nat.le_trans (Nat.le_succ _) inside.registers, ?_⟩
  rcases inside.added with ⟨nodes, same, nests⟩
  let ends : Node := .operation (.endFixpoint draft.next value) endSpan
  refine ⟨.operation (.beginFixpoint draft.next) span :: nodes ++ [ends], ?_, ?_⟩
  · rw [nodes_emit, same, nodes_define, nodes_produce]
    simp [ends]
  intro opened taken
  have takenMore : draft.reserve.HasTaken (draft.next :: opened) :=
    List.forall_mem_cons.mpr ⟨Nat.lt_succ_self _, taken.mono (Nat.le_succ _)⟩
  rcases nests (draft.next :: opened) takenMore with ⟨inNodes, closes⟩
  have begins : Node.Respects opened (.operation (.beginFixpoint draft.next) span) :=
    ⟨taken.fresh rfl (Nat.le_refl _), fun _ _ _ same => nomatch same⟩
  have ended : Nests (draft.next :: opened) [ends] := by
    refine .cons ⟨Node.fresh_of_dest?_eq_none rfl, ?_⟩ rfl trivial
    intro fixpoint source span same
    cases (Node.operation.inj same).1
    rfl
  constructor
  · apply Nests.cons begins rfl
    apply inNodes.append
    exact closes.symm ▸ ended
  · simp [Node.reopen, closes, ends]

end Draft.Balances

theorem steady_of_combines {term : Term} {operands : List Term} {dest : Register}
    {registers : List Register} {node : Node}
    (combines : Combines term operands dest registers node) : node.Steady := by
  cases combines <;> exact fun _ => rfl

theorem steady_readNode (span : Span) (dest : Register) (place : Local) :
    (readNode span dest place).Steady := by
  unfold readNode
  split <;> exact fun _ => rfl

theorem balances_leave (draft : Draft) (site : Site) (register : Register) (span : Span) :
    draft.Balances (draft.emit (.operation (site.leave register) span)) := by
  cases site <;> exact .emit (fun _ => rfl) rfl rfl

theorem balances_of_builds {construction : Construction} {draft after : Draft}
    (builds : Builds construction draft after) : draft.Balances after := by
  induction builds with
  | none => exact .refl _
  | more _ _ first others => exact first.trans others
  | var =>
      rcases registers_readNode _ _ _ with ⟨writes, _, plain⟩
      exact .produce (steady_readNode _ _ _) plain writes
  | abs => exact .produce (fun _ => rfl) rfl rfl
  | combine combines _ built =>
      rcases registers_of_combines combines with ⟨writes, _, plain⟩
      exact built.trans (.produce (steady_of_combines combines) plain writes)
  | letIn _ _ bound built | tailLetIn _ _ bound built => exact bound.trans built
  | group _ built | tailGroup _ built => exact built
  | cond _ _ _ tests holds fails => exact .cond tests holds fails
  | bindPlain _ _ built => exact built.define _ _
  | bindRecursive _ _ built => exact (Balances.fixpoint built _ _).define _ _
  | leave _ _ built => exact built.trans (balances_leave _ _ _ _)
  | tailCall _ built => exact built.trans (.emit (fun _ => rfl) rfl rfl)
  | tailCond _ _ _ tests holds fails => exact .tailCond tests holds fails

/-!
## Blocks
-/

theorem ComesFrom.nestsFixpoints {block : Block} {term : Term} (comes : block.ComesFrom term) :
    block.NestsFixpoints := by
  rcases comes with ⟨site, own, locals, inner, made, _⟩
  rcases (balances_of_builds made.builds).added with ⟨nodes, same, nests⟩
  rw [nodes_start, List.nil_append, ← made.nodes] at same
  subst same
  have inside := (nests [] (List.forall_mem_nil _)).1
  constructor
  · intro position node found
    exact (inside.at_position found).1
  · intro position node target goal found jumps stands
    rcases (inside.at_position found).2 target jumps with ⟨own, span, here, sameOpen⟩
    have once := occurrences_le_one made.builds target
    rw [← made.nodes] at once
    cases (labelPosition?_eq_of_le_one once here).symm.trans stands
    exact sameOpen

end Block
end StrictLambda
