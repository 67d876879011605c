import StrictLambda.Proofs.Block.Interpreter
import StrictLambda.Proofs.Builder.Construction
import StrictLambda.Proofs.Layout.Sizes
import StrictLambda.Proofs.Term.Scope

/-!
# The shape of constructed blocks

A construction only ever adds nodes at the end, and takes registers and labels that nobody else has.
It adds one nested block for every abstraction, in the order in which the abstractions begin.
-/

namespace StrictLambda
namespace Block

/-!
## Growing drafts
-/

structure Draft.Grows (draft after : Draft) : Prop where
  nodes : draft.nodes.toList <+: after.nodes.toList
  registers : draft.nextRegister <= after.nextRegister
  labels : draft.nextLabel <= after.nextLabel

namespace Draft

@[simp] theorem nodes_emit (draft : Draft) (node : Node) :
    (draft.emit node).nodes.toList = draft.nodes.toList ++ [node] := by
  simp [emit]

@[simp] theorem nodes_produce (draft : Draft) (node : Node) :
    (draft.produce node).nodes.toList = draft.nodes.toList ++ [node] := by
  simp [produce]

@[simp] theorem nodes_define (draft : Draft) (binding : Binding) (place : Local) :
    (draft.define binding place).nodes = draft.nodes := rfl

@[simp] theorem nodes_start (parameters : Nat) (locals : Locals) :
    (start parameters locals).nodes.toList = [] := rfl

@[simp] theorem nodes_forkValue (draft : Draft) (test : Register) (span : Span) :
    (draft.forkValue test span).nodes.toList =
      draft.nodes.toList ++ [.jumpUnless test draft.label span] := by
  simp [forkValue, reserve, skipLabels]

@[simp] theorem nodes_switchValue (draft tested : Draft) (source : Register)
    (copySpan span : Span) :
    (draft.switchValue tested source copySpan span).nodes.toList =
      draft.nodes.toList ++
        [.operation (.copy tested.next source) copySpan, .jump tested.secondLabel span,
          .label tested.label span] := by
  simp [switchValue]

@[simp] theorem nodes_joinValue (draft tested : Draft) (source : Register)
    (copySpan span : Span) :
    (draft.joinValue tested source copySpan span).nodes.toList =
      draft.nodes.toList ++
        [.operation (.copy tested.next source) copySpan, .label tested.secondLabel span] := by
  simp [joinValue]

@[simp] theorem nodes_forkTail (draft : Draft) (test : Register) (span : Span) :
    (draft.forkTail test span).nodes.toList =
      draft.nodes.toList ++ [.jumpUnless test draft.label span] := by
  simp [forkTail, skipLabels]

@[simp] theorem nodes_switchTail (draft tested : Draft) (span : Span) :
    (draft.switchTail tested span).nodes.toList =
      draft.nodes.toList ++ [.label tested.label span] := by
  simp [switchTail]

@[simp] theorem size_emit (draft : Draft) (node : Node) :
    (draft.emit node).nodes.size = draft.nodes.size + 1 := by
  simp [emit]

@[simp] theorem size_produce (draft : Draft) (node : Node) :
    (draft.produce node).nodes.size = draft.nodes.size + 1 := by
  simp [produce]

@[simp] theorem size_forkValue (draft : Draft) (test : Register) (span : Span) :
    (draft.forkValue test span).nodes.size = draft.nodes.size + 1 :=
  size_emit _ _

@[simp] theorem size_forkTail (draft : Draft) (test : Register) (span : Span) :
    (draft.forkTail test span).nodes.size = draft.nodes.size + 1 :=
  size_emit _ _

theorem Grows.refl (draft : Draft) : draft.Grows draft :=
  ⟨List.prefix_refl _, Nat.le_refl _, Nat.le_refl _⟩

theorem Grows.trans {first second third : Draft} (before : first.Grows second)
    (after : second.Grows third) : first.Grows third :=
  ⟨before.nodes.trans after.nodes, Nat.le_trans before.registers after.registers,
    Nat.le_trans before.labels after.labels⟩

theorem grows_emit (draft : Draft) (node : Node) : draft.Grows (draft.emit node) :=
  ⟨by rw [nodes_emit]; exact List.prefix_append _ _, Nat.le_refl _, Nat.le_refl _⟩

theorem grows_produce (draft : Draft) (node : Node) : draft.Grows (draft.produce node) :=
  ⟨by rw [nodes_produce]; exact List.prefix_append _ _, Nat.le_succ _, Nat.le_refl _⟩

theorem grows_define (draft : Draft) (binding : Binding) (place : Local) :
    draft.Grows (draft.define binding place) :=
  ⟨List.prefix_refl _, Nat.le_refl _, Nat.le_refl _⟩

theorem grows_forkValue (draft : Draft) (test : Register) (span : Span) :
    draft.Grows (draft.forkValue test span) :=
  ⟨by rw [nodes_forkValue]; exact List.prefix_append _ _, Nat.le_succ _, Nat.le_add_right _ 2⟩

theorem grows_switchValue (draft tested : Draft) (source : Register) (copySpan span : Span) :
    draft.Grows (draft.switchValue tested source copySpan span) :=
  ⟨by rw [nodes_switchValue]; exact List.prefix_append _ _, Nat.le_refl _, Nat.le_refl _⟩

theorem grows_joinValue (draft tested : Draft) (source : Register) (copySpan span : Span) :
    draft.Grows (draft.joinValue tested source copySpan span) :=
  ⟨by rw [nodes_joinValue]; exact List.prefix_append _ _, Nat.le_refl _, Nat.le_refl _⟩

theorem grows_forkTail (draft : Draft) (test : Register) (span : Span) :
    draft.Grows (draft.forkTail test span) :=
  ⟨by rw [nodes_forkTail]; exact List.prefix_append _ _, Nat.le_refl _, Nat.le_succ _⟩

theorem grows_switchTail (draft tested : Draft) (span : Span) :
    draft.Grows (draft.switchTail tested span) :=
  ⟨by rw [nodes_switchTail]; exact List.prefix_append _ _, Nat.le_refl _, Nat.le_refl _⟩

end Draft

open Draft

theorem grows_of_builds {construction : Construction} {draft after : Draft}
    (builds : Builds construction draft after) : draft.Grows after := by
  induction builds with
  | none => exact .refl _
  | more _ _ first others => exact first.trans others
  | var => exact grows_produce _ _
  | abs => exact grows_produce _ _
  | combine _ _ built => exact built.trans (grows_produce _ _)
  | letIn _ _ bound built => exact bound.trans built
  | group _ built => exact built
  | cond _ _ _ tests holds fails =>
      exact tests.trans ((grows_forkValue _ _ _).trans (holds.trans
        ((grows_switchValue _ _ _ _ _).trans (fails.trans (grows_joinValue _ _ _ _ _)))))
  | bindPlain _ _ built => exact built.trans (grows_define _ _ _)
  | bindRecursive _ _ built =>
      exact ((grows_produce _ _).trans (grows_define _ _ _)).trans
        (built.trans ((grows_emit _ _).trans (grows_define _ _ _)))
  | leave _ _ built => exact built.trans (grows_emit _ _)
  | tailCall _ built => exact built.trans (grows_emit _ _)
  | tailLetIn _ _ bound built => exact bound.trans built
  | tailGroup _ built => exact built
  | tailCond _ _ _ tests holds fails =>
      exact tests.trans ((grows_forkTail _ _ _).trans (holds.trans
        ((grows_switchTail _ _ _).trans fails)))

/-!
## Nodes that are added
-/

/-- Whatever the second draft has and the first one does not is a node of this kind. -/
def Draft.AddsOnly (Kind : Node -> Prop) (draft after : Draft) : Prop :=
  forall node, node ∈ after.nodes.toList -> node ∈ draft.nodes.toList ∨ Kind node

namespace Draft.AddsOnly

variable {Kind Other : Node -> Prop} {draft middle after : Draft} {node : Node}

theorem refl (draft : Draft) : draft.AddsOnly Kind draft :=
  fun _ member => .inl member

theorem trans (first : draft.AddsOnly Kind middle) (second : middle.AddsOnly Kind after) :
    draft.AddsOnly Kind after := by
  intro node member
  rcases second node member with before | kind
  · exact first node before
  · exact .inr kind

theorem mono (adds : draft.AddsOnly Kind after) (weaker : forall node, Kind node -> Other node) :
    draft.AddsOnly Other after :=
  fun node member => (adds node member).imp_right (weaker node)

theorem of_append {nodes : List Node} (appended : after.nodes.toList = draft.nodes.toList ++ nodes)
    (kind : forall node, node ∈ nodes -> Kind node) : draft.AddsOnly Kind after := by
  intro node member
  rw [appended] at member
  exact (List.mem_append.mp member).imp_right (kind node)

theorem emit (kind : Kind node) : draft.AddsOnly Kind (draft.emit node) :=
  of_append (nodes_emit draft node) (List.forall_mem_singleton.mpr kind)

theorem produce (kind : Kind node) : draft.AddsOnly Kind (draft.produce node) :=
  of_append (nodes_produce draft node) (List.forall_mem_singleton.mpr kind)

theorem cond {tested first second : Draft} {test left right : Register}
    {span leftSpan rightSpan : Span} (tests : draft.AddsOnly Kind tested)
    (holds : (tested.forkValue test span).AddsOnly Kind first)
    (fails : (first.switchValue tested left leftSpan span).AddsOnly Kind second)
    (copiesLeft : Kind (.operation (.copy tested.next left) leftSpan))
    (copiesRight : Kind (.operation (.copy tested.next right) rightSpan))
    (jumps : Kind (.jump tested.secondLabel span))
    (leaves : Kind (.jumpUnless test tested.label span))
    (labels : forall label span, Kind (.label label span)) :
    draft.AddsOnly Kind (second.joinValue tested right rightSpan span) := by
  have forks : tested.AddsOnly Kind (tested.forkValue test span) :=
    .of_append (nodes_forkValue tested test span) (by simp [leaves])
  have switches : first.AddsOnly Kind (first.switchValue tested left leftSpan span) :=
    .of_append (nodes_switchValue first tested left leftSpan span)
      (by simp [copiesLeft, jumps, labels])
  have joins : second.AddsOnly Kind (second.joinValue tested right rightSpan span) :=
    .of_append (nodes_joinValue second tested right rightSpan span) (by simp [copiesRight, labels])
  exact tests.trans (forks.trans (holds.trans (switches.trans (fails.trans joins))))

theorem tailCond {tested first second : Draft} {test : Register} {span : Span}
    (tests : draft.AddsOnly Kind tested) (holds : (tested.forkTail test span).AddsOnly Kind first)
    (fails : (first.switchTail tested span).AddsOnly Kind second)
    (leaves : Kind (.jumpUnless test tested.label span))
    (labels : forall label span, Kind (.label label span)) : draft.AddsOnly Kind second := by
  have forks : tested.AddsOnly Kind (tested.forkTail test span) :=
    .of_append (nodes_forkTail tested test span) (by simp [leaves])
  have switches : first.AddsOnly Kind (first.switchTail tested span) :=
    .of_append (nodes_switchTail first tested span) (by simp [labels])
  exact tests.trans (forks.trans (holds.trans (switches.trans fails)))

theorem of_mem {parameters : Nat} {locals : Locals}
    (adds : (Draft.start parameters locals).AddsOnly Kind after)
    (member : node ∈ after.nodes.toList) : Kind node :=
  (adds node member).resolve_left List.not_mem_nil

end Draft.AddsOnly

/-!
## Registers of results
-/

def Construction.results : Construction -> List Register
  | .value _ register => [register]
  | .values _ registers => registers
  | .bind _ _ _ => []
  | .tail _ _ => []

theorem result_lt_of_builds {construction : Construction} {draft after : Draft}
    (builds : Builds construction draft after) {register : Register}
    (result : register ∈ construction.results) : register.index < after.nextRegister := by
  induction builds with
  | none => cases result
  | more _ others ihFirst ihOthers =>
      rcases List.mem_cons.mp result with rfl | later
      · exact Nat.lt_of_lt_of_le (ihFirst List.mem_cons_self) (grows_of_builds others).registers
      · exact ihOthers later
  | var | abs | combine =>
      rcases List.mem_singleton.mp result with rfl
      exact Nat.lt_succ_self _
  | letIn _ _ _ ih => exact ih result
  | group _ ih => exact ih result
  | @cond draft tested first second span condition consequent alternative test left right
      tests holds fails =>
      rcases List.mem_singleton.mp result with rfl
      have fork := (grows_of_builds holds).registers
      have switch := (grows_of_builds fails).registers
      exact Nat.lt_of_lt_of_le (Nat.lt_succ_self tested.nextRegister) (Nat.le_trans fork switch)
  | bindPlain | bindRecursive | leave | tailCall | tailLetIn | tailGroup | tailCond => cases result

/-!
## Nested blocks
-/

def Construction.abstractions : Construction -> Nat
  | .value term _ => term.abstractions
  | .values terms _ => Term.abstractionsList terms
  | .bind _ _ definition => definition.abstractions
  | .tail _ term => term.abstractions

theorem abstractions_of_combines {term : Term} {operands : List Term} {dest : Register}
    {registers : List Register} {node : Node}
    (combines : Combines term operands dest registers node) :
    term.abstractions = Term.abstractionsList operands ∧ node.blockCount = 0 := by
  cases combines <;> simp [Term.abstractions, Term.abstractionsList, Node.blockCount]

theorem blockCount_readNode (span : Span) (dest : Register) (place : Local) :
    (readNode span dest place).blockCount = 0 := by
  unfold readNode
  split <;> rfl

theorem nestedCount_of_builds {construction : Construction} {draft after : Draft}
    (builds : Builds construction draft after) :
    nestedCount after.nodes.toList =
      nestedCount draft.nodes.toList + construction.abstractions := by
  induction builds with
  | none => rfl
  | more _ _ first others =>
      simp only [Construction.abstractions, Term.abstractionsList] at first others ⊢
      omega
  | var =>
      simp [Construction.abstractions, Term.abstractions, blockCount_readNode]
  | abs _ _ _ ih =>
      simp [Construction.abstractions, Term.abstractions, Node.blockCount, blockCount] at ih ⊢
      omega
  | combine combines _ ih =>
      have same := abstractions_of_combines combines
      simp [Construction.abstractions, same] at ih ⊢
      omega
  | letIn _ _ bound built | tailLetIn _ _ bound built =>
      simp only [Construction.abstractions, Term.abstractions] at bound built ⊢
      omega
  | group _ ih | tailGroup _ ih => exact ih
  | cond _ _ _ tests holds fails | tailCond _ _ _ tests holds fails =>
      simp [Construction.abstractions, Term.abstractions, Node.blockCount] at tests holds fails ⊢
      omega
  | bindPlain _ _ ih => exact ih
  | bindRecursive _ _ ih =>
      simp [Construction.abstractions, Node.blockCount] at ih ⊢
      omega
  | leave _ _ ih =>
      simp [Construction.abstractions, Node.blockCount] at ih ⊢
      omega
  | tailCall _ ih =>
      simp [Construction.abstractions, Term.abstractions, Term.abstractionsList,
        Node.blockCount] at ih ⊢
      omega

end Block
end StrictLambda
