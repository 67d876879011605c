import StrictLambda.Proofs.Block.Relays
import StrictLambda.Proofs.Builder.Completeness
import StrictLambda.Proofs.Term.Groups

/-!
# Building terms without some of their groups

A group has no instructions of its own, neither for its value nor where the block is left.  All that
is left of it is its span, where a value of it is handed on.
-/

namespace StrictLambda
namespace Block

open Building Term

/-!
## Drafts
-/

/-- The nodes differ in nothing but the spans of those that hand on a value. -/
def LookAlike (first second : Array Node) : Prop :=
  first.map Node.fade = second.map Node.fade

namespace LookAlike

variable {first second : Array Node} {node other : Node}

theorem push (alike : LookAlike first second) (same : node.fade = other.fade) :
    LookAlike (first.push node) (second.push other) := by
  unfold LookAlike at alike ⊢
  rw [Array.map_push, Array.map_push, alike, same]

theorem push_self (alike : LookAlike first second) (node : Node) :
    LookAlike (first.push node) (second.push node) :=
  alike.push rfl

theorem push_operation (alike : LookAlike first second) {action : Operation}
    (relays : action.relays = true) (firstSpan secondSpan : Span) :
    LookAlike (first.push (.operation action firstSpan))
      (second.push (.operation action secondSpan)) :=
  alike.push (Node.fade_operation relays firstSpan secondSpan)

theorem fadeAll_eq (alike : LookAlike first second) :
    fadeAll first.toList = fadeAll second.toList := by
  rw [fadeAll_eq_map, fadeAll_eq_map, ← Array.toList_map, ← Array.toList_map, alike]

end LookAlike

def Draft.withNodes (draft : Draft) (nodes : Array Node) : Draft :=
  { draft with nodes := nodes }

/-!
## Constructions
-/

inductive Construction.LosesGroups : Construction -> Construction -> Prop where
  | value {term other : Term} {register : Register} (loses : term.LosesGroups other) :
      LosesGroups (.value term register) (.value other register)
  | values {terms others : List Term} {registers : List Register}
      (lose : LoseGroups terms others) :
      LosesGroups (.values terms registers) (.values others registers)
  | bind {span : Span} {binding : Binding} {definition other : Term}
      (loses : definition.LosesGroups other) :
      LosesGroups (.bind span binding definition) (.bind span binding other)
  | tail {site : Site} {term other : Term} (loses : term.LosesGroups other) :
      LosesGroups (.tail site term) (.tail site other)

theorem needsValue_of_losesGroups {term other : Term} {site : Site}
    (loses : term.LosesGroups other) (needed : site.needsValue term = true) :
    site.needsValue other = true ∧ other.span = term.span := by
  -- What is built for its value in tail position is no group, so it keeps its span.
  cases loses with
  | group | ungroup | letIn | cond => cases needed
  | app => exact ⟨needed, rfl⟩
  | var | abs | dataType | data | member | literal | binary => exact ⟨rfl, rfl⟩

theorem exists_combines_of_losesGroups {term other : Term} {operands : List Term} {dest : Register}
    {registers : List Register} {node : Node}
    (combines : Combines term operands dest registers node) (loses : term.LosesGroups other) :
    exists others, LoseGroups operands others ∧ Combines other others dest registers node := by
  cases combines with
  | app =>
      cases loses with
      | app first second => exact ⟨_, .cons first (.cons second .nil), .app⟩
  | dataType =>
      cases loses with
      | dataType => exact ⟨_, .nil, .dataType⟩
  | data =>
      cases loses with
      | data first others => exact ⟨_, .cons first others, .data⟩
  | member =>
      cases loses with
      | member inside => exact ⟨_, .cons inside .nil, .member⟩
  | literal =>
      cases loses with
      | literal => exact ⟨_, .nil, .literal⟩
  | binary =>
      cases loses with
      | binary first second => exact ⟨_, .cons first (.cons second .nil), .binary⟩

/-- The construction can begin with any nodes that look like those of the draft, and ends with nodes
that look like those of the other draft. -/
def BuildsAlike (construction : Construction) (draft after : Draft) : Prop :=
  forall nodes, LookAlike nodes draft.nodes ->
    exists finish, LookAlike finish after.nodes ∧
      Builds construction (draft.withNodes nodes) (after.withNodes finish)

namespace BuildsAlike

variable {draft middle after : Draft} {span : Span} {site : Site} {binding : Binding}
  {term : Term} {register : Register}

theorem none : BuildsAlike (.values [] []) draft draft :=
  fun start alike => ⟨start, alike, .none⟩

theorem more {rest : List Term} {registers : List Register}
    (first : BuildsAlike (.value term register) draft middle)
    (others : BuildsAlike (.values rest registers) middle after) :
    BuildsAlike (.values (term :: rest) (register :: registers)) draft after := by
  intro start alike
  rcases first start alike with ⟨between, alike, built⟩
  rcases others between alike with ⟨finish, alike, builtOthers⟩
  exact ⟨finish, alike, .more built builtOthers⟩

theorem var {place : Local} (found : draft.locals.get? binding = some place) :
    BuildsAlike (.value (.var span binding) draft.next) draft
      (draft.produce (readNode span draft.next place)) := by
  intro start alike
  have built : Builds _ (draft.withNodes start)
      ((draft.withNodes start).produce (readNode span draft.next place)) := .var found
  exact ⟨_, alike.push_self _, built⟩

theorem abs {inner : Draft} {body : Term} {captures : List (Binding × Local)}
    (free : captures.map Prod.fst = (Term.abs span binding body).freeVariables)
    (found : forall capture, capture ∈ captures -> draft.locals.get? capture.1 = some capture.2)
    (inside : BuildsAlike (.tail .functionBody body)
      (.start (captures.length + 1) (.ofFunction binding captures)) inner) :
    BuildsAlike (.value (.abs span binding body) draft.next) draft
      (draft.produce
        (.function draft.next (.mk (captures.length + 1) inner.nodes.toList span)
          (captures.map fun capture => capture.2.register) span)) := by
  intro start alike
  rcases inside #[] rfl with ⟨nodes, alikeInside, built⟩
  have made : Builds _ (draft.withNodes start) ((draft.withNodes start).produce _) :=
    .abs free found built
  refine ⟨_, alike.push ?_, made⟩
  rw [Node.fade, Node.fade, fade, fade]
  exact congrArg (fun nodes => Node.function _ (.mk _ nodes _) _ _) alikeInside.fadeAll_eq

theorem combine {operands : List Term} {registers : List Register} {node : Node}
    (combines : Combines term operands after.next registers node)
    (evaluates : BuildsAlike (.values operands registers) draft after) :
    BuildsAlike (.value term after.next) draft (after.produce node) := by
  intro start alike
  rcases evaluates start alike with ⟨finish, alike, built⟩
  have made : Builds _ (draft.withNodes start) ((after.withNodes finish).produce node) :=
    .combine combines built
  exact ⟨_, alike.push_self _, made⟩

theorem letIn {definition : Term} (bound : BuildsAlike (.bind span binding definition) draft middle)
    (inside : BuildsAlike (.value term register) middle after) :
    BuildsAlike (.value (.letIn span binding definition term) register) draft after := by
  intro start alike
  rcases bound start alike with ⟨between, alike, builtBound⟩
  rcases inside between alike with ⟨finish, alike, built⟩
  exact ⟨finish, alike, .letIn builtBound built⟩

theorem group (inside : BuildsAlike (.value term register) draft after) :
    BuildsAlike (.value (.group span term) register) draft after := by
  intro start alike
  rcases inside start alike with ⟨finish, alike, built⟩
  exact ⟨finish, alike, .group built⟩

theorem cond {tested first second : Draft} {condition consequent alternative : Term}
    {test left right : Register} {leftSpan rightSpan : Span}
    (tests : BuildsAlike (.value condition test) draft tested)
    (holds : BuildsAlike (.value consequent left) (tested.forkValue test span) first)
    (fails : BuildsAlike (.value alternative right)
      (first.switchValue tested left leftSpan span) second) :
    BuildsAlike (.value (.cond span condition consequent alternative) tested.next) draft
      (second.joinValue tested right rightSpan span) := by
  -- The copies at the ends of the branches have the spans of the branches, which may be others.
  intro start alike
  rcases tests start alike with ⟨middle, alike, builtTests⟩
  rcases holds _ (alike.push_self _) with ⟨later, alike, builtHolds⟩
  let copies : Node := .operation (.copy tested.next left) consequent.span
  rcases fails
    (((later.push copies).push (.jump tested.secondLabel span)).push (.label tested.label span))
    (((alike.push_operation rfl _ _).push_self _).push_self _) with ⟨finish, alike, builtFails⟩
  have made : Builds _ (draft.withNodes start)
      ((second.withNodes finish).joinValue (tested.withNodes middle) right alternative.span span) :=
    .cond builtTests builtHolds builtFails
  exact ⟨_, (alike.push_operation rfl _ _).push_self _, made⟩

theorem bindPlain (plain : term.mentions binding = false)
    (inside : BuildsAlike (.value term register) draft after) :
    BuildsAlike (.bind span binding term) draft (after.define binding ⟨register, false⟩) := by
  intro start alike
  rcases inside start alike with ⟨finish, alike, built⟩
  exact ⟨finish, alike, .bindPlain plain built⟩

theorem bindRecursive {endSpan : Span} (recursive : term.mentions binding = true)
    (inside : BuildsAlike (.value term register)
      ((draft.produce (.operation (.beginFixpoint draft.next) span)).define binding
        ⟨draft.next, true⟩) after) :
    BuildsAlike (.bind span binding term) draft
      ((after.emit (.operation (.endFixpoint draft.next register) endSpan)).define binding
        ⟨register, false⟩) := by
  -- The end of the fixpoint has the span of the definition, which may be another one.
  intro start alike
  rcases inside _ (alike.push_self _) with ⟨finish, alike, built⟩
  let ends : Node := .operation (.endFixpoint draft.next register) term.span
  have made : Builds _ (draft.withNodes start)
      (((after.withNodes finish).emit ends).define binding ⟨register, false⟩) :=
    .bindRecursive recursive built
  exact ⟨_, alike.push_operation rfl _ _, made⟩

theorem leave (needed : site.needsValue term = true)
    (inside : BuildsAlike (.value term register) draft after) :
    BuildsAlike (.tail site term) draft
      (after.emit (.operation (site.leave register) term.span)) := by
  intro start alike
  rcases inside start alike with ⟨finish, alike, built⟩
  exact ⟨_, alike.push_self _, .leave needed built⟩

theorem tailCall {function argument : Term} {callee value : Register}
    (evaluates : BuildsAlike (.values [function, argument] [callee, value]) draft after) :
    BuildsAlike (.tail .functionBody (.app span function argument)) draft
      (after.emit (.operation (.tailCall callee value) span)) := by
  intro start alike
  rcases evaluates start alike with ⟨finish, alike, built⟩
  exact ⟨_, alike.push_self _, .tailCall built⟩

theorem tailLetIn {definition : Term}
    (bound : BuildsAlike (.bind span binding definition) draft middle)
    (inside : BuildsAlike (.tail site term) middle after) :
    BuildsAlike (.tail site (.letIn span binding definition term)) draft after := by
  intro start alike
  rcases bound start alike with ⟨between, alike, builtBound⟩
  rcases inside between alike with ⟨finish, alike, built⟩
  exact ⟨finish, alike, .tailLetIn builtBound built⟩

theorem tailGroup (inside : BuildsAlike (.tail site term) draft after) :
    BuildsAlike (.tail site (.group span term)) draft after := by
  intro start alike
  rcases inside start alike with ⟨finish, alike, built⟩
  exact ⟨finish, alike, .tailGroup built⟩

theorem tailCond {tested first second : Draft} {condition consequent alternative : Term}
    {test : Register} (tests : BuildsAlike (.value condition test) draft tested)
    (holds : BuildsAlike (.tail site consequent) (tested.forkTail test span) first)
    (fails : BuildsAlike (.tail site alternative) (first.switchTail tested span) second) :
    BuildsAlike (.tail site (.cond span condition consequent alternative)) draft second := by
  intro start alike
  rcases tests start alike with ⟨middle, alike, builtTests⟩
  rcases holds _ (alike.push_self _) with ⟨later, alike, builtHolds⟩
  rcases fails _ (alike.push_self _) with ⟨finish, alike, builtFails⟩
  exact ⟨finish, alike, .tailCond builtTests builtHolds builtFails⟩

end BuildsAlike

/-- What the rules allow for a term they allow for the term without some of its groups, up to the
spans of nodes that hand on a value. -/
theorem buildsAlike_of_losesGroups {construction other : Construction} {draft after : Draft}
    (builds : Builds construction draft after) (loses : construction.LosesGroups other) :
    BuildsAlike other draft after := by
  induction builds generalizing other with
  | none =>
      cases loses with
      | values lose =>
          cases lose
          exact .none
  | more _ _ ihFirst ihOthers =>
      cases loses with
      | values lose =>
          cases lose with
          | cons first others => exact .more (ihFirst (.value first)) (ihOthers (.values others))
  | var found =>
      cases loses with
      | value loses =>
          cases loses
          exact .var found
  | abs free found _ ih =>
      cases loses with
      | value loses =>
          cases loses with
          | abs inside =>
              have newFree := free.trans (LosesGroups.abs inside).freeVariables_eq.symm
              exact .abs newFree found (ih (.tail inside))
  | combine combines _ ih =>
      cases loses with
      | value loses =>
          rcases exists_combines_of_losesGroups combines loses with ⟨others, lose, combined⟩
          exact .combine combined (ih (.values lose))
  | letIn _ _ ihBound ih =>
      cases loses with
      | value loses =>
          cases loses with
          | letIn bound inside => exact .letIn (ihBound (.bind bound)) (ih (.value inside))
  | group _ ih =>
      cases loses with
      | value loses =>
          cases loses with
          | group inside => exact .group (ih (.value inside))
          | ungroup inside => exact ih (.value inside)
  | cond _ _ _ ihTests ihHolds ihFails =>
      cases loses with
      | value loses =>
          cases loses with
          | cond tests holds fails =>
              exact .cond (ihTests (.value tests)) (ihHolds (.value holds)) (ihFails (.value fails))
  | bindPlain plain _ ih =>
      cases loses with
      | bind loses => exact .bindPlain ((loses.mentions_eq _).trans plain) (ih (.value loses))
  | bindRecursive recursive _ ih =>
      cases loses with
      | bind loses =>
          exact .bindRecursive ((loses.mentions_eq _).trans recursive) (ih (.value loses))
  | leave needed _ ih =>
      cases loses with
      | tail loses =>
          rcases needsValue_of_losesGroups loses needed with ⟨needed, span⟩
          rw [← span]
          exact .leave needed (ih (.value loses))
  | tailCall _ ih =>
      cases loses with
      | tail loses =>
          cases loses with
          | app first second => exact .tailCall (ih (.values (.cons first (.cons second .nil))))
  | tailLetIn _ _ ihBound ih =>
      cases loses with
      | tail loses =>
          cases loses with
          | letIn bound inside => exact .tailLetIn (ihBound (.bind bound)) (ih (.tail inside))
  | tailGroup _ ih =>
      cases loses with
      | tail loses =>
          cases loses with
          | group inside => exact .tailGroup (ih (.tail inside))
          | ungroup inside => exact ih (.tail inside)
  | tailCond _ _ _ ihTests ihHolds ihFails =>
      cases loses with
      | tail loses =>
          cases loses with
          | cond tests holds fails =>
              exact .tailCond (ihTests (.value tests)) (ihHolds (.tail holds))
                (ihFails (.tail fails))

/-!
## Blocks
-/

theorem ofTerm_of_losesGroups {term other : Term} (loses : term.LosesGroups other) :
    Corresponds (fun block second => second.fade = block.fade) (ofTerm term) (ofTerm other) := by
  cases outcome : ofTerm term with
  | ok block =>
      rcases of_close outcome with ⟨inner, ran, rfl⟩
      rcases buildsAlike_of_losesGroups ((ruled term).tail ran) (.tail loses) #[] rfl with
        ⟨nodes, alike, built⟩
      have closed : ofTerm other = .ok (.mk 0 nodes.toList other.span) :=
        close_eq (planned_of_builds built)
      rw [closed]
      refine .ok ?_
      rw [fade, fade, alike.fadeAll_eq]
  | error failure =>
      have rejected := (ofTerm_eq_error_iff term failure).mp outcome
      rw [← resolve_of_losesGroups term [] loses] at rejected
      rw [(ofTerm_eq_error_iff other failure).mpr rejected]
      exact .error failure

end Block
end StrictLambda
