import StrictLambda.Block.OfTerm
import StrictLambda.Proofs.Execution.Bind

/-!
# How blocks are constructed

A plan is a pair of programs that extend a draft.  What they do is laid down here as a relation with
one rule for each way of building a term, so that everything there is to know about the blocks of
terms can be proved by induction on these rules.
-/

namespace StrictLambda
namespace Block

/-!
## Drafts
-/

namespace Draft

def next (draft : Draft) : Register :=
  ⟨draft.nextRegister⟩

def emit (draft : Draft) (node : Node) : Draft :=
  { draft with nodes := draft.nodes.push node }

def produce (draft : Draft) (node : Node) : Draft :=
  { draft with nodes := draft.nodes.push node, nextRegister := draft.nextRegister + 1 }

def define (draft : Draft) (binding : Binding) (place : Local) : Draft :=
  { draft with locals := draft.locals.define binding place }

def label (draft : Draft) : Label :=
  ⟨draft.nextLabel⟩

def secondLabel (draft : Draft) : Label :=
  ⟨draft.nextLabel + 1⟩

def reserve (draft : Draft) : Draft :=
  { draft with nextRegister := draft.nextRegister + 1 }

def skipLabels (draft : Draft) (count : Nat) : Draft :=
  { draft with nextLabel := draft.nextLabel + count }

def forkValue (draft : Draft) (test : Register) (span : Span) : Draft :=
  (draft.reserve.skipLabels 2).emit (.jumpUnless test draft.label span)

def switchValue (draft tested : Draft) (source : Register) (copySpan span : Span) : Draft :=
  ((draft.emit (.operation (.copy tested.next source) copySpan)).emit
    (.jump tested.secondLabel span)).emit (.label tested.label span)

def joinValue (draft tested : Draft) (source : Register) (copySpan span : Span) : Draft :=
  (draft.emit (.operation (.copy tested.next source) copySpan)).emit
    (.label tested.secondLabel span)

def forkTail (draft : Draft) (test : Register) (span : Span) : Draft :=
  (draft.skipLabels 1).emit (.jumpUnless test draft.label span)

def switchTail (draft tested : Draft) (span : Span) : Draft :=
  draft.emit (.label tested.label span)

end Draft

/-!
## Rules
-/

def readNode (span : Span) (dest : Register) (place : Local) : Node :=
  if place.placeholder then
    .operation (.derefFixpoint dest place.register) span
  else
    .operation (.copy dest place.register) span

/-- The node that computes the value of a term from the values of its operands. -/
inductive Combines : Term -> List Term -> Register -> List Register -> Node -> Prop where
  | app {span : Span} {function argument : Term} {dest callee value : Register} :
      Combines (.app span function argument) [function, argument] dest [callee, value]
        (.operation (.call dest callee value) span)
  | dataType {span : Span} {declaration : Declaration} {dest : Register} :
      Combines (.dataType span declaration) [] dest [] (.dataType dest declaration span)
  | data {span : Span} {type : Term} {tag : Nat} {fields : List Term} {dest first : Register}
      {others : List Register} :
      Combines (.data span type tag fields) (type :: fields) dest (first :: others)
        (.data dest first tag others span)
  | member {span : Span} {value : Term} {field : Symbol} {dest source : Register} :
      Combines (.member span value field) [value] dest [source]
        (.operation (.member dest source field) span)
  | literal {span : Span} {value : Literal} {dest : Register} :
      Combines (.literal span value) [] dest [] (.operation (.literal dest value) span)
  | binary {span : Span} {operator : Operator} {lhs rhs : Term} {dest left right : Register} :
      Combines (.binary span operator lhs rhs) [lhs, rhs] dest [left, right]
        (.operation (.primitive dest operator left right) span)

/-- Whether the term is built for its value when it stands where the block is left. -/
def Site.needsValue (site : Site) : Term -> Bool
  | .app _ _ _ => site = .topLevel
  | .letIn _ _ _ _ => false
  | .group _ _ => false
  | .cond _ _ _ _ => false
  | _ => true

/-- What is to be built: a value in a register, several values, a binding, or a way out of the
block. -/
inductive Construction where
  | value (term : Term) (register : Register)
  | values (terms : List Term) (registers : List Register)
  | bind (span : Span) (binding : Binding) (definition : Term)
  | tail (site : Site) (term : Term)

inductive Builds : Construction -> Draft -> Draft -> Prop where
  | none {draft : Draft} : Builds (.values [] []) draft draft
  | more {draft middle after : Draft} {term : Term} {rest : List Term} {register : Register}
      {registers : List Register} (first : Builds (.value term register) draft middle)
      (others : Builds (.values rest registers) middle after) :
      Builds (.values (term :: rest) (register :: registers)) draft after
  | var {draft : Draft} {span : Span} {binding : Binding} {place : Local}
      (found : draft.locals.get? binding = some place) :
      Builds (.value (.var span binding) draft.next) draft
        (draft.produce (readNode span draft.next place))
  | abs {draft inner : Draft} {span : Span} {parameter : Binding} {body : Term}
      {captures : List (Binding × Local)}
      (free : captures.map Prod.fst = (Term.abs span parameter body).freeVariables)
      (found : forall capture, capture ∈ captures ->
        draft.locals.get? capture.1 = some capture.2)
      (built : Builds (.tail .functionBody body)
        (.start (captures.length + 1) (.ofFunction parameter captures)) inner) :
      Builds (.value (.abs span parameter body) draft.next) draft
        (draft.produce
          (.function draft.next (.mk (captures.length + 1) inner.nodes.toList span)
            (captures.map fun capture => capture.2.register) span))
  | combine {draft after : Draft} {term : Term} {operands : List Term}
      {registers : List Register} {node : Node}
      (combines : Combines term operands after.next registers node)
      (built : Builds (.values operands registers) draft after) :
      Builds (.value term after.next) draft (after.produce node)
  | letIn {draft middle after : Draft} {span : Span} {binding : Binding} {definition body : Term}
      {register : Register} (bound : Builds (.bind span binding definition) draft middle)
      (built : Builds (.value body register) middle after) :
      Builds (.value (.letIn span binding definition body) register) draft after
  | group {draft after : Draft} {span : Span} {inner : Term} {register : Register}
      (built : Builds (.value inner register) draft after) :
      Builds (.value (.group span inner) register) draft after
  | cond {draft tested first second : Draft} {span : Span}
      {condition consequent alternative : Term} {test left right : Register}
      (tests : Builds (.value condition test) draft tested)
      (holds : Builds (.value consequent left) (tested.forkValue test span) first)
      (fails : Builds (.value alternative right)
        (first.switchValue tested left consequent.span span) second) :
      Builds (.value (.cond span condition consequent alternative) tested.next) draft
        (second.joinValue tested right alternative.span span)
  | bindPlain {draft after : Draft} {span : Span} {binding : Binding} {definition : Term}
      {register : Register} (plain : definition.mentions binding = false)
      (built : Builds (.value definition register) draft after) :
      Builds (.bind span binding definition) draft (after.define binding ⟨register, false⟩)
  | bindRecursive {draft after : Draft} {span : Span} {binding : Binding} {definition : Term}
      {register : Register} (recursive : definition.mentions binding = true)
      (built : Builds (.value definition register)
        ((draft.produce (.operation (.beginFixpoint draft.next) span)).define binding
          ⟨draft.next, true⟩) after) :
      Builds (.bind span binding definition) draft
        ((after.emit (.operation (.endFixpoint draft.next register) definition.span)).define
          binding ⟨register, false⟩)
  | leave {draft after : Draft} {site : Site} {term : Term} {register : Register}
      (needed : site.needsValue term = true)
      (built : Builds (.value term register) draft after) :
      Builds (.tail site term) draft (after.emit (.operation (site.leave register) term.span))
  | tailCall {draft after : Draft} {span : Span} {function argument : Term}
      {callee value : Register}
      (built : Builds (.values [function, argument] [callee, value]) draft after) :
      Builds (.tail .functionBody (.app span function argument)) draft
        (after.emit (.operation (.tailCall callee value) span))
  | tailLetIn {draft middle after : Draft} {site : Site} {span : Span} {binding : Binding}
      {definition body : Term} (bound : Builds (.bind span binding definition) draft middle)
      (built : Builds (.tail site body) middle after) :
      Builds (.tail site (.letIn span binding definition body)) draft after
  | tailGroup {draft after : Draft} {site : Site} {span : Span} {inner : Term}
      (built : Builds (.tail site inner) draft after) :
      Builds (.tail site (.group span inner)) draft after
  | tailCond {draft tested first second : Draft} {site : Site} {span : Span}
      {condition consequent alternative : Term} {test : Register}
      (tests : Builds (.value condition test) draft tested)
      (holds : Builds (.tail site consequent) (tested.forkTail test span) first)
      (fails : Builds (.tail site alternative) (first.switchTail tested span) second) :
      Builds (.tail site (.cond span condition consequent alternative)) draft second

/-!
## Rules and plans
-/

def Planned : Construction -> Draft -> Draft -> Prop
  | .value term register, draft, after => (plan term).value.run draft = .ok (register, after)
  | .values terms registers, draft, after =>
      (Plan.values (planList terms)).run draft = .ok (registers, after)
  | .bind span binding definition, draft, after =>
      (Plan.bindLocal span binding definition (plan definition)).run draft = .ok ((), after)
  | .tail site term, draft, after => ((plan term).tail site).run draft = .ok ((), after)

namespace Building

variable {First Second : Type} {first : Building First} {rest : First -> Building Second}
  {draft middle : Draft}

theorem run_bind {value : First} (done : first.run draft = .ok (value, middle)) :
    (first >>= rest).run draft = (rest value).run middle := by
  rw [StateT.run_bind, done]
  rfl

theorem run_produce (node : Register -> Node) (draft : Draft) :
    (produce node).run draft = .ok (draft.next, draft.produce (node draft.next)) :=
  rfl

theorem run_freshRegister (draft : Draft) :
    freshRegister.run draft = .ok (draft.next, draft.reserve) :=
  rfl

theorem run_freshLabel (draft : Draft) :
    freshLabel.run draft = .ok (draft.label, draft.skipLabels 1) :=
  rfl

theorem run_emit (node : Node) (draft : Draft) :
    (emit node).run draft = .ok ((), draft.emit node) :=
  rfl

theorem run_emitOperation (span : Span) (action : Operation) (draft : Draft) :
    (emitOperation span action).run draft = .ok ((), draft.emit (.operation action span)) :=
  rfl

theorem run_define (binding : Binding) (register : Register) (placeholder : Bool)
    (draft : Draft) :
    (define binding register placeholder).run draft =
      .ok ((), draft.define binding ⟨register, placeholder⟩) :=
  rfl

theorem run_lookup {span : Span} {binding : Binding} {place : Local}
    (found : draft.locals.get? binding = some place) :
    (lookup span binding).run draft = .ok (place, draft) := by
  unfold lookup
  rw [run_bind rfl, found]
  rfl

theorem run_lookupAll {span : Span} {captures : List (Binding × Local)}
    (found : forall capture, capture ∈ captures ->
      draft.locals.get? capture.1 = some capture.2) :
    (lookupAll span (captures.map Prod.fst)).run draft = .ok (captures, draft) := by
  induction captures with
  | nil => rfl
  | cons capture rest ih =>
      rw [List.map_cons, lookupAll, run_bind (run_lookup (found capture List.mem_cons_self)),
        run_bind (ih fun other member => found other (List.mem_cons_of_mem _ member))]
      rfl

theorem close_eq {parameters : Nat} {locals : Locals} {span : Span} {body : Building Unit}
    {inner : Draft} (done : body.run (Draft.start parameters locals) = .ok ((), inner)) :
    close parameters locals span body = .ok (.mk parameters inner.nodes.toList span) := by
  unfold close
  rw [done]
  rfl

end Building

open Building

theorem run_ofValue_tail {span : Span} {value : Building Register} {site : Site}
    {draft after : Draft} {register : Register} (done : value.run draft = .ok (register, after)) :
    ((Plan.ofValue span value).tail site).run draft =
      .ok ((), after.emit (.operation (site.leave register) span)) := by
  unfold Plan.ofValue
  rw [run_bind done, run_emitOperation]

theorem of_run_values {terms : List Term} {register : Register} {registers : List Register}
    {draft after : Draft} {term : Term}
    (done : (Plan.values (planList (term :: terms))).run draft =
      .ok (register :: registers, after)) :
    exists middle, (plan term).value.run draft = .ok (register, middle) ∧
      (Plan.values (planList terms)).run middle = .ok (registers, after) := by
  rw [planList, Plan.values] at done
  rcases bind_eq_ok_iff.mp done with ⟨⟨first, middle⟩, ran, done⟩
  rcases bind_eq_ok_iff.mp done with ⟨⟨others, last⟩, ranOthers, done⟩
  cases done
  exact ⟨middle, ran, ranOthers⟩

theorem of_run_values_nil {draft after : Draft} {registers : List Register}
    (done : (Plan.values (planList [])).run draft = .ok (registers, after)) : after = draft := by
  cases done
  rfl

theorem planned_of_combines {term : Term} {operands : List Term} {registers : List Register}
    {node : Node} {draft after : Draft}
    (combines : Combines term operands after.next registers node)
    (done : Planned (.values operands registers) draft after) :
    Planned (.value term after.next) draft (after.produce node) := by
  simp only [Planned] at done ⊢
  rw [plan.eq_def]
  cases combines with
  | app =>
      rcases of_run_values done with ⟨middle, first, done⟩
      rcases of_run_values done with ⟨last, second, done⟩
      cases of_run_values_nil done
      exact (run_bind first).trans ((run_bind second).trans (run_produce _ _))
  | dataType =>
      cases of_run_values_nil done
      exact run_produce _ _
  | data =>
      rcases of_run_values done with ⟨middle, first, done⟩
      exact (run_bind first).trans ((run_bind done).trans (run_produce _ _))
  | member =>
      rcases of_run_values done with ⟨middle, first, done⟩
      cases of_run_values_nil done
      exact (run_bind first).trans (run_produce _ _)
  | literal =>
      cases of_run_values_nil done
      exact run_produce _ _
  | binary =>
      rcases of_run_values done with ⟨middle, first, done⟩
      rcases of_run_values done with ⟨last, second, done⟩
      cases of_run_values_nil done
      exact (run_bind first).trans ((run_bind second).trans (run_produce _ _))

theorem planned_of_needsValue {site : Site} {term : Term} {register : Register}
    {draft after : Draft} (needed : site.needsValue term = true)
    (done : Planned (.value term register) draft after) :
    Planned (.tail site term) draft
      (after.emit (.operation (site.leave register) term.span)) := by
  simp only [Planned] at done ⊢
  cases term with
  | app span function argument =>
      cases site with
      | topLevel =>
          rw [plan] at done ⊢
          exact run_ofValue_tail done
      | functionBody => cases needed
  | letIn | group | cond => cases needed
  | var | abs | dataType | data | member | literal | binary =>
      rw [plan] at done ⊢
      exact run_ofValue_tail done

theorem planned_of_builds {construction : Construction} {draft after : Draft}
    (builds : Builds construction draft after) : Planned construction draft after := by
  induction builds with
  | none => rfl
  | more _ _ ihFirst ihOthers =>
      simp only [Planned] at ihFirst ihOthers ⊢
      rw [planList, Plan.values, run_bind ihFirst, run_bind ihOthers]
      rfl
  | @var draft span binding place found =>
      rw [Planned]
      rw [plan]
      unfold Plan.ofValue Building.read
      rw [run_bind (run_lookup found), run_produce]
      rfl
  | @abs draft inner span parameter body captures free found _ ih =>
      simp only [Planned] at ih ⊢
      rw [plan]
      unfold Plan.ofValue Plan.createFunction
      rw [← free, run_bind (run_lookupAll found), close_eq ih]
      rfl
  | combine combines _ ih => exact planned_of_combines combines ih
  | letIn _ _ ihBound ih =>
      simp only [Planned] at ihBound ih ⊢
      rw [plan]
      unfold Plan.after
      rw [run_bind ihBound]
      exact ih
  | group _ ih =>
      simp only [Planned] at ih ⊢
      rw [plan]
      exact ih
  | cond _ _ _ ihTests ihHolds ihFails =>
      simp only [Planned] at ihTests ihHolds ihFails ⊢
      rw [plan]
      unfold Plan.choose Plan.chooseValue
      apply (run_bind ihTests).trans
      apply (run_bind (run_freshRegister _)).trans
      apply (run_bind (run_freshLabel _)).trans
      apply (run_bind (run_freshLabel _)).trans
      apply (run_bind (run_emit _ _)).trans
      apply (run_bind ihHolds).trans
      apply (run_bind (run_emitOperation _ _ _)).trans
      apply (run_bind (run_emit _ _)).trans
      apply (run_bind (run_emit _ _)).trans
      apply (run_bind ihFails).trans
      rfl
  | bindPlain plain _ ih =>
      simp only [Planned] at ih ⊢
      unfold Plan.bindLocal
      rw [if_neg (by simp [plain]), run_bind ih, run_define]
  | bindRecursive recursive _ ih =>
      simp only [Planned] at ih ⊢
      unfold Plan.bindLocal
      rw [if_pos recursive, run_bind (run_produce _ _), run_bind (run_define _ _ _ _),
        run_bind ih, run_bind (run_emitOperation _ _ _), run_define]
  | leave needed _ ih => exact planned_of_needsValue needed ih
  | tailCall _ ih =>
      simp only [Planned] at ih ⊢
      rcases of_run_values ih with ⟨middle, first, done⟩
      rcases of_run_values done with ⟨last, second, done⟩
      cases of_run_values_nil done
      rw [plan]
      exact (run_bind first).trans ((run_bind second).trans (run_emitOperation _ _ _))
  | tailLetIn _ _ ihBound ih =>
      simp only [Planned] at ihBound ih ⊢
      rw [plan]
      unfold Plan.after
      rw [run_bind ihBound]
      exact ih
  | tailGroup _ ih =>
      simp only [Planned] at ih ⊢
      rw [plan]
      exact ih
  | tailCond _ _ _ ihTests ihHolds ihFails =>
      simp only [Planned] at ihTests ihHolds ihFails ⊢
      rw [plan]
      unfold Plan.choose Plan.chooseTail
      apply (run_bind ihTests).trans
      apply (run_bind (run_freshLabel _)).trans
      apply (run_bind (run_emit _ _)).trans
      apply (run_bind ihHolds).trans
      apply (run_bind (run_emit _ _)).trans
      exact ihFails

end Block
end StrictLambda
