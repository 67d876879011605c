import StrictLambda.Proofs.Execution.Bind
import StrictLambda.Proofs.Term.Evaluator
import StrictLambda.Proofs.Value.Parts

/-!
# Cells of an evaluation

An evaluation makes new cells and ties those that it has made itself.  The cells that were there
before stay as they are, so the cell of a recursive binding is still empty when the value of the
definition comes, and nothing is ever tied twice.
-/

namespace StrictLambda

/-!
## Cells that stay as they are
-/

namespace Cells

variable {Code : Type} {before middle after : Cells Code}

/-- There may be more cells afterwards, but those of before have not changed. -/
structure Extends (before after : Cells Code) : Prop where
  size : before.size <= after.size
  same : forall cell : Cell, cell.index < before.size ->
    after.content? cell = before.content? cell

theorem Extends.refl (cells : Cells Code) : cells.Extends cells :=
  ⟨Nat.le_refl _, fun _ _ => rfl⟩

theorem Extends.trans (first : before.Extends middle) (second : middle.Extends after) :
    before.Extends after := by
  refine ⟨Nat.le_trans first.size second.size, ?_⟩
  intro cell inside
  rw [second.same cell (Nat.lt_of_lt_of_le inside first.size), first.same cell inside]

theorem extends_allocate (cells : Cells Code) : cells.Extends cells.allocate.2 := by
  refine ⟨?_, fun cell _ => content?_allocate cells cell⟩
  rw [size_allocate]
  exact Nat.le_succ _

theorem pending_of_extends (extended : before.allocate.2.Extends after) :
    after.content? before.allocate.1 = none := by
  have inside : before.allocate.1.index < before.allocate.2.size := by
    rw [size_allocate]
    exact Nat.lt_succ_self _
  rw [extended.same _ inside, content?_allocate]
  cases holds : before.content? before.allocate.1 with
  | none => rfl
  | some content => exact absurd (lt_size_of_content? holds) (Nat.lt_irrefl _)

theorem tie_of_extends (extended : before.allocate.2.Extends after) (value : Value Code) :
    exists tied, after.tie before.allocate.1 value = .ok tied ∧ before.Extends tied := by
  cases ties : after.tie before.allocate.1 value with
  | error cause => exact absurd (pending_of_extends extended) (tie_eq_error ties).2
  | ok tied =>
      have whole := (extends_allocate before).trans extended
      refine ⟨tied, rfl, ?_, ?_⟩
      · rw [size_of_tie ties]
        exact whole.size
      · intro cell inside
        have other : cell ≠ before.allocate.1 := by
          intro same
          rw [same] at inside
          exact Nat.lt_irrefl _ inside
        rw [content?_of_tie_of_ne ties other, whole.same cell inside]

end Cells

/-!
## Orderly evaluations
-/

/-- Whether the failure is about a register, or about a cell for any other reason than that it is
still empty. -/
def Failure.isMechanical : Failure -> Bool
  | .defect (.unwrittenRegister _) _ => true
  | .defect .tiedTwice _ => true
  | .defect (.notFixpoint _) _ => true
  | _ => false

namespace Evaluation

variable {First Second : Type}

/-- What may become of cells: those that are there stay as they are, and they give no reason to fail
except by being empty. -/
inductive Tidy (cells : Cells Lambda) :
    Option (Except Failure (First × Cells Lambda)) -> Prop where
  | none : Tidy cells none
  | error {failure : Failure} (blameless : failure.isMechanical = false) :
      Tidy cells (some (.error failure))
  | ok {value : First} {after : Cells Lambda} (extended : cells.Extends after) :
      Tidy cells (some (.ok (value, after)))

def Orderly (evaluation : Evaluation First) : Prop :=
  forall cells, Tidy cells (evaluation cells)

theorem Tidy.after {cells between : Cells Lambda}
    {outcome : Option (Except Failure (First × Cells Lambda))} (tidy : Tidy between outcome)
    (extended : cells.Extends between) : Tidy cells outcome := by
  cases tidy with
  | none => exact .none
  | error blameless => exact .error blameless
  | ok further => exact .ok (extended.trans further)

theorem Orderly.bind {first : Evaluation First} {rest : First -> Evaluation Second}
    (orderly : first.Orderly) (continues : forall value, (rest value).Orderly) :
    (first >>= rest).Orderly := by
  intro cells
  rw [bind_apply]
  have tidy := orderly cells
  generalize first cells = outcome at tidy ⊢
  cases tidy with
  | none => exact .none
  | error blameless => exact .error blameless
  | @ok value after extended => exact (continues value after).after extended

theorem orderly_of {outcome : Except Failure First}
    (blameless : forall failure, outcome = .error failure -> failure.isMechanical = false) :
    (of outcome).Orderly := by
  intro cells
  cases outcome with
  | error failure => exact .error (blameless failure rfl)
  | ok value => exact .ok (.refl cells)

theorem orderly_pure (value : First) : (pure value : Evaluation First).Orderly :=
  fun cells => .ok (.refl cells)

theorem orderly_cutOff : (cutOff : Evaluation First).Orderly :=
  fun _ => .none

theorem orderly_readCell (span : Span) (cell : Cell) : (readCell span cell).Orderly := by
  intro cells
  unfold readCell
  cases found : cells.read cell with
  | error cause =>
      rw [(Cells.read_eq_error found).1]
      exact .error rfl
  | ok content => exact .ok (.refl cells)

theorem orderly_resolve (span : Span) (value : Value Lambda) : (resolve span value).Orderly := by
  cases value with
  | fixpoint cell => exact orderly_readCell span cell
  | integer | boolean | function | dataType | data => exact orderly_pure _

theorem orderly_tying {span : Span} {evaluate : Cell -> Evaluation (Value Lambda)}
    (orderly : forall cell, (evaluate cell).Orderly) :
    (do
      let cell <- allocate
      let value <- evaluate cell
      tie span cell value
      pure value : Evaluation (Value Lambda)).Orderly := by
  intro cells
  have allocated : allocate cells = some (.ok (cells.allocate.1, cells.allocate.2)) := rfl
  rw [bind_apply, allocated]
  dsimp only
  rw [bind_apply]
  have tidy := orderly cells.allocate.1 cells.allocate.2
  generalize evaluate cells.allocate.1 cells.allocate.2 = outcome at tidy ⊢
  cases tidy with
  | none => exact .none
  | error blameless => exact .error blameless
  | @ok value after extended =>
      rcases Cells.tie_of_extends extended value with ⟨tied, ties, whole⟩
      dsimp only
      rw [bind_apply]
      unfold tie
      rw [ties]
      exact .ok whole

end Evaluation

/-!
## Terms
-/

namespace Term

open Evaluation

theorem orderly_find (environment : Environment) (span : Span) (binding : Binding) :
    (of (environment.find span binding)).Orderly := by
  apply orderly_of
  intro failure failed
  unfold Environment.find at failed
  split at failed
  · cases failed
  · cases failed
    rfl

theorem orderly_findAll (environment : Environment) (span : Span) (bindings : List Binding) :
    (of (environment.findAll span bindings)).Orderly := by
  induction bindings with
  | nil => exact orderly_pure _
  | cons binding rest ih =>
      rw [Environment.findAll, of_bind]
      apply (orderly_find environment span binding).bind
      intro value
      rw [of_bind]
      exact ih.bind fun values => orderly_pure _

theorem orderly_of_fault {Result : Type} {outcome : Except Failure Result} {span : Span}
    (faults : forall failure, outcome = .error failure ->
      exists cause, failure = .fault cause span) : (of outcome).Orderly := by
  apply orderly_of
  intro failure failed
  rcases faults failure failed with ⟨cause, rfl⟩
  rfl

theorem orderly_member (value : Value Lambda) (span : Span) (field : Symbol) :
    (of (value.member span field)).Orderly := by
  apply orderly_of
  intro failure failed
  unfold Value.member at failed
  split at failed
  · split at failed
    · split at failed
      · split at failed <;> cases failed
        rfl
      · cases failed
        rfl
    · cases failed
      rfl
  · cases failed
    rfl

theorem orderly_operator (span : Span) (operator : Operator) (left right : Value Lambda) :
    (of (blameFault span (operator.apply left right))).Orderly := by
  apply orderly_of
  intro failure failed
  rcases blameFault_eq_error_iff.mp failed with ⟨cause, _, rfl⟩
  rfl

theorem orderly_evaluateVar (environment : Environment) (span : Span) (binding : Binding) :
    (evaluateVar environment span binding).Orderly :=
  (orderly_find environment span binding).bind (orderly_resolve span)

theorem orderly_evaluateDefinition {evaluate : Environment -> Evaluation (Value Lambda)}
    (orderly : forall environment, (evaluate environment).Orderly) (environment : Environment)
    (binding : Binding) (definition : Term) :
    (evaluateDefinition environment binding definition evaluate).Orderly := by
  unfold evaluateDefinition
  split
  · exact orderly_tying fun cell => orderly _
  · exact orderly environment

def OrderlyCalls (call : Calls) : Prop :=
  forall lambda captures argument, (call lambda captures argument).Orderly

mutual

theorem orderly_evaluate {call : Calls} (orderly : OrderlyCalls call) : (term : Term) ->
    (number : Nat) -> (environment : Environment) ->
      (term.evaluate call number environment).Orderly
  | .var span binding, _, environment => orderly_evaluateVar environment span binding
  | .abs span parameter body, number, environment => by
      rw [evaluate]
      exact (orderly_findAll _ _ _).bind fun captures => orderly_pure _
  | .app span function argument, number, environment => by
      rw [evaluate]
      refine (orderly_evaluate orderly function number environment).bind fun callee => ?_
      refine (orderly_evaluate orderly argument _ environment).bind fun value => ?_
      refine (orderly_of_fault fun failure failed =>
        ⟨_, Value.expectFunction_eq_error failed⟩).bind fun pair => ?_
      exact orderly pair.1 pair.2 value
  | .letIn _ binding definition body, number, environment => by
      rw [evaluate]
      refine (orderly_evaluateDefinition (fun inside =>
        orderly_evaluate orderly definition number inside) _ _ _).bind fun value => ?_
      exact orderly_evaluate orderly body _ _
  | .group _ inner, number, environment => orderly_evaluate orderly inner number environment
  | .dataType _ _, _, _ => orderly_pure _
  | .data span type tag fields, number, environment => by
      rw [evaluate]
      refine (orderly_evaluate orderly type number environment).bind fun found => ?_
      refine (orderly_evaluateList orderly fields _ environment).bind fun values => ?_
      refine (orderly_of_fault fun failure failed =>
        Value.constructorNumbered_eq_error failed).bind fun pair => ?_
      exact orderly_of_fault fun failure failed => Value.construct_eq_error failed
  | .member span value field, number, environment => by
      rw [evaluate]
      exact (orderly_evaluate orderly value number environment).bind fun found =>
        orderly_member found span field
  | .literal _ _, _, _ => orderly_pure _
  | .binary span operator lhs rhs, number, environment => by
      rw [evaluate]
      refine (orderly_evaluate orderly lhs number environment).bind fun left => ?_
      refine (orderly_evaluate orderly rhs _ environment).bind fun right => ?_
      exact orderly_operator span operator left right
  | .cond span condition consequent alternative, number, environment => by
      rw [evaluate]
      refine (orderly_evaluate orderly condition number environment).bind fun found => ?_
      refine (orderly_of_fault fun failure failed =>
        ⟨_, Value.expectBoolean_eq_error failed⟩).bind fun holds => ?_
      cases holds with
      | true => exact orderly_evaluate orderly consequent _ environment
      | false => exact orderly_evaluate orderly alternative _ environment

theorem orderly_evaluateList {call : Calls} (orderly : OrderlyCalls call) :
    (terms : List Term) -> (number : Nat) -> (environment : Environment) ->
      (evaluateList call number environment terms).Orderly
  | [], _, _ => orderly_pure _
  | term :: rest, number, environment => by
      rw [evaluateList]
      refine (orderly_evaluate orderly term number environment).bind fun value => ?_
      exact (orderly_evaluateList orderly rest _ environment).bind fun values => orderly_pure _

end

theorem orderly_calls (depth : Nat) : OrderlyCalls (calls depth) := by
  induction depth with
  | zero => exact fun _ _ _ => orderly_cutOff
  | succ depth ih => exact fun lambda _ _ => orderly_evaluate ih lambda.body _ _

theorem not_isMechanical_of_ends {term : Term} {failure : Failure}
    (ends : term.Ends (.error failure)) : failure.isMechanical = false := by
  rcases ends with ⟨depth, ended⟩
  have tidy := orderly_evaluate (orderly_calls depth) term 1 [] .empty
  unfold run at ended
  rw [ended] at tidy
  cases tidy with
  | error blameless => exact blameless

end Term
end StrictLambda
