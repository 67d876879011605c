import StrictLambda.Proofs.Term.Evaluator

/-!
# How deeply calls are nested

The bound on nested calls decides whether an evaluation has an outcome, but not which one.  So there
is one outcome at most that a term can come to.
-/

namespace StrictLambda

namespace Evaluation

variable {First Second : Type}

def Below (evaluation other : Evaluation First) : Prop :=
  forall cells outcome, evaluation cells = some outcome -> other cells = some outcome

theorem Below.refl (evaluation : Evaluation First) : evaluation.Below evaluation :=
  fun _ _ ended => ended

theorem below_cutOff (evaluation : Evaluation First) :
    (cutOff : Evaluation First).Below evaluation :=
  fun _ _ ended => nomatch ended

theorem Below.bind {evaluation other : Evaluation First}
    {rest others : First -> Evaluation Second} (below : evaluation.Below other)
    (continues : forall value, (rest value).Below (others value)) :
    (evaluation >>= rest).Below (other >>= others) := by
  intro cells outcome ended
  rw [bind_apply] at ended ⊢
  cases first : evaluation cells with
  | none =>
      rw [first] at ended
      cases ended
  | some ending =>
      rw [first] at ended
      rw [below cells ending first]
      cases ending with
      | error failure => exact ended
      | ok result => exact continues result.1 result.2 outcome ended

theorem below_bind {evaluation : Evaluation First} {rest others : First -> Evaluation Second}
    (continues : forall value, (rest value).Below (others value)) :
    (evaluation >>= rest).Below (evaluation >>= others) :=
  (Below.refl evaluation).bind continues

end Evaluation

namespace Term

open Evaluation

def CallsBelow (call other : Calls) : Prop :=
  forall lambda captures argument,
    (call lambda captures argument).Below (other lambda captures argument)

theorem evaluateDefinition_below {evaluate other : Environment -> Evaluation (Value Lambda)}
    (below : forall environment, (evaluate environment).Below (other environment))
    (environment : Environment) (binding : Binding) (definition : Term) :
    (evaluateDefinition environment binding definition evaluate).Below
      (evaluateDefinition environment binding definition other) := by
  unfold evaluateDefinition
  split
  · refine below_bind fun cell => ?_
    exact (below _).bind fun value => .refl _
  · exact below environment

mutual

theorem evaluate_below {call other : Calls} (below : CallsBelow call other) : (term : Term) ->
    (number : Nat) -> (environment : Environment) ->
      (term.evaluate call number environment).Below (term.evaluate other number environment)
  | .var _ _, _, _ => .refl _
  | .abs _ _ _, _, _ => .refl _
  | .app span function argument, number, environment => by
      rw [evaluate, evaluate]
      refine (evaluate_below below function number environment).bind fun callee => ?_
      refine (evaluate_below below argument _ environment).bind fun value => ?_
      refine below_bind fun pair => ?_
      exact below pair.1 pair.2 value
  | .letIn _ binding definition body, number, environment => by
      rw [evaluate, evaluate]
      refine (evaluateDefinition_below (fun inside =>
        evaluate_below below definition number inside) _ _ _).bind fun value => ?_
      exact evaluate_below below body _ _
  | .group _ inner, number, environment => evaluate_below below inner number environment
  | .dataType _ _, _, _ => .refl _
  | .data _ type _ fields, number, environment => by
      rw [evaluate, evaluate]
      refine (evaluate_below below type number environment).bind fun found => ?_
      exact (evaluateList_below below fields _ environment).bind fun values => .refl _
  | .member _ value _, number, environment => by
      rw [evaluate, evaluate]
      exact (evaluate_below below value number environment).bind fun found => .refl _
  | .literal _ _, _, _ => .refl _
  | .binary _ _ lhs rhs, number, environment => by
      rw [evaluate, evaluate]
      refine (evaluate_below below lhs number environment).bind fun left => ?_
      exact (evaluate_below below rhs _ environment).bind fun right => .refl _
  | .cond _ condition consequent alternative, number, environment => by
      rw [evaluate, evaluate]
      refine (evaluate_below below condition number environment).bind fun found => ?_
      refine below_bind fun holds => ?_
      cases holds with
      | true => exact evaluate_below below consequent _ environment
      | false => exact evaluate_below below alternative _ environment

theorem evaluateList_below {call other : Calls} (below : CallsBelow call other) :
    (terms : List Term) -> (number : Nat) -> (environment : Environment) ->
      (evaluateList call number environment terms).Below
        (evaluateList other number environment terms)
  | [], _, _ => .refl _
  | term :: rest, number, environment => by
      rw [evaluateList, evaluateList]
      refine (evaluate_below below term number environment).bind fun value => ?_
      exact (evaluateList_below below rest _ environment).bind fun values => .refl _

end

theorem calls_below {depth more : Nat} (le : depth <= more) :
    CallsBelow (calls depth) (calls more) := by
  induction depth generalizing more with
  | zero => exact fun _ _ _ => below_cutOff _
  | succ depth ih =>
      cases more with
      | zero => cases le
      | succ more =>
          exact fun lambda _ _ => evaluate_below (ih (Nat.le_of_succ_le_succ le)) lambda.body _ _

theorem run_mono {term : Term} {depth more : Nat}
    {ending : Except Failure (Value Lambda × Cells Lambda)} (ended : term.run depth = some ending)
    (le : depth <= more) : term.run more = some ending :=
  evaluate_below (calls_below le) term 1 [] .empty ending ended

theorem Ends.unique {term : Term} {one other : Except Failure (Value Lambda × Cells Lambda)}
    (ends : term.Ends one) (again : term.Ends other) : one = other := by
  rcases ends with ⟨depth, ended⟩
  rcases again with ⟨more, endedAgain⟩
  have first := run_mono ended (Nat.le_max_left depth more)
  have second := run_mono endedAgain (Nat.le_max_right depth more)
  rw [first] at second
  exact Option.some.inj second

theorem runsForever_iff {term : Term} :
    term.RunsForever ↔ forall ending, ¬ term.Ends ending := by
  constructor
  · intro forever ending ends
    rcases ends with ⟨depth, ended⟩
    rw [forever depth] at ended
    cases ended
  · intro endless depth
    cases outcome : term.run depth with
    | none => rfl
    | some ending => exact absurd ⟨depth, outcome⟩ (endless ending)

end Term
end StrictLambda
