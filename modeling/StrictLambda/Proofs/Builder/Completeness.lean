import StrictLambda.Proofs.Builder.Visibility

/-!
# The rules of construction are complete

Whatever a plan does when it succeeds is one of the constructions that the rules allow, whether or
not the variables of the term are where they belong.  So a block that is built at all can be laid
out, and a variable without a binding is all that can be wrong with a term.
-/

namespace StrictLambda
namespace Block

open Building Plan

/-!
## Successful runs
-/

namespace Building

variable {First Second : Type} {first : Building First} {rest : First -> Building Second}
  {draft after : Draft} {span : Span}

theorem of_run_bind {result : Second}
    (done : (first >>= rest).run draft = .ok (result, after)) :
    exists value middle, first.run draft = .ok (value, middle) ∧
      (rest value).run middle = .ok (result, after) := by
  rw [StateT.run_bind] at done
  rcases bind_eq_ok_iff.mp done with ⟨⟨value, middle⟩, ran, continued⟩
  exact ⟨value, middle, ran, continued⟩

theorem of_run_lookup {binding : Binding} {place : Local}
    (done : (lookup span binding).run draft = .ok (place, after)) :
    after = draft ∧ draft.locals.get? binding = some place := by
  unfold lookup at done
  rcases of_run_bind done with ⟨seen, middle, ran, done⟩
  cases ran
  cases found : draft.locals.get? binding with
  | none =>
      rw [found] at done
      cases done
  | some own =>
      rw [found] at done
      cases done
      exact ⟨rfl, rfl⟩

theorem of_run_lookupAll {bindings : List Binding} {captures : List (Binding × Local)}
    (done : (lookupAll span bindings).run draft = .ok (captures, after)) :
    after = draft ∧ captures.map Prod.fst = bindings ∧
      forall capture, capture ∈ captures -> draft.locals.get? capture.1 = some capture.2 := by
  induction bindings generalizing draft captures after with
  | nil =>
      cases done
      exact ⟨rfl, rfl, fun _ member => nomatch member⟩
  | cons binding rest ih =>
      rw [lookupAll] at done
      rcases of_run_bind done with ⟨place, middle, here, looked⟩
      rcases of_run_lookup here with ⟨rfl, found⟩
      rcases of_run_bind looked with ⟨places, last, later, ended⟩
      rcases ih later with ⟨rfl, free, others⟩
      cases ended
      exact ⟨rfl, congrArg (binding :: ·) free, List.forall_mem_cons.mpr ⟨found, others⟩⟩

theorem of_close {parameters : Nat} {locals : Locals} {body : Building Unit} {block : Block}
    (closed : close parameters locals span body = .ok block) :
    exists inner, body.run (Draft.start parameters locals) = .ok ((), inner) ∧
      block = .mk parameters inner.nodes.toList span := by
  rcases bind_eq_ok_iff.mp closed with ⟨⟨⟨⟩, inner⟩, ran, last⟩
  cases last
  exact ⟨inner, ran, rfl⟩

end Building

/-!
## Terms
-/

structure Ruled (term : Term) : Prop where
  value : forall {draft after : Draft} {register : Register},
    Planned (.value term register) draft after -> Builds (.value term register) draft after
  tail : forall {site : Site} {draft after : Draft},
    Planned (.tail site term) draft after -> Builds (.tail site term) draft after

theorem ruled_of_value {term : Term} (needed : forall site : Site, site.needsValue term = true)
    (plain : plan term = .ofValue term.span (plan term).value)
    (value : forall {draft after : Draft} {register : Register},
      Planned (.value term register) draft after -> Builds (.value term register) draft after) :
    Ruled term := by
  refine ⟨value, ?_⟩
  intro site draft after done
  rw [Planned, plain] at done
  rcases of_run_bind done with ⟨register, middle, ran, done⟩
  cases done
  exact .leave (needed site) (value ran)

theorem builds_of_planned_values {terms : List Term}
    (ruled : forall term, term ∈ terms -> Ruled term) {registers : List Register}
    {draft after : Draft} (done : Planned (.values terms registers) draft after) :
    Builds (.values terms registers) draft after := by
  induction terms generalizing registers draft with
  | nil =>
      cases done
      exact .none
  | cons term rest ih =>
      rcases List.forall_mem_cons.mp ruled with ⟨here, later⟩
      rw [Planned, planList, Plan.values] at done
      rcases of_run_bind done with ⟨register, middle, first, done⟩
      rcases of_run_bind done with ⟨others, last, ran, done⟩
      cases done
      exact .more (here.value first) (ih later ran)

section Terms

variable {span : Span} {binding : Binding} {draft after : Draft}
  {definition body inner function argument condition consequent alternative : Term}

theorem ruled_var : Ruled (.var span binding) := by
  apply ruled_of_value (fun _ => rfl) (by rw [plan]; rfl)
  intro draft after register done
  rw [Planned, plan] at done
  rcases of_run_bind done with ⟨place, middle, ran, produced⟩
  rcases of_run_lookup ran with ⟨rfl, found⟩
  cases produced
  exact .var found

theorem ruled_abs (ruled : Ruled body) : Ruled (.abs span binding body) := by
  apply ruled_of_value (fun _ => rfl) (by rw [plan]; rfl)
  intro draft after register done
  rw [Planned, plan] at done
  rcases of_run_bind done with ⟨captures, middle, ran, created⟩
  rcases of_run_lookupAll ran with ⟨rfl, free, found⟩
  rcases of_run_bind created with ⟨block, last, closed, produced⟩
  cases outcome : close (captures.length + 1) (.ofFunction binding captures) span
      ((plan body).tail .functionBody) with
  | error failure =>
      rw [outcome] at closed
      cases closed
  | ok own =>
      rw [outcome] at closed
      cases closed
      cases produced
      rcases of_close outcome with ⟨inner, built, rfl⟩
      exact .abs free found (ruled.tail built)

theorem builds_operands (first : Ruled function) (second : Ruled argument) {callee value : Register}
    {middle : Draft} (ran : Planned (.value function callee) draft middle)
    (later : Planned (.value argument value) middle after) :
    Builds (.values [function, argument] [callee, value]) draft after :=
  .more (first.value ran) (.more (second.value later) .none)

theorem ruled_app (first : Ruled function) (second : Ruled argument) :
    Ruled (.app span function argument) := by
  have value : forall {draft after : Draft} {register : Register},
      Planned (.value (.app span function argument) register) draft after ->
        Builds (.value (.app span function argument) register) draft after := by
    intro draft after register done
    rw [Planned, plan] at done
    rcases of_run_bind done with ⟨callee, middle, ran, done⟩
    rcases of_run_bind done with ⟨source, last, later, done⟩
    cases done
    exact .combine .app (builds_operands first second ran later)
  refine ⟨value, ?_⟩
  intro site draft after done
  rw [Planned, plan] at done
  cases site with
  | topLevel =>
      rcases of_run_bind done with ⟨register, middle, ran, done⟩
      cases done
      have built : Planned (.value (.app span function argument) register) draft middle := by
        rw [Planned, plan]
        exact ran
      exact .leave rfl (value built)
  | functionBody =>
      rcases of_run_bind done with ⟨callee, middle, ran, done⟩
      rcases of_run_bind done with ⟨source, last, later, done⟩
      cases done
      exact .tailCall (builds_operands first second ran later)

theorem ruled_binary {operator : Operator} (first : Ruled function) (second : Ruled argument) :
    Ruled (.binary span operator function argument) := by
  apply ruled_of_value (fun _ => rfl) (by rw [plan]; rfl)
  intro draft after register done
  rw [Planned, plan] at done
  rcases of_run_bind done with ⟨left, middle, ran, done⟩
  rcases of_run_bind done with ⟨right, last, later, done⟩
  cases done
  exact .combine .binary (builds_operands first second ran later)

theorem ruled_member {field : Symbol} (ruled : Ruled inner) :
    Ruled (.member span inner field) := by
  apply ruled_of_value (fun _ => rfl) (by rw [plan]; rfl)
  intro draft after register done
  rw [Planned, plan] at done
  rcases of_run_bind done with ⟨source, middle, ran, done⟩
  cases done
  exact .combine .member (.more (ruled.value ran) .none)

theorem ruled_data {tag : Nat} {fields : List Term} (ruled : Ruled inner)
    (all : forall field, field ∈ fields -> Ruled field) : Ruled (.data span inner tag fields) := by
  apply ruled_of_value (fun _ => rfl) (by rw [plan]; rfl)
  intro draft after register done
  rw [Planned, plan] at done
  rcases of_run_bind done with ⟨first, middle, ran, done⟩
  rcases of_run_bind done with ⟨others, last, later, done⟩
  cases done
  exact .combine .data (.more (ruled.value ran) (builds_of_planned_values all later))

theorem ruled_literal {value : Literal} : Ruled (.literal span value) := by
  apply ruled_of_value (fun _ => rfl) (by rw [plan]; rfl)
  intro draft after register done
  rw [Planned, plan] at done
  cases done
  exact .combine .literal .none

theorem ruled_dataType {declaration : Declaration} : Ruled (.dataType span declaration) := by
  apply ruled_of_value (fun _ => rfl) (by rw [plan]; rfl)
  intro draft after register done
  rw [Planned, plan] at done
  cases done
  exact .combine .dataType .none

theorem ruled_group (ruled : Ruled inner) : Ruled (.group span inner) := by
  constructor
  · intro draft after register done
    rw [Planned, plan] at done
    exact .group (ruled.value done)
  · intro site draft after done
    rw [Planned, plan] at done
    exact .tailGroup (ruled.tail done)

theorem builds_of_planned_bind (ruled : Ruled definition)
    (done : Planned (.bind span binding definition) draft after) :
    Builds (.bind span binding definition) draft after := by
  rw [Planned] at done
  unfold bindLocal at done
  cases mentions : definition.mentions binding with
  | false =>
      rw [if_neg (by simp [mentions])] at done
      rcases of_run_bind done with ⟨register, middle, ran, done⟩
      cases done
      exact .bindPlain mentions (ruled.value ran)
  | true =>
      rw [if_pos mentions, run_bind (run_produce _ _), run_bind (run_define _ _ _ _)] at done
      rcases of_run_bind done with ⟨register, middle, ran, done⟩
      cases done
      exact .bindRecursive mentions (ruled.value ran)

theorem ruled_letIn (first : Ruled definition) (second : Ruled body) :
    Ruled (.letIn span binding definition body) := by
  constructor
  · intro draft after register done
    rw [Planned, plan] at done
    rcases of_run_bind done with ⟨_, middle, bound, done⟩
    exact .letIn (builds_of_planned_bind first bound) (second.value done)
  · intro site draft after done
    rw [Planned, plan] at done
    rcases of_run_bind done with ⟨_, middle, bound, done⟩
    exact .tailLetIn (builds_of_planned_bind first bound) (second.tail done)

theorem ruled_cond (test : Ruled condition) (first : Ruled consequent)
    (second : Ruled alternative) : Ruled (.cond span condition consequent alternative) := by
  constructor
  · intro draft after register done
    rw [Planned, plan] at done
    rcases of_run_bind done with ⟨tested, middle, tests, done⟩
    rw [run_bind (run_freshRegister _), run_bind (run_freshLabel _),
      run_bind (run_freshLabel _), run_bind (run_emit _ _)] at done
    rcases of_run_bind done with ⟨left, branch, holds, done⟩
    rw [run_bind (run_emitOperation _ _ _), run_bind (run_emit _ _),
      run_bind (run_emit _ _)] at done
    rcases of_run_bind done with ⟨right, last, fails, done⟩
    cases done
    exact .cond (test.value tests) (first.value holds) (second.value fails)
  · intro site draft after done
    rw [Planned, plan] at done
    rcases of_run_bind done with ⟨tested, middle, tests, done⟩
    rw [run_bind (run_freshLabel _), run_bind (run_emit _ _)] at done
    rcases of_run_bind done with ⟨_, branch, holds, done⟩
    rw [run_bind (run_emit _ _)] at done
    exact .tailCond (test.value tests) (first.tail holds) (second.tail done)

end Terms

mutual

theorem ruled : (term : Term) -> Ruled term
  | .var _ _ => ruled_var
  | .abs _ _ body => ruled_abs (ruled body)
  | .app _ function argument => ruled_app (ruled function) (ruled argument)
  | .letIn _ _ definition body => ruled_letIn (ruled definition) (ruled body)
  | .group _ inner => ruled_group (ruled inner)
  | .dataType _ _ => ruled_dataType
  | .data _ type _ fields => ruled_data (ruled type) (ruled_of_mem fields)
  | .member _ value _ => ruled_member (ruled value)
  | .literal _ _ => ruled_literal
  | .binary _ _ lhs rhs => ruled_binary (ruled lhs) (ruled rhs)
  | .cond _ condition consequent alternative =>
      ruled_cond (ruled condition) (ruled consequent) (ruled alternative)

theorem ruled_of_mem : (terms : List Term) -> forall term, term ∈ terms -> Ruled term
  | [] => List.forall_mem_nil _
  | term :: rest => List.forall_mem_cons.mpr ⟨ruled term, ruled_of_mem rest⟩

end

/-!
## Blocks and programs
-/

theorem acceptable_of_ofTerm {term : Term} {block : Block} (built : ofTerm term = .ok block) :
    block.Acceptable := by
  rcases of_close built with ⟨inner, ran, rfl⟩
  exact acceptable_of_builds ((ruled term).tail ran) term.span

end Block

namespace Program

theorem exists_ofBlock_of_ofTerm {term : Term} {block : Block}
    (built : Block.ofTerm term = .ok block) : exists program, ofBlock block = .ok program :=
  exists_ofBlock (Block.acceptable_of_ofTerm built)

theorem exists_unbound_of_ofTerm {term : Term} {failure : Failure}
    (rejected : ofTerm term = .error failure) :
    exists name span, failure = .defect (.unboundVariable name) (some span) := by
  rcases bind_eq_error_iff.mp rejected with rejected | ⟨block, built, rejected⟩
  · exact Term.rejectsUnseen_resolve term [] failure
      ((Block.ofTerm_eq_error_iff term failure).mp rejected)
  · rcases exists_ofBlock_of_ofTerm built with ⟨program, accepted⟩
    cases accepted.symm.trans rejected

/-- The two passes fit together.  Every block that is built is laid out, so all that can be wrong
with a term is a variable without a binding, and nothing is wrong with a term that has no free
variables. -/
theorem ofTerm_passes_fit (term : Term) :
    (forall block, Block.ofTerm term = .ok block ->
      block.Acceptable ∧ exists program, ofBlock block = .ok program) ∧
    (forall failure, ofTerm term = .error failure ->
      exists name span, failure = .defect (.unboundVariable name) (some span)) ∧
    (term.freeVariables = [] -> exists program, ofTerm term = .ok program) := by
  refine ⟨?_, fun _ rejected => exists_unbound_of_ofTerm rejected, ?_⟩
  · intro block built
    exact ⟨Block.acceptable_of_ofTerm built, exists_ofBlock_of_ofTerm built⟩
  · intro closed
    rcases Block.exists_ofTerm closed with ⟨block, built⟩
    rcases exists_ofBlock_of_ofTerm built with ⟨program, accepted⟩
    exact ⟨program, bind_eq_ok_iff.mpr ⟨block, built, accepted⟩⟩

def shadowingFunction : Term :=
  let span : Span := ⟨⟨0⟩, 0, 0⟩
  let binding : Binding := ⟨⟨1⟩, 0⟩
  .abs span binding
    (.letIn span binding (.abs span binding (.app span (.var span binding) (.var span binding)))
      (.abs span binding (.var span binding)))

theorem ofTerm_passes_fit_shadowingFunction :
    shadowingFunction.freeVariables = [] ∧
      (exists block, Block.ofTerm shadowingFunction = .ok block ∧ block.Acceptable) ∧
        exists program, ofTerm shadowingFunction = .ok program := by
  have closed : shadowingFunction.freeVariables = [] := rfl
  rcases ofTerm_passes_fit shadowingFunction with ⟨accepted, _, compiled⟩
  rcases Block.exists_ofTerm closed with ⟨block, built⟩
  exact ⟨closed, ⟨block, built, (accepted block built).1⟩, compiled closed⟩

end Program
end StrictLambda
