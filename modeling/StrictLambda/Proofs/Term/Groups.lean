import StrictLambda.Proofs.Term.Visibility

/-!
# Terms without some of their groups

A group stands for the term inside of it.  So the same variables are free in a term when groups are
removed from it, in the same order, and the same occurrence is rejected first.
-/

namespace StrictLambda
namespace Term

mutual

/-- The second term is the first one without some of its groups, wherever they stand. -/
inductive LosesGroups : Term -> Term -> Prop where
  | var {span : Span} {binding : Binding} : LosesGroups (.var span binding) (.var span binding)
  | abs {span : Span} {parameter : Binding} {body newBody : Term}
      (inside : LosesGroups body newBody) :
      LosesGroups (.abs span parameter body) (.abs span parameter newBody)
  | app {span : Span} {function argument newFunction newArgument : Term}
      (first : LosesGroups function newFunction) (second : LosesGroups argument newArgument) :
      LosesGroups (.app span function argument) (.app span newFunction newArgument)
  | letIn {span : Span} {binding : Binding} {definition body newDefinition newBody : Term}
      (bound : LosesGroups definition newDefinition) (inside : LosesGroups body newBody) :
      LosesGroups (.letIn span binding definition body) (.letIn span binding newDefinition newBody)
  | group {span : Span} {inner newInner : Term} (inside : LosesGroups inner newInner) :
      LosesGroups (.group span inner) (.group span newInner)
  | ungroup {span : Span} {inner newInner : Term} (inside : LosesGroups inner newInner) :
      LosesGroups (.group span inner) newInner
  | dataType {span : Span} {declaration : Declaration} :
      LosesGroups (.dataType span declaration) (.dataType span declaration)
  | data {span : Span} {type newType : Term} {tag : Nat} {fields newFields : List Term}
      (first : LosesGroups type newType) (others : LoseGroups fields newFields) :
      LosesGroups (.data span type tag fields) (.data span newType tag newFields)
  | member {span : Span} {value newValue : Term} {field : Symbol}
      (inside : LosesGroups value newValue) :
      LosesGroups (.member span value field) (.member span newValue field)
  | literal {span : Span} {value : Literal} :
      LosesGroups (.literal span value) (.literal span value)
  | binary {span : Span} {operator : Operator} {lhs rhs newLhs newRhs : Term}
      (first : LosesGroups lhs newLhs) (second : LosesGroups rhs newRhs) :
      LosesGroups (.binary span operator lhs rhs) (.binary span operator newLhs newRhs)
  | cond {span : Span} {condition consequent alternative : Term}
      {newCondition newConsequent newAlternative : Term}
      (tests : LosesGroups condition newCondition) (holds : LosesGroups consequent newConsequent)
      (fails : LosesGroups alternative newAlternative) :
      LosesGroups (.cond span condition consequent alternative)
        (.cond span newCondition newConsequent newAlternative)

inductive LoseGroups : List Term -> List Term -> Prop where
  | nil : LoseGroups [] []
  | cons {term newTerm : Term} {rest newRest : List Term} (first : LosesGroups term newTerm)
      (others : LoseGroups rest newRest) : LoseGroups (term :: rest) (newTerm :: newRest)

end

/-!
## Free variables
-/

mutual

theorem collectFree_of_losesGroups : (term : Term) -> {other : Term} -> (bound : List Nat) ->
    (found : List Binding) -> term.LosesGroups other ->
      collectFree bound found other = collectFree bound found term
  | .var _ _, _, _, _, .var => rfl
  | .abs _ parameter body, _, bound, found, .abs inside => by
      rw [collectFree, collectFree, collectFree_of_losesGroups body _ found inside]
  | .app _ function argument, _, bound, found, .app first second
  | .binary _ _ function argument, _, bound, found, .binary first second => by
      rw [collectFree, collectFree, collectFree_of_losesGroups function bound found first,
        collectFree_of_losesGroups argument bound _ second]
  | .letIn _ binding definition body, _, bound, found, .letIn inDefinition inside => by
      simp only [collectFree]
      rw [collectFree_of_losesGroups definition _ found inDefinition,
        collectFree_of_losesGroups body _ _ inside]
  | .group _ inner, _, bound, found, .group inside
  | .member _ inner _, _, bound, found, .member inside => by
      rw [collectFree, collectFree, collectFree_of_losesGroups inner bound found inside]
  | .group _ inner, _, bound, found, .ungroup inside => by
      rw [collectFree, collectFree_of_losesGroups inner bound found inside]
  | .dataType _ _, _, _, _, .dataType => rfl
  | .data _ type _ fields, _, bound, found, .data first others => by
      rw [collectFree, collectFree, collectFree_of_losesGroups type bound found first,
        collectFreeList_of_loseGroups fields bound _ others]
  | .literal _ _, _, _, _, .literal => rfl
  | .cond _ condition consequent alternative, _, bound, found, .cond tests holds fails => by
      rw [collectFree, collectFree, collectFree_of_losesGroups condition bound found tests,
        collectFree_of_losesGroups consequent bound _ holds,
        collectFree_of_losesGroups alternative bound _ fails]

theorem collectFreeList_of_loseGroups : (terms : List Term) -> {others : List Term} ->
    (bound : List Nat) -> (found : List Binding) -> LoseGroups terms others ->
      collectFreeList bound found others = collectFreeList bound found terms
  | [], _, _, _, .nil => rfl
  | term :: rest, _, bound, found, .cons first others => by
      rw [collectFreeList, collectFreeList, collectFree_of_losesGroups term bound found first,
        collectFreeList_of_loseGroups rest bound _ others]

end

variable {term other : Term}

theorem LosesGroups.freeVariables_eq (loses : term.LosesGroups other) :
    other.freeVariables = term.freeVariables :=
  collectFree_of_losesGroups term [] [] loses

theorem LosesGroups.mentions_eq (loses : term.LosesGroups other) (binding : Binding) :
    other.mentions binding = term.mentions binding := by
  unfold mentions
  rw [loses.freeVariables_eq]

/-!
## Resolving occurrences
-/

theorem LosesGroups.inside_eq (loses : term.LosesGroups other) (binding : Binding)
    (view : List Nat) : other.inside binding view = term.inside binding view := by
  unfold inside
  rw [loses.mentions_eq]

mutual

theorem resolve_of_losesGroups : (term : Term) -> {other : Term} -> (view : List Nat) ->
    term.LosesGroups other -> other.resolve view = term.resolve view
  | .var _ _, _, _, .var => rfl
  | .abs _ _ _, _, view, .abs inside => by
      rw [resolve, resolve, (LosesGroups.abs inside).freeVariables_eq]
  | .app _ function argument, _, view, .app first second
  | .binary _ _ function argument, _, view, .binary first second => by
      rw [resolve, resolve, resolve_of_losesGroups function view first]
      simp only [resolve_of_losesGroups argument _ second]
  | .letIn _ _ definition body, _, view, .letIn inDefinition inside => by
      rw [resolve, resolve, inDefinition.inside_eq,
        resolve_of_losesGroups definition _ inDefinition]
      simp only [resolve_of_losesGroups body _ inside]
  | .group _ inner, _, view, .group inside
  | .member _ inner _, _, view, .member inside => by
      rw [resolve, resolve, resolve_of_losesGroups inner view inside]
  | .group _ inner, _, view, .ungroup inside => by
      rw [resolve, resolve_of_losesGroups inner view inside]
  | .dataType _ _, _, _, .dataType => rfl
  | .data _ type _ fields, _, view, .data first others => by
      rw [resolve, resolve, resolve_of_losesGroups type view first]
      simp only [resolveList_of_loseGroups fields _ others]
  | .literal _ _, _, _, .literal => rfl
  | .cond _ condition consequent alternative, _, view, .cond tests holds fails => by
      rw [resolve, resolve, resolve_of_losesGroups condition view tests]
      simp only [resolve_of_losesGroups consequent _ holds,
        resolve_of_losesGroups alternative _ fails]

theorem resolveList_of_loseGroups : (terms : List Term) -> {others : List Term} ->
    (view : List Nat) -> LoseGroups terms others ->
      resolveList view others = resolveList view terms
  | [], _, _, .nil => rfl
  | term :: rest, _, view, .cons first others => by
      rw [resolveList, resolveList, resolve_of_losesGroups term view first]
      simp only [resolveList_of_loseGroups rest _ others]

end

end Term
end StrictLambda
