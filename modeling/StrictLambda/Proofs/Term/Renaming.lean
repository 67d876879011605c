import Mathlib.Data.List.Basic
import StrictLambda.Proofs.Block.Spans
import StrictLambda.Proofs.Term.Visibility

/-!
# Terms with other numbers, spans and names

Two terms of the same structure can differ in the numbers of their bindings, in their spans and in
the names of their variables.  As long as different numbers stay different, the same occurrences are
free in both and the same one is rejected first.
-/

namespace StrictLambda

/-!
## Changes
-/

/-- New numbers, different ones for different bindings, and new spans. -/
structure Change where
  ids : Nat -> Nat
  injective : Function.Injective ids
  spans : Span -> Span

namespace Change

def same : Change where
  ids := id
  injective := fun _ _ same => same
  spans := id

def binding (change : Change) (names : Symbol -> Symbol) (binding : Binding) : Binding where
  name := names binding.name
  id := change.ids binding.id

theorem mem_map_ids (change : Change) {id : Nat} {view : List Nat} :
    change.ids id ∈ view.map change.ids ↔ id ∈ view :=
  List.mem_map_of_injective change.injective

end Change

namespace Term

abbrev RenamedBy (names : Symbol -> Symbol) (old new : Symbol) : Prop :=
  new = names old

mutual

/-- The second term is the first one after the change.  An occurrence gets a name that is allowed
for its old one, and a binder may get any name. -/
inductive Becomes (change : Change) (renames : Symbol -> Symbol -> Prop) :
    Term -> Term -> Prop where
  | var {span : Span} {binding : Binding} {name : Symbol}
      (renamed : renames binding.name name) :
      Becomes change renames (.var span binding)
        (.var (change.spans span) ⟨name, change.ids binding.id⟩)
  | abs {span : Span} {parameter : Binding} {name : Symbol} {body newBody : Term}
      (inside : Becomes change renames body newBody) :
      Becomes change renames (.abs span parameter body)
        (.abs (change.spans span) ⟨name, change.ids parameter.id⟩ newBody)
  | app {span : Span} {function argument newFunction newArgument : Term}
      (first : Becomes change renames function newFunction)
      (second : Becomes change renames argument newArgument) :
      Becomes change renames (.app span function argument)
        (.app (change.spans span) newFunction newArgument)
  | letIn {span : Span} {binding : Binding} {name : Symbol}
      {definition body newDefinition newBody : Term}
      (bound : Becomes change renames definition newDefinition)
      (inside : Becomes change renames body newBody) :
      Becomes change renames (.letIn span binding definition body)
        (.letIn (change.spans span) ⟨name, change.ids binding.id⟩ newDefinition newBody)
  | group {span : Span} {inner newInner : Term} (inside : Becomes change renames inner newInner) :
      Becomes change renames (.group span inner) (.group (change.spans span) newInner)
  | dataType {span : Span} {declaration : Declaration} :
      Becomes change renames (.dataType span declaration)
        (.dataType (change.spans span) declaration)
  | data {span : Span} {type newType : Term} {tag : Nat} {fields newFields : List Term}
      (first : Becomes change renames type newType)
      (others : BecomeAll change renames fields newFields) :
      Becomes change renames (.data span type tag fields)
        (.data (change.spans span) newType tag newFields)
  | member {span : Span} {value newValue : Term} {field : Symbol}
      (inside : Becomes change renames value newValue) :
      Becomes change renames (.member span value field)
        (.member (change.spans span) newValue field)
  | literal {span : Span} {value : Literal} :
      Becomes change renames (.literal span value) (.literal (change.spans span) value)
  | binary {span : Span} {operator : Operator} {lhs rhs newLhs newRhs : Term}
      (first : Becomes change renames lhs newLhs) (second : Becomes change renames rhs newRhs) :
      Becomes change renames (.binary span operator lhs rhs)
        (.binary (change.spans span) operator newLhs newRhs)
  | cond {span : Span} {condition consequent alternative : Term}
      {newCondition newConsequent newAlternative : Term}
      (tests : Becomes change renames condition newCondition)
      (holds : Becomes change renames consequent newConsequent)
      (fails : Becomes change renames alternative newAlternative) :
      Becomes change renames (.cond span condition consequent alternative)
        (.cond (change.spans span) newCondition newConsequent newAlternative)

inductive BecomeAll (change : Change) (renames : Symbol -> Symbol -> Prop) :
    List Term -> List Term -> Prop where
  | nil : BecomeAll change renames [] []
  | cons {term newTerm : Term} {rest newRest : List Term}
      (first : Becomes change renames term newTerm)
      (others : BecomeAll change renames rest newRest) :
      BecomeAll change renames (term :: rest) (newTerm :: newRest)

end

/-- The terms have the same structure.  They differ by the change, and in the names of variables. -/
def SharesStructure (change : Change) (term other : Term) : Prop :=
  term.Becomes change (fun _ _ => True) other

theorem Becomes.span_eq {change : Change} {renames : Symbol -> Symbol -> Prop}
    {term other : Term} (becomes : term.Becomes change renames other) :
    other.span = change.spans term.span := by
  cases becomes <;> rfl

mutual

theorem becomes_same : (term : Term) -> term.SharesStructure .same term
  | .var _ _ => .var trivial
  | .abs _ _ body => .abs (becomes_same body)
  | .app _ function argument => .app (becomes_same function) (becomes_same argument)
  | .letIn _ _ definition body => .letIn (becomes_same definition) (becomes_same body)
  | .group _ inner => .group (becomes_same inner)
  | .dataType _ _ => .dataType
  | .data _ type _ fields => .data (becomes_same type) (becomeAll_same fields)
  | .member _ value _ => .member (becomes_same value)
  | .literal _ _ => .literal
  | .binary _ _ lhs rhs => .binary (becomes_same lhs) (becomes_same rhs)
  | .cond _ condition consequent alternative =>
      .cond (becomes_same condition) (becomes_same consequent) (becomes_same alternative)

theorem becomeAll_same : (terms : List Term) -> BecomeAll .same (fun _ _ => True) terms terms
  | [] => .nil
  | term :: rest => .cons (becomes_same term) (becomeAll_same rest)

end

/-!
## Occurrences
-/

mutual

def occurrences : Term -> List Binding
  | .var _ binding => [binding]
  | .abs _ _ body => body.occurrences
  | .app _ function argument => function.occurrences ++ argument.occurrences
  | .letIn _ _ definition body => definition.occurrences ++ body.occurrences
  | .group _ inner => inner.occurrences
  | .dataType _ _ => []
  | .data _ type _ fields => type.occurrences ++ occurrencesAll fields
  | .member _ value _ => value.occurrences
  | .literal _ _ => []
  | .binary _ _ lhs rhs => lhs.occurrences ++ rhs.occurrences
  | .cond _ condition consequent alternative =>
      condition.occurrences ++ (consequent.occurrences ++ alternative.occurrences)

def occurrencesAll : List Term -> List Binding
  | [] => []
  | term :: rest => term.occurrences ++ occurrencesAll rest

end

mutual

/-- Names every occurrence of a variable by its number, counted from the given one on. -/
def enumerate (start : Nat) : Term -> Term
  | .var span binding => .var span { binding with name := ⟨start⟩ }
  | .abs span parameter body => .abs span parameter (body.enumerate start)
  | .app span function argument =>
      .app span (function.enumerate start)
        (argument.enumerate (start + function.occurrences.length))
  | .letIn span binding definition body =>
      .letIn span binding (definition.enumerate start)
        (body.enumerate (start + definition.occurrences.length))
  | .group span inner => .group span (inner.enumerate start)
  | .dataType span declaration => .dataType span declaration
  | .data span type tag fields =>
      .data span (type.enumerate start) tag (enumerateAll (start + type.occurrences.length) fields)
  | .member span value field => .member span (value.enumerate start) field
  | .literal span value => .literal span value
  | .binary span operator lhs rhs =>
      .binary span operator (lhs.enumerate start) (rhs.enumerate (start + lhs.occurrences.length))
  | .cond span condition consequent alternative =>
      let second := start + condition.occurrences.length
      .cond span (condition.enumerate start) (consequent.enumerate second)
        (alternative.enumerate (second + consequent.occurrences.length))

def enumerateAll (start : Nat) : List Term -> List Term
  | [] => []
  | term :: rest => term.enumerate start :: enumerateAll (start + term.occurrences.length) rest

end

def NamedBy (names : Symbol -> Symbol) (start : Nat) (bindings : List Binding) : Prop :=
  forall index binding, bindings[index]? = some binding ->
    names ⟨start + index⟩ = binding.name

theorem NamedBy.left {names : Symbol -> Symbol} {start : Nat} {first second : List Binding}
    (named : NamedBy names start (first ++ second)) : NamedBy names start first := by
  intro index binding found
  have inside := (List.getElem?_eq_some_iff.mp found).1
  exact named index binding ((List.getElem?_append_left inside).trans found)

theorem NamedBy.right {names : Symbol -> Symbol} {start : Nat} {first second : List Binding}
    (named : NamedBy names start (first ++ second)) :
    NamedBy names (start + first.length) second := by
  intro index binding found
  rw [Nat.add_assoc]
  refine named _ binding ?_
  rw [List.getElem?_append_right (Nat.le_add_right _ _), Nat.add_sub_cancel_left, found]

def nameAt (default : Symbol) (term : Term) (number : Symbol) : Symbol :=
  match term.occurrences[number.index]? with
  | some binding => binding.name
  | none => default

theorem namedBy_nameAt (default : Symbol) (term : Term) :
    NamedBy (term.nameAt default) 0 term.occurrences := by
  intro index binding found
  unfold nameAt
  rw [Nat.zero_add, found]

variable {change : Change} {renames : Symbol -> Symbol -> Prop} {names : Symbol -> Symbol}

mutual

theorem Becomes.length_occurrences : (term : Term) -> {other : Term} ->
    term.Becomes change renames other -> other.occurrences.length = term.occurrences.length
  | .var _ _, _, .var _ => rfl
  | .abs _ _ inner, _, .abs inside | .group _ inner, _, .group inside
  | .member _ inner _, _, .member inside => by
      rw [occurrences, occurrences, Becomes.length_occurrences inner inside]
  | .app _ function argument, _, .app first second
  | .letIn _ _ function argument, _, .letIn first second
  | .binary _ _ function argument, _, .binary first second => by
      rw [occurrences, occurrences, List.length_append, List.length_append,
        Becomes.length_occurrences function first, Becomes.length_occurrences argument second]
  | .dataType _ _, _, .dataType => rfl
  | .data _ type _ fields, _, .data first others => by
      rw [occurrences, occurrences, List.length_append, List.length_append,
        Becomes.length_occurrences type first, BecomeAll.length_occurrences fields others]
  | .literal _ _, _, .literal => rfl
  | .cond _ condition consequent alternative, _, .cond tests holds fails => by
      simp only [occurrences, List.length_append, Becomes.length_occurrences condition tests,
        Becomes.length_occurrences consequent holds, Becomes.length_occurrences alternative fails]

theorem BecomeAll.length_occurrences : (terms : List Term) -> {others : List Term} ->
    BecomeAll change renames terms others ->
      (occurrencesAll others).length = (occurrencesAll terms).length
  | [], _, .nil => rfl
  | term :: rest, _, .cons first others => by
      rw [occurrencesAll, occurrencesAll, List.length_append, List.length_append,
        Becomes.length_occurrences term first, BecomeAll.length_occurrences rest others]

end

mutual

/-- When its occurrences are named by their numbers, a term becomes each of the terms that it can
become at all, by a function on the names. -/
theorem becomes_enumerate : (term : Term) -> {other : Term} -> {start : Nat} ->
    term.Becomes change renames other -> NamedBy names start other.occurrences ->
      (term.enumerate start).Becomes change (RenamedBy names) other
  | .var _ _, _, _, .var _, named => .var (named 0 _ rfl).symm
  | .abs _ _ body, _, _, .abs inside, named => .abs (becomes_enumerate body inside named)
  | .app _ function argument, _, _, .app first second, named => by
      have behind := named.right
      rw [first.length_occurrences] at behind
      exact .app (becomes_enumerate function first named.left)
        (becomes_enumerate argument second behind)
  | .letIn _ _ definition body, _, _, .letIn bound inside, named => by
      have behind := named.right
      rw [bound.length_occurrences] at behind
      exact .letIn (becomes_enumerate definition bound named.left)
        (becomes_enumerate body inside behind)
  | .group _ inner, _, _, .group inside, named => .group (becomes_enumerate inner inside named)
  | .dataType _ _, _, _, .dataType, _ => .dataType
  | .data _ type _ fields, _, _, .data first others, named => by
      have behind := named.right
      rw [first.length_occurrences] at behind
      exact .data (becomes_enumerate type first named.left)
        (becomeAll_enumerateAll fields others behind)
  | .member _ value _, _, _, .member inside, named =>
      .member (becomes_enumerate value inside named)
  | .literal _ _, _, _, .literal, _ => .literal
  | .binary _ _ lhs rhs, _, _, .binary first second, named => by
      have behind := named.right
      rw [first.length_occurrences] at behind
      exact .binary (becomes_enumerate lhs first named.left)
        (becomes_enumerate rhs second behind)
  | .cond _ condition consequent alternative, _, _, .cond tests holds fails, named => by
      have behind := named.right
      have last := behind.right
      rw [tests.length_occurrences] at behind last
      rw [holds.length_occurrences] at last
      exact .cond (becomes_enumerate condition tests named.left)
        (becomes_enumerate consequent holds behind.left)
        (becomes_enumerate alternative fails last)

theorem becomeAll_enumerateAll : (terms : List Term) -> {others : List Term} -> {start : Nat} ->
    BecomeAll change renames terms others -> NamedBy names start (occurrencesAll others) ->
      BecomeAll change (RenamedBy names) (enumerateAll start terms) others
  | [], _, _, .nil, _ => .nil
  | term :: rest, _, _, .cons first others, named => by
      have behind := named.right
      rw [first.length_occurrences] at behind
      exact .cons (becomes_enumerate term first named.left)
        (becomeAll_enumerateAll rest others behind)

end

/-!
## Free variables
-/

mutual

theorem collectFree_of_becomes : (term : Term) -> {other : Term} -> (bound : List Nat) ->
    (found : List Binding) -> term.Becomes change (RenamedBy names) other ->
      collectFree (bound.map change.ids) (found.map (change.binding names)) other =
        (collectFree bound found term).map (change.binding names)
  | .var _ binding, _, bound, found, .var renamed => by
      subst renamed
      have seen : (bound.map change.ids).contains (change.ids binding.id) =
          bound.contains binding.id := by
        simp only [List.contains_eq_mem, change.mem_map_ids]
      have known : (found.map (change.binding names)).any
            (fun earlier => earlier.id == change.ids binding.id) =
          found.any (fun earlier => earlier.id == binding.id) := by
        rw [List.any_map]
        refine congrArg found.any ?_
        funext earlier
        exact change.injective.beq_eq
      rw [collectFree, collectFree, seen, known]
      split
      · rfl
      · rw [List.map_append]
        rfl
  | .abs _ parameter body, _, bound, found, .abs inside => by
      simp only [collectFree]
      rw [← List.map_cons, collectFree_of_becomes body _ found inside]
  | .app _ function argument, _, bound, found, .app first second
  | .binary _ _ function argument, _, bound, found, .binary first second => by
      rw [collectFree, collectFree, collectFree_of_becomes function bound found first,
        collectFree_of_becomes argument bound _ second]
  | .letIn _ binding definition body, _, bound, found, .letIn inDefinition inside => by
      simp only [collectFree]
      rw [← List.map_cons, collectFree_of_becomes definition _ found inDefinition,
        collectFree_of_becomes body _ _ inside]
  | .group _ inner, _, bound, found, .group inside
  | .member _ inner _, _, bound, found, .member inside => by
      rw [collectFree, collectFree, collectFree_of_becomes inner bound found inside]
  | .dataType _ _, _, _, _, .dataType => rfl
  | .data _ type _ fields, _, bound, found, .data first others => by
      rw [collectFree, collectFree, collectFree_of_becomes type bound found first,
        collectFreeList_of_becomeAll fields bound _ others]
  | .literal _ _, _, _, _, .literal => rfl
  | .cond _ condition consequent alternative, _, bound, found, .cond tests holds fails => by
      rw [collectFree, collectFree, collectFree_of_becomes condition bound found tests,
        collectFree_of_becomes consequent bound _ holds,
        collectFree_of_becomes alternative bound _ fails]

theorem collectFreeList_of_becomeAll : (terms : List Term) -> {others : List Term} ->
    (bound : List Nat) -> (found : List Binding) ->
    BecomeAll change (RenamedBy names) terms others ->
      collectFreeList (bound.map change.ids) (found.map (change.binding names)) others =
        (collectFreeList bound found terms).map (change.binding names)
  | [], _, _, _, .nil => rfl
  | term :: rest, _, bound, found, .cons first others => by
      rw [collectFreeList, collectFreeList, collectFree_of_becomes term bound found first,
        collectFreeList_of_becomeAll rest bound _ others]

end

variable {term other : Term}

theorem Becomes.freeVariables_eq
    (becomes : term.Becomes change (RenamedBy names) other) :
    other.freeVariables = term.freeVariables.map (change.binding names) :=
  collectFree_of_becomes term [] [] becomes

theorem Becomes.mentions_eq
    (becomes : term.Becomes change (RenamedBy names) other)
    (binding : Binding) (name : Symbol) :
    other.mentions ⟨name, change.ids binding.id⟩ = term.mentions binding := by
  unfold mentions
  rw [becomes.freeVariables_eq, List.any_map]
  refine congrArg (List.any _) ?_
  funext free
  exact change.injective.beq_eq

/-!
## Resolving occurrences
-/

def recastOutcome (change : Change) (names : Symbol -> Symbol)
    (outcome : Except Failure (List Nat)) : Except Failure (List Nat) :=
  (outcome.mapError (Failure.recast names change.spans)).map (List.map change.ids)

theorem bind_eq_recastOutcome {first second : Except Failure (List Nat)}
    {rest others : List Nat -> Except Failure (List Nat)}
    (same : second = recastOutcome change names first)
    (continued : forall view,
      others (view.map change.ids) = recastOutcome change names (rest view)) :
    second >>= others = recastOutcome change names (first >>= rest) := by
  unfold recastOutcome
  rw [mapError_bind]
  exact bind_eq_map same continued

theorem require_recast (span : Span) (view : List Nat) (bindings : List Binding) :
    require (change.spans span) (view.map change.ids) (bindings.map (change.binding names)) =
      recastOutcome change names (require span view bindings) := by
  induction bindings with
  | nil => rfl
  | cons binding rest ih =>
      rw [List.map_cons, require, require, Change.binding]
      simp only [change.mem_map_ids]
      split
      · exact ih
      · rfl

theorem Becomes.inside_eq
    (becomes : term.Becomes change (RenamedBy names) other) (binding : Binding)
    (name : Symbol) (view : List Nat) :
    other.inside ⟨name, change.ids binding.id⟩ (view.map change.ids) =
      (term.inside binding view).map change.ids := by
  unfold inside
  rw [becomes.mentions_eq]
  split <;> rfl

mutual

theorem resolve_of_becomes : (term : Term) -> {other : Term} -> (view : List Nat) ->
    term.Becomes change (RenamedBy names) other ->
      other.resolve (view.map change.ids) = recastOutcome change names (term.resolve view)
  | .var span binding, _, view, .var renamed => by
      subst renamed
      exact require_recast span view [binding]
  | .abs span parameter body, _, view, .abs inside => by
      rw [resolve, resolve, (Becomes.abs inside).freeVariables_eq]
      exact require_recast span view _
  | .app _ function argument, _, view, .app first second
  | .binary _ _ function argument, _, view, .binary first second => by
      rw [resolve, resolve]
      exact bind_eq_recastOutcome (resolve_of_becomes function view first)
        fun view => resolve_of_becomes argument view second
  | .letIn _ binding definition body, _, view, .letIn inDefinition inside => by
      rw [resolve, resolve, inDefinition.inside_eq]
      exact bind_eq_recastOutcome (resolve_of_becomes definition _ inDefinition)
        fun view => resolve_of_becomes body (binding.id :: view) inside
  | .group _ inner, _, view, .group inside
  | .member _ inner _, _, view, .member inside => by
      rw [resolve, resolve, resolve_of_becomes inner view inside]
  | .dataType _ _, _, _, .dataType => rfl
  | .data _ type _ fields, _, view, .data first others => by
      rw [resolve, resolve]
      exact bind_eq_recastOutcome (resolve_of_becomes type view first)
        fun view => resolveList_of_becomeAll fields view others
  | .literal _ _, _, _, .literal => rfl
  | .cond _ condition consequent alternative, _, view, .cond tests holds fails => by
      rw [resolve, resolve]
      exact bind_eq_recastOutcome (resolve_of_becomes condition view tests)
        fun view => bind_eq_recastOutcome (resolve_of_becomes consequent view holds)
          fun view => resolve_of_becomes alternative view fails

theorem resolveList_of_becomeAll : (terms : List Term) -> {others : List Term} ->
    (view : List Nat) -> BecomeAll change (RenamedBy names) terms others ->
      resolveList (view.map change.ids) others =
        recastOutcome change names (resolveList view terms)
  | [], _, _, .nil => rfl
  | term :: rest, _, view, .cons first others => by
      rw [resolveList, resolveList]
      exact bind_eq_recastOutcome (resolve_of_becomes term view first)
        fun view => resolveList_of_becomeAll rest view others

end

end Term
end StrictLambda
