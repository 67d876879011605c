import StrictLambda.Failure
import StrictLambda.Proofs.Execution.Bind
import StrictLambda.Proofs.Term.Scope

/-!
# Bindings in view

A walk over a term, in the order in which it is built, that looks for an occurrence of a binding
that has not come up yet.  A binding comes into view at its `letIn` and stays there, also behind the
term in which it is in scope.
-/

namespace StrictLambda
namespace Term

/-!
## Resolving occurrences
-/

def require (span : Span) (view : List Nat) : List Binding -> Except Failure (List Nat)
  | [] => .ok view
  | binding :: rest =>
      if binding.id ∈ view then
        require span view rest
      else
        .error (.defect (.unboundVariable binding.name) (some span))

def inside (definition : Term) (binding : Binding) (view : List Nat) : List Nat :=
  if definition.mentions binding then binding.id :: view else view

mutual

/-- What is in view behind the term when just the given numbers are in view before it.  An
abstraction asks for its free variables where it stands, and nothing of its body comes into view. -/
def resolve (view : List Nat) : Term -> Except Failure (List Nat)
  | .var span binding => require span view [binding]
  | .abs span parameter body => require span view (Term.abs span parameter body).freeVariables
  | .app _ function argument => do
      let view <- resolve view function
      resolve view argument
  | .letIn _ binding definition body => do
      let view <- resolve (definition.inside binding view) definition
      resolve (binding.id :: view) body
  | .group _ inner => resolve view inner
  | .dataType _ _ => pure view
  | .data _ type _ fields => do
      let view <- resolve view type
      resolveList view fields
  | .member _ value _ => resolve view value
  | .literal _ _ => pure view
  | .binary _ _ lhs rhs => do
      let view <- resolve view lhs
      resolve view rhs
  | .cond _ condition consequent alternative => do
      let view <- resolve view condition
      let view <- resolve view consequent
      resolve view alternative

def resolveList (view : List Nat) : List Term -> Except Failure (List Nat)
  | [] => pure view
  | term :: rest => do
      let view <- resolve view term
      resolveList view rest

end

theorem require_eq_ok {span : Span} {view : List Nat} {bindings : List Binding}
    (visible : forall binding, binding ∈ bindings -> binding.id ∈ view) :
    require span view bindings = .ok view := by
  induction bindings with
  | nil => rfl
  | cons binding rest ih =>
      rcases List.forall_mem_cons.mp visible with ⟨first, others⟩
      rw [require, if_pos first, ih others]

theorem of_require_eq_ok {span : Span} {view after : List Nat} {bindings : List Binding}
    (required : require span view bindings = .ok after) :
    after = view ∧ forall binding, binding ∈ bindings -> binding.id ∈ view := by
  induction bindings with
  | nil =>
      cases required
      exact ⟨rfl, List.forall_mem_nil _⟩
  | cons binding rest ih =>
      rw [require] at required
      split at required
      · next first =>
          rcases ih required with ⟨same, others⟩
          exact ⟨same, List.forall_mem_cons.mpr ⟨first, others⟩⟩
      · cases required

def RejectsUnseen (outcome : Except Failure (List Nat)) : Prop :=
  forall failure, outcome = .error failure ->
    exists name span, failure = .defect (.unboundVariable name) (some span)

theorem rejectsUnseen_pure (view : List Nat) : RejectsUnseen (pure view) := by
  intro failure rejected
  cases rejected

theorem rejectsUnseen_require (span : Span) (view : List Nat) (bindings : List Binding) :
    RejectsUnseen (require span view bindings) := by
  intro failure rejected
  induction bindings with
  | nil => cases rejected
  | cons binding rest ih =>
      rw [require] at rejected
      split at rejected
      · exact ih rejected
      · cases rejected
        exact ⟨binding.name, span, rfl⟩

theorem RejectsUnseen.bind {first : Except Failure (List Nat)}
    {rest : List Nat -> Except Failure (List Nat)} (before : RejectsUnseen first)
    (after : forall view, RejectsUnseen (rest view)) : RejectsUnseen (first >>= rest) := by
  intro failure rejected
  rcases bind_eq_error_iff.mp rejected with rejected | ⟨view, _, rejected⟩
  · exact before failure rejected
  · exact after view failure rejected

mutual

theorem rejectsUnseen_resolve : (term : Term) -> (view : List Nat) ->
    RejectsUnseen (term.resolve view)
  | .var span binding, view => rejectsUnseen_require span view [binding]
  | .abs span _ _, view => rejectsUnseen_require span view _
  | .app _ function argument, view | .binary _ _ function argument, view =>
      (rejectsUnseen_resolve function view).bind (rejectsUnseen_resolve argument)
  | .letIn _ _ definition body, _ =>
      (rejectsUnseen_resolve definition _).bind fun _ => rejectsUnseen_resolve body _
  | .group _ inner, view | .member _ inner _, view => rejectsUnseen_resolve inner view
  | .dataType _ _, view | .literal _ _, view => rejectsUnseen_pure view
  | .data _ type _ fields, view =>
      (rejectsUnseen_resolve type view).bind (rejectsUnseen_resolveList fields)
  | .cond _ condition consequent alternative, view =>
      (rejectsUnseen_resolve condition view).bind fun view =>
        (rejectsUnseen_resolve consequent view).bind (rejectsUnseen_resolve alternative)

theorem rejectsUnseen_resolveList : (terms : List Term) -> (view : List Nat) ->
    RejectsUnseen (resolveList view terms)
  | [], view => rejectsUnseen_pure view
  | term :: rest, view =>
      (rejectsUnseen_resolve term view).bind (rejectsUnseen_resolveList rest)

end

/-!
## Scopes and what is in view
-/

theorem inside_subset (definition : Term) (binding : Binding) (view : List Nat) :
    definition.inside binding view ⊆ binding.id :: view := by
  unfold inside
  split
  · exact List.Subset.refl _
  · exact List.subset_cons_self _ _

theorem subset_inside (definition : Term) (binding : Binding) (view : List Nat) :
    view ⊆ definition.inside binding view := by
  unfold inside
  split
  · exact List.subset_cons_self _ _
  · exact List.Subset.refl _

theorem mem_inside {definition : Term} {binding : Binding} {view : List Nat} {id : Nat}
    (free : definition.HasFree id) (visible : binding.id ≠ id -> id ∈ view) :
    id ∈ definition.inside binding view := by
  unfold inside
  by_cases same : binding.id = id
  · rw [if_pos (mentions_iff.mpr (same ▸ free)), same]
    exact List.mem_cons_self
  · split
    · exact List.mem_cons_of_mem _ (visible same)
    · exact visible same

def Accepts (view : List Nat) (outcome : Except Failure (List Nat)) : Prop :=
  exists after, outcome = .ok after ∧ view ⊆ after

theorem Accepts.mono {view wider : List Nat} {outcome : Except Failure (List Nat)}
    (kept : view ⊆ wider) (accepted : Accepts wider outcome) : Accepts view outcome := by
  rcases accepted with ⟨after, rfl, keptAfter⟩
  exact ⟨after, rfl, List.Subset.trans kept keptAfter⟩

theorem Accepts.bind {view : List Nat} {first : Except Failure (List Nat)}
    {rest : List Nat -> Except Failure (List Nat)} (before : Accepts view first)
    (after : forall wider, view ⊆ wider -> Accepts wider (rest wider)) :
    Accepts view (first >>= rest) := by
  rcases before with ⟨middle, rfl, kept⟩
  rcases after middle kept with ⟨last, accepted, keptAfter⟩
  exact ⟨last, accepted, List.Subset.trans kept keptAfter⟩

theorem accepts_require {span : Span} {view : List Nat} {bindings : List Binding}
    (visible : forall binding, binding ∈ bindings -> binding.id ∈ view) :
    Accepts view (require span view bindings) :=
  ⟨view, require_eq_ok visible, List.Subset.refl view⟩

mutual

theorem accepts_resolve : (term : Term) -> (view : List Nat) ->
    (forall id, term.HasFree id -> id ∈ view) -> Accepts view (term.resolve view)
  | .var _ binding, view, visible =>
      accepts_require (List.forall_mem_singleton.mpr (visible binding.id rfl))
  | .abs _ parameter body, view, visible =>
      accepts_require fun binding member =>
        visible binding.id (mem_freeVariables_iff.mp (List.mem_map_of_mem member))
  | .app _ function argument, view, visible | .binary _ _ function argument, view, visible =>
      (accepts_resolve function view fun id free => visible id (.inl free)).bind
        fun wider kept =>
          accepts_resolve argument wider fun id free => kept (visible id (.inr free))
  | .letIn _ binding definition body, view, visible => by
      rw [resolve]
      have kept := subset_inside definition binding view
      refine Accepts.mono kept ((accepts_resolve definition _ ?_).bind ?_)
      · intro id free
        exact mem_inside free fun other => visible id ⟨other, .inl free⟩
      · intro wider keptAfter
        refine Accepts.mono (List.subset_cons_self _ _) (accepts_resolve body _ ?_)
        intro id free
        by_cases same : binding.id = id
        · exact List.mem_cons.mpr (.inl same.symm)
        · exact List.mem_cons_of_mem _ (keptAfter (kept (visible id ⟨same, .inr free⟩)))
  | .group _ inner, view, visible | .member _ inner _, view, visible =>
      accepts_resolve inner view visible
  | .dataType _ _, view, _ | .literal _ _, view, _ => ⟨view, rfl, List.Subset.refl view⟩
  | .data _ type _ fields, view, visible =>
      (accepts_resolve type view fun id free => visible id (.inl free)).bind
        fun wider kept =>
          accepts_resolveList fields wider fun id free => kept (visible id (.inr free))
  | .cond _ condition consequent alternative, view, visible =>
      (accepts_resolve condition view fun id free => visible id (.inl free)).bind
        fun wider kept =>
          (accepts_resolve consequent wider fun id free =>
            kept (visible id (.inr (.inl free)))).bind fun widest keptAgain =>
              accepts_resolve alternative widest fun id free =>
                keptAgain (kept (visible id (.inr (.inr free))))

theorem accepts_resolveList : (terms : List Term) -> (view : List Nat) ->
    (forall id, HasFreeList id terms -> id ∈ view) -> Accepts view (resolveList view terms)
  | [], view, _ => ⟨view, rfl, List.Subset.refl view⟩
  | term :: rest, view, visible =>
      (accepts_resolve term view fun id free => visible id (.inl free)).bind
        fun wider kept =>
          accepts_resolveList rest wider fun id free => kept (visible id (.inr free))

end

/-!
## Bindings that no `letIn` of the block makes
-/

mutual

/-- The numbers that are bound by a `letIn` outside of all abstractions of the term. -/
def ownBindings : Term -> List Nat
  | .var _ _ => []
  | .abs _ _ _ => []
  | .app _ function argument => function.ownBindings ++ argument.ownBindings
  | .letIn _ binding definition body =>
      binding.id :: (definition.ownBindings ++ body.ownBindings)
  | .group _ inner => inner.ownBindings
  | .dataType _ _ => []
  | .data _ type _ fields => type.ownBindings ++ ownBindingsList fields
  | .member _ value _ => value.ownBindings
  | .literal _ _ => []
  | .binary _ _ lhs rhs => lhs.ownBindings ++ rhs.ownBindings
  | .cond _ condition consequent alternative =>
      condition.ownBindings ++ (consequent.ownBindings ++ alternative.ownBindings)

def ownBindingsList : List Term -> List Nat
  | [] => []
  | term :: rest => term.ownBindings ++ ownBindingsList rest

end

/-- When nothing is rejected, what is in view behind and what was asked for were in view before or
have been bound on the way. -/
def Confines (view bound : List Nat) (free : Nat -> Prop) (outcome : Except Failure (List Nat)) :
    Prop :=
  forall after, outcome = .ok after ->
    after ⊆ view ++ bound ∧ forall id, free id -> id ∈ view ++ bound

theorem Confines.bind {view bound boundAfter : List Nat} {free freeAfter : Nat -> Prop}
    {first : Except Failure (List Nat)} {rest : List Nat -> Except Failure (List Nat)}
    (before : Confines view bound free first)
    (after : forall wider, Confines wider boundAfter freeAfter (rest wider)) :
    Confines view (bound ++ boundAfter) (fun id => free id ∨ freeAfter id) (first >>= rest) := by
  intro last accepted
  rcases bind_eq_ok_iff.mp accepted with ⟨middle, acceptedFirst, accepted⟩
  rcases before middle acceptedFirst with ⟨within, asked⟩
  rcases after middle last accepted with ⟨withinAfter, askedAfter⟩
  have widen : forall id, id ∈ middle ++ boundAfter -> id ∈ view ++ (bound ++ boundAfter) := by
    intro id member
    rw [← List.append_assoc]
    rcases List.mem_append.mp member with early | late
    · exact List.mem_append_left _ (within early)
    · exact List.mem_append_right _ late
  refine ⟨fun id member => widen id (withinAfter member), ?_⟩
  intro id free
  rcases free with free | free
  · rw [← List.append_assoc]
    exact List.mem_append_left _ (asked id free)
  · exact widen id (askedAfter id free)

theorem confines_require {span : Span} {view : List Nat} {bindings : List Binding} :
    Confines view [] (fun id => id ∈ bindings.map Binding.id)
      (require span view bindings) := by
  intro after accepted
  rcases of_require_eq_ok accepted with ⟨rfl, visible⟩
  rw [List.append_nil]
  refine ⟨List.Subset.refl _, ?_⟩
  intro id asked
  rcases List.mem_map.mp asked with ⟨binding, member, rfl⟩
  exact visible binding member

theorem confines_pure (view : List Nat) : Confines view [] (fun _ => False) (pure view) := by
  intro after accepted
  cases accepted
  rw [List.append_nil]
  exact ⟨List.Subset.refl _, fun _ => False.elim⟩

theorem Confines.mono {view wider bound larger : List Nat} {free other : Nat -> Prop}
    {outcome : Except Failure (List Nat)} (confines : Confines view bound free outcome)
    (within : view ++ bound ⊆ wider ++ larger) (asked : forall id, other id -> free id) :
    Confines wider larger other outcome := by
  intro after accepted
  rcases confines after accepted with ⟨withinBefore, askedBefore⟩
  exact ⟨List.Subset.trans withinBefore within,
    fun id mentioned => within (askedBefore id (asked id mentioned))⟩

mutual

theorem confines_resolve : (term : Term) -> (view : List Nat) ->
    Confines view term.ownBindings term.HasFree (term.resolve view)
  | .var _ binding, view =>
      confines_require.mono (List.Subset.refl _) fun _ same =>
        List.mem_singleton.mpr (Eq.symm same)
  | .abs _ _ _, view =>
      confines_require.mono (List.Subset.refl _) fun _ free => mem_freeVariables_iff.mpr free
  | .app _ function argument, view | .binary _ _ function argument, view =>
      (confines_resolve function view).bind (confines_resolve argument)
  | .letIn _ binding definition body, view => by
      rw [resolve, ownBindings]
      have bodyConfined : forall wider, Confines wider (binding.id :: body.ownBindings)
          body.HasFree (body.resolve (binding.id :: wider)) := by
        intro wider
        refine (confines_resolve body (binding.id :: wider)).mono ?_ (fun _ free => free)
        simp
      refine ((confines_resolve definition _).bind bodyConfined).mono ?_ (fun _ free => free.2)
      have near := inside_subset definition binding view
      intro id member
      simp only [List.mem_append, List.mem_cons] at member ⊢
      rcases member with early | early | same | late
      · rcases List.mem_cons.mp (near early) with same | early
        · exact .inr (.inl same)
        · exact .inl early
      · exact .inr (.inr (.inl early))
      · exact .inr (.inl same)
      · exact .inr (.inr (.inr late))
  | .group _ inner, view | .member _ inner _, view => confines_resolve inner view
  | .dataType _ _, view | .literal _ _, view => confines_pure view
  | .data _ type _ fields, view =>
      (confines_resolve type view).bind (confines_resolveList fields)
  | .cond _ condition consequent alternative, view =>
      (confines_resolve condition view).bind fun wider =>
        (confines_resolve consequent wider).bind (confines_resolve alternative)

theorem confines_resolveList : (terms : List Term) -> (view : List Nat) ->
    Confines view (ownBindingsList terms) (fun id => HasFreeList id terms)
      (resolveList view terms)
  | [], view => confines_pure view
  | term :: rest, view => (confines_resolve term view).bind (confines_resolveList rest)

end

end Term
end StrictLambda
