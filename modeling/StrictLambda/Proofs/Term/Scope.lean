import StrictLambda.Term.FreeVariables

/-!
# Scopes

Which bindings occur free in a term, and which terms can be read in a given scope.  The scope of an
abstraction is its body; that of a `letIn` is its definition and its body.
-/

namespace StrictLambda
namespace Term

/-!
## Free occurrences
-/

mutual

def HasFree (id : Nat) : Term -> Prop
  | .var _ binding => binding.id = id
  | .abs _ parameter body => parameter.id ≠ id ∧ body.HasFree id
  | .app _ function argument => function.HasFree id ∨ argument.HasFree id
  | .letIn _ binding definition body =>
      binding.id ≠ id ∧ (definition.HasFree id ∨ body.HasFree id)
  | .group _ inner => inner.HasFree id
  | .dataType _ _ => False
  | .data _ type _ fields => type.HasFree id ∨ HasFreeList id fields
  | .member _ value _ => value.HasFree id
  | .literal _ _ => False
  | .binary _ _ lhs rhs => lhs.HasFree id ∨ rhs.HasFree id
  | .cond _ condition consequent alternative =>
      condition.HasFree id ∨ consequent.HasFree id ∨ alternative.HasFree id

def HasFreeList (id : Nat) : List Term -> Prop
  | [] => False
  | term :: rest => term.HasFree id ∨ HasFreeList id rest

end

theorem seen_iff {bound : List Nat} {found : List Binding} {binding : Binding} :
    (bound.contains binding.id || found.any (fun earlier => earlier.id == binding.id)) = true ↔
      binding.id ∈ bound ∨ binding.id ∈ found.map Binding.id := by
  simp only [List.contains_eq_mem, Bool.or_eq_true, decide_eq_true_eq, List.any_eq_true,
    beq_iff_eq, List.mem_map]

mutual

theorem mem_collectFree_iff (id : Nat) : (term : Term) -> (bound : List Nat) ->
    (found : List Binding) ->
    (id ∈ (collectFree bound found term).map Binding.id ↔
      id ∈ found.map Binding.id ∨ (term.HasFree id ∧ id ∉ bound))
  | .var span binding, bound, found => by
      rw [collectFree, HasFree]
      split
      · next seen =>
          rw [seen_iff] at seen
          grind
      · next unseen =>
          rw [seen_iff] at unseen
          rw [List.map_append, List.mem_append, List.map_cons, List.map_nil, List.mem_singleton]
          grind
  | .abs span parameter body, bound, found => by
      rw [collectFree, HasFree, mem_collectFree_iff id body]
      simp only [List.mem_cons, not_or, ne_eq, eq_comm]
      grind
  | .app span function argument, bound, found => by
      rw [collectFree, HasFree, mem_collectFree_iff id argument,
        mem_collectFree_iff id function]
      grind
  | .letIn span binding definition body, bound, found => by
      simp only [collectFree]
      rw [HasFree, mem_collectFree_iff id body, mem_collectFree_iff id definition]
      simp only [List.mem_cons, not_or, ne_eq, eq_comm]
      grind
  | .group span inner, bound, found => by
      rw [collectFree, HasFree, mem_collectFree_iff id inner]
  | .dataType span declaration, bound, found => by
      rw [collectFree, HasFree]
      simp
  | .data span type tag fields, bound, found => by
      rw [collectFree, HasFree, mem_collectFreeList_iff id fields, mem_collectFree_iff id type]
      grind
  | .member span value field, bound, found => by
      rw [collectFree, HasFree, mem_collectFree_iff id value]
  | .literal span value, bound, found => by
      rw [collectFree, HasFree]
      simp
  | .binary span operator lhs rhs, bound, found => by
      rw [collectFree, HasFree, mem_collectFree_iff id rhs, mem_collectFree_iff id lhs]
      grind
  | .cond span condition consequent alternative, bound, found => by
      rw [collectFree, HasFree, mem_collectFree_iff id alternative,
        mem_collectFree_iff id consequent, mem_collectFree_iff id condition]
      grind

theorem mem_collectFreeList_iff (id : Nat) : (terms : List Term) -> (bound : List Nat) ->
    (found : List Binding) ->
    (id ∈ (collectFreeList bound found terms).map Binding.id ↔
      id ∈ found.map Binding.id ∨ (HasFreeList id terms ∧ id ∉ bound))
  | [], bound, found => by
      rw [collectFreeList, HasFreeList]
      simp
  | term :: rest, bound, found => by
      rw [collectFreeList, HasFreeList, mem_collectFreeList_iff id rest,
        mem_collectFree_iff id term]
      grind

end

theorem mem_freeVariables_iff {term : Term} {id : Nat} :
    id ∈ term.freeVariables.map Binding.id ↔ term.HasFree id := by
  rw [freeVariables, mem_collectFree_iff]
  simp

theorem mentions_iff {term : Term} {binding : Binding} :
    term.mentions binding = true ↔ term.HasFree binding.id := by
  rw [← mem_freeVariables_iff]
  simp [mentions]

mutual

theorem nodup_collectFree : (term : Term) -> (bound : List Nat) -> {found : List Binding} ->
    (found.map Binding.id).Nodup -> ((collectFree bound found term).map Binding.id).Nodup
  | .var _ binding, bound, found, distinct => by
      rw [collectFree]
      split
      · exact distinct
      · next unseen =>
          rw [List.map_append, List.nodup_append]
          refine ⟨distinct, by simp, ?_⟩
          intro id earlier other member same
          rw [List.map_cons, List.map_nil, List.mem_singleton] at member
          rw [seen_iff] at unseen
          rw [same, member] at earlier
          exact unseen (.inr earlier)
  | .abs _ parameter body, bound, _, distinct => nodup_collectFree body _ distinct
  | .app _ function argument, bound, _, distinct =>
      nodup_collectFree argument bound (nodup_collectFree function bound distinct)
  | .letIn _ binding definition body, bound, _, distinct =>
      nodup_collectFree body _ (nodup_collectFree definition _ distinct)
  | .group _ inner, bound, _, distinct => nodup_collectFree inner bound distinct
  | .dataType _ _, _, _, distinct => distinct
  | .data _ type _ fields, bound, _, distinct =>
      nodup_collectFreeList fields bound (nodup_collectFree type bound distinct)
  | .member _ value _, bound, _, distinct => nodup_collectFree value bound distinct
  | .literal _ _, _, _, distinct => distinct
  | .binary _ _ lhs rhs, bound, _, distinct =>
      nodup_collectFree rhs bound (nodup_collectFree lhs bound distinct)
  | .cond _ condition consequent alternative, bound, _, distinct =>
      nodup_collectFree alternative bound
        (nodup_collectFree consequent bound (nodup_collectFree condition bound distinct))

theorem nodup_collectFreeList : (terms : List Term) -> (bound : List Nat) ->
    {found : List Binding} -> (found.map Binding.id).Nodup ->
      ((collectFreeList bound found terms).map Binding.id).Nodup
  | [], _, _, distinct => distinct
  | term :: rest, bound, _, distinct =>
      nodup_collectFreeList rest bound (nodup_collectFree term bound distinct)

end

theorem nodup_freeVariables (term : Term) : (term.freeVariables.map Binding.id).Nodup :=
  nodup_collectFree term [] List.nodup_nil

/-!
## Terms in a scope
-/

mutual

/-- No binder of the term has the number of a binder in whose scope it stands, nor one of the given
numbers. -/
def Unshadowed (scope : List Nat) : Term -> Prop
  | .var _ _ => True
  | .abs _ parameter body =>
      parameter.id ∉ scope ∧ body.Unshadowed (parameter.id :: scope)
  | .app _ function argument => function.Unshadowed scope ∧ argument.Unshadowed scope
  | .letIn _ binding definition body =>
      binding.id ∉ scope ∧ definition.Unshadowed (binding.id :: scope) ∧
        body.Unshadowed (binding.id :: scope)
  | .group _ inner => inner.Unshadowed scope
  | .dataType _ _ => True
  | .data _ type _ fields => type.Unshadowed scope ∧ UnshadowedList scope fields
  | .member _ value _ => value.Unshadowed scope
  | .literal _ _ => True
  | .binary _ _ lhs rhs => lhs.Unshadowed scope ∧ rhs.Unshadowed scope
  | .cond _ condition consequent alternative =>
      condition.Unshadowed scope ∧ consequent.Unshadowed scope ∧ alternative.Unshadowed scope

def UnshadowedList (scope : List Nat) : List Term -> Prop
  | [] => True
  | term :: rest => term.Unshadowed scope ∧ UnshadowedList scope rest

end

theorem hasFreeList_iff {id : Nat} {terms : List Term} :
    HasFreeList id terms ↔ exists term, term ∈ terms ∧ term.HasFree id := by
  induction terms with
  | nil => simp [HasFreeList]
  | cons term rest ih => simp [HasFreeList, ih]

theorem unshadowedList_iff {scope : List Nat} {terms : List Term} :
    UnshadowedList scope terms ↔ forall term, term ∈ terms -> term.Unshadowed scope := by
  induction terms with
  | nil => simp [UnshadowedList]
  | cons term rest ih => simp [UnshadowedList, ih]

theorem mem_cons_of_mem_cons {scope smaller : List Nat} {first : Nat}
    (inside : forall id, id ∈ smaller -> id ∈ scope) (id : Nat) (member : id ∈ first :: smaller) :
    id ∈ first :: scope := by
  rcases List.mem_cons.mp member with rfl | later
  · exact List.mem_cons_self
  · exact List.mem_cons_of_mem _ (inside id later)

mutual

theorem Unshadowed.mono : (term : Term) -> {scope smaller : List Nat} ->
    (forall id, id ∈ smaller -> id ∈ scope) -> term.Unshadowed scope -> term.Unshadowed smaller
  | .var _ _, _, _, _, _ => trivial
  | .abs _ _ body, _, _, inside, ⟨fresh, unshadowed⟩ =>
      ⟨fun member => fresh (inside _ member), unshadowed.mono body (mem_cons_of_mem_cons inside)⟩
  | .app _ function argument, _, _, inside, ⟨first, second⟩ =>
      ⟨first.mono function inside, second.mono argument inside⟩
  | .letIn _ _ definition body, _, _, inside, ⟨fresh, first, second⟩ =>
      ⟨fun member => fresh (inside _ member), first.mono definition (mem_cons_of_mem_cons inside),
        second.mono body (mem_cons_of_mem_cons inside)⟩
  | .group _ inner, _, _, inside, unshadowed => Unshadowed.mono inner inside unshadowed
  | .dataType _ _, _, _, _, _ => trivial
  | .data _ type _ fields, _, _, inside, ⟨first, others⟩ =>
      ⟨first.mono type inside, others.mono fields inside⟩
  | .member _ value _, _, _, inside, unshadowed => Unshadowed.mono value inside unshadowed
  | .literal _ _, _, _, _, _ => trivial
  | .binary _ _ lhs rhs, _, _, inside, ⟨first, second⟩ =>
      ⟨first.mono lhs inside, second.mono rhs inside⟩
  | .cond _ condition consequent alternative, _, _, inside, ⟨first, second, third⟩ =>
      ⟨first.mono condition inside, second.mono consequent inside, third.mono alternative inside⟩

theorem UnshadowedList.mono : (terms : List Term) -> {scope smaller : List Nat} ->
    (forall id, id ∈ smaller -> id ∈ scope) -> UnshadowedList scope terms ->
      UnshadowedList smaller terms
  | [], _, _, _, _ => trivial
  | term :: rest, _, _, inside, ⟨first, others⟩ =>
      ⟨first.mono term inside, others.mono rest inside⟩

end

/-- The term can be read where exactly these bindings are visible: it mentions no other ones and
binds none of them again. -/
structure FitsScope (term : Term) (scope : List Nat) : Prop where
  visible : forall id, term.HasFree id -> id ∈ scope
  unshadowed : term.Unshadowed scope

/-! ## Parts of terms that fit -/

theorem FitsScope.restrict {term : Term} {scope smaller : List Nat} (fits : term.FitsScope scope)
    (inside : forall id, id ∈ smaller -> id ∈ scope)
    (visible : forall id, term.HasFree id -> id ∈ smaller) : term.FitsScope smaller :=
  ⟨visible, fits.unshadowed.mono term inside⟩

theorem fitsScope_of_closed {term : Term} (closed : term.freeVariables = [])
    (unshadowed : term.Unshadowed []) : term.FitsScope [] := by
  refine ⟨?_, unshadowed⟩
  intro id free
  rw [← mem_freeVariables_iff, closed] at free
  cases free

theorem nodup_parameter_freeVariables (span : Span) (parameter : Binding) (body : Term) :
    (parameter.id :: (Term.abs span parameter body).freeVariables.map Binding.id).Nodup := by
  refine List.nodup_cons.mpr ⟨?_, nodup_freeVariables _⟩
  intro free
  exact (mem_freeVariables_iff.mp free).1 rfl

section Parts

variable {scope : List Nat} {span : Span} {binding : Binding}
  {definition body function argument condition consequent alternative inner : Term}

theorem FitsScope.abs (fits : (Term.abs span binding body).FitsScope scope) :
    binding.id ∉ scope ∧ body.FitsScope (binding.id :: scope) := by
  rcases fits with ⟨visible, fresh, unshadowed⟩
  refine ⟨fresh, ?_, unshadowed⟩
  intro id free
  by_cases same : binding.id = id
  · rw [same]
    exact List.mem_cons_self
  · exact List.mem_cons_of_mem _ (visible id ⟨same, free⟩)

theorem FitsScope.abs_body (fits : (Term.abs span binding body).FitsScope scope) :
    body.FitsScope
      (binding.id :: (Term.abs span binding body).freeVariables.map Binding.id) := by
  refine fits.abs.2.restrict ?_ ?_
  · intro id member
    rcases List.mem_cons.mp member with rfl | free
    · exact List.mem_cons_self
    · exact List.mem_cons_of_mem _ (fits.visible id (mem_freeVariables_iff.mp free))
  · intro id free
    by_cases same : binding.id = id
    · rw [same]
      exact List.mem_cons_self
    · exact List.mem_cons_of_mem _ (mem_freeVariables_iff.mpr ⟨same, free⟩)

theorem FitsScope.letIn (fits : (Term.letIn span binding definition body).FitsScope scope) :
    binding.id ∉ scope ∧ definition.FitsScope (binding.id :: scope) ∧
      body.FitsScope (binding.id :: scope) := by
  rcases fits with ⟨visible, fresh, first, second⟩
  have inside : forall id, definition.HasFree id ∨ body.HasFree id ->
      id ∈ binding.id :: scope := by
    intro id free
    by_cases same : binding.id = id
    · rw [same]
      exact List.mem_cons_self
    · exact List.mem_cons_of_mem _ (visible id ⟨same, free⟩)
  exact ⟨fresh, ⟨fun id free => inside id (.inl free), first⟩,
    ⟨fun id free => inside id (.inr free), second⟩⟩

theorem FitsScope.of_not_mentions (fits : definition.FitsScope (binding.id :: scope))
    (plain : definition.mentions binding = false) : definition.FitsScope scope := by
  -- A definition that does not mention its own binding does not need it in scope.
  apply fits.restrict (fun id => List.mem_cons_of_mem _)
  intro id free
  rcases List.mem_cons.mp (fits.visible id free) with rfl | member
  · rw [← mentions_iff, plain] at free
    cases free
  · exact member

theorem FitsScope.app (fits : (Term.app span function argument).FitsScope scope) :
    function.FitsScope scope ∧ argument.FitsScope scope :=
  ⟨⟨fun id free => fits.visible id (.inl free), fits.unshadowed.1⟩,
    ⟨fun id free => fits.visible id (.inr free), fits.unshadowed.2⟩⟩

theorem FitsScope.group (fits : (Term.group span inner).FitsScope scope) :
    inner.FitsScope scope :=
  ⟨fits.visible, fits.unshadowed⟩

theorem FitsScope.data {tag : Nat} {fields : List Term}
    (fits : (Term.data span inner tag fields).FitsScope scope) :
    inner.FitsScope scope ∧ forall field, field ∈ fields -> field.FitsScope scope := by
  refine ⟨⟨fun id free => fits.visible id (.inl free), fits.unshadowed.1⟩, ?_⟩
  intro field member
  refine ⟨?_, unshadowedList_iff.mp fits.unshadowed.2 field member⟩
  intro id free
  exact fits.visible id (.inr (hasFreeList_iff.mpr ⟨field, member, free⟩))

theorem FitsScope.member {field : Symbol} (fits : (Term.member span inner field).FitsScope scope) :
    inner.FitsScope scope :=
  ⟨fits.visible, fits.unshadowed⟩

theorem FitsScope.binary {operator : Operator}
    (fits : (Term.binary span operator function argument).FitsScope scope) :
    function.FitsScope scope ∧ argument.FitsScope scope :=
  ⟨⟨fun id free => fits.visible id (.inl free), fits.unshadowed.1⟩,
    ⟨fun id free => fits.visible id (.inr free), fits.unshadowed.2⟩⟩

theorem FitsScope.cond
    (fits : (Term.cond span condition consequent alternative).FitsScope scope) :
    condition.FitsScope scope ∧ consequent.FitsScope scope ∧ alternative.FitsScope scope :=
  ⟨⟨fun id free => fits.visible id (.inl free), fits.unshadowed.1⟩,
    ⟨fun id free => fits.visible id (.inr (.inl free)), fits.unshadowed.2.1⟩,
    ⟨fun id free => fits.visible id (.inr (.inr free)), fits.unshadowed.2.2⟩⟩

end Parts

/-!
## Abstractions
-/

mutual

def abstractions : Term -> Nat
  | .var _ _ => 0
  | .abs _ _ body => body.abstractions + 1
  | .app _ function argument => function.abstractions + argument.abstractions
  | .letIn _ _ definition body => definition.abstractions + body.abstractions
  | .group _ inner => inner.abstractions
  | .dataType _ _ => 0
  | .data _ type _ fields => type.abstractions + abstractionsList fields
  | .member _ value _ => value.abstractions
  | .literal _ _ => 0
  | .binary _ _ lhs rhs => lhs.abstractions + rhs.abstractions
  | .cond _ condition consequent alternative =>
      condition.abstractions + consequent.abstractions + alternative.abstractions

def abstractionsList : List Term -> Nat
  | [] => 0
  | term :: rest => term.abstractions + abstractionsList rest

end

end Term
end StrictLambda
