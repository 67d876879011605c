import Mathlib.Data.List.Nodup
import StrictLambda.Proofs.Term.Scope

/-!
# Free variables and their occurrences

A variable occurs free where no binder of its number encloses it.  The free variables of a term are
the first such occurrences of each number, from left to right, and they can be put together from the
free variables of its parts.
-/

namespace StrictLambda

/-!
## Lists of bindings
-/

namespace Binding

def without (numbers : List Nat) (bindings : List Binding) : List Binding :=
  bindings.filter fun binding => !numbers.contains binding.id

/-- The bindings of the first list, and behind them those of the second list whose numbers are
new. -/
def unite (first second : List Binding) : List Binding :=
  first ++ without (first.map Binding.id) second

/-- The second list has for each number the first binding of this number in the first list.  The
bindings are listed in the order in which they are come to. -/
structure ListsFirst (occurrences listed : List Binding) : Prop where
  numbers : forall id, id ∈ listed.map Binding.id ↔ id ∈ occurrences.map Binding.id
  distinct : (listed.map Binding.id).Nodup
  first : forall binding, binding ∈ listed ->
    exists before after, occurrences = before ++ binding :: after ∧
      binding.id ∉ before.map Binding.id
  ordered : listed.Pairwise fun earlier later =>
    (occurrences.map Binding.id).idxOf earlier.id < (occurrences.map Binding.id).idxOf later.id

theorem mem_without_iff {numbers : List Nat} {bindings : List Binding} {binding : Binding} :
    binding ∈ without numbers bindings ↔ binding ∈ bindings ∧ binding.id ∉ numbers := by
  simp [without]

theorem mem_map_without_iff {numbers : List Nat} {bindings : List Binding} {id : Nat} :
    id ∈ (without numbers bindings).map Binding.id ↔
      id ∈ bindings.map Binding.id ∧ id ∉ numbers := by
  simp only [List.mem_map, mem_without_iff]
  constructor
  · rintro ⟨binding, ⟨member, other⟩, rfl⟩
    exact ⟨⟨binding, member, rfl⟩, other⟩
  · rintro ⟨⟨binding, member, rfl⟩, other⟩
    exact ⟨binding, ⟨member, other⟩, rfl⟩

@[simp] theorem without_nil (numbers : List Nat) : without numbers [] = [] := rfl

@[simp] theorem without_no_numbers (bindings : List Binding) : without [] bindings = bindings :=
  List.filter_eq_self.mpr fun _ _ => rfl

theorem without_append (numbers : List Nat) (first second : List Binding) :
    without numbers (first ++ second) = without numbers first ++ without numbers second :=
  List.filter_append ..

theorem without_without (numbers others : List Nat) (bindings : List Binding) :
    without numbers (without others bindings) = without (others ++ numbers) bindings := by
  rw [without, without, without, List.filter_filter]
  apply List.filter_congr
  intro binding _
  simp [Bool.and_comm]

theorem without_congr {numbers others : List Nat} {bindings : List Binding}
    (same : forall binding, binding ∈ bindings -> (binding.id ∈ numbers ↔ binding.id ∈ others)) :
    without numbers bindings = without others bindings := by
  apply List.filter_congr
  intro binding member
  simp [same binding member]

theorem map_unite (first second : List Binding) {id : Nat} :
    id ∈ (unite first second).map Binding.id ↔
      id ∈ first.map Binding.id ∨ id ∈ second.map Binding.id := by
  rw [unite, List.map_append, List.mem_append, mem_map_without_iff]
  by_cases early : id ∈ first.map Binding.id <;> simp [early]

@[simp] theorem unite_nil (bindings : List Binding) : unite bindings [] = bindings :=
  List.append_nil bindings

theorem unite_assoc (first second third : List Binding) :
    unite (unite first second) third = unite first (unite second third) := by
  have rest : without (first.map Binding.id) (without (second.map Binding.id) third) =
      without ((unite first second).map Binding.id) third := by
    rw [without_without]
    apply without_congr
    intro binding _
    rw [map_unite, List.mem_append, or_comm]
  rw [unite, ← rest]
  simp only [unite, without_append, List.append_assoc]

theorem without_unite (numbers : List Nat) (first second : List Binding) :
    without numbers (unite first second) =
      unite (without numbers first) (without numbers second) := by
  have rest : without (first.map Binding.id ++ numbers) second =
      without (numbers ++ (without numbers first).map Binding.id) second := by
    apply without_congr
    intro binding _
    rw [List.mem_append, List.mem_append, mem_map_without_iff]
    by_cases removed : binding.id ∈ numbers <;> simp [removed]
  rw [unite, without_append, unite, without_without, without_without, rest]

namespace ListsFirst

theorem nil : ListsFirst [] [] where
  numbers _ := Iff.rfl
  distinct := List.nodup_nil
  first _ member := absurd member List.not_mem_nil
  ordered := List.Pairwise.nil

theorem single (binding : Binding) : ListsFirst [binding] [binding] where
  numbers _ := Iff.rfl
  distinct := List.nodup_singleton _
  first other member := by
    rw [List.mem_singleton] at member
    exact ⟨[], [], by rw [member, List.nil_append], List.not_mem_nil⟩
  ordered := List.pairwise_singleton _ _

theorem append {occurrences others listed further : List Binding}
    (front : ListsFirst occurrences listed) (rear : ListsFirst others further) :
    ListsFirst (occurrences ++ others) (unite listed further) where
  numbers id := by
    rw [map_unite, front.numbers, rear.numbers, List.map_append, List.mem_append]
  distinct := by
    rw [unite, List.map_append, List.nodup_append]
    have fewer : ((without (listed.map Binding.id) further).map Binding.id).Nodup :=
      rear.distinct.sublist (List.filter_sublist.map Binding.id)
    refine ⟨front.distinct, fewer, ?_⟩
    intro id early other late same
    rw [mem_map_without_iff, ← same] at late
    exact late.2 early
  first binding member := by
    rcases List.mem_append.mp member with early | late
    · rcases front.first binding early with ⟨before, after, split, new⟩
      exact ⟨before, after ++ others, by simp [split], new⟩
    · rcases mem_without_iff.mp late with ⟨come, unseen⟩
      rcases rear.first binding come with ⟨before, after, split, new⟩
      rw [front.numbers] at unseen
      have absent : binding.id ∉ (occurrences ++ before).map Binding.id := by
        rw [List.map_append, List.mem_append]
        exact not_or.mpr ⟨unseen, new⟩
      exact ⟨occurrences ++ before, after, by simp [split], absent⟩
  ordered := by
    have inFront : forall binding, binding ∈ listed ->
        binding.id ∈ occurrences.map Binding.id := fun binding member =>
      (front.numbers binding.id).mp (List.mem_map_of_mem member)
    have inRear : forall binding, binding ∈ without (listed.map Binding.id) further ->
        binding.id ∉ occurrences.map Binding.id := fun binding member seen =>
      (mem_without_iff.mp member).2 ((front.numbers binding.id).mpr seen)
    rw [unite, List.pairwise_append, List.map_append]
    refine ⟨?early, ?late, ?across⟩
    case early =>
      apply front.ordered.imp_of_mem
      intro earlier later atEarlier atLater before
      rw [List.idxOf_append_of_mem (inFront earlier atEarlier),
        List.idxOf_append_of_mem (inFront later atLater)]
      exact before
    case late =>
      apply (rear.ordered.sublist List.filter_sublist).imp_of_mem
      intro earlier later atEarlier atLater before
      rw [List.idxOf_append_of_notMem (inRear earlier atEarlier),
        List.idxOf_append_of_notMem (inRear later atLater)]
      exact Nat.add_lt_add_left before _
    case across =>
      intro earlier atEarlier later atLater
      rw [List.idxOf_append_of_mem (inFront earlier atEarlier),
        List.idxOf_append_of_notMem (inRear later atLater)]
      exact Nat.lt_add_right _ (List.idxOf_lt_length_of_mem (inFront earlier atEarlier))

end ListsFirst
end Binding

/-!
## Occurrences of variables
-/

/-- An occurrence of a variable, with the numbers of the binders whose scope it stands in. -/
structure Occurrence where
  binding : Binding
  binders : List Nat

def Occurrence.isFree (occurrence : Occurrence) : Bool :=
  !occurrence.binders.contains occurrence.binding.id

def Occurrence.free (occurrences : List Occurrence) : List Binding :=
  (occurrences.filter Occurrence.isFree).map Occurrence.binding

theorem Occurrence.free_append (first second : List Occurrence) :
    Occurrence.free (first ++ second) = Occurrence.free first ++ Occurrence.free second := by
  rw [Occurrence.free, List.filter_append, List.map_append]
  rfl

namespace Term

open Binding

mutual

/-- The occurrences of variables from left to right, when the term stands in the scope of the given
binders. -/
def variablesIn (binders : List Nat) : Term -> List Occurrence
  | .var _ binding => [⟨binding, binders⟩]
  | .abs _ parameter body => body.variablesIn (parameter.id :: binders)
  | .app _ function argument => function.variablesIn binders ++ argument.variablesIn binders
  | .letIn _ binding definition body =>
      definition.variablesIn (binding.id :: binders) ++ body.variablesIn (binding.id :: binders)
  | .group _ inner => inner.variablesIn binders
  | .dataType _ _ => []
  | .data _ type _ fields => type.variablesIn binders ++ variablesInList binders fields
  | .member _ value _ => value.variablesIn binders
  | .literal _ _ => []
  | .binary _ _ lhs rhs => lhs.variablesIn binders ++ rhs.variablesIn binders
  | .cond _ condition consequent alternative =>
      condition.variablesIn binders ++
        (consequent.variablesIn binders ++ alternative.variablesIn binders)

def variablesInList (binders : List Nat) : List Term -> List Occurrence
  | [] => []
  | term :: rest => term.variablesIn binders ++ variablesInList binders rest

end

def freeOccurrences (term : Term) : List Binding :=
  Occurrence.free (term.variablesIn [])

/-!
## Free variables from those of the parts
-/

mutual

def free : Term -> List Binding
  | .var _ binding => [binding]
  | .abs _ parameter body => without [parameter.id] body.free
  | .app _ function argument => unite function.free argument.free
  | .letIn _ binding definition body => without [binding.id] (unite definition.free body.free)
  | .group _ inner => inner.free
  | .dataType _ _ => []
  | .data _ type _ fields => unite type.free (freeList fields)
  | .member _ value _ => value.free
  | .literal _ _ => []
  | .binary _ _ lhs rhs => unite lhs.free rhs.free
  | .cond _ condition consequent alternative =>
      unite condition.free (unite consequent.free alternative.free)

def freeList : List Term -> List Binding
  | [] => []
  | term :: rest => unite term.free (freeList rest)

end

theorem unite_unite_without (bound : List Nat) (found first second : List Binding) :
    unite (unite found (without bound first)) (without bound second) =
      unite found (without bound (unite first second)) := by
  rw [unite_assoc, without_unite]

mutual

theorem collectFree_eq : (term : Term) -> (bound : List Nat) -> (found : List Binding) ->
    collectFree bound found term = unite found (without bound term.free)
  | .var _ binding, bound, found => by
      rw [collectFree, free]
      split
      · next seen =>
          rw [seen_iff] at seen
          have nothing : without (found.map Binding.id) (without bound [binding]) = [] := by
            rw [without_without, List.eq_nil_iff_forall_not_mem]
            intro other member
            rw [mem_without_iff, List.mem_singleton, List.mem_append] at member
            rw [member.1] at member
            exact member.2 seen
          rw [unite, nothing, List.append_nil]
      · next unseen =>
          rw [seen_iff, not_or] at unseen
          have itself : without (found.map Binding.id) (without bound [binding]) = [binding] := by
            rw [without_without]
            apply List.filter_eq_self.mpr
            intro other member
            rw [List.mem_singleton] at member
            simpa [member] using unseen
          rw [unite, itself]
  | .abs _ parameter body, bound, found => by
      rw [collectFree, free, collectFree_eq body, without_without]
      rfl
  | .app _ function argument, bound, found => by
      rw [collectFree, free, collectFree_eq function, collectFree_eq argument,
        unite_unite_without]
  | .letIn _ binding definition body, bound, found => by
      simp only [collectFree]
      rw [free, collectFree_eq definition, collectFree_eq body, unite_unite_without,
        without_without]
      rfl
  | .group _ inner, bound, found => by
      rw [collectFree, free, collectFree_eq inner]
  | .dataType _ _, bound, found => by
      rw [collectFree, free, without_nil, unite_nil]
  | .data _ type _ fields, bound, found => by
      rw [collectFree, free, collectFree_eq type, collectFreeList_eq fields, unite_unite_without]
  | .member _ value _, bound, found => by
      rw [collectFree, free, collectFree_eq value]
  | .literal _ _, bound, found => by
      rw [collectFree, free, without_nil, unite_nil]
  | .binary _ _ lhs rhs, bound, found => by
      rw [collectFree, free, collectFree_eq lhs, collectFree_eq rhs, unite_unite_without]
  | .cond _ condition consequent alternative, bound, found => by
      rw [collectFree, free, collectFree_eq condition, collectFree_eq consequent,
        collectFree_eq alternative, unite_unite_without, unite_unite_without]

theorem collectFreeList_eq : (terms : List Term) -> (bound : List Nat) ->
    (found : List Binding) ->
    collectFreeList bound found terms = unite found (without bound (freeList terms))
  | [], bound, found => by
      rw [collectFreeList, freeList, without_nil, unite_nil]
  | term :: rest, bound, found => by
      rw [collectFreeList, freeList, collectFree_eq term, collectFreeList_eq rest,
        unite_unite_without]

end

theorem freeVariables_eq_free (term : Term) : term.freeVariables = term.free := by
  rw [freeVariables, collectFree_eq, without_no_numbers, unite, List.map_nil, without_no_numbers,
    List.nil_append]

/-!
## First occurrences
-/

theorem listsFirst_append {binders : List Nat} {first second : List Occurrence}
    {early late : List Binding}
    (front : ListsFirst (Occurrence.free first) (without binders early))
    (rear : ListsFirst (Occurrence.free second) (without binders late)) :
    ListsFirst (Occurrence.free (first ++ second)) (without binders (unite early late)) := by
  rw [Occurrence.free_append, without_unite]
  exact front.append rear

mutual

theorem listsFirst_variablesIn : (term : Term) -> (binders : List Nat) ->
    ListsFirst (Occurrence.free (term.variablesIn binders)) (without binders term.free)
  | .var _ binding, binders => by
      rw [variablesIn, free]
      by_cases bound : binding.id ∈ binders
      · simpa [Occurrence.free, Occurrence.isFree, without, bound] using ListsFirst.nil
      · simpa [Occurrence.free, Occurrence.isFree, without, bound] using ListsFirst.single binding
  | .abs _ parameter body, binders => by
      rw [variablesIn, free, without_without]
      exact listsFirst_variablesIn body (parameter.id :: binders)
  | .app _ function argument, binders =>
      listsFirst_append (listsFirst_variablesIn function binders)
        (listsFirst_variablesIn argument binders)
  | .letIn _ binding definition body, binders => by
      rw [variablesIn, free, without_without]
      exact listsFirst_append (listsFirst_variablesIn definition (binding.id :: binders))
        (listsFirst_variablesIn body (binding.id :: binders))
  | .group _ inner, binders => listsFirst_variablesIn inner binders
  | .dataType _ _, _ => ListsFirst.nil
  | .data _ type _ fields, binders =>
      listsFirst_append (listsFirst_variablesIn type binders)
        (listsFirst_variablesInList fields binders)
  | .member _ value _, binders => listsFirst_variablesIn value binders
  | .literal _ _, _ => ListsFirst.nil
  | .binary _ _ lhs rhs, binders =>
      listsFirst_append (listsFirst_variablesIn lhs binders) (listsFirst_variablesIn rhs binders)
  | .cond _ condition consequent alternative, binders =>
      listsFirst_append (listsFirst_variablesIn condition binders)
        (listsFirst_append (listsFirst_variablesIn consequent binders)
          (listsFirst_variablesIn alternative binders))

theorem listsFirst_variablesInList : (terms : List Term) -> (binders : List Nat) ->
    ListsFirst (Occurrence.free (variablesInList binders terms)) (without binders (freeList terms))
  | [], _ => ListsFirst.nil
  | term :: rest, binders =>
      listsFirst_append (listsFirst_variablesIn term binders)
        (listsFirst_variablesInList rest binders)

end

/-- The free variables of a term are the first free occurrence of each number, in the order of these
occurrences.  The recursion over the term gives the same list, and a definition is recursive exactly
when the number it binds is among them. -/
theorem freeVariables_list_first_occurrences (term : Term) :
    ListsFirst term.freeOccurrences term.freeVariables ∧
      term.freeVariables = term.free ∧
      forall binding : Binding,
        term.mentions binding = true ↔ binding.id ∈ term.freeVariables.map Binding.id := by
  refine ⟨?first, freeVariables_eq_free term, ?recursive⟩
  case first =>
    rw [freeVariables_eq_free, ← without_no_numbers term.free]
    exact listsFirst_variablesIn term []
  case recursive =>
    intro binding
    rw [mentions_iff, mem_freeVariables_iff]

end Term
end StrictLambda
