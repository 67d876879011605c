import StrictLambda.Term.Basic

/-!
# Free variables

The free variables of a term in the order in which a walk from left to right first meets them.
That order fixes where a function finds its captures, so it has to be a function of the term alone.

The walk carries the numbers bound around the current position and the bindings found so far.  A
binding is kept as it was written at the first occurrence.
-/

namespace StrictLambda
namespace Term

mutual

/-- The bindings found before this term, followed by the new ones that occur free in it. -/
def collectFree (bound : List Nat) (found : List Binding) : Term -> List Binding
  | .var _ binding =>
      if bound.contains binding.id || found.any (fun earlier => earlier.id == binding.id) then
        found
      else
        found ++ [binding]
  | .abs _ parameter body =>
      collectFree (parameter.id :: bound) found body
  | .app _ function argument =>
      collectFree bound (collectFree bound found function) argument
  | .letIn _ binding definition body =>
      let inside := binding.id :: bound
      collectFree inside (collectFree inside found definition) body
  | .group _ inner =>
      collectFree bound found inner
  | .dataType _ _ =>
      found
  | .data _ type _ fields =>
      collectFreeList bound (collectFree bound found type) fields
  | .member _ value _ =>
      collectFree bound found value
  | .literal _ _ =>
      found
  | .binary _ _ lhs rhs =>
      collectFree bound (collectFree bound found lhs) rhs
  | .cond _ condition consequent alternative =>
      collectFree bound
        (collectFree bound (collectFree bound found condition) consequent) alternative

def collectFreeList (bound : List Nat) (found : List Binding) : List Term -> List Binding
  | [] => found
  | term :: rest => collectFreeList bound (collectFree bound found term) rest

end

def freeVariables (term : Term) : List Binding :=
  collectFree [] [] term

/-- Whether the binding occurs free in the term, which makes a definition of it recursive. -/
def mentions (term : Term) (binding : Binding) : Bool :=
  term.freeVariables.any (fun free => free.id == binding.id)

end Term
end StrictLambda
