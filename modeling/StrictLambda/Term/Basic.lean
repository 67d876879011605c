import StrictLambda.Declaration
import StrictLambda.Literal
import StrictLambda.Span

/-!
# Terms

Terms arrive with their variables resolved: an occurrence carries the binding that introduced it,
and bindings are told apart by their number alone.  Every node carries its span.
-/

namespace StrictLambda

/-- A place where a name is bound, or an occurrence of it. -/
structure Binding where
  name : Symbol
  id : Nat
deriving DecidableEq

structure Binder where
  nextId : Nat

namespace Binder

def start : Binder :=
  { nextId := 0 }

def fresh (binder : Binder) (name : Symbol) : Binding × Binder :=
  ({ name := name, id := binder.nextId }, { nextId := binder.nextId + 1 })

end Binder

/-- A binding is in scope in its own definition, so a `letIn` whose definition mentions it is
recursive. -/
inductive Term where
  | var (span : Span) (binding : Binding)
  | abs (span : Span) (parameter : Binding) (body : Term)
  | app (span : Span) (function argument : Term)
  | letIn (span : Span) (binding : Binding) (definition body : Term)
  | group (span : Span) (inner : Term)
  | dataType (span : Span) (declaration : Declaration)
  | data (span : Span) (dataType : Term) (tag : Nat) (fields : List Term)
  | member (span : Span) (value : Term) (field : Symbol)
  | literal (span : Span) (value : Literal)
  | binary (span : Span) (operator : Operator) (lhs rhs : Term)
  | cond (span : Span) (condition consequent alternative : Term)

def Term.span : Term -> Span
  | .var span _ => span
  | .abs span _ _ => span
  | .app span _ _ => span
  | .letIn span _ _ _ => span
  | .group span _ => span
  | .dataType span _ => span
  | .data span _ _ _ => span
  | .member span _ _ => span
  | .literal span _ => span
  | .binary span _ _ _ => span
  | .cond span _ _ _ => span

end StrictLambda
