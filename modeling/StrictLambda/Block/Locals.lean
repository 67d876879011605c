import StrictLambda.Register
import StrictLambda.Term.Basic

/-!
# Locals

Where the bindings visible in one block live.  There is no link to the enclosing block: a function
body sees what surrounds it only through its captures, which have registers of their own.
-/

namespace StrictLambda

/-- The register of a binding.  A placeholder holds the cell of a recursive binding whose definition
is still being built, and is read through the cell. -/
structure Local where
  register : Register
  placeholder : Bool
deriving DecidableEq

structure Locals where
  entries : List (Nat × Local)

namespace Locals

def empty : Locals :=
  { entries := [] }

def get? (locals : Locals) (binding : Binding) : Option Local :=
  locals.entries.lookup binding.id

def define (locals : Locals) (binding : Binding) (place : Local) : Locals :=
  { entries := (binding.id, place) :: locals.entries }

/-- Adds captures from the given register on.  A capture is a placeholder in the function exactly
when it was one outside. -/
def defineCaptures : Locals -> Nat -> List (Binding × Local) -> Locals
  | locals, _, [] => locals
  | locals, index, (binding, outer) :: rest =>
      let place : Local := { register := ⟨index⟩, placeholder := outer.placeholder }
      defineCaptures (locals.define binding place) (index + 1) rest

def ofFunction (parameter : Binding) (captures : List (Binding × Local)) : Locals :=
  let place : Local := { register := Register.argument, placeholder := false }
  defineCaptures (empty.define parameter place) 1 captures

end Locals
end StrictLambda
