import StrictLambda.Name

/-!
# Data type declarations

A data type is an ordered list of constructors, each with an ordered list of field names.  Neither
names of constructors nor names of fields have to be distinct; the first one counts.
-/

namespace StrictLambda

structure Constructor where
  name : Symbol
  fields : List Symbol
deriving DecidableEq

def Constructor.fieldIndex? (constructor : Constructor) (field : Symbol) : Option Nat :=
  constructor.fields.idxOf? field

structure Declaration where
  name : Symbol
  constructors : List Constructor
deriving DecidableEq

end StrictLambda
