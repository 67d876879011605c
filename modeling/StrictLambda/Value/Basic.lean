import StrictLambda.Declaration
import StrictLambda.Failure
import StrictLambda.Literal

/-!
# Values

The values programs compute with.  How a function refers to its code is left open, so that the same
values serve every way of running a program.

A recursive binding is a reference to a cell: its value is not known yet when functions that mention
it are created.
-/

namespace StrictLambda

structure Cell where
  index : Nat
deriving DecidableEq

/-- A function carries the values it captured, in capture order.  A data value carries the
declaration its constructor number refers to. -/
inductive Value (Code : Type) where
  | integer (value : Int64)
  | boolean (value : Bool)
  | function (code : Code) (captures : List (Value Code))
  | dataType (declaration : Declaration)
  | data (declaration : Declaration) (tag : Nat) (fields : List (Value Code))
  | fixpoint (cell : Cell)

namespace Value

variable {Code : Type}

def kind : Value Code -> Kind
  | integer _ => .integer
  | boolean _ => .boolean
  | function _ _ => .function
  | dataType _ => .dataType
  | data _ _ _ => .data
  | fixpoint _ => .fixpoint

def ofLiteral : Literal -> Value Code
  | .integer value => integer value
  | .boolean value => boolean value

def integer? : Value Code -> Option Int64
  | integer value => some value
  | _ => none

def boolean? : Value Code -> Option Bool
  | boolean value => some value
  | _ => none

def constructor? : Value Code -> Option Constructor
  | data declaration tag _ => declaration.constructors[tag]?
  | _ => none

end Value
end StrictLambda
