/-!
# Literals and operators

The constants a program can mention and the operators it can apply to them.
-/

namespace StrictLambda

inductive Literal where
  | integer (value : Int64)
  | boolean (value : Bool)
deriving DecidableEq

def Literal.text : Literal -> String
  | .integer value => toString value.toInt
  | .boolean value => toString value

inductive Operator where
  | add | sub | mul | div
  | eq | ne | lt | le
deriving DecidableEq

def Operator.symbol : Operator -> String
  | .add => "+"
  | .sub => "-"
  | .mul => "*"
  | .div => "/"
  | .eq => "=="
  | .ne => "!="
  | .lt => "<"
  | .le => "<="

end StrictLambda
