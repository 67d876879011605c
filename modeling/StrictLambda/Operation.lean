import StrictLambda.Literal
import StrictLambda.Register
import StrictLambda.Span

/-!
# Register operations

The instructions that mean the same wherever they stand: they name registers of the running frame
and nothing else.  Blocks and flat programs share them, and each adds the instructions that refer
to code, to operand lists and to declarations in its own way.
-/

namespace StrictLambda

inductive Operation where
  | beginFixpoint (dest : Register)
  | derefFixpoint (dest source : Register)
  | endFixpoint (fixpoint value : Register)
  | copy (dest source : Register)
  | member (dest source : Register) (field : Symbol)
  | literal (dest : Register) (value : Literal)
  | primitive (dest : Register) (operator : Operator) (lhs rhs : Register)
  | call (dest function argument : Register)
  | tailCall (function argument : Register)
  | leave (source : Register)
  | exit (source : Register)
deriving DecidableEq

namespace Operation

/-- Every register the operation names, the one it writes first. -/
def registers : Operation -> List Register
  | beginFixpoint dest => [dest]
  | derefFixpoint dest source => [dest, source]
  | endFixpoint fixpoint value => [fixpoint, value]
  | copy dest source => [dest, source]
  | member dest source _ => [dest, source]
  | literal dest _ => [dest]
  | primitive dest _ lhs rhs => [dest, lhs, rhs]
  | call dest function argument => [dest, function, argument]
  | tailCall function argument => [function, argument]
  | leave source => [source]
  | exit source => [source]

def isTerminator : Operation -> Bool
  | tailCall _ _ => true
  | leave _ => true
  | exit _ => true
  | _ => false

def text (name : Symbol -> String) : Operation -> String
  | beginFixpoint dest =>
      dest.text ++ " = begin-fixpoint"
  | derefFixpoint dest source =>
      dest.text ++ " = deref-fixpoint " ++ source.text
  | endFixpoint fixpoint value =>
      "end-fixpoint " ++ fixpoint.text ++ " " ++ value.text
  | copy dest source =>
      dest.text ++ " = copy " ++ source.text
  | member dest source field =>
      dest.text ++ " = member " ++ source.text ++ " ." ++ name field
  | literal dest value =>
      dest.text ++ " = literal " ++ value.text
  | primitive dest operator lhs rhs =>
      dest.text ++ " = " ++ lhs.text ++ " " ++ operator.symbol ++ " " ++ rhs.text
  | call dest function argument =>
      dest.text ++ " = call " ++ function.text ++ " " ++ argument.text
  | tailCall function argument =>
      "tail-call " ++ function.text ++ " " ++ argument.text
  | leave source =>
      "return " ++ source.text
  | exit source =>
      "exit " ++ source.text

end Operation
end StrictLambda
