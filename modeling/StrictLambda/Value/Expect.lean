import StrictLambda.Value.Basic

/-!
# Values of an expected kind

What an instruction can ask of an operand.  Only a program that was malformed from the start can
offer something else for a cell; anything else is a mistake of the program itself.
-/

namespace StrictLambda
namespace Value

variable {Code : Type}

def expectCell (span : Span) : Value Code -> Except Failure Cell
  | fixpoint cell => .ok cell
  | other => .error (.defect (.notFixpoint other.kind) (some span))

def expectFunction (span : Span) : Value Code -> Except Failure (Code × List (Value Code))
  | function code captures => .ok (code, captures)
  | other => .error (.fault (.notFunction other.kind) span)

def expectBoolean (span : Span) : Value Code -> Except Failure Bool
  | boolean value => .ok value
  | other => .error (.fault (.notBoolean other.kind) span)

end Value
end StrictLambda
