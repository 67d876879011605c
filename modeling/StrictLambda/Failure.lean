import StrictLambda.Register
import StrictLambda.Span

/-!
# Failures

There are two kinds.  A *defect* means that the compiler or the machine was handed something
malformed.  A *fault* is a mistake of the evaluated program, found when it is made.  Neither is
recovered from.

The texts are written once, relative to a function that turns symbols into text, so that the same
words come out with names filled in or with bare numbers.
-/

namespace StrictLambda

inductive Kind where
  | integer | boolean | function | dataType | data | fixpoint
deriving DecidableEq

def Kind.text : Kind -> String
  | .integer => "integer"
  | .boolean => "boolean"
  | .function => "function"
  | .dataType => "data type"
  | .data => "data"
  | .fixpoint => "fixpoint"

/-! ## Defects -/

inductive Defect where
  | unboundVariable (name : Symbol)
  | unterminatedBlock
  | unknownLabel (label : Label)
  | registerOutside (register : Register) (frameSize : Nat)
  | addressOutside (address : Address)
  | operandsOutside
  | captureCount (expected found : Nat)
  | unwrittenRegister (register : Register)
  | untied
  | tiedTwice
  | notFixpoint (found : Kind)
  | brokenFrame
  | halted
deriving DecidableEq

def Defect.text (name : Symbol -> String) : Defect -> String
  | .unboundVariable symbol =>
      "variable " ++ name symbol ++ " has no binding in scope"
  | .unterminatedBlock =>
      "block does not end in return, tail call or exit"
  | .unknownLabel label =>
      "jump to undefined label " ++ toString label.number
  | .registerOutside register frameSize =>
      "register " ++ register.text ++ " outside of frame of size " ++ toString frameSize
  | .addressOutside address =>
      "address " ++ address.text ++ " outside of program"
  | .operandsOutside =>
      "operand list outside of program"
  | .captureCount expected found =>
      "function body takes " ++ toString expected ++ " captures, given " ++ toString found
  | .unwrittenRegister register =>
      "register " ++ register.text ++ " read before being written"
  | .untied =>
      "recursive binding read before it was tied"
  | .tiedTwice =>
      "recursive binding tied twice"
  | .notFixpoint found =>
      "expected a fixpoint, found " ++ found.text
  | .brokenFrame =>
      "corrupt frame header"
  | .halted =>
      "machine halted after an earlier error"

/-! ## Faults -/

inductive Fault where
  | notFunction (found : Kind)
  | notData (field : Symbol) (found : Kind)
  | missingField (constructor field : Symbol)
  | notDataType (found : Kind)
  | unknownConstructor (dataType : Symbol) (tag : Nat)
  | arity (constructor : Symbol) (expected found : Nat)
  | notInteger (found : Kind)
  | notBoolean (found : Kind)
  | incomparable (lhs rhs : Kind)
  | divisionByZero
  | overflow
deriving DecidableEq

def Fault.text (name : Symbol -> String) : Fault -> String
  | .notFunction found =>
      "cannot call " ++ found.text ++ ", it is not a function"
  | .notData field found =>
      "cannot access field " ++ name field ++ " of " ++ found.text
  | .missingField constructor field =>
      "constructor " ++ name constructor ++ " has no field " ++ name field
  | .notDataType found =>
      "expected a data type, found " ++ found.text
  | .unknownConstructor dataType tag =>
      "data type " ++ name dataType ++ " has no constructor number " ++ toString tag
  | .arity constructor expected found =>
      "constructor " ++ name constructor ++ " takes " ++ toString expected ++ " fields, got " ++
        toString found
  | .notInteger found =>
      "expected an integer, found " ++ found.text
  | .notBoolean found =>
      "expected a boolean, found " ++ found.text
  | .incomparable lhs rhs =>
      "cannot compare " ++ lhs.text ++ " with " ++ rhs.text
  | .divisionByZero =>
      "division by zero"
  | .overflow =>
      "integer overflow"

/-! ## Failures of either kind -/

/-- A fault always has a place in the source; a defect has one where an instruction or a term is
to blame. -/
inductive Failure where
  | defect (cause : Defect) (span : Option Span)
  | fault (cause : Fault) (span : Span)
deriving DecidableEq

namespace Failure

def span : Failure -> Option Span
  | .defect _ span => span
  | .fault _ span => some span

def isDefect : Failure -> Bool
  | .defect _ _ => true
  | .fault _ _ => false

def message (name : Symbol -> String) : Failure -> String
  | .defect cause _ => "invariant violated: " ++ cause.text name
  | .fault cause _ => "runtime error: " ++ cause.text name

/-- The message as the host wants it shown at a place in the source.  A failure without a place is
the bare message. -/
def report (name : Symbol -> String) (locate : String -> Span -> String) (failure : Failure) :
    String :=
  match failure.span with
  | some span => locate (failure.message name) span
  | none => failure.message name

end Failure

/-!
## Blame

Whoever knows the place in the source adds it to the cause.
-/

def blameDefect {Result : Type} (span : Span) : Except Defect Result -> Except Failure Result
  | .ok result => .ok result
  | .error cause => .error (.defect cause (some span))

def blameFault {Result : Type} (span : Span) : Except Fault Result -> Except Failure Result
  | .ok result => .ok result
  | .error cause => .error (.fault cause span)

end StrictLambda
