import StrictLambda.Value.Basic

/-!
# Operators

Integers are those of 64 bits.  The results of addition, subtraction, multiplication and division
are exact: one that does not fit is a fault and never wraps around.  Division drops the fraction.

Operands are checked from left to right, and before anything is said about their values.
-/

namespace StrictLambda

namespace Value

variable {Code : Type}

/-- An exact result, unless it lies outside of the integers of 64 bits. -/
def exactInteger (result : Int) : Except Fault (Value Code) :=
  if Int64.minValue.toInt <= result && result <= Int64.maxValue.toInt then
    .ok (integer (Int64.ofInt result))
  else
    .error .overflow

def expectInteger (value : Value Code) : Except Fault Int :=
  match value.integer? with
  | some number => .ok number.toInt
  | none => .error (.notInteger value.kind)

def same (lhs rhs : Value Code) : Except Fault Bool :=
  match lhs, rhs with
  | integer left, integer right => .ok (left == right)
  | boolean left, boolean right => .ok (left == right)
  | left, right => .error (.incomparable left.kind right.kind)

end Value

namespace Operator

variable {Code : Type}

def apply (operator : Operator) (lhs rhs : Value Code) : Except Fault (Value Code) :=
  match operator with
  | eq => do
      let equal <- lhs.same rhs
      pure (.boolean equal)
  | ne => do
      let equal <- lhs.same rhs
      pure (.boolean (!equal))
  | lt => do
      let left <- lhs.expectInteger
      let right <- rhs.expectInteger
      pure (.boolean (left < right))
  | le => do
      let left <- lhs.expectInteger
      let right <- rhs.expectInteger
      pure (.boolean (left <= right))
  | add => do
      let left <- lhs.expectInteger
      let right <- rhs.expectInteger
      Value.exactInteger (left + right)
  | sub => do
      let left <- lhs.expectInteger
      let right <- rhs.expectInteger
      Value.exactInteger (left - right)
  | mul => do
      let left <- lhs.expectInteger
      let right <- rhs.expectInteger
      Value.exactInteger (left * right)
  | div => do
      let left <- lhs.expectInteger
      let right <- rhs.expectInteger
      if right = 0 then
        throw .divisionByZero
      else
        Value.exactInteger (left.tdiv right)

end Operator
end StrictLambda
