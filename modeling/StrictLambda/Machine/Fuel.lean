/-!
# Fuel

One unit of fuel pays for one instruction.  Amounts are integers of 32 bits and stay at the ends of
that range instead of wrapping around.
-/

namespace StrictLambda

/-- The host can interrupt a machine through its fuel.  The fuel is then left as it is, but nothing
runs on it until it is refilled. -/
structure Fuel where
  remaining : Int32
  interrupted : Bool
deriving DecidableEq

namespace Fuel

def full (amount : Int32) : Fuel :=
  { remaining := amount, interrupted := false }

def empty : Fuel :=
  full 0

/-- Adds to the fuel, up to the cap, and takes back an interruption. -/
def refill (fuel : Fuel) (amount cap : Int32) : Fuel :=
  let sum := Int32.ofIntClamp (fuel.remaining.toInt + amount.toInt)
  { remaining := if sum <= cap then sum else cap, interrupted := false }

def consume (fuel : Fuel) (amount : Int32) : Fuel :=
  { fuel with remaining := Int32.ofIntClamp (fuel.remaining.toInt - amount.toInt) }

def interrupt (fuel : Fuel) : Fuel :=
  { fuel with interrupted := true }

def available (fuel : Fuel) : Nat :=
  if fuel.interrupted then 0 else fuel.remaining.toInt.toNat

def canContinue (fuel : Fuel) : Bool :=
  0 < fuel.available

@[simp]
theorem available_interrupt (fuel : Fuel) : fuel.interrupt.available = 0 :=
  rfl

@[simp]
theorem remaining_interrupt (fuel : Fuel) : fuel.interrupt.remaining = fuel.remaining :=
  rfl

end Fuel
end StrictLambda
