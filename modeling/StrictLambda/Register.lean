/-!
# Registers and addresses

Registers count from the start of the running frame, addresses from the start of the program, and
labels name positions inside one block.  Each has a type of its own, so none can stand in for
another.
-/

namespace StrictLambda

structure Register where
  index : Nat
deriving DecidableEq

namespace Register

def argument : Register :=
  ⟨0⟩

def text (register : Register) : String :=
  "r" ++ toString register.index

def listText (registers : List Register) : String :=
  "[" ++ String.intercalate ", " (registers.map text) ++ "]"

end Register

structure Label where
  number : Nat
deriving DecidableEq

def Label.text (label : Label) : String :=
  "L" ++ toString label.number

structure Address where
  index : Nat
deriving DecidableEq

namespace Address

/-- The return address of the outermost frame, the largest that 32 bits can hold. -/
def halt : Address :=
  ⟨4294967295⟩

def next (address : Address) : Address :=
  ⟨address.index + 1⟩

/-- Addresses are padded with zeros to four digits; the halting address has a name instead. -/
def text (address : Address) : String :=
  if address = halt then
    "@halt"
  else
    let digits := toString address.index
    "@" ++ String.ofList (List.replicate (4 - digits.length) '0') ++ digits

end Address

/-- What a function needs of its code: where the body starts, and how many registers it uses. -/
structure Entry where
  body : Address
  frameSize : Nat
deriving DecidableEq

end StrictLambda
