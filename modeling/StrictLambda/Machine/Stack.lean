import StrictLambda.Failure
import StrictLambda.Value.Basic

/-!
# The slot stack

All frames lie on one stack, the running one on top.  A frame that begins at `base` consists of

* the base of the caller's frame,
* the return address,
* the argument, which is register zero,
* the captures, followed by the other registers.

So the registers of the running frame end where the stack ends.
-/

namespace StrictLambda

inductive Slot where
  | empty
  | base (index : Nat)
  | returnTo (address : Address)
  | value (value : Value Entry)

structure Stack where
  slots : Array Slot

namespace Stack

def headerSize : Nat :=
  2

def size (stack : Stack) : Nat :=
  stack.slots.size

/-!
## Registers
-/

def registerOutside (stack : Stack) (base : Nat) (register : Register) : Failure :=
  .defect (.registerOutside register (stack.size - (base + headerSize))) none

def read (stack : Stack) (base : Nat) (register : Register) : Except Failure (Value Entry) :=
  match stack.slots[base + headerSize + register.index]? with
  | some (.value value) => .ok value
  | some .empty => .error (.defect (.unwrittenRegister register) none)
  | some (.base _) => .error (.defect .brokenFrame none)
  | some (.returnTo _) => .error (.defect .brokenFrame none)
  | none => .error (stack.registerOutside base register)

def readAll (stack : Stack) (base : Nat) : List Register -> Except Failure (List (Value Entry))
  | [] => .ok []
  | register :: rest => do
      let value <- stack.read base register
      let values <- stack.readAll base rest
      pure (value :: values)

def write (stack : Stack) (base : Nat) (register : Register) (value : Value Entry) :
    Except Failure Stack :=
  let index := base + headerSize + register.index
  if inside : index < stack.slots.size then
    .ok { slots := stack.slots.set index (.value value) inside }
  else
    .error (stack.registerOutside base register)

/-!
## Frames
-/

/-- The caller's base and the return address of the frame that begins at `base`. -/
def header (stack : Stack) (base : Nat) : Except Failure (Nat × Address) :=
  match stack.slots[base]?, stack.slots[base + 1]? with
  | some (.base saved), some (.returnTo address) => .ok (saved, address)
  | _, _ => .error (.defect .brokenFrame none)

def resize (slots : Array Slot) (size : Nat) : Array Slot :=
  if size <= slots.size then
    slots.shrink size
  else
    slots ++ Array.replicate (size - slots.size) Slot.empty

def enter (stack : Stack) (saved : Nat) (address : Address) (argument : Value Entry)
    (entry : Entry) (captures : List (Value Entry)) : Stack :=
  let top := stack.slots.size + headerSize + entry.frameSize
  let slots := stack.slots.push (.base saved)
  let slots := slots.push (.returnTo address)
  let slots := slots.push (.value argument)
  let slots := captures.foldl (fun slots capture => slots.push (.value capture)) slots
  { slots := resize slots top }

def truncate (stack : Stack) (size : Nat) : Stack :=
  { slots := stack.slots.shrink size }

def outermost (frameSize : Nat) : Stack :=
  { slots := #[.base 0, .returnTo Address.halt] ++ Array.replicate frameSize Slot.empty }

end Stack
end StrictLambda
