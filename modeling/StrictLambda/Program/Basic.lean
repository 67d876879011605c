import StrictLambda.Declaration
import StrictLambda.Operation

/-!
# Programs

A program is one array of instructions.  Every block of it takes a contiguous range, and jumps and
functions name absolute addresses.  Lists of operands, and declarations, are kept in tables beside
the code, so that an instruction has a fixed shape.

Nothing here asks a program to be sensible: reading outside of a table gives nothing.
-/

namespace StrictLambda

structure Segment where
  start : Nat
  length : Nat
deriving DecidableEq

inductive Instruction where
  | operation (action : Operation)
  | function (dest : Register) (entry : Entry) (captures : Segment)
  | data (dest dataType : Register) (tag : Nat) (fields : Segment)
  | dataType (dest : Register) (declaration : Nat)
  | jump (target : Address)
  | jumpUnless (condition : Register) (target : Address)
deriving DecidableEq

/-- Where a block lies in the code, and how many registers its frames have. -/
structure Placement where
  start : Address
  length : Nat
  frameSize : Nat
deriving DecidableEq

def Placement.contains (placement : Placement) (address : Address) : Bool :=
  placement.start.index <= address.index &&
    address.index < placement.start.index + placement.length

/-- The span of an instruction has the same index as the instruction. -/
structure Program where
  code : Array Instruction
  spans : Array Span
  operands : Array Register
  declarations : Array Declaration
  blocks : List Placement
  entry : Address
  entryFrameSize : Nat

namespace Program

def size (program : Program) : Nat :=
  program.code.size

def isEmpty (program : Program) : Bool :=
  program.code.isEmpty

/-- An instruction can be fetched only together with its span. -/
def fetch? (program : Program) (address : Address) : Option (Instruction × Span) :=
  match program.code[address.index]?, program.spans[address.index]? with
  | some instruction, some span => some (instruction, span)
  | _, _ => none

def operands? (program : Program) (segment : Segment) : Option (List Register) :=
  if segment.start + segment.length <= program.operands.size then
    some (program.operands.extract segment.start (segment.start + segment.length)).toList
  else
    none

def declaration? (program : Program) (index : Nat) : Option Declaration :=
  program.declarations[index]?

def blockOf? (program : Program) (address : Address) : Option Placement :=
  program.blocks.find? fun placement => placement.contains address

end Program
end StrictLambda
