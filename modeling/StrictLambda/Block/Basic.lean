import StrictLambda.Declaration
import StrictLambda.Operation

/-!
# Blocks

A block is one function body, or the top level, as a list of instructions over the registers of its
own frame.  The body of a function it creates hangs off the creating instruction as a block of its
own.  Jumps name labels of the same block; a label marks a position and does nothing itself.
-/

namespace StrictLambda

mutual

/-- The parameters of a block are the registers its caller fills: the argument and one register per
capture, or none at the top level. -/
inductive Block where
  | mk (parameters : Nat) (nodes : List Node) (span : Span)

inductive Node where
  | operation (action : Operation) (span : Span)
  | function (dest : Register) (body : Block) (captures : List Register) (span : Span)
  | data (dest dataType : Register) (tag : Nat) (fields : List Register) (span : Span)
  | dataType (dest : Register) (declaration : Declaration) (span : Span)
  | jump (target : Label) (span : Span)
  | jumpUnless (condition : Register) (target : Label) (span : Span)
  | label (label : Label) (span : Span)

end

namespace Node

def span : Node -> Span
  | operation _ span => span
  | function _ _ _ span => span
  | data _ _ _ _ span => span
  | dataType _ _ span => span
  | jump _ span => span
  | jumpUnless _ _ span => span
  | label _ span => span

/-- Every register the instruction names in its own block; those of a function's body belong to
another frame. -/
def registers : Node -> List Register
  | operation action _ => action.registers
  | function dest _ captures _ => dest :: captures
  | data dest type _ fields _ => dest :: type :: fields
  | dataType dest _ _ => [dest]
  | jump _ _ => []
  | jumpUnless condition _ _ => [condition]
  | label _ _ => []

def isTerminator : Node -> Bool
  | operation action _ => action.isTerminator
  | _ => false

end Node

namespace Block

def parameters : Block -> Nat
  | mk parameters _ _ => parameters

def nodes : Block -> List Node
  | mk _ nodes _ => nodes

def span : Block -> Span
  | mk _ _ span => span

def frameSize (block : Block) : Nat :=
  (block.nodes.flatMap Node.registers).foldl
    (fun size register => max size (register.index + 1)) block.parameters

def maxRegister? (block : Block) : Option Register :=
  match block.frameSize with
  | 0 => none
  | index + 1 => some ⟨index⟩

def isTerminated (block : Block) : Bool :=
  block.nodes.getLast?.any Node.isTerminator

end Block
end StrictLambda
