import StrictLambda.Block.Basic
import StrictLambda.Failure
import StrictLambda.Program.Basic

/-!
# Laying out blocks

A tree of blocks becomes one program.  The instructions of a block stand together, and the blocks of
the functions it creates follow, each with everything nested in it, in the order in which they are
created.  Labels take no room: a jump goes to the instruction that follows the last occurrence of
its label.

How much room a block takes does not depend on where it is put, so the address of every nested block
is known before the block itself has been laid out.
-/

namespace StrictLambda

/-!
## Sizes

What one instruction, and what a block with all its nested blocks, adds to the code and to the two
tables.
-/

namespace Node

def codeLength : Node -> Nat
  | label _ _ => 0
  | _ => 1

def operands : Node -> List Register
  | function _ _ captures _ => captures
  | data _ _ _ fields _ => fields
  | _ => []

def declarations : Node -> List Declaration
  | dataType _ declaration _ => [declaration]
  | _ => []

end Node

def Block.ownLength : List Node -> Nat
  | [] => 0
  | node :: rest => node.codeLength + Block.ownLength rest

mutual

def Block.codeSize : Block -> Nat
  | .mk _ nodes _ => Block.nodesCodeSize nodes

def Block.nodesCodeSize : List Node -> Nat
  | [] => 0
  | .function _ body _ _ :: rest => 1 + body.codeSize + Block.nodesCodeSize rest
  | node :: rest => node.codeLength + Block.nodesCodeSize rest

end

def Node.bodySize : Node -> Nat
  | function _ body _ _ => body.codeSize
  | _ => 0

/-!
## Positions

The next free place of the code and of the two tables.
-/

structure Frontier where
  code : Nat
  operands : Nat
  declarations : Nat

namespace Frontier

def start : Frontier :=
  { code := 0, operands := 0, declarations := 0 }

def past (frontier : Frontier) (node : Node) : Frontier where
  code := frontier.code + node.bodySize
  operands := frontier.operands + node.operands.length
  declarations := frontier.declarations + node.declarations.length

end Frontier

/-- A stretch of a program: its instructions with their spans, its share of the tables, and the
blocks that lie in it. -/
structure Layout where
  code : List (Instruction × Span)
  operands : List Register
  declarations : List Declaration
  blocks : List Placement

namespace Layout

def empty : Layout :=
  { code := [], operands := [], declarations := [], blocks := [] }

def append (first second : Layout) : Layout where
  code := first.code ++ second.code
  operands := first.operands ++ second.operands
  declarations := first.declarations ++ second.declarations
  blocks := first.blocks ++ second.blocks

def finish (layout : Layout) (frontier : Frontier) : Frontier where
  code := frontier.code + layout.code.length
  operands := frontier.operands + layout.operands.length
  declarations := frontier.declarations + layout.declarations.length

end Layout

/-!
## Instructions
-/

/-- The address of a label, when the nodes are laid out from the given position on.  Of several
occurrences the last one counts. -/
def labelAddress? (label : Label) : Nat -> List Node -> Option Address
  | _, [] => none
  | position, .label name _ :: rest =>
      match labelAddress? label position rest with
      | some address => some address
      | none => if name = label then some ⟨position⟩ else none
  | position, node :: rest => labelAddress? label (position + node.codeLength) rest

/-- A jump to a label that the block does not have is blamed on the block. -/
def resolveLabel (labels : Label -> Option Address) (blame : Span) (label : Label) :
    Except Failure Address :=
  match labels label with
  | some address => .ok address
  | none => .error (.defect (.unknownLabel label) (some blame))

/-- The instructions a node becomes, none for a label.  The frontier says where its nested block and
its share of the tables go. -/
def Node.place (labels : Label -> Option Address) (blame : Span) (frontier : Frontier) :
    Node -> Except Failure (List (Instruction × Span))
  | .operation action span => .ok [(.operation action, span)]
  | .function dest body captures span =>
      if body.parameters = captures.length + 1 then
        let entry : Entry := { body := ⟨frontier.code⟩, frameSize := body.frameSize }
        .ok [(.function dest entry ⟨frontier.operands, captures.length⟩, span)]
      else
        .error (.defect (.captureCount (body.parameters - 1) captures.length) (some span))
  | .data dest type tag fields span =>
      .ok [(.data dest type tag ⟨frontier.operands, fields.length⟩, span)]
  | .dataType dest _ span => .ok [(.dataType dest frontier.declarations, span)]
  | .jump target span => do
      let address <- resolveLabel labels blame target
      pure [(.jump address, span)]
  | .jumpUnless condition target span => do
      let address <- resolveLabel labels blame target
      pure [(.jumpUnless condition address, span)]
  | .label _ _ => .ok []

def placeNodes (labels : Label -> Option Address) (blame : Span) :
    Frontier -> List Node -> Except Failure (List (Instruction × Span))
  | _, [] => .ok []
  | frontier, node :: rest => do
      let own <- node.place labels blame frontier
      let others <- placeNodes labels blame (frontier.past node) rest
      pure (own ++ others)

/-!
## Blocks
-/

def Block.placeOwn (frontier : Frontier) (block : Block) : Except Failure Layout := do
  if block.isTerminated then
    let length := ownLength block.nodes
    let code <-
      placeNodes (fun label => labelAddress? label frontier.code block.nodes) block.span
        { frontier with code := frontier.code + length } block.nodes
    pure
      { code := code
        operands := block.nodes.flatMap Node.operands
        declarations := block.nodes.flatMap Node.declarations
        blocks := [⟨⟨frontier.code⟩, length, block.frameSize⟩] }
  else
    throw (.defect .unterminatedBlock (some block.span))

mutual

/-- A block comes before the blocks nested in it, also when something is wrong in both. -/
def Block.place (frontier : Frontier) : Block -> Except Failure Layout
  | .mk parameters nodes span => do
      let own <- Block.placeOwn frontier (.mk parameters nodes span)
      let nested <- Block.placeNested (own.finish frontier) nodes
      pure (own.append nested)

def Block.placeNested (frontier : Frontier) : List Node -> Except Failure Layout
  | [] => .ok .empty
  | .function _ body _ _ :: rest => do
      let first <- Block.place frontier body
      let others <- Block.placeNested (first.finish frontier) rest
      pure (first.append others)
  | _ :: rest => Block.placeNested frontier rest

end

namespace Program

/-- The program of a top-level block.  It fails on the first block that control could run out of,
the first jump to a label that is not there, or the first function whose body takes another number
of captures. -/
def ofBlock (block : Block) : Except Failure Program := do
  let layout <- block.place .start
  pure
    { code := (layout.code.map Prod.fst).toArray
      spans := (layout.code.map Prod.snd).toArray
      operands := layout.operands.toArray
      declarations := layout.declarations.toArray
      blocks := layout.blocks
      entry := ⟨0⟩
      entryFrameSize := block.frameSize }

end Program
end StrictLambda
