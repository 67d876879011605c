import StrictLambda.Block.Basic
import StrictLambda.Proofs.Execution.Process
import StrictLambda.Value.Arithmetic
import StrictLambda.Value.Cells
import StrictLambda.Value.Data
import StrictLambda.Value.Expect

/-!
# Running a tree of blocks

A tree of blocks can be run as it stands, without being laid out.  A frame knows the block it
executes, its position in the list of nodes and its registers; a function refers to the block that
hangs off the node it was created by.

Blocks are told apart by numbers.  A block comes before the blocks nested in it, and those follow,
each with everything nested in it, in the order in which they are created.
-/

namespace StrictLambda

/-!
## Numbers of blocks
-/

mutual

def Block.blockCount : Block -> Nat
  | .mk _ nodes _ => Block.nestedCount nodes + 1

def Block.nestedCount : List Node -> Nat
  | [] => 0
  | .function _ body _ _ :: rest => body.blockCount + Block.nestedCount rest
  | _ :: rest => Block.nestedCount rest

end

def Node.marks (label : Label) : Node -> Bool
  | .label name _ => name = label
  | _ => false

def Node.target? : Node -> Option Label
  | .jump target _ => some target
  | .jumpUnless _ target _ => some target
  | _ => none

namespace Block

structure Body where
  number : Nat
  block : Block

def Body.nested (body : Body) (position : Nat) (block : Block) : Body where
  number := body.number + 1 + nestedCount (body.block.nodes.take position)
  block := block

def labelPosition? (label : Label) : List Node -> Option Nat
  | [] => none
  | node :: rest =>
      match labelPosition? label rest with
      | some position => some (position + 1)
      | none => if node.marks label then some 0 else none

/-!
## Frames
-/

/-- A register that was not written yet holds nothing. -/
structure Frame where
  body : Body
  position : Nat
  registers : List (Option (Value Body))

namespace Frame

def outermost (tree : Block) : Frame where
  body := ⟨0, tree⟩
  position := 0
  registers := List.replicate tree.frameSize none

def enter (body : Body) (argument : Value Body) (captures : List (Value Body)) : Frame where
  body := body
  position := 0
  registers :=
    some argument :: captures.map some ++
      List.replicate (body.block.frameSize - (captures.length + 1)) none

def node? (frame : Frame) : Option Node :=
  frame.body.block.nodes[frame.position]?

def registerOutside (frame : Frame) (register : Register) : Failure :=
  .defect (.registerOutside register frame.registers.length) none

def read (frame : Frame) (register : Register) : Except Failure (Value Body) :=
  match frame.registers[register.index]? with
  | some (some value) => .ok value
  | some none => .error (.defect (.unwrittenRegister register) none)
  | none => .error (frame.registerOutside register)

def readAll (frame : Frame) : List Register -> Except Failure (List (Value Body))
  | [] => .ok []
  | register :: rest => do
      let value <- frame.read register
      let values <- frame.readAll rest
      pure (value :: values)

def write (frame : Frame) (register : Register) (value : Value Body) : Except Failure Frame :=
  if register.index < frame.registers.length then
    .ok { frame with registers := frame.registers.set register.index (some value) }
  else
    .error (frame.registerOutside register)

def goto (frame : Frame) (position : Nat) : Frame :=
  { frame with position := position }

def advance (frame : Frame) : Frame :=
  frame.goto (frame.position + 1)

end Frame

/-- A frame that waits for the result of a call in one of its registers, past the call already. -/
structure Caller where
  frame : Frame
  dest : Register

structure State where
  frame : Frame
  callers : List Caller
  cells : Cells Body

def State.start (tree : Block) : State where
  frame := .outermost tree
  callers := []
  cells := .empty

inductive Transition where
  | next (state : State)
  | done (value : Value Body) (cells : Cells Body)

/-!
## Steps
-/

namespace State

def store (dest : Register) (value : Value Body) (state : State) : Except Failure Transition := do
  let frame <- state.frame.write dest value
  pure (.next { state with frame := frame.advance })

def goto (position : Nat) (state : State) : Transition :=
  .next { state with frame := state.frame.goto position }

def jump (target : Label) (state : State) : Except Failure Transition :=
  match labelPosition? target state.frame.body.block.nodes with
  | some position => .ok (state.goto position)
  | none =>
      .error (.defect (.unknownLabel target) (some state.frame.body.block.span))

def leave (value : Value Body) (state : State) : Except Failure Transition :=
  match state.callers with
  | [] => .ok (.done value state.cells)
  | caller :: rest => do
      let frame <- caller.frame.write caller.dest value
      pure (.next { state with frame := frame, callers := rest })

def perform (span : Span) (state : State) : Operation -> Except Failure Transition
  | .beginFixpoint dest =>
      { state with cells := state.cells.allocate.2 }.store dest
        (.fixpoint state.cells.allocate.1)
  | .derefFixpoint dest source => do
      let found <- state.frame.read source
      let cell <- found.expectCell span
      let value <- blameDefect span (state.cells.read cell)
      state.store dest value
  | .endFixpoint fixpoint source => do
      let found <- state.frame.read fixpoint
      let cell <- found.expectCell span
      let value <- state.frame.read source
      let cells <- blameDefect span (state.cells.tie cell value)
      pure (.next { state with frame := state.frame.advance, cells := cells })
  | .copy dest source => do
      let value <- state.frame.read source
      state.store dest value
  | .member dest source field => do
      let found <- state.frame.read source
      let value <- found.member span field
      state.store dest value
  | .literal dest value =>
      state.store dest (.ofLiteral value)
  | .primitive dest operator lhs rhs => do
      let left <- state.frame.read lhs
      let right <- state.frame.read rhs
      let value <- blameFault span (operator.apply left right)
      state.store dest value
  | .call dest function argument => do
      let callee <- state.frame.read function
      let (body, captures) <- callee.expectFunction span
      let value <- state.frame.read argument
      pure (.next
        { state with
          frame := .enter body value captures
          callers := ⟨state.frame.advance, dest⟩ :: state.callers })
  | .tailCall function argument => do
      let callee <- state.frame.read function
      let (body, captures) <- callee.expectFunction span
      let value <- state.frame.read argument
      pure (.next { state with frame := .enter body value captures })
  | .leave source => do
      let value <- state.frame.read source
      state.leave value
  | .exit source => do
      let value <- state.frame.read source
      pure (.done value state.cells)

def execute (state : State) : Node -> Except Failure Transition
  | .operation action span => state.perform span action
  | .function dest block captures _ => do
      let values <- state.frame.readAll captures
      state.store dest
        (.function (state.frame.body.nested state.frame.position block) values)
  | .data dest type tag fields span => do
      let found <- state.frame.read type
      let (declaration, constructor) <- found.constructorNumbered span tag
      let values <- state.frame.readAll fields
      let value <- Value.construct span declaration constructor tag values
      state.store dest value
  | .dataType dest declaration _ =>
      state.store dest (.dataType declaration)
  | .jump target _ => state.jump target
  | .jumpUnless condition target span => do
      let found <- state.frame.read condition
      let holds <- found.expectBoolean span
      if holds then
        pure (state.goto (state.frame.position + 1))
      else
        state.jump target
  | .label _ _ =>
      .ok (state.goto (state.frame.position + 1))

/-- Executes the node the running frame has come to.  Control never leaves a block whose last node
is a terminator through its end. -/
def step (state : State) : Except Failure Transition :=
  match state.frame.node? with
  | some node => state.execute node
  | none => .error (.defect .unterminatedBlock (some state.frame.body.block.span))

end State

def process : Process State (Value Body × Cells Body) :=
  fun state =>
    match state.step with
    | .ok (.next after) => .again after
    | .ok (.done value cells) => .halt (.ok (value, cells))
    | .error failure => .halt (.error failure)

/-- A function of the block with this number is entered, above so many callers. -/
structure Entrance where
  number : Nat
  callers : Nat

def Node.entersFunction : Node -> Bool
  | .operation (.call _ _ _) _ => true
  | .operation (.tailCall _ _) _ => true
  | _ => false

def State.entrances (state next : State) : List Entrance :=
  if state.frame.node?.any Node.entersFunction then
    [⟨next.frame.body.number, next.callers.length⟩]
  else
    []

def run (tree : Block) (limit : Nat) : Option (Except Failure (Value Body × Cells Body)) :=
  process.run limit (.start tree)

def Reachable (tree : Block) (state : State) : Prop :=
  exists count, process.Steps count (.start tree) state

def identityTree : Block :=
  let span : Span := ⟨⟨0⟩, 0, 0⟩
  let body : Block :=
    .mk 1
      [.jump ⟨0⟩ span, .operation (.exit ⟨0⟩) span, .label ⟨0⟩ span, .operation (.leave ⟨0⟩) span]
      span
  .mk 0
    [.function ⟨0⟩ body [] span, .operation (.literal ⟨1⟩ (.boolean true)) span,
      .operation (.call ⟨2⟩ ⟨0⟩ ⟨1⟩) span, .operation (.exit ⟨2⟩) span]
    span

variable {state after : State}

theorem State.entrances_eq_nil {node : Node} (found : state.frame.node? = some node)
    (stays : Node.entersFunction node = false) : state.entrances after = [] := by
  unfold entrances
  rw [found, Option.any_some, stays, if_neg Bool.false_ne_true]

theorem State.entrances_eq {node : Node} (found : state.frame.node? = some node)
    (enters : Node.entersFunction node = true) :
    state.entrances after = [⟨after.frame.body.number, after.callers.length⟩] := by
  unfold entrances
  rw [found, Option.any_some, enters, if_pos rfl]

theorem process_eq_again_iff : process state = .again after ↔ state.step = .ok (.next after) := by
  unfold process
  split <;> simp_all

theorem process_eq_halt_ok_iff {value : Value Body} {cells : Cells Body} :
    process state = .halt (.ok (value, cells)) ↔ state.step = .ok (.done value cells) := by
  unfold process
  split <;> simp_all

theorem process_eq_halt_error_iff {failure : Failure} :
    process state = .halt (.error failure) ↔ state.step = .error failure := by
  unfold process
  split <;> simp_all

end Block
end StrictLambda
