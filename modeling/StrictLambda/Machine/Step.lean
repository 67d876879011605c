import StrictLambda.Machine.Stack
import StrictLambda.Program.Basic
import StrictLambda.Value.Arithmetic
import StrictLambda.Value.Cells
import StrictLambda.Value.Data
import StrictLambda.Value.Expect

/-!
# Single steps

One instruction of a program.  Operands are read and checked one after the other, the destination is
written last, and the first thing that goes wrong is what the step fails with.

A call pushes a frame.  A tail call builds the frame of the callee in the place of the running one
and keeps its header.  A return drops the running frame and writes the result to the destination
of the call that stands just before the return address.
-/

namespace StrictLambda

/-- `base` is where the running frame begins, and `peak` is the greatest size the stack has had at
the end of an instruction. -/
structure State where
  pc : Address
  base : Nat
  peak : Nat
  stack : Stack
  cells : Cells Entry

def State.start (program : Program) : State where
  pc := program.entry
  base := 0
  peak := Stack.headerSize + program.entryFrameSize
  stack := .outermost program.entryFrameSize
  cells := .empty

inductive Transition where
  | next (state : State)
  | done (value : Value Entry) (cells : Cells Entry)

/-!
## Looking into the program
-/

namespace Program

def operandRegisters (program : Program) (segment : Segment) : Except Failure (List Register) :=
  match program.operands? segment with
  | some registers => .ok registers
  | none => .error (.defect .operandsOutside none)

def returnRegister (program : Program) (address : Address) : Except Failure Register :=
  match address.index with
  | 0 => .error (.defect .brokenFrame none)
  | index + 1 =>
      match program.fetch? ⟨index⟩ with
      | some (.operation (.call dest _ _), _) => .ok dest
      | _ => .error (.defect .brokenFrame none)

end Program

/-!
## Parts of an instruction

Each of these hands on the state it is given, so that no stack is ever copied.
-/

namespace State

def read (state : State) (register : Register) : Except Failure (Value Entry) :=
  state.stack.read state.base register

def readAll (state : State) (registers : List Register) : Except Failure (List (Value Entry)) :=
  state.stack.readAll state.base registers

def goto (address : Address) : State -> Transition
  | ⟨_, base, peak, stack, cells⟩ => .next ⟨address, base, max peak stack.size, stack, cells⟩

def store (dest : Register) (value : Value Entry) : State -> Except Failure Transition
  | ⟨pc, base, peak, stack, cells⟩ => do
      let stack <- stack.write base dest value
      pure (goto pc.next ⟨pc, base, peak, stack, cells⟩)

def allocate : State -> Cell × State
  | ⟨pc, base, peak, stack, cells⟩ =>
      let (cell, cells) := cells.allocate
      (cell, ⟨pc, base, peak, stack, cells⟩)

def tie (span : Span) (cell : Cell) (value : Value Entry) : State -> Except Failure State
  | ⟨pc, base, peak, stack, cells⟩ => do
      let cells <- blameDefect span (cells.tie cell value)
      pure ⟨pc, base, peak, stack, cells⟩

def call (argument : Value Entry) (entry : Entry) (captures : List (Value Entry)) :
    State -> Transition
  | ⟨pc, base, peak, stack, cells⟩ =>
      let top := stack.size
      let stack := stack.enter base pc.next argument entry captures
      goto entry.body ⟨pc, top, peak, stack, cells⟩

/-- Replaces the running frame by one that returns to the same place. -/
def tailCall (argument : Value Entry) (entry : Entry) (captures : List (Value Entry)) :
    State -> Except Failure Transition
  | ⟨pc, base, peak, stack, cells⟩ => do
      let (saved, address) <- stack.header base
      let stack := (stack.truncate base).enter saved address argument entry captures
      pure (goto entry.body ⟨pc, base, peak, stack, cells⟩)

/-- Drops the running frame.  The outermost one takes the whole run with it. -/
def leave (program : Program) (value : Value Entry) : State -> Except Failure Transition
  | ⟨pc, base, peak, stack, cells⟩ => do
      let (saved, address) <- stack.header base
      if address = Address.halt then
        pure (.done value cells)
      else do
        let dest <- program.returnRegister address
        let stack <- (stack.truncate base).write saved dest value
        pure (goto address ⟨pc, saved, peak, stack, cells⟩)

/-!
## Instructions
-/

def perform (program : Program) (span : Span) (state : State) :
    Operation -> Except Failure Transition
  | .beginFixpoint dest =>
      let (cell, state) := state.allocate
      state.store dest (.fixpoint cell)
  | .derefFixpoint dest source => do
      let found <- state.read source
      let cell <- found.expectCell span
      let value <- blameDefect span (state.cells.read cell)
      state.store dest value
  | .endFixpoint fixpoint source => do
      let found <- state.read fixpoint
      let cell <- found.expectCell span
      let value <- state.read source
      let pc := state.pc
      let state <- state.tie span cell value
      pure (state.goto pc.next)
  | .copy dest source => do
      let value <- state.read source
      state.store dest value
  | .member dest source field => do
      let found <- state.read source
      let value <- found.member span field
      state.store dest value
  | .literal dest value =>
      state.store dest (.ofLiteral value)
  | .primitive dest operator lhs rhs => do
      let left <- state.read lhs
      let right <- state.read rhs
      let value <- blameFault span (operator.apply left right)
      state.store dest value
  | .call _ function argument => do
      let callee <- state.read function
      let (entry, captures) <- callee.expectFunction span
      let value <- state.read argument
      pure (state.call value entry captures)
  | .tailCall function argument => do
      let callee <- state.read function
      let (entry, captures) <- callee.expectFunction span
      let value <- state.read argument
      state.tailCall value entry captures
  | .leave source => do
      let value <- state.read source
      state.leave program value
  | .exit source => do
      let value <- state.read source
      pure (.done value state.cells)

def execute (program : Program) (span : Span) (state : State) :
    Instruction -> Except Failure Transition
  | .operation action => state.perform program span action
  | .function dest entry captures => do
      let registers <- program.operandRegisters captures
      let values <- state.readAll registers
      state.store dest (.function entry values)
  | .data dest type tag fields => do
      let found <- state.read type
      let (declaration, constructor) <- found.constructorNumbered span tag
      let registers <- program.operandRegisters fields
      let values <- state.readAll registers
      let value <- Value.construct span declaration constructor tag values
      state.store dest value
  | .dataType dest index =>
      match program.declaration? index with
      | some declaration => state.store dest (.dataType declaration)
      | none => .error (.defect .operandsOutside none)
  | .jump target =>
      .ok (state.goto target)
  | .jumpUnless condition target => do
      let found <- state.read condition
      let holds <- found.expectBoolean span
      let pc := state.pc
      pure (state.goto (if holds then pc.next else target))

def step (program : Program) (state : State) : Except Failure Transition :=
  match program.fetch? state.pc with
  | some (instruction, span) => state.execute program span instruction
  | none => .error (.defect (.addressOutside state.pc) none)

end State
end StrictLambda
