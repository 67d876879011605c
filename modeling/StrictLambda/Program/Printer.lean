import StrictLambda.Program.Basic

/-!
# Printing programs

One line per instruction, under its address.  A block is announced by a line of its own before its
first instruction.
-/

namespace StrictLambda
namespace Program

def operandsText (program : Program) (segment : Segment) : String :=
  Register.listText ((program.operands? segment).getD [])

def instructionText (program : Program) (name : Symbol -> String) : Instruction -> String
  | .operation action => action.text name
  | .function dest entry captures =>
      dest.text ++ " = function " ++ entry.body.text ++ " (frame " ++ toString entry.frameSize ++
        ") " ++ program.operandsText captures
  | .data dest type tag fields =>
      dest.text ++ " = data " ++ type.text ++ " #" ++ toString tag ++ " " ++
        program.operandsText fields
  | .dataType dest index =>
      match program.declaration? index with
      | some declaration => dest.text ++ " = datatype " ++ name declaration.name
      | none => dest.text ++ " = datatype ?" ++ toString index
  | .jump target => "jump " ++ target.text
  | .jumpUnless condition target => "jump-unless " ++ condition.text ++ " " ++ target.text

/-- The line that announces the block starting at an address, if the address lies in a block and
that block starts there. -/
def heading (program : Program) (address : Address) : List String :=
  match program.blockOf? address with
  | some placement =>
      if placement.start = address then
        ["== block " ++ address.text ++ " (frame " ++ toString placement.frameSize ++ ") =="]
      else
        []
  | none => []

def lines (program : Program) (name : Symbol -> String) : List String :=
  program.code.toList.zipIdx.flatMap fun (instruction, index) =>
    let address : Address := ⟨index⟩
    program.heading address ++
      [address.text ++ " " ++ program.instructionText name instruction]

def render (program : Program) (name : Symbol -> String) : String :=
  String.join ((program.lines name).map fun line => line ++ "\n")

end Program
end StrictLambda
