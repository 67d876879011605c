import StrictLambda.Block.Basic

/-!
# Printing blocks

One line per instruction.  The body of a function follows the line of the instruction that creates
it, two spaces deeper.
-/

namespace StrictLambda
namespace Block

mutual

def lines (name : Symbol -> String) (indent : String) : Block -> List String
  | .mk parameters nodes _ =>
      (indent ++ "== block (params " ++ toString parameters ++ ") ==") ::
        nodeLines name indent nodes

def nodeLines (name : Symbol -> String) (indent : String) : List Node -> List String
  | [] => []
  | .operation action _ :: rest =>
      (indent ++ action.text name) :: nodeLines name indent rest
  | .function dest body captures _ :: rest =>
      (indent ++ dest.text ++ " = function " ++ Register.listText captures) ::
        (lines name (indent ++ "  ") body ++ nodeLines name indent rest)
  | .data dest type tag fields _ :: rest =>
      (indent ++ dest.text ++ " = data " ++ type.text ++ " #" ++ toString tag ++ " " ++
        Register.listText fields) :: nodeLines name indent rest
  | .dataType dest declaration _ :: rest =>
      (indent ++ dest.text ++ " = datatype " ++ name declaration.name) ::
        nodeLines name indent rest
  | .jump target _ :: rest =>
      (indent ++ "jump " ++ target.text) :: nodeLines name indent rest
  | .jumpUnless condition target _ :: rest =>
      (indent ++ "jump-unless " ++ condition.text ++ " " ++ target.text) ::
        nodeLines name indent rest
  | .label label _ :: rest =>
      (indent ++ label.text ++ ":") :: nodeLines name indent rest

end

def render (block : Block) (name : Symbol -> String) : String :=
  String.join ((block.lines name "").map fun line => line ++ "\n")

end Block
end StrictLambda
