import StrictLambda.Block.OfTerm
import StrictLambda.Program.OfBlock

/-!
# Programs of terms

Compilation as a whole: a term becomes a tree of blocks, and the tree is laid out as a program.
-/

namespace StrictLambda
namespace Program

def ofTerm (term : Term) : Except Failure Program := do
  let block <- Block.ofTerm term
  ofBlock block

end Program
end StrictLambda
