import StrictLambda.Value.Basic

/-!
# Printing functions

A function is described by its code and by the number of values it captured.
-/

namespace StrictLambda
namespace Value

def functionText? : Value Entry -> Option String
  | function entry captures =>
      some ("Function \x7b body: Address(" ++ toString entry.body.index ++ "), frame_size: " ++
        toString entry.frameSize ++ ", captures: " ++ toString captures.length ++ " \x7d")
  | _ => none

end Value
end StrictLambda
