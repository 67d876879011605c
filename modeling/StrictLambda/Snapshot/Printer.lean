import StrictLambda.Snapshot.Token

/-!
# Printing snapshots

Two ways of writing a snapshot, each given by what it writes for one token.  The first is for
people: names are filled in, and a tied cell shows as its content.  The second leaves nothing out
but the data type of a data value, and writes names as numbers.
-/

namespace StrictLambda

/-!
## For people
-/

def Atom.text (name : Symbol -> String) : Atom -> String
  | .integer value => toString value.toInt
  | .boolean value => toString value
  | .function entry captures =>
      "<function " ++ entry.body.text ++ ", " ++ toString captures ++ " captured>"
  | .dataType symbol _ => "<data " ++ name symbol ++ ">"
  | .pending => "<pending>"

/-- A data value without fields is its constructor alone. -/
def Token.text (name : Symbol -> String) : Token -> String
  | .atom leaf => leaf.text name
  | .opening _ constructor _ => name constructor
  | .field symbol true => " \x7b " ++ name symbol ++ " = "
  | .field symbol false => ", " ++ name symbol ++ " = "
  | .closing 0 => ""
  | .closing (_ + 1) => " \x7d"
  | .tied => ""
  | .untied => ""

def Snapshot.render (snapshot : Snapshot) (name : Symbol -> String) : String :=
  snapshot.tokens.foldl (fun text token => text ++ token.text name) ""

/-!
## In full
-/

/-- The names of constructors are written by number, counted from one. -/
def Atom.fullText : Atom -> String
  | .integer value => "Integer(" ++ toString value.toInt ++ ")"
  | .boolean value => "Boolean(" ++ toString value ++ ")"
  | .function entry captures =>
      "Function \x7b body: " ++ entry.body.text ++ ", frame_size: " ++ toString entry.frameSize ++
        ", captures: " ++ toString captures ++ " \x7d"
  | .dataType symbol constructors =>
      "DataType \x7b name: " ++ symbol.label ++ ", constructors: [" ++
        String.intercalate ", "
          (constructors.map fun constructor =>
            "Symbol(Spur(" ++ toString (constructor.index + 1) ++ "))") ++
        "] \x7d"
  | .pending => "Fixpoint(None)"

def Token.fullText : Token -> String
  | .atom leaf => leaf.fullText
  | .opening _ constructor 0 => "Data(" ++ constructor.label
  | .opening _ constructor (_ + 1) => "Data(" ++ constructor.label ++ " \x7b"
  | .field symbol true => " " ++ symbol.label ++ ": "
  | .field symbol false => ", " ++ symbol.label ++ ": "
  | .closing 0 => ")"
  | .closing (_ + 1) => " \x7d)"
  | .tied => "Fixpoint(Some("
  | .untied => "))"

def Snapshot.fullText (snapshot : Snapshot) : String :=
  snapshot.tokens.foldl (fun text token => text ++ token.fullText) ""

end StrictLambda
