/-!
# Names

A name is kept once, in a table, and everything else refers to it by its position there.  The
compiler and the machine only ever compare positions; texts come back when something is printed.
-/

namespace StrictLambda

structure Symbol where
  index : Nat
deriving DecidableEq

/-- The text that stands for a symbol where no table of names is at hand. -/
def Symbol.label (symbol : Symbol) : String :=
  "#" ++ toString symbol.index

structure Names where
  entries : Array String

namespace Names

def empty : Names :=
  { entries := #[] }

/-- Entering a name that the table already holds gives back its old position. -/
def intern (names : Names) (name : String) : Symbol × Names :=
  match names.entries.idxOf? name with
  | some index => (⟨index⟩, names)
  | none => (⟨names.entries.size⟩, { entries := names.entries.push name })

def ofList (texts : List String) : Names :=
  texts.foldl (fun names text => (names.intern text).2) empty

def resolve (names : Names) (symbol : Symbol) : String :=
  names.entries.getD symbol.index symbol.label

end Names

end StrictLambda
