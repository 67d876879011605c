import StrictLambda.Value.Basic

/-!
# Cells of recursive bindings

A cell starts out empty.  It is tied to a value once, keeps that value, and can be read from then
on.
-/

namespace StrictLambda

structure Cells (Code : Type) where
  contents : Array (Option (Value Code))

namespace Cells

variable {Code : Type}

def empty : Cells Code :=
  { contents := #[] }

def size (cells : Cells Code) : Nat :=
  cells.contents.size

def allocate (cells : Cells Code) : Cell × Cells Code :=
  (⟨cells.contents.size⟩, { contents := cells.contents.push none })

def content? (cells : Cells Code) (cell : Cell) : Option (Value Code) :=
  (cells.contents[cell.index]?).join

def read (cells : Cells Code) (cell : Cell) : Except Defect (Value Code) :=
  match cells.content? cell with
  | some value => .ok value
  | none => .error .untied

def tie (cells : Cells Code) (cell : Cell) (value : Value Code) : Except Defect (Cells Code) :=
  match cells.content? cell with
  | some _ => .error .tiedTwice
  | none => .ok { contents := cells.contents.setIfInBounds cell.index (some value) }

end Cells
end StrictLambda
