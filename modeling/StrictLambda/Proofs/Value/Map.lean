import StrictLambda.Value.Arithmetic
import StrictLambda.Value.Cells
import StrictLambda.Value.Data
import StrictLambda.Value.Expect

/-!
# Changing the code of functions

Values leave open how a function refers to its code, and no operation on values ever looks at it.
So all of them commute with a change of the code, and two ways of running a program that differ in
nothing else agree on every value they compute.
-/

namespace StrictLambda
namespace Value

variable {Code Other : Type}

mutual

def map (change : Code -> Other) : Value Code -> Value Other
  | integer value => integer value
  | boolean value => boolean value
  | function code captures => function (change code) (mapAll change captures)
  | dataType declaration => dataType declaration
  | data declaration tag fields => data declaration tag (mapAll change fields)
  | fixpoint cell => fixpoint cell

def mapAll (change : Code -> Other) : List (Value Code) -> List (Value Other)
  | [] => []
  | value :: rest => value.map change :: mapAll change rest

end

theorem mapAll_eq_map (change : Code -> Other) (values : List (Value Code)) :
    mapAll change values = values.map (map change) := by
  induction values with
  | nil => rfl
  | cons value rest ih =>
      rw [mapAll, ih]
      rfl

@[simp] theorem map_integer (change : Code -> Other) (value : Int64) :
    (integer value).map change = integer value := by
  rw [map]

@[simp] theorem map_boolean (change : Code -> Other) (value : Bool) :
    (boolean value).map change = boolean value := by
  rw [map]

@[simp] theorem map_function (change : Code -> Other) (code : Code)
    (captures : List (Value Code)) :
    (function code captures).map change =
      function (change code) (captures.map (map change)) := by
  rw [map, mapAll_eq_map]

@[simp] theorem map_dataType (change : Code -> Other) (declaration : Declaration) :
    (dataType declaration).map change = dataType declaration := by
  rw [map]

@[simp] theorem map_data (change : Code -> Other) (declaration : Declaration) (tag : Nat)
    (fields : List (Value Code)) :
    (data declaration tag fields).map change =
      data declaration tag (fields.map (map change)) := by
  rw [map, mapAll_eq_map]

@[simp] theorem map_fixpoint (change : Code -> Other) (cell : Cell) :
    (fixpoint cell).map change = fixpoint cell := by
  rw [map]

@[simp] theorem map_ofLiteral (change : Code -> Other) (literal : Literal) :
    (ofLiteral literal).map change = ofLiteral literal := by
  cases literal <;> simp [ofLiteral]

@[simp] theorem kind_map (change : Code -> Other) (value : Value Code) :
    (value.map change).kind = value.kind := by
  cases value <;> simp [kind]

/-!
## What instructions ask of an operand
-/

theorem expectCell_map (change : Code -> Other) (span : Span) (value : Value Code) :
    (value.map change).expectCell span = value.expectCell span := by
  cases value <;> simp [expectCell, kind]

theorem expectBoolean_map (change : Code -> Other) (span : Span) (value : Value Code) :
    (value.map change).expectBoolean span = value.expectBoolean span := by
  cases value <;> simp [expectBoolean, kind]

theorem expectFunction_map (change : Code -> Other) (span : Span) (value : Value Code) :
    (value.map change).expectFunction span =
      (value.expectFunction span).map fun (code, captures) =>
        (change code, captures.map (map change)) := by
  cases value <;> simp [expectFunction, Except.map, kind]

/-!
## Data values
-/

theorem constructorNumbered_map (change : Code -> Other) (span : Span) (tag : Nat)
    (value : Value Code) :
    (value.map change).constructorNumbered span tag = value.constructorNumbered span tag := by
  cases value <;> simp [constructorNumbered, kind]

theorem construct_map (change : Code -> Other) (span : Span) (declaration : Declaration)
    (constructor : Constructor) (tag : Nat) (fields : List (Value Code)) :
    construct span declaration constructor tag (fields.map (map change)) =
      (construct span declaration constructor tag fields).map (map change) := by
  unfold construct
  rw [List.length_map]
  split <;> simp [Except.map]

theorem member_map (change : Code -> Other) (span : Span) (field : Symbol)
    (value : Value Code) :
    (value.map change).member span field = (value.member span field).map (map change) := by
  cases value with
  | data declaration tag fields =>
      rw [map_data]
      unfold member
      simp only [List.getElem?_map]
      cases declaration.constructors[tag]? with
      | none => rfl
      | some constructor =>
          dsimp only
          cases constructor.fieldIndex? field with
          | none => rfl
          | some index =>
              dsimp only
              cases fields[index]? with
              | none => rfl
              | some found => rfl
  | integer value => simp [member, Except.map, kind]
  | boolean value => simp [member, Except.map, kind]
  | function code captures => simp [member, Except.map, kind]
  | dataType declaration => simp [member, Except.map, kind]
  | fixpoint cell => simp [member, Except.map, kind]

/-!
## Operators
-/

theorem same_map (change : Code -> Other) (lhs rhs : Value Code) :
    (lhs.map change).same (rhs.map change) = lhs.same rhs := by
  cases lhs <;> cases rhs <;> simp [same, kind]

theorem expectInteger_map (change : Code -> Other) (value : Value Code) :
    (value.map change).expectInteger = value.expectInteger := by
  cases value <;> simp [expectInteger, integer?, kind]

theorem exactInteger_map (change : Code -> Other) (result : Int) :
    (exactInteger result : Except Fault (Value Other)) =
      (exactInteger result).map (map change) := by
  unfold exactInteger
  split <;> simp [Except.map]

end Value

namespace Operator

variable {Code Other : Type}

theorem apply_map (change : Code -> Other) (operator : Operator) (lhs rhs : Value Code) :
    operator.apply (lhs.map change) (rhs.map change) =
      (operator.apply lhs rhs).map (Value.map change) := by
  unfold apply
  simp only [Value.same_map, Value.expectInteger_map]
  cases operator with
  | eq => cases lhs.same rhs <;> simp [Except.map, bind, Except.bind, pure, Except.pure]
  | ne => cases lhs.same rhs <;> simp [Except.map, bind, Except.bind, pure, Except.pure]
  | div =>
      cases lhs.expectInteger with
      | error fault => rfl
      | ok left =>
          cases rhs.expectInteger with
          | error fault => rfl
          | ok right =>
              dsimp only [bind, Except.bind]
              split
              · rfl
              · exact Value.exactInteger_map change _
  | add | sub | mul | lt | le =>
      cases lhs.expectInteger <;> cases rhs.expectInteger <;>
        simp [Except.map, bind, Except.bind, pure, Except.pure, Value.exactInteger_map change]

end Operator

namespace Cells

variable {Code Other : Type}

def map (change : Code -> Other) (cells : Cells Code) : Cells Other :=
  { contents := cells.contents.map fun content => content.map (Value.map change) }

@[simp] theorem map_empty (change : Code -> Other) :
    (empty : Cells Code).map change = empty := by
  simp [map, empty]

@[simp] theorem size_map (change : Code -> Other) (cells : Cells Code) :
    (cells.map change).size = cells.size := by
  simp [map, size]

theorem content?_map (change : Code -> Other) (cells : Cells Code) (cell : Cell) :
    (cells.map change).content? cell = (cells.content? cell).map (Value.map change) := by
  simp only [map, content?, Array.getElem?_map]
  cases cells.contents[cell.index]? with
  | none => rfl
  | some content => rfl

theorem read_map (change : Code -> Other) (cells : Cells Code) (cell : Cell) :
    (cells.map change).read cell = (cells.read cell).map (Value.map change) := by
  unfold read
  rw [content?_map]
  cases cells.content? cell with
  | none => rfl
  | some value => rfl

theorem allocate_map (change : Code -> Other) (cells : Cells Code) :
    (cells.map change).allocate = (cells.allocate.1, cells.allocate.2.map change) := by
  simp [allocate, map]

theorem tie_map (change : Code -> Other) (cells : Cells Code) (cell : Cell)
    (value : Value Code) :
    (cells.map change).tie cell (value.map change) =
      (cells.tie cell value).map (map change) := by
  unfold tie
  rw [content?_map]
  cases cells.content? cell with
  | none => simp [map, Except.map, Array.map_setIfInBounds]
  | some content => rfl

end Cells
end StrictLambda
