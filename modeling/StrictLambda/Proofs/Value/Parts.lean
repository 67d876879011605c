import StrictLambda.Proofs.Execution.Bind
import StrictLambda.Value.Arithmetic
import StrictLambda.Value.Cells
import StrictLambda.Value.Data
import StrictLambda.Value.Expect

/-!
# Values inside values

A function holds the values it captured and a data value holds its fields.  Instructions move values
around and put them into new ones, so a property that every new value has, and that holds of every
value inside of one that has it, holds of all values a run ever meets.

This module says what comes out of the operations on values when they succeed.
-/

namespace StrictLambda
namespace Value

variable {Code : Type}

def parts : Value Code -> List (Value Code)
  | function _ captures => captures
  | data _ _ fields => fields
  | _ => []

inductive Everywhere (Holds : Value Code -> Prop) : Value Code -> Prop where
  | intro {value : Value Code} (here : Holds value)
      (inside : forall part, part ∈ value.parts -> Everywhere Holds part) :
      Everywhere Holds value

namespace Everywhere

variable {Holds : Value Code -> Prop} {value : Value Code}

theorem here (everywhere : Everywhere Holds value) : Holds value := by
  cases everywhere with
  | intro here _ => exact here

theorem inside (everywhere : Everywhere Holds value) {part : Value Code}
    (member : part ∈ value.parts) : Everywhere Holds part := by
  cases everywhere with
  | intro _ inside => exact inside part member

theorem of_no_parts (here : Holds value) (none : value.parts = []) :
    Everywhere Holds value := by
  refine .intro here ?_
  intro part member
  rw [none] at member
  cases member

theorem mono {Other : Value Code -> Prop} (weaker : forall value, Holds value -> Other value)
    (everywhere : Everywhere Holds value) : Everywhere Other value := by
  induction everywhere with
  | intro here _ ih => exact .intro (weaker _ here) ih

end Everywhere

/-!
## Operands of the expected kind
-/

variable {span : Span} {value found : Value Code}

theorem eq_fixpoint_of_expectCell {cell : Cell} (expected : value.expectCell span = .ok cell) :
    value = fixpoint cell := by
  cases value <;> simp_all [expectCell]

theorem eq_boolean_of_expectBoolean {holds : Bool}
    (expected : value.expectBoolean span = .ok holds) : value = boolean holds := by
  cases value <;> simp_all [expectBoolean]

theorem eq_function_of_expectFunction {code : Code} {captures : List (Value Code)}
    (expected : value.expectFunction span = .ok (code, captures)) :
    value = function code captures := by
  cases value <;> simp_all [expectFunction]

theorem expectFunction_eq_error {failure : Failure}
    (failed : value.expectFunction span = .error failure) :
    failure = .fault (.notFunction value.kind) span := by
  cases value <;> simp_all [expectFunction]

theorem expectBoolean_eq_error {failure : Failure}
    (failed : value.expectBoolean span = .error failure) :
    failure = .fault (.notBoolean value.kind) span := by
  cases value <;> simp_all [expectBoolean]

theorem expectCell_eq_error {failure : Failure}
    (failed : value.expectCell span = .error failure) :
    failure = .defect (.notFixpoint value.kind) (some span) := by
  cases value <;> simp_all [expectCell]

/-!
## Data values
-/

theorem of_constructorNumbered {tag : Nat} {declaration : Declaration}
    {constructor : Constructor}
    (numbered : value.constructorNumbered span tag = .ok (declaration, constructor)) :
    value = dataType declaration ∧ declaration.constructors[tag]? = some constructor := by
  cases value with
  | dataType own =>
      unfold constructorNumbered at numbered
      cases named : own.constructors[tag]? with
      | none =>
          simp only [named] at numbered
          cases numbered
      | some found =>
          simp only [named] at numbered
          cases numbered
          exact ⟨rfl, named⟩
  | integer _ => cases numbered
  | boolean _ => cases numbered
  | function _ _ => cases numbered
  | data _ _ _ => cases numbered
  | fixpoint _ => cases numbered

theorem constructorNumbered_eq_error {tag : Nat} {failure : Failure}
    (failed : value.constructorNumbered span tag = .error failure) :
    exists cause, failure = .fault cause span := by
  unfold constructorNumbered at failed
  split at failed
  · split at failed
    · cases failed
    · cases failed
      exact ⟨_, rfl⟩
  · cases failed
    exact ⟨_, rfl⟩

theorem of_construct {tag : Nat} {declaration : Declaration} {constructor : Constructor}
    {fields : List (Value Code)}
    (constructed : construct span declaration constructor tag fields = .ok value) :
    value = data declaration tag fields ∧ fields.length = constructor.fields.length := by
  unfold construct at constructed
  split at constructed
  · next fits =>
      cases constructed
      exact ⟨rfl, fits⟩
  · cases constructed

theorem construct_eq_error {tag : Nat} {declaration : Declaration} {constructor : Constructor}
    {fields : List (Value Code)} {failure : Failure}
    (failed : construct span declaration constructor tag fields = .error failure) :
    exists cause, failure = .fault cause span := by
  unfold construct at failed
  split at failed
  · cases failed
  · cases failed
    exact ⟨_, rfl⟩

theorem mem_parts_of_member {field : Symbol} (accessed : value.member span field = .ok found) :
    found ∈ value.parts := by
  unfold member at accessed
  split at accessed
  · next declaration tag fields =>
      split at accessed
      · split at accessed
        · next index _ =>
            split at accessed
            · next stored =>
                cases accessed
                exact List.mem_of_getElem? stored
            · cases accessed
        · cases accessed
      · cases accessed
  · cases accessed

/-- Whether the constructor number of a data value is one of its declaration, with as many fields as
it declares. -/
def Declared : Value Code -> Prop
  | data declaration tag fields =>
      exists constructor, declaration.constructors[tag]? = some constructor ∧
        fields.length = constructor.fields.length
  | _ => True

theorem member_eq_error {field : Symbol} {failure : Failure} (declared : value.Declared)
    (failed : value.member span field = .error failure) :
    exists cause, failure = .fault cause span := by
  unfold member at failed
  split at failed
  · next declaration tag fields =>
      rcases declared with ⟨constructor, named, _⟩
      rw [named] at failed
      dsimp only at failed
      split at failed
      · split at failed
        · cases failed
        · cases failed
          exact ⟨_, rfl⟩
      · cases failed
        exact ⟨_, rfl⟩
  · cases failed
    exact ⟨_, rfl⟩

/-!
## Operators

The result of an operator is a number or a truth value and has no parts.
-/

def IsLiteral (value : Value Code) : Prop :=
  exists literal, value = ofLiteral literal

theorem isLiteral_ofLiteral (literal : Literal) : IsLiteral (ofLiteral literal : Value Code) :=
  ⟨literal, rfl⟩

theorem isLiteral_integer (number : Int64) : IsLiteral (integer number : Value Code) :=
  ⟨.integer number, rfl⟩

theorem isLiteral_boolean (holds : Bool) : IsLiteral (boolean holds : Value Code) :=
  ⟨.boolean holds, rfl⟩

theorem isLiteral_of_exactInteger {result : Int} (exact : exactInteger result = .ok value) :
    value.IsLiteral := by
  unfold exactInteger at exact
  split at exact
  · cases exact
    exact isLiteral_integer _
  · cases exact

theorem IsLiteral.parts_eq_nil (literal : value.IsLiteral) : value.parts = [] := by
  rcases literal with ⟨literal, rfl⟩
  cases literal <;> rfl

end Value

theorem Operator.isLiteral_of_apply {Code : Type} {operator : Operator}
    {lhs rhs value : Value Code} (applied : operator.apply lhs rhs = .ok value) :
    value.IsLiteral := by
  unfold Operator.apply at applied
  cases operator with
  | eq | ne =>
      rcases bind_eq_ok_iff.mp applied with ⟨equal, _, answered⟩
      cases answered
      exact Value.isLiteral_boolean _
  | lt | le =>
      rcases bind_eq_ok_iff.mp applied with ⟨left, _, applied⟩
      rcases bind_eq_ok_iff.mp applied with ⟨right, _, answered⟩
      cases answered
      exact Value.isLiteral_boolean _
  | add | sub | mul =>
      rcases bind_eq_ok_iff.mp applied with ⟨left, _, applied⟩
      rcases bind_eq_ok_iff.mp applied with ⟨right, _, computed⟩
      exact Value.isLiteral_of_exactInteger computed
  | div =>
      rcases bind_eq_ok_iff.mp applied with ⟨left, _, applied⟩
      rcases bind_eq_ok_iff.mp applied with ⟨right, _, divided⟩
      split at divided
      · cases divided
      · exact Value.isLiteral_of_exactInteger divided

/-!
## Cells
-/

namespace Cells

variable {Code : Type} {cells after : Cells Code} {cell other : Cell} {value : Value Code}

@[simp] theorem content?_allocate (cells : Cells Code) (cell : Cell) :
    cells.allocate.2.content? cell = cells.content? cell := by
  unfold allocate content?
  dsimp only
  rw [Array.getElem?_push]
  split
  · next last =>
      rw [last, Array.getElem?_eq_none (Nat.le_refl _)]
      rfl
  · rfl

theorem content?_next (cells : Cells Code) : cells.content? cells.allocate.1 = none := by
  unfold allocate content?
  dsimp only
  rw [Array.getElem?_eq_none (Nat.le_refl _)]
  rfl

@[simp] theorem size_allocate (cells : Cells Code) :
    cells.allocate.2.size = cells.size + 1 := by
  simp [allocate, size]

theorem lt_size_of_content? (holds : cells.content? cell = some value) :
    cell.index < cells.size := by
  apply Classical.byContradiction
  intro outside
  unfold content? at holds
  rw [Array.getElem?_eq_none (Nat.le_of_not_lt outside)] at holds
  cases holds

theorem size_of_tie (tied : cells.tie cell value = .ok after) : after.size = cells.size := by
  unfold tie at tied
  split at tied
  · cases tied
  · cases tied
    simp [size]

theorem content?_of_tie_of_ne (tied : cells.tie cell value = .ok after) (differs : other ≠ cell) :
    after.content? other = cells.content? other := by
  unfold tie at tied
  split at tied
  · cases tied
  · cases tied
    unfold content?
    dsimp only
    rw [Array.getElem?_setIfInBounds_ne]
    intro same
    apply differs
    cases other
    cases cell
    exact congrArg Cell.mk same.symm

theorem content?_of_tie_self (tied : cells.tie cell value = .ok after)
    (inside : cell.index < cells.size) : after.content? cell = some value := by
  unfold tie at tied
  split at tied
  · cases tied
  · cases tied
    unfold content?
    dsimp only
    rw [Array.getElem?_setIfInBounds_self_of_lt inside]
    rfl

theorem eq_or_content?_of_tie {found : Value Code} (tied : cells.tie cell value = .ok after)
    (holds : after.content? other = some found) :
    found = value ∨ cells.content? other = some found := by
  by_cases same : other = cell
  · subst same
    have inside := lt_size_of_content? holds
    rw [size_of_tie tied] at inside
    rw [content?_of_tie_self tied inside] at holds
    cases holds
    exact .inl rfl
  · rw [content?_of_tie_of_ne tied same] at holds
    exact .inr holds

theorem content?_of_read (found : cells.read cell = .ok value) :
    cells.content? cell = some value := by
  unfold read at found
  split at found
  · cases found
    assumption
  · cases found

theorem read_eq_error {cause : Defect} (failed : cells.read cell = .error cause) :
    cause = .untied ∧ cells.content? cell = none := by
  unfold read at failed
  split at failed
  · cases failed
  · cases failed
    exact ⟨rfl, by assumption⟩

theorem tie_eq_error {cause : Defect} (failed : cells.tie cell value = .error cause) :
    cause = .tiedTwice ∧ cells.content? cell ≠ none := by
  unfold tie at failed
  split at failed
  · next content holds =>
      cases failed
      exact ⟨rfl, by simp [holds]⟩
  · cases failed

end Cells

/-!
## Blame
-/

theorem blameDefect_eq_ok_iff {Result : Type} {span : Span} {outcome : Except Defect Result}
    {result : Result} : blameDefect span outcome = .ok result ↔ outcome = .ok result := by
  cases outcome <;> simp [blameDefect]

theorem blameFault_eq_ok_iff {Result : Type} {span : Span} {outcome : Except Fault Result}
    {result : Result} : blameFault span outcome = .ok result ↔ outcome = .ok result := by
  cases outcome <;> simp [blameFault]

theorem blameDefect_eq_error_iff {Result : Type} {span : Span} {outcome : Except Defect Result}
    {failure : Failure} : blameDefect span outcome = .error failure ↔
      exists cause, outcome = .error cause ∧ failure = .defect cause (some span) := by
  cases outcome <;> simp [blameDefect, eq_comm]

theorem blameFault_eq_error_iff {Result : Type} {span : Span} {outcome : Except Fault Result}
    {failure : Failure} : blameFault span outcome = .error failure ↔
      exists cause, outcome = .error cause ∧ failure = .fault cause span := by
  cases outcome <;> simp [blameFault, eq_comm]

end StrictLambda
