import StrictLambda.Proofs.Machine.Failures
import StrictLambda.Proofs.Value.Parts

/-!
# Which faults an instruction can raise

A fault belongs to the kind of instruction that asks for what is not there, and it is reported at
the place of that instruction.  A defect is reported there too, or at no place at all.
-/

namespace StrictLambda

/-!
## Faults by operator and by instruction
-/

/-- The two tests for equality refuse operands of other kinds; the rest take integers only. -/
inductive Operator.Raises : Operator -> Fault -> Prop where
  | incomparable {operator : Operator} {lhs rhs : Kind}
      (compares : operator = .eq ∨ operator = .ne) : Raises operator (.incomparable lhs rhs)
  | notInteger {operator : Operator} {found : Kind} (ordered : operator ≠ .eq ∧ operator ≠ .ne)
      (other : found ≠ .integer) : Raises operator (.notInteger found)
  | divisionByZero : Raises .div .divisionByZero
  | overflow {operator : Operator} (computes : operator ∈ [Operator.add, .sub, .mul, .div]) :
      Raises operator .overflow

inductive Instruction.Raises : Instruction -> Fault -> Prop where
  | call {dest function argument : Register} {found : Kind} (other : found ≠ .function) :
      Raises (.operation (.call dest function argument)) (.notFunction found)
  | tailCall {function argument : Register} {found : Kind} (other : found ≠ .function) :
      Raises (.operation (.tailCall function argument)) (.notFunction found)
  | notData {dest source : Register} {field : Symbol} {found : Kind} (other : found ≠ .data) :
      Raises (.operation (.member dest source field)) (.notData field found)
  | missingField {dest source : Register} {field constructor : Symbol} :
      Raises (.operation (.member dest source field)) (.missingField constructor field)
  | notDataType {dest type : Register} {tag : Nat} {fields : Segment} {found : Kind}
      (other : found ≠ .dataType) : Raises (.data dest type tag fields) (.notDataType found)
  | unknownConstructor {dest type : Register} {tag : Nat} {fields : Segment} {name : Symbol} :
      Raises (.data dest type tag fields) (.unknownConstructor name tag)
  | arity {dest type : Register} {tag : Nat} {fields : Segment} {constructor : Symbol}
      {expected found : Nat} (differ : found ≠ expected) :
      Raises (.data dest type tag fields) (.arity constructor expected found)
  | notBoolean {condition : Register} {target : Address} {found : Kind}
      (other : found ≠ .boolean) : Raises (.jumpUnless condition target) (.notBoolean found)
  | primitive {dest lhs rhs : Register} {operator : Operator} {cause : Fault}
      (raises : operator.Raises cause) :
      Raises (.operation (.primitive dest operator lhs rhs)) cause

/-!
## Values that are refused
-/

namespace Value

variable {Code : Type} {value : Value Code} {span : Span} {failure : Failure}

theorem kind_ne_of_expectFunction (failed : value.expectFunction span = .error failure) :
    value.kind ≠ .function := by
  cases value with
  | function code captures => cases failed
  | integer | boolean | dataType | data | fixpoint => exact fun same => nomatch same

theorem kind_ne_of_expectBoolean (failed : value.expectBoolean span = .error failure) :
    value.kind ≠ .boolean := by
  cases value with
  | boolean truth => cases failed
  | integer | function | dataType | data | fixpoint => exact fun same => nomatch same

theorem expectInteger_eq_error {cause : Fault} (failed : value.expectInteger = .error cause) :
    cause = .notInteger value.kind ∧ value.kind ≠ .integer := by
  cases value with
  | integer number => cases failed
  | boolean | function | dataType | data | fixpoint =>
      cases failed
      exact ⟨rfl, fun same => nomatch same⟩

theorem same_eq_error {lhs rhs : Value Code} {cause : Fault}
    (failed : lhs.same rhs = .error cause) : cause = .incomparable lhs.kind rhs.kind := by
  unfold same at failed
  split at failed
  · cases failed
  · cases failed
  · cases failed
    rfl

theorem exactInteger_eq_error {result : Int} {cause : Fault}
    (failed : (exactInteger result : Except Fault (Value Code)) = .error cause) :
    cause = .overflow := by
  unfold exactInteger at failed
  split at failed
  · cases failed
  · cases failed
    rfl

end Value

namespace Operator

variable {Code : Type} {operator : Operator} {lhs rhs : Value Code} {cause : Fault}

theorem raises_of_integers {Result : Type} {combine : Int -> Int -> Except Fault Result}
    (ordered : operator ≠ .eq ∧ operator ≠ .ne)
    (failed : (do
      let left <- lhs.expectInteger
      let right <- rhs.expectInteger
      combine left right) = .error cause)
    (combines : forall left right, combine left right = .error cause -> operator.Raises cause) :
    operator.Raises cause := by
  rcases bind_eq_error_iff.mp failed with first | ⟨left, _, failed⟩
  · rcases Value.expectInteger_eq_error first with ⟨rfl, other⟩
    exact .notInteger ordered other
  rcases bind_eq_error_iff.mp failed with second | ⟨right, _, failed⟩
  · rcases Value.expectInteger_eq_error second with ⟨rfl, other⟩
    exact .notInteger ordered other
  · exact combines left right failed

theorem raises_overflow {result : Int} (computes : operator ∈ [Operator.add, .sub, .mul, .div])
    (failed : (Value.exactInteger result : Except Fault (Value Code)) = .error cause) :
    operator.Raises cause := by
  rw [Value.exactInteger_eq_error failed]
  exact .overflow computes

theorem raises_of_same (compares : operator = .eq ∨ operator = .ne) {finish : Bool -> Value Code}
    (failed : (do
      let equal <- lhs.same rhs
      pure (finish equal)) = .error cause) : operator.Raises cause := by
  rcases bind_eq_error_iff.mp failed with refused | ⟨equal, _, last⟩
  · rw [Value.same_eq_error refused]
    exact .incomparable compares
  · cases last

theorem raises_of_apply (failed : operator.apply lhs rhs = .error cause) :
    operator.Raises cause := by
  cases operator with
  | eq => exact raises_of_same (.inl rfl) failed
  | ne => exact raises_of_same (.inr rfl) failed
  | lt | le =>
      apply raises_of_integers (by decide) failed
      intro left right last
      cases last
  | add | sub | mul =>
      apply raises_of_integers (by decide) failed
      intro left right last
      exact raises_overflow (by decide) last
  | div =>
      apply raises_of_integers (by decide) failed
      intro left right last
      split at last
      · cases last
        exact .divisionByZero
      · exact raises_overflow (by decide) last

end Operator

/-!
## Places
-/

/-- The failure has no place or this one, and if it is a fault then the instruction can raise it. -/
structure Failure.ComesFrom (failure : Failure) (instruction : Instruction) (span : Span) :
    Prop where
  span : forall place, failure.span = some place -> place = span
  fault : forall cause place, failure = .fault cause place -> instruction.Raises cause

namespace Failure.ComesFrom

variable {instruction : Instruction} {span : Span}

theorem unplaced {cause : Defect} : (Failure.defect cause none).ComesFrom instruction span :=
  ⟨fun _ same => (nomatch same), fun _ _ same => nomatch same⟩

theorem placed {cause : Defect} :
    (Failure.defect cause (some span)).ComesFrom instruction span :=
  ⟨fun _ same => (Option.some.inj same).symm, fun _ _ same => nomatch same⟩

theorem raised {cause : Fault} (raises : instruction.Raises cause) :
    (Failure.fault cause span).ComesFrom instruction span := by
  refine ⟨fun _ same => (Option.some.inj same).symm, ?_⟩
  intro own place same
  cases same
  exact raises

end Failure.ComesFrom

namespace State

variable {program : Program} {state : State} {instruction : Instruction} {span : Span}
  {failure : Failure}

theorem exists_unplaced_of_read {base : Nat} {register : Register}
    (failed : state.stack.read base register = .error failure) :
    exists cause, failure = .defect cause none := by
  unfold Stack.read at failed
  split at failed
  · cases failed
  · cases failed
    exact ⟨_, rfl⟩
  · cases failed
    exact ⟨_, rfl⟩
  · cases failed
    exact ⟨_, rfl⟩
  · cases failed
    exact ⟨_, rfl⟩

theorem exists_unplaced_of_write {stack : Stack} {base : Nat} {dest : Register}
    {value : Value Entry} (failed : stack.write base dest value = .error failure) :
    exists cause, failure = .defect cause none := by
  unfold Stack.write at failed
  dsimp only at failed
  split at failed
  · cases failed
  · cases failed
    exact ⟨_, rfl⟩

theorem exists_unplaced_of_header {stack : Stack} {base : Nat}
    (failed : stack.header base = .error failure) :
    exists cause, failure = .defect cause none := by
  unfold Stack.header at failed
  split at failed
  · cases failed
  · cases failed
    exact ⟨_, rfl⟩

theorem exists_unplaced_of_returnRegister {address : Address}
    (failed : program.returnRegister address = .error failure) :
    exists cause, failure = .defect cause none := by
  unfold Program.returnRegister at failed
  split at failed
  · cases failed
    exact ⟨_, rfl⟩
  · split at failed
    · cases failed
    · cases failed
      exact ⟨_, rfl⟩

theorem comesFrom_of_member {dest source : Register} {field : Symbol} {found : Value Entry}
    (failed : found.member span field = .error failure) :
    failure.ComesFrom (.operation (.member dest source field)) span := by
  unfold Value.member at failed
  split at failed
  · split at failed
    · split at failed
      · split at failed
        · cases failed
        · cases failed
          exact .raised .missingField
      · cases failed
        exact .raised .missingField
    · cases failed
      exact .placed
  · next other =>
      cases failed
      refine .raised (.notData ?_)
      cases found with
      | data declaration tag fields => exact absurd rfl (other declaration tag fields)
      | integer | boolean | function | dataType | fixpoint => exact fun same => nomatch same

theorem comesFrom_of_constructorNumbered {dest type : Register} {tag : Nat} {fields : Segment}
    {found : Value Entry} (failed : found.constructorNumbered span tag = .error failure) :
    failure.ComesFrom (.data dest type tag fields) span := by
  unfold Value.constructorNumbered at failed
  split at failed
  · split at failed
    · cases failed
    · cases failed
      exact .raised .unknownConstructor
  · next other =>
      cases failed
      refine .raised (.notDataType ?_)
      cases found with
      | dataType declaration => exact absurd rfl (other declaration)
      | integer | boolean | function | data | fixpoint => exact fun same => nomatch same

theorem Blames.comesFrom (blames : state.Blames program span instruction failure) :
    failure.ComesFrom instruction span := by
  cases blames with
  | read failed =>
      rcases exists_unplaced_of_read failed with ⟨cause, rfl⟩
      exact .unplaced
  | write failed | leaveWrite failed =>
      rcases exists_unplaced_of_write failed with ⟨cause, rfl⟩
      exact .unplaced
  | operands => exact .unplaced
  | derefOther other | endOther other =>
      rw [Value.expectCell_eq_error other]
      exact .placed
  | derefPending | endTied => exact .placed
  | member read failed => exact comesFrom_of_member failed
  | primitive failed => exact .raised (.primitive (Operator.raises_of_apply failed))
  | callOther other =>
      rw [Value.expectFunction_eq_error other]
      exact .raised (.call (Value.kind_ne_of_expectFunction other))
  | tailCallOther other =>
      rw [Value.expectFunction_eq_error other]
      exact .raised (.tailCall (Value.kind_ne_of_expectFunction other))
  | tailCallHeader failed | leaveHeader failed =>
      rcases exists_unplaced_of_header failed with ⟨cause, rfl⟩
      exact .unplaced
  | leaveNowhere header returns failed =>
      rcases exists_unplaced_of_returnRegister failed with ⟨cause, rfl⟩
      exact .unplaced
  | dataOther failed => exact comesFrom_of_constructorNumbered failed
  | arity failed =>
      unfold Value.construct at failed
      split at failed
      · cases failed
      · next differ =>
          cases failed
          exact .raised (.arity differ)
  | notBoolean other =>
      rw [Value.expectBoolean_eq_error other]
      exact .raised (.notBoolean (Value.kind_ne_of_expectBoolean other))

end State
end StrictLambda
