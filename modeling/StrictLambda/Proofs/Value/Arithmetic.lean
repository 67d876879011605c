import StrictLambda.Value.Arithmetic

/-!
# Exact arithmetic

What an operator answers is told by the mathematical integers alone.  The result of a sum, a
difference, a product or a quotient is the exact one if 64 bits can hold it, and an overflow
otherwise; no result is ever another integer.  Comparisons are those of the integers.

Operands of a wrong kind are refused before their values are looked at, the left one first.
-/

namespace StrictLambda

/-!
## Integers that 64 bits can hold
-/

def InRange (result : Int) : Prop :=
  -9223372036854775808 <= result ∧ result <= 9223372036854775807

theorem inRange_iff_between {result : Int} :
    InRange result ↔ Int64.minValue.toInt <= result ∧ result <= Int64.maxValue.toInt := by
  have lowest : Int64.minValue.toInt = -9223372036854775808 := by decide
  have highest : Int64.maxValue.toInt = 9223372036854775807 := by decide
  rw [lowest, highest]
  exact Iff.rfl

theorem inRange_toInt (number : Int64) : InRange number.toInt :=
  inRange_iff_between.mpr ⟨number.minValue_le_toInt, number.toInt_le⟩

theorem toInt_ne_zero {number : Int64} (nonzero : number ≠ 0) : number.toInt ≠ 0 :=
  fun zero => nonzero (Int64.toInt_inj.mp zero)

/-- The quotient that comes from dropping the fraction, with the remainder that is left: smaller
than the divisor, and not of the opposite sign of the dividend. -/
structure Truncates (dividend divisor quotient remainder : Int) : Prop where
  whole : dividend = divisor * quotient + remainder
  smaller : remainder.natAbs < divisor.natAbs
  positive : 0 <= dividend -> 0 <= remainder
  negative : dividend <= 0 -> remainder <= 0

theorem truncates_tdiv {dividend divisor : Int} (nonzero : divisor ≠ 0) :
    Truncates dividend divisor (dividend.tdiv divisor) (dividend.tmod divisor) where
  whole := (Int.mul_tdiv_add_tmod dividend divisor).symm
  smaller := by
    rw [Int.natAbs_tmod]
    exact Nat.mod_lt _ (Int.natAbs_pos.mpr nonzero)
  positive := Int.tmod_nonneg divisor
  negative := by
    intro negative
    have opposite := Int.tmod_nonneg divisor (Int.neg_nonneg_of_nonpos negative)
    rw [Int.neg_tmod] at opposite
    omega

theorem Truncates.eq_tdiv {dividend divisor quotient remainder : Int} (nonzero : divisor ≠ 0)
    (truncates : Truncates dividend divisor quotient remainder) :
    quotient = dividend.tdiv divisor := by
  have whole : remainder + divisor * quotient = dividend := by
    rw [Int.add_comm]
    exact truncates.whole.symm
  have smaller := truncates.smaller
  rcases Int.le_total 0 dividend with positive | negative
  · have sign := truncates.positive positive
    exact ((Int.tdiv_tmod_unique positive nonzero).mpr ⟨whole, sign, by omega⟩).1.symm
  · have sign := truncates.negative negative
    exact ((Int.tdiv_tmod_unique' negative nonzero).mpr ⟨whole, by omega, sign⟩).1.symm

theorem inRange_tdiv_iff (left right : Int64) :
    InRange (left.toInt.tdiv right.toInt) ↔ ¬ (left = Int64.minValue ∧ right = -1) := by
  constructor
  · rintro inside ⟨rfl, rfl⟩
    exact absurd inside.2 (by decide)
  · intro other
    by_cases lowest : left = Int64.minValue
    · rw [← Int64.toInt_div_of_ne_right left right fun minus => other ⟨lowest, minus⟩]
      exact inRange_toInt _
    · rw [← Int64.toInt_div_of_ne_left left right lowest]
      exact inRange_toInt _

variable {Code : Type}

inductive Exact (result : Int) : Except Fault (Value Code) -> Prop where
  | inside (number : Int64) (same : number.toInt = result) : Exact result (.ok (.integer number))
  | outside (beyond : ¬ InRange result) : Exact result (.error .overflow)

namespace Value

theorem exact_exactInteger (result : Int) :
    Exact result (exactInteger result : Except Fault (Value Code)) := by
  unfold exactInteger
  split
  · next between =>
      simp only [Bool.and_eq_true, decide_eq_true_eq] at between
      have inside := inRange_iff_between.mpr between
      exact .inside _ (Int64.toInt_ofInt_of_le inside.1 (Int.lt_add_one_iff.mpr inside.2))
  · next outside =>
      simp only [Bool.and_eq_true, decide_eq_true_eq] at outside
      exact .outside fun inside => outside (inRange_iff_between.mp inside)

theorem exactInteger_eq_overflow_iff {result : Int} :
    (exactInteger result : Except Fault (Value Code)) = .error .overflow ↔ ¬ InRange result := by
  have exact : Exact result (exactInteger result : Except Fault (Value Code)) :=
    exact_exactInteger result
  constructor
  · intro overflow
    rw [overflow] at exact
    cases exact with
    | outside beyond => exact beyond
  · intro outside
    generalize exactInteger result = outcome at exact
    cases exact with
    | inside number same => exact absurd (same ▸ inRange_toInt number) outside
    | outside => rfl

theorem expectInteger_of_kind_ne {value : Value Code} (other : value.kind ≠ .integer) :
    value.expectInteger = .error (.notInteger value.kind) := by
  cases value with
  | integer number => exact absurd rfl other
  | boolean | function | dataType | data | fixpoint => rfl

theorem exists_integer_of_kind {value : Value Code} (kind : value.kind = .integer) :
    exists number, value = integer number := by
  cases value with
  | integer number => exact ⟨number, rfl⟩
  | boolean | function | dataType | data | fixpoint => cases kind

end Value

namespace Operator

/-!
## Operands of a wrong kind
-/

def TakesIntegers (operator : Operator) : Prop :=
  operator ≠ .eq ∧ operator ≠ .ne

theorem apply_of_left_kind {operator : Operator} (takes : operator.TakesIntegers)
    {lhs rhs : Value Code} (other : lhs.kind ≠ .integer) :
    operator.apply lhs rhs = .error (.notInteger lhs.kind) := by
  have refused := Value.expectInteger_of_kind_ne other
  cases operator with
  | eq => exact absurd rfl takes.1
  | ne => exact absurd rfl takes.2
  | lt | le | add | sub | mul | div =>
      unfold apply
      dsimp only
      rw [refused]
      rfl

theorem apply_of_right_kind {operator : Operator} (takes : operator.TakesIntegers)
    {lhs rhs : Value Code} (integer : lhs.kind = .integer) (other : rhs.kind ≠ .integer) :
    operator.apply lhs rhs = .error (.notInteger rhs.kind) := by
  rcases Value.exists_integer_of_kind integer with ⟨number, rfl⟩
  have refused := Value.expectInteger_of_kind_ne other
  cases operator with
  | eq => exact absurd rfl takes.1
  | ne => exact absurd rfl takes.2
  | lt | le | add | sub | mul | div =>
      unfold apply
      dsimp only
      rw [refused]
      rfl

theorem same_of_incomparable {lhs rhs : Value Code}
    (integers : ¬ (lhs.kind = .integer ∧ rhs.kind = .integer))
    (booleans : ¬ (lhs.kind = .boolean ∧ rhs.kind = .boolean)) :
    lhs.same rhs = .error (.incomparable lhs.kind rhs.kind) := by
  unfold Value.same
  split
  · exact absurd ⟨rfl, rfl⟩ integers
  · exact absurd ⟨rfl, rfl⟩ booleans
  · rfl

/-!
## Division
-/

theorem apply_div_of_ne_zero {left right : Int64} (nonzero : right ≠ 0) :
    div.apply (.integer left : Value Code) (.integer right) =
      Value.exactInteger (left.toInt.tdiv right.toInt) := by
  exact if_neg (toInt_ne_zero nonzero)

theorem apply_div_zero (left : Int64) :
    div.apply (.integer left : Value Code) (.integer 0) = .error .divisionByZero :=
  rfl

theorem apply_div_eq_overflow_iff {left right : Int64} :
    div.apply (.integer left : Value Code) (.integer right) = .error .overflow ↔
      left = Int64.minValue ∧ right = -1 := by
  by_cases zero : right = 0
  · subst zero
    rw [apply_div_zero]
    constructor
    · intro overflow
      cases overflow
    · rintro ⟨_, minus⟩
      exact absurd minus (by decide)
  · rw [apply_div_of_ne_zero zero, Value.exactInteger_eq_overflow_iff, inRange_tdiv_iff,
      Classical.not_not]

/-!
## All operators
-/

/-- What the operators answer, for operands of every kind. -/
structure AnswersExactly (Code : Type) : Prop where
  sum : forall left right : Int64,
    Exact (left.toInt + right.toInt)
      (add.apply (.integer left : Value Code) (.integer right))
  difference : forall left right : Int64,
    Exact (left.toInt - right.toInt)
      (sub.apply (.integer left : Value Code) (.integer right))
  product : forall left right : Int64,
    Exact (left.toInt * right.toInt)
      (mul.apply (.integer left : Value Code) (.integer right))
  quotient : forall (left right : Int64) (quotient remainder : Int), right ≠ 0 ->
    Truncates left.toInt right.toInt quotient remainder ->
      Exact quotient (div.apply (.integer left : Value Code) (.integer right))
  truncated : forall left right : Int64, right ≠ 0 ->
    exists quotient remainder, Truncates left.toInt right.toInt quotient remainder
  zero : forall left : Int64,
    div.apply (.integer left : Value Code) (.integer 0) = .error .divisionByZero
  overflow : forall left right : Int64,
    div.apply (.integer left : Value Code) (.integer right) = .error .overflow ↔
      left = Int64.minValue ∧ right = -1
  less : forall left right : Int64,
    lt.apply (.integer left : Value Code) (.integer right) =
      .ok (.boolean (left.toInt < right.toInt))
  lessEqual : forall left right : Int64,
    le.apply (.integer left : Value Code) (.integer right) =
      .ok (.boolean (left.toInt <= right.toInt))
  equalIntegers : forall left right : Int64,
    eq.apply (.integer left : Value Code) (.integer right) =
      .ok (.boolean (left.toInt = right.toInt))
  equalBooleans : forall left right : Bool,
    eq.apply (.boolean left : Value Code) (.boolean right) = .ok (.boolean (left = right))
  incomparable : forall lhs rhs : Value Code,
    ¬ (lhs.kind = .integer ∧ rhs.kind = .integer) ->
      ¬ (lhs.kind = .boolean ∧ rhs.kind = .boolean) ->
        eq.apply lhs rhs = .error (.incomparable lhs.kind rhs.kind)
  opposite : forall lhs rhs : Value Code,
    (exists truth, eq.apply lhs rhs = .ok (.boolean truth) ∧
      ne.apply lhs rhs = .ok (.boolean (!truth))) ∨
    exists cause, eq.apply lhs rhs = .error cause ∧ ne.apply lhs rhs = .error cause
  leftKind : forall (operator : Operator) (lhs rhs : Value Code), operator.TakesIntegers ->
    lhs.kind ≠ .integer -> operator.apply lhs rhs = .error (.notInteger lhs.kind)
  rightKind : forall (operator : Operator) (lhs rhs : Value Code), operator.TakesIntegers ->
    lhs.kind = .integer -> rhs.kind ≠ .integer ->
      operator.apply lhs rhs = .error (.notInteger rhs.kind)

/-- No operator ever wraps around: the answer is the exact one, or a fault that says why there is
none. -/
theorem operators_answer_exactly (Code : Type) : AnswersExactly Code where
  sum left right := Value.exact_exactInteger _
  difference left right := Value.exact_exactInteger _
  product left right := Value.exact_exactInteger _
  quotient left right quotient remainder nonzero truncates := by
    rw [apply_div_of_ne_zero nonzero, truncates.eq_tdiv (toInt_ne_zero nonzero)]
    exact Value.exact_exactInteger _
  truncated left right nonzero := ⟨_, _, truncates_tdiv (toInt_ne_zero nonzero)⟩
  zero := apply_div_zero
  overflow left right := apply_div_eq_overflow_iff
  less left right := rfl
  lessEqual left right := rfl
  equalIntegers left right := by
    have same : (left == right) = decide (left.toInt = right.toInt) := by
      rw [Bool.eq_iff_iff, beq_iff_eq, decide_eq_true_eq, Int64.toInt_inj]
    change Except.ok (Value.boolean (left == right)) = _
    rw [same]
  equalBooleans left right := by
    cases left <;> cases right <;> rfl
  incomparable lhs rhs integers booleans := by
    unfold apply
    dsimp only
    rw [same_of_incomparable integers booleans]
    rfl
  opposite lhs rhs := by
    unfold apply
    dsimp only
    cases lhs.same rhs with
    | ok truth => exact .inl ⟨truth, rfl, rfl⟩
    | error cause => exact .inr ⟨cause, rfl, rfl⟩
  leftKind operator lhs rhs takes other := apply_of_left_kind takes other
  rightKind operator lhs rhs takes integer other := apply_of_right_kind takes integer other

end Operator
end StrictLambda
