import StrictLambda.Proofs.Term.Scope
import StrictLambda.Value.Arithmetic
import StrictLambda.Value.Cells
import StrictLambda.Value.Data
import StrictLambda.Value.Expect

/-!
# Evaluating terms

A term can be evaluated as it stands, by value and from left to right.  All operands of a node are
evaluated before anything is asked of them.  A function keeps the values of its free variables, and
a recursive binding stands for a cell, which is empty while the definition is evaluated and tied to
its value before the body is.

Abstractions are told apart by numbers, in the order in which they begin in the text of the term.
-/

namespace StrictLambda

/-- An abstraction of a term, with its number and the bindings it captures. -/
structure Lambda where
  number : Nat
  parameter : Binding
  free : List Binding
  body : Term

/-!
## Effects

Evaluation changes cells and can fail.  It is cut off when calls are nested deeper than allowed, and
has no outcome then.
-/

abbrev Evaluation := StateT (Cells Lambda) (ExceptT Failure Option)

namespace Evaluation

def of {Result : Type} (outcome : Except Failure Result) : Evaluation Result :=
  fun cells => some (outcome.map fun result => (result, cells))

def cutOff {Result : Type} : Evaluation Result :=
  fun _ => none

def allocate : Evaluation Cell :=
  fun cells => some (.ok cells.allocate)

def readCell (span : Span) (cell : Cell) : Evaluation (Value Lambda) :=
  fun cells => some ((blameDefect span (cells.read cell)).map fun value => (value, cells))

def resolve (span : Span) : Value Lambda -> Evaluation (Value Lambda)
  | .fixpoint cell => readCell span cell
  | value => pure value

def tie (span : Span) (cell : Cell) (value : Value Lambda) : Evaluation Unit :=
  fun cells => some ((blameDefect span (cells.tie cell value)).map fun tied => ((), tied))

theorem bind_apply {First Second : Type} (first : Evaluation First)
    (rest : First -> Evaluation Second) (cells : Cells Lambda) :
    (first >>= rest) cells =
      match first cells with
      | none => none
      | some (.error failure) => some (.error failure)
      | some (.ok (value, after)) => rest value after := by
  simp only [bind, StateT.bind, ExceptT.bind, ExceptT.mk]
  cases first cells with
  | none => rfl
  | some ending => cases ending <;> rfl

theorem of_bind {First Second : Type} (first : Except Failure First)
    (rest : First -> Except Failure Second) :
    of (first >>= rest) = of first >>= fun value => of (rest value) := by
  funext cells
  rw [bind_apply]
  cases first <;> rfl

end Evaluation

/-!
## Environments
-/

/-- What bindings stand for, by their numbers.  A recursive binding stands for its cell while its
definition is evaluated. -/
abbrev Environment := List (Nat × Value Lambda)

namespace Environment

def scope (environment : Environment) : List Nat :=
  environment.map Prod.fst

def find (environment : Environment) (span : Span) (binding : Binding) :
    Except Failure (Value Lambda) :=
  match environment.lookup binding.id with
  | some value => .ok value
  | none => .error (.defect (.unboundVariable binding.name) (some span))

def findAll (environment : Environment) (span : Span) :
    List Binding -> Except Failure (List (Value Lambda))
  | [] => .ok []
  | binding :: rest => do
      let value <- environment.find span binding
      let values <- environment.findAll span rest
      pure (value :: values)

def ofCall (lambda : Lambda) (captures : List (Value Lambda)) (argument : Value Lambda) :
    Environment :=
  (lambda.parameter.id, argument) :: (lambda.free.map Binding.id).zip captures

end Environment

/-- How a function is applied to its captures and to an argument. -/
abbrev Calls := Lambda -> List (Value Lambda) -> Value Lambda -> Evaluation (Value Lambda)

/-!
## Terms
-/

namespace Term

def evaluateVar (environment : Environment) (span : Span) (binding : Binding) :
    Evaluation (Value Lambda) := do
  let found <- Evaluation.of (environment.find span binding)
  Evaluation.resolve span found

/-- The value of a definition, where `evaluate` evaluates it in an environment.  A definition that
mentions its own binding is evaluated with an empty cell in the place of the value. -/
def evaluateDefinition (environment : Environment) (binding : Binding) (definition : Term)
    (evaluate : Environment -> Evaluation (Value Lambda)) : Evaluation (Value Lambda) :=
  if definition.mentions binding then do
    let cell <- Evaluation.allocate
    let value <- evaluate ((binding.id, .fixpoint cell) :: environment)
    Evaluation.tie definition.span cell value
    pure value
  else
    evaluate environment

mutual

/-- The value of a term whose first abstraction has the given number. -/
def evaluate (call : Calls) (number : Nat) (environment : Environment) :
    Term -> Evaluation (Value Lambda)
  | .var span binding =>
      evaluateVar environment span binding
  | .abs span parameter body => do
      let free := (Term.abs span parameter body).freeVariables
      let captures <- Evaluation.of (environment.findAll span free)
      pure (.function ⟨number, parameter, free, body⟩ captures)
  | .app span function argument => do
      let callee <- function.evaluate call number environment
      let value <- argument.evaluate call (number + function.abstractions) environment
      let (lambda, captures) <- Evaluation.of (callee.expectFunction span)
      call lambda captures value
  | .letIn _ binding definition body => do
      let value <- evaluateDefinition environment binding definition fun inside =>
        definition.evaluate call number inside
      body.evaluate call (number + definition.abstractions) ((binding.id, value) :: environment)
  | .group _ inner =>
      inner.evaluate call number environment
  | .dataType _ declaration =>
      pure (.dataType declaration)
  | .data span type tag fields => do
      let found <- type.evaluate call number environment
      let values <- evaluateList call (number + type.abstractions) environment fields
      let (declaration, constructor) <- Evaluation.of (found.constructorNumbered span tag)
      Evaluation.of (Value.construct span declaration constructor tag values)
  | .member span value field => do
      let found <- value.evaluate call number environment
      Evaluation.of (found.member span field)
  | .literal _ value =>
      pure (.ofLiteral value)
  | .binary span operator lhs rhs => do
      let left <- lhs.evaluate call number environment
      let right <- rhs.evaluate call (number + lhs.abstractions) environment
      Evaluation.of (blameFault span (operator.apply left right))
  | .cond span condition consequent alternative => do
      let found <- condition.evaluate call number environment
      let holds <- Evaluation.of (found.expectBoolean span)
      let number := number + condition.abstractions
      if holds then
        consequent.evaluate call number environment
      else
        alternative.evaluate call (number + consequent.abstractions) environment

def evaluateList (call : Calls) (number : Nat) (environment : Environment) :
    List Term -> Evaluation (List (Value Lambda))
  | [] => pure []
  | term :: rest => do
      let value <- term.evaluate call number environment
      let values <- evaluateList call (number + term.abstractions) environment rest
      pure (value :: values)

end

def calls : Nat -> Calls
  | 0 => fun _ _ _ => .cutOff
  | depth + 1 => fun lambda captures argument =>
      lambda.body.evaluate (calls depth) (lambda.number + 1) (.ofCall lambda captures argument)

/-- The outcome of a whole term, if its calls are not nested too deeply.  Number zero is left to the
top level. -/
def run (term : Term) (depth : Nat) : Option (Except Failure (Value Lambda × Cells Lambda)) :=
  term.evaluate (calls depth) 1 [] .empty

/-- If calls may be nested deeply enough, evaluation comes to this ending. -/
def Ends (term : Term) (ending : Except Failure (Value Lambda × Cells Lambda)) : Prop :=
  exists depth, term.run depth = some ending

def RunsForever (term : Term) : Prop :=
  forall depth, term.run depth = none

def countdown : Term :=
  let span : Span := ⟨⟨0⟩, 0, 0⟩
  let count : Binding := ⟨⟨0⟩, 0⟩
  let number : Binding := ⟨⟨1⟩, 1⟩
  .letIn span count
    (.abs span number
      (.cond span (.binary span .eq (.var span number) (.literal span (.integer 0)))
        (.var span number)
        (.app span (.var span count)
          (.binary span .sub (.var span number) (.literal span (.integer 1))))))
    (.app span (.var span count) (.literal span (.integer 1)))

theorem unshadowed_countdown : countdown.Unshadowed [] := by
  simp [countdown, Unshadowed]

example : exists cells, countdown.run 2 = some (.ok (.integer 0, cells)) :=
  ⟨_, rfl⟩

end Term
end StrictLambda
