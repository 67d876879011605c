import StrictLambda.Proofs.Term.Evaluator

/-!
# Functions that an evaluation starts

The evaluator of terms, annotated with the depth at which it evaluates.  The top level has depth
zero.  A function that is applied in tail position of the body of another function is evaluated at
the depth of that body, and every other one at the depth next to that of the application.

The annotated evaluator keeps a list of the functions it starts, each with its depth, and apart from
that does what the evaluator does.
-/

namespace StrictLambda

structure Start where
  lambda : Lambda
  depth : Nat

/-!
## Evaluations with their starts
-/

structure Trace (Result : Type) where
  starts : List Start
  ending : Option (Except Failure (Result × Cells Lambda))

def Tracing (Result : Type) : Type :=
  Cells Lambda -> Trace Result

namespace Tracing

variable {Result First Second : Type}

def quiet (evaluation : Evaluation Result) : Tracing Result :=
  fun cells => ⟨[], evaluation cells⟩

def start (lambda : Lambda) (depth : Nat) : Tracing Unit :=
  fun cells => ⟨[⟨lambda, depth⟩], some (.ok ((), cells))⟩

instance : Monad Tracing where
  pure result := fun cells => ⟨[], some (.ok (result, cells))⟩
  bind first rest := fun cells =>
    match first cells with
    | ⟨starts, none⟩ => ⟨starts, none⟩
    | ⟨starts, some (.error failure)⟩ => ⟨starts, some (.error failure)⟩
    | ⟨starts, some (.ok (result, after))⟩ =>
        { starts := starts ++ (rest result after).starts
          ending := (rest result after).ending }

theorem bind_apply (first : Tracing First) (rest : First -> Tracing Second)
    (cells : Cells Lambda) :
    (first >>= rest) cells =
      match first cells with
      | ⟨starts, none⟩ => ⟨starts, none⟩
      | ⟨starts, some (.error failure)⟩ => ⟨starts, some (.error failure)⟩
      | ⟨starts, some (.ok (result, after))⟩ =>
          { starts := starts ++ (rest result after).starts
            ending := (rest result after).ending } :=
  rfl

theorem pure_apply (result : Result) (cells : Cells Lambda) :
    (pure result : Tracing Result) cells = ⟨[], some (.ok (result, cells))⟩ :=
  rfl

theorem bind_pure (tracing : Tracing Result) : tracing >>= pure = tracing := by
  funext cells
  rw [bind_apply]
  rcases tracing cells with ⟨starts, _ | _ | _⟩ <;> simp [pure_apply]

theorem bind_assoc {Third : Type} (first : Tracing First) (rest : First -> Tracing Second)
    (last : Second -> Tracing Third) :
    first >>= rest >>= last = first >>= fun result => rest result >>= last := by
  funext cells
  rw [bind_apply, bind_apply, bind_apply]
  rcases first cells with ⟨starts, _ | _ | ⟨result, after⟩⟩
  · rfl
  · rfl
  · dsimp only
    rw [bind_apply]
    rcases rest result after with ⟨more, _ | _ | _⟩ <;> simp

instance : LawfulMonad Tracing :=
  .mk' Tracing bind_pure (fun _ _ => rfl) bind_assoc

theorem quiet_bind (first : Evaluation First) (rest : First -> Evaluation Second) :
    quiet (first >>= rest) = quiet first >>= fun result => quiet (rest result) := by
  funext cells
  rw [bind_apply]
  unfold quiet
  rw [Evaluation.bind_apply]
  rcases first cells with _ | _ | _ <;> rfl

def forget (tracing : Tracing Result) : Evaluation Result :=
  fun cells => (tracing cells).ending

@[simp] theorem forget_quiet (evaluation : Evaluation Result) :
    (quiet evaluation).forget = evaluation :=
  rfl

@[simp] theorem forget_start (lambda : Lambda) (depth : Nat) :
    (start lambda depth).forget = pure () :=
  rfl

@[simp] theorem forget_pure (result : Result) :
    (pure result : Tracing Result).forget = pure result :=
  rfl

@[simp] theorem forget_bind (first : Tracing First) (rest : First -> Tracing Second) :
    (first >>= rest).forget = first.forget >>= fun result => (rest result).forget := by
  funext cells
  rw [Evaluation.bind_apply]
  unfold forget
  rw [bind_apply]
  rcases first cells with ⟨starts, _ | _ | _⟩ <;> rfl

@[simp] theorem forget_map (change : First -> Second) (tracing : Tracing First) :
    (change <$> tracing).forget = change <$> tracing.forget := by
  rw [← bind_pure_comp, ← bind_pure_comp, forget_bind]
  rfl

end Tracing

/-- How a function is applied when its body is evaluated at the given depth. -/
abbrev TracedCalls :=
  Nat -> Lambda -> List (Value Lambda) -> Value Lambda -> Tracing (Value Lambda)

/-!
## Terms
-/

namespace Term

def traceDefinition (environment : Environment) (binding : Binding) (definition : Term)
    (trace : Environment -> Tracing (Value Lambda)) : Tracing (Value Lambda) :=
  if definition.mentions binding then do
    let cell <- Tracing.quiet Evaluation.allocate
    let value <- trace ((binding.id, .fixpoint cell) :: environment)
    Tracing.quiet (Evaluation.tie definition.span cell value)
    pure value
  else
    trace environment

mutual

/-- The value of a term at the given depth.  In tail position of a function body the term has the
value of the whole body. -/
def trace (call : TracedCalls) (depth : Nat) (tail : Bool) (number : Nat)
    (environment : Environment) : Term -> Tracing (Value Lambda)
  | .var span binding =>
      Tracing.quiet (evaluateVar environment span binding)
  | .abs span parameter body => do
      let free := (Term.abs span parameter body).freeVariables
      let captures <- Tracing.quiet (.of (environment.findAll span free))
      pure (.function ⟨number, parameter, free, body⟩ captures)
  | .app span function argument => do
      let callee <- function.trace call depth false number environment
      let value <- argument.trace call depth false (number + function.abstractions) environment
      let (lambda, captures) <- Tracing.quiet (.of (callee.expectFunction span))
      let depth := if tail then depth else depth + 1
      Tracing.start lambda depth
      call depth lambda captures value
  | .letIn _ binding definition body => do
      let value <- traceDefinition environment binding definition fun inside =>
        definition.trace call depth false number inside
      body.trace call depth tail (number + definition.abstractions)
        ((binding.id, value) :: environment)
  | .group _ inner =>
      inner.trace call depth tail number environment
  | .dataType _ declaration =>
      pure (.dataType declaration)
  | .data span type tag fields => do
      let found <- type.trace call depth false number environment
      let values <- traceList call depth (number + type.abstractions) environment fields
      let (declaration, constructor) <- Tracing.quiet (.of (found.constructorNumbered span tag))
      Tracing.quiet (.of (Value.construct span declaration constructor tag values))
  | .member span value field => do
      let found <- value.trace call depth false number environment
      Tracing.quiet (.of (found.member span field))
  | .literal _ value =>
      pure (.ofLiteral value)
  | .binary span operator lhs rhs => do
      let left <- lhs.trace call depth false number environment
      let right <- rhs.trace call depth false (number + lhs.abstractions) environment
      Tracing.quiet (.of (blameFault span (operator.apply left right)))
  | .cond span condition consequent alternative => do
      let found <- condition.trace call depth false number environment
      let holds <- Tracing.quiet (.of (found.expectBoolean span))
      let number := number + condition.abstractions
      if holds then
        consequent.trace call depth tail number environment
      else
        alternative.trace call depth tail (number + consequent.abstractions) environment

def traceList (call : TracedCalls) (depth : Nat) (number : Nat) (environment : Environment) :
    List Term -> Tracing (List (Value Lambda))
  | [] => pure []
  | term :: rest => do
      let value <- term.trace call depth false number environment
      let values <- traceList call depth (number + term.abstractions) environment rest
      pure (value :: values)

end

def tracedCalls : Nat -> TracedCalls
  | 0 => fun _ _ _ _ => Tracing.quiet .cutOff
  | limit + 1 => fun depth lambda captures argument =>
      lambda.body.trace (tracedCalls limit) depth true (lambda.number + 1)
        (.ofCall lambda captures argument)

def traceRun (term : Term) (limit : Nat) : Trace (Value Lambda) :=
  term.trace (tracedCalls limit) 0 false 1 [] .empty

def starts (term : Term) (limit : Nat) : List Start :=
  (term.traceRun limit).starts

example : (countdown.starts 2).map Start.depth = [1, 1] := rfl

/-!
## The evaluator without annotations
-/

theorem forget_traceDefinition {environment : Environment} {binding : Binding}
    {definition : Term} {trace : Environment -> Tracing (Value Lambda)}
    {evaluate : Environment -> Evaluation (Value Lambda)}
    (same : forall inside, (trace inside).forget = evaluate inside) :
    (traceDefinition environment binding definition trace).forget =
      evaluateDefinition environment binding definition evaluate := by
  unfold traceDefinition evaluateDefinition
  split <;> simp [same]

section Forget

variable {call : TracedCalls} {plain : Calls}

mutual

theorem forget_trace
    (same : forall depth lambda captures argument,
      (call depth lambda captures argument).forget = plain lambda captures argument)
    (depth : Nat) (tail : Bool) (number : Nat) (environment : Environment) : (term : Term) ->
    (term.trace call depth tail number environment).forget =
      term.evaluate plain number environment
  | .var span binding => by rw [trace, evaluate, Tracing.forget_quiet]
  | .abs span parameter body => by simp [trace, evaluate]
  | .app span function argument => by
      simp [trace, evaluate, same, forget_trace same depth false _ environment function,
        forget_trace same depth false _ environment argument]
  | .letIn span binding definition body => by
      rw [trace, evaluate, Tracing.forget_bind, forget_traceDefinition fun inside =>
        forget_trace same depth false _ inside definition]
      simp [forget_trace same depth tail _ _ body]
  | .group span inner => by
      rw [trace, evaluate]
      exact forget_trace same depth tail number environment inner
  | .dataType span declaration => by simp [trace, evaluate]
  | .data span type tag fields => by
      simp [trace, evaluate, forget_trace same depth false _ environment type,
        forget_traceList same depth _ environment fields]
  | .member span value field => by
      simp [trace, evaluate, forget_trace same depth false _ environment value]
  | .literal span value => by simp [trace, evaluate]
  | .binary span operator lhs rhs => by
      simp [trace, evaluate, forget_trace same depth false _ environment lhs,
        forget_trace same depth false _ environment rhs]
  | .cond span condition consequent alternative => by
      have first := forget_trace same depth false number environment condition
      have second := fun number => forget_trace same depth tail number environment consequent
      have third := fun number => forget_trace same depth tail number environment alternative
      rw [trace, evaluate, Tracing.forget_bind, first]
      congr 1
      funext found
      rw [Tracing.forget_bind, Tracing.forget_quiet]
      congr 1
      funext holds
      cases holds
      · exact third _
      · exact second _

theorem forget_traceList
    (same : forall depth lambda captures argument,
      (call depth lambda captures argument).forget = plain lambda captures argument)
    (depth : Nat) (number : Nat) (environment : Environment) : (terms : List Term) ->
    (traceList call depth number environment terms).forget =
      evaluateList plain number environment terms
  | [] => by simp [traceList, evaluateList]
  | term :: rest => by
      simp [traceList, evaluateList, forget_trace same depth false _ environment term,
        forget_traceList same depth _ environment rest]

end

end Forget

theorem forget_tracedCalls (limit depth : Nat) (lambda : Lambda) (captures : List (Value Lambda))
    (argument : Value Lambda) :
    (tracedCalls limit depth lambda captures argument).forget =
      calls limit lambda captures argument := by
  induction limit generalizing depth lambda captures argument with
  | zero => rfl
  | succ limit ih => exact forget_trace ih depth true _ _ lambda.body

theorem ending_traceRun (term : Term) (limit : Nat) :
    (term.traceRun limit).ending = term.run limit := by
  have same := forget_trace (forget_tracedCalls limit) 0 false 1 [] term
  exact congrFun same .empty

end Term
end StrictLambda
