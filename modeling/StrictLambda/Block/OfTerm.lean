import StrictLambda.Block.Basic
import StrictLambda.Block.Locals
import StrictLambda.Failure
import StrictLambda.Term.FreeVariables

/-!
# Blocks of terms

Every intermediate result gets a register of its own and no register is used twice.  A term is
built either for its value, which ends up in a register, or in tail position, where leaving the
block is part of the work: by a return or a tail call in a function body, by an exit at the top
level.

A recursive binding is built against a placeholder.  Its definition is evaluated with the binding
standing for an empty cell, and the cell is tied to the value once there is one.
-/

namespace StrictLambda
namespace Block

/-!
## Blocks under construction

The instructions so far, where bindings live, and the numbers not yet handed out.
-/

structure Draft where
  locals : Locals
  nodes : Array Node
  nextRegister : Nat
  nextLabel : Nat

def Draft.start (parameters : Nat) (locals : Locals) : Draft :=
  { locals := locals, nodes := #[], nextRegister := parameters, nextLabel := 0 }

abbrev Building := StateT Draft (Except Failure)

namespace Building

def freshRegister : Building Register :=
  modifyGet fun draft =>
    (⟨draft.nextRegister⟩, { draft with nextRegister := draft.nextRegister + 1 })

def freshLabel : Building Label :=
  modifyGet fun draft =>
    (⟨draft.nextLabel⟩, { draft with nextLabel := draft.nextLabel + 1 })

def emit (node : Node) : Building Unit :=
  modify fun draft => { draft with nodes := draft.nodes.push node }

def emitOperation (span : Span) (action : Operation) : Building Unit :=
  emit (.operation action span)

def produce (node : Register -> Node) : Building Register := do
  let dest <- freshRegister
  emit (node dest)
  pure dest

def define (binding : Binding) (register : Register) (placeholder : Bool) : Building Unit :=
  modify fun draft =>
    { draft with locals := draft.locals.define binding ⟨register, placeholder⟩ }

def lookup (span : Span) (binding : Binding) : Building Local := do
  match (<- get).locals.get? binding with
  | some place => pure place
  | none => throw (.defect (.unboundVariable binding.name) (some span))

def read (span : Span) (binding : Binding) : Building Register := do
  let place <- lookup span binding
  produce fun dest =>
    if place.placeholder then
      .operation (.derefFixpoint dest place.register) span
    else
      .operation (.copy dest place.register) span

def lookupAll (span : Span) : List Binding -> Building (List (Binding × Local))
  | [] => pure []
  | binding :: rest => do
      let place <- lookup span binding
      let places <- lookupAll span rest
      pure ((binding, place) :: places)

def close (parameters : Nat) (locals : Locals) (span : Span) (body : Building Unit) :
    Except Failure Block := do
  let ((), draft) <- body.run (Draft.start parameters locals)
  pure (.mk parameters draft.nodes.toList span)

end Building

/-!
## Terms

The plan of a term is the pair of its two constructions, so that the plan of a compound term is put
together from those of its parts.
-/

/-- Whether a block is left by exiting or by returning to a caller. -/
inductive Site where
  | topLevel
  | functionBody
deriving DecidableEq

def Site.leave (site : Site) (source : Register) : Operation :=
  match site with
  | .topLevel => .exit source
  | .functionBody => .leave source

structure Plan where
  value : Building Register
  tail : Site -> Building Unit

namespace Plan

open Building

/-- In tail position a term without a rule of its own is built for its value, which then leaves the
block. -/
def ofValue (span : Span) (value : Building Register) : Plan where
  value := value
  tail site := do
    let source <- value
    emitOperation span (site.leave source)

def values : List Plan -> Building (List Register)
  | [] => pure []
  | term :: rest => do
      let register <- term.value
      let registers <- values rest
      pure (register :: registers)

def bindLocal (span : Span) (binding : Binding) (definition : Term) (plan : Plan) :
    Building Unit :=
  if definition.mentions binding then do
    let fixpoint <- produce fun dest => .operation (.beginFixpoint dest) span
    define binding fixpoint true
    let value <- plan.value
    emitOperation definition.span (.endFixpoint fixpoint value)
    define binding value false
  else do
    let value <- plan.value
    define binding value false

/-- Creates a function whose captures are the free variables of the abstraction, in their order. -/
def createFunction (span : Span) (parameter : Binding) (free : List Binding)
    (body : Plan) : Building Register := do
  let captures <- lookupAll span free
  let block <-
    close (captures.length + 1) (Locals.ofFunction parameter captures) span
      (body.tail .functionBody)
  produce fun dest =>
    .function dest block (captures.map fun capture => capture.2.register) span

def chooseValue (span thenSpan elseSpan : Span) (condition consequent alternative : Plan) :
    Building Register := do
  let condition <- condition.value
  let dest <- freshRegister
  let otherwise <- freshLabel
  let done <- freshLabel
  emit (.jumpUnless condition otherwise span)
  let source <- consequent.value
  emitOperation thenSpan (.copy dest source)
  emit (.jump done span)
  emit (.label otherwise span)
  let source <- alternative.value
  emitOperation elseSpan (.copy dest source)
  emit (.label done span)
  pure dest

def chooseTail (span : Span) (condition consequent alternative : Plan) (site : Site) :
    Building Unit := do
  let condition <- condition.value
  let otherwise <- freshLabel
  emit (.jumpUnless condition otherwise span)
  consequent.tail site
  emit (.label otherwise span)
  alternative.tail site

def callValue (span : Span) (function argument : Plan) : Building Register := do
  let function <- function.value
  let argument <- argument.value
  produce fun dest => .operation (.call dest function argument) span

def callTail (span : Span) (function argument : Plan) : Building Unit := do
  let function <- function.value
  let argument <- argument.value
  emitOperation span (.tailCall function argument)

/-- The top level has no caller to hand the frame to, so a call there is never a tail call. -/
def call (span : Span) (function argument : Plan) : Plan where
  value := callValue span function argument
  tail
    | .topLevel => (ofValue span (callValue span function argument)).tail .topLevel
    | .functionBody => callTail span function argument

def after (setup : Building Unit) (plan : Plan) : Plan where
  value := do
    setup
    plan.value
  tail site := do
    setup
    plan.tail site

def choose (span thenSpan elseSpan : Span) (condition consequent alternative : Plan) : Plan where
  value := chooseValue span thenSpan elseSpan condition consequent alternative
  tail := chooseTail span condition consequent alternative

end Plan

open Building Plan

mutual

def plan : Term -> Plan
  | .var span binding =>
      .ofValue span (read span binding)
  | .abs span parameter body =>
      let free := (Term.abs span parameter body).freeVariables
      .ofValue span (createFunction span parameter free (plan body))
  | .app span function argument =>
      .call span (plan function) (plan argument)
  | .letIn span binding definition body =>
      .after (bindLocal span binding definition (plan definition)) (plan body)
  | .group _ inner =>
      plan inner
  | .dataType span declaration =>
      .ofValue span (produce fun dest => .dataType dest declaration span)
  | .data span type tag fields =>
      let type := plan type
      let fields := planList fields
      .ofValue span do
        let type <- type.value
        let fields <- values fields
        produce fun dest => .data dest type tag fields span
  | .member span value field =>
      let value := plan value
      .ofValue span do
        let source <- value.value
        produce fun dest => .operation (.member dest source field) span
  | .literal span value =>
      .ofValue span (produce fun dest => .operation (.literal dest value) span)
  | .binary span operator lhs rhs =>
      let lhs := plan lhs
      let rhs := plan rhs
      .ofValue span do
        let lhs <- lhs.value
        let rhs <- rhs.value
        produce fun dest => .operation (.primitive dest operator lhs rhs) span
  | .cond span condition consequent alternative =>
      .choose span consequent.span alternative.span
        (plan condition) (plan consequent) (plan alternative)

def planList : List Term -> List Plan
  | [] => []
  | term :: rest => plan term :: planList rest

end

/-- The top-level block of a term.  It fails only where a variable is read that has no binding in
scope. -/
def ofTerm (term : Term) : Except Failure Block :=
  close 0 .empty term.span ((plan term).tail .topLevel)

end Block
end StrictLambda
