import StrictLambda.Proofs.Builder.Stages

/-!
# Single nodes of constructed blocks

What the last node of a construction does when the parts in front of it have been executed: it reads
a local, combines the values of operands, creates a function, applies one, or leaves the block.
-/

namespace StrictLambda

/-- What remains to be done for a term when its operands have been evaluated.  A function that is
applied is evaluated at the given depth. -/
def Term.finish (call : TracedCalls) (depth : Nat) :
    Term -> List (Value Lambda) -> Tracing (Value Lambda)
  | .app span _ _, [callee, value] => do
      let (lambda, captures) <- Tracing.quiet (.of (callee.expectFunction span))
      Tracing.start lambda depth
      call depth lambda captures value
  | .dataType _ declaration, _ => pure (.dataType declaration)
  | .data span _ tag _, found :: values => do
      let (declaration, constructor) <- Tracing.quiet (.of (found.constructorNumbered span tag))
      Tracing.quiet (.of (Value.construct span declaration constructor tag values))
  | .member span _ field, [found] => Tracing.quiet (.of (found.member span field))
  | .literal _ value, _ => pure (.ofLiteral value)
  | .binary span operator _ _, [left, right] =>
      Tracing.quiet (.of (blameFault span (operator.apply left right)))
  | _, _ => Tracing.quiet .cutOff

namespace Block

open Draft

theorem trace_of_combines {term : Term} {operands : List Term} {dest : Register}
    {registers : List Register} {node : Node}
    (combines : Combines term operands dest registers node) (call : TracedCalls) (depth : Nat)
    (tail : Bool) (number : Nat) (environment : Environment) :
    term.trace call depth tail number environment =
      Term.traceList call depth number environment operands >>=
        term.finish call (if tail then depth else depth + 1) := by
  cases combines <;> simp [Term.trace, Term.traceList, Term.finish]

/-!
## Calls
-/

def Returns (tree : Block) (caller : Caller) (rest : List Caller) (value : Value Lambda)
    (cells : Cells Lambda) (last : State) : Prop :=
  last =
    { frame :=
        { caller.frame with
          registers :=
            caller.frame.registers.set caller.dest.index (some (value.map (codeOf tree))) }
      callers := rest
      cells := cells.map (codeOf tree) } ∧
    Proper tree value ∧ ProperCells tree cells

def entered (tree : Block) (callers : List Caller) (lambda : Lambda)
    (captures : List (Value Lambda)) (argument : Value Lambda) (cells : Cells Lambda) : State where
  frame := .enter (codeOf tree lambda) (argument.map (codeOf tree))
    (captures.map (Value.map (codeOf tree)))
  callers := callers
  cells := cells.map (codeOf tree)

def AppliesAlike (tree : Block) (least : Nat) (call : TracedCalls) : Prop :=
  forall lambda captures argument cells caller rest,
    (Value.function lambda captures).Everywhere (Faithful tree) -> Proper tree argument ->
      ProperCells tree cells -> caller.dest.index < caller.frame.registers.length ->
        Evaluates least (call (caller :: rest).length lambda captures argument) cells
          (Returns tree caller rest)
          (entered tree (caller :: rest) lambda captures argument cells)

section Nodes

variable {tree : Block} {body : Body} {callers : List Caller} {draft after : Draft}
  {environment : Environment} {registers : List (Option (Value Body))}
  {cells : Cells Lambda} {node : Node} {least : Nat} {call : TracedCalls} {span : Span}

/-!
## Variables
-/

theorem evaluateVar_eq {binding : Binding} {value : Value Lambda}
    (bound : environment.lookup binding.id = some value) :
    Term.evaluateVar environment span binding = Evaluation.resolve span value := by
  unfold Term.evaluateVar Environment.find
  rw [bound]
  rfl

theorem exists_cell_of_isCell {value : Value Lambda} (isCell : value.isCell = true) :
    exists cell, value = .fixpoint cell := by
  cases value with
  | fixpoint cell => exact ⟨cell, rfl⟩
  | integer | boolean | function | dataType | data => cases isCell

theorem resolve_eq_pure {value : Value Lambda} (ordinary : value.isCell = false) :
    Evaluation.resolve span value = Evaluation.of (.ok value) := by
  cases value with
  | fixpoint cell => cases ordinary
  | integer | boolean | function | dataType | data => rfl

theorem readNode_of_placeholder {dest : Register} {place : Local}
    (placeholder : place.placeholder = true) :
    readNode span dest place = .operation (.derefFixpoint dest place.register) span :=
  if_pos placeholder

theorem readNode_of_not_placeholder {dest : Register} {place : Local}
    (direct : place.placeholder = false) :
    readNode span dest place = .operation (.copy dest place.register) span :=
  if_neg (by rw [direct]; decide)

theorem evaluates_var {binding : Binding} {place : Local}
    (ready : Ready tree body draft environment registers cells)
    (found : draft.locals.get? binding = some place) (visible : binding.id ∈ environment.scope)
    (built : (draft.produce (readNode span draft.next place)).nodes.toList <+:
      body.block.nodes) :
    Evaluates least (Tracing.quiet (Term.evaluateVar environment span binding)) cells
      (Delivers tree body callers draft.nextRegister registers
        (draft.produce (readNode span draft.next place)) draft.next)
      (stateAt tree body callers draft.nodes.size registers cells) := by
  rcases mem_scope_iff.mp visible with ⟨value, bound⟩
  rcases ready.mirrors binding.id value bound with ⟨own, same, _, stores, flag, faithful⟩
  have place_eq : own = place := Option.some.inj (same.symm.trans found)
  subst place_eq
  rw [evaluateVar_eq bound]
  have read : (stateAt tree body callers draft.nodes.size registers cells).frame.read
      own.register = _ := read_of_stores stores
  cases isCell : value.isCell with
  | true =>
      rcases exists_cell_of_isCell isCell with ⟨cell, rfl⟩
      rw [readNode_of_placeholder (flag.trans isCell)] at built ⊢
      refine evaluates_produce built ready.length List.mem_cons_self rfl ?_ ?_ ?_ ready.cells
      · rw [nodes_produce] at built
        exact State.careful_of_handsOver_eq_nil (node?_of_built built) rfl
      · rw [State.execute, State.perform, read, ok_bind, Value.map_fixpoint, Value.expectCell,
          ok_bind]
        dsimp only [stateAt]
        rw [Cells.read_map, Program.blameDefect_map]
      · intro content resolved
        exact ready.cells cell content
          (Cells.content?_of_read (blameDefect_eq_ok_iff.mp resolved))
  | false =>
      rw [readNode_of_not_placeholder (flag.trans isCell)] at built ⊢
      rw [resolve_eq_pure isCell]
      refine evaluates_produce built ready.length List.mem_cons_self rfl ?_ ?_ ?_ ready.cells
      · rw [nodes_produce] at built
        exact State.careful_of_handsOver_eq_nil (node?_of_built built) rfl
      · rw [State.execute, State.perform, read, ok_bind]
        rfl
      · intro content same
        cases same
        exact ⟨isCell, faithful⟩

/-!
## Functions
-/

theorem captures_of_ready (callers : List Caller) (span : Span)
    {places : List (Binding × Local)}
    (ready : Ready tree body draft environment registers cells)
    (found : forall capture, capture ∈ places ->
      draft.locals.get? capture.1 = some capture.2)
    (visible : forall capture, capture ∈ places -> capture.1.id ∈ environment.scope)
    (position : Nat) :
    exists values, environment.findAll span (places.map Prod.fst) = .ok values ∧
      places.map (fun capture => capture.2.placeholder) = values.map Value.isCell ∧
      (stateAt tree body callers position registers cells).frame.readAll
        (places.map fun capture => capture.2.register) =
          .ok (values.map (Value.map (codeOf tree))) ∧
      forall value, value ∈ values -> value.Everywhere (Faithful tree) := by
  induction places with
  | nil => exact ⟨[], rfl, rfl, rfl, fun _ member => nomatch member⟩
  | cons capture rest ih =>
      rcases ih (fun other member => found other (List.mem_cons_of_mem _ member))
        (fun other member => visible other (List.mem_cons_of_mem _ member)) with
        ⟨values, bound, flags, read, faithful⟩
      rcases mem_scope_iff.mp (visible capture List.mem_cons_self) with ⟨value, boundFirst⟩
      rcases ready.mirrors _ value boundFirst with
        ⟨own, same, _, stores, flag, faithfulFirst⟩
      have place_eq : own = capture.2 :=
        Option.some.inj (same.symm.trans (found capture List.mem_cons_self))
      subst place_eq
      have readFirst : (stateAt tree body callers position registers cells).frame.read
        capture.2.register = _ := read_of_stores stores
      refine ⟨value :: values, ?_, ?_, ?_, List.forall_mem_cons.mpr ⟨faithfulFirst, faithful⟩⟩
      · rw [List.map_cons, Environment.findAll, Environment.find, boundFirst, bound]
        rfl
      · rw [List.map_cons, List.map_cons, flags, flag]
      · rw [List.map_cons, Frame.readAll, readFirst, ok_bind, read, ok_bind]
        rfl

theorem take_of_built (built : draft.nodes.toList <+: body.block.nodes) :
    body.block.nodes.take draft.nodes.size = draft.nodes.toList := by
  rcases built with ⟨rest, whole⟩
  rw [← whole, List.take_left' (by simp)]

def nextNumber (body : Body) (draft : Draft) : Nat :=
  body.number + 1 + nestedCount draft.nodes.toList

theorem evaluates_abs {inner : Draft} {parameter : Binding} {definition : Term}
    {places : List (Binding × Local)} (sited : Sited tree body)
    (ready : Ready tree body draft environment registers cells)
    (fits : (Term.abs span parameter definition).FitsScope environment.scope)
    (free : places.map Prod.fst = (Term.abs span parameter definition).freeVariables)
    (found : forall capture, capture ∈ places ->
      draft.locals.get? capture.1 = some capture.2)
    (builds : Builds (.tail .functionBody definition)
      (.start (places.length + 1) (.ofFunction parameter places)) inner)
    (built : (draft.produce
      (.function draft.next (.mk (places.length + 1) inner.nodes.toList span)
        (places.map fun capture => capture.2.register) span)).nodes.toList <+:
          body.block.nodes) :
    Evaluates least
      ((Term.abs span parameter definition).trace call callers.length false (nextNumber body draft)
        environment) cells
      (Delivers tree body callers draft.nextRegister registers
        (draft.produce
          (.function draft.next (.mk (places.length + 1) inner.nodes.toList span)
            (places.map fun capture => capture.2.register) span)) draft.next)
      (stateAt tree body callers draft.nodes.size registers cells) := by
  have visible : forall capture, capture ∈ places -> capture.1.id ∈ environment.scope := by
    intro capture member
    apply fits.visible
    rw [← Term.mem_freeVariables_iff, ← free, List.map_map]
    exact List.mem_map.mpr ⟨capture, member, rfl⟩
  rcases captures_of_ready callers span ready found visible draft.nodes.size with
    ⟨values, bound, flags, read, faithful⟩
  have made := built
  rw [nodes_produce] at made
  have nested := sited.stands.nested (getElem?_of_built made)
  have number : (body.nested draft.nodes.size
      (.mk (places.length + 1) inner.nodes.toList span)).number = nextNumber body draft := by
    unfold Body.nested nextNumber
    rw [take_of_built ((List.prefix_append _ _).trans made)]
  generalize lambda_eq : Lambda.mk (nextNumber body draft) parameter
    (Term.abs span parameter definition).freeVariables definition = lambda
  have code : codeOf tree lambda = body.nested draft.nodes.size
      (.mk (places.length + 1) inner.nodes.toList span) := by
    rw [← nested.bodyAt_eq, number, ← lambda_eq]
    rfl
  have evaluated : (Term.abs span parameter definition).trace call callers.length false
      (nextNumber body draft) environment =
        Tracing.quiet (.of (.ok (.function lambda values))) := by
    rw [Term.trace, ← free, bound, ← lambda_eq, ← free]
    rfl
  rw [evaluated]
  refine evaluates_produce built ready.length List.mem_cons_self rfl ?_ ?_ ?_ ready.cells
  · exact State.careful_of_handsOver_eq_nil (node?_of_built made) rfl
  · rw [State.execute, read, ok_bind]
    have shown : (Value.function lambda values).map (codeOf tree) = _ := Value.map_function _ _ _
    rw [Except.map, ok_bind, shown, code]
    rfl
  · intro value same
    cases same
    refine ⟨rfl, .intro ?_ faithful⟩
    refine ⟨places, inner, span, ?_, flags, ?_, ?_, ?_, ?_⟩
    · rw [← lambda_eq]
      exact free
    · rw [← lambda_eq]
      exact builds
    · rw [← lambda_eq]
      have stands := nested
      unfold Body.nested at stands number
      rw [← number]
      exact stands
    · rw [← lambda_eq]
      exact fits.abs_body
    · rw [← lambda_eq]
      exact Term.nodup_parameter_freeVariables span parameter definition

/-!
## Operands
-/

def StoresAll (tree : Block) (registers : List (Option (Value Body))) :
    List Register -> List (Value Lambda) -> Prop :=
  List.Forall₂ fun register value => Stores tree registers register value ∧ Proper tree value

theorem StoresAll.readAll {sources : List Register} {values : List (Value Lambda)}
    (stores : StoresAll tree registers sources values) (position : Nat) :
    (stateAt tree body callers position registers cells).frame.readAll sources =
      .ok (values.map (Value.map (codeOf tree))) := by
  induction stores with
  | nil => rfl
  | cons first _ ih =>
      have read : (stateAt tree body callers position registers cells).frame.read _ = _ :=
        read_of_stores first.1
      rw [Frame.readAll, read, ok_bind, ih, ok_bind]
      rfl

theorem StoresAll.proper {sources : List Register} {values : List (Value Lambda)}
    (stores : StoresAll tree registers sources values) {value : Value Lambda}
    (member : value ∈ values) : Proper tree value := by
  induction stores with
  | nil => cases member
  | cons first _ ih =>
      rcases List.mem_cons.mp member with rfl | later
      · exact first.2
      · exact ih later

theorem StoresAll.careful {sources : List Register} {values : List (Value Lambda)}
    (stores : StoresAll tree registers sources values) {position : Nat}
    (found : body.block.nodes[position]? = some node) (hands : node.handsOver = sources)
    (exits : forall source span, node = .operation (.exit source) span -> callers = []) :
    (stateAt tree body callers position registers cells).Careful where
  handsOver := by
    intro own foundOwn register member content read
    have same : some node = some own := found.symm.trans foundOwn
    cases same
    rw [hands] at member
    clear hands found foundOwn exits
    induction stores with
    | nil => cases member
    | cons first _ ih =>
        rcases List.mem_cons.mp member with rfl | later
        · rw [read_of_stores first.1] at read
          cases read
          rw [Value.isCell_map, first.2.ordinary]
        · exact ih later
  exits := by
    intro source span foundOwn
    have same : some node = some _ := found.symm.trans foundOwn
    cases same
    exact exits source span rfl

theorem evaluates_call {function argument : Register} {callee value : Value Lambda}
    (applies : AppliesAlike tree least call) (length : registers.length = body.block.frameSize)
    (properCells : ProperCells tree cells) (first : Stores tree registers function callee)
    (properCallee : Proper tree callee) (second : Stores tree registers argument value)
    (properValue : Proper tree value)
    (built : (draft.produce
      (.operation (.call draft.next function argument) span)).nodes.toList <+:
        body.block.nodes) :
    Evaluates (least + 1)
      (do
        let (lambda, captures) <- Tracing.quiet (.of (callee.expectFunction span))
        Tracing.start lambda (callers.length + 1)
        call (callers.length + 1) lambda captures value) cells
      (Delivers tree body callers draft.nextRegister registers
        (draft.produce (.operation (.call draft.next function argument) span)) draft.next)
      (stateAt tree body callers draft.nodes.size registers cells) := by
  have made := built
  rw [nodes_produce] at made
  have inside := lt_length_of_built made length List.mem_cons_self
  have careful : (stateAt tree body callers draft.nodes.size registers cells).Careful :=
    careful_of_stores (getElem?_of_built made) rfl second properValue.ordinary
      fun _ _ same => nomatch same
  have stepped : (stateAt tree body callers draft.nodes.size registers cells).step = _ :=
    step_of_node? (node?_of_built made)
  have readCallee : (stateAt tree body callers draft.nodes.size registers cells).frame.read
    function = _ := read_of_stores first
  have readValue : (stateAt tree body callers draft.nodes.size registers cells).frame.read
    argument = _ := read_of_stores second
  rw [State.execute, State.perform, readCallee, ok_bind, Value.expectFunction_map] at stepped
  cases expected : callee.expectFunction span with
  | error failure =>
      rw [expected] at stepped
      exact .bind_fail careful stepped
  | ok pair =>
      rcases pair with ⟨lambda, captures⟩
      rw [expected, Except.map, ok_bind] at stepped
      dsimp only at stepped
      rw [readValue, ok_bind] at stepped
      cases Value.eq_function_of_expectFunction expected
      have applied := applies lambda captures value cells
        ⟨⟨body, draft.nodes.size + 1, registers⟩, draft.next⟩ callers properCallee.faithful
        properValue properCells inside
      refine .bind_ok (.start careful (node?_of_built made) rfl stepped rfl ?_)
      apply applied.mono
      intro result cellsAfter last returns
      rcases returns with ⟨rfl, proper, properAfter⟩
      refine ⟨_, ?_, keeps_set (Nat.le_refl _) _, stores_set inside, proper, properAfter⟩
      rw [size_produce]
      rfl

theorem evaluates_data {first : Register} {sources : List Register} {found : Value Lambda}
    {values : List (Value Lambda)} {tag : Nat} (length : registers.length = body.block.frameSize)
    (properCells : ProperCells tree cells) (type : Stores tree registers first found)
    (fields : StoresAll tree registers sources values)
    (built : (draft.produce (.data draft.next first tag sources span)).nodes.toList <+:
      body.block.nodes) :
    Evaluates least
      (Tracing.quiet (.of (found.constructorNumbered span tag >>= fun named =>
        Value.construct span named.1 named.2 tag values))) cells
      (Delivers tree body callers draft.nextRegister registers
        (draft.produce (.data draft.next first tag sources span)) draft.next)
      (stateAt tree body callers draft.nodes.size registers cells) := by
  have made := built
  rw [nodes_produce] at made
  have read : (stateAt tree body callers draft.nodes.size registers cells).frame.read first = _ :=
    read_of_stores type
  have readAll : (stateAt tree body callers draft.nodes.size registers cells).frame.readAll
    sources = _ := fields.readAll _
  have careful : (stateAt tree body callers draft.nodes.size registers cells).Careful := by
    refine fields.careful (getElem?_of_built made) rfl ?_
    intro _ _ same
    cases same
  refine evaluates_produce built length List.mem_cons_self rfl careful ?_ ?_ properCells
  · rw [State.execute, read, ok_bind, Value.constructorNumbered_map]
    cases found.constructorNumbered span tag with
    | error failure => rfl
    | ok pair =>
        rw [ok_bind, ok_bind]
        dsimp only
        rw [readAll, ok_bind, Value.construct_map]
  · intro value made
    rcases bind_eq_ok_iff.mp made with ⟨⟨declaration, constructor⟩, _, constructed⟩
    rcases Value.of_construct constructed with ⟨rfl, _⟩
    exact proper_data fun field member => fields.proper member

theorem evaluates_finish {term : Term} {operands : List Term} {sources : List Register}
    {values : List (Value Lambda)} (applies : AppliesAlike tree least call)
    (combines : Combines term operands draft.next sources node)
    (length : registers.length = body.block.frameSize) (properCells : ProperCells tree cells)
    (stores : StoresAll tree registers sources values)
    (built : (draft.produce node).nodes.toList <+: body.block.nodes) :
    Evaluates (least + 1) (term.finish call (callers.length + 1) values) cells
      (Delivers tree body callers draft.nextRegister registers (draft.produce node) draft.next)
      (stateAt tree body callers draft.nodes.size registers cells) := by
  have made := built
  rw [nodes_produce] at made
  have plain (nothing : node.handsOver = []) :
      (stateAt tree body callers draft.nodes.size registers cells).Careful :=
    State.careful_of_handsOver_eq_nil (node?_of_built made) nothing
  cases combines with
  | app =>
      rcases stores with _ | ⟨callee, _ | ⟨value, _ | _⟩⟩
      exact evaluates_call applies length properCells callee.1 callee.2 value.1 value.2 built
  | @dataType span declaration =>
      cases stores
      have finished : (Term.dataType span declaration).finish call (callers.length + 1) [] =
        Tracing.quiet (.of (.ok (.dataType declaration))) := rfl
      rw [finished]
      refine evaluates_produce built length List.mem_cons_self rfl (plain rfl) ?_ ?_ properCells
      · rw [State.execute]
        have shown : (Value.dataType declaration).map (codeOf tree) = _ :=
          Value.map_dataType _ _
        rw [Except.map, ok_bind, shown]
      · intro value same
        cases same
        exact proper_dataType declaration
  | @data span type tag fields _ first sources =>
      rcases stores with _ | ⟨source, others⟩
      rename_i found values
      have finished : (Term.data span type tag fields).finish call (callers.length + 1)
          (found :: values) =
            Tracing.quiet (.of (found.constructorNumbered span tag >>=
              fun named => Value.construct span named.1 named.2 tag values)) := by
        rw [Evaluation.of_bind, Tracing.quiet_bind]
        rfl
      rw [finished]
      exact evaluates_data length properCells source.1 others built
  | member =>
      rcases stores with _ | ⟨source, _ | _⟩
      have read : (stateAt tree body callers draft.nodes.size registers cells).frame.read _ = _ :=
        read_of_stores source.1
      refine evaluates_produce built length List.mem_cons_self rfl (plain rfl) ?_ ?_ properCells
      · rw [State.execute, State.perform, read, ok_bind, Value.member_map]
      · intro value accessed
        exact source.2.member accessed
  | @literal span literal =>
      cases stores
      have finished : (Term.literal span literal).finish call (callers.length + 1) [] =
        Tracing.quiet (.of (.ok (.ofLiteral literal))) := rfl
      rw [finished]
      refine evaluates_produce built length List.mem_cons_self rfl (plain rfl) ?_ ?_ properCells
      · rw [State.execute, State.perform]
        have shown : (Value.ofLiteral literal).map (codeOf tree) = _ := Value.map_ofLiteral _ _
        rw [Except.map, ok_bind, shown]
      · intro value same
        cases same
        exact proper_of_isLiteral (Value.isLiteral_ofLiteral literal)
  | binary =>
      rcases stores with _ | ⟨left, _ | ⟨right, _ | _⟩⟩
      have readLeft : (stateAt tree body callers draft.nodes.size registers cells).frame.read _ =
        _ := read_of_stores left.1
      have readRight : (stateAt tree body callers draft.nodes.size registers cells).frame.read _ =
        _ := read_of_stores right.1
      refine evaluates_produce built length List.mem_cons_self rfl (plain rfl) ?_ ?_ properCells
      · rw [State.execute, State.perform, readLeft, ok_bind, readRight, ok_bind,
          Operator.apply_map, Program.blameFault_map]
      · intro value applied
        exact proper_of_isLiteral
          (Operator.isLiteral_of_apply (blameFault_eq_ok_iff.mp applied))

end Nodes

end Block
end StrictLambda
