import StrictLambda.Proofs.Builder.Control

/-!
# Blocks do what terms mean

By induction on the rules of construction, the nodes that are built for a term compute its value in
a frame that holds the environment.  The induction goes through one block; the blocks of functions
come in by what is assumed about calls, which is proved by induction on how deeply calls are nested.
-/

namespace StrictLambda
namespace Block

open Draft

/-!
## What is proved of a construction
-/

def DeliversAll (tree : Block) (body : Body) (callers : List Caller) (bound : Nat)
    (before : List (Option (Value Body))) (after : Draft) (results : List Register)
    (values : List (Value Lambda)) (cells : Cells Lambda) (last : State) : Prop :=
  exists registers, last = stateAt tree body callers after.nodes.size registers cells ∧
    Keeps bound before registers ∧ StoresAll tree registers results values ∧
      ProperCells tree cells

def Binds (tree : Block) (body : Body) (callers : List Caller) (bound : Nat)
    (before : List (Option (Value Body))) (after : Draft) (environment : Environment)
    (binding : Binding) (value : Value Lambda) (cells : Cells Lambda) (last : State) : Prop :=
  exists registers, last = stateAt tree body callers after.nodes.size registers cells ∧
    Keeps bound before registers ∧
      Ready tree body after ((binding.id, value) :: environment) registers cells

def Site.ofFunction : Site -> Bool
  | .topLevel => false
  | .functionBody => true

/-- From the end of the first draft on the block does what is constructed, evaluated at the depth
that goes with the number of callers. -/
def Performed (tree : Block) (least : Nat) (call : TracedCalls) (body : Body)
    (callers : List Caller) (environment : Environment) (registers : List (Option (Value Body)))
    (cells : Cells Lambda) (draft after : Draft) : Construction -> Prop
  | .value term register =>
      Evaluates least
        (term.trace call callers.length false (nextNumber body draft) environment) cells
        (Delivers tree body callers draft.nextRegister registers after register)
        (stateAt tree body callers draft.nodes.size registers cells)
  | .values terms results =>
      Evaluates least
        (Term.traceList call callers.length (nextNumber body draft) environment terms) cells
        (DeliversAll tree body callers draft.nextRegister registers after results)
        (stateAt tree body callers draft.nodes.size registers cells)
  | .bind _ binding definition =>
      Evaluates least
        (Term.traceDefinition environment binding definition fun inside =>
          definition.trace call callers.length false (nextNumber body draft) inside) cells
        (Binds tree body callers draft.nextRegister registers after environment binding)
        (stateAt tree body callers draft.nodes.size registers cells)
  | .tail site term =>
      Awaited callers site ->
        Evaluates least
          (term.trace call callers.length site.ofFunction (nextNumber body draft) environment)
          cells (Leaves tree callers site)
          (stateAt tree body callers draft.nodes.size registers cells)

def Simulated (tree : Block) (least : Nat) (call : TracedCalls) (body : Body)
    (callers : List Caller) (construction : Construction) (draft after : Draft) : Prop :=
  after.nodes.toList <+: body.block.nodes ->
    forall environment registers cells,
      Ready tree body draft environment registers cells ->
        construction.FitsScope environment.scope ->
          Performed tree least call body callers environment registers cells draft after
            construction

section Simulation

variable {tree : Block} {body : Body} {callers : List Caller} {draft middle after : Draft}
  {environment : Environment} {registers registersAfter : List (Option (Value Body))}
  {cells cellsAfter : Cells Lambda} {least : Nat} {call : TracedCalls} {span : Span}
  {value : Value Lambda} {register : Register} {construction : Construction}

/-!
## Between constructions
-/

theorem Draft.Grows.prefixes {nodes : List Node} (grows : draft.Grows after)
    (built : after.nodes.toList <+: nodes) : draft.nodes.toList <+: nodes :=
  grows.nodes.trans built

theorem nextNumber_of_builds (builds : Builds construction draft after) :
    nextNumber body after = nextNumber body draft + construction.abstractions := by
  unfold nextNumber
  rw [nestedCount_of_builds builds, Nat.add_assoc _ _ construction.abstractions]

@[simp] theorem nextNumber_forkValue (draft : Draft) (test : Register) (span : Span) :
    nextNumber body (draft.forkValue test span) = nextNumber body draft := by
  simp [nextNumber, Node.blockCount]

@[simp] theorem nextNumber_switchValue (draft tested : Draft) (source : Register)
    (copySpan span : Span) :
    nextNumber body (draft.switchValue tested source copySpan span) = nextNumber body draft := by
  simp [nextNumber, Node.blockCount]

@[simp] theorem nextNumber_forkTail (draft : Draft) (test : Register) (span : Span) :
    nextNumber body (draft.forkTail test span) = nextNumber body draft := by
  simp [nextNumber, Node.blockCount]

@[simp] theorem nextNumber_switchTail (draft tested : Draft) (span : Span) :
    nextNumber body (draft.switchTail tested span) = nextNumber body draft := by
  simp [nextNumber, Node.blockCount]

theorem Ready.after_builds (ready : Ready tree body draft environment registers cells)
    (builds : Builds construction draft after) (fits : construction.FitsScope environment.scope)
    (keeps : Keeps draft.nextRegister registers registersAfter)
    (properCells : ProperCells tree cellsAfter) :
    Ready tree body after environment registersAfter cellsAfter where
  mirrors := ready.mirrors.grow (grows_of_builds builds).registers keeps
    fun _ inside => lookup_of_builds builds fits inside
  cells := properCells
  length := keeps.length.trans ready.length

theorem Ready.of_locals_eq (ready : Ready tree body draft environment registers cells)
    (le : draft.nextRegister <= after.nextRegister) (same : after.locals = draft.locals) :
    Ready tree body after environment registers cells where
  mirrors := ready.mirrors.grow le (.refl _ _) fun _ _ => by rw [same]
  cells := ready.cells
  length := ready.length

/-!
## Values
-/

theorem simulated_none : Simulated tree least call body callers (.values [] []) draft draft := by
  intro built environment registers cells ready fits
  exact Evaluates.pure ⟨registers, rfl, .refl _ _, .nil, ready.cells⟩

theorem simulated_more {term : Term} {rest : List Term} {results : List Register}
    (first : Builds (.value term register) draft middle)
    (others : Builds (.values rest results) middle after)
    (simulatedFirst : Simulated tree least call body callers (.value term register) draft middle)
    (simulatedOthers : Simulated tree least call body callers (.values rest results) middle
      after) :
    Simulated tree least call body callers (.values (term :: rest) (register :: results)) draft
      after := by
  intro built environment registers cells ready fits
  have fitsFirst : term.FitsScope environment.scope := fits term List.mem_cons_self
  have fitsOthers : (Construction.values rest results).FitsScope environment.scope :=
    fun other member => fits other (List.mem_cons_of_mem _ member)
  rw [Performed, Term.traceList]
  refine (simulatedFirst ((grows_of_builds others).prefixes built) environment registers cells
    ready fitsFirst).bind ?_
  intro value cellsFirst last delivered
  rcases delivered with ⟨registersFirst, rfl, keeps, stores, proper, properCells⟩
  have readyOthers := ready.after_builds first fitsFirst keeps properCells
  have number : nextNumber body draft + term.abstractions = nextNumber body middle :=
    (nextNumber_of_builds first).symm
  rw [number]
  refine (simulatedOthers built environment registersFirst cellsFirst readyOthers
    fitsOthers).bind ?_
  intro values cellsOthers last delivered
  rcases delivered with ⟨registersOthers, rfl, keepsMore, storesAll, properOthers⟩
  have kept := stores.keep (result_lt_of_builds first List.mem_cons_self) keepsMore
  exact Evaluates.pure ⟨registersOthers, rfl,
    keeps.trans (grows_of_builds first).registers keepsMore, .cons ⟨kept, proper⟩ storesAll,
    properOthers⟩

theorem simulated_combine {term : Term} {operands : List Term} {sources : List Register}
    {node : Node} (applies : AppliesAlike tree least call)
    (combines : Combines term operands after.next sources node)
    (builds : Builds (.values operands sources) draft after)
    (simulated : Simulated tree (least + 1) call body callers (.values operands sources) draft
      after) :
    Simulated tree (least + 1) call body callers (.value term after.next) draft
      (after.produce node) := by
  intro built environment registers cells ready fits
  have fitsAll : (Construction.values operands sources).FitsScope environment.scope :=
    fitsScope_of_combines combines fits
  rw [Performed, trace_of_combines combines]
  refine (simulated ((grows_produce after node).prefixes built) environment registers cells ready
    fitsAll).bind ?_
  intro values cellsAfter last delivered
  rcases delivered with ⟨registersAfter, rfl, keeps, stores, properCells⟩
  have length := keeps.length.trans ready.length
  apply (evaluates_finish applies combines length properCells stores built).mono
  intro value cellsLast last delivers
  exact delivers.of_keeps keeps (grows_of_builds builds).registers

/-!
## Bindings
-/

theorem simulated_bindPlain {binding : Binding} {definition : Term}
    (plain : definition.mentions binding = false)
    (builds : Builds (.value definition register) draft after)
    (simulated : Simulated tree least call body callers (.value definition register) draft
      after) :
    Simulated tree least call body callers (.bind span binding definition) draft
      (after.define binding ⟨register, false⟩) := by
  intro built environment registers cells ready fits
  have fitsDefinition : definition.FitsScope environment.scope := fits.2.of_not_mentions plain
  rw [Performed, Term.traceDefinition, if_neg (by rw [plain]; decide)]
  apply (simulated built environment registers cells ready fitsDefinition).mono
  intro value cellsAfter last delivered
  rcases delivered with ⟨registersAfter, rfl, keeps, stores, proper, properCells⟩
  have readyAfter := ready.after_builds builds fitsDefinition keeps properCells
  have below := result_lt_of_builds builds List.mem_cons_self
  have mirrors : Mirrors tree ((binding.id, value) :: environment)
      (after.locals.define binding ⟨register, value.isCell⟩) after.nextRegister registersAfter :=
    readyAfter.mirrors.cons below stores proper.faithful
  rw [proper.ordinary] at mirrors
  exact ⟨registersAfter, rfl, keeps, mirrors, properCells, readyAfter.length⟩

theorem simulated_bindRecursive {binding : Binding} {definition : Term}
    (recursive : definition.mentions binding = true)
    (builds : Builds (.value definition register)
      ((draft.produce (.operation (.beginFixpoint draft.next) span)).define binding
        ⟨draft.next, true⟩) after)
    (simulated : Simulated tree least call body callers (.value definition register)
      ((draft.produce (.operation (.beginFixpoint draft.next) span)).define binding
        ⟨draft.next, true⟩) after) :
    Simulated tree least call body callers (.bind span binding definition) draft
      ((after.emit (.operation (.endFixpoint draft.next register) definition.span)).define binding
        ⟨register, false⟩) := by
  intro built environment registers cells ready fits
  have builtTie : after.nodes.toList ++
      [.operation (.endFixpoint draft.next register) definition.span] <+: body.block.nodes := by
    rw [← nodes_emit]
    exact built
  have builtAfter := (List.prefix_append _ _).trans builtTie
  have builtBegin : draft.nodes.toList ++ [.operation (.beginFixpoint draft.next) span] <+:
      body.block.nodes := by
    rw [← nodes_produce]
    exact (grows_of_builds builds).prefixes builtAfter
  rw [Performed, Term.traceDefinition, if_pos recursive]
  apply (evaluates_allocate ready.length ready.cells builtBegin).bind
  intro cell cellsBegin _ allocated
  rcases allocated with ⟨registersBegin, rfl, keepsBegin, storesCell, properBegin⟩
  have mirrorsBegin : Mirrors tree environment draft.locals (draft.nextRegister + 1)
      registersBegin :=
    ready.mirrors.grow (Nat.le_succ _) keepsBegin fun _ _ => rfl
  have readyInside : Ready tree body
      ((draft.produce (.operation (.beginFixpoint draft.next) span)).define binding
        ⟨draft.next, true⟩) ((binding.id, .fixpoint cell) :: environment) registersBegin
      cellsBegin :=
    ⟨mirrorsBegin.cons (Nat.lt_succ_self _) storesCell (.of_no_parts trivial rfl), properBegin,
      keepsBegin.length.trans ready.length⟩
  have number : nextNumber body draft = nextNumber body
      ((draft.produce (.operation (.beginFixpoint draft.next) span)).define binding
        ⟨draft.next, true⟩) := by
    simp [nextNumber, Node.blockCount]
  have position : draft.nodes.size + 1 =
      (draft.produce (.operation (.beginFixpoint draft.next) span)).nodes.size :=
    (size_produce _ _).symm
  rw [number, position]
  apply (simulated builtAfter _ registersBegin cellsBegin readyInside fits.2).bind
  intro value cellsValue _ delivered
  rcases delivered with ⟨registersValue, rfl, keepsValue, stores, proper, properValue⟩
  have storesCellAfter := storesCell.keep (Nat.lt_succ_self _) keepsValue
  apply (evaluates_tie storesCellAfter stores proper properValue builtTie).bind
  intro _ cellsTied _ tied
  rcases tied with ⟨rfl, properTied⟩
  have keeps := keepsBegin.trans (Nat.le_succ _) keepsValue
  -- The binding stood for the cell inside; what it stands for now goes on top of the environment.
  have mirrorsAfter : Mirrors tree environment after.locals after.nextRegister registersValue := by
    refine ready.mirrors.grow ?_ keeps ?_
    · exact Nat.le_trans (Nat.le_succ _) (grows_of_builds builds).registers
    · intro id inside
      rw [lookup_of_builds builds fits.2 (List.mem_cons_of_mem _ inside)]
      exact lookup_define _ _ (ne_of_mem_of_not_mem inside fits.1)
  have below := result_lt_of_builds builds List.mem_cons_self
  have mirrors : Mirrors tree ((binding.id, value) :: environment)
      (after.locals.define binding ⟨register, value.isCell⟩) after.nextRegister registersValue :=
    mirrorsAfter.cons below stores proper.faithful
  rw [proper.ordinary] at mirrors
  refine Evaluates.pure ⟨registersValue, ?_, keeps, mirrors, properTied,
    keeps.length.trans ready.length⟩
  rw [nodes_define, size_emit]

theorem evaluates_letIn {binding : Binding} {definition inner : Term} {tail : Bool}
    {Shows : Value Lambda -> Cells Lambda -> State -> Prop}
    (bound : Builds (.bind span binding definition) draft middle)
    (simulated : Simulated tree least call body callers (.bind span binding definition) draft
      middle)
    (built : middle.nodes.toList <+: body.block.nodes)
    (ready : Ready tree body draft environment registers cells)
    (fits : (Construction.bind span binding definition).FitsScope environment.scope)
    (continues : forall value registersMiddle cellsMiddle,
      Keeps draft.nextRegister registers registersMiddle ->
        Ready tree body middle ((binding.id, value) :: environment) registersMiddle cellsMiddle ->
          Evaluates least
            (inner.trace call callers.length tail (nextNumber body middle)
              ((binding.id, value) :: environment)) cellsMiddle Shows
            (stateAt tree body callers middle.nodes.size registersMiddle cellsMiddle)) :
    Evaluates least
      ((Term.letIn span binding definition inner).trace call callers.length tail
        (nextNumber body draft) environment) cells Shows
      (stateAt tree body callers draft.nodes.size registers cells) := by
  have number : nextNumber body draft + definition.abstractions = nextNumber body middle :=
    (nextNumber_of_builds bound).symm
  rw [Term.trace, number]
  apply (simulated built environment registers cells ready fits).bind
  intro value cellsMiddle _ bound
  rcases bound with ⟨registersMiddle, rfl, keeps, readyMiddle⟩
  exact continues value registersMiddle cellsMiddle keeps readyMiddle

theorem simulated_letIn {binding : Binding} {definition inner : Term}
    (bound : Builds (.bind span binding definition) draft middle)
    (builds : Builds (.value inner register) middle after)
    (simulatedBound : Simulated tree least call body callers (.bind span binding definition) draft
      middle)
    (simulated : Simulated tree least call body callers (.value inner register) middle after) :
    Simulated tree least call body callers (.value (.letIn span binding definition inner) register)
      draft after := by
  intro built environment registers cells ready fits
  rcases Term.FitsScope.letIn fits with ⟨fresh, fitsDefinition, fitsInner⟩
  refine evaluates_letIn bound simulatedBound ((grows_of_builds builds).prefixes built) ready
    ⟨fresh, fitsDefinition⟩ ?_
  intro value registersMiddle cellsMiddle keeps readyMiddle
  apply (simulated built _ registersMiddle cellsMiddle readyMiddle fitsInner).mono
  intro result cellsAfter last delivers
  exact delivers.of_keeps keeps (grows_of_builds bound).registers

theorem simulated_tailLetIn {site : Site} {binding : Binding} {definition inner : Term}
    (bound : Builds (.bind span binding definition) draft middle)
    (builds : Builds (.tail site inner) middle after)
    (simulatedBound : Simulated tree least call body callers (.bind span binding definition) draft
      middle)
    (simulated : Simulated tree least call body callers (.tail site inner) middle after) :
    Simulated tree least call body callers (.tail site (.letIn span binding definition inner))
      draft after := by
  intro built environment registers cells ready fits awaited
  rcases Term.FitsScope.letIn fits with ⟨fresh, fitsDefinition, fitsInner⟩
  refine evaluates_letIn bound simulatedBound ((grows_of_builds builds).prefixes built) ready
    ⟨fresh, fitsDefinition⟩ ?_
  intro value registersMiddle cellsMiddle keeps readyMiddle
  exact simulated built _ registersMiddle cellsMiddle readyMiddle fitsInner awaited

/-!
## Conditionals
-/

theorem evaluates_cond {tested : Draft} {condition consequent alternative : Term}
    {test : Register} {goal : Nat} {labelSpan : Span} {tail : Bool}
    {Shows : Value Lambda -> Cells Lambda -> State -> Prop} (sited : Sited tree body)
    (tests : Builds (.value condition test) draft tested)
    (simulated : Simulated tree least call body callers (.value condition test) draft tested)
    (ready : Ready tree body draft environment registers cells)
    (fits : condition.FitsScope environment.scope)
    (built : tested.nodes.toList ++ [.jumpUnless test tested.label span] <+: body.block.nodes)
    (stands : body.block.nodes[goal]? = some (.label tested.label labelSpan))
    (holds : forall registersTested cellsTested,
      Keeps draft.nextRegister registers registersTested ->
        Ready tree body tested environment registersTested cellsTested ->
          Evaluates least
            (consequent.trace call callers.length tail (nextNumber body tested) environment)
            cellsTested Shows
            (stateAt tree body callers (tested.nodes.size + 1) registersTested cellsTested))
    (fails : forall registersTested cellsTested,
      Keeps draft.nextRegister registers registersTested ->
        Ready tree body tested environment registersTested cellsTested ->
          Evaluates least
            (alternative.trace call callers.length tail
              (nextNumber body tested + consequent.abstractions) environment) cellsTested Shows
            (stateAt tree body callers (goal + 1) registersTested cellsTested)) :
    Evaluates least
      ((Term.cond span condition consequent alternative).trace call callers.length tail
        (nextNumber body draft) environment) cells Shows
      (stateAt tree body callers draft.nodes.size registers cells) := by
  -- Between the test and the branches the environment stays where it is.
  have number : nextNumber body draft + condition.abstractions = nextNumber body tested :=
    (nextNumber_of_builds tests).symm
  have builtTest := (List.prefix_append _ _).trans built
  rw [Term.trace, number]
  apply (simulated builtTest environment registers cells ready fits).bind
  intro found cellsTested _ delivered
  rcases delivered with ⟨registersTested, rfl, keeps, stores, _, properTested⟩
  have readyTested := ready.after_builds tests fits keeps properTested
  refine (evaluates_test sited stores (getElem?_of_built built) stands).bind ?_
  intro outcome _ _ tested
  rcases tested with ⟨rfl, rfl⟩
  cases outcome with
  | true => exact holds registersTested _ keeps readyTested
  | false => exact fails registersTested _ keeps readyTested

theorem passes_join {dest source : Register} {bound : Nat} {before : List (Option (Value Body))}
    {copySpan : Span} {last : State}
    (delivers : Delivers tree body callers bound before draft source value cells last)
    (length : before.length = body.block.frameSize) (above : bound <= dest.index)
    (built : draft.nodes.toList ++ [.operation (.copy dest source) copySpan] <+:
      body.block.nodes) :
    exists registersJoined, Passes 1 last
        (stateAt tree body callers (draft.nodes.size + 1) registersJoined cells) ∧
      Keeps bound before registersJoined ∧ Stores tree registersJoined dest value := by
  rcases delivers with ⟨registersLast, rfl, keeps, stores, _, _⟩
  have lengthLast := keeps.length.trans length
  have inside : dest.index < registersLast.length :=
    lt_length_of_built built lengthLast List.mem_cons_self
  exact ⟨_, passes_copy lengthLast stores built,
    keeps.trans (Nat.le_refl _) (keeps_set above _), stores_set inside⟩

section Branches

variable {tested first second : Draft} {condition consequent alternative : Term}
  {test left right : Register}

theorem simulated_cond (sited : Sited tree body)
    (tests : Builds (.value condition test) draft tested)
    (holds : Builds (.value consequent left) (tested.forkValue test span) first)
    (fails : Builds (.value alternative right)
      (first.switchValue tested left consequent.span span) second)
    (simulatedTests : Simulated tree least call body callers (.value condition test) draft tested)
    (simulatedHolds : Simulated tree least call body callers (.value consequent left)
      (tested.forkValue test span) first)
    (simulatedFails : Simulated tree least call body callers (.value alternative right)
      (first.switchValue tested left consequent.span span) second) :
    Simulated tree least call body callers
      (.value (.cond span condition consequent alternative) tested.next) draft
      (second.joinValue tested right alternative.span span) := by
  intro built environment registers cells ready fits
  rcases Term.FitsScope.cond fits with ⟨fitsCondition, fitsConsequent, fitsAlternative⟩
  have builtCopyRight := (grows_emit (second.emit (.operation (.copy tested.next right)
    alternative.span)) (.label tested.secondLabel span)).prefixes built
  have builtSecond := (grows_emit second (.operation (.copy tested.next right)
    alternative.span)).prefixes builtCopyRight
  have builtSwitch := (grows_of_builds fails).prefixes builtSecond
  have builtJump := (grows_emit _ _).prefixes builtSwitch
  have builtCopyLeft := (grows_emit _ _).prefixes builtJump
  have builtFirst := (grows_emit first _).prefixes builtCopyLeft
  have builtFork := (grows_of_builds holds).prefixes builtFirst
  rw [joinValue, nodes_emit] at built
  rw [nodes_forkValue] at builtFork
  rw [switchValue, nodes_emit] at builtSwitch
  rw [nodes_emit] at builtJump builtCopyLeft builtCopyRight
  have early := (grows_of_builds tests).registers
  have between := (grows_of_builds holds).registers
  refine evaluates_cond sited tests simulatedTests ready fitsCondition builtFork
    (getElem?_of_built builtSwitch) ?_ ?_
  · intro registersTested cellsTested keeps readyTested
    have readyFork : Ready tree body (tested.forkValue test span) environment registersTested
      cellsTested := readyTested.of_locals_eq (Nat.le_succ _) rfl
    rw [← nextNumber_forkValue tested test span, ← size_forkValue tested test span]
    apply (simulatedHolds builtFirst environment _ _ readyFork fitsConsequent).followed
    intro value cellsAfter last delivers
    have deliversAll := delivers.of_keeps keeps (Nat.le_trans early (Nat.le_succ _))
    rcases passes_join deliversAll ready.length early builtCopyLeft with
      ⟨registersJoined, passes, keepsJoined, stores⟩
    rcases delivers with ⟨_, _, _, _, proper, properCells⟩
    have jump := getElem?_of_built builtJump
    rw [size_emit] at jump
    refine ⟨_, _, passes.trans (passes_jump sited jump (getElem?_of_built built)),
      registersJoined, ?_, keepsJoined, stores, proper, properCells⟩
    rw [joinValue, size_emit _ (.label _ _)]
  · intro registersTested cellsTested keeps readyTested
    have readyFork : Ready tree body (tested.forkValue test span) environment registersTested
      cellsTested := readyTested.of_locals_eq (Nat.le_succ _) rfl
    have readyFirst := readyFork.after_builds holds fitsConsequent (.refl _ _) readyFork.cells
    have readySwitch : Ready tree body (first.switchValue tested left consequent.span span)
      environment registersTested cellsTested := readyFirst.of_locals_eq (Nat.le_refl _) rfl
    have number : nextNumber body tested + consequent.abstractions =
        nextNumber body (first.switchValue tested left consequent.span span) := by
      rw [nextNumber_switchValue, nextNumber_of_builds holds, nextNumber_forkValue]
      rfl
    rw [number, ← size_emit]
    apply (simulatedFails builtSecond environment _ _ readySwitch fitsAlternative).followed
    intro value cellsAfter last delivers
    have deliversAll := delivers.of_keeps keeps
      (Nat.le_trans early (Nat.le_trans (Nat.le_succ _) between))
    rcases passes_join deliversAll ready.length early builtCopyRight with
      ⟨registersJoined, passes, keepsJoined, stores⟩
    rcases delivers with ⟨_, _, _, _, proper, properCells⟩
    have label := getElem?_of_built built
    rw [size_emit] at label
    refine ⟨_, _, passes.trans (passes_label label), registersJoined, ?_, keepsJoined, stores,
      proper, properCells⟩
    rw [joinValue, size_emit _ (.label _ _), size_emit]

theorem simulated_tailCond {site : Site} (sited : Sited tree body)
    (tests : Builds (.value condition test) draft tested)
    (holds : Builds (.tail site consequent) (tested.forkTail test span) first)
    (fails : Builds (.tail site alternative) (first.switchTail tested span) second)
    (simulatedTests : Simulated tree least call body callers (.value condition test) draft tested)
    (simulatedHolds : Simulated tree least call body callers (.tail site consequent)
      (tested.forkTail test span) first)
    (simulatedFails : Simulated tree least call body callers (.tail site alternative)
      (first.switchTail tested span) second) :
    Simulated tree least call body callers
      (.tail site (.cond span condition consequent alternative)) draft second := by
  intro built environment registers cells ready fits awaited
  rcases Term.FitsScope.cond fits with ⟨fitsCondition, fitsConsequent, fitsAlternative⟩
  have builtSwitch := (grows_of_builds fails).prefixes built
  have builtFirst := (grows_switchTail first tested span).prefixes builtSwitch
  have builtFork := (grows_of_builds holds).prefixes builtFirst
  rw [nodes_forkTail] at builtFork
  rw [nodes_switchTail] at builtSwitch
  refine evaluates_cond sited tests simulatedTests ready fitsCondition builtFork
    (getElem?_of_built builtSwitch) ?_ ?_
  · intro registersTested cellsTested keeps readyTested
    have readyFork : Ready tree body (tested.forkTail test span) environment registersTested
      cellsTested := readyTested.of_locals_eq (Nat.le_refl _) rfl
    rw [← nextNumber_forkTail tested test span, ← size_forkTail tested test span]
    exact simulatedHolds builtFirst environment _ _ readyFork fitsConsequent awaited
  · intro registersTested cellsTested keeps readyTested
    have readyFork : Ready tree body (tested.forkTail test span) environment registersTested
      cellsTested := readyTested.of_locals_eq (Nat.le_refl _) rfl
    have readyFirst := readyFork.after_builds holds fitsConsequent (.refl _ _) readyFork.cells
    have readySwitch : Ready tree body (first.switchTail tested span) environment registersTested
      cellsTested := readyFirst.of_locals_eq (Nat.le_refl _) rfl
    have number : nextNumber body tested + consequent.abstractions =
        nextNumber body (first.switchTail tested span) := by
      rw [nextNumber_switchTail, nextNumber_of_builds holds, nextNumber_forkTail]
      rfl
    have position : first.nodes.size + 1 = (first.switchTail tested span).nodes.size :=
      (size_emit _ _).symm
    rw [number, position]
    exact simulatedFails built environment _ _ readySwitch fitsAlternative awaited

end Branches

/-!
## Ways out
-/

theorem trace_of_needsValue {site : Site} {term : Term} (needed : site.needsValue term = true)
    (call : TracedCalls) (depth number : Nat) (environment : Environment) :
    term.trace call depth site.ofFunction number environment =
      term.trace call depth false number environment := by
  -- Where the value is needed first, it is not in tail position.
  cases site with
  | topLevel => rfl
  | functionBody =>
      cases term with
      | app | letIn | group | cond => cases needed
      | var | abs | dataType | data | member | literal | binary => simp only [Term.trace]

theorem simulated_leave {site : Site} {term : Term} (needed : site.needsValue term = true)
    (simulated : Simulated tree least call body callers (.value term register) draft after) :
    Simulated tree least call body callers (.tail site term) draft
      (after.emit (.operation (site.leave register) term.span)) := by
  intro built environment registers cells ready fits awaited
  have builtAfter := (grows_emit after _).prefixes built
  rw [nodes_emit] at built
  rw [trace_of_needsValue needed,
    ← bind_pure (term.trace call callers.length false (nextNumber body draft) environment)]
  apply (simulated builtAfter environment registers cells ready fits).bind
  intro value cellsAfter _ delivered
  rcases delivered with ⟨registersAfter, rfl, _, stores, proper, properCells⟩
  exact evaluates_leave awaited stores proper properCells built

theorem simulated_tailCall {function argument : Term} {callee source : Register}
    (applies : AppliesAlike tree least call)
    (simulated : Simulated tree (least + 1) call body callers
      (.values [function, argument] [callee, source]) draft after) :
    Simulated tree (least + 1) call body callers
      (.tail .functionBody (.app span function argument)) draft
      (after.emit (.operation (.tailCall callee source) span)) := by
  intro built environment registers cells ready fits awaited
  have combines : Combines (.app span function argument) [function, argument] after.next
      [callee, source] (.operation (.call after.next callee source) span) := .app
  have fitsAll : (Construction.values [function, argument] [callee, source]).FitsScope
    environment.scope := fitsScope_of_combines combines fits
  have builtAfter := (grows_emit after _).prefixes built
  rw [nodes_emit] at built
  rw [trace_of_combines combines]
  apply (simulated builtAfter environment registers cells ready fitsAll).bind
  intro values cellsAfter _ delivered
  rcases delivered with ⟨registersAfter, rfl, _, stores, properCells⟩
  rcases stores with _ | ⟨first, _ | ⟨second, _ | _⟩⟩
  exact evaluates_tailCall applies awaited properCells first.1 first.2 second.1 second.2 built

/-!
## All constructions
-/

theorem simulated_of_builds (sited : Sited tree body) (applies : AppliesAlike tree least call)
    (builds : Builds construction draft after) :
    Simulated tree (least + 1) call body callers construction draft after := by
  induction builds with
  | none => exact simulated_none
  | more first others ihFirst ihOthers => exact simulated_more first others ihFirst ihOthers
  | var found =>
      intro built environment registers cells ready fits
      rw [Performed, Term.trace]
      exact evaluates_var ready found (fits.visible _ rfl) built
  | abs free found inner =>
      intro built environment registers cells ready fits
      exact evaluates_abs sited ready fits free found inner built
  | combine combines builds ih => exact simulated_combine applies combines builds ih
  | letIn bound builds ihBound ih => exact simulated_letIn bound builds ihBound ih
  | group _ ih | tailGroup _ ih =>
      intro built environment registers cells ready fits
      rw [Performed, Term.trace]
      exact ih built environment registers cells ready (Term.FitsScope.group fits)
  | cond tests holds fails ihTests ihHolds ihFails =>
      exact simulated_cond sited tests holds fails ihTests ihHolds ihFails
  | bindPlain plain builds ih => exact simulated_bindPlain plain builds ih
  | bindRecursive recursive builds ih => exact simulated_bindRecursive recursive builds ih
  | leave needed _ ih => exact simulated_leave needed ih
  | tailCall _ ih => exact simulated_tailCall applies ih
  | tailLetIn bound builds ihBound ih => exact simulated_tailLetIn bound builds ihBound ih
  | tailCond tests holds fails ihTests ihHolds ihFails =>
      exact simulated_tailCond sited tests holds fails ihTests ihHolds ihFails

end Simulation

end Block
end StrictLambda
