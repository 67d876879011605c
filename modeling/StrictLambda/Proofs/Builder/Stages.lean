import StrictLambda.Proofs.Builder.Correspondence
import StrictLambda.Proofs.Execution.Performance
import StrictLambda.Proofs.Layout.Soundness
import StrictLambda.Proofs.Term.Starts

/-!
# Stages of a block

While the code of a term runs, the frame is at the end of what had been built before the term, and
afterwards at the end of what has been built with it.  This module has the states in between, and
what single nodes do to them.
-/

namespace StrictLambda

/-- The registers whose values leave the frame: they go to another frame or into a cell. -/
def Operation.handsOver : Operation -> List Register
  | .call _ _ argument => [argument]
  | .tailCall _ argument => [argument]
  | .leave source => [source]
  | .exit source => [source]
  | .endFixpoint _ value => [value]
  | _ => []

def Node.handsOver : Node -> List Register
  | .operation action _ => action.handsOver
  | .data _ _ _ fields _ => fields
  | _ => []

namespace Block

open Draft

/-- The node about to be executed does not hand over any cell, and the node that ends the run is
executed by the outermost frame only. -/
structure State.Careful (state : State) : Prop where
  handsOver : forall node, state.frame.node? = some node ->
    forall register, register ∈ node.handsOver ->
      forall value, state.frame.read register = .ok value -> value.isCell = false
  exits : forall source span, state.frame.node? = some (.operation (.exit source) span) ->
    state.callers = []

theorem State.careful_of_handsOver_eq_nil {state : State} {node : Node}
    (found : state.frame.node? = some node) (nothing : node.handsOver = []) : state.Careful where
  handsOver := by
    intro own foundOwn register member
    rw [found] at foundOwn
    cases foundOwn
    rw [nothing] at member
    cases member
  exits := by
    intro source span foundOwn
    rw [found] at foundOwn
    cases foundOwn
    cases nothing

/-!
## Evaluation on the side of the blocks
-/

def entranceOf (start : Start) : Entrance where
  number := start.lambda.number
  callers := start.depth

/-- From the state on, the block interpreter does what the evaluation does with these cells, and
enters the functions that the evaluation starts. -/
def Evaluates {Result : Type} (least : Nat) (evaluation : Tracing Result)
    (cells : Cells Lambda) (Shows : Result -> Cells Lambda -> State -> Prop) (state : State) :
    Prop :=
  process.Performs State.Careful State.entrances least
    ((evaluation cells).starts.map entranceOf) (evaluation cells).ending
    (fun result last => Shows result.1 result.2 last) state

section Evaluates

variable {First Second : Type} {least : Nat} {cells : Cells Lambda} {state next : State}
  {first : Tracing First} {rest : First -> Tracing Second} {node : Node}
  {Shows : First -> Cells Lambda -> State -> Prop}
  {ShowsMore : Second -> Cells Lambda -> State -> Prop}

theorem Evaluates.bind (evaluates : Evaluates least first cells Shows state)
    (continues : forall value cellsAfter last, Shows value cellsAfter last ->
      Evaluates least (rest value) cellsAfter ShowsMore last) :
    Evaluates least (first >>= rest) cells ShowsMore state := by
  unfold Evaluates at evaluates ⊢
  rw [Tracing.bind_apply]
  rcases outcome : first cells with ⟨starts, _ | failure | result⟩
  · rw [outcome] at evaluates
    exact evaluates
  · rw [outcome] at evaluates
    exact evaluates
  · rw [outcome] at evaluates
    rcases evaluates with ⟨count, last, passes, seen⟩
    dsimp only
    rw [List.map_append]
    exact (continues result.1 result.2 last seen).after passes

theorem Evaluates.pure {value : First} (seen : Shows value cells state) :
    Evaluates least (Pure.pure value : Tracing First) cells Shows state :=
  Process.Performs.done seen

theorem Evaluates.mono {ShowsAlso : First -> Cells Lambda -> State -> Prop}
    (evaluates : Evaluates least first cells Shows state)
    (more : forall value cellsAfter last, Shows value cellsAfter last ->
      ShowsAlso value cellsAfter last) : Evaluates least first cells ShowsAlso state :=
  Process.Performs.mono evaluates fun result last seen => more result.1 result.2 last seen

abbrev Passes (count : Nat) (state last : State) : Prop :=
  process.Passes State.Careful State.entrances count [] state last

theorem Evaluates.followed {ShowsAlso : First -> Cells Lambda -> State -> Prop}
    (evaluates : Evaluates least first cells Shows state)
    (more : forall value cellsAfter last, Shows value cellsAfter last ->
      exists count next, Passes count last next ∧ ShowsAlso value cellsAfter next) :
    Evaluates least first cells ShowsAlso state :=
  Process.Performs.followed evaluates fun result last seen => more result.1 result.2 last seen

theorem Evaluates.after {count : Nat} (passes : Passes count state next)
    (evaluates : Evaluates least first cells Shows next) :
    Evaluates least first cells Shows state :=
  Process.Performs.after passes evaluates

theorem passes_single (careful : state.Careful) (found : state.frame.node? = some node)
    (stays : Node.entersFunction node = false) (stepped : state.step = .ok (.next next)) :
    Passes 1 state next :=
  .quiet careful (State.entrances_eq_nil found stays) (process_eq_again_iff.mpr stepped)
    (.refl next)

theorem Evaluates.start {lambda : Lambda} {evaluation : Tracing First} (careful : state.Careful)
    (found : state.frame.node? = some node) (enters : Node.entersFunction node = true)
    (stepped : state.step = .ok (.next next)) (number : next.frame.body.number = lambda.number)
    (evaluates : Evaluates least evaluation cells Shows next) :
    Evaluates (least + 1) (Tracing.start lambda next.callers.length >>= fun _ => evaluation) cells
      Shows state := by
  have moved := Process.Performs.move careful (process_eq_again_iff.mpr stepped) evaluates
  rw [State.entrances_eq found enters, number] at moved
  exact moved

theorem Evaluates.fail {failure : Failure} (careful : state.Careful)
    (stepped : state.step = .error failure) :
    Evaluates least (Tracing.quiet (.of (.error failure)) : Tracing First) cells Shows state :=
  Process.Performs.fail careful (process_eq_halt_error_iff.mpr stepped)

theorem Evaluates.bind_fail {failure : Failure} (careful : state.Careful)
    (stepped : state.step = .error failure) :
    Evaluates least (Tracing.quiet (.of (.error failure)) >>= rest) cells ShowsMore state :=
  Process.Performs.fail careful (process_eq_halt_error_iff.mpr stepped)

theorem Evaluates.bind_ok {value : First}
    (evaluates : Evaluates least (rest value) cells ShowsMore state) :
    Evaluates least (Tracing.quiet (.of (.ok value)) >>= rest) cells ShowsMore state :=
  evaluates

end Evaluates

/-!
## Frames at a stage
-/

structure Sited (tree : Block) (body : Body) : Prop where
  stands : body.StandsIn tree
  once : forall label, occurrences label body.block.nodes <= 1

def stateAt (tree : Block) (body : Body) (callers : List Caller) (position : Nat)
    (registers : List (Option (Value Body))) (cells : Cells Lambda) : State where
  frame := ⟨body, position, registers⟩
  callers := callers
  cells := cells.map (codeOf tree)

/-- The frame holds the environment in the registers that the draft has taken. -/
structure Ready (tree : Block) (body : Body) (draft : Draft) (environment : Environment)
    (registers : List (Option (Value Body))) (cells : Cells Lambda) : Prop where
  mirrors : Mirrors tree environment draft.locals draft.nextRegister registers
  cells : ProperCells tree cells
  length : registers.length = body.block.frameSize

/-- The block has been executed as far as the draft goes, the value is in the register, and the
registers below the bound have not changed. -/
def Delivers (tree : Block) (body : Body) (callers : List Caller) (bound : Nat)
    (before : List (Option (Value Body))) (after : Draft) (register : Register)
    (value : Value Lambda) (cells : Cells Lambda) (last : State) : Prop :=
  exists registers, last = stateAt tree body callers after.nodes.size registers cells ∧
    Keeps bound before registers ∧ Stores tree registers register value ∧ Proper tree value ∧
      ProperCells tree cells

section Stages

variable {tree : Block} {body : Body} {callers : List Caller} {draft after : Draft}
  {environment : Environment} {registers registersAfter : List (Option (Value Body))}
  {cells cellsAfter : Cells Lambda} {node : Node} {value : Value Lambda} {register : Register}

theorem getElem?_of_built {nodes : List Node} (built : draft.nodes.toList ++ [node] <+: nodes) :
    nodes[draft.nodes.size]? = some node := by
  rcases built with ⟨rest, whole⟩
  rw [← whole, List.append_assoc, List.getElem?_append_right (by simp)]
  simp

theorem node?_of_built (built : draft.nodes.toList ++ [node] <+: body.block.nodes) :
    (stateAt tree body callers draft.nodes.size registers cells).frame.node? = some node :=
  getElem?_of_built built

theorem step_of_node? {state : State} (found : state.frame.node? = some node) :
    state.step = state.execute node := by
  unfold State.step
  rw [found]

theorem read_of_stores {position : Nat} (stores : Stores tree registers register value) :
    (stateAt tree body callers position registers cells).frame.read register =
      .ok (value.map (codeOf tree)) :=
  Frame.read_eq_ok_iff.mpr stores

theorem careful_of_stores {position : Nat} (found : body.block.nodes[position]? = some node)
    (hands : node.handsOver = [register]) (stores : Stores tree registers register value)
    (ordinary : value.isCell = false)
    (exits : forall source span, node = .operation (.exit source) span -> callers = []) :
    (stateAt tree body callers position registers cells).Careful where
  handsOver := by
    intro own foundOwn other member content read
    have same : some node = some own := found.symm.trans foundOwn
    cases same
    rw [hands] at member
    rcases List.mem_singleton.mp member with rfl
    rw [read_of_stores stores] at read
    cases read
    rw [Value.isCell_map, ordinary]
  exits := by
    intro source span foundOwn
    have same : some node = some _ := found.symm.trans foundOwn
    cases same
    exact exits source span rfl

theorem store_stateAt {position : Nat} (inside : register.index < registers.length)
    (value : Value Lambda) :
    (stateAt tree body callers position registers cells).store register
        (value.map (codeOf tree)) =
      .ok (.next (stateAt tree body callers (position + 1)
        (registers.set register.index (some (value.map (codeOf tree)))) cells)) :=
  State.store_eq_ok_iff.mpr ⟨_, Frame.write_eq_ok_iff.mpr ⟨inside, rfl⟩, rfl⟩

theorem Delivers.of_keeps {bound larger : Nat} {before middle : List (Option (Value Body))}
    {last : State} (keeps : Keeps bound before middle) (le : bound <= larger)
    (delivers : Delivers tree body callers larger middle after register value cells last) :
    Delivers tree body callers bound before after register value cells last := by
  rcases delivers with ⟨registers, same, keepsMore, rest⟩
  exact ⟨registers, same, keeps.trans le keepsMore, rest⟩

theorem lt_length_of_built (built : draft.nodes.toList ++ [node] <+: body.block.nodes)
    (length : registers.length = body.block.frameSize) (named : register ∈ node.registers) :
    register.index < registers.length := by
  rw [length]
  exact lt_frameSize_of_mem (List.mem_of_getElem? (getElem?_of_built built)) named

theorem evaluates_produce {least : Nat} {outcome : Except Failure (Value Lambda)}
    (built : (draft.produce node).nodes.toList <+: body.block.nodes)
    (length : registers.length = body.block.frameSize) (named : draft.next ∈ node.registers)
    (stays : Node.entersFunction node = false)
    (careful : (stateAt tree body callers draft.nodes.size registers cells).Careful)
    (executed : (stateAt tree body callers draft.nodes.size registers cells).execute node =
      outcome.map (Value.map (codeOf tree)) >>= fun content =>
        (stateAt tree body callers draft.nodes.size registers cells).store draft.next content)
    (proper : forall value, outcome = .ok value -> Proper tree value)
    (properCells : ProperCells tree cells) :
    Evaluates least (Tracing.quiet (.of outcome)) cells
      (Delivers tree body callers draft.nextRegister registers (draft.produce node) draft.next)
      (stateAt tree body callers draft.nodes.size registers cells) := by
  rw [nodes_produce] at built
  have stepped : (stateAt tree body callers draft.nodes.size registers cells).step = _ :=
    step_of_node? (node?_of_built built)
  rw [executed] at stepped
  cases outcome with
  | error failure => exact .fail careful stepped
  | ok value =>
      have inside := lt_length_of_built built length named
      refine .after (passes_single careful (node?_of_built built) stays
        (stepped.trans (store_stateAt inside value))) ?_
      refine Evaluates.pure ⟨_, ?_, keeps_set (Nat.le_refl _) _, stores_set inside,
        proper value rfl, properCells⟩
      rw [size_produce]
      rfl

end Stages

end Block
end StrictLambda
