import StrictLambda.Proofs.Builder.Nodes

/-!
# Control and cells in constructed blocks

Nodes that do not compute a value of a term: those that leave the block, those that allocate and tie
the cell of a recursive binding, and those that lead through the branches of a conditional.
-/

namespace StrictLambda
namespace Block

open Draft

/-- Somebody waits for the result of a function body, in a register that exists.  Nobody waits for
the result of the run. -/
def Awaited (callers : List Caller) : Site -> Prop
  | .topLevel => callers = []
  | .functionBody => exists caller rest, callers = caller :: rest ∧
      caller.dest.index < caller.frame.registers.length

def Leaves (tree : Block) (callers : List Caller) (site : Site) (value : Value Lambda)
    (cells : Cells Lambda) (last : State) : Prop :=
  match site with
  | .topLevel =>
      last.Careful ∧
        process last = .halt (.ok (value.map (codeOf tree), cells.map (codeOf tree))) ∧
          Proper tree value ∧ ProperCells tree cells
  | .functionBody =>
      exists caller rest, callers = caller :: rest ∧ Returns tree caller rest value cells last

section Control

variable {tree : Block} {body : Body} {callers : List Caller} {draft after : Draft}
  {registers : List (Option (Value Body))} {cells : Cells Lambda} {node : Node}
  {least : Nat} {call : TracedCalls} {span : Span} {value : Value Lambda} {register : Register}

/-!
## Leaving
-/

theorem evaluates_leave {site : Site} (awaited : Awaited callers site)
    (stores : Stores tree registers register value) (proper : Proper tree value)
    (properCells : ProperCells tree cells)
    (made : draft.nodes.toList ++ [.operation (site.leave register) span] <+:
      body.block.nodes) :
    Evaluates least (pure value) cells (Leaves tree callers site)
      (stateAt tree body callers draft.nodes.size registers cells) := by
  have read : (stateAt tree body callers draft.nodes.size registers cells).frame.read
    register = _ := read_of_stores stores
  have found : (stateAt tree body callers draft.nodes.size registers cells).frame.node? = _ :=
    node?_of_built made
  cases site with
  | topLevel =>
      have careful : (stateAt tree body callers draft.nodes.size registers cells).Careful :=
        careful_of_stores (getElem?_of_built made) rfl stores proper.ordinary
          fun _ _ _ => awaited
      refine Evaluates.pure ⟨careful, ?_, proper, properCells⟩
      exact process_eq_halt_ok_iff.mpr
        (State.step_eq_done_iff.mpr ⟨rfl, _, found, .exit read⟩)
  | functionBody =>
      have careful : (stateAt tree body callers draft.nodes.size registers cells).Careful :=
        careful_of_stores (getElem?_of_built made) rfl stores proper.ordinary
          fun _ _ same => nomatch same
      rcases awaited with ⟨caller, rest, rfl, inside⟩
      have stepped := State.step_eq_next_iff.mpr
        ⟨_, found, .leave read rfl (Frame.write_eq_ok_iff.mpr ⟨inside, rfl⟩)⟩
      exact .after (passes_single careful found rfl stepped)
        (Evaluates.pure ⟨caller, rest, rfl, rfl, proper, properCells⟩)

theorem evaluates_tailCall {function argument : Register} {callee : Value Lambda}
    (applies : AppliesAlike tree least call) (awaited : Awaited callers .functionBody)
    (properCells : ProperCells tree cells) (first : Stores tree registers function callee)
    (properCallee : Proper tree callee) (second : Stores tree registers argument value)
    (properValue : Proper tree value)
    (made : draft.nodes.toList ++ [.operation (.tailCall function argument) span] <+:
      body.block.nodes) :
    Evaluates (least + 1)
      (do
        let (lambda, captures) <- Tracing.quiet (.of (callee.expectFunction span))
        Tracing.start lambda callers.length
        call callers.length lambda captures value) cells
      (Leaves tree callers .functionBody)
      (stateAt tree body callers draft.nodes.size registers cells) := by
  have careful : (stateAt tree body callers draft.nodes.size registers cells).Careful :=
    careful_of_stores (getElem?_of_built made) rfl second properValue.ordinary
      fun _ _ same => nomatch same
  have stepped : (stateAt tree body callers draft.nodes.size registers cells).step = _ :=
    step_of_node? (node?_of_built made)
  have readCallee : (stateAt tree body callers draft.nodes.size registers cells).frame.read
    function = _ := read_of_stores first
  have readValue : (stateAt tree body callers draft.nodes.size registers cells).frame.read
    argument = _ := read_of_stores second
  rw [State.execute, State.perform, readCallee, ok_bind, Value.expectFunction_map] at stepped
  cases expected : callee.expectFunction span with
  | error failure =>
      rw [expected] at stepped
      exact .bind_fail careful stepped
  | ok pair =>
      rcases pair with ⟨lambda, captures⟩
      rw [expected, Except.map, ok_bind] at stepped
      dsimp only at stepped
      rw [readValue, ok_bind] at stepped
      cases Value.eq_function_of_expectFunction expected
      rcases awaited with ⟨caller, rest, rfl, inside⟩
      refine .bind_ok (.start careful (node?_of_built made) rfl stepped rfl ?_)
      refine (applies lambda captures value cells caller rest properCallee.faithful properValue
        properCells inside).mono ?_
      intro result cellsAfter last returns
      exact ⟨caller, rest, rfl, returns⟩

/-!
## Cells
-/

theorem evaluates_allocate (length : registers.length = body.block.frameSize)
    (properCells : ProperCells tree cells)
    (made : draft.nodes.toList ++ [.operation (.beginFixpoint draft.next) span] <+:
      body.block.nodes) :
    Evaluates least (Tracing.quiet Evaluation.allocate) cells
      (fun cell cellsAfter last => exists registersAfter,
        last = stateAt tree body callers (draft.nodes.size + 1) registersAfter cellsAfter ∧
        Keeps draft.nextRegister registers registersAfter ∧
        Stores tree registersAfter draft.next (.fixpoint cell) ∧ ProperCells tree cellsAfter)
      (stateAt tree body callers draft.nodes.size registers cells) := by
  have careful : (stateAt tree body callers draft.nodes.size registers cells).Careful :=
    State.careful_of_handsOver_eq_nil (node?_of_built made) rfl
  have stepped : (stateAt tree body callers draft.nodes.size registers cells).step = _ :=
    step_of_node? (node?_of_built made)
  have inside : draft.next.index < registers.length :=
    lt_length_of_built made length List.mem_cons_self
  rw [State.execute, State.perform] at stepped
  dsimp only [stateAt] at stepped
  rw [Cells.allocate_map] at stepped
  have stored : (stateAt tree body callers draft.nodes.size registers
      cells.allocate.2).store draft.next _ = _ := store_stateAt inside (.fixpoint cells.allocate.1)
  rw [Value.map_fixpoint] at stored
  refine .after (passes_single careful (node?_of_built made) rfl (stepped.trans stored))
    (Process.Performs.done ⟨_, rfl, ?_, ?_, ?_⟩)
  · exact keeps_set (Nat.le_refl _) _
  · unfold Stores
    rw [Value.map_fixpoint, List.getElem?_set_self inside]
  · exact properCells_allocate properCells

theorem evaluates_tie {cellRegister : Register} {cell : Cell}
    (first : Stores tree registers cellRegister (.fixpoint cell))
    (second : Stores tree registers register value) (proper : Proper tree value)
    (properCells : ProperCells tree cells)
    (made : draft.nodes.toList ++ [.operation (.endFixpoint cellRegister register) span] <+:
      body.block.nodes) :
    Evaluates least (Tracing.quiet (Evaluation.tie span cell value)) cells
      (fun _ cellsAfter last =>
        last = stateAt tree body callers (draft.nodes.size + 1) registers cellsAfter ∧
        ProperCells tree cellsAfter)
      (stateAt tree body callers draft.nodes.size registers cells) := by
  have careful : (stateAt tree body callers draft.nodes.size registers cells).Careful :=
    careful_of_stores (getElem?_of_built made) rfl second proper.ordinary
      fun _ _ same => nomatch same
  have stepped : (stateAt tree body callers draft.nodes.size registers cells).step = _ :=
    step_of_node? (node?_of_built made)
  have readCell : (stateAt tree body callers draft.nodes.size registers cells).frame.read
    cellRegister = _ := read_of_stores first
  have readValue : (stateAt tree body callers draft.nodes.size registers cells).frame.read
    register = _ := read_of_stores second
  rw [State.execute, State.perform, readCell, ok_bind, Value.map_fixpoint, Value.expectCell,
    ok_bind, readValue, ok_bind] at stepped
  dsimp only [stateAt] at stepped
  rw [Cells.tie_map, Program.blameDefect_map] at stepped
  unfold Evaluates Tracing.quiet Evaluation.tie
  cases tied : blameDefect span (cells.tie cell value) with
  | error failure =>
      rw [tied] at stepped
      exact Process.Performs.fail careful (process_eq_halt_error_iff.mpr stepped)
  | ok cellsAfter =>
      rw [tied] at stepped
      refine Process.Performs.after (passes_single careful (node?_of_built made) rfl stepped)
        (Process.Performs.done ⟨rfl, ?_⟩)
      exact properCells_tie properCells proper (blameDefect_eq_ok_iff.mp tied)

/-!
## Branches
-/

theorem passes_copy {dest source : Register} (length : registers.length = body.block.frameSize)
    (stores : Stores tree registers source value)
    (made : draft.nodes.toList ++ [.operation (.copy dest source) span] <+: body.block.nodes) :
    Passes 1 (stateAt tree body callers draft.nodes.size registers cells)
      (stateAt tree body callers (draft.nodes.size + 1)
        (registers.set dest.index (some (value.map (codeOf tree)))) cells) := by
  have inside : dest.index < registers.length :=
    lt_length_of_built made length List.mem_cons_self
  have stepped : (stateAt tree body callers draft.nodes.size registers cells).step = _ :=
    step_of_node? (node?_of_built made)
  rw [State.execute, State.perform, read_of_stores stores, ok_bind,
    store_stateAt inside value] at stepped
  exact passes_single (State.careful_of_handsOver_eq_nil (node?_of_built made) rfl)
    (node?_of_built made) rfl stepped

theorem passes_label {position : Nat} {label : Label}
    (found : body.block.nodes[position]? = some (.label label span)) :
    Passes 1 (stateAt tree body callers position registers cells)
      (stateAt tree body callers (position + 1) registers cells) :=
  passes_single (State.careful_of_handsOver_eq_nil found rfl) found rfl
    (State.step_eq_next_iff.mpr ⟨_, found, .label⟩)

theorem passes_jump {position goal : Nat} {target : Label} {labelSpan : Span}
    (sited : Sited tree body)
    (found : body.block.nodes[position]? = some (.jump target span))
    (stands : body.block.nodes[goal]? = some (.label target labelSpan)) :
    Passes 2 (stateAt tree body callers position registers cells)
      (stateAt tree body callers (goal + 1) registers cells) := by
  have leads : (stateAt tree body callers position registers cells).Leads (.jump target span) _ :=
    .jump (labelPosition?_eq_of_le_one (sited.once target) stands)
  have jumps : Passes 1 (stateAt tree body callers position registers cells)
      (stateAt tree body callers goal registers cells) :=
    passes_single (State.careful_of_handsOver_eq_nil found rfl) found rfl
      (State.step_eq_next_iff.mpr ⟨_, found, leads⟩)
  exact jumps.trans (passes_label stands)

theorem evaluates_test {position goal : Nat} {test : Register} {target : Label}
    {labelSpan : Span} (sited : Sited tree body)
    (stores : Stores tree registers test value)
    (found : body.block.nodes[position]? = some (.jumpUnless test target span))
    (stands : body.block.nodes[goal]? = some (.label target labelSpan)) :
    Evaluates least (Tracing.quiet (.of (value.expectBoolean span))) cells
      (fun holds cellsAfter last => cellsAfter = cells ∧
        last = stateAt tree body callers (if holds then position + 1 else goal + 1) registers
          cells)
      (stateAt tree body callers position registers cells) := by
  have careful : (stateAt tree body callers position registers cells).Careful :=
    State.careful_of_handsOver_eq_nil found rfl
  have foundNode : (stateAt tree body callers position registers cells).frame.node? = _ := found
  have read : (stateAt tree body callers position registers cells).frame.read test = _ :=
    read_of_stores stores
  have stepped : (stateAt tree body callers position registers cells).step = _ :=
    step_of_node? found
  rw [State.execute, read, ok_bind, Value.expectBoolean_map] at stepped
  cases expected : value.expectBoolean span with
  | error failure =>
      rw [expected] at stepped
      exact .fail careful stepped
  | ok holds =>
      rw [expected, ok_bind] at stepped
      cases holds with
      | true =>
          exact .after (passes_single careful found rfl stepped)
            (Process.Performs.done ⟨rfl, rfl⟩)
      | false =>
          have jumped : (stateAt tree body callers position registers cells).jump target =
              .ok (.next (stateAt tree body callers goal registers cells)) := by
            have goal_eq : labelPosition? target
                (stateAt tree body callers position registers cells).frame.body.block.nodes =
                  some goal :=
              labelPosition?_eq_of_le_one (sited.once target) stands
            rw [State.jump, goal_eq]
            rfl
          have passes := passes_single careful found rfl (stepped.trans jumped)
          exact .after (passes.trans (passes_label stands)) (Process.Performs.done ⟨rfl, rfl⟩)

end Control

end Block
end StrictLambda
