import StrictLambda.Proofs.Builder.Correctness
import StrictLambda.Proofs.Layout.Safety
import StrictLambda.Proofs.Snapshot.Solid
import StrictLambda.Proofs.Term.Store

/-!
# Programs of terms keep their cells to themselves

While a program of a term runs, cells are found in registers and among what functions have captured,
and nowhere else.  They are never handed to another frame, put into data, or tied to one another,
and no result has one in it.  Apart from mistakes of the term itself only one thing can go wrong: a
recursive binding may be read before it has a value.
-/

namespace StrictLambda

/-- Whether the failure is a mistake of the term, or a recursive binding that is read too early. -/
def Failure.isOfTerm : Failure -> Bool
  | .fault _ _ => true
  | .defect .untied _ => true
  | _ => false

namespace Block

variable {tree : Block} {term : Term} {state : State}

/-!
## Runs of the tree
-/

theorem careful_of_reachable (builtFrom : tree.BuiltFrom term) (fits : term.FitsScope [])
    (reachable : tree.Reachable state) : state.Careful := by
  rcases reachable with ⟨count, steps⟩
  have performs := performs_start builtFrom fits count
  refine performs.allowed_of_steps ?_ steps (Nat.lt_succ_self count)
  intro result last leaves
  rcases leaves with ⟨careful, halted, _, _⟩
  exact ⟨careful, _, halted⟩

theorem ends_of_halt (reachable : tree.Reachable state)
    {ending : Except Failure (Value Body × Cells Body)} (halted : process state = .halt ending) :
    tree.Ends ending := by
  rcases reachable with ⟨count, steps⟩
  exact ⟨count + 1, Process.run_of_halt steps halted⟩

theorem solid_of_everywhere {value : Value Lambda}
    (faithful : value.Everywhere (Faithful tree)) (ordinary : value.isCell = false) :
    value.Solid := by
  induction faithful with
  | @intro value here inside ih =>
      cases value with
      | integer value => exact .integer value
      | boolean value => exact .boolean value
      | function lambda captures => exact .function lambda captures
      | dataType declaration => exact .dataType declaration
      | data declaration tag fields =>
          exact .data fun field member => ih field member (here field member)
      | fixpoint cell => cases ordinary

theorem solid_of_step_eq_done (builtFrom : tree.BuiltFrom term) (fits : term.FitsScope [])
    (reachable : tree.Reachable state) {value : Value Body} {cells : Cells Body}
    (stepped : state.step = .ok (.done value cells)) : value.Solid := by
  have ends := ends_of_halt reachable (process_eq_halt_ok_iff.mpr stepped)
  rcases (ends_iff_of_builtFrom builtFrom fits _).mp ends with ⟨own, ended, same⟩
  cases own with
  | error failure => cases same
  | ok result =>
      cases same
      have proper := proper_of_ends builtFrom fits ended
      exact (solid_of_everywhere proper.faithful proper.ordinary).map _

theorem not_isMechanical_of_step_eq_error (builtFrom : tree.BuiltFrom term)
    (fits : term.FitsScope []) (reachable : tree.Reachable state) {failure : Failure}
    (stepped : state.step = .error failure) : failure.isMechanical = false := by
  have ends := ends_of_halt reachable (process_eq_halt_error_iff.mpr stepped)
  rcases (ends_iff_of_builtFrom builtFrom fits _).mp ends with ⟨own, ended, same⟩
  cases own with
  | error failure =>
      cases same
      exact Term.not_isMechanical_of_ends ended
  | ok result => cases same

end Block

namespace Program

variable {program : Program} {tree : Block} {term : Term} {state : Block.State}
  {machine : State} {node : Node}

/-!
## Runs of the program
-/

def handsOver (program : Program) : Instruction -> List Register
  | .operation action => action.handsOver
  | .data _ _ _ fields => (program.operands? fields).getD []
  | _ => []

theorem Realizes.handsOver_eq {body : Block.Body} {position : Nat} {instruction : Instruction}
    (realizes : program.Realizes body position node instruction) :
    program.handsOver instruction = node.handsOver := by
  cases realizes with
  | operation | function | dataType | jump | jumpUnless => rfl
  | data operands =>
      rw [handsOver, operands]
      rfl

theorem Excused.isOfTerm {failure : Failure} (excused : Excused node failure)
    (other : failure.isMechanical = false) : failure.isOfTerm = true := by
  cases excused with
  | fault | untied => rfl
  | unwritten | tiedTwice | notFixpoint => cases other

theorem Follows.careful (follows : program.Follows state machine) (careful : state.Careful)
    (found : state.frame.node? = some node) (emits : node.codeLength = 1)
    {instruction : Instruction} {span : Span}
    (fetched : program.fetch? machine.pc = some (instruction, span)) {register : Register}
    (handed : register ∈ program.handsOver instruction) {value : Value Entry}
    (read : machine.read register = .ok value) : value.isCell = false := by
  rcases follows with ⟨sound, represents⟩
  rcases sound.frame.holds.fetch?_eq found emits with ⟨own, realizes, fetchedOwn⟩
  rw [represents.pc, fetchedOwn] at fetched
  cases fetched
  rw [realizes.handsOver_eq] at handed
  rw [represents.read_eq] at read
  cases content : state.frame.read register with
  | error failure =>
      rw [content] at read
      cases read
  | ok own =>
      rw [content] at read
      cases read
      rw [Value.isCell_map]
      exact careful.handsOver node found register handed own content

theorem Follows.isOfTerm (follows : program.Follows state machine)
    (builtFrom : tree.BuiltFrom term) (fits : term.FitsScope []) (reached : tree.Reachable state)
    (returns : forall source span, node = .operation (.leave source) span ->
      program.Returns state.callers)
    (found : state.frame.node? = some node) (emits : node.codeLength = 1) {failure : Failure}
    (failed : machine.step program = .error failure) : failure.isOfTerm = true := by
  have excused := excused_of_step_eq_error follows returns found emits failed
  have stepped := (follows.2.step follows.1 returns found emits).eq_error_iff.mpr failed
  exact excused.isOfTerm (Block.not_isMechanical_of_step_eq_error builtFrom fits reached stepped)

theorem isOfTerm_of_step_eq_error (accepted : ofBlock tree = .ok program)
    (small : program.size < Address.halt.index) (builtFrom : tree.BuiltFrom term)
    (fits : term.FitsScope []) (reachable : program.Reachable machine) {failure : Failure}
    (failed : machine.step program = .error failure) : failure.isOfTerm = true := by
  rcases exists_follows_of_reachable accepted reachable with
    ⟨state, node, reached, follows, found, emits⟩
  exact follows.isOfTerm builtFrom fits reached (fun _ _ _ => follows.1.returns small) found emits
    failed

theorem solid_of_step_eq_done (accepted : ofBlock tree = .ok program)
    (small : program.size < Address.halt.index) (builtFrom : tree.BuiltFrom term)
    (fits : term.FitsScope []) (reachable : program.Reachable machine) {value : Value Entry}
    {cells : Cells Entry} (ended : machine.step program = .ok (.done value cells)) :
    value.Solid := by
  rcases exists_follows_of_reachable accepted reachable with
    ⟨state, node, reached, follows, found, emits⟩
  have agrees := follows.2.step follows.1 (fun _ _ _ => follows.1.returns small) found emits
  rcases agrees.exists_done_back ended with ⟨own, ownCells, stepped, rfl, _⟩
  exact (Block.solid_of_step_eq_done builtFrom fits reached stepped).map _

theorem exists_done_of_answers {snapshot : Snapshot} (answers : program.Answers (.ok snapshot)) :
    exists machine value cells, program.Reachable machine ∧
      machine.step program = .ok (.done value cells) ∧
      snapshot = Snapshot.ofValue id cells value := by
  rcases answers_iff.mp answers with ⟨limit, own, ended, same⟩
  cases own with
  | error failure => cases same
  | ok result =>
      cases same
      rcases Process.steps_of_run_eq_some ended with ⟨count, last, steps, halted⟩
      exact ⟨last, result.1, result.2, ⟨count, steps⟩, process_eq_halt_ok_iff.mp halted, rfl⟩

/-- Cells do not get out of registers and captures while the program runs, and nothing goes wrong
but mistakes of the term and recursive bindings that are read too early. -/
structure KeepsCells (program : Program) : Prop where
  /-- Whatever fails is blamed on the term. -/
  failures : forall machine failure, program.Reachable machine ->
    machine.step program = .error failure -> failure.isOfTerm = true
  /-- No cell is passed to a function, returned, put into data, or tied to a cell. -/
  handsOver : forall machine instruction span register value, program.Reachable machine ->
    program.fetch? machine.pc = some (instruction, span) ->
      register ∈ program.handsOver instruction -> machine.read register = .ok value ->
        value.isCell = false
  /-- The result unfolds to its snapshot although cells are followed as often as they are met. -/
  finite : forall machine value cells, program.Reachable machine ->
    machine.step program = .ok (.done value cells) ->
      Unfolds (Value.follow id cells) [value] [Snapshot.ofValue id cells value]
  /-- No part of the result is a cell. -/
  solid : forall snapshot, program.Answers (.ok snapshot) -> snapshot.Solid

theorem keepsCells_of_builtFrom (accepted : ofBlock tree = .ok program)
    (small : program.size < Address.halt.index) (builtFrom : tree.BuiltFrom term)
    (fits : term.FitsScope []) : program.KeepsCells where
  failures := by
    intro machine failure reachable failed
    exact isOfTerm_of_step_eq_error accepted small builtFrom fits reachable failed
  handsOver := by
    intro machine instruction span register value reachable fetched handed read
    rcases exists_follows_of_reachable accepted reachable with
      ⟨state, node, reached, follows, found, emits⟩
    have careful := Block.careful_of_reachable builtFrom fits reached
    exact follows.careful careful found emits fetched handed read
  finite := by
    intro machine value cells reachable ended
    have solid := solid_of_step_eq_done accepted small builtFrom fits reachable ended
    exact (Snapshot.solid_ofValue solid id cells).2
  solid := by
    intro snapshot answers
    rcases exists_done_of_answers answers with ⟨machine, value, cells, reachable, ended, rfl⟩
    have solid := solid_of_step_eq_done accepted small builtFrom fits reachable ended
    exact (Snapshot.solid_ofValue solid id cells).1

/-- The program of a closed term in which no binding hides another one keeps its cells to itself, as
long as the address that ends a run is not one of the program. -/
theorem ofTerm_keeps_cells (closed : term.freeVariables = []) (unshadowed : term.Unshadowed []) :
    exists program, ofTerm term = .ok program ∧
      (program.size < Address.halt.index -> program.KeepsCells) := by
  have fits := Term.fitsScope_of_closed closed unshadowed
  rcases Block.exists_builtFrom closed unshadowed with ⟨tree, builtFrom⟩
  rcases exists_ofBlock builtFrom.acceptable with ⟨program, accepted⟩
  refine ⟨program, ?_, fun small => keepsCells_of_builtFrom accepted small builtFrom fits⟩
  unfold ofTerm
  rw [builtFrom.ofTerm_eq]
  exact accepted

theorem ofTerm_keeps_cells_of_countdown :
    Term.countdown.freeVariables = [] ∧ Term.countdown.Unshadowed [] ∧
      exists program, ofTerm Term.countdown = .ok program ∧ program.size < Address.halt.index ∧
        program.KeepsCells := by
  rcases ofTerm_keeps_cells rfl Term.unshadowed_countdown with ⟨program, compiled, keeps⟩
  have small := small_of_ofTerm_countdown compiled
  exact ⟨rfl, Term.unshadowed_countdown, program, compiled, small, keeps small⟩

end Program
end StrictLambda
