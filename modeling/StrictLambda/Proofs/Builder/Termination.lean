import StrictLambda.Proofs.Builder.Jumps
import StrictLambda.Proofs.Builder.Safety
import StrictLambda.Proofs.Layout.OneFrame

/-!
# There is no loop without a call

The blocks of terms only jump forward.  So a program of a term can run on only by calling functions,
and one that makes no calls at the top level comes to its end within the instructions of the
outermost block.
-/

namespace StrictLambda

/-!
## Terms without calls
-/

namespace Term

mutual

/-- No application stands outside of the abstractions of the term. -/
def CallsNothing : Term -> Prop
  | .var _ _ => True
  | .abs _ _ _ => True
  | .app _ _ _ => False
  | .letIn _ _ definition body => definition.CallsNothing ∧ body.CallsNothing
  | .group _ inner => inner.CallsNothing
  | .dataType _ _ => True
  | .data _ type _ fields => type.CallsNothing ∧ CallNothing fields
  | .member _ value _ => value.CallsNothing
  | .literal _ _ => True
  | .binary _ _ lhs rhs => lhs.CallsNothing ∧ rhs.CallsNothing
  | .cond _ condition consequent alternative =>
      condition.CallsNothing ∧ consequent.CallsNothing ∧ alternative.CallsNothing

def CallNothing : List Term -> Prop
  | [] => True
  | term :: rest => term.CallsNothing ∧ CallNothing rest

end

def choice : Term :=
  let span : Span := ⟨⟨0⟩, 0, 0⟩
  let chosen : Term :=
    .cond span (.literal span (.boolean true)) (.literal span (.integer 1))
      (.literal span (.integer 2))
  .binary span .add chosen (.literal span (.integer 3))

end Term

namespace Block

open Draft

def Construction.CallsNothing : Construction -> Prop
  | .value term _ => term.CallsNothing
  | .values terms _ => Term.CallNothing terms
  | .bind _ _ definition => definition.CallsNothing
  | .tail site term => site = .topLevel ∧ term.CallsNothing

def InFrame (node : Node) : Prop :=
  node.staysInFrame = true

theorem inFrame_of_combines {term : Term} {operands : List Term} {dest : Register}
    {registers : List Register} {node : Node}
    (combines : Combines term operands dest registers node) (calls : term.CallsNothing) :
    InFrame node ∧ Term.CallNothing operands := by
  cases combines with
  | app => cases calls
  | dataType | literal => exact ⟨rfl, trivial⟩
  | data => exact ⟨rfl, calls⟩
  | member => exact ⟨rfl, calls, trivial⟩
  | binary => exact ⟨rfl, calls.1, calls.2, trivial⟩

theorem inFrame_readNode (span : Span) (dest : Register) (place : Local) :
    InFrame (readNode span dest place) := by
  unfold readNode
  split <;> rfl

theorem addsOnly_inFrame {construction : Construction} {draft after : Draft}
    (builds : Builds construction draft after) (calls : construction.CallsNothing) :
    draft.AddsOnly InFrame after := by
  induction builds with
  | none => exact .refl _
  | more _ _ ihFirst ihOthers => exact (ihFirst calls.1).trans (ihOthers calls.2)
  | var => exact .produce (inFrame_readNode _ _ _)
  | abs => exact .produce rfl
  | combine combines _ ih =>
      rcases inFrame_of_combines combines calls with ⟨own, operands⟩
      exact (ih operands).trans (.produce own)
  | letIn _ _ ihBound ih => exact (ihBound calls.1).trans (ih calls.2)
  | tailLetIn _ _ ihBound ih => exact (ihBound calls.2.1).trans (ih ⟨calls.1, calls.2.2⟩)
  | group _ ih | tailGroup _ ih => exact ih calls
  | cond _ _ _ ihTests ihHolds ihFails =>
      exact .cond (ihTests calls.1) (ihHolds calls.2.1) (ihFails calls.2.2) rfl rfl rfl rfl
        (fun _ _ => rfl)
  | bindPlain _ _ ih => exact ih calls
  | @bindRecursive draft after span binding definition register _ _ ih =>
      have begins : draft.AddsOnly InFrame
          (draft.produce (.operation (.beginFixpoint draft.next) span)) := .produce rfl
      have ends : after.AddsOnly InFrame
          (after.emit (.operation (.endFixpoint draft.next register) definition.span)) := .emit rfl
      exact begins.trans (AddsOnly.trans (ih calls) ends)
  | leave _ _ ih =>
      rcases calls with ⟨rfl, calls⟩
      exact (ih calls).trans (.emit rfl)
  | tailCall => cases calls.2
  | tailCond _ _ _ ihTests ihHolds ihFails =>
      rcases calls with ⟨outermost, condition, consequent, alternative⟩
      exact .tailCond (ihTests condition) (ihHolds ⟨outermost, consequent⟩)
        (ihFails ⟨outermost, alternative⟩) rfl (fun _ _ => rfl)

variable {tree : Block} {term : Term}

theorem staysInFrame_of_builtFrom (builtFrom : tree.BuiltFrom term) (calls : term.CallsNothing) :
    tree.StaysInFrame := by
  rcases comesFrom_of_builtFrom builtFrom with ⟨_, _, _, _, made, _⟩
  have ahead := made.jumpsAhead
  rcases builtFrom with ⟨inner, builds, rfl⟩
  exact ⟨fun _ member => (addsOnly_inFrame builds ⟨rfl, calls⟩).of_mem member, ahead⟩

end Block

namespace Program

variable {program : Program} {tree : Block} {term : Term}

/-- The run of the program stays in the outermost block, which lies at this place, and comes to an
end there. -/
structure EndsInOneFrame (program : Program) (placement : Placement) : Prop where
  /-- There are not more instructions to be executed than the block has. -/
  ends : exists ending, program.EndsWithin placement.length ending
  /-- If there is no value, this is blamed on the term. -/
  failures : forall failure, program.Answers (.error failure) -> failure.isOfTerm = true
  inside : forall machine, program.Reachable machine -> placement.contains machine.pc = true
  /-- The stack never gets higher than it is at the start. -/
  peak : forall limit,
    ((Machine.ofProgram program).run limit).2.peak = Stack.headerSize + program.entryFrameSize

theorem isOfTerm_of_stays (accepted : ofBlock tree = .ok program)
    (builtFrom : tree.BuiltFrom term) (fits : term.FitsScope []) (stays : tree.StaysInFrame)
    {failure : Failure} (answers : program.Answers (.error failure)) :
    failure.isOfTerm = true := by
  rcases answers_iff.mp answers with ⟨limit, own, ended, same⟩
  rcases Process.steps_of_run_eq_some ended with ⟨count, last, steps, halted⟩
  cases own with
  | ok result => cases same
  | error own =>
      cases same
      rcases exists_followsOutermost accepted stays.frame ⟨count, steps⟩ with ⟨state, follows⟩
      rcases follows.settle stays.frame with
        ⟨settled, node, ⟨reached, here, _⟩, found, emits, calm⟩
      exact here.isOfTerm builtFrom fits reached (not_leave_of_staysInFrame calm) found emits
        (process_eq_halt_error_iff.mp halted)

theorem endsInOneFrame_of_builtFrom (accepted : ofBlock tree = .ok program)
    (builtFrom : tree.BuiltFrom term) (fits : term.FitsScope []) (calls : term.CallsNothing) :
    exists placement, program.blocks[0]? = some placement ∧ program.EndsInOneFrame placement := by
  have stays := Block.staysInFrame_of_builtFrom builtFrom calls
  rcases exists_outermost_places accepted with ⟨placement, listed, first, places⟩
  refine ⟨placement, listed, ?_⟩
  constructor
  case ends =>
    rcases exists_run_eq_some accepted places first stays with ⟨ending, ended⟩
    exact ⟨_, ending, ended, rfl⟩
  case failures => exact fun failure => isOfTerm_of_stays accepted builtFrom fits stays
  case inside =>
    intro machine reachable
    rcases reachable with ⟨count, steps⟩
    exact (staysInside_of_steps accepted places first stays steps).inside
  case peak =>
    intro limit
    rw [Machine.peak_run]
    exact peak_stateAfter accepted places first stays limit

theorem ofTerm_eq_ofBlock (built : Block.ofTerm term = .ok tree) :
    ofTerm term = ofBlock tree := by
  unfold ofTerm
  rw [built]
  rfl

/-- There is no loop without a call.  In every block that is built for a term each label stands in
one place and each jump goes forward, so an activation of a block never comes to an instruction
twice.  If no application stands outside of the abstractions of a closed term in which no binding
hides another one, then its program ends in the frame in which it starts. -/
theorem ofTerm_loops_only_by_calls (term : Term) :
    (forall tree, Block.ofTerm term = .ok tree ->
      (forall block, block ∈ tree.bodies -> block.RunsForward) ∧
      forall program count state later, ofTerm term = .ok program -> program.Reachable state ->
        State.SameActivation program count state later -> 0 < count ->
          state.pc.index < later.pc.index) ∧
    (term.freeVariables = [] -> term.Unshadowed [] -> term.CallsNothing ->
      exists program placement, ofTerm term = .ok program ∧
        program.blocks[0]? = some placement ∧ program.EndsInOneFrame placement) := by
  constructor
  · intro tree built
    have builtFrom := Block.builtFrom_of_ofTerm built
    constructor
    · intro block member
      rcases Block.comesFrom_of_mem_bodies builtFrom member with ⟨_, _, _, _, made, _⟩
      exact made.runsForward
    · intro program count state later compiled reachable same positive
      rw [ofTerm_eq_ofBlock built] at compiled
      have ahead : forall block, block ∈ tree.bodies -> Block.JumpsAhead block.nodes := by
        intro block member
        rcases Block.comesFrom_of_mem_bodies builtFrom member with ⟨_, _, _, _, made, _⟩
        exact made.jumpsAhead
      exact same.pc_lt (goesForward_of_ofBlock compiled ahead) reachable positive
  · intro closed unshadowed calls
    have fits := Term.fitsScope_of_closed closed unshadowed
    rcases Block.exists_builtFrom closed unshadowed with ⟨tree, builtFrom⟩
    rcases exists_ofBlock builtFrom.acceptable with ⟨program, accepted⟩
    rcases endsInOneFrame_of_builtFrom accepted builtFrom fits calls with
      ⟨placement, listed, ends⟩
    refine ⟨program, placement, ?_, listed, ends⟩
    rw [ofTerm_eq_ofBlock builtFrom.ofTerm_eq]
    exact accepted

def choice : Program where
  code := #[.operation (.literal ⟨0⟩ (.boolean true)), .jumpUnless ⟨0⟩ ⟨5⟩,
    .operation (.literal ⟨2⟩ (.integer 1)), .operation (.copy ⟨1⟩ ⟨2⟩), .jump ⟨7⟩,
    .operation (.literal ⟨3⟩ (.integer 2)), .operation (.copy ⟨1⟩ ⟨3⟩),
    .operation (.literal ⟨4⟩ (.integer 3)), .operation (.primitive ⟨5⟩ .add ⟨1⟩ ⟨4⟩),
    .operation (.exit ⟨5⟩)]
  spans := Array.replicate 10 ⟨⟨0⟩, 0, 0⟩
  operands := #[]
  declarations := #[]
  blocks := [⟨⟨0⟩, 10, 6⟩]
  entry := ⟨0⟩
  entryFrameSize := 6

theorem ofTerm_choice : ofTerm Term.choice = .ok choice := rfl

theorem ofTerm_loops_only_by_calls_in_choice :
    exists tree placement state later, Block.ofTerm Term.choice = .ok tree ∧
      (forall block, block ∈ tree.bodies -> block.RunsForward) ∧
      Term.choice.freeVariables = [] ∧ Term.choice.Unshadowed [] ∧ Term.choice.CallsNothing ∧
      ofTerm Term.choice = .ok choice ∧ choice.blocks[0]? = some placement ∧
      choice.EndsInOneFrame placement ∧ choice.Reachable state ∧
      State.SameActivation choice 1 state later ∧ state.pc = ⟨4⟩ ∧ later.pc = ⟨7⟩ ∧
      state.pc.index < later.pc.index := by
  have built : exists tree, Block.ofTerm Term.choice = .ok tree := ⟨_, rfl⟩
  have run : exists state later, choice.Reachable state ∧ state.pc = ⟨4⟩ ∧
      choice.process state = .again later ∧ later.base = state.base ∧ later.pc = ⟨7⟩ :=
    ⟨_, _, ⟨4, .step rfl (.step rfl (.step rfl (.step rfl (.refl _))))⟩, rfl, rfl, rfl, rfl⟩
  rcases built with ⟨tree, built⟩
  rcases run with ⟨state, later, reachable, pc, moved, base, goal⟩
  have same : State.SameActivation choice 1 state later := by
    refine ⟨.single moved, base, ?_⟩
    intro earlier passed sooner steps _ leaving
    cases steps with
    | refl =>
        rcases leaving with ⟨action, span, leaves, _⟩
        rw [pc] at leaves
        cases leaves
    | step _ _ => omega
  have closed : Term.choice.freeVariables = [] := rfl
  have unshadowed : Term.choice.Unshadowed [] := by simp [Term.choice, Term.Unshadowed]
  have calls : Term.choice.CallsNothing := ⟨⟨trivial, trivial, trivial⟩, trivial⟩
  rcases ofTerm_loops_only_by_calls Term.choice with ⟨loops, stays⟩
  rcases loops tree built with ⟨forward, grows⟩
  rcases stays closed unshadowed calls with ⟨own, placement, ownCompiled, listed, ends⟩
  rw [ofTerm_choice] at ownCompiled
  cases ownCompiled
  exact ⟨tree, placement, state, later, built, forward, closed, unshadowed, calls, ofTerm_choice,
    listed, ends, reachable, same, pc, goal,
    grows choice 1 state later ofTerm_choice reachable same Nat.one_pos⟩

end Program
end StrictLambda
