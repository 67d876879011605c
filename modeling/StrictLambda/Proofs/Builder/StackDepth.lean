import StrictLambda.Proofs.Builder.Safety
import StrictLambda.Proofs.Execution.Peak

/-!
# Programs of terms and the depth of the stack

An application in tail position of a function body does not make the stack deeper, and every other
one adds a frame that is gone when the application has its value.  So the stack of a program is as
deep as the evaluation of its term, and its height is bounded by this depth and not by the number of
calls.
-/

namespace StrictLambda

namespace Block

variable {tree : Block} {term : Term} {state : State}

theorem entrances_within (builtFrom : tree.BuiltFrom term) (fits : term.FitsScope [])
    {moves bound : Nat} (enough : moves <= bound) :
    process.marks State.entrances moves (.start tree) <+:
      (term.starts bound).map entranceOf := by
  refine (performs_start builtFrom fits bound).marks_within ?_ (Nat.le_succ_of_le enough)
  intro result last leaves
  rcases leaves with ⟨_, halted, _, _⟩
  exact ⟨_, halted⟩

end Block

namespace Program

variable {program : Program} {tree : Block} {term : Term} {machine : State}

/-- What the start of a function is on the machine, whose stack has one frame for the top level and
one for each unit of depth. -/
def startOf (program : Program) (start : Start) : Entrance where
  body := (program.entryOf start.lambda.number).body
  frames := start.depth + 1

/-- The stack of the program is as deep as the evaluation of the term. -/
structure FollowsDepth (program : Program) (term : Term) : Prop where
  /-- Functions are entered in the order in which the evaluation starts them, and with one frame
  more than their depth. -/
  entered : forall limit, exists least, forall bound, least <= bound ->
    program.entered limit <+: (term.starts bound).map program.startOf
  /-- Everything that the evaluation starts is entered. -/
  started : forall bound, exists limit,
    program.entered limit = (term.starts bound).map program.startOf
  /-- The instruction that ends the run is executed with exactly one frame on the stack. -/
  exits : forall machine source span, program.Reachable machine ->
    program.fetch? machine.pc = some (.operation (.exit source), span) -> machine.frames = 1
  /-- Between instructions each frame executes some block, and has the size of that block. -/
  height : forall machine, program.Reachable machine ->
    exists blocks, machine.positions.map program.blockOf? = blocks.map some ∧
      machine.stack.size = heightOf blocks
  /-- The peak is the greatest height since the start. -/
  peak : forall limit,
    IsGreatest (program.heights limit) ((Machine.ofProgram program).run limit).2.peak
  /-- The peak is bounded by the largest depth among the functions that have been started. -/
  bounded : forall limit bound reached depth, reached <+: term.starts bound ->
    program.entered limit = reached.map program.startOf ->
      (forall start, start ∈ reached -> start.depth <= depth) ->
        ((Machine.ofProgram program).run limit).2.peak <=
          (depth + 1) * (Stack.headerSize + program.largestFrame)

theorem exists_entered_within (accepted : ofBlock tree = .ok program)
    (builtFrom : tree.BuiltFrom term) (fits : term.FitsScope []) (limit : Nat) :
    exists least, forall bound, least <= bound ->
      program.entered limit <+: (term.starts bound).map program.startOf := by
  rcases program.process.exists_steps_trail program.entrances limit (.start program) with
    ⟨count, _, steps, same⟩
  rcases (follows_start accepted).exists_of_steps steps with ⟨moves, state, _, marked, _⟩
  refine ⟨moves, fun bound enough => ?_⟩
  unfold entered
  rw [same, ← marked]
  have reached := (Block.entrances_within builtFrom fits enough).map program.entranceOf
  rw [List.map_map] at reached
  exact reached

theorem exists_entered_eq (accepted : ofBlock tree = .ok program)
    (small : program.size < Address.halt.index) (builtFrom : tree.BuiltFrom term)
    (fits : term.FitsScope []) (bound : Nat) :
    exists limit, program.entered limit = (term.starts bound).map program.startOf := by
  rcases (Block.performs_start builtFrom fits bound).exists_marks_eq with ⟨moves, marked⟩
  rcases (follows_start accepted).exists_marks_eq small moves with ⟨limit, same⟩
  refine ⟨limit, ?_⟩
  unfold entered
  rw [same, marked, List.map_map]
  rfl

theorem frames_of_exit (accepted : ofBlock tree = .ok program)
    (builtFrom : tree.BuiltFrom term) (fits : term.FitsScope [])
    (reachable : program.Reachable machine) {source : Register} {span : Span}
    (fetched : program.fetch? machine.pc = some (.operation (.exit source), span)) :
    machine.frames = 1 := by
  rcases exists_follows_of_reachable accepted reachable with
    ⟨state, node, reached, ⟨sound, represents⟩, found, emits⟩
  have careful := Block.careful_of_reachable builtFrom fits reached
  rcases sound.frame.holds.fetch?_eq found emits with ⟨instruction, realizes, fetchedOwn⟩
  rw [represents.pc, fetchedOwn] at fetched
  cases fetched
  cases realizes with
  | operation =>
      rw [represents.frames_eq, careful.exits source _ found]
      rfl

theorem size_le_of_entered (accepted : ofBlock tree = .ok program) {limit count depth : Nat}
    (within : count <= limit)
    (each : forall entrance, entrance ∈ program.entered limit -> entrance.frames <= depth + 1) :
    (program.stateAfter count).stack.size <=
      (depth + 1) * (Stack.headerSize + program.largestFrame) := by
  rcases program.process.exists_steps_trail program.entrances count (.start program) with
    ⟨fewer, _, steps, same⟩
  rcases (follows_start accepted).exists_of_steps steps with
    ⟨moves, state, before, marked, follows⟩
  have callers : state.callers.length <= depth := by
    refine callers_length_le before (Nat.zero_le depth) ?_
    intro entrance member
    have here : program.entranceOf entrance ∈ program.entered limit := by
      apply (program.entered_mono within).subset
      unfold entered
      rw [same, ← marked]
      exact List.mem_map_of_mem member
    exact Nat.le_of_succ_le_succ (each _ here)
  rcases follows.exists_blocks (tiles_of_ofBlock accepted) with ⟨blocks, found, size⟩
  have positions : (program.stateAfter count).positions.length <= depth + 1 := by
    have frames := congrArg List.length follows.2.positions_eq
    rw [List.length_reverse, List.length_map] at frames
    unfold stateAfter
    rw [frames]
    unfold Block.State.frames
    rw [List.length_cons, List.length_map]
    exact Nat.succ_le_succ callers
  have bound := heightOf_le found
  rw [← size] at bound
  exact Nat.le_trans bound (Nat.mul_le_mul_right _ positions)

theorem followsDepth_of_builtFrom (accepted : ofBlock tree = .ok program)
    (small : program.size < Address.halt.index) (builtFrom : tree.BuiltFrom term)
    (fits : term.FitsScope []) : program.FollowsDepth term where
  entered := exists_entered_within accepted builtFrom fits
  started := exists_entered_eq accepted small builtFrom fits
  exits := by
    intro machine source span reachable fetched
    exact frames_of_exit accepted builtFrom fits reachable fetched
  height := by
    intro machine reachable
    rcases exists_follows_of_reachable accepted reachable with ⟨_, _, _, follows, _⟩
    exact follows.exists_blocks (tiles_of_ofBlock accepted)
  peak := by
    intro limit
    rw [Machine.peak_run]
    exact isGreatest_peak program limit
  bounded := by
    intro limit bound reached depth _ same shallow
    rw [Machine.peak_run]
    rcases (isGreatest_peak program limit).1 with ⟨count, within, highest⟩
    rw [highest]
    apply size_le_of_entered accepted within
    rw [same]
    intro entrance member
    rcases List.mem_map.mp member with ⟨start, inside, rfl⟩
    exact Nat.succ_le_succ (shallow start inside)

/-- The stack of the program of a closed term in which no binding hides another one is as deep as
the evaluation of the term, as long as the address that ends a run is not one of the program. -/
theorem ofTerm_follows_depth (closed : term.freeVariables = [])
    (unshadowed : term.Unshadowed []) :
    exists program, ofTerm term = .ok program ∧
      (program.size < Address.halt.index -> program.FollowsDepth term) := by
  have fits := Term.fitsScope_of_closed closed unshadowed
  rcases Block.exists_builtFrom closed unshadowed with ⟨tree, builtFrom⟩
  rcases exists_ofBlock builtFrom.acceptable with ⟨program, accepted⟩
  refine ⟨program, ?_, fun small => followsDepth_of_builtFrom accepted small builtFrom fits⟩
  unfold ofTerm
  rw [builtFrom.ofTerm_eq]
  exact accepted

theorem ofTerm_follows_depth_of_countdown :
    Term.countdown.freeVariables = [] ∧ Term.countdown.Unshadowed [] ∧
      exists program, ofTerm Term.countdown = .ok program ∧ program.size < Address.halt.index ∧
        program.FollowsDepth Term.countdown := by
  rcases ofTerm_follows_depth rfl Term.unshadowed_countdown with ⟨program, compiled, follows⟩
  have small := small_of_ofTerm_countdown compiled
  exact ⟨rfl, Term.unshadowed_countdown, program, compiled, small, follows small⟩

end Program
end StrictLambda
