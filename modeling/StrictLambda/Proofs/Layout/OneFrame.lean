import StrictLambda.Proofs.Execution.Peak
import StrictLambda.Proofs.Layout.Activations
import StrictLambda.Proofs.Layout.Safety

/-!
# Runs in one frame

If the outermost block of a tree neither calls anything nor jumps back, a run of its program is one
activation of that block.  It ends after no more instructions than the block has, and the stack
never gets higher than it was at the start.
-/

namespace StrictLambda

def Operation.staysInFrame : Operation -> Bool
  | call _ _ _ => false
  | tailCall _ _ => false
  | leave _ => false
  | _ => true

def Node.staysInFrame : Node -> Bool
  | operation action _ => action.staysInFrame
  | _ => true

namespace Block

structure StaysInFrame (block : Block) : Prop where
  frame : forall node, node ∈ block.nodes -> node.staysInFrame = true
  ahead : JumpsAhead block.nodes

theorem succ_lt_length_emitted {block : Block} (terminated : block.isTerminated = true)
    {index : Nat} {node : Node} (found : (emitted block.nodes)[index]? = some node)
    (goesOn : node.isTerminator = false) : index + 1 < (emitted block.nodes).length := by
  -- The last instruction of a block is its terminator.
  cases ends : block.nodes.getLast? with
  | none =>
      rw [isTerminated, ends] at terminated
      cases terminated
  | some last =>
      rw [isTerminated, ends, Option.any_some] at terminated
      have emits : last.isLabel = false := by
        cases last with
        | label => cases terminated
        | operation | function | data | dataType | jump | jumpUnless => rfl
      rcases List.getLast?_eq_some_iff.mp ends with ⟨front, whole⟩
      have split : emitted block.nodes = emitted front ++ [last] := by
        simp [emitted, whole, List.filter_append, emits]
      have inside := (List.getElem?_eq_some_iff.mp found).1
      rw [split, List.length_append, List.length_singleton] at inside ⊢
      by_contra atEnd
      have same : index = (emitted front).length := by omega
      rw [split, same, List.getElem?_append_right (Nat.le_refl _), Nat.sub_self] at found
      cases found
      rw [terminated] at goesOn
      cases goesOn

end Block

namespace State

/-- After so many instructions the outermost frame runs, at least as many instructions into its
block, and the stack has its first size. -/
structure StaysInside (program : Program) (placement : Placement) (count : Nat) (state : State) :
    Prop where
  inside : placement.contains state.pc = true
  advanced : placement.start.index + count <= state.pc.index
  base : state.base = 0
  size : state.stack.size = Stack.headerSize + program.entryFrameSize

variable {program : Program} {tree : Block} {placement : Placement} {state next : State}
  {instruction : Instruction} {span : Span} {count index : Nat} {node : Node}

theorem StaysInside.contains_next (places : program.Places tree 0 tree placement)
    (terminated : tree.isTerminated = true) (address : state.pc = ⟨placement.start.index + index⟩)
    (found : (Block.emitted tree.nodes)[index]? = some node)
    (goesOn : node.isTerminator = false) : placement.contains state.pc.next = true := by
  have behind := Block.succ_lt_length_emitted terminated found goesOn
  rw [Placement.contains_iff, places.length, address]
  exact ⟨Nat.le_add_right _ (index + 1), Nat.add_lt_add_left behind _⟩

theorem StaysInside.contains_target (ahead : Block.JumpsAhead tree.nodes)
    (address : state.pc = ⟨placement.start.index + index⟩)
    (found : (Block.emitted tree.nodes)[index]? = some node) {target : Label}
    (jumps : node.target? = some target) {goal : Address}
    (resolves : tree.ResolvesTo placement target goal) :
    placement.contains goal = true ∧ state.pc.index < goal.index := by
  have later := Program.lt_of_resolvesTo ahead found jumps resolves
  rcases resolves with ⟨_, _, _, _, _, _, _, inside⟩
  rw [address]
  exact ⟨inside, later⟩

theorem StaysInside.again (places : program.Places tree 0 tree placement)
    (terminated : tree.isTerminated = true) (stays : tree.StaysInFrame)
    (here : state.StaysInside program placement count)
    (moved : program.process state = .again next) :
    next.StaysInside program placement (count + 1) := by
  rcases leads_of_step (Program.process_eq_again_iff.mp moved) with
    ⟨instruction, span, fetched, leads⟩
  rcases places.exists_emitted here.inside fetched with ⟨index, node, address, found, translates⟩
  have member := stays.frame node (List.mem_of_mem_filter (List.mem_of_getElem? found))
  have advances : forall goal : Address, state.pc.index < goal.index ->
      placement.start.index + (count + 1) <= goal.index :=
    fun goal ahead => Nat.lt_of_le_of_lt here.advanced ahead
  have behind : placement.start.index + (count + 1) <= state.pc.next.index :=
    advances _ (Nat.lt_succ_self _)
  cases leads with
  | @store _ dest value cells stack produced written =>
      have goesOn : node.isTerminator = false := by
        cases translates with
        | operation => cases produced <;> rfl
        | function | data | dataType | jump | jumpUnless => rfl
      refine ⟨contains_next places terminated address found goesOn, behind, here.base, ?_⟩
      rw [← here.size]
      have slots := congrArg List.length (Stack.write_eq_ok_iff.mp written).2
      rw [List.length_set] at slots
      exact slots
  | endFixpoint =>
      cases translates
      exact ⟨contains_next places terminated address found rfl, behind, here.base, here.size⟩
  | call | tailCall | leave =>
      cases translates
      cases member
  | jump =>
      cases translates with
      | jump resolves =>
          rcases contains_target stays.ahead address found rfl resolves with ⟨inside, ahead⟩
          exact ⟨inside, advances _ ahead, here.base, here.size⟩
  | @jumpUnless condition target holds read =>
      cases holds with
      | true =>
          have goesOn : node.isTerminator = false := by
            cases translates
            rfl
          exact ⟨contains_next places terminated address found goesOn, behind, here.base, here.size⟩
      | false =>
          cases translates with
          | jumpUnless resolves =>
              rcases contains_target stays.ahead address found rfl resolves with ⟨inside, ahead⟩
              exact ⟨inside, advances _ ahead, here.base, here.size⟩

end State

namespace Program

variable {program : Program} {tree : Block} {placement : Placement} {machine : State}

/-!
## Whole runs
-/

theorem exists_outermost_places (accepted : ofBlock tree = .ok program) :
    exists placement, program.blocks[0]? = some placement ∧ placement.start.index = 0 ∧
      program.Places tree 0 tree placement := by
  have first : tree.bodies[0]? = some tree := by
    rw [Block.bodies_eq]
    rfl
  rcases exists_places_of_ofBlock accepted first with ⟨placement, listed, places⟩
  have tiles := tiles_of_ofBlock accepted
  cases blocks : program.blocks with
  | nil =>
      rw [blocks] at listed
      cases listed
  | cons head rest =>
      rw [blocks] at listed tiles
      cases listed
      exact ⟨placement, rfl, tiles.1, places⟩

theorem staysInside_start (accepted : ofBlock tree = .ok program)
    (places : program.Places tree 0 tree placement) (first : placement.start.index = 0)
    (terminated : tree.isTerminated = true) :
    (State.start program).StaysInside program placement 0 := by
  have entry : program.entry = ⟨0⟩ := (ofBlock_arranges accepted).entry
  have positive := List.length_pos_iff.mpr (Block.emitted_ne_nil terminated)
  constructor
  case inside =>
    show placement.contains program.entry = true
    rw [Placement.contains_iff, entry, places.length, first, Nat.zero_add]
    exact ⟨Nat.le_refl 0, positive⟩
  case advanced =>
    rw [first]
    exact Nat.zero_le _
  case base => rfl
  case size =>
    rw [← peak_start]
    rfl

theorem staysInside_of_steps (accepted : ofBlock tree = .ok program)
    (places : program.Places tree 0 tree placement) (first : placement.start.index = 0)
    (stays : tree.StaysInFrame) {count : Nat}
    (steps : program.process.Steps count (.start program) machine) :
    machine.StaysInside program placement count := by
  have terminated := (holds_of_ofBlock accepted).isTerminated
  have start := staysInside_start accepted places first terminated
  have further : forall {count : Nat} {state last : State} (before : Nat),
      program.process.Steps count state last -> state.StaysInside program placement before ->
        last.StaysInside program placement (before + count) := by
    intro count state last before steps here
    induction steps generalizing before with
    | refl state => exact here
    | @step count _ _ _ moved _ ih =>
        rw [Nat.add_comm count 1, ← Nat.add_assoc]
        exact ih (before + 1) (here.again places terminated stays moved)
  rw [← Nat.zero_add count]
  exact further 0 steps start

theorem exists_run_eq_some (accepted : ofBlock tree = .ok program)
    (places : program.Places tree 0 tree placement) (first : placement.start.index = 0)
    (stays : tree.StaysInFrame) :
    exists ending, program.process.run placement.length (.start program) = some ending := by
  cases ended : program.process.run placement.length (.start program) with
  | some ending => exact ⟨ending, rfl⟩
  | none =>
      rcases Process.run_eq_none_iff.mp ended with ⟨last, steps⟩
      have here := staysInside_of_steps accepted places first stays steps
      have inside := (Placement.contains_iff.mp here.inside).2
      exact absurd inside (Nat.not_lt.mpr here.advanced)

theorem peak_stateAfter (accepted : ofBlock tree = .ok program)
    (places : program.Places tree 0 tree placement) (first : placement.start.index = 0)
    (stays : tree.StaysInFrame) (limit : Nat) :
    (program.stateAfter limit).peak = Stack.headerSize + program.entryFrameSize := by
  rcases (isGreatest_peak program limit).1 with ⟨count, _, reached⟩
  rcases Process.exists_steps_trail program.process program.entrances count (.start program) with
    ⟨spent, _, steps, _⟩
  rw [reached]
  exact (staysInside_of_steps accepted places first stays steps).size

/-!
## The block that is followed
-/

theorem body_of_again (frame : forall node, node ∈ tree.nodes -> node.staysInFrame = true)
    {state next : Block.State} (moved : Block.process state = .again next)
    (home : state.frame.body.block = tree) : next.frame.body.block = tree := by
  rcases Block.State.step_eq_next_iff.mp (Block.process_eq_again_iff.mp moved) with
    ⟨node, found, leads⟩
  have member : node ∈ tree.nodes := home ▸ List.mem_of_getElem? found
  have stays := frame node member
  cases leads with
  | store produced written =>
      rcases Block.Frame.write_eq_ok_iff.mp written with ⟨_, rfl⟩
      exact home
  | call | tailCall | leave => cases stays
  | endFixpoint | jump | holds | fails | label => exact home

def FollowsOutermost (program : Program) (tree : Block) (state : Block.State) (machine : State) :
    Prop :=
  tree.Reachable state ∧ program.Follows state machine ∧ state.frame.body.block = tree

variable {state : Block.State} {after : State}

theorem FollowsOutermost.settle
    (frame : forall node, node ∈ tree.nodes -> node.staysInFrame = true)
    (follows : program.FollowsOutermost tree state machine) :
    exists settled node, program.FollowsOutermost tree settled machine ∧
      settled.frame.node? = some node ∧ node.codeLength = 1 ∧ node.staysInFrame = true := by
  rcases follows with ⟨⟨before, way⟩, follows, home⟩
  rcases follows.settle with ⟨further, settled, node, moves, _, followsHere, found, emits⟩
  have homeHere : settled.frame.body.block = tree :=
    moves.invariant (fun _ _ => body_of_again frame) home
  have stays : node.staysInFrame = true := frame node (homeHere ▸ List.mem_of_getElem? found)
  exact ⟨settled, node, ⟨⟨_, way.trans moves⟩, followsHere, homeHere⟩, found, emits, stays⟩

theorem not_leave_of_staysInFrame {node : Node} (stays : node.staysInFrame = true)
    (source : Register) (span : Span) (leaves : node = .operation (.leave source) span) :
    program.Returns state.callers := by
  rw [leaves] at stays
  cases stays

theorem FollowsOutermost.again
    (frame : forall node, node ∈ tree.nodes -> node.staysInFrame = true)
    (follows : program.FollowsOutermost tree state machine)
    (moved : program.process machine = .again after) :
    exists next, program.FollowsOutermost tree next after := by
  rcases follows.settle frame with ⟨settled, node, ⟨⟨count, way⟩, here, home⟩, found, emits, stays⟩
  have agrees := here.2.step here.1 (not_leave_of_staysInFrame stays) found emits
  rcases agrees.exists_next_back (process_eq_again_iff.mp moved) with ⟨next, stepped, represents⟩
  have moves := Block.process_eq_again_iff.mpr stepped
  rcases Block.State.step_eq_next_iff.mp stepped with ⟨own, foundOwn, leads⟩
  exact ⟨next, ⟨_, way.trans (.single moves)⟩, ⟨here.1.leads foundOwn leads, represents⟩,
    body_of_again frame moves home⟩

/-- Whatever the address that ends a run, the machine follows the outermost block as long as control
does not leave its frame. -/
theorem exists_followsOutermost (accepted : ofBlock tree = .ok program)
    (frame : forall node, node ∈ tree.nodes -> node.staysInFrame = true)
    (reachable : program.Reachable machine) :
    exists state, program.FollowsOutermost tree state machine := by
  rcases reachable with ⟨count, steps⟩
  have start : exists state, program.FollowsOutermost tree state (.start program) :=
    ⟨.start tree, ⟨0, .refl _⟩, follows_start accepted, rfl⟩
  have again : forall before after, program.process before = .again after ->
      (exists state, program.FollowsOutermost tree state before) ->
        exists state, program.FollowsOutermost tree state after := by
    intro before after moved follows
    rcases follows with ⟨state, follows⟩
    exact follows.again frame moved
  exact steps.invariant again start

end Program
end StrictLambda
