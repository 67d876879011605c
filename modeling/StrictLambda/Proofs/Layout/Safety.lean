import StrictLambda.Proofs.Block.Failures
import StrictLambda.Proofs.Layout.Entrances

/-!
# Programs of trees stay inside of their code and of their stack

Every state that a run comes through stands for a sound state of the block interpreter.  So the
running frame always has the size of the block that is executed, every function that is entered
finds room for what it captured, and nothing outside of the program or of the frame is ever asked
for.
-/

namespace StrictLambda

/-- Whether the failure is about something outside of the code, of the tables or of a frame. -/
def Failure.reachesOutside : Failure -> Bool
  | .defect (.addressOutside _) _ => true
  | .defect .operandsOutside _ => true
  | .defect (.registerOutside _ _) _ => true
  | .defect .brokenFrame _ => true
  | _ => false

/-!
## Registers a node names
-/

theorem Operation.mem_registers_of_mem_sources {action : Operation} {register : Register}
    (named : register ∈ action.sources) : register ∈ action.registers := by
  cases action with
  | beginFixpoint | literal => cases named
  | endFixpoint | tailCall | leave | exit => exact named
  | derefFixpoint | copy | member | primitive | call => exact List.mem_cons_of_mem _ named

theorem Node.mem_registers_of_mem_sources {node : Node} {register : Register}
    (named : register ∈ node.sources) : register ∈ node.registers := by
  cases node with
  | operation action span => exact Operation.mem_registers_of_mem_sources named
  | function | data => exact List.mem_cons_of_mem _ named
  | dataType | jump | label => cases named
  | jumpUnless => exact named

namespace Program

open Block (Body Caller Frame)

variable {program : Program} {state : Block.State} {machine : State} {frame : Frame}
  {node : Node}

/-!
## Failures of sound states
-/

theorem Runs.inside_of_mem (runs : program.Runs frame) (member : node ∈ frame.body.block.nodes)
    {register : Register} (named : register ∈ node.registers) :
    register.index < frame.registers.length := by
  rw [runs.length]
  exact Block.lt_frameSize_of_mem member named

theorem Runs.exists_write (runs : program.Runs frame)
    (member : node ∈ frame.body.block.nodes) {register : Register}
    (named : register ∈ node.registers) (value : Value Body) :
    exists after, frame.write register value = .ok after :=
  ⟨_, Frame.write_eq_ok_iff.mpr ⟨runs.inside_of_mem member named, rfl⟩⟩

inductive Excused (node : Node) : Failure -> Prop where
  | fault (cause : Fault) : Excused node (.fault cause node.span)
  | unwritten (register : Register) (named : register ∈ node.sources) :
      Excused node (.defect (.unwrittenRegister register) none)
  | untied : Excused node (.defect .untied (some node.span))
  | tiedTwice : Excused node (.defect .tiedTwice (some node.span))
  | notFixpoint (found : Kind) : Excused node (.defect (.notFixpoint found) (some node.span))

theorem Fits.member_eq_error {span : Span} {field : Symbol} {value : Value Body}
    {failure : Failure} (fits : program.Fits value)
    (failed : value.member span field = .error failure) :
    exists cause, failure = .fault cause span := by
  apply Value.member_eq_error _ failed
  cases value with
  | data declaration tag fields => exact fits
  | integer | boolean | function | dataType | fixpoint => exact trivial

theorem Sound.excused (sound : program.Sound state) (found : state.frame.node? = some node)
    {failure : Failure} (blames : state.Blames node failure) : Excused node failure := by
  have member : node ∈ state.frame.body.block.nodes := List.mem_of_getElem? found
  cases blames with
  | read named failed =>
      have inside := sound.frame.inside_of_mem member (Node.mem_registers_of_mem_sources named)
      rcases Frame.read_eq_error inside failed with ⟨_, rfl⟩
      exact .unwritten _ named
  | write named failed =>
      rcases sound.frame.exists_write member named _ with ⟨after, written⟩
      rw [written] at failed
      cases failed
  | derefOther _ other =>
      rw [Value.expectCell_eq_error other]
      exact .notFixpoint _
  | derefPending => exact .untied
  | endOther _ other =>
      rw [Value.expectCell_eq_error other]
      exact .notFixpoint _
  | endTied => exact .tiedTwice
  | member read failed =>
      rcases (sound.values.frame.read read).here.member_eq_error failed with ⟨cause, rfl⟩
      exact .fault cause
  | fault => exact .fault _
  | jump aims missing =>
      cases node with
      | jump target span =>
          cases aims
          rcases sound.frame.holds.fetch?_eq found rfl with ⟨_, realizes, _⟩
          cases realizes with
          | jump stands =>
              rw [missing] at stands
              cases stands
      | jumpUnless condition target span =>
          cases aims
          rcases sound.frame.holds.fetch?_eq found rfl with ⟨_, realizes, _⟩
          cases realizes with
          | jumpUnless stands =>
              rw [missing] at stands
              cases stands
      | operation | function | data | dataType | label => cases aims
  | @leave source span caller rest value failure waiting failed =>
      rcases sound.callers caller (by rw [waiting]; exact List.mem_cons_self) with
        ⟨runs, position, function, argument, span, _, called⟩
      rcases runs.exists_write (List.mem_of_getElem? called) List.mem_cons_self value with
        ⟨after, written⟩
      rw [written] at failed
      cases failed

theorem Excused.reachesOutside_eq {failure : Failure} (excused : Excused node failure) :
    failure.reachesOutside = false := by
  cases excused <;> rfl

/-!
## Reachable states
-/

theorem exists_follows_of_reachable {tree : Block} (accepted : ofBlock tree = .ok program)
    (reachable : program.Reachable machine) :
    exists state node, tree.Reachable state ∧ program.Follows state machine ∧
      state.frame.node? = some node ∧ node.codeLength = 1 := by
  rcases reachable with ⟨count, steps⟩
  rcases (follows_start accepted).exists_of_steps steps with
    ⟨before, state, reached, _, follows⟩
  rcases follows.settle with ⟨further, settled, node, moves, _, rest⟩
  exact ⟨settled, node, ⟨before + further, reached.trans moves⟩, rest⟩

theorem excused_of_step_eq_error (follows : program.Follows state machine)
    (returns : forall source span, node = .operation (.leave source) span ->
      program.Returns state.callers)
    (found : state.frame.node? = some node) (emits : node.codeLength = 1) {failure : Failure}
    (failed : machine.step program = .error failure) : Excused node failure := by
  rcases follows with ⟨sound, represents⟩
  have stepped := (represents.step sound returns found emits).eq_error_iff.mpr failed
  unfold Block.State.step at stepped
  rw [found] at stepped
  exact sound.excused found (Block.State.blames_of_execute stepped)

theorem Follows.frame_size (follows : program.Follows state machine) {start : Nat}
    (tiles : Tiles start program.blocks) (found : state.frame.node? = some node)
    (emits : node.codeLength = 1) :
    exists placement, program.blockOf? machine.pc = some placement ∧
      machine.stack.size = machine.base + Stack.headerSize + placement.frameSize := by
  rcases follows with ⟨sound, represents⟩
  rcases sound.frame.holds.blockOf?_eq tiles found emits with ⟨placement, block, _, frameSize⟩
  refine ⟨placement, ?_, ?_⟩
  · rw [represents.pc]
    exact block
  · rw [Stack.size_of_hasTop represents.top, ← represents.base_eq, length_registersOf,
      sound.frame.length, frameSize]

theorem Follows.captures_lt (follows : program.Follows state machine) {register : Register}
    {entry : Entry} {captures : List (Value Entry)}
    (stored : machine.read register = .ok (.function entry captures)) :
    captures.length + 1 <= entry.frameSize := by
  rcases follows with ⟨sound, represents⟩
  rw [represents.read_eq] at stored
  cases read : state.frame.read register with
  | error failure =>
      rw [read] at stored
      cases stored
  | ok value =>
      rw [read] at stored
      cases value with
      | function body inside =>
          simp only [Except.map, Value.map_function, Except.ok.injEq,
            Value.function.injEq] at stored
          rcases stored with ⟨rfl, rfl⟩
          rw [List.length_map]
          exact (sound.values.frame.read read).here.captures_lt
      | integer | boolean | dataType | data | fixpoint => simp [Except.map] at stored

/-- At every state of a run of a program that was laid out from a tree, the next instruction is in
one of the blocks, the running frame has the size that block asks for, a function has room for its
argument and its captures, and the machine does not fail by reaching outside of anything. -/
theorem ofBlock_is_memory_safe {tree : Block} (accepted : ofBlock tree = .ok program)
    (small : program.size < Address.halt.index) (reachable : program.Reachable machine) :
    (exists placement, program.blockOf? machine.pc = some placement ∧
      machine.stack.size = machine.base + Stack.headerSize + placement.frameSize) ∧
    (forall register entry captures,
      machine.read register = .ok (.function entry captures) ->
        captures.length + 1 <= entry.frameSize) ∧
    (forall failure, machine.step program = .error failure ->
      failure.reachesOutside = false) := by
  rcases exists_follows_of_reachable accepted reachable with
    ⟨state, node, _, follows, found, emits⟩
  refine ⟨follows.frame_size (tiles_of_ofBlock accepted) found emits, ?_, ?_⟩
  · intro register entry captures stored
    exact follows.captures_lt stored
  · intro failure failed
    have excused := excused_of_step_eq_error follows (fun _ _ _ => follows.1.returns small) found
      emits failed
    exact excused.reachesOutside_eq

theorem ofBlock_is_memory_safe_in_identityTree :
    exists program machine, ofBlock Block.identityTree = .ok program ∧
      program.size < Address.halt.index ∧ program.Reachable machine ∧ machine.pc = ⟨4⟩ ∧
      (exists placement, program.blockOf? machine.pc = some placement ∧
        machine.stack.size = machine.base + Stack.headerSize + placement.frameSize) ∧
      (forall register entry captures,
        machine.read register = .ok (.function entry captures) ->
          captures.length + 1 <= entry.frameSize) ∧
      (forall failure, machine.step program = .error failure ->
        failure.reachesOutside = false) := by
  have entered : exists program, ofBlock Block.identityTree = .ok program ∧
      program.size < Address.halt.index ∧
      exists machine, program.Reachable machine ∧ machine.pc = ⟨4⟩ :=
    ⟨_, rfl, by decide, _, ⟨3, .step rfl (.step rfl (.step rfl (.refl _)))⟩, rfl⟩
  rcases entered with ⟨program, accepted, small, machine, reachable, inside⟩
  exact ⟨program, machine, accepted, small, reachable, inside,
    ofBlock_is_memory_safe accepted small reachable⟩

end Program
end StrictLambda
