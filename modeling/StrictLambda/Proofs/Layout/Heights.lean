import Mathlib.Algebra.GroupWithZero.Nat
import StrictLambda.Proofs.Layout.Simulation
import StrictLambda.Proofs.Layout.Tiling

/-!
# Frames of a machine

Return addresses tell how many frames there are and where each of them goes on.  As every frame has
the size that its block asks for, the places where the frames are executing determine the height of
the stack.
-/

namespace StrictLambda

/-!
## Looking at the stack
-/

def Slot.returnAddress? : Slot -> Option Address
  | returnTo address => some address
  | _ => none

def Stack.returnAddresses (stack : Stack) : List Address :=
  stack.slots.toList.filterMap Slot.returnAddress?

def State.frames (state : State) : Nat :=
  state.stack.returnAddresses.length

/-- Where the frames are executing, the outermost one first.  A frame that waits goes on where the
one above it returns to. -/
def State.positions (state : State) : List Address :=
  state.stack.returnAddresses.tail ++ [state.pc]

theorem Stack.filterMap_frameSlots (saved : Nat) (address : Address)
    (registers : List (Option (Value Entry))) :
    (frameSlots saved address registers).filterMap Slot.returnAddress? = [address] := by
  have plain : forall content, (slotOf content).returnAddress? = none := by
    intro content
    cases content <;> rfl
  have none : (registers.map slotOf).filterMap Slot.returnAddress? = [] := by
    rw [List.filterMap_map, List.filterMap_eq_nil_iff]
    exact fun content _ => plain content
  exact congrArg (List.cons address) none

def Block.State.frames (state : Block.State) : List Block.Frame :=
  state.frame :: state.callers.map Block.Caller.frame

namespace Program

open Block (Body Caller Frame)

def largestFrame (program : Program) : Nat :=
  (program.blocks.map Placement.frameSize).foldr max 0

theorem frameSize_le_largestFrame {program : Program} {placement : Placement}
    (member : placement ∈ program.blocks) : placement.frameSize <= program.largestFrame := by
  unfold largestFrame
  generalize program.blocks = blocks at member ⊢
  induction blocks with
  | nil => cases member
  | cons head rest ih =>
      rw [List.map_cons, List.foldr_cons]
      rcases List.mem_cons.mp member with rfl | later
      · exact Nat.le_max_left _ _
      · exact Nat.le_trans (ih later) (Nat.le_max_right _ _)

variable {program : Program} {state : Block.State} {machine : State} {frame : Frame}

def frameAddress (program : Program) (frame : Frame) : Address :=
  program.addressOf frame.body frame.position

theorem Represents.returnAddresses_eq (represents : program.Represents state machine) :
    machine.stack.returnAddresses =
      Address.halt ::
        (state.callers.map fun caller => program.frameAddress caller.frame).reverse := by
  have below : forall callers : List Caller,
      (program.callerSlots callers).filterMap Slot.returnAddress? ++
          [program.returnAddress callers] =
        Address.halt :: (callers.map fun caller => program.frameAddress caller.frame).reverse := by
    intro callers
    induction callers with
    | nil => rfl
    | cons caller rest ih =>
        rw [callerSlots, List.filterMap_append, Stack.filterMap_frameSlots, ih, List.map_cons,
          List.reverse_cons, List.cons_append]
        rfl
  unfold Stack.returnAddresses
  rw [represents.top, List.filterMap_append, Stack.filterMap_frameSlots]
  exact below state.callers

theorem Represents.frames_eq (represents : program.Represents state machine) :
    machine.frames = state.callers.length + 1 := by
  unfold State.frames
  rw [represents.returnAddresses_eq, List.length_cons, List.length_reverse, List.length_map]

theorem Represents.positions_eq (represents : program.Represents state machine) :
    machine.positions = (state.frames.map program.frameAddress).reverse := by
  unfold State.positions Block.State.frames
  rw [represents.returnAddresses_eq, represents.pc, List.tail_cons, List.map_cons, List.map_map,
    List.reverse_cons]
  rfl

theorem height_eq (callers : List Caller) :
    height callers =
      (callers.map fun caller => Stack.headerSize + caller.frame.registers.length).sum := by
  induction callers with
  | nil => rfl
  | cons caller rest ih => rw [height, ih, List.map_cons, List.sum_cons, Nat.add_comm]

theorem Represents.size_eq (represents : program.Represents state machine) :
    machine.stack.size =
      (state.frames.map fun frame => Stack.headerSize + frame.registers.length).sum := by
  unfold Block.State.frames
  rw [Stack.size_of_hasTop represents.top, length_callerSlots, length_registersOf, height_eq,
    List.map_cons, List.map_map, List.sum_cons, Nat.add_assoc, Nat.add_comm]
  rfl

/-!
## Blocks of frames
-/

theorem Runs.exists_instruction (runs : program.Runs frame) :
    exists position node, frame.body.block.nodes[position]? = some node ∧ node.codeLength = 1 ∧
      program.frameAddress frame = program.addressOf frame.body position := by
  induction bounded : frame.body.block.nodes.length - frame.position using Nat.strongRecOn
    generalizing frame with
  | ind _ ih =>
      rcases runs.exists_node with ⟨node, found⟩
      rcases codeLength_eq_one_or_label node with emits | ⟨label, span, rfl⟩
      · exact ⟨frame.position, node, found, emits, rfl⟩
      · have inside := runs.inside
        have fewer : frame.advance.body.block.nodes.length - frame.advance.position <
            frame.body.block.nodes.length - frame.position := by
          simp only [Frame.advance, Frame.goto]
          omega
        rcases ih _ (bounded ▸ fewer) (runs.advance found rfl) rfl with
          ⟨position, node, later, emits, same⟩
        exact ⟨position, node, later, emits, (addressOf_succ_label found).symm.trans same⟩

theorem Runs.blockOf?_eq (runs : program.Runs frame) {start : Nat}
    (tiles : Tiles start program.blocks) :
    exists placement, program.blockOf? (program.frameAddress frame) = some placement ∧
      placement.frameSize = frame.registers.length := by
  rcases runs.exists_instruction with ⟨position, node, found, emits, same⟩
  rcases runs.holds.blockOf?_eq tiles found emits with ⟨placement, block, _, frameSize⟩
  rw [same, runs.length]
  exact ⟨placement, block, frameSize⟩

theorem exists_blocks {start : Nat} (tiles : Tiles start program.blocks) {frames : List Frame}
    (runs : forall frame, frame ∈ frames -> program.Runs frame) :
    exists blocks : List Placement,
      (frames.map program.frameAddress).map program.blockOf? = blocks.map some ∧
        frames.map (fun frame => frame.registers.length) = blocks.map Placement.frameSize := by
  induction frames with
  | nil => exact ⟨[], rfl, rfl⟩
  | cons frame rest ih =>
      rcases List.forall_mem_cons.mp runs with ⟨first, others⟩
      rcases first.blockOf?_eq tiles with ⟨placement, block, frameSize⟩
      rcases ih others with ⟨blocks, found, sizes⟩
      refine ⟨placement :: blocks, ?_, ?_⟩
      · rw [List.map_cons, List.map_cons, List.map_cons, block, found]
      · rw [List.map_cons, List.map_cons, frameSize, sizes]

theorem Sound.runs_frames (sound : program.Sound state) :
    forall frame, frame ∈ state.frames -> program.Runs frame := by
  intro frame member
  rcases List.mem_cons.mp member with rfl | waiting
  · exact sound.frame
  · rcases List.mem_map.mp waiting with ⟨caller, inside, rfl⟩
    exact (sound.callers caller inside).1

def heightOf (blocks : List Placement) : Nat :=
  (blocks.map fun block => Stack.headerSize + block.frameSize).sum

theorem Follows.exists_blocks (follows : program.Follows state machine) {start : Nat}
    (tiles : Tiles start program.blocks) :
    exists blocks, machine.positions.map program.blockOf? = blocks.map some ∧
      machine.stack.size = heightOf blocks := by
  rcases follows with ⟨sound, represents⟩
  rcases Program.exists_blocks tiles sound.runs_frames with ⟨blocks, found, sizes⟩
  refine ⟨blocks.reverse, ?_, ?_⟩
  · rw [represents.positions_eq, List.map_reverse, found, List.map_reverse]
  · have parts : (state.frames.map fun frame => Stack.headerSize + frame.registers.length) =
        blocks.map fun block => Stack.headerSize + block.frameSize := by
      have headed := congrArg (List.map (Stack.headerSize + ·)) sizes
      rw [List.map_map, List.map_map] at headed
      exact headed
    unfold heightOf
    rw [represents.size_eq, parts, List.map_reverse, List.sum_reverse]

theorem mem_blocks_of_blockOf? {address : Address} {placement : Placement}
    (found : program.blockOf? address = some placement) : placement ∈ program.blocks :=
  List.mem_of_find?_eq_some found

theorem heightOf_le {addresses : List Address} {blocks : List Placement}
    (found : addresses.map program.blockOf? = blocks.map some) :
    heightOf blocks <= addresses.length * (Stack.headerSize + program.largestFrame) := by
  unfold heightOf
  induction blocks generalizing addresses with
  | nil => exact Nat.zero_le _
  | cons block rest ih =>
      cases addresses with
      | nil => cases found
      | cons address others =>
          rw [List.map_cons, List.map_cons] at found
          rcases List.cons.inj found with ⟨here, later⟩
          rw [List.map_cons, List.sum_cons, List.length_cons, Nat.succ_mul, Nat.add_comm]
          have within := frameSize_le_largestFrame (mem_blocks_of_blockOf? here)
          exact Nat.add_le_add (ih later) (Nat.add_le_add_left within _)

end Program
end StrictLambda
