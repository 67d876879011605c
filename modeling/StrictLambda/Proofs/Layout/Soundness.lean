import StrictLambda.Proofs.Block.Values
import StrictLambda.Proofs.Layout.Placement

/-!
# Sound states of the block interpreter

While a tree of blocks runs whose layout is part of a program, every frame executes a block of that
program at a position inside of the block, with exactly as many registers as the block asks for, and
every function was made from such a block with as many captures as its body takes.  No step leaves
these states.
-/

namespace StrictLambda
namespace Block

/-!
## Sizes of frames
-/

theorem le_foldl_frameSize (registers : List Register) (size : Nat) :
    size <= registers.foldl (fun size register => max size (register.index + 1)) size := by
  induction registers generalizing size with
  | nil => exact Nat.le_refl size
  | cons register rest ih => exact Nat.le_trans (Nat.le_max_left _ _) (ih _)

theorem lt_foldl_frameSize {registers : List Register} {register : Register} (size : Nat)
    (named : register ∈ registers) :
    register.index <
      registers.foldl (fun size register => max size (register.index + 1)) size := by
  induction registers generalizing size with
  | nil => cases named
  | cons head rest ih =>
      rcases List.mem_cons.mp named with rfl | later
      · have own : register.index < max size (register.index + 1) := by omega
        exact Nat.lt_of_lt_of_le own (le_foldl_frameSize rest _)
      · exact ih _ later

theorem parameters_le_frameSize (block : Block) : block.parameters <= block.frameSize :=
  le_foldl_frameSize _ _

theorem lt_frameSize_of_mem {block : Block} {node : Node} {register : Register}
    (member : node ∈ block.nodes) (named : register ∈ node.registers) :
    register.index < block.frameSize :=
  lt_foldl_frameSize _ (List.mem_flatMap.mpr ⟨node, member, named⟩)

theorem foldl_frameSize_le_iff {registers : List Register} {size bound : Nat} :
    registers.foldl (fun size register => max size (register.index + 1)) size <= bound ↔
      size <= bound ∧ forall register, register ∈ registers -> register.index < bound := by
  induction registers generalizing size with
  | nil => simp
  | cons register rest ih =>
      rw [List.foldl_cons, ih, List.forall_mem_cons, Nat.max_le, and_assoc]
      exact Iff.rfl

theorem frameSize_le_iff {block : Block} {bound : Nat} :
    block.frameSize <= bound ↔
      block.parameters <= bound ∧
        forall node, node ∈ block.nodes -> forall register, register ∈ node.registers ->
          register.index < bound := by
  unfold frameSize
  rw [foldl_frameSize_le_iff]
  refine and_congr_right fun _ => ?_
  constructor
  · intro all node member register named
    exact all register (List.mem_flatMap.mpr ⟨node, member, named⟩)
  · intro all register member
    rcases List.mem_flatMap.mp member with ⟨node, inside, named⟩
    exact all node inside register named

/-!
## Positions inside of a block
-/

theorem lt_length_of_isTerminated {block : Block} (terminated : block.isTerminated = true) :
    0 < block.nodes.length := by
  unfold isTerminated at terminated
  cases nodes : block.nodes with
  | nil => simp [nodes] at terminated
  | cons node rest => exact Nat.succ_pos _

theorem succ_lt_length_of_not_isTerminator {block : Block}
    (terminated : block.isTerminated = true) {position : Nat} {node : Node}
    (found : block.nodes[position]? = some node) (goesOn : node.isTerminator = false) :
    position + 1 < block.nodes.length := by
  have inside := (List.getElem?_eq_some_iff.mp found).1
  apply Classical.byContradiction
  intro last
  have position_eq : position = block.nodes.length - 1 := by omega
  unfold isTerminated at terminated
  rw [List.getLast?_eq_getElem?, ← position_eq, found, Option.any_some, goesOn] at terminated
  cases terminated

end Block

namespace Program

open Block

/-!
## Sound frames and values
-/

/-- A function belongs to a block of the program that takes its captures; a data value agrees with
its declaration. -/
def Fits (program : Program) : Value Body -> Prop
  | .function body captures =>
      program.Holds body ∧ body.block.parameters = captures.length + 1
  | value => value.Declared

/-- The frame is inside of a block of the program and has all registers of the block. -/
structure Runs (program : Program) (frame : Frame) : Prop where
  holds : program.Holds frame.body
  inside : frame.position < frame.body.block.nodes.length
  length : frame.registers.length = frame.body.block.frameSize

def Waits (caller : Caller) : Prop :=
  exists position function argument span,
    caller.frame.position = position + 1 ∧
      caller.frame.body.block.nodes[position]? =
        some (.operation (.call caller.dest function argument) span)

structure Sound (program : Program) (state : Block.State) : Prop where
  frame : program.Runs state.frame
  callers : forall caller, caller ∈ state.callers ->
    program.Runs caller.frame ∧ Waits caller
  values : state.AllValues program.Fits

variable {program : Program} {state after : Block.State} {frame : Frame} {node : Node}

theorem Runs.exists_node (runs : program.Runs frame) : exists node, frame.node? = some node := by
  cases found : frame.node? with
  | none => exact absurd runs.inside (Nat.not_lt.mpr (List.getElem?_eq_none_iff.mp found))
  | some node => exact ⟨node, rfl⟩

theorem Runs.write {written : Frame} {register : Register} {value : Value Body}
    (runs : program.Runs frame) (wrote : frame.write register value = .ok written) :
    program.Runs written := by
  rcases Frame.write_eq_ok_iff.mp wrote with ⟨_, rfl⟩
  exact ⟨runs.holds, runs.inside, by simpa using runs.length⟩

theorem Runs.advance (runs : program.Runs frame) (found : frame.node? = some node)
    (goesOn : node.isTerminator = false) : program.Runs frame.advance :=
  ⟨runs.holds, succ_lt_length_of_not_isTerminator runs.holds.isTerminated found goesOn,
    runs.length⟩

theorem Runs.goto {target : Label} {position : Nat} (runs : program.Runs frame)
    (stands : labelPosition? target frame.body.block.nodes = some position) :
    program.Runs (frame.goto position) :=
  ⟨runs.holds, labelPosition?_lt stands, runs.length⟩

theorem Fits.captures_lt {body : Body} {captures : List (Value Body)}
    (fits : program.Fits (.function body captures)) :
    captures.length + 1 <= body.block.frameSize := by
  rw [← fits.2]
  exact parameters_le_frameSize body.block

theorem Fits.runs_enter {body : Body} {captures : List (Value Body)}
    (fits : program.Fits (.function body captures)) (argument : Value Body) :
    program.Runs (.enter body argument captures) := by
  have room := fits.captures_lt
  refine ⟨fits.1, lt_length_of_isTerminated fits.1.isTerminated, ?_⟩
  simp only [Frame.enter, List.cons_append, List.length_cons, List.length_append,
    List.length_map, List.length_replicate]
  omega

/-!
## Sound states
-/

theorem fits_of_isLiteral {value : Value Body} (literal : value.IsLiteral) :
    program.Fits value := by
  rcases literal with ⟨literal, rfl⟩
  cases literal <;> exact trivial

theorem Sound.creates (sound : program.Sound state) : state.Creates program.Fits where
  literal _ := fits_of_isLiteral
  dataType _ := trivial
  cell _ := trivial
  function := by
    intro dest block captures span values found read
    rcases sound.frame.holds.fetch?_eq found rfl with ⟨instruction, realizes, _⟩
    cases realizes with
    | function _ fits holds =>
        have lengths := (Frame.readAll_eq_ok_iff.mp read).length_eq
        exact ⟨holds, by rw [← lengths]; exact fits⟩
  data := by
    intro dest type tag fields span values declaration constructor _ _ named arity
    exact ⟨constructor, named, arity⟩

theorem isTerminator_of_produces {dest : Register} {value : Value Body} {cells : Cells Body}
    (produced : state.Produces node dest value cells) : node.isTerminator = false := by
  cases produced <;> rfl

theorem Sound.leads (sound : program.Sound state) (found : state.frame.node? = some node)
    (leads : state.Leads node after) : program.Sound after := by
  have values := sound.values.leads sound.creates found leads
  cases leads with
  | store produced written =>
      have goesOn := isTerminator_of_produces produced
      rcases Frame.write_eq_ok_iff.mp written with ⟨_, rfl⟩
      exact ⟨(sound.frame.write written).advance found goesOn, sound.callers, values⟩
  | endFixpoint => exact ⟨sound.frame.advance found rfl, sound.callers, values⟩
  | @call dest function argument span body captures value callee read =>
      have fits := (sound.values.frame.read callee).here
      refine ⟨fits.runs_enter value, ?_, values⟩
      intro caller member
      rcases List.mem_cons.mp member with rfl | older
      · exact ⟨sound.frame.advance found rfl, _, function, argument, span, rfl, found⟩
      · exact sound.callers caller older
  | tailCall callee read =>
      exact ⟨(sound.values.frame.read callee).here.runs_enter _, sound.callers, values⟩
  | leave read waiting written =>
      have callers := sound.callers
      rw [waiting] at callers
      refine ⟨(callers _ List.mem_cons_self).1.write written, ?_, values⟩
      intro caller member
      exact callers caller (List.mem_cons_of_mem _ member)
  | jump stands => exact ⟨sound.frame.goto stands, sound.callers, values⟩
  | holds => exact ⟨sound.frame.advance found rfl, sound.callers, values⟩
  | fails _ stands => exact ⟨sound.frame.goto stands, sound.callers, values⟩
  | label => exact ⟨sound.frame.advance found rfl, sound.callers, values⟩

theorem sound_start {tree : Block} (holds : program.Holds ⟨0, tree⟩) :
    program.Sound (.start tree) where
  frame :=
    ⟨holds, lt_length_of_isTerminated holds.isTerminated, by
      simp [Block.State.start, Frame.outermost]⟩
  callers := by
    intro caller member
    cases member
  values := State.allValues_start tree

end Program
end StrictLambda
