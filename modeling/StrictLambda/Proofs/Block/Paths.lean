import Mathlib.Data.List.Nodup
import StrictLambda.Proofs.Block.Steps

/-!
# Paths through a block

Inside of a block control passes from a node to the one behind it, or from a jump to its label.  A
path collects the registers that are written on the way from the start of the block.  The registers
of a block are used with discipline if no path reads a register that is still empty, and none writes
a register again.
-/

namespace StrictLambda

/-!
## Registers a node writes
-/

def Operation.dest? : Operation -> Option Register
  | .beginFixpoint dest => some dest
  | .derefFixpoint dest _ => some dest
  | .endFixpoint _ _ => none
  | .copy dest _ => some dest
  | .member dest _ _ => some dest
  | .literal dest _ => some dest
  | .primitive dest _ _ _ => some dest
  | .call dest _ _ => some dest
  | .tailCall _ _ => none
  | .leave _ => none
  | .exit _ => none

def Node.dest? : Node -> Option Register
  | .operation action _ => action.dest?
  | .function dest _ _ _ => some dest
  | .data dest _ _ _ _ => some dest
  | .dataType dest _ _ => some dest
  | .jump _ _ => none
  | .jumpUnless _ _ _ => none
  | .label _ _ => none

theorem Node.registers_eq (node : Node) : node.registers = node.dest?.toList ++ node.sources := by
  cases node with
  | operation action span => cases action <;> rfl
  | function | data | dataType | jump | jumpUnless | label => rfl

def Node.fallsThrough : Node -> Bool
  | .operation action _ => !action.isTerminator
  | .jump _ _ => false
  | _ => true

theorem Node.dest?_eq_none_of_isTerminator {node : Node} (stops : node.isTerminator = true) :
    node.dest? = none := by
  cases node with
  | operation action span =>
      cases action with
      | tailCall | leave | exit => rfl
      | beginFixpoint | derefFixpoint | endFixpoint | copy | member | literal | primitive | call =>
          cases stops
  | function | data | dataType | jump | jumpUnless | label => cases stops

namespace Block

/-!
## Flow of control
-/

/-- Control may pass from the node at the one position to the other position. -/
inductive Flows (nodes : List Node) (position : Nat) (node : Node) : Nat -> Prop where
  | on (falls : node.fallsThrough = true) : Flows nodes position node (position + 1)
  | jump {target : Label} {goal : Nat} (jumps : node.target? = some target)
      (stands : labelPosition? target nodes = some goal) : Flows nodes position node goal

theorem not_flows_of_isTerminator {nodes : List Node} {position next : Nat} {node : Node}
    (stops : node.isTerminator = true) : ¬ Flows nodes position node next := by
  intro flows
  cases node with
  | operation action span =>
      cases flows with
      | on falls =>
          rw [Node.fallsThrough, Bool.not_eq_true', ← Bool.not_eq_true] at falls
          exact falls stops
      | jump jumps => cases jumps
  | function | data | dataType | jump | jumpUnless | label => cases stops

theorem fallsThrough_of_produces {state : State} {node : Node} {dest : Register}
    {value : Value Body} {cells : Cells Body} (produced : state.Produces node dest value cells) :
    node.fallsThrough = true := by
  cases produced <;> rfl

/-- Control may come from the start of a block to the position and write these registers on its
way. -/
inductive Path (nodes : List Node) : Nat -> List Register -> Prop where
  | start : Path nodes 0 []
  | step {position next : Nat} {written : List Register} {node : Node}
      (path : Path nodes position written) (found : nodes[position]? = some node)
      (flows : Flows nodes position node next) : Path nodes next (written ++ node.dest?.toList)

/-!
## Paths and runs
-/

def Frame.OnPath (frame : Frame) : Prop :=
  exists written, Path frame.body.block.nodes frame.position written

structure State.OnPaths (state : State) : Prop where
  frame : state.frame.OnPath
  callers : forall caller, caller ∈ state.callers -> caller.frame.OnPath

theorem onPaths_start (tree : Block) : (State.start tree).OnPaths :=
  ⟨⟨[], .start⟩, List.forall_mem_nil _⟩

theorem Frame.OnPath.flows {frame after : Frame} {node : Node} (onPath : frame.OnPath)
    (found : frame.node? = some node) (same : after.body = frame.body)
    (flows : Flows frame.body.block.nodes frame.position node after.position) : after.OnPath := by
  rcases onPath with ⟨written, path⟩
  unfold Frame.OnPath
  rw [same]
  exact ⟨_, path.step found flows⟩

theorem State.OnPaths.leads {state after : State} {node : Node} (onPaths : state.OnPaths)
    (found : state.frame.node? = some node) (leads : state.Leads node after) : after.OnPaths := by
  cases leads with
  | store produced written =>
      rcases Frame.write_eq_ok_iff.mp written with ⟨_, rfl⟩
      exact ⟨onPaths.frame.flows found rfl (.on (fallsThrough_of_produces produced)),
        onPaths.callers⟩
  | endFixpoint | holds | label => exact ⟨onPaths.frame.flows found rfl (.on rfl), onPaths.callers⟩
  | call =>
      have waits : state.frame.advance.OnPath := onPaths.frame.flows found rfl (.on rfl)
      exact ⟨⟨[], .start⟩, List.forall_mem_cons.mpr ⟨waits, onPaths.callers⟩⟩
  | tailCall => exact ⟨⟨[], .start⟩, onPaths.callers⟩
  | leave _ waiting written =>
      have callers := onPaths.callers
      rw [waiting] at callers
      rcases Frame.write_eq_ok_iff.mp written with ⟨_, rfl⟩
      rcases List.forall_mem_cons.mp callers with ⟨first, others⟩
      exact ⟨first, others⟩
  | jump stands | fails _ stands =>
      exact ⟨onPaths.frame.flows found rfl (.jump rfl stands), onPaths.callers⟩

/-- Whatever a tree of blocks does when it is run, it stays on paths through its blocks. -/
theorem onPaths_of_steps {tree : Block} {count : Nat} {state : State}
    (steps : process.Steps count (.start tree) state) : state.OnPaths := by
  apply steps.invariant _ (onPaths_start tree)
  intro state after moved onPaths
  rcases State.step_eq_next_iff.mp (process_eq_again_iff.mp moved) with ⟨node, found, leads⟩
  exact onPaths.leads found leads

/-!
## Discipline
-/

/-- The register has been filled by the caller, or it has been written. -/
def Filled (block : Block) (written : List Register) (register : Register) : Prop :=
  register.index < block.parameters ∨ register ∈ written

structure Disciplined (block : Block) : Prop where
  /-- Whatever is read has been filled before. -/
  reads : forall position written node, Path block.nodes position written ->
    block.nodes[position]? = some node -> forall register, register ∈ node.sources ->
      block.Filled written register
  /-- No path writes a register twice. -/
  once : forall position written, Path block.nodes position written -> written.Nodup
  /-- Parameters are not written at all. -/
  spares : forall node register, node ∈ block.nodes -> node.dest? = some register ->
    block.parameters <= register.index
  /-- All other registers of the frame are written somewhere. -/
  fills : forall index, block.parameters <= index -> index < block.frameSize ->
    exists node, node ∈ block.nodes ∧ node.dest? = some ⟨index⟩

variable {block : Block} {written later : List Register} {register : Register}

theorem Filled.append (filled : block.Filled written register) (more : List Register) :
    block.Filled (written ++ more) register :=
  filled.imp_right (List.mem_append_left more)

theorem filled_append_self (written : List Register) (register : Register) :
    block.Filled (written ++ [register]) register :=
  .inr (List.mem_append_right written (List.mem_singleton_self register))

/-!
## From a position on
-/

/-- However control goes on from the position, it reads what has been filled and writes nothing
again, until it comes to such an end. -/
inductive Orderly (block : Block) (Ends : Nat -> List Register -> Prop) :
    Nat -> List Register -> Prop where
  | ends {position : Nat} {written : List Register} (ends : Ends position written) :
      Orderly block Ends position written
  | step {position : Nat} {written : List Register} {node : Node}
      (found : block.nodes[position]? = some node)
      (reads : forall register, register ∈ node.sources -> block.Filled written register)
      (fresh : forall register, node.dest? = some register -> register ∉ written)
      (goesOn : forall next, Flows block.nodes position node next ->
        Orderly block Ends next (written ++ node.dest?.toList)) :
      Orderly block Ends position written

abbrev Nowhere (_position : Nat) (_written : List Register) : Prop :=
  False

namespace Orderly

variable {Ends Last : Nat -> List Register -> Prop} {position goal : Nat} {node : Node}
  {span : Span} {target : Label}

theorem followed (orderly : Orderly block Ends position written)
    (more : forall goal later, Ends goal later -> Orderly block Last goal later) :
    Orderly block Last position written := by
  induction orderly with
  | ends ends => exact more _ _ ends
  | step found reads fresh _ ih => exact .step found reads fresh ih

theorem mono (orderly : Orderly block Ends position written)
    (weaker : forall goal later, Ends goal later -> Last goal later) :
    Orderly block Last position written :=
  orderly.followed fun goal later ends => .ends (weaker goal later ends)

theorem plain (found : block.nodes[position]? = some node) (plain : node.target? = none)
    (reads : forall register, register ∈ node.sources -> block.Filled written register)
    (fresh : forall register, node.dest? = some register -> register ∉ written)
    (rest : Orderly block Ends (position + 1) (written ++ node.dest?.toList)) :
    Orderly block Ends position written := by
  apply Orderly.step found reads fresh
  intro next flows
  cases flows with
  | on => exact rest
  | jump jumps =>
      rw [plain] at jumps
      cases jumps

theorem silent (found : block.nodes[position]? = some node) (plain : node.target? = none)
    (silent : node.dest? = none)
    (reads : forall register, register ∈ node.sources -> block.Filled written register)
    (rest : Orderly block Ends (position + 1) written) : Orderly block Ends position written := by
  apply Orderly.plain found plain reads
  · intro register writes
    rw [silent] at writes
    cases writes
  · rw [silent, Option.toList_none, List.append_nil]
    exact rest

theorem write (found : block.nodes[position]? = some node) (plain : node.target? = none)
    (writes : node.dest? = some register) (fresh : register ∉ written)
    (reads : forall register, register ∈ node.sources -> block.Filled written register)
    (rest : Orderly block Ends (position + 1) (written ++ [register])) :
    Orderly block Ends position written := by
  apply Orderly.plain found plain reads
  · intro other same
    rw [writes] at same
    cases same
    exact fresh
  · rw [writes]
    exact rest

theorem stop (found : block.nodes[position]? = some node) (stops : node.isTerminator = true)
    (reads : forall register, register ∈ node.sources -> block.Filled written register) :
    Orderly block Ends position written := by
  apply Orderly.step found reads
  · intro register writes
    rw [Node.dest?_eq_none_of_isTerminator stops] at writes
    cases writes
  · intro next flows
    exact absurd flows (not_flows_of_isTerminator stops)

theorem jump (found : block.nodes[position]? = some (.jump target span))
    (stands : labelPosition? target block.nodes = some goal)
    (rest : Orderly block Ends goal written) : Orderly block Ends position written := by
  apply Orderly.step found (fun _ reads => nomatch reads) (fun _ writes => nomatch writes)
  intro next flows
  cases flows with
  | on falls => cases falls
  | jump jumps own =>
      cases jumps
      rw [stands] at own
      cases own
      rw [Node.dest?, Option.toList_none, List.append_nil]
      exact rest

theorem jumpUnless {test : Register}
    (found : block.nodes[position]? = some (.jumpUnless test target span))
    (stands : labelPosition? target block.nodes = some goal)
    (filled : block.Filled written test) (holds : Orderly block Ends (position + 1) written)
    (fails : Orderly block Ends goal written) : Orderly block Ends position written := by
  apply Orderly.step found ?_ (fun _ writes => nomatch writes)
  · intro next flows
    rw [Node.dest?, Option.toList_none, List.append_nil]
    cases flows with
    | on => exact holds
    | jump jumps own =>
        cases jumps
        rw [stands] at own
        cases own
        exact fails
  · intro register reads
    rcases List.mem_singleton.mp reads with rfl
    exact filled

variable (orderly : Orderly block Nowhere 0 [])

include orderly

theorem along (path : Path block.nodes position written) :
    Orderly block Nowhere position written := by
  induction path with
  | start => exact orderly
  | step _ found flows ih =>
      cases ih with
      | ends ends => exact ends.elim
      | step own _ _ goesOn =>
          rw [found] at own
          cases own
          exact goesOn _ flows

theorem filled_of_path (path : Path block.nodes position written)
    (found : block.nodes[position]? = some node) (reads : register ∈ node.sources) :
    block.Filled written register := by
  cases orderly.along path with
  | ends ends => exact ends.elim
  | step own filled _ _ =>
      rw [found] at own
      cases own
      exact filled register reads

theorem nodup_of_path (path : Path block.nodes position written) : written.Nodup := by
  induction path with
  | start => exact List.nodup_nil
  | @step position next written node path found _ ih =>
      cases orderly.along path with
      | ends ends => exact ends.elim
      | step own _ fresh _ =>
          rw [found] at own
          cases own
          cases writes : node.dest? with
          | none =>
              rw [Option.toList_none, List.append_nil]
              exact ih
          | some register =>
              rw [Option.toList_some, ← List.concat_eq_append]
              exact List.Nodup.concat (fresh register writes) ih

end Orderly

end Block
end StrictLambda
