import StrictLambda.Proofs.Block.Fixpoints
import StrictLambda.Proofs.Block.Values

/-!
# Cells of open fixpoints

If the fixpoints of every block lie inside of one another, then a run finds in the register of an
open fixpoint the cell that was made when it was begun, and finds it empty.  For nobody else writes
the register, no two open fixpoints have the same cell, in whatever frames they are, and a cell is
tied where its fixpoint ends.
-/

namespace StrictLambda

/-!
## Empty cells
-/

namespace Cells

variable {Code : Type} {cells after : Cells Code} {cell other : Cell} {value : Value Code}

def Pending (cells : Cells Code) (cell : Cell) : Prop :=
  cell.index < cells.size ∧ cells.content? cell = none

theorem Pending.allocate (pending : cells.Pending cell) : cells.allocate.2.Pending cell := by
  unfold Pending
  rw [size_allocate, content?_allocate]
  exact ⟨Nat.lt_succ_of_lt pending.1, pending.2⟩

theorem pending_next (cells : Cells Code) : cells.allocate.2.Pending cells.allocate.1 := by
  unfold Pending
  rw [size_allocate, content?_allocate]
  exact ⟨Nat.lt_succ_self _, content?_next cells⟩

theorem not_pending_next (cells : Cells Code) : ¬ cells.Pending cells.allocate.1 :=
  fun pending => Nat.lt_irrefl _ pending.1

theorem Pending.tie (pending : cells.Pending other) (tied : cells.tie cell value = .ok after)
    (differs : other ≠ cell) : after.Pending other := by
  unfold Pending
  rw [size_of_tie tied, content?_of_tie_of_ne tied differs]
  exact pending

end Cells

namespace Block

/-!
## Blocks of a run
-/

def MadeOf (Kind : Block -> Prop) : Value Body -> Prop
  | .function body _ => Kind body.block
  | _ => True

structure State.RunsOnly (Kind : Block -> Prop) (state : State) : Prop where
  frame : Kind state.frame.body.block
  callers : forall caller, caller ∈ state.callers -> Kind caller.frame.body.block
  values : state.AllValues (MadeOf Kind)

def Inherited (Kind : Block -> Prop) : Prop :=
  forall block dest created captures span, Kind block ->
    Node.function dest created captures span ∈ block.nodes -> Kind created

section Blocks

variable {Kind : Block -> Prop} {state after : State} {node : Node}

theorem State.RunsOnly.creates (runs : state.RunsOnly Kind) (inherited : Inherited Kind) :
    state.Creates (MadeOf Kind) where
  literal value literal := by
    rcases literal with ⟨literal, rfl⟩
    cases literal <;> exact trivial
  dataType _ := trivial
  cell _ := trivial
  function found _ := inherited _ _ _ _ _ runs.frame (List.mem_of_getElem? found)
  data _ _ _ _ := trivial

theorem State.RunsOnly.leads (runs : state.RunsOnly Kind) (inherited : Inherited Kind)
    (found : state.frame.node? = some node) (leads : state.Leads node after) :
    after.RunsOnly Kind := by
  have values := runs.values.leads (runs.creates inherited) found leads
  cases leads with
  | store _ written =>
      rcases Frame.write_eq_ok_iff.mp written with ⟨_, rfl⟩
      exact ⟨runs.frame, runs.callers, values⟩
  | endFixpoint | jump | holds | fails | label => exact ⟨runs.frame, runs.callers, values⟩
  | call callee =>
      have made : Kind _ := (runs.values.frame.read callee).here
      exact ⟨made, List.forall_mem_cons.mpr ⟨runs.frame, runs.callers⟩, values⟩
  | tailCall callee => exact ⟨(runs.values.frame.read callee).here, runs.callers, values⟩
  | leave _ waiting written =>
      have callers := runs.callers
      rw [waiting] at callers
      rcases List.forall_mem_cons.mp callers with ⟨first, others⟩
      rcases Frame.write_eq_ok_iff.mp written with ⟨_, rfl⟩
      exact ⟨first, others, values⟩

end Blocks

/-!
## Frames
-/

namespace Frame

variable {frame after : Frame} {places : List Register} {own : List Cell}

def opened (frame : Frame) : List Register :=
  openAt frame.body.block.nodes frame.position

def Keeps (frame : Frame) (places : List Register) (own : List Cell) : Prop :=
  List.Forall₂ (fun register cell => frame.read register = .ok (.fixpoint cell)) places own

theorem read_of_write_of_ne {register dest : Register} {value found : Value Body}
    (written : frame.write dest value = .ok after) (differs : register ≠ dest)
    (read : frame.read register = .ok found) : after.read register = .ok found := by
  rcases write_eq_ok_iff.mp written with ⟨_, rfl⟩
  rw [read_eq_ok_iff] at read ⊢
  have apart : dest.index ≠ register.index :=
    fun same => differs (congrArg Register.mk same.symm)
  rw [List.getElem?_set_ne apart]
  exact read

theorem read_of_write_self {dest : Register} {value : Value Body}
    (written : frame.write dest value = .ok after) : after.read dest = .ok value := by
  rcases write_eq_ok_iff.mp written with ⟨inside, rfl⟩
  rw [read_eq_ok_iff, List.getElem?_set_self inside]

theorem Keeps.write (keeps : frame.Keeps places own) {dest : Register} {value : Value Body}
    (written : frame.write dest value = .ok after) (spared : dest ∉ places) :
    after.Keeps places own := by
  unfold Keeps at keeps ⊢
  induction keeps with
  | nil => exact .nil
  | cons read _ ih =>
      rw [List.mem_cons, not_or] at spared
      exact .cons (read_of_write_of_ne written (Ne.symm spared.1) read) (ih spared.2)

end Frame

/-- The frames that wait hold the cells of their open fixpoints, and none of them is about to lose
one to the result it waits for. -/
inductive CallersKeep : List Caller -> List Cell -> Prop where
  | nil : CallersKeep [] []
  | cons {caller : Caller} {rest : List Caller} {own others : List Cell}
      (keeps : caller.frame.Keeps caller.frame.opened own)
      (spared : caller.dest ∉ caller.frame.opened) (older : CallersKeep rest others) :
      CallersKeep (caller :: rest) (own ++ others)

/-!
## States
-/

/-- The open fixpoints of the running frame have the first cells, those of its callers the others.
All of these are different, and all of them are empty. -/
structure State.Keeps (state : State) (own others : List Cell) : Prop where
  frame : state.frame.Keeps state.frame.opened own
  callers : CallersKeep state.callers others
  distinct : (own ++ others).Nodup
  pending : forall cell, cell ∈ own ++ others -> state.cells.Pending cell

theorem dest?_of_produces {state : State} {node : Node} {dest : Register} {value : Value Body}
    {cells : Cells Body} (produced : state.Produces node dest value cells) :
    node.dest? = some dest := by
  cases produced <;> rfl

theorem begins_or_steady {state : State} {node : Node} {dest : Register} {value : Value Body}
    {cells : Cells Body} (produced : state.Produces node dest value cells) :
    (exists span, node = .operation (.beginFixpoint dest) span ∧
      value = .fixpoint state.cells.allocate.1 ∧ cells = state.cells.allocate.2) ∨
    (node.Steady ∧ cells = state.cells) := by
  cases produced with
  | beginFixpoint => exact .inl ⟨_, rfl, rfl, rfl⟩
  | derefFixpoint | copy | member | literal | primitive | function | data | dataType =>
      exact .inr ⟨fun _ => rfl, rfl⟩

namespace State

variable {state after : State} {node : Node} {own others : List Cell}

theorem keeps_start (tree : Block) : (State.start tree).Keeps [] [] :=
  ⟨.nil, .nil, List.nodup_nil, List.forall_mem_nil _⟩

theorem Keeps.begin (keeps : state.Keeps own others) {dest : Register} {frame : Frame} {span : Span}
    (found : state.frame.node? = some (.operation (.beginFixpoint dest) span))
    (spared : dest ∉ state.frame.opened)
    (written : state.frame.write dest (.fixpoint state.cells.allocate.1) = .ok frame) :
    State.Keeps { state with frame := frame.advance, cells := state.cells.allocate.2 }
      (state.cells.allocate.1 :: own) others := by
  have kept := keeps.frame.write written spared
  have read := Frame.read_of_write_self written
  rcases Frame.write_eq_ok_iff.mp written with ⟨_, rfl⟩
  refine ⟨?_, keeps.callers, ?_, ?_⟩
  · unfold Frame.opened
    simp only [Frame.advance, Frame.goto]
    rw [openAt_succ found]
    exact .cons read kept
  · refine List.nodup_cons.mpr ⟨?_, keeps.distinct⟩
    intro known
    exact Cells.not_pending_next _ (keeps.pending _ known)
  · refine List.forall_mem_cons.mpr ⟨Cells.pending_next _, ?_⟩
    intro cell known
    exact (keeps.pending cell known).allocate

theorem Keeps.exists_cell (keeps : state.Keeps own others) {fixpoint : Register}
    (innermost : state.frame.opened.head? = some fixpoint) :
    exists cell rest outer, own = cell :: rest ∧ state.frame.opened = fixpoint :: outer ∧
      state.frame.read fixpoint = .ok (.fixpoint cell) ∧ state.frame.Keeps outer rest ∧
      state.cells.Pending cell := by
  have kept := keeps.frame
  cases opened : state.frame.opened with
  | nil =>
      rw [opened] at innermost
      cases innermost
  | cons first outer =>
      rw [opened] at innermost kept
      cases innermost
      cases kept with
      | @cons _ cell _ rest read inner =>
          exact ⟨cell, rest, outer, rfl, rfl, read, inner,
            keeps.pending cell List.mem_cons_self⟩

theorem Keeps.close (keeps : state.Keeps own others) {fixpoint source : Register} {span : Span}
    (found : state.frame.node? = some (.operation (.endFixpoint fixpoint source) span))
    (innermost : state.frame.opened.head? = some fixpoint) {cell : Cell} {value : Value Body}
    {cells : Cells Body} (read : state.frame.read fixpoint = .ok (.fixpoint cell))
    (tied : state.cells.tie cell value = .ok cells) :
    exists rest, State.Keeps { state with frame := state.frame.advance, cells := cells }
      rest others := by
  rcases keeps.exists_cell innermost with ⟨first, rest, outer, rfl, opened, readFirst, inner, _⟩
  cases readFirst.symm.trans read
  rcases List.nodup_cons.mp keeps.distinct with ⟨apart, distinct⟩
  refine ⟨rest, ?_, keeps.callers, distinct, ?_⟩
  · have advanced : state.frame.advance.opened = outer := by
      unfold Frame.opened at opened ⊢
      simp only [Frame.advance, Frame.goto]
      rw [openAt_succ found, Node.reopen, opened, List.tail_cons]
    rw [advanced]
    exact inner
  · intro other known
    have pending := keeps.pending other (List.mem_cons_of_mem _ known)
    exact pending.tie tied fun same => apart (same ▸ known)

theorem Keeps.goto (keeps : state.Keeps own others) {position : Nat}
    (same : openAt state.frame.body.block.nodes position = state.frame.opened) :
    State.Keeps { state with frame := state.frame.goto position } own others := by
  refine ⟨?_, keeps.callers, keeps.distinct, keeps.pending⟩
  have opened : (state.frame.goto position).opened = state.frame.opened := same
  rw [opened]
  exact keeps.frame

theorem keeps_enter {callers : List Caller} {cells : Cells Body} {all : List Cell} (body : Body)
    (argument : Value Body) (captures : List (Value Body)) (waiting : CallersKeep callers all)
    (distinct : all.Nodup) (pending : forall cell, cell ∈ all -> cells.Pending cell) :
    State.Keeps ⟨.enter body argument captures, callers, cells⟩ [] all :=
  ⟨.nil, waiting, distinct, pending⟩

theorem Keeps.leads (keeps : state.Keeps own others)
    (nests : state.frame.body.block.NestsFixpoints) (found : state.frame.node? = some node)
    (leads : state.Leads node after) : exists own others, after.Keeps own others := by
  have respects := nests.respects _ _ found
  have advances : node.Steady -> openAt state.frame.body.block.nodes (state.frame.position + 1) =
      state.frame.opened := fun steady => (openAt_succ found).trans (steady _)
  cases leads with
  | store produced written =>
      have spared := respects.spares _ (dest?_of_produces produced)
      rcases begins_or_steady produced with ⟨span, rfl, rfl, rfl⟩ | ⟨steady, rfl⟩
      · exact ⟨_, _, keeps.begin found spared written⟩
      · have kept := keeps.frame.write written spared
        rcases Frame.write_eq_ok_iff.mp written with ⟨_, rfl⟩
        have stored : State.Keeps { state with frame := _ } own others :=
          ⟨kept, keeps.callers, keeps.distinct, keeps.pending⟩
        exact ⟨own, others, stored.goto (advances steady)⟩
  | endFixpoint read _ tied =>
      rcases keeps.close found (respects.ends _ _ _ rfl) read tied with ⟨rest, kept⟩
      exact ⟨rest, others, kept⟩
  | @call dest =>
      have waits := keeps.goto (advances fun _ => rfl)
      have callers :
          CallersKeep (⟨state.frame.advance, dest⟩ :: state.callers) (own ++ others) := by
        refine .cons waits.frame ?_ keeps.callers
        have opened : state.frame.advance.opened = state.frame.opened := advances fun _ => rfl
        rw [opened]
        exact respects.spares _ rfl
      exact ⟨[], _, keeps_enter _ _ _ callers keeps.distinct keeps.pending⟩
  | tailCall =>
      have distinct := (List.nodup_append.mp keeps.distinct).2.1
      have pending := fun cell known => keeps.pending cell (List.mem_append_right own known)
      exact ⟨[], _, keeps_enter _ _ _ keeps.callers distinct pending⟩
  | leave _ waiting written =>
      have callers := keeps.callers
      rw [waiting] at callers
      cases callers with
      | @cons _ _ first older kept spared rest =>
          have kept := kept.write written spared
          rcases Frame.write_eq_ok_iff.mp written with ⟨_, rfl⟩
          have distinct := (List.nodup_append.mp keeps.distinct).2.1
          have pending := fun cell known => keeps.pending cell (List.mem_append_right own known)
          exact ⟨first, older, kept, rest, distinct, pending⟩
  | jump stands | fails _ stands =>
      exact ⟨own, others, keeps.goto (nests.jumps _ _ _ _ found rfl stands)⟩
  | holds | label => exact ⟨own, others, keeps.goto (advances fun _ => rfl)⟩

end State

/-!
## Runs
-/

variable {Kind : Block -> Prop} {tree : Block} {state : State}

theorem keeps_of_reachable (inherited : Inherited Kind)
    (nests : forall block, Kind block -> block.NestsFixpoints) (outermost : Kind tree)
    (reachable : tree.Reachable state) :
    state.RunsOnly Kind ∧ exists own others, state.Keeps own others := by
  rcases reachable with ⟨count, steps⟩
  have runs : (State.start tree).RunsOnly Kind :=
    ⟨outermost, List.forall_mem_nil _, State.allValues_start tree⟩
  apply steps.invariant _ ⟨runs, [], [], State.keeps_start tree⟩
  intro state after moved kept
  rcases kept with ⟨runs, own, others, keeps⟩
  rcases State.step_eq_next_iff.mp (process_eq_again_iff.mp moved) with ⟨node, found, leads⟩
  exact ⟨runs.leads inherited found leads, keeps.leads (nests _ runs.frame) found leads⟩

theorem exists_cell_of_endFixpoint (inherited : Inherited Kind)
    (nests : forall block, Kind block -> block.NestsFixpoints) (outermost : Kind tree)
    (reachable : tree.Reachable state) {fixpoint source : Register} {span : Span}
    (found : state.frame.node? = some (.operation (.endFixpoint fixpoint source) span)) :
    exists cell, state.frame.read fixpoint = .ok (.fixpoint cell) ∧
      state.cells.content? cell = none := by
  rcases keeps_of_reachable inherited nests outermost reachable with ⟨runs, own, others, keeps⟩
  have innermost := ((nests _ runs.frame).respects _ _ found).ends _ _ _ rfl
  rcases keeps.exists_cell innermost with ⟨cell, _, _, _, _, read, _, pending⟩
  exact ⟨cell, read, pending.2⟩

end Block
end StrictLambda
