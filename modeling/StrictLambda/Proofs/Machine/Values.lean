import StrictLambda.Proofs.Execution.Machine
import StrictLambda.Proofs.Layout.Frames
import StrictLambda.Proofs.Machine.Steps

/-!
# The values of a machine

The values a machine works with are those on its stack and in its cells, and what is inside of them.
Instructions move values around and add at most one new one, so a property that every new value has
holds of all values a run of any program comes through.  One such property is that a data value
agrees with its declaration.
-/

namespace StrictLambda

variable {Holds : Value Entry -> Prop}

/-!
## Stacks
-/

def Stack.AllValues (Holds : Value Entry -> Prop) (stack : Stack) : Prop :=
  forall value, Slot.value value ∈ stack.slots.toList -> value.Everywhere Holds

namespace Stack

variable {stack after : Stack} {base : Nat} {register : Register} {value : Value Entry}

theorem getElem?_of_read (read : stack.read base register = .ok value) :
    stack.slots[base + headerSize + register.index]? = some (.value value) := by
  unfold Stack.read at read
  split at read
  · next stored =>
      cases read
      exact stored
  · cases read
  · cases read
  · cases read
  · cases read

theorem exists_read_of_readAll {registers : List Register} {values : List (Value Entry)}
    (all : stack.readAll base registers = .ok values) (member : value ∈ values) :
    exists register, stack.read base register = .ok value := by
  induction registers generalizing values with
  | nil =>
      cases all
      cases member
  | cons register rest ih =>
      rcases bind_eq_ok_iff.mp all with ⟨head, read, all⟩
      rcases bind_eq_ok_iff.mp all with ⟨others, later, last⟩
      cases last
      rcases List.mem_cons.mp member with rfl | inside
      · exact ⟨register, read⟩
      · exact ih later inside

theorem write_eq_ok_iff :
    stack.write base register value = .ok after ↔
      base + headerSize + register.index < stack.size ∧
        after.slots.toList =
          stack.slots.toList.set (base + headerSize + register.index) (.value value) := by
  unfold write Stack.size
  dsimp only
  split
  · next inside =>
      rw [← Array.toList_set stack.slots _ _ inside, Array.toList_inj]
      constructor
      · intro written
        cases written
        exact ⟨inside, rfl⟩
      · rintro ⟨_, same⟩
        rw [← same]
  · next outside =>
      apply iff_of_false
      · exact fun written => nomatch written
      · exact fun written => outside written.1

theorem toList_truncate (stack : Stack) (size : Nat) :
    (stack.truncate size).slots.toList = stack.slots.toList.take size :=
  Array.toList_shrink

theorem AllValues.read (all : stack.AllValues Holds)
    (read : stack.read base register = .ok value) : value.Everywhere Holds := by
  have stored := getElem?_of_read read
  rw [← Array.getElem?_toList] at stored
  exact all value (List.mem_of_getElem? stored)

theorem AllValues.readAll (all : stack.AllValues Holds) {registers : List Register}
    {values : List (Value Entry)} (read : stack.readAll base registers = .ok values) :
    forall value, value ∈ values -> value.Everywhere Holds := by
  intro value member
  rcases exists_read_of_readAll read member with ⟨register, single⟩
  exact all.read single

theorem AllValues.write (all : stack.AllValues Holds) (here : value.Everywhere Holds)
    (written : stack.write base register value = .ok after) : after.AllValues Holds := by
  intro other member
  rw [(write_eq_ok_iff.mp written).2] at member
  rcases List.mem_or_eq_of_mem_set member with old | new
  · exact all other old
  · cases new
    exact here

theorem AllValues.truncate (all : stack.AllValues Holds) (size : Nat) :
    (stack.truncate size).AllValues Holds := by
  intro value member
  rw [toList_truncate] at member
  exact all value (List.mem_of_mem_take member)

theorem AllValues.enter {saved : Nat} {address : Address} {argument : Value Entry} {entry : Entry}
    {captures : List (Value Entry)} (all : stack.AllValues Holds)
    (here : argument.Everywhere Holds)
    (inside : forall capture, capture ∈ captures -> capture.Everywhere Holds) :
    (stack.enter saved address argument entry captures).AllValues Holds := by
  intro value member
  rw [hasTop_enter stack saved address argument entry captures] at member
  rcases List.mem_append.mp member with below | above
  · exact all value below
  · have register : some value ∈ enteredRegisters entry.frameSize argument captures := by
      simp only [frameSlots, List.mem_cons, List.mem_map, reduceCtorEq, false_or] at above
      rcases above with ⟨content, stored, same⟩
      cases content with
      | none => cases same
      | some own =>
          cases same
          exact stored
    have laid := List.mem_of_mem_take register
    simp only [List.cons_append, List.mem_cons, Option.some.injEq, List.mem_append, List.mem_map,
      exists_eq_right, List.mem_replicate, reduceCtorEq, and_false, or_false] at laid
    rcases laid with rfl | capture
    · exact here
    · exact inside value capture

theorem allValues_outermost (frameSize : Nat) : (outermost frameSize).AllValues Holds := by
  intro value member
  simp [outermost] at member

end Stack

/-!
## States
-/

structure State.AllValues (Holds : Value Entry -> Prop) (state : State) : Prop where
  stack : state.stack.AllValues Holds
  cells : forall cell value, state.cells.content? cell = some value -> value.Everywhere Holds

/-- The value can be come to from the stack, through what functions have captured, the fields of
data values and the contents of cells. -/
inductive State.Reaches (state : State) : Value Entry -> Prop where
  | slot {value : Value Entry} (stored : Slot.value value ∈ state.stack.slots.toList) :
      Reaches state value
  | part {whole value : Value Entry} (reached : Reaches state whole)
      (inside : value ∈ whole.parts) : Reaches state value
  | content {cell : Cell} {value : Value Entry} (reached : Reaches state (.fixpoint cell))
      (tied : state.cells.content? cell = some value) : Reaches state value

theorem State.AllValues.reaches {state : State} {value : Value Entry}
    (all : state.AllValues Holds) (reached : state.Reaches value) : value.Everywhere Holds := by
  induction reached with
  | slot stored => exact all.stack _ stored
  | part _ inside ih => exact ih.inside inside
  | content _ tied _ => exact all.cells _ _ tied

/-- The property holds of whatever an instruction can make that leaves these cells behind. -/
structure Value.AllNew (Holds : Value Entry -> Prop) (cells : Cells Entry) : Prop where
  literal : forall value : Value Entry, value.IsLiteral -> Holds value
  dataType : forall declaration, Holds (.dataType declaration)
  cell : forall cell : Cell, cell.index < cells.size -> Holds (.fixpoint cell)
  function : forall entry captures, Holds (.function entry captures)
  data : forall declaration tag fields,
    (Value.data declaration tag fields : Value Entry).Declared ->
      Holds (.data declaration tag fields)

theorem Value.allNew_declared (cells : Cells Entry) : Value.AllNew Value.Declared cells where
  literal := by
  -- Data values are made by one instruction only, and it looks at the declaration.
    rintro value ⟨literal, rfl⟩
    cases literal <;> exact trivial
  dataType _ := trivial
  cell _ _ := trivial
  function _ _ := trivial
  data _ _ _ declared := declared

namespace State

variable {program : Program} {state after : State} {instruction : Instruction} {dest : Register}
  {value : Value Entry} {cells : Cells Entry}

theorem AllValues.produces (all : state.AllValues Holds) (new : Value.AllNew Holds cells)
    (produced : state.Produces program instruction dest value cells) :
    value.Everywhere Holds ∧
      forall cell content, cells.content? cell = some content -> content.Everywhere Holds := by
  have same := all.cells
  cases produced with
  | beginFixpoint =>
      constructor
      · refine .of_no_parts (new.cell _ ?_) rfl
        rw [Cells.size_allocate]
        exact Nat.lt_succ_self _
      · intro cell content holds
        rw [Cells.content?_allocate] at holds
        exact same cell content holds
  | derefFixpoint _ content => exact ⟨same _ _ (Cells.content?_of_read content), same⟩
  | copy read => exact ⟨all.stack.read read, same⟩
  | member read accessed =>
      exact ⟨(all.stack.read read).inside (Value.mem_parts_of_member accessed), same⟩
  | @literal _ written =>
      have literal : (Value.ofLiteral written : Value Entry).IsLiteral :=
        Value.isLiteral_ofLiteral written
      exact ⟨.of_no_parts (new.literal _ literal) literal.parts_eq_nil, same⟩
  | primitive _ _ applied =>
      have literal := Operator.isLiteral_of_apply applied
      exact ⟨.of_no_parts (new.literal _ literal) literal.parts_eq_nil, same⟩
  | function _ read => exact ⟨.intro (new.function _ _) (all.stack.readAll read), same⟩
  | data _ named _ read arity =>
      exact ⟨.intro (new.data _ _ _ ⟨_, named, arity⟩) (all.stack.readAll read), same⟩
  | dataType => exact ⟨.of_no_parts (new.dataType _) rfl, same⟩

theorem AllValues.leads (all : state.AllValues Holds) (new : Value.AllNew Holds after.cells)
    (leads : state.Leads program instruction after) : after.AllValues Holds := by
  cases leads with
  | store produced written =>
      rcases all.produces new produced with ⟨here, cells⟩
      exact ⟨all.stack.write here written, cells⟩
  | endFixpoint _ read tied =>
      constructor
      · exact all.stack
      · intro cell content holds
        rcases Cells.eq_or_content?_of_tie tied holds with rfl | old
        · exact all.stack.read read
        · exact all.cells cell content old
  | call callee read =>
      refine ⟨all.stack.enter (all.stack.read read) ?_, all.cells⟩
      intro capture member
      exact (all.stack.read callee).inside member
  | tailCall callee read _ =>
      refine ⟨(all.stack.truncate state.base).enter (all.stack.read read) ?_, all.cells⟩
      intro capture member
      exact (all.stack.read callee).inside member
  | leave read _ _ _ written =>
      exact ⟨(all.stack.truncate _).write (all.stack.read read) written, all.cells⟩
  | jump | jumpUnless => exact ⟨all.stack, all.cells⟩

theorem AllValues.mono {Other : Value Entry -> Prop}
    (weaker : forall value, Holds value -> Other value) (all : state.AllValues Holds) :
    state.AllValues Other where
  stack value member := (all.stack value member).mono weaker
  cells cell value content := (all.cells cell value content).mono weaker

theorem allValues_start (program : Program) : (State.start program).AllValues Holds where
  stack := Stack.allValues_outermost _
  cells := by
    intro cell value content
    simp [State.start, Cells.empty, Cells.content?] at content

end State

namespace Program

variable {program : Program} {state later : State} {count : Nat}

theorem kept_of_steps {Kept : State -> Prop}
    (leads : forall before instruction span after,
      program.fetch? before.pc = some (instruction, span) ->
        before.Leads program instruction after -> Kept before -> Kept after)
    (steps : program.process.Steps count state later) (kept : Kept state) : Kept later := by
  apply steps.invariant _ kept
  intro before after moved
  rcases State.leads_of_step (process_eq_again_iff.mp moved) with
    ⟨instruction, span, fetched, step⟩
  exact leads before instruction span after fetched step

theorem allValues_of_reachable (new : forall cells, Value.AllNew Holds cells)
    (reachable : program.Reachable state) : state.AllValues Holds := by
  rcases reachable with ⟨count, steps⟩
  apply kept_of_steps _ steps (State.allValues_start program)
  intro before instruction span after _ leads all
  exact all.leads (new after.cells) leads

theorem declared_of_reachable (reachable : program.Reachable state) :
    state.AllValues Value.Declared :=
  allValues_of_reachable Value.allNew_declared reachable

end Program
end StrictLambda
