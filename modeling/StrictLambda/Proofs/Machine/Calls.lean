import StrictLambda.Proofs.Layout.Placement
import StrictLambda.Proofs.Machine.FrameChain

/-!
# Calls and their callers

The frames a call finds are a floor to everything the callee does.  Until the frame of the call is
dropped no slot below it changes, and when it is dropped one register of the caller is written.
-/

namespace StrictLambda
namespace State

def Drops (program : Program) (base : Nat) (state : State) : Prop :=
  state.base = base ∧
    exists source span, program.fetch? state.pc = some (.operation (.leave source), span)

variable {program : Program} {floor : List Slot} {first : Nat} {back : Address}
  {state before entered after : State} {dest function argument : Register} {span : Span}

theorem onFloor_of_call
    (fetched : program.fetch? before.pc = some (.operation (.call dest function argument), span))
    (called : program.process before = .again entered) :
    entered.base = before.stack.slots.toList.length ∧
      entered.OnFloor program before.stack.slots.toList before.base before.pc.next := by
  rcases leads_of_step (Program.process_eq_again_iff.mp called) with
    ⟨instruction, _, own, leads⟩
  cases fetched.symm.trans own
  cases leads with
  | store produced _ => cases produced
  | call =>
      have base : before.stack.size = before.stack.slots.toList.length :=
        Array.length_toList.symm
      exact ⟨base, _, _, _, _, .none, base, Stack.hasTop_enter _ _ _ _ _ _⟩

theorem OnFloor.steps (onFloor : state.OnFloor program floor first back) {count : Nat}
    (steps : program.process.Steps count state after)
    (kept : forall earlier passed, earlier < count ->
      program.process.Steps earlier state passed -> ¬ passed.Drops program floor.length) :
    after.OnFloor program floor first back := by
  induction steps with
  | refl state => exact onFloor
  | @step count state next _ moved _ ih =>
      rcases leads_of_step (Program.process_eq_again_iff.mp moved) with
        ⟨instruction, span, fetched, leads⟩
      apply ih
      · apply onFloor.leads fetched leads
        rintro lowest source rfl
        exact kept 0 state (Nat.zero_lt_succ count) (.refl state) ⟨lowest, source, span, fetched⟩
      · intro earlier passed sooner steps
        exact kept (earlier + 1) passed (Nat.succ_lt_succ sooner) (.step moved steps)

theorem OnFloor.base_ge (onFloor : state.OnFloor program floor first back) :
    floor.length <= state.base := by
  rcases onFloor with ⟨below, saved, address, registers, callers, base, top⟩
  rw [base]
  exact callers.floor_isPrefix.length_le

theorem OnFloor.getElem?_eq (onFloor : state.OnFloor program floor first back) {index : Nat}
    (below : index < floor.length) : state.stack.slots.toList[index]? = floor[index]? := by
  rcases onFloor with ⟨lower, saved, address, registers, callers, base, top⟩
  have stays : floor <+: state.stack.slots.toList := by
    rw [top]
    exact callers.floor_isPrefix.trans (List.prefix_append _ _)
  rcases stays with ⟨rest, same⟩
  rw [← same, List.getElem?_append_left below]

theorem OnFloor.returned_of_drops (onFloor : state.OnFloor program floor first back)
    (drops : state.Drops program floor.length) (left : program.process state = .again after) :
    after.Returned program floor first back := by
  rcases drops with ⟨lowest, source, span, fetched⟩
  rcases leads_of_step (Program.process_eq_again_iff.mp left) with ⟨instruction, _, own, leads⟩
  cases fetched.symm.trans own
  exact onFloor.returned lowest leads

theorem OnFloor.eq_halt_of_drops (onFloor : state.OnFloor program floor first back)
    (drops : state.Drops program floor.length) {result : Value Entry × Cells Entry}
    (ended : program.process state = .halt (.ok result)) : back = Address.halt := by
  rcases drops with ⟨lowest, source, span, fetched⟩
  rcases yields_of_step (Program.process_eq_halt_ok_iff.mp ended) with
    ⟨_, instruction, _, own, yields⟩
  cases fetched.symm.trans own
  rcases onFloor.hasTop_lowest lowest with ⟨registers, top⟩
  cases yields with
  | leave _ header =>
      rw [lowest, Stack.header_of_hasTop top] at header
      cases header
      rfl

end State

namespace Program

variable {program : Program} {before entered state : State} {dest function argument : Register}
  {span : Span}

/-- A call does not disturb its caller.  The slots below the frame it pushes stay as they are until
that frame is dropped.  Then the caller's frame runs again at the instruction behind the call, the
stack has its height from before the call, and at most the destination of the call has changed. -/
theorem calls_spare_their_callers
    (fetched : program.fetch? before.pc = some (.operation (.call dest function argument), span))
    (called : program.process before = .again entered) {count : Nat}
    (steps : program.process.Steps count entered state)
    (kept : forall earlier passed, earlier < count ->
      program.process.Steps earlier entered passed -> ¬ passed.Drops program entered.base) :
    (entered.base = before.stack.size ∧ entered.base <= state.base ∧
      forall index, index < entered.base ->
        state.stack.slots[index]? = before.stack.slots[index]?) ∧
    (state.Drops program entered.base ->
      (forall after, program.process state = .again after ->
        after.base = before.base ∧ after.stack.size = before.stack.size ∧
          after.pc = before.pc.next ∧
          forall index, index ≠ before.base + Stack.headerSize + dest.index ->
            after.stack.slots[index]? = before.stack.slots[index]?) ∧
      (program.size < Address.halt.index ->
        forall result, program.process state ≠ .halt (.ok result))) := by
  rcases State.onFloor_of_call fetched called with ⟨base, start⟩
  rw [base] at kept ⊢
  have onFloor := start.steps steps kept
  refine ⟨⟨Array.length_toList, onFloor.base_ge, ?_⟩, ?_⟩
  · intro index below
    rw [← Array.getElem?_toList, ← Array.getElem?_toList]
    exact onFloor.getElem?_eq below
  · intro drops
    constructor
    · intro after left
      rcases onFloor.returned_of_drops drops left with
        ⟨_, pc, own, register, value, waits, slots⟩
      rw [returnRegister_next fetched] at waits
      cases waits
      refine ⟨own, ?_, pc, ?_⟩
      · unfold Stack.size
        rw [← Array.length_toList, slots, List.length_set, Array.length_toList]
      · intro index other
        rw [← Array.getElem?_toList, slots, ← Array.getElem?_toList,
          List.getElem?_set_ne other.symm]
    · intro small result ended
      have halts := onFloor.eq_halt_of_drops drops ended
      have inside := lt_size_of_fetch? fetched
      have last : before.pc.index + 1 = Address.halt.index := congrArg Address.index halts
      omega

def copyingCall : Program where
  code := #[.function ⟨0⟩ ⟨⟨3⟩, 2⟩ ⟨0, 0⟩, .operation (.call ⟨1⟩ ⟨0⟩ ⟨0⟩), .operation (.exit ⟨1⟩),
    .operation (.copy ⟨1⟩ ⟨0⟩), .operation (.leave ⟨1⟩)]
  spans := Array.replicate 5 ⟨⟨0⟩, 0, 0⟩
  operands := #[]
  declarations := #[]
  blocks := []
  entry := ⟨0⟩
  entryFrameSize := 2

theorem calls_spare_their_callers_in_copyingCall :
    exists before state after, copyingCall.Reachable before ∧ before.pc = ⟨1⟩ ∧
      copyingCall.process state = .again after ∧ state.Drops copyingCall before.stack.size ∧
        after.base = before.base ∧ after.stack.size = before.stack.size ∧ after.pc = ⟨2⟩ ∧
          forall index, index ≠ before.base + Stack.headerSize + 1 ->
            after.stack.slots[index]? = before.stack.slots[index]? := by
  have run : exists before entered state after, copyingCall.Reachable before ∧
      before.pc = ⟨1⟩ ∧ copyingCall.process before = .again entered ∧ entered.pc = ⟨3⟩ ∧
        copyingCall.process entered = .again state ∧ copyingCall.process state = .again after ∧
          state.Drops copyingCall entered.base :=
    ⟨_, _, _, _, ⟨1, .step rfl (.refl _)⟩, rfl, rfl, rfl, rfl, rfl, rfl, ⟨1⟩, _, rfl⟩
  rcases run with
    ⟨before, entered, state, after, reachable, pc, called, body, moved, left, drops⟩
  have fetched : copyingCall.fetch? before.pc =
      some (.operation (.call ⟨1⟩ ⟨0⟩ ⟨0⟩), ⟨⟨0⟩, 0, 0⟩) := by
    rw [pc]
    rfl
  have kept : forall earlier passed, earlier < 1 ->
      copyingCall.process.Steps earlier entered passed ->
        ¬ passed.Drops copyingCall entered.base := by
    intro earlier passed sooner steps dropping
    cases steps with
    | refl =>
        rcases dropping.2 with ⟨source, span, leaves⟩
        rw [body] at leaves
        cases leaves
    | step _ _ => omega
  rcases calls_spare_their_callers fetched called (.single moved) kept with
    ⟨⟨base, _, _⟩, returns⟩
  rcases (returns drops).1 after left with ⟨own, size, next, slots⟩
  rw [base] at drops
  refine ⟨before, state, after, reachable, pc, left, drops, own, size, ?_, slots⟩
  rw [next, pc]
  rfl

end Program
end StrictLambda
