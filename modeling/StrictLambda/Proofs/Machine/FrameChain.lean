import StrictLambda.Proofs.Machine.Failures
import StrictLambda.Proofs.Machine.Values

/-!
# The chain of frames

The stack of a running machine consists of frames, one on top of the other.  Each has a header that
says where its caller's frame begins and behind which call it continues.  Whatever the instructions
of a program do, they leave this chain intact, so a machine never finds a broken frame.
-/

namespace StrictLambda

def Program.FollowsCall (program : Program) (address : Address) : Prop :=
  exists index dest function argument span, address = ⟨index + 1⟩ ∧
    program.fetch? ⟨index⟩ = some (.operation (.call dest function argument), span)

variable {program : Program}

theorem Program.FollowsCall.exists_returnRegister {address : Address}
    (follows : program.FollowsCall address) :
    exists dest, program.returnRegister address = .ok dest := by
  rcases follows with ⟨index, dest, function, argument, span, rfl, fetched⟩
  exact ⟨dest, Program.returnRegister_next fetched⟩

theorem Program.FollowsCall.of_fetch {address : Address} {dest function argument : Register}
    {span : Span}
    (fetched : program.fetch? address = some (.operation (.call dest function argument), span)) :
    program.FollowsCall address.next :=
  ⟨address.index, dest, function, argument, span, rfl, fetched⟩

/-!
## Frames on a floor

A stretch of a run is looked at in which the slots on a floor do not take part: the frames that
matter lie on them.  For a whole run the floor is empty.  The lowest frame saves one base and
returns to one address, and every other one saves the base of the frame below it and returns behind
a call.
-/

namespace Stack

/-- Above the floor there are frames, and one that is put on top of them has to save this base and
return to this address. -/
inductive Callers (program : Program) (floor : List Slot) (first : Nat) (back : Address) :
    List Slot -> Nat -> Address -> Prop where
  | none : Callers program floor first back floor first back
  | call {below : List Slot} {saved : Nat} {address next : Address}
      (callers : Callers program floor first back below saved address)
      (registers : List (Option (Value Entry))) (follows : program.FollowsCall next) :
      Callers program floor first back (below ++ frameSlots saved address registers) below.length
        next

variable {floor below : List Slot} {first saved : Nat} {back address : Address}

theorem Callers.floor_isPrefix
    (callers : Callers program floor first back below saved address) : floor <+: below := by
  induction callers with
  | none => exact List.prefix_rfl
  | call _ _ _ ih => exact ih.trans (List.prefix_append _ _)

theorem Callers.eq_of_length_eq
    (callers : Callers program floor first back below saved address)
    (same : below.length = floor.length) : below = floor ∧ saved = first ∧ address = back := by
  cases callers with
  | none => exact ⟨rfl, rfl, rfl⟩
  | call callers registers _ =>
      have shorter := callers.floor_isPrefix.length_le
      rw [List.length_append, length_frameSlots, headerSize] at same
      omega

end Stack

namespace State

def OnFloor (program : Program) (floor : List Slot) (first : Nat) (back : Address)
    (state : State) : Prop :=
  exists below saved address registers,
    Stack.Callers program floor first back below saved address ∧ state.base = below.length ∧
      state.stack.HasTop below saved address registers

/-- The lowest frame is gone: control is where it returns to, the frame below runs again, and on the
floor only a register of that frame was written. -/
def Returned (program : Program) (floor : List Slot) (first : Nat) (back : Address)
    (state : State) : Prop :=
  back ≠ Address.halt ∧ state.pc = back ∧ state.base = first ∧ exists dest value,
    program.returnRegister back = .ok dest ∧
      state.stack.slots.toList = floor.set (first + Stack.headerSize + dest.index) (.value value)

variable {floor : List Slot} {first : Nat} {back : Address} {state after : State}
  {instruction : Instruction} {span : Span}

theorem OnFloor.hasTop_lowest (onFloor : state.OnFloor program floor first back)
    (lowest : state.base = floor.length) :
    exists registers, state.stack.HasTop floor first back registers := by
  rcases onFloor with ⟨below, saved, address, registers, callers, base, top⟩
  rcases callers.eq_of_length_eq (base.symm.trans lowest) with ⟨rfl, rfl, rfl⟩
  exact ⟨registers, top⟩

theorem OnFloor.returned (onFloor : state.OnFloor program floor first back)
    (lowest : state.base = floor.length) {source : Register}
    (leads : state.Leads program (.operation (.leave source)) after) :
    after.Returned program floor first back := by
  rcases onFloor.hasTop_lowest lowest with ⟨registers, top⟩
  cases leads with
  | store produced _ => cases produced
  | @leave _ dest value _ _ _ _ header returns waits written =>
      rw [lowest, Stack.header_of_hasTop top] at header
      cases header
      rw [lowest, Stack.write_eq_ok_iff, Stack.toList_truncate_of_hasTop top] at written
      exact ⟨returns, rfl, rfl, dest, value, waits, written.2⟩

theorem OnFloor.leads (onFloor : state.OnFloor program floor first back)
    (fetched : program.fetch? state.pc = some (instruction, span))
    (leads : state.Leads program instruction after)
    (stays : state.base = floor.length -> forall source, instruction ≠ .operation (.leave source)) :
    after.OnFloor program floor first back := by
  rcases onFloor with ⟨below, saved, address, registers, callers, base, top⟩
  cases leads with
  | store _ written =>
      rw [base] at written
      rcases Stack.exists_hasTop_of_write top written with ⟨others, topAfter⟩
      exact ⟨below, saved, address, others, callers, base, topAfter⟩
  | endFixpoint | jump | jumpUnless =>
      exact ⟨below, saved, address, registers, callers, base, top⟩
  | call =>
      -- The caller's frame joins the callers, and the frame of the callee lies on all of them.
      have slots : state.stack.slots.toList = below ++ Stack.frameSlots saved address registers :=
        top
      have called := callers.call registers (.of_fetch fetched)
      rw [← slots, ← base] at called
      exact ⟨_, _, _, _, called, Array.length_toList.symm, Stack.hasTop_enter _ _ _ _ _ _⟩
  | @tailCall _ _ entry captures value _ _ _ _ header =>
      -- The new frame takes over the header, so the callers stay the same.
      rw [base, Stack.header_of_hasTop top] at header
      cases header
      have entered := Stack.hasTop_enter (state.stack.truncate state.base) saved address value
        entry captures
      rw [base, Stack.toList_truncate_of_hasTop top, ← base] at entered
      exact ⟨below, saved, address, _, callers, base, entered⟩
  | @leave source _ _ _ _ _ _ header _ _ written =>
      rw [base, Stack.header_of_hasTop top] at header
      cases header
      have lower := Stack.toList_truncate_of_hasTop top
      rw [base] at written
      cases callers with
      | none => exact absurd rfl (stays base source)
      | call callers registers _ =>
          rcases Stack.exists_hasTop_of_write lower written with ⟨others, topAfter⟩
          exact ⟨_, _, _, others, callers, rfl, topAfter⟩

end State

/-!
## Whole stacks

With an empty floor the frames make up the whole stack.  So their headers can be told from where
they begin, and whatever does not belong to a header is a register.
-/

namespace Stack

/-- The slots are frames that begin at these indexes, the lowest first. -/
structure Framed (program : Program) (slots : List Slot) (bases : List Nat) : Prop where
  first : bases.head? = some 0
  apart : bases.Pairwise fun lower upper => lower + headerSize <= upper
  outermost : slots[0]? = some (.base 0) ∧ slots[1]? = some (.returnTo Address.halt)
  chained : forall number lower upper,
    bases[number]? = some lower -> bases[number + 1]? = some upper ->
      slots[upper]? = some (.base lower) ∧ exists address,
        slots[upper + 1]? = some (.returnTo address) ∧ program.FollowsCall address
  registers : forall index slot, slots[index]? = some slot ->
    (forall base, base ∈ bases -> index ≠ base ∧ index ≠ base + 1) ->
      slot = .empty ∨ exists value, slot = .value value

variable {slots below : List Slot} {bases : List Nat} {base saved : Nat} {address : Address}
  {registers : List (Option (Value Entry))}

theorem register_of_getElem? {index : Nat} {slot : Slot}
    (found : (below ++ frameSlots saved address registers)[index]? = some slot)
    (above : below.length + headerSize <= index) :
    slot = .empty ∨ exists value, slot = .value value := by
  rcases Nat.exists_eq_add_of_le above with ⟨number, rfl⟩
  rw [getElem?_behind_header] at found
  rcases Option.map_eq_some_iff.mp found with ⟨content, _, rfl⟩
  cases content with
  | none => exact .inl rfl
  | some value => exact .inr ⟨value, rfl⟩

namespace Framed

theorem header_le (framed : Framed program slots bases) (member : base ∈ bases) :
    base + headerSize <= slots.length := by
  have second : exists address, slots[base + 1]? = some (.returnTo address) := by
    rcases List.mem_iff_getElem?.mp member with ⟨number, found⟩
    cases number with
    | zero =>
        have first := framed.first
        rw [List.head?_eq_getElem?, found] at first
        cases first
        exact ⟨_, framed.outermost.2⟩
    | succ number =>
        have inside := (List.getElem?_eq_some_iff.mp found).1
        have lower : bases[number]? = some bases[number] :=
          List.getElem?_eq_getElem (Nat.lt_of_succ_lt inside)
        rcases framed.chained number _ _ lower found with ⟨_, address, stored, _⟩
        exact ⟨address, stored⟩
  rcases second with ⟨address, stored⟩
  exact (List.getElem?_eq_some_iff.mp stored).1

theorem outermost_frame (registers : List (Option (Value Entry))) :
    Framed program (frameSlots 0 Address.halt registers) [0] where
  first := rfl
  apart := List.pairwise_singleton _ _
  outermost := ⟨rfl, rfl⟩
  chained := by
    intro number lower upper _ above
    cases above
  registers := by
    intro index slot found outside
    rcases outside 0 (List.mem_singleton_self 0) with ⟨notBase, notAddress⟩
    have above : List.length ([] : List Slot) + headerSize <= index := by
      unfold headerSize
      simp only [List.length_nil]
      omega
    exact register_of_getElem? found above

theorem push (framed : Framed program slots bases) (highest : bases.getLast? = some saved)
    (follows : program.FollowsCall address) (registers : List (Option (Value Entry))) :
    Framed program (slots ++ frameSlots saved address registers) (bases ++ [slots.length]) where
  first := by
    rw [List.head?_append, framed.first]
    rfl
  apart := by
    rw [List.pairwise_append]
    refine ⟨framed.apart, List.pairwise_singleton _ _, ?_⟩
    intro lower member upper last
    cases List.mem_singleton.mp last
    exact framed.header_le member
  outermost := by
    rcases framed.outermost with ⟨saves, returns⟩
    have inside := (List.getElem?_eq_some_iff.mp returns).1
    rw [List.getElem?_append_left (by omega), List.getElem?_append_left inside]
    exact ⟨saves, returns⟩
  chained := by
    intro number lower upper foundLower foundUpper
    -- Either both frames were there before, or the upper one is new.
    by_cases inside : number + 1 < bases.length
    · rw [List.getElem?_append_left (Nat.lt_of_succ_lt inside)] at foundLower
      rw [List.getElem?_append_left inside] at foundUpper
      rcases framed.chained number lower upper foundLower foundUpper with
        ⟨saves, own, returns, behind⟩
      have fits := (List.getElem?_eq_some_iff.mp returns).1
      rw [List.getElem?_append_left (by omega), List.getElem?_append_left fits]
      exact ⟨saves, own, returns, behind⟩
    · have atEnd : number + 1 = bases.length := by
        have bound := (List.getElem?_eq_some_iff.mp foundUpper).1
        rw [List.length_append, List.length_singleton] at bound
        omega
      rw [List.getElem?_append_right (by omega), atEnd, Nat.sub_self] at foundUpper
      cases foundUpper
      rw [List.getElem?_append_left (by omega)] at foundLower
      rw [List.getLast?_eq_getElem?, ← atEnd, Nat.add_sub_cancel, foundLower] at highest
      cases highest
      rcases getElem?_header slots saved address registers with ⟨saves, returns⟩
      exact ⟨saves, address, returns, follows⟩
  registers := by
    intro index slot found outside
    by_cases below : index < slots.length
    · rw [List.getElem?_append_left below] at found
      refine framed.registers index slot found ?_
      intro base member
      exact outside base (List.mem_append_left _ member)
    · have ends := outside slots.length (List.mem_append_right _ (List.mem_singleton_self _))
      have above : slots.length + headerSize <= index := by
        unfold headerSize
        omega
      exact register_of_getElem? found above

end Framed

theorem Callers.exists_framed
    (callers : Callers program [] 0 Address.halt below saved address)
    (registers : List (Option (Value Entry))) :
    exists bases, Framed program (below ++ frameSlots saved address registers) bases ∧
      bases.getLast? = some below.length := by
  induction callers generalizing registers with
  | none => exact ⟨[0], Framed.outermost_frame registers, rfl⟩
  | call callers others follows ih =>
      rcases ih others with ⟨bases, framed, highest⟩
      exact ⟨bases ++ [_], framed.push highest follows registers, List.getLast?_concat⟩

end Stack

/-!
## All runs
-/

namespace State

theorem onFloor_start (program : Program) :
    (State.start program).OnFloor program [] 0 Address.halt := by
  refine ⟨[], 0, Address.halt, List.replicate program.entryFrameSize none, .none, rfl, ?_⟩
  simp [State.start, Stack.outermost, Stack.HasTop, Stack.frameSlots, Stack.slotOf]

variable {state : State} {instruction : Instruction} {span : Span} {failure : Failure}

theorem OnFloor.ne_brokenFrame (onFloor : state.OnFloor program [] 0 Address.halt)
    (declared : state.AllValues Value.Declared)
    (blames : state.Blames program span instruction failure) (place : Option Span) :
    failure ≠ .defect .brokenFrame place := by
  rcases onFloor with ⟨below, saved, address, registers, callers, base, top⟩
  rintro rfl
  cases blames with
  | @read _ register _ failed =>
      unfold State.read at failed
      rw [base, Stack.read_of_hasTop top] at failed
      split at failed <;> cases failed
  | write failed | leaveWrite failed =>
      unfold Stack.write at failed
      dsimp only at failed
      split at failed <;> cases failed
  | derefOther other | endOther other => cases Value.expectCell_eq_error other
  | member read failed =>
      rcases Value.member_eq_error (declared.stack.read read).here failed with ⟨cause, same⟩
      cases same
  | callOther other | tailCallOther other => cases Value.expectFunction_eq_error other
  | tailCallHeader failed | leaveHeader failed =>
      rw [base, Stack.header_of_hasTop top] at failed
      cases failed
  | leaveNowhere header returns failed =>
      rw [base, Stack.header_of_hasTop top] at header
      cases header
      cases callers with
      | none => exact returns rfl
      | call _ _ follows =>
          rcases follows.exists_returnRegister with ⟨dest, waits⟩
          rw [waits] at failed
          cases failed
  | dataOther failed =>
      rcases Value.constructorNumbered_eq_error failed with ⟨cause, same⟩
      cases same
  | arity failed =>
      rcases Value.construct_eq_error failed with ⟨cause, same⟩
      cases same
  | notBoolean other => cases Value.expectBoolean_eq_error other

end State

namespace Program

variable {state : State}

theorem onFloor_of_reachable (reachable : program.Reachable state) :
    state.OnFloor program [] 0 Address.halt := by
  rcases reachable with ⟨count, steps⟩
  apply kept_of_steps _ steps (State.onFloor_start program)
  intro before instruction span after fetched leads onFloor
  apply onFloor.leads fetched leads
  rintro lowest source rfl
  exact (onFloor.returned lowest leads).1 rfl

theorem step_ne_brokenFrame (reachable : program.Reachable state) (place : Option Span) :
    state.step program ≠ .error (.defect .brokenFrame place) := by
  intro failed
  rcases State.blames_of_step failed with ⟨_, outside⟩ | ⟨instruction, span, _, blames⟩
  · cases outside
  · have declared := declared_of_reachable reachable
    exact (onFloor_of_reachable reachable).ne_brokenFrame declared blames place rfl

/-- Whatever the program, its frames are in order in every state, and nothing it does is ever taken
for a broken frame. -/
theorem frames_stay_intact (program : Program) :
    (forall state, program.Reachable state -> exists bases,
      Stack.Framed program state.stack.slots.toList bases ∧
        bases.getLast? = some state.base) ∧
    (forall state place, program.Reachable state ->
      state.step program ≠ .error (.defect .brokenFrame place)) ∧
    forall place, ¬ program.Answers (.error (.defect .brokenFrame place)) := by
  refine ⟨?_, ?_, ?_⟩
  · intro state reachable
    rcases onFloor_of_reachable reachable with
      ⟨below, saved, address, registers, callers, base, top⟩
    rw [top, base]
    exact callers.exists_framed registers
  · intro state place reachable
    exact step_ne_brokenFrame reachable place
  · intro place answers
    rcases answers_iff.mp answers with ⟨limit, own, ended, same⟩
    rcases Process.steps_of_run_eq_some ended with ⟨count, last, steps, halted⟩
    cases own with
    | ok result => cases same
    | error failure =>
        cases same
        exact step_ne_brokenFrame ⟨count, steps⟩ place (process_eq_halt_error_iff.mp halted)

/-- Calls a function whose frames have no room, not even for the argument. -/
def crampedCall : Program where
  code := #[.function ⟨0⟩ ⟨⟨2⟩, 0⟩ ⟨0, 0⟩, .operation (.call ⟨1⟩ ⟨0⟩ ⟨0⟩), .jump ⟨2⟩]
  spans := Array.replicate 3 ⟨⟨0⟩, 0, 0⟩
  operands := #[]
  declarations := #[]
  blocks := []
  entry := ⟨0⟩
  entryFrameSize := 2

theorem frames_stay_intact_of_crampedCall :
    exists state, crampedCall.Reachable state ∧ state.base = 4 ∧ exists bases,
      Stack.Framed crampedCall state.stack.slots.toList bases ∧ bases.getLast? = some 4 := by
  have called : exists state, crampedCall.Reachable state ∧ state.base = 4 :=
    ⟨_, ⟨2, .step rfl (.step rfl (.refl _))⟩, rfl⟩
  rcases called with ⟨state, reachable, base⟩
  rcases (frames_stay_intact crampedCall).1 state reachable with ⟨bases, framed, highest⟩
  rw [base] at highest
  exact ⟨state, reachable, base, bases, framed, highest⟩

end Program
end StrictLambda
