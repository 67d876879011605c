import StrictLambda.Proofs.Layout.Arrangement
import StrictLambda.Proofs.Machine.Calls

/-!
# Activations that only go forward

An activation of a block begins when its frame is entered and ends when the frame is left or taken
over by a tail call.  In between the frame may wait for calls, but it goes on behind each of them.
So if no jump of a program goes back, an activation executes no instruction twice.
-/

namespace StrictLambda

/-!
## Jumps that go forward
-/

namespace Block

def JumpsAhead : List Node -> Prop
  | [] => True
  | node :: rest =>
      (forall target, node.target? = some target ->
        exists span, Node.label target span ∈ rest) ∧ JumpsAhead rest

namespace JumpsAhead

variable {first second nodes : List Node} {node : Node}

theorem append (front : JumpsAhead first) (rear : JumpsAhead second) :
    JumpsAhead (first ++ second) := by
  induction first with
  | nil => exact rear
  | cons node rest ih =>
      refine ⟨?_, ih front.2⟩
      intro target jumps
      rcases front.1 target jumps with ⟨span, member⟩
      exact ⟨span, List.mem_append_left second member⟩

theorem single (plain : node.target? = none) : JumpsAhead [node] := by
  refine ⟨?_, trivial⟩
  intro target jumps
  rw [plain] at jumps
  cases jumps

theorem exists_goal (ahead : JumpsAhead nodes) {position : Nat}
    (found : nodes[position]? = some node) {target : Label}
    (jumps : node.target? = some target) :
    exists goal span, position < goal ∧ nodes[goal]? = some (.label target span) := by
  induction nodes generalizing position with
  | nil => cases found
  | cons head rest ih =>
      cases position with
      | zero =>
          cases found
          rcases ahead.1 target jumps with ⟨span, member⟩
          rcases List.mem_iff_getElem?.mp member with ⟨goal, stands⟩
          exact ⟨goal + 1, span, Nat.succ_pos goal, stands⟩
      | succ position =>
          rcases ih ahead.2 found with ⟨goal, span, later, stands⟩
          exact ⟨goal + 1, span, Nat.succ_lt_succ later, stands⟩

end JumpsAhead
end Block

def Instruction.target? : Instruction -> Option Address
  | .jump target => some target
  | .jumpUnless _ target => some target
  | _ => none

namespace Program

def GoesForward (program : Program) : Prop :=
  forall address instruction span target,
    program.fetch? address = some (instruction, span) -> instruction.target? = some target ->
      address.index < target.index

variable {program : Program} {tree : Block}

theorem Places.exists_emitted {block : Block} {number : Nat} {placement : Placement}
    (places : program.Places tree number block placement) {address : Address}
    (own : placement.contains address = true) {instruction : Instruction} {span : Span}
    (fetched : program.fetch? address = some (instruction, span)) :
    exists index node, address = ⟨placement.start.index + index⟩ ∧
      (Block.emitted block.nodes)[index]? = some node ∧
        program.Translates tree number block placement index node instruction := by
  rw [Placement.contains_iff, places.length] at own
  rcases Nat.exists_eq_add_of_le own.1 with ⟨index, counted⟩
  have below : index < (Block.emitted block.nodes).length := by
    rw [counted] at own
    exact Nat.lt_of_add_lt_add_left own.2
  have here : address = ⟨placement.start.index + index⟩ := by
    rw [← counted]
  have node := List.getElem?_eq_getElem below
  rcases places.code index _ node with ⟨made, fetchedHere, translates⟩
  rw [← here] at fetchedHere
  cases fetchedHere.symm.trans fetched
  exact ⟨index, _, here, node, translates⟩

theorem lt_of_resolvesTo {block : Block} {placement : Placement} {node : Node} {index : Nat}
    (ahead : Block.JumpsAhead block.nodes)
    (found : (Block.emitted block.nodes)[index]? = some node) {target : Label}
    (jumps : node.target? = some target) {address : Address}
    (resolves : block.ResolvesTo placement target address) :
    placement.start.index + index < address.index := by
  rcases resolves with ⟨before, labelSpan, after, whole, last, _, rfl, _⟩
  rcases Block.exists_position_of_emitted found with ⟨position, here, emits, counts⟩
  rcases ahead.exists_goal here jumps with ⟨goal, span, later, stands⟩
  have inFront : position < before.length := by
    by_contra behind
    rcases Nat.exists_eq_add_of_lt (Nat.lt_of_le_of_lt (Nat.le_of_not_lt behind) later) with
      ⟨further, same⟩
    rw [whole, same, Nat.add_assoc, List.getElem?_append_right (Nat.le_add_right _ _),
      Nat.add_sub_cancel_left, List.getElem?_cons_succ] at stands
    exact last span (List.mem_of_getElem? stands)
  have inside := (List.getElem?_eq_some_iff.mp found).1
  have count := congrArg List.length counts
  rw [Block.length_emitted, List.length_take, Nat.min_eq_left (Nat.le_of_lt inside), whole,
    List.take_append_of_le_length (Nat.le_of_lt inFront)] at count
  rw [whole, List.getElem?_append_left inFront] at here
  have fewer := Block.ownLength_take_lt here emits
  rw [count, ← Block.length_emitted] at fewer
  exact Nat.add_lt_add_left fewer _

theorem goesForward_of_ofBlock (accepted : ofBlock tree = .ok program)
    (ahead : forall block, block ∈ tree.bodies -> Block.JumpsAhead block.nodes) :
    program.GoesForward := by
  intro address instruction span target fetched jumps
  rcases exists_block_of_lt accepted (lt_size_of_fetch? fetched) with
    ⟨number, block, placement, body, listed, own⟩
  rcases exists_places_of_ofBlock accepted body with ⟨same, listedSame, places⟩
  cases listed.symm.trans listedSame
  rcases places.exists_emitted own fetched with ⟨index, node, rfl, found, translates⟩
  have aheadHere := ahead block (List.mem_of_getElem? body)
  cases translates with
  | jump resolves | jumpUnless resolves =>
      cases jumps
      exact lt_of_resolvesTo aheadHere found rfl resolves
  | operation | function | data | dataType => cases jumps

end Program

/-!
## Activations
-/

namespace State

/-- The next instruction leaves the frame, or makes room in it for another activation. -/
def EndsActivation (program : Program) (state : State) : Prop :=
  exists action span, program.fetch? state.pc = some (.operation action, span) ∧
    action.isTerminator = true

/-- The second state comes so many instructions after the first one, and the same frame runs, which
has been neither left nor taken over in between. -/
structure SameActivation (program : Program) (count : Nat) (state later : State) : Prop where
  steps : program.process.Steps count state later
  base : later.base = state.base
  stays : forall earlier passed, earlier < count ->
    program.process.Steps earlier state passed -> passed.base = state.base ->
      ¬ passed.EndsActivation program

variable {program : Program} {floor : List Slot} {first : Nat} {back : Address}
  {state next after later : State}

theorem OnFloor.exists_returned {count : Nat} (onFloor : state.OnFloor program floor first back)
    (steps : program.process.Steps count state later) (below : later.base < floor.length) :
    exists spent rest after, spent + rest = count ∧ 0 < spent ∧
      program.process.Steps spent state after ∧ program.process.Steps rest after later ∧
        after.Returned program floor first back := by
  induction steps with
  | refl state => exact absurd below (Nat.not_lt.mpr onFloor.base_ge)
  | @step count state next later moved steps ih =>
      by_cases drops : state.Drops program floor.length
      · exact ⟨1, count, next, Nat.add_comm 1 count, Nat.one_pos, .single moved, steps,
          onFloor.returned_of_drops drops moved⟩
      · have kept : forall earlier passed, earlier < 1 ->
            program.process.Steps earlier state passed -> ¬ passed.Drops program floor.length := by
          intro earlier passed sooner way
          cases way with
          | refl => exact drops
          | step _ _ => omega
        rcases ih (onFloor.steps (.single moved) kept) below with
          ⟨spent, rest, after, total, _, before, behind, returned⟩
        exact ⟨spent + 1, rest, after, by omega, Nat.succ_pos spent, .step moved before, behind,
          returned⟩

theorem SameActivation.rest {spent rest : Nat}
    (same : SameActivation program (spent + rest) state later)
    (before : program.process.Steps spent state after)
    (behind : program.process.Steps rest after later) (base : after.base = state.base) :
    SameActivation program rest after later where
  steps := behind
  base := same.base.trans base.symm
  stays := by
    intro earlier passed sooner way here
    exact same.stays (spent + earlier) passed (Nat.add_lt_add_left sooner spent)
      (before.trans way) (here.trans base)

/-- The second state is one in which the frame of the first runs again at a later address. -/
def Resumes (program : Program) (count : Nat) (state later : State) : Prop :=
  exists spent rest after, spent + rest = count ∧ 0 < spent ∧
    program.process.Steps spent state after ∧ program.process.Steps rest after later ∧
      after.base = state.base ∧ state.pc.index < after.pc.index

theorem resumes_of_call {count : Nat} (reachable : program.Reachable state)
    {dest function argument : Register} {span : Span}
    (fetched : program.fetch? state.pc = some (.operation (.call dest function argument), span))
    (moved : program.process state = .again next)
    (steps : program.process.Steps count next later) (base : later.base = state.base) :
    Resumes program (count + 1) state later := by
  rcases onFloor_of_call fetched moved with ⟨_, onFloor⟩
  have below : later.base < state.stack.slots.toList.length := by
    rcases Program.onFloor_of_reachable reachable with ⟨lower, _, _, registers, _, own, top⟩
    rw [base, own, top, List.length_append, Stack.length_frameSlots, Stack.headerSize]
    omega
  rcases onFloor.exists_returned steps below with
    ⟨spent, rest, after, total, _, before, behind, _, pc, returned, _⟩
  have ahead : state.pc.index < after.pc.index := by
    rw [pc]
    exact Nat.lt_succ_self _
  exact ⟨spent + 1, rest, after, by omega, Nat.succ_pos spent, .step moved before, behind,
    returned, ahead⟩

theorem resumes_at_once {count : Nat} (moved : program.process state = .again next)
    (steps : program.process.Steps count next later) (base : next.base = state.base)
    (ahead : state.pc.index < next.pc.index) : Resumes program (count + 1) state later :=
  ⟨1, count, next, Nat.add_comm 1 count, Nat.one_pos, .single moved, steps, base, ahead⟩

/-- An activation goes on at a later address, at once or when a call has returned. -/
theorem SameActivation.resumes {count : Nat} (forward : program.GoesForward)
    (reachable : program.Reachable state)
    (same : SameActivation program (count + 1) state later) :
    Resumes program (count + 1) state later := by
  have goesOn : ¬ state.EndsActivation program :=
    same.stays 0 state (Nat.succ_pos count) (.refl state) rfl
  cases same.steps with
  | step moved steps =>
      rcases leads_of_step (Program.process_eq_again_iff.mp moved) with
        ⟨instruction, span, fetched, leads⟩
      cases leads with
      | store | endFixpoint => exact resumes_at_once moved steps rfl (Nat.lt_succ_self _)
      | call => exact resumes_of_call reachable fetched moved steps same.base
      | tailCall | leave => exact absurd ⟨_, _, fetched, rfl⟩ goesOn
      | jump => exact resumes_at_once moved steps rfl (forward _ _ _ _ fetched rfl)
      | @jumpUnless _ _ holds =>
          apply resumes_at_once moved steps rfl
          cases holds with
          | true => exact Nat.lt_succ_self _
          | false => exact forward _ _ _ _ fetched rfl

theorem SameActivation.pc_lt {count : Nat} (forward : program.GoesForward)
    (reachable : program.Reachable state) (same : SameActivation program count state later)
    (positive : 0 < count) : state.pc.index < later.pc.index := by
  induction count using Nat.strongRecOn generalizing state with
  | ind count ih =>
      rcases Nat.exists_eq_succ_of_ne_zero (Nat.ne_of_gt positive) with ⟨fewer, rfl⟩
      rcases same.resumes forward reachable with
        ⟨spent, rest, after, total, some, before, behind, base, ahead⟩
      cases rest with
      | zero =>
          cases behind
          exact ahead
      | succ rest =>
          rcases reachable with ⟨way, reached⟩
          have remaining := SameActivation.rest (total ▸ same) before behind base
          exact Nat.lt_trans ahead (ih (rest + 1) (by omega) ⟨_, reached.trans before⟩ remaining
            (Nat.succ_pos rest))

end State
end StrictLambda
