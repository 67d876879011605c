import StrictLambda.Proofs.Execution.Process

/-!
# Processes that perform a computation

A computation may have an outcome or be cut off.  A process performs it from a state on if it comes
to a state in which the outcome shows, or fails as the computation does, or goes on for long enough
if there is no outcome.  All states it passes through on the way have to be allowed, and what is
marked on the moves it makes has to be what the computation says.
-/

namespace StrictLambda
namespace Process

variable {State Result Outcome Mark : Type}

/-!
## Marks
-/

def marks (process : Process State Result) (mark : State -> State -> List Mark) :
    Nat -> State -> List Mark
  | 0, _ => []
  | limit + 1, state =>
      match process state with
      | .again next => mark state next ++ marks process mark limit next
      | .halt _ => []

variable {process : Process State Result} {mark : State -> State -> List Mark}

theorem marks_of_again {state next : State} (moved : process state = .again next) (limit : Nat) :
    process.marks mark (limit + 1) state = mark state next ++ process.marks mark limit next := by
  rw [marks, moved]

theorem marks_add_of_steps (mark : State -> State -> List Mark) {count : Nat}
    {start last : State} (steps : process.Steps count start last) (limit : Nat) :
    process.marks mark (count + limit) start =
      process.marks mark count start ++ process.marks mark limit last := by
  induction steps with
  | refl state => rw [Nat.zero_add, marks, List.nil_append]
  | step first _ ih =>
      rw [Nat.add_right_comm, marks_of_again first, marks_of_again first, ih, List.append_assoc]

theorem marks_of_halt {state : State} {ending : Except Failure Result}
    (halted : process state = .halt ending) (limit : Nat) :
    process.marks mark limit state = [] := by
  cases limit with
  | zero => rfl
  | succ limit => rw [marks, halted]

theorem marks_succ (limit : Nat) (start : State) :
    process.marks mark limit start <+: process.marks mark (limit + 1) start := by
  induction limit generalizing start with
  | zero => exact List.nil_prefix
  | succ limit ih =>
      rw [marks, marks]
      cases process start with
      | again next => exact (List.prefix_append_right_inj _).mpr (ih next)
      | halt ending => exact List.prefix_refl _

theorem marks_mono {limit more : Nat} (atLeast : limit <= more) (start : State) :
    process.marks mark limit start <+: process.marks mark more start := by
  induction atLeast with
  | refl => exact List.prefix_refl _
  | step _ ih => exact List.IsPrefix.trans ih (marks_succ _ start)

/-!
## Passing and performing
-/

/-- The second state comes the given number of moves with these marks after the first one, and every
state in front of it is allowed. -/
inductive Passes (process : Process State Result) (Allowed : State -> Prop)
    (mark : State -> State -> List Mark) : Nat -> List Mark -> State -> State -> Prop where
  | refl (state : State) : Passes process Allowed mark 0 [] state state
  | step {count : Nat} {later : List Mark} {state next last : State} (here : Allowed state)
      (first : process state = .again next)
      (rest : Passes process Allowed mark count later next last) :
      Passes process Allowed mark (count + 1) (mark state next ++ later) state last

/-- What it is to perform a computation with the given marks and the given outcome.  Without an
outcome there are at least so many moves. -/
def Performs (process : Process State Result) (Allowed : State -> Prop)
    (mark : State -> State -> List Mark) (least : Nat) (marked : List Mark)
    (outcome : Option (Except Failure Outcome)) (Shows : Outcome -> State -> Prop)
    (start : State) : Prop :=
  match outcome with
  | none =>
      exists count last, least <= count ∧ Passes process Allowed mark count marked start last
  | some (.error failure) =>
      exists count last, Passes process Allowed mark count marked start last ∧ Allowed last ∧
        process last = .halt (.error failure)
  | some (.ok result) =>
      exists count last, Passes process Allowed mark count marked start last ∧ Shows result last

variable {Allowed : State -> Prop} {least : Nat} {marked earlier later : List Mark}
  {outcome : Option (Except Failure Outcome)} {Shows : Outcome -> State -> Prop}
  {start next : State}

theorem Passes.steps {count : Nat} {last : State}
    (passes : Passes process Allowed mark count marked start last) :
    process.Steps count start last := by
  induction passes with
  | refl state => exact .refl state
  | step _ first _ ih => exact .step first ih

theorem Passes.marks_eq {count : Nat} {last : State}
    (passes : Passes process Allowed mark count marked start last) :
    process.marks mark count start = marked := by
  induction passes with
  | refl state => rfl
  | step _ first _ ih => rw [marks_of_again first, ih]

theorem Passes.quiet {count : Nat} {last : State} (here : Allowed start)
    (nothing : mark start next = []) (first : process start = .again next)
    (rest : Passes process Allowed mark count marked next last) :
    Passes process Allowed mark (count + 1) marked start last := by
  have passes := Passes.step here first rest
  rw [nothing, List.nil_append] at passes
  exact passes

theorem Passes.trans {first second : Nat} {middle last : State}
    (before : Passes process Allowed mark first earlier start middle)
    (after : Passes process Allowed mark second later middle last) :
    Passes process Allowed mark (first + second) (earlier ++ later) start last := by
  induction before with
  | refl state =>
      rw [Nat.zero_add, List.nil_append]
      exact after
  | step here first _ ih =>
      rw [Nat.add_right_comm, List.append_assoc]
      exact .step here first (ih after)

theorem Passes.allowed {count fewer : Nat} {last between : State}
    (passes : Passes process Allowed mark count marked start last) (less : fewer < count)
    (steps : process.Steps fewer start between) : Allowed between := by
  induction passes generalizing fewer with
  | refl state => omega
  | step here first _ ih =>
      cases steps with
      | refl => exact here
      | step firstAgain rest =>
          rw [first] at firstAgain
          cases firstAgain
          exact ih (by omega) rest

theorem Passes.allowed_of_halt {count fewer : Nat} {last between : State}
    {ending : Except Failure Result} (passes : Passes process Allowed mark count marked start last)
    (here : Allowed last) (halted : process last = .halt ending)
    (steps : process.Steps fewer start between) : Allowed between := by
  induction passes generalizing fewer with
  | refl state =>
      cases steps with
      | refl => exact here
      | step first rest =>
          rw [halted] at first
          cases first
  | step allowed first _ ih =>
      cases steps with
      | refl => exact allowed
      | step firstAgain rest =>
          rw [first] at firstAgain
          cases firstAgain
          exact ih here halted rest

theorem Passes.marks_prefix_of_halt {count : Nat} {last : State} {ending : Except Failure Result}
    (passes : Passes process Allowed mark count marked start last)
    (halted : process last = .halt ending) (limit : Nat) :
    process.marks mark limit start <+: marked := by
  have whole := marks_add_of_steps mark passes.steps limit
  rw [marks_of_halt halted, List.append_nil, passes.marks_eq] at whole
  rw [← whole]
  exact marks_mono (Nat.le_add_left limit count) start

namespace Performs

theorem done {result : Outcome} (seen : Shows result start) :
    Performs process Allowed mark least [] (some (.ok result)) Shows start :=
  ⟨0, start, .refl start, seen⟩

theorem fail {failure : Failure} (here : Allowed start)
    (halted : process start = .halt (.error failure)) :
    Performs process Allowed mark least [] (some (.error failure)) Shows start :=
  ⟨0, start, .refl start, here, halted⟩

theorem move (here : Allowed start) (moved : process start = .again next)
    (performs : Performs process Allowed mark least later outcome Shows next) :
    Performs process Allowed mark (least + 1) (mark start next ++ later) outcome Shows start := by
  unfold Performs at performs ⊢
  cases outcome with
  | none =>
      rcases performs with ⟨count, last, enough, passes⟩
      exact ⟨count + 1, last, Nat.succ_le_succ enough, .step here moved passes⟩
  | some ending =>
      cases ending with
      | error failure =>
          rcases performs with ⟨count, last, passes, halted⟩
          exact ⟨count + 1, last, .step here moved passes, halted⟩
      | ok result =>
          rcases performs with ⟨count, last, passes, seen⟩
          exact ⟨count + 1, last, .step here moved passes, seen⟩

theorem fewer {less : Nat}
    (performs : Performs process Allowed mark least marked outcome Shows start)
    (bound : less <= least) : Performs process Allowed mark less marked outcome Shows start := by
  unfold Performs at performs ⊢
  cases outcome with
  | none =>
      rcases performs with ⟨count, last, enough, passes⟩
      exact ⟨count, last, Nat.le_trans bound enough, passes⟩
  | some ending => cases ending <;> exact performs

theorem after {count : Nat} (passes : Passes process Allowed mark count earlier start next)
    (performs : Performs process Allowed mark least later outcome Shows next) :
    Performs process Allowed mark least (earlier ++ later) outcome Shows start := by
  induction passes with
  | refl state => exact performs
  | step here first _ ih =>
      rw [List.append_assoc]
      exact (move here first (ih performs)).fewer (Nat.le_succ least)

theorem followed {ShowsMore : Outcome -> State -> Prop}
    (performs : Performs process Allowed mark least marked outcome Shows start)
    (more : forall result last, Shows result last ->
      exists count next, Passes process Allowed mark count [] last next ∧
        ShowsMore result next) :
    Performs process Allowed mark least marked outcome ShowsMore start := by
  unfold Performs at performs ⊢
  cases outcome with
  | none => exact performs
  | some ending =>
      cases ending with
      | error failure => exact performs
      | ok result =>
          rcases performs with ⟨count, last, passes, seen⟩
          rcases more result last seen with ⟨further, next, passesMore, seenMore⟩
          have together := passes.trans passesMore
          rw [List.append_nil] at together
          exact ⟨count + further, next, together, seenMore⟩

theorem mono {ShowsMore : Outcome -> State -> Prop}
    (performs : Performs process Allowed mark least marked outcome Shows start)
    (more : forall result last, Shows result last -> ShowsMore result last) :
    Performs process Allowed mark least marked outcome ShowsMore start :=
  performs.followed fun result last seen => ⟨0, last, .refl last, more result last seen⟩

/-- If the process halts where the result shows, every state it reaches is allowed, as far as the
computation was not cut off. -/
theorem allowed_of_steps (performs : Performs process Allowed mark least marked outcome Shows start)
    (halts : forall result last, Shows result last ->
      Allowed last ∧ exists ending, process last = .halt ending)
    {count : Nat} {state : State} (steps : process.Steps count start state)
    (early : count < least) : Allowed state := by
  unfold Performs at performs
  cases outcome with
  | none =>
      rcases performs with ⟨more, last, enough, passes⟩
      exact passes.allowed (Nat.lt_of_lt_of_le early enough) steps
  | some ending =>
      cases ending with
      | error failure =>
          rcases performs with ⟨more, last, passes, here, halted⟩
          exact passes.allowed_of_halt here halted steps
      | ok result =>
          rcases performs with ⟨more, last, passes, seen⟩
          rcases halts result last seen with ⟨here, ending, halted⟩
          exact passes.allowed_of_halt here halted steps

theorem exists_marks_eq
    (performs : Performs process Allowed mark least marked outcome Shows start) :
    exists count, process.marks mark count start = marked := by
  unfold Performs at performs
  rcases outcome with _ | _ | result
  · rcases performs with ⟨count, last, _, passes⟩
    exact ⟨count, passes.marks_eq⟩
  · rcases performs with ⟨count, last, passes, _⟩
    exact ⟨count, passes.marks_eq⟩
  · rcases performs with ⟨count, last, passes, _⟩
    exact ⟨count, passes.marks_eq⟩

/-- If the process halts where the result shows, all it marks are marks of the computation, as far
as that was not cut off. -/
theorem marks_within (performs : Performs process Allowed mark least marked outcome Shows start)
    (halts : forall result last, Shows result last -> exists ending, process last = .halt ending)
    {count : Nat} (early : count <= least) : process.marks mark count start <+: marked := by
  unfold Performs at performs
  rcases outcome with _ | failure | result
  · rcases performs with ⟨more, last, enough, passes⟩
    rw [← passes.marks_eq]
    exact marks_mono (Nat.le_trans early enough) start
  · rcases performs with ⟨more, last, passes, _, halted⟩
    exact passes.marks_prefix_of_halt halted count
  · rcases performs with ⟨more, last, passes, seen⟩
    rcases halts result last seen with ⟨ending, halted⟩
    exact passes.marks_prefix_of_halt halted count

end Performs
end Process
end StrictLambda
