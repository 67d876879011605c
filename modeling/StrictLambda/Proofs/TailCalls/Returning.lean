import StrictLambda.Proofs.TailCalls.Forwarding

/-!
# Handing results down

Where the original run returns once, the rewritten run returns from every forwarding frame on the
way as well.  Every other step has one step that corresponds to it, so the rewritten run expands the
original one.
-/

namespace StrictLambda
namespace Block

def State.Leaves (state : State) (value : Value Body) : Prop :=
  exists source span, state.frame.node? = some (.operation (.leave source) span) ∧
    state.frame.read source = .ok value

variable {program : Program} {state other next : State} {value : Value Body}

theorem step_of_leave {source : Register} {span : Span}
    (found : state.frame.node? = some (.operation (.leave source) span)) :
    state.step = state.frame.read source >>= fun value => state.leave value := by
  unfold State.step
  rw [found]
  rfl

theorem State.Leaves.step_eq (leaves : state.Leaves value) :
    state.step = state.leave value := by
  rcases leaves with ⟨source, span, found, read⟩
  rw [step_of_leave found, read, ok_bind]

theorem exists_write_leaves {frame : Frame} {dest : Register} {span : Span}
    (returns : frame.node? = some (.operation (.leave dest) span))
    (inside : dest.index < frame.registers.length) (value : Value Body) :
    exists after, frame.write dest value = .ok after ∧
      forall callers cells, State.Leaves ⟨after, callers, cells⟩ value := by
  refine ⟨_, Frame.write_eq_ok_iff.mpr ⟨inside, rfl⟩, fun callers cells => ?_⟩
  refine ⟨dest, span, returns, Frame.read_eq_ok_iff.mpr ?_⟩
  exact List.getElem?_set_self inside

/-- The frames that only forward hand the value down to the first one that does not. -/
theorem exists_steps_of_forwarded {callers others : List Caller}
    (forwarded : Forwarded callers others) (leaves : other.Leaves value)
    (waiting : other.callers = others) :
    exists count last, process.Steps count other last ∧ last.Leaves value ∧
      last.cells = other.cells ∧
      ((callers = [] ∧ last.callers = []) ∨
        exists caller rest below, callers = caller :: rest ∧
          last.callers = ⟨caller.frame.unrolled, caller.dest⟩ :: below ∧
            Forwarded rest below) := by
  induction forwarded generalizing other with
  | nil => exact ⟨0, other, .refl other, leaves, rfl, .inl ⟨rfl, waiting⟩⟩
  | waits later =>
      exact ⟨0, other, .refl other, leaves, rfl, .inr ⟨_, _, _, rfl, waiting, later⟩⟩
  | @forwards callers others frame dest span returns inside later ih =>
      rcases exists_write_leaves returns inside value with ⟨after, written, handed⟩
      have moved : process other = .again ⟨after, others, other.cells⟩ := by
        apply process_eq_again_iff.mpr
        rw [leaves.step_eq, State.leave, waiting]
        dsimp only
        rw [written]
        rfl
      rcases ih (handed others other.cells) rfl with ⟨count, last, steps, stays, cells, below⟩
      exact ⟨count + 1, last, .step moved steps, stays, cells, below⟩

def unrolledResult (result : Value Body × Cells Body) : Value Body × Cells Body :=
  (result.1.map Body.unrolled, result.2.map Body.unrolled)

theorem moves_of_corresponds
    (same : Corresponds Transition.Unrolls state.step other.step) :
    (exists next after, process state = .again next ∧ process other = .again after ∧
      Unrolls next after) ∨
    exists ending, process state = .halt ending ∧
      process other = .halt (ending.map unrolledResult) := by
  unfold process
  generalize state.step = here at same ⊢
  generalize other.step = there at same ⊢
  cases same with
  | error failure => exact .inr ⟨.error failure, rfl, rfl⟩
  | ok related =>
      cases related with
      | next after => exact .inl ⟨_, _, rfl, rfl, after⟩
      | done value cells => exact .inr ⟨.ok (value, cells), rfl, rfl⟩

namespace Unrolls

theorem leaves (unrolls : Unrolls state other) (sound : program.Sound state) {source : Register}
    {span : Span} (found : state.frame.node? = some (.operation (.leave source) span))
    (read : state.frame.read source = .ok value) :
    other.Leaves (value.map Body.unrolled) := by
  refine ⟨source, span, ?_, ?_⟩
  · rw [unrolls.frame]
    exact Frame.node?_unrolled found rfl
  · have inside := sound.frame.inside_of_mem (List.mem_of_getElem? found) List.mem_cons_self
    rw [unrolls.read_eq inside, read]
    rfl

theorem again_of_leave (unrolls : Unrolls state other) (sound : program.Sound state)
    {source : Register} {span : Span}
    (found : state.frame.node? = some (.operation (.leave source) span))
    (leads : state.Leads (.operation (.leave source) span) next) :
    exists count after, process.Steps (count + 1) other after ∧ Unrolls next after := by
  cases leads with
  | store produced => cases produced
  | @leave _ _ value caller rest frame read waiting written =>
      have leaves := unrolls.leaves sound found read
      rcases exists_steps_of_forwarded unrolls.callers leaves rfl with
        ⟨count, last, steps, leavesLast, cells, ⟨none, _⟩ | ⟨own, others, below, callers, here,
          later⟩⟩
      · rw [none] at waiting
        cases waiting
      · rw [callers] at waiting
        cases waiting
        rcases Frame.write_eq_ok_iff.mp written with ⟨inside, _⟩
        have receives := Frame.write_unrolled inside value
        rw [written] at receives
        have moved : process last = .again ⟨frame.unrolled, below, last.cells⟩ := by
          apply process_eq_again_iff.mpr
          rw [leavesLast.step_eq, State.leave, here]
          dsimp only
          rw [receives]
          rfl
        refine ⟨count, _, steps.trans (.single moved), rfl, later, ?_⟩
        rw [cells]
        exact unrolls.cells

theorem again (unrolls : Unrolls state other) (sound : program.Sound state)
    (moved : process state = .again next) :
    exists count after, process.Steps (count + 1) other after ∧ Unrolls next after := by
  rcases State.step_eq_next_iff.mp (process_eq_again_iff.mp moved) with ⟨node, found, leads⟩
  by_cases leaving : exists source span, node = .operation (.leave source) span
  · rcases leaving with ⟨source, span, rfl⟩
    exact unrolls.again_of_leave sound found leads
  · have stays : forall source span, node ≠ .operation (.leave source) span :=
      fun source span same => leaving ⟨source, span, same⟩
    rcases moves_of_corresponds (unrolls.step sound found stays) with
      ⟨own, after, here, there, unrollsAfter⟩ | ⟨ending, here, _⟩
    · rw [here] at moved
      cases moved
      exact ⟨0, after, .single there, unrollsAfter⟩
    · rw [here] at moved
      cases moved

theorem halt_of_leave (unrolls : Unrolls state other) (sound : program.Sound state)
    {source : Register} {span : Span}
    (found : state.frame.node? = some (.operation (.leave source) span))
    {ending : Except Failure (Value Body × Cells Body)}
    (moved : process state = .halt ending) :
    exists count last, process.Steps count other last ∧
      process last = .halt (ending.map unrolledResult) := by
  cases read : state.frame.read source with
  | error failure =>
      have stepped : state.step = .error failure := by
        rw [step_of_leave found, read]
        rfl
      have here : other.frame.node? = some (.operation (.leave source) span) := by
        rw [unrolls.frame]
        exact Frame.node?_unrolled found rfl
      have inside := sound.frame.inside_of_mem (List.mem_of_getElem? found) List.mem_cons_self
      have steppedOther : other.step = .error failure := by
        rw [step_of_leave here, unrolls.read_eq inside, read]
        rfl
      rw [process_eq_halt_error_iff.mpr stepped] at moved
      cases moved
      exact ⟨0, other, .refl other, process_eq_halt_error_iff.mpr steppedOther⟩
  | ok value =>
      have stepped := State.Leaves.step_eq ⟨source, span, found, read⟩
      unfold State.leave at stepped
      cases waiting : state.callers with
      | nil =>
          rw [waiting] at stepped
          rw [process_eq_halt_ok_iff.mpr stepped] at moved
          cases moved
          rcases exists_steps_of_forwarded unrolls.callers (unrolls.leaves sound found read) rfl
            with ⟨count, last, steps, leavesLast, cells, ⟨_, none⟩ | ⟨own, _, _, callers, _⟩⟩
          · refine ⟨count, last, steps, process_eq_halt_ok_iff.mpr ?_⟩
            rw [leavesLast.step_eq, State.leave, none, cells, unrolls.cells]
          · rw [callers] at waiting
            cases waiting
      | cons caller rest =>
          rcases sound.callers caller (by rw [waiting]; exact List.mem_cons_self) with
            ⟨runs, position, function, argument, callSpan, _, called⟩
          rcases runs.exists_write (List.mem_of_getElem? called) List.mem_cons_self value with
            ⟨after, written⟩
          rw [waiting] at stepped
          dsimp only at stepped
          rw [written] at stepped
          rw [process_eq_again_iff.mpr stepped] at moved
          cases moved

theorem halt (unrolls : Unrolls state other) (sound : program.Sound state)
    {ending : Except Failure (Value Body × Cells Body)} (moved : process state = .halt ending) :
    exists count last, process.Steps count other last ∧
      process last = .halt (ending.map unrolledResult) := by
  rcases sound.frame.exists_node with ⟨node, found⟩
  by_cases leaving : exists source span, node = .operation (.leave source) span
  · rcases leaving with ⟨source, span, rfl⟩
    exact unrolls.halt_of_leave sound found moved
  · have stays : forall source span, node ≠ .operation (.leave source) span :=
      fun source span same => leaving ⟨source, span, same⟩
    rcases moves_of_corresponds (unrolls.step sound found stays) with
      ⟨own, after, here, _⟩ | ⟨own, here, there⟩
    · rw [here] at moved
      cases moved
    · rw [here] at moved
      cases moved
      exact ⟨0, other, .refl other, there⟩

end Unrolls

theorem expansion :
    Process.Expansion process process
      (fun state other => program.Sound state ∧ Unrolls state other) unrolledResult where
  again := by
    rintro state next other ⟨sound, unrolls⟩ moved
    rcases unrolls.again sound moved with ⟨count, after, steps, unrollsAfter⟩
    rcases State.step_eq_next_iff.mp (process_eq_again_iff.mp moved) with ⟨node, found, leads⟩
    exact ⟨count, after, steps, sound.leads found leads, unrollsAfter⟩
  halt := by
    rintro state other ending ⟨sound, unrolls⟩ moved
    exact unrolls.halt sound moved

end Block
end StrictLambda
