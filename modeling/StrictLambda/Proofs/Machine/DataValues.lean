import StrictLambda.Proofs.Machine.Failures
import StrictLambda.Proofs.Machine.Values
import StrictLambda.Proofs.Snapshot.Fields

/-!
# Data values and their declarations

Whether a data value has the fields that its constructor declares is looked at once, when it is
made.  Data values are never changed, and no instruction can make one in another way, so wherever
one turns up later the declaration can be relied on: a field that is declared is there, and a result
is shown with all of its fields.
-/

namespace StrictLambda

theorem Constructor.fieldIndex?_eq_none_iff {constructor : Constructor} {field : Symbol} :
    constructor.fieldIndex? field = none ↔ field ∉ constructor.fields :=
  List.idxOf?_eq_none_iff

theorem Constructor.lt_length_of_fieldIndex? {constructor : Constructor} {field : Symbol}
    {index : Nat} (declared : constructor.fieldIndex? field = some index) :
    index < constructor.fields.length := by
  unfold fieldIndex? at declared
  exact (List.findIdx?_eq_some_iff_getElem.mp declared).1

namespace Value

variable {Code : Type} {span : Span} {field : Symbol} {declaration : Declaration} {tag : Nat}
  {fields : List (Value Code)} {constructor : Constructor}

theorem member_of_not_mem (named : declaration.constructors[tag]? = some constructor)
    (absent : field ∉ constructor.fields) :
    (data declaration tag fields).member span field =
      .error (.fault (.missingField constructor.name field) span) := by
  unfold member
  simp only [named, Constructor.fieldIndex?_eq_none_iff.mpr absent]

theorem member_of_fieldIndex? (named : declaration.constructors[tag]? = some constructor)
    {index : Nat} {value : Value Code} (declared : constructor.fieldIndex? field = some index)
    (stored : fields[index]? = some value) :
    (data declaration tag fields).member span field = .ok value := by
  unfold member
  simp only [named, declared, stored]

end Value

namespace State

variable {program : Program} {state : State} {dest source : Register} {field : Symbol} {span : Span}

theorem step_member {found : Value Entry}
    (fetched : program.fetch? state.pc = some (.operation (.member dest source field), span))
    (read : state.read source = .ok found) :
    state.step program = found.member span field >>= fun value => state.store dest value := by
  unfold step
  rw [fetched]
  change (state.read source >>= _) = _
  rw [read]
  rfl

theorem store_ne_fault {value : Value Entry} {cause : Fault} :
    state.store dest value ≠ .error (.fault cause span) := by
  intro failed
  rcases bind_eq_error_iff.mp failed with written | ⟨stack, _, last⟩
  · unfold Stack.write at written
    dsimp only at written
    split at written <;> cases written
  · cases last

end State

namespace Program

/-- What can be relied on about the data values of a program.  Every one that can be come to is made
from a constructor of its declaration, with as many fields as this one declares.  So access to a
field goes wrong exactly if the constructor does not declare the field, and finds it otherwise.  And
every data value in a result is shown under the name of its constructor, with all of its fields. -/
structure DeclaresData (program : Program) : Prop where
  values : forall state declaration tag fields, program.Reachable state ->
    state.Reaches (.data declaration tag fields) -> exists constructor,
      declaration.constructors[tag]? = some constructor ∧
        fields.length = constructor.fields.length
  members : forall state dest source field span declaration tag fields,
    program.Reachable state ->
      program.fetch? state.pc = some (.operation (.member dest source field), span) ->
        state.read source = .ok (.data declaration tag fields) -> exists constructor,
          declaration.constructors[tag]? = some constructor ∧
            (state.step program = .error (.fault (.missingField constructor.name field) span) ↔
              field ∉ constructor.fields) ∧
            (field ∈ constructor.fields -> exists index value,
              constructor.fieldIndex? field = some index ∧ fields[index]? = some value ∧
                state.step program = state.store dest value)
  results : forall state value cells, program.Reachable state ->
    program.process state = .halt (.ok (value, cells)) ->
      value.ShownBy id cells (Snapshot.ofResult (value, cells))

variable {program : Program} {state : State}

theorem step_member_of_declared {dest source : Register} {field : Symbol} {span : Span}
    {declaration : Declaration} {tag : Nat} {fields : List (Value Entry)}
    (declared : (Value.data declaration tag fields : Value Entry).Declared)
    (fetched : program.fetch? state.pc = some (.operation (.member dest source field), span))
    (read : state.read source = .ok (.data declaration tag fields)) :
    exists constructor, declaration.constructors[tag]? = some constructor ∧
      (state.step program = .error (.fault (.missingField constructor.name field) span) ↔
        field ∉ constructor.fields) ∧
      (field ∈ constructor.fields -> exists index value,
        constructor.fieldIndex? field = some index ∧ fields[index]? = some value ∧
          state.step program = state.store dest value) := by
  rcases declared with ⟨constructor, named, length⟩
  have step := State.step_member fetched read
  have found : field ∈ constructor.fields -> exists index value,
      constructor.fieldIndex? field = some index ∧ fields[index]? = some value ∧
        state.step program = state.store dest value := by
    intro member
    cases place : constructor.fieldIndex? field with
    | none => exact absurd member (Constructor.fieldIndex?_eq_none_iff.mp place)
    | some index =>
        have inside := Constructor.lt_length_of_fieldIndex? place
        rw [← length] at inside
        have stored := List.getElem?_eq_getElem inside
        rw [Value.member_of_fieldIndex? named place stored, ok_bind] at step
        exact ⟨index, _, rfl, stored, step⟩
  refine ⟨constructor, named, ?_, found⟩
  constructor
  · intro failed member
    rcases found member with ⟨index, value, _, _, stores⟩
    exact State.store_ne_fault (stores.symm.trans failed)
  · intro absent
    rw [step, Value.member_of_not_mem named absent]
    rfl

theorem data_values_are_declared (program : Program) : program.DeclaresData where
  values := by
    intro state declaration tag fields reachable reached
    exact ((declared_of_reachable reachable).reaches reached).here
  members := by
    intro state dest source field span declaration tag fields reachable fetched read
    have declared := ((declared_of_reachable reachable).stack.read read).here
    exact step_member_of_declared declared fetched read
  results := by
    intro state value cells reachable ended
    have declared := declared_of_reachable reachable
    rcases State.yields_of_step (process_eq_halt_ok_iff.mp ended) with
      ⟨rfl, instruction, span, _, yields⟩
    cases yields with
    | leave read _ | exit read =>
        exact Snapshot.shownBy_ofValue (declared.stack.read read) declared.cells

end Program
end StrictLambda
