import StrictLambda.Proofs.Machine.Cells
import StrictLambda.Proofs.Machine.DataValues

/-!
# Access to fields, inside and outside

A program asks a data value for a field by looking for the name in the declaration and then for the
value at that position.  The host asks a snapshot, where names and fields have been paired up.  Both
find the same field: names can be repeated, and there can be more or fewer fields than names.
-/

namespace StrictLambda

/-!
## Pairs of names and parts
-/

theorem lookup_zip {Part : Type} (names : List Symbol) (parts : List Part) (name : Symbol) :
    (names.zip parts).lookup name = (names.idxOf? name).bind fun index => parts[index]? := by
  induction names generalizing parts with
  | nil => rfl
  | cons first names ih =>
      cases parts with
      | nil => simp
      | cons part parts =>
          rw [List.zip_cons_cons, List.lookup_cons, List.idxOf?_cons]
          by_cases found : name = first
          · simp [found]
          · have other : first ≠ name := fun same => found same.symm
            simp only [beq_eq_false_iff_ne.mpr found, beq_eq_false_iff_ne.mpr other, ih]
            cases names.idxOf? name <;> rfl

/-!
## Snapshots of data values
-/

namespace Snapshot

variable {Code : Type} {entry : Code -> Entry} {cells : Cells Code} {declaration : Declaration}
  {tag : Nat} {constructor : Constructor}

theorem unfolds_ofValue (fields : List (Value Code)) :
    Unfolds (Value.split entry cells) (fields.map fun field => (cells.size, field))
      (fields.map (ofValue entry cells)) := by
  induction fields with
  | nil => exact .nil
  | cons field rest ih => exact (unfolds_assemble _).cons ih

theorem ofValue_data (named : declaration.constructors[tag]? = some constructor)
    (fields : List (Value Code)) :
    ofValue entry cells (.data declaration tag fields) =
      .data declaration.name constructor.name
        (constructor.fields.zip (fields.map (ofValue entry cells))) := by
  have opened : Value.split entry cells (cells.size, .data declaration tag fields) =
      .node (.data declaration.name constructor.name constructor.fields)
        (fields.map fun field => (cells.size, field)) := by
    rw [Value.split, Value.constructorNames, named]
  have unfolds := Unfolds.node opened (unfolds_ofValue fields) .nil
  exact List.singleton_inj.mp ((unfolds_assemble _).unique unfolds)

theorem field?_ofValue_data (named : declaration.constructors[tag]? = some constructor)
    (fields : List (Value Code)) (field : Symbol) :
    (ofValue entry cells (.data declaration tag fields)).field? field =
      ((constructor.fieldIndex? field).bind fun index => fields[index]?).map
        (ofValue entry cells) := by
  rw [ofValue_data named, field?, lookup_zip, Option.map_bind]
  simp only [List.getElem?_map]
  rfl

end Snapshot

/-!
## Access by a program
-/

theorem Value.member_data {Code : Type} {declaration : Declaration} {tag : Nat}
    {constructor : Constructor} (named : declaration.constructors[tag]? = some constructor)
    (fields : List (Value Code)) (field : Symbol) (span : Span) :
    (data declaration tag fields).member span field =
      match (constructor.fieldIndex? field).bind fun index => fields[index]? with
      | some found => .ok found
      | none => .error (.fault (.missingField constructor.name field) span) := by
  unfold member
  simp only [named]
  cases constructor.fieldIndex? field with
  | none => rfl
  | some index => cases found : fields[index]? <;> simp [found]

namespace Program

variable {program : Program} {state : State} {dest source : Register} {field : Symbol} {span : Span}
  {declaration : Declaration} {tag : Nat} {fields : List (Value Entry)} {constructor : Constructor}

/-- Whatever a program gets when it asks for a field, the host gets the snapshot of it, and the
program fails for want of the field exactly if the host finds none.  Nothing is known of the program
or of how the data value was made. -/
theorem member_agrees_with_field
    (fetched : program.fetch? state.pc = some (.operation (.member dest source field), span))
    (read : state.read source = .ok (.data declaration tag fields))
    (named : declaration.constructors[tag]? = some constructor) :
    (forall transition, state.step program = .ok transition -> exists after value,
      transition = .next after ∧ after.read dest = .ok value ∧ after.cells = state.cells ∧
        (Snapshot.ofValue id state.cells (.data declaration tag fields)).field? field =
          some (Snapshot.ofValue id state.cells value)) ∧
    (state.step program = .error (.fault (.missingField constructor.name field) span) ↔
      (Snapshot.ofValue id state.cells (.data declaration tag fields)).field? field = none) := by
  have step := State.step_member fetched read
  rw [Value.member_data named] at step
  rw [Snapshot.field?_ofValue_data named]
  generalize (constructor.fieldIndex? field).bind (fun index => fields[index]?) = place at step ⊢
  cases place with
  | none =>
      rw [Option.map_none, step]
      refine ⟨?_, fun _ => rfl, fun _ => rfl⟩
      intro transition stepped
      cases stepped
  | some found =>
      rw [ok_bind] at step
      rw [Option.map_some, step]
      refine ⟨?_, ?_, ?_⟩
      · intro transition stored
        rcases State.store_eq_ok_iff.mp stored with ⟨stack, written, rfl⟩
        exact ⟨_, found, rfl, Stack.read_of_write written, rfl, rfl⟩
      · intro failed
        exact absurd failed State.store_ne_fault
      · intro absent
        cases absent

/-- Two of the three names of the constructor are the same, and one of the names has no field. -/
def crampedPair : Value Entry :=
  .data ⟨⟨1⟩, [⟨⟨2⟩, [⟨3⟩, ⟨3⟩, ⟨4⟩]⟩]⟩ 0 [.integer 5, .integer 6]

/-- Asks a data value in a register for the field `#3` and then for the field `#4`. -/
def askingTwice : Program where
  code := #[.operation (.member ⟨1⟩ ⟨0⟩ ⟨3⟩), .operation (.member ⟨1⟩ ⟨0⟩ ⟨4⟩)]
  spans := #[⟨⟨0⟩, 0, 1⟩, ⟨⟨0⟩, 1, 2⟩]
  operands := #[]
  declarations := #[]
  blocks := []
  entry := ⟨0⟩
  entryFrameSize := 2

def askingState (pc : Nat) : State where
  pc := ⟨pc⟩
  base := 0
  peak := 4
  stack := ⟨#[.base 0, .returnTo Address.halt, .value crampedPair, .empty]⟩
  cells := .empty

theorem member_agrees_with_field_of_crampedPair :
    (exists after, (askingState 0).step askingTwice = .ok (.next after) ∧
      after.read ⟨1⟩ = .ok (.integer 5) ∧
      (Snapshot.ofValue id .empty crampedPair).field? ⟨3⟩ = some (.atom (.integer 5))) ∧
    (askingState 1).step askingTwice = .error (.fault (.missingField ⟨2⟩ ⟨4⟩) ⟨⟨0⟩, 1, 2⟩) ∧
      (Snapshot.ofValue id .empty crampedPair).field? ⟨4⟩ = none := by
  have first : askingTwice.fetch? (askingState 0).pc =
      some (.operation (.member ⟨1⟩ ⟨0⟩ ⟨3⟩), ⟨⟨0⟩, 0, 1⟩) := rfl
  have second : askingTwice.fetch? (askingState 1).pc =
      some (.operation (.member ⟨1⟩ ⟨0⟩ ⟨4⟩), ⟨⟨0⟩, 1, 2⟩) := rfl
  have holds (pc : Nat) : (askingState pc).read ⟨0⟩ = .ok crampedPair := rfl
  have present := member_agrees_with_field first (holds 0) rfl
  have absent := member_agrees_with_field second (holds 1) rfl
  have failed : (askingState 1).step askingTwice =
      .error (.fault (.missingField ⟨2⟩ ⟨4⟩) ⟨⟨0⟩, 1, 2⟩) := rfl
  cases stepped : (askingState 0).step askingTwice with
  | error failure => cases stepped
  | ok transition =>
      rcases present.1 transition stepped with ⟨after, value, rfl, result, _, found⟩
      have five : value = .integer 5 := by
        cases stepped
        cases result
        rfl
      rw [five] at result found
      have shown := found.trans (congrArg some (Snapshot.ofValue_integer _ _ _))
      exact ⟨⟨after, rfl, result, shown⟩, failed, absent.2.mp failed⟩

end Program
end StrictLambda
