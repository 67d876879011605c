import StrictLambda.Proofs.Snapshot.Unfolding

/-!
# Snapshots without cells

A value that has no cell among its fields, however deep they are, has a snapshot without cells.
The bound on the number of cells that are followed plays no part in it: the snapshot is the same if
cells are followed as often as they are met.
-/

namespace StrictLambda

inductive Snapshot.Solid : Snapshot -> Prop where
  | atom {leaf : Atom} (differs : leaf ≠ .pending) : Solid (.atom leaf)
  | data {type constructor : Symbol} {fields : List (Symbol × Snapshot)}
      (inside : forall field, field ∈ fields -> Solid field.2) :
      Solid (.data type constructor fields)

namespace Value

variable {Code : Type}

/-- The value is not a cell and has none among its fields.  What functions have captured does not
show. -/
inductive Solid : Value Code -> Prop where
  | integer (value : Int64) : Solid (.integer value)
  | boolean (value : Bool) : Solid (.boolean value)
  | function (code : Code) (captures : List (Value Code)) : Solid (.function code captures)
  | dataType (declaration : Declaration) : Solid (.dataType declaration)
  | data {declaration : Declaration} {tag : Nat} {fields : List (Value Code)}
      (inside : forall field, field ∈ fields -> Solid field) :
      Solid (.data declaration tag fields)

theorem Solid.map {Other : Type} {value : Value Code} (solid : value.Solid)
    (change : Code -> Other) : (value.map change).Solid := by
  induction solid with
  | integer value =>
      rw [map_integer]
      exact .integer value
  | boolean value =>
      rw [map_boolean]
      exact .boolean value
  | function code captures =>
      rw [map_function]
      exact .function _ _
  | dataType declaration =>
      rw [map_dataType]
      exact .dataType declaration
  | data _ ih =>
      rw [map_data]
      refine .data ?_
      intro changed member
      rcases List.mem_map.mp member with ⟨field, own, rfl⟩
      exact ih field own

def follow (entry : Code -> Entry) (cells : Cells Code) : Value Code -> Split (Value Code)
  | integer value => .leaf (.atom (.integer value))
  | boolean value => .leaf (.atom (.boolean value))
  | function code captures => .leaf (.atom (.function (entry code) captures.length))
  | dataType declaration =>
      .leaf (.atom (.dataType declaration.name (declaration.constructors.map Constructor.name)))
  | data declaration tag fields =>
      let (constructor, names) := constructorNames declaration tag
      .node (.data declaration.name constructor names) fields
  | fixpoint cell =>
      match cells.content? cell with
      | some content => .node .tied [content]
      | none => .leaf (.atom .pending)

/-- With or without the bound, the value unfolds to the same snapshot without cells. -/
structure SolidlyUnfolds (entry : Code -> Entry) (cells : Cells Code) (hops : Nat)
    (values : List (Value Code)) (snapshots : List Snapshot) : Prop where
  solid : forall snapshot, snapshot ∈ snapshots -> snapshot.Solid
  bounded : Unfolds (split entry cells) (values.map fun value => (hops, value)) snapshots
  followed : Unfolds (follow entry cells) values snapshots

variable {entry : Code -> Entry} {cells : Cells Code} {hops : Nat}

theorem solidlyUnfolds_leaf {value : Value Code} {leaf : Atom} (differs : leaf ≠ .pending)
    (opened : split entry cells (hops, value) = .leaf (.atom leaf))
    (followed : follow entry cells value = .leaf (.atom leaf)) :
    SolidlyUnfolds entry cells hops [value] [.atom leaf] :=
  ⟨List.forall_mem_singleton.mpr (.atom differs), .leaf opened .nil, .leaf followed .nil⟩

theorem exists_solidlyUnfolds_of_mem {values : List (Value Code)}
    (each : forall value, value ∈ values ->
      exists snapshot, SolidlyUnfolds entry cells hops [value] [snapshot]) :
    exists snapshots, SolidlyUnfolds entry cells hops values snapshots := by
  induction values with
  | nil => exact ⟨[], List.forall_mem_nil _, .nil, .nil⟩
  | cons value rest ih =>
      rcases each value List.mem_cons_self with ⟨snapshot, solid, bounded, followed⟩
      rcases ih fun other member => each other (List.mem_cons_of_mem _ member) with
        ⟨snapshots, solidOthers, boundedOthers, followedOthers⟩
      refine ⟨snapshot :: snapshots, ?_, bounded.cons boundedOthers,
        followed.cons followedOthers⟩
      exact List.forall_mem_cons.mpr ⟨solid snapshot List.mem_cons_self, solidOthers⟩

theorem Solid.exists_solidlyUnfolds {value : Value Code} (solid : value.Solid)
    (entry : Code -> Entry) (cells : Cells Code) (hops : Nat) :
    exists snapshot, SolidlyUnfolds entry cells hops [value] [snapshot] := by
  induction solid with
  | integer | boolean | function | dataType =>
      exact ⟨_, solidlyUnfolds_leaf Atom.noConfusion rfl rfl⟩
  | @data declaration tag fields _ ih =>
      rcases exists_solidlyUnfolds_of_mem ih with ⟨snapshots, solid, bounded, followed⟩
      refine ⟨_, ?_, .node rfl bounded .nil, .node rfl followed .nil⟩
      refine List.forall_mem_singleton.mpr (.data ?_)
      intro field member
      exact solid field.2 (List.of_mem_zip member).2

end Value

theorem Snapshot.solid_ofValue {Code : Type} {value : Value Code} (solid : value.Solid)
    (entry : Code -> Entry) (cells : Cells Code) :
    (ofValue entry cells value).Solid ∧
      Unfolds (Value.follow entry cells) [value] [ofValue entry cells value] := by
  rcases solid.exists_solidlyUnfolds entry cells cells.size with
    ⟨snapshot, solidSnapshot, bounded, followed⟩
  have same : [snapshot] = [ofValue entry cells value] := bounded.unique (unfolds_assemble _)
  rw [← List.singleton_inj.mp same]
  exact ⟨solidSnapshot snapshot List.mem_cons_self, followed⟩

end StrictLambda
