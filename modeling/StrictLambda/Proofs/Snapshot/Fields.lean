import StrictLambda.Proofs.Snapshot.Unfolding
import StrictLambda.Proofs.Value.Parts

/-!
# Fields in snapshots

A snapshot pairs the fields of a data value with the names that its constructor declares, up to the
shorter of the two lists, and has names to fall back on where there is no constructor.  Of a value
that agrees with its declaration, to any depth, all fields are shown and none of the other names is
used.
-/

namespace StrictLambda
namespace Value

variable {Code : Type}

/-- The snapshot shows the value.  A data value goes by the name of its constructor and has each of
its fields under the name that is declared for it.  Of a cell the content is shown, or that it is
pending, also where cells are not followed any further. -/
inductive ShownBy (entry : Code -> Entry) (cells : Cells Code) :
    Value Code -> Snapshot -> Prop where
  | integer (number : Int64) : ShownBy entry cells (.integer number) (.atom (.integer number))
  | boolean (holds : Bool) : ShownBy entry cells (.boolean holds) (.atom (.boolean holds))
  | function (code : Code) (captures : List (Value Code)) :
      ShownBy entry cells (.function code captures)
        (.atom (.function (entry code) captures.length))
  | dataType (declaration : Declaration) :
      ShownBy entry cells (.dataType declaration)
        (.atom (.dataType declaration.name (declaration.constructors.map Constructor.name)))
  | data {declaration : Declaration} {tag : Nat} {fields : List (Value Code)}
      {constructor : Constructor} {shown : List (Symbol × Snapshot)}
      (named : declaration.constructors[tag]? = some constructor)
      (names : shown.map Prod.fst = constructor.fields)
      (inside : List.Forall₂ (ShownBy entry cells) fields (shown.map Prod.snd)) :
      ShownBy entry cells (.data declaration tag fields)
        (.data declaration.name constructor.name shown)
  | pending (cell : Cell) : ShownBy entry cells (.fixpoint cell) (.atom .pending)
  | tied {cell : Cell} {value : Value Code} {snapshot : Snapshot}
      (content : cells.content? cell = some value) (inside : ShownBy entry cells value snapshot) :
      ShownBy entry cells (.fixpoint cell) (.tied snapshot)

variable {entry : Code -> Entry} {cells : Cells Code} {hops : Nat} {value : Value Code}

theorem shownBy_of_split_leaf {snapshot : Snapshot}
    (opened : split entry cells (hops, value) = .leaf snapshot) :
    value.ShownBy entry cells snapshot := by
  cases value with
  | integer number =>
      cases opened
      exact .integer number
  | boolean holds =>
      cases opened
      exact .boolean holds
  | function code captures =>
      cases opened
      exact .function code captures
  | dataType declaration =>
      cases opened
      exact .dataType declaration
  | data => cases opened
  | fixpoint cell =>
      cases hops with
      | zero =>
          cases opened
          exact .pending cell
      | succ hops =>
          rw [split] at opened
          split at opened
          · cases opened
          · cases opened
            exact .pending cell

theorem shownBy_of_split_node {shell : Shell} {parts : List (Nat × Value Code)}
    {built : List Snapshot} (declared : value.Declared)
    (opened : split entry cells (hops, value) = .node shell parts)
    (inside : List.Forall₂ (fun part snapshot => part.2.ShownBy entry cells snapshot) parts built) :
    value.ShownBy entry cells (shell.fill built) := by
  cases value with
  | integer | boolean | function | dataType => cases opened
  | data declaration tag fields =>
      rcases declared with ⟨constructor, named, length⟩
      simp only [split, constructorNames, named] at opened
      cases opened
      have shown := List.forall₂_map_left_iff.mp inside
      have count := shown.length_eq
      refine .data named ?_ ?_
      · rw [List.map_fst_zip (by omega)]
      · rw [List.map_snd_zip (by omega)]
        exact shown
  | fixpoint cell =>
      cases hops with
      | zero => cases opened
      | succ hops =>
          rw [split] at opened
          split at opened
          · next content holds =>
              cases opened
              cases inside with
              | cons first rest =>
                  cases rest
                  exact .tied holds first
          · cases opened

theorem everywhere_of_split_node {Holds : Value Code -> Prop} {shell : Shell}
    {parts : List (Nat × Value Code)} {part : Nat × Value Code}
    (here : value.Everywhere Holds)
    (contents : forall cell content, cells.content? cell = some content ->
      content.Everywhere Holds)
    (opened : split entry cells (hops, value) = .node shell parts) (member : part ∈ parts) :
    part.2.Everywhere Holds := by
  cases value with
  | integer | boolean | function | dataType => cases opened
  | data declaration tag fields =>
      cases opened
      rcases List.mem_map.mp member with ⟨field, own, rfl⟩
      exact here.inside own
  | fixpoint cell =>
      cases hops with
      | zero => cases opened
      | succ hops =>
          rw [split] at opened
          split at opened
          · next content holds =>
              cases opened
              cases List.mem_singleton.mp member
              exact contents cell content holds
          · cases opened

theorem shownBy_of_unfolds {sources : List (Nat × Value Code)} {snapshots : List Snapshot}
    (contents : forall cell content, cells.content? cell = some content ->
      content.Everywhere Declared)
    (unfolds : Unfolds (split entry cells) sources snapshots)
    (declared : forall source, source ∈ sources -> source.2.Everywhere Declared) :
    List.Forall₂ (fun source snapshot => source.2.ShownBy entry cells snapshot) sources
      snapshots := by
  induction unfolds with
  | nil => exact .nil
  | leaf opened _ ih =>
      rcases List.forall_mem_cons.mp declared with ⟨_, later⟩
      exact .cons (shownBy_of_split_leaf opened) (ih later)
  | node opened _ _ ihInside ih =>
      rcases List.forall_mem_cons.mp declared with ⟨here, later⟩
      have inside := ihInside fun part member =>
        everywhere_of_split_node here contents opened member
      exact .cons (shownBy_of_split_node here.here opened inside) (ih later)

end Value

theorem Snapshot.shownBy_ofValue {Code : Type} {entry : Code -> Entry} {cells : Cells Code}
    {value : Value Code} (declared : value.Everywhere Value.Declared)
    (contents : forall cell content, cells.content? cell = some content ->
      content.Everywhere Value.Declared) :
    value.ShownBy entry cells (ofValue entry cells value) := by
  have unfolds := unfolds_assemble (Value.finite entry cells (cells.size, value))
  have shown := Value.shownBy_of_unfolds contents unfolds
    (List.forall_mem_singleton.mpr declared)
  cases shown with
  | cons first _ => exact first

end StrictLambda
