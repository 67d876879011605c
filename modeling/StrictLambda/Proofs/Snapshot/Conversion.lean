import Mathlib.Data.List.Perm.Subperm
import Mathlib.Logic.Relation
import StrictLambda.Proofs.Snapshot.Recursion
import StrictLambda.Proofs.Snapshot.Solid
import StrictLambda.Proofs.Value.Parts

/-!
# Conversion of values without cycles

A value from which no cell leads back to itself is converted as if cells were followed without a
bound: no path through it can visit more cells than there are.  What comes out is the recursive
conversion, which is given here by rules.
-/

namespace StrictLambda
namespace Value

open Relation (ReflTransGen TransGen)

variable {Code : Type}

/-!
## Cycles
-/

inductive Inside (cells : Cells Code) : Value Code -> Value Code -> Prop where
  | field {declaration : Declaration} {tag : Nat} {fields : List (Value Code)}
      {field : Value Code} (member : field ∈ fields) :
      Inside cells field (data declaration tag fields)
  | content {cell : Cell} {content : Value Code} (tied : cells.content? cell = some content) :
      Inside cells content (fixpoint cell)

/-- No cell that the value leads to leads back to itself. -/
def Acyclic (cells : Cells Code) (value : Value Code) : Prop :=
  forall cell, ReflTransGen (Inside cells) (fixpoint cell) value ->
    ¬ TransGen (Inside cells) (fixpoint cell) (fixpoint cell)

/-!
## The recursive conversion
-/

/-- What a value is converted to.  A pair of a name and a part is made for as long as there are
both. -/
inductive Converts (entry : Code -> Entry) (cells : Cells Code) :
    Value Code -> Snapshot -> Prop where
  | integer (number : Int64) : Converts entry cells (integer number) (.atom (.integer number))
  | boolean (truth : Bool) : Converts entry cells (boolean truth) (.atom (.boolean truth))
  | function (code : Code) (captures : List (Value Code)) :
      Converts entry cells (function code captures)
        (.atom (.function (entry code) captures.length))
  | dataType (declaration : Declaration) :
      Converts entry cells (dataType declaration)
        (.atom (.dataType declaration.name (declaration.constructors.map Constructor.name)))
  | data {declaration : Declaration} {tag : Nat} {constructor : Constructor}
      {fields : List (Value Code)} {parts : List Snapshot}
      (named : declaration.constructors[tag]? = some constructor)
      (lengths : fields.length = parts.length)
      (inside : forall field part, (field, part) ∈ fields.zip parts ->
        Converts entry cells field part) :
      Converts entry cells (data declaration tag fields)
        (.data declaration.name constructor.name (constructor.fields.zip parts))
  | unnamed {declaration : Declaration} {tag : Nat} {fields : List (Value Code)}
      {parts : List Snapshot} (unknown : declaration.constructors[tag]? = none)
      (lengths : fields.length = parts.length)
      (inside : forall field part, (field, part) ∈ fields.zip parts ->
        Converts entry cells field part) :
      Converts entry cells (data declaration tag fields)
        (.data declaration.name declaration.name [])
  | pending {cell : Cell} (untied : cells.content? cell = none) :
      Converts entry cells (fixpoint cell) (.atom .pending)
  | tied {cell : Cell} {content : Value Code} {part : Snapshot}
      (tied : cells.content? cell = some content) (inside : Converts entry cells content part) :
      Converts entry cells (fixpoint cell) (.tied part)

variable {entry : Code -> Entry} {cells : Cells Code} {value : Value Code}

/-! ## What a value is when every cell is followed -/

theorem follow_of_named {declaration : Declaration} {tag : Nat} {constructor : Constructor}
    (named : declaration.constructors[tag]? = some constructor) (fields : List (Value Code)) :
    follow entry cells (data declaration tag fields) =
      .node (.data declaration.name constructor.name constructor.fields) fields := by
  rw [follow, constructorNames, named]

theorem follow_of_unknown {declaration : Declaration} {tag : Nat}
    (unknown : declaration.constructors[tag]? = none) (fields : List (Value Code)) :
    follow entry cells (data declaration tag fields) =
      .node (.data declaration.name declaration.name []) fields := by
  rw [follow, constructorNames, unknown]

theorem follow_of_tied {cell : Cell} {content : Value Code}
    (tied : cells.content? cell = some content) :
    follow entry cells (fixpoint cell) = .node .tied [content] := by
  rw [follow, tied]

theorem follow_of_untied {cell : Cell} (untied : cells.content? cell = none) :
    follow entry cells (fixpoint cell) = .leaf (.atom .pending) := by
  rw [follow, untied]

theorem partOf_follow_iff {part : Value Code} :
    PartOf (follow entry cells) part value ↔ Inside cells part value := by
  unfold PartOf
  constructor
  · intro member
    cases value with
    | integer | boolean | function | dataType => cases member
    | data declaration tag fields => exact .field member
    | fixpoint cell =>
        cases tied : cells.content? cell with
        | none =>
            rw [follow_of_untied tied] at member
            cases member
        | some content =>
            rw [follow_of_tied tied] at member
            rw [List.mem_singleton.mp member]
            exact .content tied
  · intro inside
    cases inside with
    | field member => exact member
    | content tied =>
        rw [follow_of_tied tied]
        exact List.mem_singleton_self _

/-! ## The rules and what they come to -/

theorem unfolds_of_zip {Source : Type} {split : Source -> Split Source} {sources : List Source}
    {snapshots : List Snapshot} (lengths : sources.length = snapshots.length)
    (inside : forall source snapshot, (source, snapshot) ∈ sources.zip snapshots ->
      Unfolds split [source] [snapshot]) : Unfolds split sources snapshots := by
  have pairwise : List.Forall₂ (fun source snapshot => Unfolds split [source] [snapshot])
      sources snapshots := List.forall₂_iff_zip.mpr ⟨lengths, inside _ _⟩
  clear lengths inside
  induction pairwise with
  | nil => exact .nil
  | cons first _ later => exact first.cons later

theorem Converts.unfolds {snapshot : Snapshot} (converts : value.Converts entry cells snapshot) :
    Unfolds (follow entry cells) [value] [snapshot] := by
  induction converts with
  | integer | boolean | function | dataType => exact .leaf rfl .nil
  | data named lengths _ ih =>
      exact .node (follow_of_named named _) (unfolds_of_zip lengths ih) .nil
  | unnamed unknown lengths _ ih =>
      exact .node (follow_of_unknown unknown _) (unfolds_of_zip lengths ih) .nil
  | pending untied => exact .leaf (follow_of_untied untied) .nil
  | tied tied _ ih => exact .node (follow_of_tied tied) ih .nil

theorem converts_of_leaf {snapshot : Snapshot}
    (opened : follow entry cells value = .leaf snapshot) :
    value.Converts entry cells snapshot := by
  cases value with
  | integer number =>
      cases opened
      exact .integer number
  | boolean truth =>
      cases opened
      exact .boolean truth
  | function code captures =>
      cases opened
      exact .function code captures
  | dataType declaration =>
      cases opened
      exact .dataType declaration
  | data declaration tag fields => cases opened
  | fixpoint cell =>
      cases tied : cells.content? cell with
      | none =>
          rw [follow_of_untied tied] at opened
          cases opened
          exact .pending tied
      | some content =>
          rw [follow_of_tied tied] at opened
          cases opened

theorem converts_of_node {shell : Shell} {parts : List (Value Code)} {built : List Snapshot}
    (opened : follow entry cells value = .node shell parts)
    (pairwise : List.Forall₂ (Converts entry cells) parts built) :
    value.Converts entry cells (shell.fill built) := by
  cases value with
  | integer | boolean | function | dataType => cases opened
  | data declaration tag fields =>
      rcases List.forall₂_iff_zip.mp pairwise with ⟨lengths, inside⟩
      cases named : declaration.constructors[tag]? with
      | none =>
          rw [follow_of_unknown named] at opened
          cases opened
          exact .unnamed named lengths fun _ _ => inside
      | some constructor =>
          rw [follow_of_named named] at opened
          cases opened
          exact .data named lengths fun _ _ => inside
  | fixpoint cell =>
      cases tied : cells.content? cell with
      | none =>
          rw [follow_of_untied tied] at opened
          cases opened
      | some content =>
          rw [follow_of_tied tied] at opened
          cases opened
          cases pairwise with
          | cons first none =>
              cases none
              exact .tied tied first

theorem converts_of_unfolds {values : List (Value Code)} {snapshots : List Snapshot}
    (unfolds : Unfolds (follow entry cells) values snapshots) :
    List.Forall₂ (Converts entry cells) values snapshots := by
  induction unfolds with
  | nil => exact .nil
  | leaf opened _ ih => exact .cons (converts_of_leaf opened) ih
  | node opened _ _ inside ih => exact .cons (converts_of_node opened inside) ih

theorem converts_iff {snapshot : Snapshot} :
    value.Converts entry cells snapshot ↔ Unfolds (follow entry cells) [value] [snapshot] := by
  constructor
  · exact Converts.unfolds
  · intro unfolds
    cases converts_of_unfolds unfolds with
    | cons first _ => exact first

/-!
## Paths through cells
-/

theorem length_le_size {visited : List Cell} (nodup : visited.Nodup)
    (bounded : forall cell, cell ∈ visited -> cell.index < cells.size) :
    visited.length <= cells.size := by
  have indices : (visited.map Cell.index).Nodup := by
    apply nodup.map
    intro cell other same
    cases cell
    cases other
    simpa using same
  have inside : visited.map Cell.index ⊆ List.range cells.size := by
    intro index member
    rcases List.mem_map.mp member with ⟨cell, visits, rfl⟩
    exact List.mem_range.mpr (bounded cell visits)
  have shorter := (List.subperm_of_subset indices inside).length_le
  rw [List.length_map, List.length_range] at shorter
  exact shorter

/-- The bounded conversion has come to a value that is inside of the root.  The cells it has
followed on the way are all different, and they are what the bound is lower by. -/
structure Within (cells : Cells Code) (root : Value Code) (source : Nat × Value Code)
    (value : Value Code) : Prop where
  same : source.2 = value
  below : ReflTransGen (Inside cells) value root
  followed : exists visited : List Cell, visited.Nodup ∧
    (forall cell, cell ∈ visited -> cell.index < cells.size ∧
      TransGen (Inside cells) value (fixpoint cell)) ∧
    source.1 + visited.length = cells.size

variable {root : Value Code} {source : Nat × Value Code}

theorem Within.field {declaration : Declaration} {tag : Nat} {fields : List (Value Code)}
    {hops : Nat} (within : Within cells root (hops, data declaration tag fields)
      (data declaration tag fields)) {field : Value Code} (member : field ∈ fields) :
    Within cells root (hops, field) field := by
  rcases within.followed with ⟨visited, nodup, visits, bound⟩
  refine ⟨rfl, .head (.field member) within.below, visited, nodup, ?_, bound⟩
  intro cell visit
  exact ⟨(visits cell visit).1, .head (.field member) (visits cell visit).2⟩

theorem Within.content (acyclic : root.Acyclic cells) {cell : Cell} {content : Value Code}
    {hops : Nat} (within : Within cells root (hops, fixpoint cell) (fixpoint cell))
    (tied : cells.content? cell = some content) :
    exists less, hops = less + 1 ∧ Within cells root (less, content) content := by
  -- A tied cell is followed for the first time on this path, so the bound is not met yet.
  rcases within.followed with ⟨visited, nodup, visits, bound⟩
  have inside : Inside cells content (fixpoint cell) := .content tied
  have fresh : cell ∉ visited := by
    intro again
    exact acyclic cell within.below (visits cell again).2
  have longer : (cell :: visited).Nodup := List.nodup_cons.mpr ⟨fresh, nodup⟩
  have bounded : forall other, other ∈ cell :: visited -> other.index < cells.size ∧
      TransGen (Inside cells) content (fixpoint other) := by
    intro other member
    rcases List.mem_cons.mp member with rfl | visit
    · exact ⟨Cells.lt_size_of_content? tied, .single inside⟩
    · exact ⟨(visits other visit).1, .head inside (visits other visit).2⟩
  have atMost := length_le_size longer fun other member => (bounded other member).1
  rw [List.length_cons] at atMost
  cases hops with
  | zero => omega
  | succ less =>
      refine ⟨less, rfl, rfl, .head inside within.below, _, longer, bounded, ?_⟩
      rw [List.length_cons]
      dsimp only at bound
      omega

theorem Within.alike (acyclic : root.Acyclic cells) (entry : Code -> Entry)
    (within : Within cells root source value) :
    (split entry cells source).Alike (Within cells root) (follow entry cells value) := by
  rcases source with ⟨hops, own⟩
  have same : own = value := within.same
  subst same
  cases own with
  | integer number => exact .leaf _
  | boolean truth => exact .leaf _
  | function code captures => exact .leaf _
  | dataType declaration => exact .leaf _
  | data declaration tag fields =>
      refine .node _ ?_
      rw [List.forall₂_map_left_iff, List.forall₂_same]
      intro field member
      exact within.field member
  | fixpoint cell =>
      cases tied : cells.content? cell with
      | none =>
          rw [follow_of_untied tied]
          cases hops with
          | zero => exact .leaf _
          | succ hops =>
              rw [split, tied]
              exact .leaf _
      | some content =>
          rcases within.content acyclic tied with ⟨less, rfl, inside⟩
          rw [follow_of_tied tied, split, tied]
          exact .node _ (.cons inside .nil)

theorem Acyclic.unfolds (acyclic : value.Acyclic cells) (entry : Code -> Entry) :
    Unfolds (follow entry cells) [value] [Snapshot.ofValue entry cells value] := by
  have start : Within cells value (cells.size, value) value :=
    ⟨rfl, .refl, [], List.nodup_nil, fun _ member => (nomatch member), rfl⟩
  apply (unfolds_assemble _).of_related (fun _ _ => Within.alike acyclic entry)
  exact .cons start .nil

end Value

theorem Unfolds.finite {Source : Type} {split : Source -> Split Source} {sources : List Source}
    {snapshots : List Snapshot} (unfolds : Unfolds split sources snapshots) :
    forall source, source ∈ sources -> Acc (PartOf split) source := by
  induction unfolds with
  | nil => exact List.forall_mem_nil _
  | leaf opened _ ih =>
      refine List.forall_mem_cons.mpr ⟨?_, ih⟩
      constructor
      intro part inside
      unfold PartOf at inside
      rw [opened] at inside
      cases inside
  | node opened _ _ ihInside ih =>
      refine List.forall_mem_cons.mpr ⟨?_, ih⟩
      constructor
      intro part inside
      unfold PartOf at inside
      rw [opened] at inside
      exact ihInside part inside

namespace Value

open Relation (ReflTransGen TransGen)

variable {Code : Type} {cells : Cells Code} {value : Value Code}

theorem not_inside_itself {part : Value Code} (finite : Acc (Inside cells) part) :
    ¬ TransGen (Inside cells) part part := by
  have deep := acc_transGen_iff.mpr finite
  clear finite
  induction deep with
  | intro part _ ih =>
      intro cycle
      exact ih part cycle cycle

theorem acyclic_iff_finite (entry : Code -> Entry) :
    value.Acyclic cells ↔ Acc (PartOf (follow entry cells)) value := by
  have same : PartOf (follow entry cells) = Inside cells := by
    funext part whole
    exact propext partOf_follow_iff
  constructor
  · intro acyclic
    exact (acyclic.unfolds entry).finite value List.mem_cons_self
  · intro finite cell below
    rw [same] at finite
    apply not_inside_itself
    generalize fixpoint cell = part at below
    induction below using ReflTransGen.head_induction_on with
    | refl => exact finite
    | head inside _ ih => exact ih.inv inside

end Value

/-!
## The recursive conversion
-/

namespace Snapshot

theorem ofValue_eq_bottomUp {Code : Type} {cells : Cells Code} {value : Value Code}
    (acyclic : value.Acyclic cells) (entry : Code -> Entry) :
    ofValue entry cells value =
      bottomUp (Value.follow entry cells) value ((Value.acyclic_iff_finite entry).mp acyclic) := by
  rw [← assemble_eq_bottomUp]
  exact List.singleton_inj.mp ((acyclic.unfolds entry).unique (unfolds_assemble _))

/-- The loop assembles what plain recursion builds, and opens every node once, in the same order.
So a copy is the same tree, and a value without cycles is converted by the rules of recursion, to
nothing else. -/
theorem assembly_is_recursion :
    (forall {Source : Type} (split : Source -> Split Source) (root : Source)
      (finite : Acc (PartOf split) root),
      assemble split root finite = bottomUp split root finite ∧
        (Assembly.opening root []).Yields split (preorder split root finite)
          (bottomUp split root finite)) ∧
    (forall snapshot : Snapshot, snapshot.copy = snapshot) ∧
    forall {Code : Type} (entry : Code -> Entry) (cells : Cells Code) (value : Value Code),
      value.Acyclic cells ->
        (exists finite : Acc (PartOf (Value.follow entry cells)) value,
          ofValue entry cells value = assemble (Value.follow entry cells) value finite) ∧
        forall snapshot, value.Converts entry cells snapshot ↔
          snapshot = ofValue entry cells value := by
  refine ⟨?_, copy_eq, ?_⟩
  · intro Source split root finite
    exact ⟨assemble_eq_bottomUp finite, Assembly.yields_bottomUp finite⟩
  · intro Code entry cells value acyclic
    have unfolds := acyclic.unfolds entry
    refine ⟨⟨(Value.acyclic_iff_finite entry).mp acyclic, ?_⟩, ?_⟩
    · rw [assemble_eq_bottomUp, ofValue_eq_bottomUp acyclic]
    · intro snapshot
      rw [Value.converts_iff]
      constructor
      · intro converts
        exact List.singleton_inj.mp (converts.unique unfolds)
      · rintro rfl
        exact unfolds

/-- One cell holds a data value with a field too many, the last two of whose fields are a cell that
is not tied. -/
def sharedCells : Cells Entry where
  contents := #[
    some (.data ⟨⟨1⟩, [⟨⟨2⟩, [⟨3⟩, ⟨4⟩]⟩]⟩ 0 [.integer 5, .fixpoint ⟨1⟩, .fixpoint ⟨1⟩]),
    none]

theorem assembly_is_recursion_for_sharedCells :
    Value.Acyclic sharedCells (.fixpoint ⟨0⟩) ∧
      ofValue id sharedCells (.fixpoint ⟨0⟩) =
        .tied (.data ⟨1⟩ ⟨2⟩ [(⟨3⟩, .atom (.integer 5)), (⟨4⟩, .atom .pending)]) := by
  have fields : Unfolds (Value.follow id sharedCells)
      [.integer 5, .fixpoint ⟨1⟩, .fixpoint ⟨1⟩]
      [.atom (.integer 5), .atom .pending, .atom .pending] :=
    .leaf rfl (.leaf rfl (.leaf rfl .nil))
  have unfolds : Unfolds (Value.follow id sharedCells) [.fixpoint ⟨0⟩]
      [Shell.tied.fill [(Shell.data ⟨1⟩ ⟨2⟩ [⟨3⟩, ⟨4⟩]).fill
        [.atom (.integer 5), .atom .pending, .atom .pending]]] :=
    .node rfl (.node rfl fields .nil) .nil
  have acyclic : Value.Acyclic sharedCells (.fixpoint ⟨0⟩) :=
    (Value.acyclic_iff_finite id).mpr (unfolds.finite _ List.mem_cons_self)
  have converted := assembly_is_recursion.2.2 id sharedCells _ acyclic
  exact ⟨acyclic, ((converted.2 _).mp (Value.converts_iff.mpr unfolds)).symm⟩

end Snapshot
end StrictLambda
