import StrictLambda.Snapshot.Assembly
import StrictLambda.Value.Cells

/-!
# Snapshots of values

Data values keep their fields and tied cells are followed.  A cell can lead back to itself, so the
number of cells followed on the way to a part is bounded by the number of cells there are.  A path
that visits no cell twice never meets the bound; on any other path the value has no finite tree, and
the part beyond the bound is shown as pending.
-/

namespace StrictLambda
namespace Value

variable {Code : Type}

/-- The name of the constructor of a data value and the names of its fields.  A number without a
constructor goes by the name of the data type and has no field names. -/
def constructorNames (declaration : Declaration) (tag : Nat) : Symbol × List Symbol :=
  match declaration.constructors[tag]? with
  | some constructor => (constructor.name, constructor.fields)
  | none => (declaration.name, [])

/-- Opens a value, given how many more cells may be followed below it. -/
def split (entry : Code -> Entry) (cells : Cells Code) :
    Nat × Value Code -> Split (Nat × Value Code)
  | (_, integer value) => .leaf (.atom (.integer value))
  | (_, boolean value) => .leaf (.atom (.boolean value))
  | (_, function code captures) => .leaf (.atom (.function (entry code) captures.length))
  | (_, dataType declaration) =>
      .leaf (.atom (.dataType declaration.name (declaration.constructors.map Constructor.name)))
  | (hops, data declaration tag fields) =>
      let (constructor, names) := constructorNames declaration tag
      .node (.data declaration.name constructor names) (fields.map fun field => (hops, field))
  | (0, fixpoint _) => .leaf (.atom .pending)
  | (hops + 1, fixpoint cell) =>
      match cells.content? cell with
      | some content => .node .tied [(hops, content)]
      | none => .leaf (.atom .pending)

theorem lex_of_partOf {entry : Code -> Entry} {cells : Cells Code}
    {part whole : Nat × Value Code} (member : PartOf (split entry cells) part whole) :
    Prod.Lex (· < ·) (· < ·) (part.1, sizeOf part.2) (whole.1, sizeOf whole.2) := by
  unfold PartOf split at member
  split at member
  · cases member
  · cases member
  · cases member
  · cases member
  · next hops declaration tag fields =>
      simp only [Split.parts, List.mem_map] at member
      cases member with
      | intro field found =>
          rw [← found.2]
          apply Prod.Lex.right
          have smaller := List.sizeOf_lt_of_mem found.1
          simp only [data.sizeOf_spec]
          omega
  · cases member
  · next hops cell =>
      split at member
      · next content _ =>
          simp only [Split.parts, List.mem_singleton] at member
          subst member
          exact Prod.Lex.left _ _ (Nat.lt_succ_self hops)
      · cases member

theorem finite (entry : Code -> Entry) (cells : Cells Code) (source : Nat × Value Code) :
    Acc (PartOf (split entry cells)) source :=
  Subrelation.accessible lex_of_partOf
    (InvImage.accessible (fun source : Nat × Value Code => (source.1, sizeOf source.2))
      ((Prod.lex Nat.lt_wfRel Nat.lt_wfRel).wf.apply (source.1, sizeOf source.2)))

end Value

def Snapshot.ofValue {Code : Type} (entry : Code -> Entry) (cells : Cells Code)
    (value : Value Code) : Snapshot :=
  assemble (Value.split entry cells) (cells.size, value) (Value.finite entry cells _)

end StrictLambda
