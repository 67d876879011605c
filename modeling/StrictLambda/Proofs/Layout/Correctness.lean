import StrictLambda.Proofs.Layout.Simulation
import StrictLambda.Proofs.Snapshot.Unfolding

/-!
# Laying out a tree keeps its meaning

A tree of blocks and the program it is laid out as come to the same ending, whatever the tree looks
like: the same result, the same failure at the same place in the source, or none at all.
-/

namespace StrictLambda

namespace Block

def Ends (tree : Block) (ending : Except Failure (Value Body × Cells Body)) : Prop :=
  exists limit, tree.run limit = some ending

def RunsForever (tree : Block) : Prop :=
  forall limit, tree.run limit = none

end Block

namespace Program

open Block (Body)

/-- The snapshot of a result of the block interpreter, with functions shown as the program has
them. -/
def exhibit (program : Program) (result : Value Body × Cells Body) : Snapshot :=
  .ofValue program.shown result.2 result.1

theorem ofResult_shownResult (program : Program) (result : Value Body × Cells Body) :
    Snapshot.ofResult (program.shownResult result) = program.exhibit result :=
  Snapshot.ofValue_map program.shown id result.2 result.1

theorem answers_iff_of_ofBlock {program : Program} {tree : Block}
    (accepted : ofBlock tree = .ok program) (small : program.size < Address.halt.index)
    (ending : Except Failure Snapshot) :
    program.Answers ending ↔
      exists own, tree.Ends own ∧ ending = own.map program.exhibit := by
  have endings := (simulation small).ends_iff (follows_start accepted)
  rw [answers_iff]
  constructor
  · intro answers
    rcases answers with ⟨bound, shownEnding, ended, rfl⟩
    rcases (endings shownEnding).mp ⟨bound, ended⟩ with ⟨limit, own, ends, rfl⟩
    refine ⟨own, ⟨limit, ends⟩, ?_⟩
    cases own with
    | error failure => rfl
    | ok result => exact congrArg Except.ok (ofResult_shownResult program result)
  · intro ends
    rcases ends with ⟨own, ⟨limit, ends⟩, rfl⟩
    rcases (endings (own.map program.shownResult)).mpr ⟨limit, own, ends, rfl⟩ with
      ⟨bound, ended⟩
    refine ⟨bound, _, ended, ?_⟩
    cases own with
    | error failure => rfl
    | ok result => exact congrArg Except.ok (ofResult_shownResult program result).symm

theorem runsForever_iff_of_ofBlock {program : Program} {tree : Block}
    (accepted : ofBlock tree = .ok program) (small : program.size < Address.halt.index) :
    program.RunsForever ↔ tree.RunsForever := by
  rw [runsForever_iff]
  exact (simulation small).runs_forever_iff (follows_start accepted)

/-- A program does what the tree does that it was laid out from, as long as the address that ends
a run is not one of its own. -/
theorem ofBlock_preserves_meaning {program : Program} {tree : Block}
    (accepted : ofBlock tree = .ok program) (small : program.size < Address.halt.index) :
    (forall ending, program.Answers ending ↔
      exists own, tree.Ends own ∧ ending = own.map program.exhibit) ∧
    (program.RunsForever ↔ tree.RunsForever) :=
  ⟨answers_iff_of_ofBlock accepted small, runsForever_iff_of_ofBlock accepted small⟩

theorem ofBlock_preserves_meaning_of_identityTree :
    exists program, ofBlock Block.identityTree = .ok program ∧
      program.size < Address.halt.index ∧
      (forall ending, program.Answers ending ↔
        exists own, Block.identityTree.Ends own ∧ ending = own.map program.exhibit) ∧
      (program.RunsForever ↔ Block.identityTree.RunsForever) :=
  ⟨_, rfl, by decide, ofBlock_preserves_meaning rfl (by decide)⟩

end Program
end StrictLambda
