import StrictLambda.Proofs.Layout.Correctness
import StrictLambda.Proofs.Snapshot.Code
import StrictLambda.Proofs.TailCalls.Returning

/-!
# Tail calls change nothing but the stack

A program does the same if every tail call is a call whose result is returned: it comes to the same
value, but for the places of code in it, to the same failure at the same place in the source, or to
no ending at all.
-/

namespace StrictLambda
namespace Block

variable {tree : Block}

/-!
## Trees
-/

theorem unrolls_start (tree : Block) : Unrolls (.start tree) (.start tree.unrolled) where
  frame := by
    have larger := frameSize_le_unrolled tree
    simp [State.start, Frame.outermost, Frame.unrolled, Body.unrolled, unrolledPosition,
      Nat.add_sub_cancel' larger]
  callers := .nil
  cells := (Cells.map_empty Body.unrolled).symm

theorem ends_unrolled_iff {program : Program} (accepted : Program.ofBlock tree = .ok program)
    (ending : Except Failure (Value Body × Cells Body)) :
    tree.unrolled.Ends ending ↔ exists own, tree.Ends own ∧ ending = own.map unrolledResult := by
  have sound := Program.sound_start (Program.holds_of_ofBlock accepted)
  have endings := expansion.ends_iff ⟨sound, unrolls_start tree⟩ ending
  constructor
  · intro ends
    rcases endings.mp ends with ⟨limit, own, ended, shows⟩
    exact ⟨own, ⟨limit, ended⟩, shows⟩
  · rintro ⟨own, ⟨limit, ended⟩, shows⟩
    exact endings.mpr ⟨limit, own, ended, shows⟩

theorem runsForever_unrolled_iff {program : Program}
    (accepted : Program.ofBlock tree = .ok program) :
    tree.unrolled.RunsForever ↔ tree.RunsForever :=
  expansion.runs_forever_iff
    ⟨Program.sound_start (Program.holds_of_ofBlock accepted), unrolls_start tree⟩

end Block

/-!
## Programs
-/

namespace Program

open Block (Body)

/-- Both programs come to the same failures, to the same values but for the code of functions in
them, or to no ending. -/
structure AgreesWith (first second : Program) : Prop where
  there : forall ending, first.Answers ending ->
    exists other, second.Answers other ∧
      other.map Snapshot.withoutCode = ending.map Snapshot.withoutCode
  back : forall ending, second.Answers ending ->
    exists other, first.Answers other ∧
      other.map Snapshot.withoutCode = ending.map Snapshot.withoutCode
  forever : first.RunsForever ↔ second.RunsForever

theorem withoutCode_exhibit_unrolled (first second : Program)
    (ending : Except Failure (Value Body × Cells Body)) :
    ((ending.map Block.unrolledResult).map second.exhibit).map Snapshot.withoutCode =
      (ending.map first.exhibit).map Snapshot.withoutCode := by
  cases ending with
  | error failure => rfl
  | ok result =>
      rcases result with ⟨value, cells⟩
      have shows : second.exhibit (Block.unrolledResult (value, cells)) = .ofValue _ cells value :=
        Snapshot.ofValue_map Body.unrolled second.shown cells value
      simp only [Except.map]
      rw [shows, exhibit, Snapshot.withoutCode_ofValue, Snapshot.withoutCode_ofValue]

theorem agreesWith_of_unrolled {tree : Block} {program unrolled : Program}
    (accepted : ofBlock tree = .ok program)
    (acceptedUnrolled : ofBlock tree.unrolled = .ok unrolled)
    (small : unrolled.size < Address.halt.index) : program.AgreesWith unrolled := by
  have smaller : program.size < Address.halt.index := by
    have sizes := Block.codeSize_le_unrolled tree
    rw [← size_of_ofBlock accepted, ← size_of_ofBlock acceptedUnrolled] at sizes
    omega
  have answers := answers_iff_of_ofBlock accepted smaller
  have answersUnrolled := answers_iff_of_ofBlock acceptedUnrolled small
  refine ⟨?_, ?_, ?_⟩
  · intro ending answered
    rcases (answers ending).mp answered with ⟨own, ends, rfl⟩
    have endsUnrolled := (Block.ends_unrolled_iff accepted _).mpr ⟨own, ends, rfl⟩
    exact ⟨_, (answersUnrolled _).mpr ⟨_, endsUnrolled, rfl⟩,
      withoutCode_exhibit_unrolled program unrolled own⟩
  · intro ending answered
    rcases (answersUnrolled ending).mp answered with ⟨other, endsUnrolled, rfl⟩
    rcases (Block.ends_unrolled_iff accepted other).mp endsUnrolled with ⟨own, ends, rfl⟩
    exact ⟨_, (answers _).mpr ⟨own, ends, rfl⟩,
      (withoutCode_exhibit_unrolled program unrolled own).symm⟩
  · rw [runsForever_iff_of_ofBlock accepted smaller,
      runsForever_iff_of_ofBlock acceptedUnrolled small]
    exact (Block.runsForever_unrolled_iff accepted).symm

/-- A tree that can be laid out can be laid out without tail calls as well, and then does the same,
as long as the address that ends a run is not one of the program. -/
theorem ofBlock_unrolled_preserves_meaning {tree : Block} {program : Program}
    (accepted : ofBlock tree = .ok program) :
    exists unrolled, ofBlock tree.unrolled = .ok unrolled ∧
      (unrolled.size < Address.halt.index -> program.AgreesWith unrolled) := by
  rcases exists_ofBlock (acceptable_of_ofBlock accepted).unrolled with
    ⟨unrolled, acceptedUnrolled⟩
  exact ⟨unrolled, acceptedUnrolled, agreesWith_of_unrolled accepted acceptedUnrolled⟩

theorem ofBlock_unrolled_preserves_meaning_of_relayTree :
    exists program unrolled, ofBlock Block.relayTree = .ok program ∧
      ofBlock Block.relayTree.unrolled = .ok unrolled ∧
      unrolled.size < Address.halt.index ∧ program.AgreesWith unrolled := by
  have laidOut : exists program, ofBlock Block.relayTree = .ok program := ⟨_, rfl⟩
  rcases laidOut with ⟨program, accepted⟩
  rcases ofBlock_unrolled_preserves_meaning accepted with ⟨unrolled, acceptedUnrolled, agrees⟩
  have small : unrolled.size < Address.halt.index := by
    rw [size_of_ofBlock acceptedUnrolled]
    decide
  exact ⟨program, unrolled, accepted, acceptedUnrolled, small, agrees small⟩

end Program
end StrictLambda
