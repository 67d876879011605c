import StrictLambda.Proofs.Block.OpenCells
import StrictLambda.Proofs.Builder.Fixpoints
import StrictLambda.Proofs.Builder.Groups
import StrictLambda.Proofs.Layout.Relays
import StrictLambda.Proofs.Layout.Safety

/-!
# Groups leave no trace in runs

Groups only show in the spans of instructions that hand on a value.  A copy never shows its span.
The end of a fixpoint would, if there were no cell to tie or if the cell had been tied before, but
neither ever happens while a program of a term runs.
-/

namespace StrictLambda
namespace Program

open Block (Inherited)

variable {program : Program} {tree : Block} {term other : Term}

/-!
## Ends of fixpoints
-/

/-- A program of a term ends each fixpoint with a cell that is still empty, whatever the term, and
whatever address ends its runs. -/
theorem endsFreshly_of_reachable (built : Block.ofTerm term = .ok tree)
    (accepted : ofBlock tree = .ok program) {machine : State}
    (reachable : program.Reachable machine) : program.EndsFreshly machine := by
  intro fixpoint source span fetched
  rcases exists_follows_of_reachable accepted reachable with
    ⟨state, node, reached, ⟨sound, represents⟩, found, emits⟩
  rcases sound.frame.holds.fetch?_eq found emits with ⟨instruction, realizes, fetchedHere⟩
  rw [represents.pc, fetchedHere] at fetched
  cases fetched
  cases realizes with
  | operation =>
      have inherited : Inherited (Block.ComesFrom · term) := fun _ _ _ _ _ comes => comes.nested
      have nests : forall block : Block, block.ComesFrom term -> block.NestsFixpoints :=
        fun _ comes => comes.nestsFixpoints
      have outermost := Block.comesFrom_of_builtFrom (Block.builtFrom_of_ofTerm built)
      rcases Block.exists_cell_of_endFixpoint inherited nests outermost reached found with
        ⟨cell, read, empty⟩
      refine ⟨cell, ?_, ?_⟩
      · rw [represents.read_eq, read]
        exact congrArg Except.ok (Value.map_fixpoint _ cell)
      · rw [represents.cells, Cells.content?_map, empty]
        rfl

/-!
## Programs
-/

/-- Groups can be removed from a term wherever they stand.  Without them the term is rejected with
the same failure, or it has a program with the same code and the same tables, in which at most
copies and ends of fixpoints have other spans; and both programs run through the same states to the
same result or to the same failure. -/
theorem ofTerm_ignores_groups (loses : term.LosesGroups other) :
    Corresponds (fun program second => program.DiffersInRelays second ∧ program.RunsLike second)
      (ofTerm term) (ofTerm other) := by
  unfold ofTerm
  apply (Block.ofTerm_of_losesGroups loses).followed
  intro tree second built builtOther alike
  rcases exists_ofBlock_of_ofTerm built with ⟨program, accepted⟩
  rcases exists_ofBlock_of_ofTerm builtOther with ⟨programOther, acceptedOther⟩
  rw [accepted, acceptedOther]
  have differs := differsInRelays_of_fade alike accepted acceptedOther
  exact .ok ⟨differs, differs.runsLike fun _ => endsFreshly_of_reachable built accepted⟩

/-- A recursive function that adds up the numbers from its argument on, and is applied at once.
Some of its parts can be wrapped up, each with the place where the wrapper begins. -/
def recursiveSum (wrap : Nat -> Term -> Term) : Term :=
  let span (start : Nat) : Span := ⟨⟨0⟩, start, start + 1⟩
  let sum : Binding := ⟨⟨0⟩, 0⟩
  let number : Binding := ⟨⟨1⟩, 1⟩
  .letIn (span 0) sum
    (wrap 1
      (.abs (span 2) number
        (.binary (span 3) .add (.var (span 4) number)
          (.cond (span 5)
            (.binary (span 6) .eq (.var (span 7) number) (.literal (span 8) (.integer 0)))
            (wrap 9 (.var (span 10) number))
            (wrap 11
              (.app (span 12) (wrap 13 (.var (span 14) sum))
                (.binary (span 15) .sub (.var (span 16) number)
                  (.literal (span 17) (.integer 1)))))))))
    (wrap 18 (.app (span 19) (.var (span 20) sum) (.literal (span 21) (.integer 2))))

def groupedSum : Term :=
  recursiveSum fun start => .group ⟨⟨0⟩, start, start + 9⟩

def plainSum : Term :=
  recursiveSum fun _ => id

theorem ofTerm_ignores_groups_of_groupedSum :
    groupedSum.LosesGroups plainSum ∧ exists program second, ofTerm groupedSum = .ok program ∧
      ofTerm plainSum = .ok second ∧ second.spans ≠ program.spans ∧
        program.DiffersInRelays second ∧ program.RunsLike second := by
  have loses : groupedSum.LosesGroups plainSum :=
    .letIn
      (.ungroup (.abs (.binary .var
        (.cond (.binary .var .literal) (.ungroup .var)
          (.ungroup (.app (.ungroup .var) (.binary .var .literal)))))))
      (.ungroup (.app .var .literal))
  have spans : (ofTerm plainSum).map Program.spans ≠ (ofTerm groupedSum).map Program.spans := by
    decide +kernel
  have corresponds := ofTerm_ignores_groups loses
  generalize compiled : ofTerm groupedSum = outcome at corresponds spans
  generalize compiledPlain : ofTerm plainSum = outcomePlain at corresponds spans
  refine ⟨loses, ?_⟩
  cases corresponds with
  | @ok program second related =>
      exact ⟨program, second, rfl, rfl, fun same => spans (congrArg Except.ok same), related⟩
  | error failure => exact absurd rfl spans

end Program
end StrictLambda
