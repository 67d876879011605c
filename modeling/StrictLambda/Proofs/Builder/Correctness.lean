import StrictLambda.Program.OfTerm
import StrictLambda.Proofs.Builder.Acceptance
import StrictLambda.Proofs.Builder.Calls
import StrictLambda.Proofs.Layout.Correctness

/-!
# Programs mean what their terms mean

Every closed term in which no binding hides another one has a program, and running the program comes
to what evaluating the term comes to: the same value, the same failure at the same place in the
source, or nothing at all.
-/

namespace StrictLambda

namespace Block

open Draft

def BuiltFrom (tree : Block) (term : Term) : Prop :=
  exists inner, Builds (.tail .topLevel term) (.start 0 .empty) inner ∧
    tree = .mk 0 inner.nodes.toList term.span

/-- The frame of the block of an abstraction takes its parameter and its free variables, and the
block does what the body of the abstraction says. -/
def HoldsBodyOf (tree : Block) (lambda : Lambda) : Prop :=
  exists places span, places.map Prod.fst = lambda.free ∧
    Building.close (lambda.free.length + 1) (.ofFunction lambda.parameter places) span
      ((plan lambda.body).tail .functionBody) = .ok (codeOf tree lambda).block

/-- A function has captured the free variables of its abstraction, and its block has been built from
the abstraction. -/
def Represented (tree : Block) : Value Lambda -> Prop
  | .function lambda captures =>
      captures.length = lambda.free.length ∧ tree.HoldsBodyOf lambda
  | _ => True

/-!
## The outermost block
-/

variable {tree : Block} {term : Term}

theorem BuiltFrom.ofTerm_eq (builtFrom : tree.BuiltFrom term) : ofTerm term = .ok tree := by
  rcases builtFrom with ⟨inner, builds, rfl⟩
  exact Building.close_eq (planned_of_builds builds)

theorem BuiltFrom.acceptable (builtFrom : tree.BuiltFrom term) : tree.Acceptable := by
  rcases builtFrom with ⟨inner, builds, rfl⟩
  exact acceptable_of_builds builds term.span

theorem exists_builtFrom (closed : term.freeVariables = []) (unshadowed : term.Unshadowed []) :
    exists tree : Block, tree.BuiltFrom term := by
  have fits := Term.fitsScope_of_closed closed unshadowed
  have covers : (Draft.start 0 .empty).Covers [] := fun _ inside => absurd inside List.not_mem_nil
  rcases (buildable term [] _ fits covers).2 .topLevel with ⟨inner, builds⟩
  exact ⟨_, inner, builds, rfl⟩

theorem Compiled.represented {lambda : Lambda} {captures : List (Value Lambda)}
    {places : List (Binding × Local)} {inner : Draft} {span : Span}
    (compiled : Compiled tree lambda captures places inner span) :
    Represented tree (.function lambda captures) := by
  refine ⟨compiled.length_captures.trans compiled.length_free.symm, places, span, compiled.free, ?_⟩
  rw [compiled.length_free, compiled.code_eq]
  exact Building.close_eq (planned_of_builds compiled.built)

theorem Proper.represented {value : Value Lambda} (proper : Proper tree value) :
    value.Everywhere (Represented tree) := by
  apply proper.faithful.mono
  intro part faithful
  cases part with
  | function lambda captures =>
      rcases faithful with ⟨places, inner, span, compiled⟩
      exact compiled.represented
  | integer | boolean | dataType | data | fixpoint => exact trivial

theorem start_eq (tree : Block) :
    State.start tree =
      stateAt tree ⟨0, tree⟩ [] 0 (List.replicate tree.frameSize none) .empty := by
  unfold stateAt
  rw [Cells.map_empty]
  rfl

theorem evaluates_start (builtFrom : tree.BuiltFrom term) (fits : term.FitsScope [])
    (limit : Nat) :
    Evaluates (limit + 1) (term.trace (Term.tracedCalls limit) 0 false 1 []) .empty
      (Leaves tree [] .topLevel) (.start tree) := by
  rcases builtFrom with ⟨inner, builds, rfl⟩
  have sited : Sited (.mk 0 inner.nodes.toList term.span)
      ⟨0, .mk 0 inner.nodes.toList term.span⟩ :=
    ⟨standsIn_tree _, occurrences_le_one builds⟩
  have simulated : Simulated _ (limit + 1) (Term.tracedCalls limit) _ [] _ _ _ :=
    simulated_of_builds sited (appliesAlike_tracedCalls _ limit) builds
  have ready : Ready (.mk 0 inner.nodes.toList term.span)
      ⟨0, .mk 0 inner.nodes.toList term.span⟩ (.start 0 .empty) []
      (List.replicate (Block.mk 0 inner.nodes.toList term.span).frameSize none) .empty := by
    refine ⟨fun _ _ bound => (nomatch bound), ?_, List.length_replicate⟩
    intro cell value content
    simp [Cells.content?, Cells.empty] at content
  have first : nextNumber ⟨0, .mk 0 inner.nodes.toList term.span⟩ (.start 0 .empty) = 1 :=
    congrArg (0 + 1 + ·) nestedCount_nil
  have performed := simulated (List.prefix_refl _) [] _ _ ready fits rfl
  rw [first] at performed
  rw [start_eq]
  exact performed

theorem performs_start (builtFrom : tree.BuiltFrom term) (fits : term.FitsScope [])
    (limit : Nat) :
    process.Performs State.Careful State.entrances (limit + 1)
      ((term.starts limit).map entranceOf) (term.run limit)
      (fun result last => Leaves tree [] .topLevel result.1 result.2 last) (.start tree) := by
  rw [← Term.ending_traceRun]
  exact evaluates_start builtFrom fits limit

/-!
## Endings
-/

def resultOf (tree : Block) (result : Value Lambda × Cells Lambda) : Value Body × Cells Body :=
  (result.1.map (codeOf tree), result.2.map (codeOf tree))

theorem ends_of_ends (builtFrom : tree.BuiltFrom term) (fits : term.FitsScope [])
    {own : Except Failure (Value Lambda × Cells Lambda)} (ends : term.Ends own) :
    tree.Ends (own.map tree.resultOf) := by
  rcases ends with ⟨depth, ended⟩
  have performs := performs_start builtFrom fits depth
  rw [ended] at performs
  cases own with
  | error failure =>
      rcases performs with ⟨count, last, passes, _, halted⟩
      exact ⟨count + 1, Process.run_of_halt passes.steps halted⟩
  | ok result =>
      rcases performs with ⟨count, last, passes, _, halted, _, _⟩
      exact ⟨count + 1, Process.run_of_halt passes.steps halted⟩

theorem run_eq_none_of_run_eq_none (builtFrom : tree.BuiltFrom term) (fits : term.FitsScope [])
    {depth : Nat} (cutOff : term.run depth = none) : tree.run depth = none := by
  have performs := performs_start builtFrom fits depth
  rw [cutOff] at performs
  rcases performs with ⟨count, last, enough, passes⟩
  cases ended : tree.run depth with
  | none => rfl
  | some ending =>
      have later : process.run count (.start tree) = some ending :=
        Process.run_mono ended (Nat.le_trans (Nat.le_succ depth) enough)
      rw [Process.run_eq_none_iff.mpr ⟨last, passes.steps⟩] at later
      cases later

theorem ends_iff_of_builtFrom (builtFrom : tree.BuiltFrom term) (fits : term.FitsScope [])
    (ending : Except Failure (Value Body × Cells Body)) :
    tree.Ends ending ↔ exists own, term.Ends own ∧ ending = own.map tree.resultOf := by
  constructor
  · intro ended
    rcases ended with ⟨limit, ended⟩
    cases outcome : term.run limit with
    | none =>
        rw [run_eq_none_of_run_eq_none builtFrom fits outcome] at ended
        cases ended
    | some own =>
        rcases ends_of_ends builtFrom fits ⟨limit, outcome⟩ with ⟨bound, again⟩
        exact ⟨own, ⟨limit, outcome⟩, Process.run_unique ended again⟩
  · intro ended
    rcases ended with ⟨own, ends, rfl⟩
    exact ends_of_ends builtFrom fits ends

theorem runsForever_iff_of_builtFrom (builtFrom : tree.BuiltFrom term)
    (fits : term.FitsScope []) : tree.RunsForever ↔ term.RunsForever := by
  constructor
  · intro forever depth
    cases outcome : term.run depth with
    | none => rfl
    | some own =>
        rcases ends_of_ends builtFrom fits ⟨depth, outcome⟩ with ⟨bound, ended⟩
        rw [forever bound] at ended
        cases ended
  · intro forever limit
    exact run_eq_none_of_run_eq_none builtFrom fits (forever limit)

theorem proper_of_ends (builtFrom : tree.BuiltFrom term) (fits : term.FitsScope [])
    {result : Value Lambda × Cells Lambda} (ends : term.Ends (.ok result)) :
    Proper tree result.1 := by
  rcases ends with ⟨depth, ended⟩
  have performs := performs_start builtFrom fits depth
  rw [ended] at performs
  rcases performs with ⟨count, last, _, _, _, proper, _⟩
  exact proper

end Block

namespace Program

open Block (BuiltFrom Represented)

/-- The snapshot of a result of evaluation, with every function shown by the block that its
abstraction has become. -/
def portray (program : Program) (result : Value Lambda × Cells Lambda) : Snapshot :=
  .ofValue (fun lambda => program.entryOf lambda.number) result.2 result.1

variable {program : Program} {tree : Block} {term : Term}

theorem exhibit_resultOf (accepted : ofBlock tree = .ok program)
    (result : Value Lambda × Cells Lambda) :
    program.exhibit (tree.resultOf result) = program.portray result := by
  have shown : (fun lambda => program.shown (Block.codeOf tree lambda)) =
      fun lambda => program.entryOf lambda.number :=
    funext fun lambda => shown_bodyAt accepted lambda.number
  unfold exhibit Block.resultOf portray
  rw [Snapshot.ofValue_map, shown]

theorem answers_iff_of_builtFrom (accepted : ofBlock tree = .ok program)
    (small : program.size < Address.halt.index) (builtFrom : tree.BuiltFrom term)
    (fits : term.FitsScope []) (ending : Except Failure Snapshot) :
    program.Answers ending ↔
      exists own, term.Ends own ∧ ending = own.map program.portray := by
  rw [answers_iff_of_ofBlock accepted small]
  have exhibited : program.exhibit ∘ tree.resultOf = program.portray :=
    funext fun result => exhibit_resultOf accepted result
  constructor
  · intro answers
    rcases answers with ⟨blocks, ends, rfl⟩
    rcases (Block.ends_iff_of_builtFrom builtFrom fits blocks).mp ends with ⟨own, ended, rfl⟩
    refine ⟨own, ended, ?_⟩
    rw [← exhibited]
    cases own <;> rfl
  · intro ends
    rcases ends with ⟨own, ended, rfl⟩
    refine ⟨_, Block.ends_of_ends builtFrom fits ended, ?_⟩
    rw [← exhibited]
    cases own <;> rfl

/-- Compiling preserves the meaning of every closed term in which no binding hides another one, as
long as the address that ends a run is not one of the program. -/
theorem ofTerm_preserves_meaning (closed : term.freeVariables = [])
    (unshadowed : term.Unshadowed []) :
    exists tree program, Block.ofTerm term = .ok tree ∧ ofTerm term = .ok program ∧
      (forall result, term.Ends (.ok result) -> result.1.Everywhere (Represented tree)) ∧
      (program.size < Address.halt.index ->
        (forall ending, program.Answers ending ↔
          exists own, term.Ends own ∧ ending = own.map program.portray) ∧
        (program.RunsForever ↔ term.RunsForever)) := by
  have fits := Term.fitsScope_of_closed closed unshadowed
  rcases Block.exists_builtFrom closed unshadowed with ⟨tree, builtFrom⟩
  rcases exists_ofBlock builtFrom.acceptable with ⟨program, accepted⟩
  refine ⟨tree, program, builtFrom.ofTerm_eq, ?_, ?_, ?_⟩
  · unfold ofTerm
    rw [builtFrom.ofTerm_eq]
    exact accepted
  · intro result ends
    exact (Block.proper_of_ends builtFrom fits ends).represented
  · intro small
    refine ⟨answers_iff_of_builtFrom accepted small builtFrom fits, ?_⟩
    exact (runsForever_iff_of_ofBlock accepted small).trans
      (Block.runsForever_iff_of_builtFrom builtFrom fits)

theorem small_of_ofTerm_countdown (compiled : ofTerm Term.countdown = .ok program) :
    program.size < Address.halt.index := by
  have size : (ofTerm Term.countdown).map Program.size = .ok 18 := by decide +kernel
  rw [compiled] at size
  rw [Except.ok.inj size]
  decide

theorem ofTerm_preserves_meaning_of_countdown :
    Term.countdown.freeVariables = [] ∧ Term.countdown.Unshadowed [] ∧
      exists program, ofTerm Term.countdown = .ok program ∧ program.size < Address.halt.index ∧
        program.Answers (.ok (.atom (.integer 0))) := by
  rcases ofTerm_preserves_meaning rfl Term.unshadowed_countdown with
    ⟨tree, program, _, compiled, _, meaning⟩
  have small := small_of_ofTerm_countdown compiled
  refine ⟨rfl, Term.unshadowed_countdown, program, compiled, small, ?_⟩
  refine ((meaning small).1 _).mpr ⟨_, ⟨2, rfl⟩, ?_⟩
  exact congrArg Except.ok (Snapshot.ofValue_integer _ _ _).symm

end Program
end StrictLambda
