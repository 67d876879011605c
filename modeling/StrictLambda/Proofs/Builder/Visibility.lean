import StrictLambda.Program.OfTerm
import StrictLambda.Proofs.Builder.Acceptance
import StrictLambda.Proofs.Term.Visibility

/-!
# Which bindings a block sees

A block under construction has one map of locals, and nothing is ever taken out of it.  A binding is
seen from its `letIn` to the end of the block, also behind the term in which it is in scope.  So the
order of the construction decides which occurrences are rejected, and not the scopes alone.
-/

namespace StrictLambda

/-!
## Building and resolving
-/

namespace Block

open Building Plan

def Draft.Sees (draft : Draft) (view : List Nat) : Prop :=
  forall id, id ∈ view ↔ exists place, draft.locals.entries.lookup id = some place

theorem Draft.Sees.define {draft : Draft} {view : List Nat} (sees : draft.Sees view)
    (binding : Binding) (place : Local) :
    (draft.define binding place).Sees (binding.id :: view) := by
  intro id
  by_cases same : id = binding.id
  · rw [same]
    exact iff_of_true List.mem_cons_self ⟨place, List.lookup_cons_self⟩
  · rw [Draft.define, lookup_define _ _ same, List.mem_cons, ← sees id]
    exact or_iff_right same

theorem sees_start (count : Nat) (parameter : Binding) (places : List (Binding × Local)) :
    (Draft.start count (.ofFunction parameter places)).Sees
      (parameter.id :: places.map fun place => place.1.id) := by
  intro id
  refine ⟨covers_start count parameter places id, ?_⟩
  rintro ⟨place, found⟩
  by_contra absent
  rw [List.mem_cons, not_or] at absent
  have lookup : (Locals.ofFunction parameter places).entries.lookup id = none := by
    unfold Locals.ofFunction
    rw [lookup_defineCaptures_of_not_mem absent.2, lookup_define _ _ absent.1]
    rfl
  cases lookup.symm.trans found

/-- The program fails where the check does, and brings into view what the check says. -/
structure Building.Resolves {Result : Type} (program : Building Result)
    (check : List Nat -> Except Failure (List Nat)) : Prop where
  fails : forall {draft : Draft} {view : List Nat} {failure : Failure}, draft.Sees view ->
    check view = .error failure -> program.run draft = .error failure
  builds : forall {draft : Draft} {view after : List Nat}, draft.Sees view ->
    check view = .ok after ->
      exists result last, program.run draft = .ok (result, last) ∧ last.Sees after

abbrev Building.Quiet {Result : Type} (program : Building Result) : Prop :=
  program.Resolves pure

namespace Building

variable {First Second : Type} {first : Building First} {rest : First -> Building Second}
  {check checkAfter : List Nat -> Except Failure (List Nat)}

theorem Resolves.bind (before : first.Resolves check)
    (after : forall result, (rest result).Resolves checkAfter) :
    (first >>= rest).Resolves fun view => check view >>= checkAfter := by
  constructor
  · intro draft view failure sees rejected
    rw [StateT.run_bind]
    rcases bind_eq_error_iff.mp rejected with rejected | ⟨wider, accepted, rejected⟩
    · rw [before.fails sees rejected]
      rfl
    · rcases before.builds sees accepted with ⟨result, middle, ran, sees⟩
      rw [ran, ok_bind]
      exact (after result).fails sees rejected
  · intro draft view last sees accepted
    rcases bind_eq_ok_iff.mp accepted with ⟨wider, acceptedFirst, accepted⟩
    rcases before.builds sees acceptedFirst with ⟨result, middle, ran, sees⟩
    rw [StateT.run_bind, ran, ok_bind]
    exact (after result).builds sees accepted

theorem Resolves.then_quiet (before : first.Resolves check)
    (after : forall result, (rest result).Quiet) : (first >>= rest).Resolves check := by
  have resolves := before.bind after
  simp only [bind_pure] at resolves
  exact resolves

theorem Quiet.then (before : first.Quiet)
    (after : forall result, (rest result).Resolves check) : (first >>= rest).Resolves check :=
  before.bind after

theorem quiet_of_run
    (quiet : forall draft, exists result last,
      first.run draft = .ok (result, last) ∧ last.locals = draft.locals) : first.Quiet := by
  constructor
  · intro draft view failure sees rejected
    cases rejected
  · intro draft view after sees accepted
    cases accepted
    rcases quiet draft with ⟨result, last, ran, same⟩
    refine ⟨result, last, ran, ?_⟩
    intro id
    rw [same]
    exact sees id

theorem quiet_pure {Result : Type} (result : Result) : (pure result : Building Result).Quiet :=
  quiet_of_run fun draft => ⟨result, draft, rfl, rfl⟩

theorem quiet_produce (node : Register -> Node) : (produce node).Quiet :=
  quiet_of_run fun draft => ⟨_, _, run_produce node draft, rfl⟩

theorem quiet_emit (node : Node) : (emit node).Quiet :=
  quiet_of_run fun draft => ⟨_, _, run_emit node draft, rfl⟩

theorem quiet_emitOperation (span : Span) (action : Operation) :
    (emitOperation span action).Quiet :=
  quiet_emit _

theorem quiet_freshRegister : freshRegister.Quiet :=
  quiet_of_run fun draft => ⟨_, _, run_freshRegister draft, rfl⟩

theorem quiet_freshLabel : freshLabel.Quiet :=
  quiet_of_run fun draft => ⟨_, _, run_freshLabel draft, rfl⟩

theorem resolves_define (binding : Binding) (register : Register) (placeholder : Bool) :
    (define binding register placeholder).Resolves fun view => pure (binding.id :: view) := by
  constructor
  · intro draft view failure sees rejected
    cases rejected
  · intro draft view after sees accepted
    cases accepted
    exact ⟨_, _, run_define binding register placeholder draft, sees.define binding _⟩

theorem Resolves.after_define {later : Building Second} (binding : Binding)
    (register : Register) (placeholder : Bool) (after : later.Resolves check) :
    (define binding register placeholder >>= fun _ => later).Resolves
      fun view => check (binding.id :: view) :=
  (resolves_define binding register placeholder).bind fun _ => after

theorem run_lookup_of_not_mem {draft : Draft} {view : List Nat} {span : Span} {binding : Binding}
    (sees : draft.Sees view) (absent : binding.id ∉ view) :
    (lookup span binding).run draft =
      .error (.defect (.unboundVariable binding.name) (some span)) := by
  have missing : draft.locals.get? binding = none := by
    rw [Option.eq_none_iff_forall_ne_some]
    intro place found
    exact absent ((sees binding.id).mpr ⟨place, found⟩)
  unfold lookup
  rw [run_bind rfl, missing]
  rfl

theorem run_lookupAll_eq_error {draft : Draft} {view : List Nat} {span : Span}
    {bindings : List Binding} {failure : Failure} (sees : draft.Sees view)
    (rejected : Term.require span view bindings = .error failure) :
    (lookupAll span bindings).run draft = .error failure := by
  induction bindings with
  | nil => cases rejected
  | cons binding rest ih =>
      rw [Term.require] at rejected
      rw [lookupAll]
      split at rejected
      · next visible =>
          rcases (sees binding.id).mp visible with ⟨place, found⟩
          rw [run_bind (run_lookup found), StateT.run_bind, ih rejected]
          rfl
      · next absent =>
          cases rejected
          rw [StateT.run_bind, run_lookup_of_not_mem sees absent]
          rfl

theorem resolves_read (span : Span) (binding : Binding) :
    (read span binding).Resolves fun view => Term.require span view [binding] := by
  constructor
  · intro draft view failure sees rejected
    rw [Term.require] at rejected
    split at rejected
    · cases rejected
    · next absent =>
        cases rejected
        unfold read
        rw [StateT.run_bind, run_lookup_of_not_mem sees absent]
        rfl
  · intro draft view after sees accepted
    rcases Term.of_require_eq_ok accepted with ⟨rfl, visible⟩
    rcases (sees binding.id).mp (visible binding List.mem_cons_self) with ⟨place, found⟩
    refine ⟨_, _, (run_bind (run_lookup found)).trans (run_produce _ _), ?_⟩
    exact sees

theorem resolves_createFunction {span : Span} {parameter : Binding} {body : Term} {plan : Plan}
    (resolves : (plan.tail .functionBody).Resolves fun view => body.resolve view) :
    (createFunction span parameter (Term.abs span parameter body).freeVariables plan).Resolves
      fun view => (Term.abs span parameter body).resolve view := by
  constructor
  · intro draft view failure sees rejected
    unfold createFunction
    rw [StateT.run_bind, run_lookupAll_eq_error sees rejected]
    rfl
  · intro draft view after sees accepted
    rcases Term.of_require_eq_ok accepted with ⟨rfl, visible⟩
    have covers : draft.Covers after := fun id => (sees id).mp
    rcases covers.exists_places visible with ⟨places, free, found⟩
    have captured : forall id, body.HasFree id ->
        id ∈ parameter.id :: places.map fun place => place.1.id := by
      intro id mentioned
      by_cases same : parameter.id = id
      · exact List.mem_cons.mpr (.inl same.symm)
      · have member : id ∈ (Term.abs span parameter body).freeVariables.map Binding.id :=
          Term.mem_freeVariables_iff.mpr ⟨same, mentioned⟩
        rw [← free, List.map_map] at member
        exact List.mem_cons_of_mem _ member
    rcases Term.accepts_resolve body _ captured with ⟨inside, accepted, _⟩
    rcases resolves.builds (sees_start (places.length + 1) parameter places) accepted with
      ⟨_, inner, ran, _⟩
    refine ⟨draft.next, draft.produce (.function draft.next
      (.mk (places.length + 1) inner.nodes.toList span)
      (places.map fun place => place.2.register) span), ?_, sees⟩
    unfold createFunction
    rw [← free, run_bind (run_lookupAll found), close_eq ran]
    rfl

end Building

structure Plan.Resolves (plan : Plan) (check : List Nat -> Except Failure (List Nat)) : Prop where
  value : plan.value.Resolves check
  tail : forall site, (plan.tail site).Resolves check

section Plans

variable {span thenSpan elseSpan : Span} {first second third : Plan}
  {check checkSecond checkThird : List Nat -> Except Failure (List Nat)}

theorem Plan.Resolves.ofValue {value : Building Register} (resolves : value.Resolves check) :
    (Plan.ofValue span value).Resolves check :=
  ⟨resolves, fun _ => resolves.then_quiet fun _ => quiet_emitOperation _ _⟩

theorem resolves_operands (before : first.Resolves check) (after : second.Resolves checkSecond)
    {Result : Type} {finish : Register -> Register -> Building Result}
    (quiet : forall left right, (finish left right).Quiet) :
    (do
      let left <- first.value
      let right <- second.value
      finish left right).Resolves fun view => check view >>= checkSecond :=
  before.value.bind fun left => after.value.then_quiet fun right => quiet left right

theorem Plan.Resolves.call (before : first.Resolves check) (after : second.Resolves checkSecond) :
    (Plan.call span first second).Resolves fun view => check view >>= checkSecond := by
  have value := resolves_operands before after fun left right =>
    quiet_produce fun dest => .operation (.call dest left right) span
  refine ⟨value, ?_⟩
  intro site
  cases site with
  | topLevel => exact (Plan.Resolves.ofValue value).tail .topLevel
  | functionBody =>
      exact resolves_operands before after fun left right => quiet_emitOperation _ _

theorem Building.Resolves.after {setup : Building Unit} (before : setup.Resolves check)
    (resolves : second.Resolves checkSecond) :
    (Plan.after setup second).Resolves fun view => check view >>= checkSecond :=
  ⟨before.bind fun _ => resolves.value, fun site => before.bind fun _ => resolves.tail site⟩

theorem resolves_bindLocal (span : Span) (binding : Binding) (definition : Term)
    (resolves : first.Resolves check) :
    (bindLocal span binding definition first).Resolves fun view =>
      check (definition.inside binding view) >>= fun wider => pure (binding.id :: wider) := by
  unfold bindLocal Term.inside
  split
  · apply Quiet.then (quiet_produce _)
    intro fixpoint
    have tied : (do
        let value <- first.value
        emitOperation definition.span (.endFixpoint fixpoint value)
        define binding value false).Resolves fun view =>
          check view >>= fun wider => pure (binding.id :: wider) := by
      apply resolves.value.bind
      intro value
      apply Quiet.then (quiet_emitOperation _ _)
      intro _
      exact resolves_define binding value false
    exact Resolves.after_define binding fixpoint true tied
  · apply resolves.value.bind
    intro value
    exact resolves_define binding value false

theorem Plan.Resolves.letIn (binding : Binding) (definition : Term)
    (bound : first.Resolves check) (resolves : second.Resolves checkSecond) :
    (Plan.after (bindLocal span binding definition first) second).Resolves fun view =>
      check (definition.inside binding view) >>= fun wider =>
        checkSecond (binding.id :: wider) := by
  have chained := (resolves_bindLocal span binding definition bound).after resolves
  simp only [bind_assoc, pure_bind] at chained
  exact chained

theorem Plan.Resolves.choose (tests : first.Resolves check) (holds : second.Resolves checkSecond)
    (fails : third.Resolves checkThird) :
    (Plan.choose span thenSpan elseSpan first second third).Resolves fun view =>
      check view >>= fun wider => checkSecond wider >>= checkThird := by
  constructor
  · apply tests.value.bind
    intro condition
    apply Quiet.then quiet_freshRegister
    intro dest
    apply Quiet.then quiet_freshLabel
    intro otherwise
    apply Quiet.then quiet_freshLabel
    intro done
    apply Quiet.then (quiet_emit _)
    intro _
    apply holds.value.bind
    intro source
    apply Quiet.then (quiet_emitOperation _ _)
    intro _
    apply Quiet.then (quiet_emit _)
    intro _
    apply Quiet.then (quiet_emit _)
    intro _
    apply fails.value.then_quiet
    intro source
    apply Quiet.then (quiet_emitOperation _ _)
    intro _
    apply Quiet.then (quiet_emit _)
    intro _
    exact quiet_pure dest
  · intro site
    apply tests.value.bind
    intro condition
    apply Quiet.then quiet_freshLabel
    intro otherwise
    apply Quiet.then (quiet_emit _)
    intro _
    apply (holds.tail site).bind
    intro _
    apply Quiet.then (quiet_emit _)
    intro _
    exact fails.tail site

theorem resolves_values_nil : (values (planList [])).Quiet :=
  quiet_pure []

theorem resolves_values_cons {rest : List Plan} (before : first.Resolves check)
    (others : (values rest).Resolves checkSecond) :
    (values (first :: rest)).Resolves fun view => check view >>= checkSecond := by
  apply before.value.bind
  intro register
  apply others.then_quiet
  intro registers
  exact quiet_pure _

end Plans

mutual

theorem resolves_plan : (term : Term) -> (plan term).Resolves fun view => term.resolve view
  | .var span binding => by
      rw [plan]
      exact .ofValue (resolves_read span binding)
  | .abs span parameter body => by
      rw [plan]
      exact .ofValue (resolves_createFunction ((resolves_plan body).tail .functionBody))
  | .app span function argument => by
      rw [plan]
      exact .call (resolves_plan function) (resolves_plan argument)
  | .letIn span binding definition body => by
      rw [plan]
      exact .letIn binding definition (resolves_plan definition) (resolves_plan body)
  | .group _ inner => by
      rw [plan]
      exact resolves_plan inner
  | .dataType span declaration => by
      rw [plan]
      exact .ofValue (quiet_produce _)
  | .data span type tag fields => by
      rw [plan]
      apply Plan.Resolves.ofValue
      apply (resolves_plan type).value.bind
      intro first
      apply (resolves_planList fields).then_quiet
      intro others
      exact quiet_produce _
  | .member span value field => by
      rw [plan]
      apply Plan.Resolves.ofValue
      apply (resolves_plan value).value.then_quiet
      intro source
      exact quiet_produce _
  | .literal span value => by
      rw [plan]
      exact .ofValue (quiet_produce _)
  | .binary span operator lhs rhs => by
      rw [plan]
      apply Plan.Resolves.ofValue
      apply (resolves_plan lhs).value.bind
      intro left
      apply (resolves_plan rhs).value.then_quiet
      intro right
      exact quiet_produce _
  | .cond span condition consequent alternative => by
      rw [plan]
      exact .choose (resolves_plan condition) (resolves_plan consequent)
        (resolves_plan alternative)

theorem resolves_planList : (terms : List Term) ->
    (values (planList terms)).Resolves fun view => Term.resolveList view terms
  | [] => resolves_values_nil
  | term :: rest => resolves_values_cons (resolves_plan term) (resolves_planList rest)

end

/-!
## Rejected terms
-/

theorem sees_empty (parameters : Nat) : (Draft.start parameters .empty).Sees [] := by
  intro id
  refine iff_of_false List.not_mem_nil ?_
  rintro ⟨place, found⟩
  cases found

/-- A term is rejected exactly where an occurrence finds no binding among those made so far in its
block, and with the first such occurrence to blame. -/
theorem ofTerm_eq_error_iff (term : Term) (failure : Failure) :
    ofTerm term = .error failure ↔ term.resolve [] = .error failure := by
  have resolves := (resolves_plan term).tail .topLevel
  unfold ofTerm close
  cases resolved : term.resolve [] with
  | error cause =>
      rw [resolves.fails (sees_empty 0) resolved]
      exact (iff_of_eq (Except.error.injEq cause failure)).trans
        (iff_of_eq (Except.error.injEq cause failure)).symm
  | ok after =>
      rcases resolves.builds (sees_empty 0) resolved with ⟨result, last, ran, _⟩
      rw [ran]
      constructor <;> intro rejected <;> cases rejected

theorem exists_ofTerm {term : Term} (closed : term.freeVariables = []) :
    exists block, ofTerm term = .ok block := by
  have accepted : Term.Accepts [] (term.resolve []) := by
    apply Term.accepts_resolve
    intro id free
    rw [← Term.mem_freeVariables_iff, closed] at free
    exact absurd free List.not_mem_nil
  rcases accepted with ⟨after, resolved, _⟩
  cases built : ofTerm term with
  | ok block => exact ⟨block, rfl⟩
  | error failure =>
      rw [ofTerm_eq_error_iff, resolved] at built
      cases built

end Block

namespace Program

/-- A free variable is always rejected if no `letIn` of the block binds it. -/
theorem ofTerm_rejects_unbound (term : Term) (id : Nat) (free : term.HasFree id)
    (unbound : id ∉ term.ownBindings) :
    exists name span,
      Block.ofTerm term = .error (.defect (.unboundVariable name) (some span)) ∧
        ofTerm term = .error (.defect (.unboundVariable name) (some span)) := by
  cases resolved : term.resolve [] with
  | ok after =>
      rcases (Term.confines_resolve term [] after resolved).2 id free with member
      exact absurd member unbound
  | error failure =>
      rcases Term.rejectsUnseen_resolve term [] failure resolved with ⟨name, span, rfl⟩
      have rejected := (Block.ofTerm_eq_error_iff term _).mpr resolved
      refine ⟨name, span, rejected, ?_⟩
      rw [ofTerm, rejected]
      rfl

theorem ofTerm_rejects_unbound_variable :
    (Term.var ⟨⟨0⟩, 0, 1⟩ ⟨⟨1⟩, 7⟩).HasFree 7 ∧
      7 ∉ (Term.var ⟨⟨0⟩, 0, 1⟩ ⟨⟨1⟩, 7⟩).ownBindings ∧
      exists name span,
        Block.ofTerm (.var ⟨⟨0⟩, 0, 1⟩ ⟨⟨1⟩, 7⟩) =
            .error (.defect (.unboundVariable name) (some span)) ∧
          ofTerm (.var ⟨⟨0⟩, 0, 1⟩ ⟨⟨1⟩, 7⟩) =
            .error (.defect (.unboundVariable name) (some span)) :=
  ⟨rfl, List.not_mem_nil, ofTerm_rejects_unbound _ 7 rfl List.not_mem_nil⟩

end Program

/-!
## A binding that is seen outside of its scope
-/

namespace Term

mutual

def binders : Term -> List Nat
  | .var _ _ => []
  | .abs _ parameter body => parameter.id :: body.binders
  | .app _ function argument => function.binders ++ argument.binders
  | .letIn _ binding definition body => binding.id :: (definition.binders ++ body.binders)
  | .group _ inner => inner.binders
  | .dataType _ _ => []
  | .data _ type _ fields => type.binders ++ bindersList fields
  | .member _ value _ => value.binders
  | .literal _ _ => []
  | .binary _ _ lhs rhs => lhs.binders ++ rhs.binders
  | .cond _ condition consequent alternative =>
      condition.binders ++ (consequent.binders ++ alternative.binders)

def bindersList : List Term -> List Nat
  | [] => []
  | term :: rest => term.binders ++ bindersList rest

end

/-- The sum of a term that binds a variable and of the same variable outside of its scope. -/
def leakingSum : Term :=
  let binding : Binding := ⟨⟨1⟩, 0⟩
  .binary ⟨⟨0⟩, 0, 17⟩ .add
    (.letIn ⟨⟨0⟩, 1, 13⟩ binding (.literal ⟨⟨0⟩, 9, 10⟩ (.integer 1)) (.var ⟨⟨0⟩, 12, 13⟩ binding))
    (.var ⟨⟨0⟩, 16, 17⟩ binding)

end Term

/-- The second operand of the sum is outside of its binding's scope, but finds it in the map. -/
theorem Block.ofTerm_accepts_leakingSum :
    Term.leakingSum.binders.Nodup ∧ Term.leakingSum.freeVariables ≠ [] ∧
      exists block, ofTerm Term.leakingSum = .ok block :=
  ⟨List.nodup_cons.mpr ⟨List.not_mem_nil, List.nodup_nil⟩, List.cons_ne_nil _ _, _, rfl⟩

end StrictLambda
