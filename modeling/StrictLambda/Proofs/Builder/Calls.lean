import StrictLambda.Proofs.Builder.Simulation

/-!
# Functions do what abstractions mean

When a function is entered, its frame holds the parameter and the captures where the locals of its
body say.  So the simulation of its block says what a call of it does, however deeply calls are
nested inside.
-/

namespace StrictLambda

namespace Block

open Draft

/-!
## Entering
-/

variable {tree : Block} {lambda : Lambda} {captures : List (Value Lambda)}
  {argument : Value Lambda} {cells : Cells Lambda} {places : List (Binding × Local)}
  {inner : Draft} {span : Span}

theorem exists_of_lookup_zip {ids : List Nat} {id : Nat} {value : Value Lambda}
    (found : (ids.zip captures).lookup id = some value) :
    exists position : Nat, ids[position]? = some id ∧ captures[position]? = some value := by
  induction ids generalizing captures with
  | nil => cases found
  | cons first rest ih =>
      cases captures with
      | nil => cases found
      | cons capture others =>
          rw [List.zip_cons_cons, List.lookup_cons] at found
          cases same : id == first with
          | true =>
              rw [same] at found
              cases found
              exact ⟨0, congrArg some (eq_of_beq same).symm, rfl⟩
          | false =>
              rw [same] at found
              rcases ih found with ⟨position, here, there⟩
              exact ⟨position + 1, here, there⟩

namespace Compiled

theorem code_eq (compiled : Compiled tree lambda captures places inner span) :
    codeOf tree lambda =
      ⟨lambda.number, .mk (places.length + 1) inner.nodes.toList span⟩ :=
  compiled.stands.bodyAt_eq

theorem length_captures (compiled : Compiled tree lambda captures places inner span) :
    captures.length = places.length := by
  have lengths := congrArg List.length compiled.placeholders
  rw [List.length_map, List.length_map] at lengths
  exact lengths.symm

theorem length_free (compiled : Compiled tree lambda captures places inner span) :
    lambda.free.length = places.length := by
  rw [← compiled.free, List.length_map]

theorem scope_ofCall (compiled : Compiled tree lambda captures places inner span) :
    (Environment.ofCall lambda captures argument).scope =
      lambda.parameter.id :: lambda.free.map Binding.id := by
  have lengths : (lambda.free.map Binding.id).length = captures.length := by
    rw [List.length_map, compiled.length_free, compiled.length_captures]
  rw [Environment.ofCall, Environment.scope, List.map_cons, List.map_fst_zip (Nat.le_of_eq lengths)]

theorem sited (compiled : Compiled tree lambda captures places inner span) :
    Sited tree ⟨lambda.number, .mk (places.length + 1) inner.nodes.toList span⟩ :=
  ⟨compiled.stands, occurrences_le_one compiled.built⟩

theorem mirrors_enter (compiled : Compiled tree lambda captures places inner span)
    (faithful : (Value.function lambda captures).Everywhere (Faithful tree))
    (proper : Proper tree argument) :
    Mirrors tree (.ofCall lambda captures argument) (.ofFunction lambda.parameter places)
      (places.length + 1)
      (Frame.enter (codeOf tree lambda) (argument.map (codeOf tree))
        (captures.map (Value.map (codeOf tree)))).registers := by
  have ids : places.map (fun place => place.1.id) = lambda.free.map Binding.id := by
    rw [← compiled.free, List.map_map]
    rfl
  have distinct := List.nodup_cons.mp compiled.distinct
  rw [← ids] at distinct
  intro id value bound
  rw [Environment.ofCall, List.lookup_cons] at bound
  unfold Locals.ofFunction
  cases same : id == lambda.parameter.id with
  | true =>
      rw [same] at bound
      cases bound
      rw [eq_of_beq same]
      refine ⟨⟨Register.argument, false⟩, ?_, Nat.succ_pos _, rfl, proper.ordinary.symm,
        proper.faithful⟩
      rw [lookup_defineCaptures_of_not_mem distinct.1]
      exact List.lookup_cons_self
  | false =>
      rw [same] at bound
      rcases exists_of_lookup_zip bound with ⟨position, foundId, foundValue⟩
      have foundPlace : (places.map fun place => place.1.id)[position]? = some id := by
        rw [ids]
        exact foundId
      rw [List.getElem?_map, Option.map_eq_some_iff] at foundPlace
      rcases foundPlace with ⟨place, found, rfl⟩
      have flag := congrArg (fun flags => flags[position]?) compiled.placeholders
      simp only [List.getElem?_map, found, foundValue, Option.map_some, Option.some.injEq] at flag
      have below : position < places.length := (List.getElem?_eq_some_iff.mp found).1
      refine ⟨⟨⟨1 + position⟩, place.2.placeholder⟩,
        lookup_defineCaptures distinct.2 found, ?_, ?_, flag, ?_⟩
      · exact Nat.add_comm 1 position ▸ Nat.succ_lt_succ below
      · have stored : (captures.map (Value.map (codeOf tree)))[position]? = _ :=
          (List.getElem?_map ..).trans (congrArg _ foundValue)
        unfold Stores Frame.enter
        dsimp only
        rw [Nat.add_comm 1 position, List.cons_append, List.getElem?_cons_succ,
          List.getElem?_append_left (by simpa [compiled.length_captures] using below),
          List.getElem?_map, stored]
        rfl
      · exact faithful.inside (List.mem_of_getElem? foundValue)

theorem entered_eq (compiled : Compiled tree lambda captures places inner span)
    (callers : List Caller) :
    entered tree callers lambda captures argument cells =
      stateAt tree ⟨lambda.number, .mk (places.length + 1) inner.nodes.toList span⟩ callers 0
        (Frame.enter (codeOf tree lambda) (argument.map (codeOf tree))
          (captures.map (Value.map (codeOf tree)))).registers cells := by
  unfold entered stateAt
  rw [compiled.code_eq]
  rfl

theorem ready_enter (compiled : Compiled tree lambda captures places inner span)
    (faithful : (Value.function lambda captures).Everywhere (Faithful tree))
    (proper : Proper tree argument) (properCells : ProperCells tree cells) :
    Ready tree ⟨lambda.number, .mk (places.length + 1) inner.nodes.toList span⟩
      (.start (places.length + 1) (.ofFunction lambda.parameter places))
      (.ofCall lambda captures argument)
      (Frame.enter (codeOf tree lambda) (argument.map (codeOf tree))
        (captures.map (Value.map (codeOf tree)))).registers cells where
  mirrors := compiled.mirrors_enter faithful proper
  cells := properCells
  length := by
    have room : places.length + 1 <= (Block.mk (places.length + 1) inner.nodes.toList
      span).frameSize := parameters_le_frameSize (.mk _ _ _)
    rw [compiled.code_eq]
    simp only [Frame.enter, List.length_append, List.length_cons, List.length_map,
      List.length_replicate, compiled.length_captures]
    omega

end Compiled

/-!
## Calling
-/

/-- However deeply calls are nested, functions do in their blocks what they do when they are
evaluated. -/
theorem appliesAlike_tracedCalls (tree : Block) (limit : Nat) :
    AppliesAlike tree limit (Term.tracedCalls limit) := by
  induction limit with
  | zero =>
      intro lambda captures argument cells caller rest faithful proper properCells inside
      exact ⟨0, _, Nat.le_refl 0, .refl _⟩
  | succ limit ih =>
      intro lambda captures argument cells caller rest faithful proper properCells inside
      rcases faithful.here with ⟨places, inner, span, compiled⟩
      have simulated :
          Simulated tree (limit + 1) (Term.tracedCalls limit) _ (caller :: rest) _ _ _ :=
        simulated_of_builds compiled.sited ih compiled.built
      have fits : lambda.body.FitsScope (Environment.ofCall lambda captures argument).scope := by
        rw [compiled.scope_ofCall]
        exact compiled.fits
      have performed := simulated (List.prefix_refl _) _ _ cells
        (compiled.ready_enter faithful proper properCells) fits ⟨caller, rest, rfl, inside⟩
      rw [compiled.entered_eq]
      apply performed.mono
      intro value cellsAfter last leaves
      rcases leaves with ⟨own, others, same, returns⟩
      cases same
      exact returns

end Block
end StrictLambda
