import StrictLambda.Proofs.Snapshot.Unfolding

/-!
# Assembly without the loop

What the loop assembles could be built by plain recursion: a source is opened, its parts are built
one after the other, and the node is filled with them.  The loop opens the same sources in the same
order, each of them once, and then it is done.
-/

namespace StrictLambda

/-!
## The recursion
-/

section Recursion

variable {Source : Type}

def Split.close : Split Source -> List Snapshot -> Snapshot
  | .leaf snapshot, _ => snapshot
  | .node shell _, built => shell.fill built

theorem partOf_of_mem {split : Source -> Split Source} {root : Source} (part : Source)
    (inside : part ∈ (split root).parts) : PartOf split part root :=
  inside

def bottomUp (split : Source -> Split Source) (root : Source)
    (finite : Acc (PartOf split) root) : Snapshot :=
  (split root).close ((split root).parts.pmap
    (fun part (inside : PartOf split part root) => bottomUp split part (finite.inv inside))
    partOf_of_mem)
termination_by (⟨root, finite⟩ : { source : Source // Acc (PartOf split) source })
decreasing_by exact inside

/-- The sources that the recursion opens, in order. -/
def preorder (split : Source -> Split Source) (root : Source)
    (finite : Acc (PartOf split) root) : List Source :=
  root :: ((split root).parts.pmap
    (fun part (inside : PartOf split part root) => preorder split part (finite.inv inside))
    partOf_of_mem).flatten
termination_by (⟨root, finite⟩ : { source : Source // Acc (PartOf split) source })
decreasing_by exact inside

end Recursion

/-!
## The loop
-/

/-- The loop ends with the snapshot, and on the way it opens these sources, in this order. -/
inductive Assembly.Yields {Source : Type} (split : Source -> Split Source) :
    Assembly Source -> List Source -> Snapshot -> Prop where
  | ended {assembly : Assembly Source} {snapshot : Snapshot}
      (step : assembly.next split = .inl snapshot) : Yields split assembly [] snapshot
  | opening {source : Source} {outer : List (Suspended Source)} {after : Assembly Source}
      {later : List Source} {snapshot : Snapshot}
      (step : (Assembly.opening source outer).next split = .inr after)
      (rest : Yields split after later snapshot) :
      Yields split (.opening source outer) (source :: later) snapshot
  | finished {part snapshot : Snapshot} {outer : List (Suspended Source)}
      {after : Assembly Source} {later : List Source}
      (step : (Assembly.finished part outer).next split = .inr after)
      (rest : Yields split after later snapshot) :
      Yields split (.finished part outer) later snapshot

namespace Assembly

variable {Source : Type} {split : Source -> Split Source}

theorem Yields.run_eq {assembly : Assembly Source} {opened : List Source} {snapshot : Snapshot}
    (yields : assembly.Yields split opened snapshot) (ends : Acc (Follows split) assembly) :
    run split assembly ends = snapshot := by
  induction yields with
  | ended step =>
      rw [run]
      split
      · next own stepped =>
          rw [step] at stepped
          cases stepped
          rfl
      · next after stepped =>
          rw [step] at stepped
          cases stepped
  | opening step rest ih | finished step rest ih =>
      rcases continues_of_next step ends with ⟨endsAfter, same⟩
      rw [same]
      exact ih endsAfter

def BuiltAs (split : Source -> Split Source) (source : Source) (order : List Source)
    (built : Snapshot) : Prop :=
  forall outer later snapshot, (finished built outer).Yields split later snapshot ->
    (opening source outer).Yields split (order ++ later) snapshot

theorem yields_resume {Inside : Source -> Prop} {order : forall part, Inside part -> List Source}
    {value : forall part, Inside part -> Snapshot} {waiting : List Source}
    (inside : forall part, part ∈ waiting -> Inside part)
    (parts : forall part here, BuiltAs split part (order part here) (value part here))
    {shell : Shell} {built : List Snapshot} {outer : List (Suspended Source)}
    {later : List Source} {snapshot : Snapshot}
    (rest : (finished (shell.fill (built.reverse ++ waiting.pmap value inside)) outer).Yields split
      later snapshot) :
    (resume shell waiting built outer).Yields split
      ((waiting.pmap order inside).flatten ++ later) snapshot := by
  induction waiting generalizing built with
  | nil =>
      rw [List.pmap_nil, List.append_nil] at rest
      exact rest
  | cons source waiting ih =>
      rw [List.pmap_cons, List.flatten_cons, List.append_assoc]
      apply parts source
      refine .finished rfl (ih _ ?_)
      rw [List.reverse_cons, List.append_assoc, List.singleton_append]
      exact rest

theorem yields_opening {Inside : Source -> Prop} {order : forall part, Inside part -> List Source}
    {value : forall part, Inside part -> Snapshot} {source : Source} {opened : Split Source}
    (opens : split source = opened) (inside : forall part, part ∈ opened.parts -> Inside part)
    (parts : forall part here, BuiltAs split part (order part here) (value part here)) :
    BuiltAs split source (source :: (opened.parts.pmap order inside).flatten)
      (opened.close (opened.parts.pmap value inside)) := by
  intro outer later snapshot rest
  cases opened with
  | leaf whole =>
      have step : (opening source outer).next split = .inr (finished whole outer) := by
        rw [next, opens]
      exact .opening step rest
  | node shell waiting =>
      have step : (opening source outer).next split = .inr (resume shell waiting [] outer) := by
        rw [next, opens]
      have resumed : (resume shell waiting [] outer).Yields split _ _ :=
        yields_resume inside parts rest
      exact .opening step resumed

theorem builtAs_bottomUp {root : Source} (finite : Acc (PartOf split) root) :
    BuiltAs split root (preorder split root finite) (bottomUp split root finite) := by
  induction finite with
  | intro root below ih =>
      rw [preorder, bottomUp]
      exact yields_opening rfl partOf_of_mem ih

theorem yields_bottomUp {root : Source} (finite : Acc (PartOf split) root) :
    (opening root []).Yields split (preorder split root finite) (bottomUp split root finite) := by
  have yields := builtAs_bottomUp finite [] [] _ (.ended rfl)
  rw [List.append_nil] at yields
  exact yields

end Assembly

theorem assemble_eq_bottomUp {Source : Type} {split : Source -> Split Source} {root : Source}
    (finite : Acc (PartOf split) root) :
    assemble split root finite = bottomUp split root finite :=
  (Assembly.yields_bottomUp finite).run_eq _

/-!
## Copies
-/

namespace Snapshot

theorem pmap_eq_self {Inside : Snapshot -> Prop} {value : forall part, Inside part -> Snapshot}
    {parts : List Snapshot} (inside : forall part, part ∈ parts -> Inside part)
    (same : forall part here, value part here = part) : parts.pmap value inside = parts := by
  induction parts with
  | nil => rfl
  | cons part rest ih => rw [List.pmap_cons, same, ih]

theorem close_of_split {snapshot : Snapshot} :
    snapshot.split.close snapshot.split.parts = snapshot := by
  cases opened : snapshot.split with
  | leaf whole => exact eq_of_split_leaf opened
  | node shell parts => exact fill_of_split opened

theorem bottomUp_split {snapshot : Snapshot} (finite : Acc (PartOf split) snapshot) :
    bottomUp split snapshot finite = snapshot := by
  induction finite with
  | intro snapshot below ih =>
      rw [bottomUp, pmap_eq_self partOf_of_mem ih]
      exact close_of_split

theorem copy_eq (snapshot : Snapshot) : snapshot.copy = snapshot := by
  unfold copy
  rw [assemble_eq_bottomUp, bottomUp_split]

end Snapshot
end StrictLambda
