import Mathlib.Data.List.Forall2
import StrictLambda.Proofs.Value.Map
import StrictLambda.Snapshot.OfValue

/-!
# What assembly builds

The loop that assembles a snapshot opens one node at a time.  Seen from outside it does nothing else
than to unfold the source from the bottom up: a leaf stays as it is, and a node is filled with what
its parts unfold to.
-/

namespace StrictLambda

inductive Unfolds {Source : Type} (split : Source -> Split Source) :
    List Source -> List Snapshot -> Prop where
  | nil : Unfolds split [] []
  | leaf {source : Source} {snapshot : Snapshot} {rest : List Source} {others : List Snapshot}
      (opened : split source = .leaf snapshot) (later : Unfolds split rest others) :
      Unfolds split (source :: rest) (snapshot :: others)
  | node {source : Source} {shell : Shell} {parts rest : List Source}
      {built others : List Snapshot} (opened : split source = .node shell parts)
      (inside : Unfolds split parts built) (later : Unfolds split rest others) :
      Unfolds split (source :: rest) (shell.fill built :: others)

namespace Unfolds

variable {Source : Type} {split : Source -> Split Source} {sources : List Source}
  {snapshots others : List Snapshot}

theorem cons {source : Source} {snapshot : Snapshot} (first : Unfolds split [source] [snapshot])
    (later : Unfolds split sources snapshots) :
    Unfolds split (source :: sources) (snapshot :: snapshots) := by
  cases first with
  | leaf opened => exact .leaf opened later
  | node opened inside => exact .node opened inside later

theorem unique (unfolds : Unfolds split sources snapshots)
    (again : Unfolds split sources others) : snapshots = others := by
  induction unfolds generalizing others with
  | nil =>
      cases again
      rfl
  | leaf opened _ ih =>
      cases again with
      | leaf openedAgain later =>
          rw [opened] at openedAgain
          cases openedAgain
          rw [ih later]
      | node openedAgain =>
          rw [opened] at openedAgain
          cases openedAgain
  | node opened _ _ ihInside ih =>
      cases again with
      | leaf openedAgain =>
          rw [opened] at openedAgain
          cases openedAgain
      | node openedAgain inside later =>
          rw [opened] at openedAgain
          cases openedAgain
          rw [ihInside inside, ih later]

end Unfolds

/-!
## The loop
-/

namespace Assembly

variable {Source : Type} {split : Source -> Split Source}

def Continues (split : Source -> Split Source) (before after : Assembly Source) : Prop :=
  forall ends : Acc (Follows split) before,
    exists endsAfter : Acc (Follows split) after, run split before ends = run split after endsAfter

theorem Continues.refl (assembly : Assembly Source) : Continues split assembly assembly :=
  fun ends => ⟨ends, rfl⟩

theorem Continues.trans {first second third : Assembly Source}
    (before : Continues split first second) (after : Continues split second third) :
    Continues split first third := by
  intro ends
  rcases before ends with ⟨endsSecond, same⟩
  rcases after endsSecond with ⟨endsThird, again⟩
  exact ⟨endsThird, same.trans again⟩

theorem continues_of_next {before after : Assembly Source}
    (step : next split before = .inr after) : Continues split before after := by
  intro ends
  refine ⟨ends.inv step, ?_⟩
  rw [run]
  split
  · next snapshot stepped =>
      rw [step] at stepped
      cases stepped
  · next other stepped =>
      rw [step] at stepped
      cases stepped
      rfl

theorem run_finished (snapshot : Snapshot)
    (ends : Acc (Follows split) (finished snapshot [])) :
    run split (finished snapshot []) ends = snapshot := by
  rw [run]
  rfl

theorem continues_resume {waiting : List Source}
    (parts : forall source, source ∈ waiting -> exists snapshot,
      Unfolds split [source] [snapshot] ∧
        forall outer, Continues split (opening source outer) (finished snapshot outer))
    (shell : Shell) (built : List Snapshot) (outer : List (Suspended Source)) :
    exists snapshots, Unfolds split waiting snapshots ∧
      Continues split (resume shell waiting built outer)
        (finished (shell.fill (built.reverse ++ snapshots)) outer) := by
  induction waiting generalizing built with
  | nil =>
      refine ⟨[], .nil, ?_⟩
      rw [List.append_nil]
      exact .refl _
  | cons source rest ih =>
      rcases parts source List.mem_cons_self with ⟨snapshot, first, continues⟩
      rcases ih (fun part member => parts part (List.mem_cons_of_mem _ member))
        (snapshot :: built) with ⟨snapshots, later, resumes⟩
      refine ⟨snapshot :: snapshots, first.cons later, ?_⟩
      rw [List.reverse_cons, List.append_assoc, List.singleton_append] at resumes
      exact ((continues _).trans (continues_of_next rfl)).trans resumes

theorem exists_unfolding {source : Source} (finite : Acc (PartOf split) source) :
    exists snapshot, Unfolds split [source] [snapshot] ∧
      forall outer, Continues split (opening source outer) (finished snapshot outer) := by
  induction finite with
  | intro source _ ih =>
      cases opened : split source with
      | leaf snapshot =>
          refine ⟨snapshot, .leaf opened .nil, ?_⟩
          intro outer
          apply continues_of_next
          rw [next, opened]
      | node shell parts =>
          have inside : forall part, part ∈ parts -> exists snapshot,
              Unfolds split [part] [snapshot] ∧
                forall outer, Continues split (opening part outer) (finished snapshot outer) := by
            intro part member
            apply ih
            unfold PartOf
            rw [opened]
            exact member
          rcases continues_resume inside shell [] [] with ⟨built, unfolds, _⟩
          refine ⟨shell.fill built, .node opened unfolds .nil, ?_⟩
          intro outer
          have first : Continues split (opening source outer) (resume shell parts [] outer) := by
            apply continues_of_next
            rw [next, opened]
          rcases continues_resume inside shell [] outer with ⟨again, unfoldsAgain, resumes⟩
          rw [unfolds.unique unfoldsAgain]
          exact first.trans resumes

end Assembly

theorem unfolds_assemble {Source : Type} {split : Source -> Split Source} {source : Source}
    (finite : Acc (PartOf split) source) :
    Unfolds split [source] [assemble split source finite] := by
  rcases Assembly.exists_unfolding finite with ⟨snapshot, unfolds, continues⟩
  rcases continues [] (Assembly.ends_opening finite [] Assembly.ends_finished) with ⟨ends, same⟩
  unfold assemble
  rw [same, Assembly.run_finished]
  exact unfolds

/-!
## Sources that unfold alike
-/

/-- What two sources are when they are opened: the same leaf, or the same node with corresponding
parts. -/
inductive Split.Alike {Source Other : Type} (Related : Source -> Other -> Prop) :
    Split Source -> Split Other -> Prop where
  | leaf (snapshot : Snapshot) : Alike Related (.leaf snapshot) (.leaf snapshot)
  | node (shell : Shell) {parts : List Source} {others : List Other}
      (related : List.Forall₂ Related parts others) :
      Alike Related (.node shell parts) (.node shell others)

section Alike

variable {Source Other : Type} {split : Source -> Split Source}
  {splitOther : Other -> Split Other} {Related : Source -> Other -> Prop}

theorem Split.Alike.eq_leaf {snapshot : Snapshot} {opened : Split Other}
    (alike : Split.Alike Related (.leaf snapshot) opened) : opened = .leaf snapshot := by
  cases alike
  rfl

theorem Split.Alike.exists_node {shell : Shell} {parts : List Source} {opened : Split Other}
    (alike : Split.Alike Related (.node shell parts) opened) :
    exists others, opened = .node shell others ∧ List.Forall₂ Related parts others := by
  cases alike with
  | node _ inside => exact ⟨_, rfl, inside⟩

theorem Unfolds.of_related
    (alike : forall source other, Related source other ->
      (split source).Alike Related (splitOther other))
    {sources : List Source} {snapshots : List Snapshot} (unfolds : Unfolds split sources snapshots)
    {others : List Other} (related : List.Forall₂ Related sources others) :
    Unfolds splitOther others snapshots := by
  induction unfolds generalizing others with
  | nil =>
      cases related
      exact .nil
  | leaf opened _ ih =>
      cases related with
      | cons first later =>
          have opens := alike _ _ first
          rw [opened] at opens
          exact .leaf opens.eq_leaf (ih later)
  | node opened _ _ ihInside ih =>
      cases related with
      | cons first later =>
          have opens := alike _ _ first
          rw [opened] at opens
          rcases opens.exists_node with ⟨parts, openedOther, inside⟩
          exact .node openedOther (ihInside inside) (ih later)

theorem assemble_eq_of_related
    (alike : forall source other, Related source other ->
      (split source).Alike Related (splitOther other))
    {source : Source} {other : Other} (related : Related source other)
    (finite : Acc (PartOf split) source) (finiteOther : Acc (PartOf splitOther) other) :
    assemble split source finite = assemble splitOther other finiteOther := by
  have unfolds := (unfolds_assemble finite).of_related alike (.cons related .nil)
  exact List.head_eq_of_cons_eq (unfolds.unique (unfolds_assemble finiteOther))

end Alike

/-!
## Snapshots as sources
-/

namespace Snapshot

variable {snapshot : Snapshot}

theorem eq_of_split_leaf {leaf : Snapshot} (opened : snapshot.split = .leaf leaf) :
    leaf = snapshot := by
  cases snapshot with
  | atom own =>
      cases opened
      rfl
  | data | tied => cases opened

theorem fill_of_split {shell : Shell} {parts : List Snapshot}
    (opened : snapshot.split = .node shell parts) : shell.fill parts = snapshot := by
  cases snapshot with
  | atom leaf => cases opened
  | data type constructor fields =>
      have zipped : fields = (fields.map Prod.fst).zip (fields.map Prod.snd) :=
        List.zip_of_prod rfl rfl
      cases opened
      rw [Shell.fill, ← zipped]
  | tied content =>
      cases opened
      rfl

end Snapshot

/-!
## Snapshots of values
-/

namespace Value

variable {Code Other : Type}

theorem alike_split_map (change : Code -> Other) (entry : Other -> Entry) (cells : Cells Code)
    (hops : Nat) (value : Value Code) :
    (split (fun code => entry (change code)) cells (hops, value)).Alike
      (fun source other => other = (source.1, source.2.map change))
      (split entry (cells.map change) (hops, value.map change)) := by
  have parts (hops : Nat) (values : List (Value Code)) :
      List.Forall₂ (fun source other => other = (source.1, source.2.map change))
        (values.map fun value => (hops, value))
        (values.map ((fun value => (hops, value)) ∘ map change)) := by
    simp [List.forall₂_map_left_iff, List.forall₂_map_right_iff, List.forall₂_same]
  cases value with
  | integer value => simpa [split] using .leaf _
  | boolean value => simpa [split] using .leaf _
  | function code captures => simpa [split] using .leaf _
  | dataType declaration => simpa [split] using .leaf _
  | data declaration tag fields => simpa [split] using .node _ (parts hops fields)
  | fixpoint cell =>
      cases hops with
      | zero => simpa [split] using .leaf _
      | succ hops =>
          rw [map_fixpoint, split, split, Cells.content?_map]
          cases cells.content? cell with
          | none => exact .leaf _
          | some content => exact .node _ (parts hops [content])

end Value

theorem Snapshot.ofValue_integer {Code : Type} (entry : Code -> Entry) (cells : Cells Code)
    (number : Int64) : Snapshot.ofValue entry cells (.integer number) = .atom (.integer number) :=
  List.singleton_inj.mp ((unfolds_assemble _).unique (.leaf rfl .nil))

theorem Snapshot.ofValue_map {Code Other : Type} (change : Code -> Other)
    (entry : Other -> Entry) (cells : Cells Code) (value : Value Code) :
    Snapshot.ofValue entry (cells.map change) (value.map change) =
      Snapshot.ofValue (fun code => entry (change code)) cells value := by
  have alike : forall (source : Nat × Value Code) (other : Nat × Value Other),
      other = (source.1, source.2.map change) ->
        (Value.split (fun code => entry (change code)) cells source).Alike
          (fun source other => other = (source.1, source.2.map change))
          (Value.split entry (cells.map change) other) := by
    rintro ⟨hops, source⟩ other rfl
    exact Value.alike_split_map change entry cells hops source
  unfold ofValue
  symm
  apply assemble_eq_of_related alike
  rw [Cells.size_map]

end StrictLambda
