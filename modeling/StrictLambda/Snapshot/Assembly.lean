import StrictLambda.Snapshot.Basic

/-!
# Assembling snapshots

A snapshot is built from any kind of source by opening one node of the source at a time.  The nodes
that wait for their parts are kept in a list, the innermost first, so the assembly is a loop; it
comes to an end whenever the source unfolds to a finite tree.
-/

namespace StrictLambda

inductive Shell where
  | data (dataType constructor : Symbol) (names : List Symbol)
  | tied

/-- Puts the parts into a node.  Names and parts of a data value are paired up to the shorter of
the two lists. -/
def Shell.fill : Shell -> List Snapshot -> Snapshot
  | .data type constructor names, parts => .data type constructor (names.zip parts)
  | .tied, content :: _ => .tied content
  | .tied, [] => .atom .pending

/-- What a source turns out to be when it is opened.  A leaf need not be an atom: it may be any
snapshot that is there already. -/
inductive Split (Source : Type) where
  | leaf (snapshot : Snapshot)
  | node (shell : Shell) (parts : List Source)

def Split.parts {Source : Type} : Split Source -> List Source
  | leaf _ => []
  | node _ parts => parts

def PartOf {Source : Type} (split : Source -> Split Source) (part whole : Source) : Prop :=
  part ∈ (split whole).parts

/-- A node some of whose parts are built, the latest first, while one of the others is being
built. -/
structure Suspended (Source : Type) where
  shell : Shell
  waiting : List Source
  built : List Snapshot

inductive Assembly (Source : Type) where
  | opening (source : Source) (outer : List (Suspended Source))
  | finished (snapshot : Snapshot) (outer : List (Suspended Source))

namespace Assembly

variable {Source : Type}

def resume (shell : Shell) (waiting : List Source) (built : List Snapshot)
    (outer : List (Suspended Source)) : Assembly Source :=
  match waiting with
  | [] => finished (shell.fill built.reverse) outer
  | source :: rest => opening source (⟨shell, rest, built⟩ :: outer)

def next (split : Source -> Split Source) : Assembly Source -> Sum Snapshot (Assembly Source)
  | opening source outer =>
      match split source with
      | .leaf snapshot => .inr (finished snapshot outer)
      | .node shell parts => .inr (resume shell parts [] outer)
  | finished snapshot [] => .inl snapshot
  | finished snapshot (⟨shell, waiting, built⟩ :: outer) =>
      .inr (resume shell waiting (snapshot :: built) outer)

def Follows (split : Source -> Split Source) (after before : Assembly Source) : Prop :=
  next split before = .inr after

def run (split : Source -> Split Source) (assembly : Assembly Source)
    (ends : Acc (Follows split) assembly) : Snapshot :=
  match step : next split assembly with
  | .inl snapshot => snapshot
  | .inr after => run split after (ends.inv step)
termination_by (⟨assembly, ends⟩ : { assembly : Assembly Source // Acc (Follows split) assembly })
decreasing_by exact step

/-!
## Termination

Building a part brings the assembly back to the node that waits for it, so by induction on the
source every assembly ends if the one of the surrounding nodes does.
-/

theorem ends_finished {split : Source -> Split Source} (snapshot : Snapshot) :
    Acc (Follows split) (finished snapshot []) := by
  constructor
  intro after follows
  cases follows

theorem ends_resume {split : Source -> Split Source} (shell : Shell) (waiting : List Source)
    (built : List Snapshot) (outer : List (Suspended Source))
    (parts : forall source, source ∈ waiting -> forall around,
      (forall snapshot, Acc (Follows split) (finished snapshot around)) ->
        Acc (Follows split) (opening source around))
    (around : forall snapshot, Acc (Follows split) (finished snapshot outer)) :
    Acc (Follows split) (resume shell waiting built outer) := by
  induction waiting generalizing built with
  | nil => exact around _
  | cons source rest ih =>
      apply parts source List.mem_cons_self
      intro snapshot
      constructor
      intro after follows
      cases follows
      exact ih (snapshot :: built) fun part member => parts part (List.mem_cons_of_mem _ member)

theorem ends_opening {split : Source -> Split Source} {source : Source}
    (finite : Acc (PartOf split) source) (outer : List (Suspended Source))
    (around : forall snapshot, Acc (Follows split) (finished snapshot outer)) :
    Acc (Follows split) (opening source outer) := by
  induction finite generalizing outer with
  | intro source _ ih =>
      constructor
      intro after follows
      simp only [Follows, next] at follows
      split at follows
      · cases follows
        exact around _
      · next shell parts opened =>
          cases follows
          apply ends_resume
          · intro part member inner surrounded
            refine ih part ?_ inner surrounded
            simpa [PartOf, Split.parts, opened] using member
          · exact around

end Assembly

def assemble {Source : Type} (split : Source -> Split Source) (root : Source)
    (finite : Acc (PartOf split) root) : Snapshot :=
  Assembly.run split (.opening root []) (Assembly.ends_opening finite [] Assembly.ends_finished)

/-!
## Copies

A snapshot is itself a source of snapshots.
-/

namespace Snapshot

def split : Snapshot -> Split Snapshot
  | atom leaf => .leaf (.atom leaf)
  | data type constructor fields =>
      .node (.data type constructor (fields.map Prod.fst)) (fields.map Prod.snd)
  | tied content => .node .tied [content]

theorem sizeOf_lt_of_partOf {part whole : Snapshot} (member : PartOf split part whole) :
    sizeOf part < sizeOf whole := by
  cases whole with
  | atom leaf => simp [PartOf, split, Split.parts] at member
  | data type constructor fields =>
      simp only [PartOf, split, Split.parts, List.mem_map] at member
      cases member with
      | intro field found =>
          have smaller := List.sizeOf_lt_of_mem found.1
          have second : sizeOf field.2 < sizeOf field := by
            cases field
            simp only [Prod.mk.sizeOf_spec]
            omega
          rw [← found.2]
          simp only [data.sizeOf_spec]
          omega
  | tied content =>
      simp only [PartOf, split, Split.parts, List.mem_singleton] at member
      subst member
      simp only [tied.sizeOf_spec]
      omega

theorem finite (snapshot : Snapshot) : Acc (PartOf split) snapshot :=
  Subrelation.accessible sizeOf_lt_of_partOf
    (InvImage.accessible sizeOf (Nat.lt_wfRel.wf.apply (sizeOf snapshot)))

def copy (snapshot : Snapshot) : Snapshot :=
  assemble split snapshot snapshot.finite

end Snapshot
end StrictLambda
