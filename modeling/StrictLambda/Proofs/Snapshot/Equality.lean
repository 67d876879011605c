import StrictLambda.Proofs.Snapshot.Unfolding
import StrictLambda.Snapshot.Equality

/-!
# Equal snapshots

The comparison of two snapshots takes pairs of parts from a list until the list is empty or a pair
differs at its roots.  It answers whether the two are the same tree: whether they show the same
thing at every position.
-/

namespace StrictLambda
namespace Snapshot

/-!
## Positions
-/

/-- What a snapshot shows without its parts: an atom, or the names in a node. -/
def root : Snapshot -> Sum Atom Shell
  | atom leaf => .inl leaf
  | data type constructor fields => .inr (.data type constructor (fields.map Prod.fst))
  | tied _ => .inr .tied

/-- A position is the list of the numbers of the parts that lead to it. -/
def at? (snapshot : Snapshot) : List Nat -> Option Snapshot
  | [] => some snapshot
  | index :: rest => snapshot.split.parts[index]?.bind fun part => part.at? rest

def rootAt? (snapshot : Snapshot) (position : List Nat) : Option (Sum Atom Shell) :=
  (snapshot.at? position).map root

theorem eq_of_split_eq {left right : Snapshot} (same : left.split = right.split) :
    left = right := by
  cases opened : left.split with
  | leaf whole => rw [← eq_of_split_leaf opened, eq_of_split_leaf (same.symm.trans opened)]
  | node shell parts => rw [← fill_of_split opened, fill_of_split (same.symm.trans opened)]

theorem split_eq_of_root_eq {left right : Snapshot} (roots : left.root = right.root)
    (parts : left.split.parts = right.split.parts) : left.split = right.split := by
  cases left <;> cases right <;> simp_all [root, split, Split.parts]

theorem eq_iff_rootAt? {left right : Snapshot} :
    left = right ↔ forall position, left.rootAt? position = right.rootAt? position := by
  constructor
  · rintro rfl position
    rfl
  intro same
  induction left.finite generalizing right with
  | intro left _ ih =>
      have roots : left.root = right.root := Option.some.inj (same [])
      apply eq_of_split_eq
      apply split_eq_of_root_eq roots
      apply List.ext_getElem?
      intro index
      have below (rest : List Nat) := same (index :: rest)
      simp only [rootAt?, at?] at below
      cases found : left.split.parts[index]? with
      | none =>
          cases foundOther : right.split.parts[index]? with
          | none => rfl
          | some other =>
              have missing := below []
              rw [found, foundOther] at missing
              cases missing
      | some part =>
          cases foundOther : right.split.parts[index]? with
          | none =>
              have missing := below []
              rw [found, foundOther] at missing
              cases missing
          | some other =>
              rw [found, foundOther] at below
              rw [ih part (List.mem_of_getElem? found) below]

/-!
## The comparison
-/

theorem eq_iff_of_pairFields {lefts rights : List (Symbol × Snapshot)}
    {pairs : List (Snapshot × Snapshot)} (paired : pairFields lefts rights = some pairs) :
    lefts = rights ↔ forall pair, pair ∈ pairs -> pair.1 = pair.2 := by
  fun_induction pairFields lefts rights generalizing pairs with
  | case1 =>
      cases paired
      simp
  | case2 left lefts name right rights ih =>
      rcases Option.map_eq_some_iff.mp paired with ⟨others, rest, rfl⟩
      simp [ih rest]
  | case3 => cases paired
  | case4 => cases paired

theorem ne_of_pairFields {lefts rights : List (Symbol × Snapshot)}
    (differ : pairFields lefts rights = none) : lefts ≠ rights := by
  fun_induction pairFields lefts rights with
  | case1 => cases differ
  | case2 left lefts name right rights ih =>
      have rest := ih (Option.map_eq_none_iff.mp differ)
      simp [rest]
  | case3 leftName left lefts rightName right rights other =>
      rintro same
      cases same
      exact other rfl
  | case4 lefts rights notNil notCons =>
      rintro rfl
      cases lefts with
      | nil => exact notNil rfl rfl
      | cons field rest => exact notCons _ _ _ _ _ _ rfl rfl

theorem eq_iff_of_pairParts {left right : Snapshot} {pairs : List (Snapshot × Snapshot)}
    (paired : pairParts left right = some pairs) :
    left = right ↔ forall pair, pair ∈ pairs -> pair.1 = pair.2 := by
  unfold pairParts at paired
  split at paired
  · split at paired
    · next same =>
        cases paired
        simp [same]
    · cases paired
  · split at paired
    · next same =>
        rcases same with ⟨rfl, rfl⟩
        simp [eq_iff_of_pairFields paired]
    · cases paired
  · cases paired
    simp
  · cases paired

theorem ne_of_pairParts {left right : Snapshot} (differ : pairParts left right = none) :
    left ≠ right := by
  unfold pairParts at differ
  split at differ
  · split at differ
    · cases differ
    · next other => simp [other]
  · split at differ
    · have fields := ne_of_pairFields differ
      simp [fields]
    · next other =>
        rintro same
        cases same
        exact other ⟨rfl, rfl⟩
  · cases differ
  · next notAtoms notData notTied =>
      rintro rfl
      cases left with
      | atom leaf => exact notAtoms _ _ rfl rfl
      | data type constructor fields => exact notData _ _ _ _ _ _ rfl rfl
      | tied content => exact notTied _ _ rfl rfl

theorem allSame_iff (pairs : List (Snapshot × Snapshot)) :
    allSame pairs = true ↔ forall pair, pair ∈ pairs -> pair.1 = pair.2 := by
  fun_induction allSame pairs with
  | case1 => simp
  | case2 left right rest pairs paired ih =>
      rw [ih, List.forall_mem_append, List.forall_mem_cons, eq_iff_of_pairParts paired]
  | case3 left right rest differ =>
      have unequal := ne_of_pairParts differ
      simp [unequal]

theorem beq_iff {left right : Snapshot} : (left == right) = true ↔ left = right := by
  show allSame [(left, right)] = true ↔ left = right
  rw [allSame_iff, List.forall_mem_singleton]

/-!
## One node at a time
-/

inductive Agree (Related : Snapshot -> Snapshot -> Prop) : Snapshot -> Snapshot -> Prop where
  | atom (leaf : Atom) : Agree Related (.atom leaf) (.atom leaf)
  | data (type constructor : Symbol) {fields others : List (Symbol × Snapshot)}
      (pairwise : List.Forall₂ (fun field other => field.1 = other.1 ∧ Related field.2 other.2)
        fields others) :
      Agree Related (.data type constructor fields) (.data type constructor others)
  | tied {content other : Snapshot} (related : Related content other) :
      Agree Related (.tied content) (.tied other)

theorem agree_iff_eq {left right : Snapshot} :
    Agree (fun part other => part = other) left right ↔ left = right := by
  constructor
  · intro agree
    cases agree with
    | atom leaf => rfl
    | data type constructor pairwise =>
        have equal : (fun field other : Symbol × Snapshot =>
            field.1 = other.1 ∧ field.2 = other.2) = fun field other => field = other := by
          funext field other
          exact propext Prod.ext_iff.symm
        rw [equal, List.forall₂_eq_eq_eq] at pairwise
        rw [pairwise]
    | tied related => rw [related]
  · rintro rfl
    cases left with
    | atom leaf => exact .atom leaf
    | data type constructor fields =>
        exact .data type constructor (List.forall₂_same.mpr fun field _ => ⟨rfl, rfl⟩)
    | tied content => exact .tied rfl

/-! ## Surroundings -/

/-- A node in which one part is left out. -/
inductive Surrounding where
  | data (dataType constructor : Symbol) (before : List (Symbol × Snapshot)) (name : Symbol)
      (after : List (Symbol × Snapshot))
  | tied

def Surrounding.around : Surrounding -> Snapshot -> Snapshot
  | .data type constructor before name after, part =>
      .data type constructor (before ++ (name, part) :: after)
  | .tied, part => .tied part

def place (surroundings : List Surrounding) (part : Snapshot) : Snapshot :=
  surroundings.foldr Surrounding.around part

theorem around_inj {surrounding : Surrounding} {part other : Snapshot} :
    surrounding.around part = surrounding.around other ↔ part = other := by
  cases surrounding with
  | data type constructor before name after => simp [Surrounding.around]
  | tied => simp [Surrounding.around]

theorem place_inj {surroundings : List Surrounding} {part other : Snapshot} :
    place surroundings part = place surroundings other ↔ part = other := by
  induction surroundings with
  | nil => rfl
  | cons surrounding rest ih => exact around_inj.trans ih

/-- Two snapshots are equal if they are the same tree: if they show the same at every position,
which is to say that their roots agree and their parts are equal again.  To replace one part
anywhere makes a difference just if the other part is different. -/
theorem beq_is_structural :
    (forall left right : Snapshot, (left == right) = true ↔ left = right) ∧
    (forall left right : Snapshot, (left == right) = true ↔
      forall position, left.rootAt? position = right.rootAt? position) ∧
    (forall left right : Snapshot, (left == right) = true ↔
      Agree (fun part other => (part == other) = true) left right) ∧
    Equivalence (fun left right : Snapshot => (left == right) = true) ∧
    forall (surroundings : List Surrounding) (part other : Snapshot),
      (place surroundings part == place surroundings other) = (part == other) := by
  have equal : (fun left right : Snapshot => (left == right) = true) =
      fun left right => left = right := by
    funext left right
    exact propext beq_iff
  refine ⟨fun left right => beq_iff, ?_, ?_, ?_, ?_⟩
  · intro left right
    rw [beq_iff, eq_iff_rootAt?]
  · intro left right
    rw [equal, agree_iff_eq, beq_iff]
  · rw [equal]
    exact eq_equivalence
  · intro surroundings part other
    rw [Bool.eq_iff_iff, beq_iff, beq_iff, place_inj]

end Snapshot
end StrictLambda
