import StrictLambda.Snapshot.Basic

/-!
# Comparing snapshots

Two snapshots are compared node by node.  A list holds the pairs still to be compared; a pair either
differs at its roots, which settles the question, or is replaced by the pairs of its parts.
-/

namespace StrictLambda
namespace Snapshot

def pairFields : List (Symbol × Snapshot) -> List (Symbol × Snapshot) ->
    Option (List (Snapshot × Snapshot))
  | [], [] => some []
  | (leftName, left) :: lefts, (rightName, right) :: rights =>
      if leftName = rightName then
        (pairFields lefts rights).map fun pairs => (left, right) :: pairs
      else
        none
  | _, _ => none

def pairParts : Snapshot -> Snapshot -> Option (List (Snapshot × Snapshot))
  | atom left, atom right => if left = right then some [] else none
  | data leftType leftConstructor lefts, data rightType rightConstructor rights =>
      if leftType = rightType ∧ leftConstructor = rightConstructor then
        pairFields lefts rights
      else
        none
  | tied left, tied right => some [(left, right)]
  | _, _ => none

def pairsWeight : List (Snapshot × Snapshot) -> Nat
  | [] => 0
  | (left, _) :: rest => left.weight + pairsWeight rest

theorem pairsWeight_append (first second : List (Snapshot × Snapshot)) :
    pairsWeight (first ++ second) = pairsWeight first + pairsWeight second := by
  induction first with
  | nil => simp [pairsWeight]
  | cons pair rest ih => simp [pairsWeight, ih, Nat.add_assoc]

theorem pairsWeight_le_of_pairFields {lefts rights : List (Symbol × Snapshot)}
    {pairs : List (Snapshot × Snapshot)} (paired : pairFields lefts rights = some pairs) :
    pairsWeight pairs <= fieldsWeight lefts := by
  fun_induction pairFields lefts rights generalizing pairs with
  | case1 =>
      cases paired
      exact Nat.le_refl _
  | case2 left lefts name right rights ih =>
      cases rest : pairFields lefts rights with
      | none => simp [rest] at paired
      | some others =>
          simp only [rest, Option.map_some, Option.some.injEq] at paired
          subst paired
          have bound := ih rest
          simp only [pairsWeight, fieldsWeight]
          omega
  | case3 => cases paired
  | case4 => cases paired

theorem pairsWeight_lt_of_pairParts {left right : Snapshot}
    {pairs : List (Snapshot × Snapshot)} (paired : pairParts left right = some pairs) :
    pairsWeight pairs < left.weight := by
  cases left with
  | atom leaf =>
      cases right with
      | atom other =>
          simp only [pairParts] at paired
          split at paired
          · cases paired
            simp [pairsWeight, weight]
          · cases paired
      | data _ _ _ => cases paired
      | tied _ => cases paired
  | data type constructor lefts =>
      cases right with
      | atom _ => cases paired
      | data otherType otherConstructor rights =>
          simp only [pairParts] at paired
          split at paired
          · have bound := pairsWeight_le_of_pairFields paired
            simp only [weight]
            omega
          · cases paired
      | tied _ => cases paired
  | tied content =>
      cases right with
      | atom _ => cases paired
      | data _ _ _ => cases paired
      | tied other =>
          cases paired
          simp [pairsWeight, weight]

def allSame : List (Snapshot × Snapshot) -> Bool
  | [] => true
  | (left, right) :: rest =>
      match _ : pairParts left right with
      | some pairs => allSame (pairs ++ rest)
      | none => false
termination_by pairs => pairsWeight pairs
decreasing_by
  have smaller := pairsWeight_lt_of_pairParts ‹pairParts left right = some pairs›
  simp only [pairsWeight, pairsWeight_append]
  omega

def same (left right : Snapshot) : Bool :=
  allSame [(left, right)]

instance : BEq Snapshot where
  beq := same

end Snapshot
end StrictLambda
