import StrictLambda.Proofs.Snapshot.Unfolding

/-!
# Snapshots without code

Functions are shown by the place of their code and by the size of their frames, which depend on how
a program was laid out.  This module says what is left of a snapshot if that is not looked at.
-/

namespace StrictLambda

/-- What every function is shown as if code is not looked at. -/
def Entry.hidden : Entry where
  body := ⟨0⟩
  frameSize := 0

def Atom.withoutCode : Atom -> Atom
  | function _ captures => function .hidden captures
  | leaf => leaf

namespace Snapshot

mutual

def withoutCode : Snapshot -> Snapshot
  | atom leaf => atom leaf.withoutCode
  | data type constructor fields => data type constructor (fieldsWithoutCode fields)
  | tied content => tied content.withoutCode

def fieldsWithoutCode : List (Symbol × Snapshot) -> List (Symbol × Snapshot)
  | [] => []
  | (name, value) :: rest => (name, value.withoutCode) :: fieldsWithoutCode rest

end

theorem fieldsWithoutCode_zip (names : List Symbol) (parts : List Snapshot) :
    fieldsWithoutCode (names.zip parts) = names.zip (parts.map withoutCode) := by
  induction names generalizing parts with
  | nil => rfl
  | cons name rest ih =>
      cases parts with
      | nil => rfl
      | cons part others =>
          rw [List.zip_cons_cons, fieldsWithoutCode, ih, List.map_cons, List.zip_cons_cons]

theorem withoutCode_fill (shell : Shell) (parts : List Snapshot) :
    (shell.fill parts).withoutCode = shell.fill (parts.map withoutCode) := by
  cases shell with
  | data type constructor names =>
      rw [Shell.fill, withoutCode, fieldsWithoutCode_zip, Shell.fill]
  | tied => cases parts <;> simp [Shell.fill, withoutCode, Atom.withoutCode]

end Snapshot

def Split.withoutCode {Source : Type} : Split Source -> Split Source
  | leaf snapshot => leaf snapshot.withoutCode
  | node shell parts => node shell parts

theorem Unfolds.withoutCode {Source : Type} {split : Source -> Split Source}
    {sources : List Source} {snapshots : List Snapshot}
    (unfolds : Unfolds split sources snapshots) :
    Unfolds (fun source => (split source).withoutCode) sources
      (snapshots.map Snapshot.withoutCode) := by
  induction unfolds with
  | nil => exact .nil
  | leaf opened _ ih =>
      rw [List.map_cons]
      exact .leaf (by rw [opened, Split.withoutCode]) ih
  | node opened _ _ inside later =>
      rw [List.map_cons, Snapshot.withoutCode_fill]
      exact .node (by rw [opened, Split.withoutCode]) inside later

theorem Value.withoutCode_split {Code : Type} (entry : Code -> Entry) (cells : Cells Code)
    (source : Nat × Value Code) :
    (split entry cells source).withoutCode = split (fun _ => Entry.hidden) cells source := by
  rcases source with ⟨hops, value⟩
  cases value with
  | integer | boolean | function | dataType | data => rfl
  | fixpoint cell =>
      cases hops with
      | zero => rfl
      | succ hops =>
          rw [split, split]
          cases cells.content? cell <;> rfl

theorem Snapshot.withoutCode_ofValue {Code : Type} (entry : Code -> Entry) (cells : Cells Code)
    (value : Value Code) :
    (ofValue entry cells value).withoutCode = ofValue (fun _ => Entry.hidden) cells value := by
  have unfolds := (unfolds_assemble (Value.finite entry cells (cells.size, value))).withoutCode
  have splits := funext (Value.withoutCode_split entry cells)
  rw [splits] at unfolds
  exact List.head_eq_of_cons_eq (unfolds.unique (unfolds_assemble (Value.finite _ cells _)))

end StrictLambda
