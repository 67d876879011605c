import StrictLambda.Failure

/-!
# Snapshots

A snapshot is a value as it is handed to the host: a plain tree that stays valid after the machine
is gone.  Functions are shown by their code and by how much they captured; what they captured can
lead back to the function itself and is left out.

Snapshots can be as deep as the memory allows.  Building, copying, comparing and printing them all
keep what is still to be done in a list of their own, so none of them nests calls as deep as the
tree.
-/

namespace StrictLambda

/-- A snapshot without parts.  `pending` is a cell that is not tied yet. -/
inductive Atom where
  | integer (value : Int64)
  | boolean (value : Bool)
  | function (entry : Entry) (captures : Nat)
  | dataType (name : Symbol) (constructors : List Symbol)
  | pending
deriving DecidableEq

inductive Snapshot where
  | atom (atom : Atom)
  | data (dataType constructor : Symbol) (fields : List (Symbol × Snapshot))
  | tied (content : Snapshot)

def Atom.kind : Atom -> Kind
  | integer _ => .integer
  | boolean _ => .boolean
  | function _ _ => .function
  | dataType _ _ => .dataType
  | pending => .fixpoint

namespace Snapshot

def kind : Snapshot -> Kind
  | atom leaf => leaf.kind
  | data _ _ _ => .data
  | tied _ => .fixpoint

def integer? : Snapshot -> Option Int64
  | atom (.integer value) => some value
  | _ => none

def field? (snapshot : Snapshot) (name : Symbol) : Option Snapshot :=
  match snapshot with
  | data _ _ fields => fields.lookup name
  | _ => none

/-!
## Weight

The measure by which walks over a snapshot come to an end: one for every node, and one more for
every field name and for every end of a node.
-/

mutual

def weight : Snapshot -> Nat
  | atom _ => 1
  | data _ _ fields => fieldsWeight fields + 2
  | tied content => content.weight + 2

def fieldsWeight : List (Symbol × Snapshot) -> Nat
  | [] => 0
  | (_, value) :: rest => value.weight + 1 + fieldsWeight rest

end

end Snapshot
end StrictLambda
