import StrictLambda.Snapshot.Basic

/-!
# Tokens of snapshots

A snapshot as a flat sequence, in the order in which it is printed: every node before its parts, and
a mark where it ends.  Printers read the tokens one by one and need to know nothing else.
-/

namespace StrictLambda

/-- A data value with `arity` fields opens with its constructor; each field is announced by its
name. -/
inductive Token where
  | atom (atom : Atom)
  | opening (dataType constructor : Symbol) (arity : Nat)
  | field (name : Symbol) (first : Bool)
  | closing (arity : Nat)
  | tied
  | untied
deriving DecidableEq

inductive Task where
  | visit (snapshot : Snapshot)
  | emit (token : Token)

namespace Task

def ofFields (first : Bool) : List (Symbol × Snapshot) -> List Task
  | [] => []
  | (name, value) :: rest => emit (.field name first) :: visit value :: ofFields false rest

def weight : Task -> Nat
  | visit snapshot => snapshot.weight
  | emit _ => 1

def totalWeight : List Task -> Nat
  | [] => 0
  | task :: rest => task.weight + totalWeight rest

theorem totalWeight_append (first second : List Task) :
    totalWeight (first ++ second) = totalWeight first + totalWeight second := by
  induction first with
  | nil => simp [totalWeight]
  | cons task rest ih => simp [totalWeight, ih, Nat.add_assoc]

theorem totalWeight_ofFields (first : Bool) (fields : List (Symbol × Snapshot)) :
    totalWeight (ofFields first fields) = Snapshot.fieldsWeight fields := by
  induction fields generalizing first with
  | nil => rfl
  | cons field rest ih =>
      simp only [ofFields, totalWeight, weight, Snapshot.fieldsWeight, ih]
      omega

end Task

namespace Token

def collect (tokens : Array Token) : List Task -> Array Token
  | [] => tokens
  | .emit token :: rest => collect (tokens.push token) rest
  | .visit (.atom leaf) :: rest => collect (tokens.push (.atom leaf)) rest
  | .visit (.data type constructor fields) :: rest =>
      let arity := fields.length
      collect (tokens.push (.opening type constructor arity))
        (Task.ofFields true fields ++ .emit (.closing arity) :: rest)
  | .visit (.tied content) :: rest =>
      collect (tokens.push .tied) (.visit content :: .emit .untied :: rest)
termination_by tasks => Task.totalWeight tasks
decreasing_by
  all_goals
    simp only [Task.totalWeight, Task.totalWeight_append, Task.totalWeight_ofFields, Task.weight,
      Snapshot.weight]
    omega

end Token

def Snapshot.tokens (snapshot : Snapshot) : Array Token :=
  Token.collect #[] [.visit snapshot]

end StrictLambda
