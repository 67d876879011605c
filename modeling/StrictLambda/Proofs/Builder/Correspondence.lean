import StrictLambda.Proofs.Block.Steps
import StrictLambda.Proofs.Builder.Labels
import StrictLambda.Proofs.Layout.Bodies
import StrictLambda.Proofs.Term.Evaluator
import StrictLambda.Proofs.Value.Map

/-!
# Evaluation and blocks side by side

The values of the evaluator become those of the block interpreter when every abstraction is replaced
by the block with its number.  This module says which values may occur in an evaluation, and what it
means that a frame holds an environment.
-/

namespace StrictLambda

def Value.isCell {Code : Type} (value : Value Code) : Bool :=
  value.kind = .fixpoint

theorem Value.isCell_map {Code Other : Type} (change : Code -> Other) (value : Value Code) :
    (value.map change).isCell = value.isCell := by
  unfold isCell
  rw [kind_map]

namespace Block

def codeOf (tree : Block) (lambda : Lambda) : Body :=
  tree.bodyAt lambda.number

/-!
## Values of an evaluation
-/

/-- The block of the abstraction was built from it, with placeholders for those of the captures that
are cells. -/
structure Compiled (tree : Block) (lambda : Lambda) (captures : List (Value Lambda))
    (places : List (Binding × Local)) (inner : Draft) (span : Span) : Prop where
  free : places.map Prod.fst = lambda.free
  placeholders : places.map (fun place => place.2.placeholder) = captures.map Value.isCell
  built : Builds (.tail .functionBody lambda.body)
    (.start (places.length + 1) (.ofFunction lambda.parameter places)) inner
  stands : (Body.mk lambda.number
    (.mk (places.length + 1) inner.nodes.toList span)).StandsIn tree
  fits : lambda.body.FitsScope (lambda.parameter.id :: lambda.free.map Binding.id)
  distinct : (lambda.parameter.id :: lambda.free.map Binding.id).Nodup

/-- A function belongs to a block that was built for it, and no field of a data value is a cell. -/
def Faithful (tree : Block) : Value Lambda -> Prop
  | .function lambda captures =>
      exists places inner span, Compiled tree lambda captures places inner span
  | .data _ _ fields => forall field, field ∈ fields -> field.isCell = false
  | _ => True

structure Proper (tree : Block) (value : Value Lambda) : Prop where
  ordinary : value.isCell = false
  faithful : value.Everywhere (Faithful tree)

def ProperCells (tree : Block) (cells : Cells Lambda) : Prop :=
  forall cell value, cells.content? cell = some value -> Proper tree value

variable {tree : Block}

theorem properCells_allocate {cells : Cells Lambda} (proper : ProperCells tree cells) :
    ProperCells tree cells.allocate.2 := by
  intro cell value content
  rw [Cells.content?_allocate] at content
  exact proper cell value content

theorem properCells_tie {cells tied : Cells Lambda} {cell : Cell} {value : Value Lambda}
    (proper : ProperCells tree cells) (here : Proper tree value)
    (ties : cells.tie cell value = .ok tied) : ProperCells tree tied := by
  intro other content holds
  rcases Cells.eq_or_content?_of_tie ties holds with rfl | old
  · exact here
  · exact proper other content old

theorem proper_of_isLiteral {value : Value Lambda} (literal : value.IsLiteral) :
    Proper tree value := by
  refine ⟨?_, .of_no_parts ?_ literal.parts_eq_nil⟩
  · rcases literal with ⟨literal, rfl⟩
    cases literal <;> rfl
  · rcases literal with ⟨literal, rfl⟩
    cases literal <;> exact trivial

theorem proper_dataType (declaration : Declaration) :
    Proper tree (.dataType declaration) :=
  ⟨rfl, .of_no_parts trivial rfl⟩

theorem proper_data {declaration : Declaration} {tag : Nat} {fields : List (Value Lambda)}
    (proper : forall field, field ∈ fields -> Proper tree field) :
    Proper tree (.data declaration tag fields) :=
  ⟨rfl, .intro (fun field member => (proper field member).ordinary)
    fun field member => (proper field member).faithful⟩

theorem Proper.member {value found : Value Lambda} {span : Span} {field : Symbol}
    (proper : Proper tree value) (accessed : value.member span field = .ok found) :
    Proper tree found := by
  have part := Value.mem_parts_of_member accessed
  refine ⟨?_, proper.faithful.inside part⟩
  have here := proper.faithful.here
  cases value with
  | data declaration tag fields => exact here found part
  | integer | boolean | dataType | fixpoint => cases part
  | function lambda captures => cases accessed

/-!
## Registers
-/

structure Keeps (bound : Nat) (before after : List (Option (Value Body))) : Prop where
  length : after.length = before.length
  same : forall index, index < bound -> after[index]? = before[index]?

def Stores (tree : Block) (registers : List (Option (Value Body))) (register : Register)
    (value : Value Lambda) : Prop :=
  registers[register.index]? = some (some (value.map (codeOf tree)))

variable {bound : Nat} {registers before after last : List (Option (Value Body))}
  {register : Register} {value : Value Lambda}

theorem Keeps.refl (bound : Nat) (registers : List (Option (Value Body))) :
    Keeps bound registers registers :=
  ⟨rfl, fun _ _ => rfl⟩

theorem Keeps.trans {larger : Nat} (first : Keeps bound before after) (le : bound <= larger)
    (second : Keeps larger after last) : Keeps bound before last := by
  refine ⟨second.length.trans first.length, ?_⟩
  intro index below
  rw [second.same index (Nat.lt_of_lt_of_le below le), first.same index below]

theorem keeps_set {index : Nat} (above : bound <= index) (content : Option (Value Body)) :
    Keeps bound registers (registers.set index content) := by
  refine ⟨List.length_set, ?_⟩
  intro other below
  rw [List.getElem?_set_ne (by omega)]

theorem Stores.keep (stores : Stores tree before register value) (below : register.index < bound)
    (keeps : Keeps bound before after) : Stores tree after register value := by
  unfold Stores at stores ⊢
  rw [keeps.same _ below, stores]

theorem stores_set (inside : register.index < registers.length) :
    Stores tree (registers.set register.index (some (value.map (codeOf tree)))) register
      value := by
  unfold Stores
  rw [List.getElem?_set_self inside]

/-!
## Environments
-/

theorem mem_scope_iff {environment : Environment} {id : Nat} :
    id ∈ environment.scope ↔ exists value, environment.lookup id = some value := by
  rw [← Option.isSome_iff_exists, List.lookup_isSome_iff, Environment.scope, List.mem_map]
  constructor
  · intro bound
    rcases bound with ⟨entry, member, rfl⟩
    exact ⟨entry, member, beq_self_eq_true _⟩
  · intro bound
    rcases bound with ⟨entry, member, same⟩
    exact ⟨entry, member, (eq_of_beq same).symm⟩

/-- The frame holds the environment: every binding has a local in a register that is taken, and the
local is a placeholder if the binding stands for a cell. -/
def Mirrors (tree : Block) (environment : Environment) (locals : Locals) (taken : Nat)
    (registers : List (Option (Value Body))) : Prop :=
  forall id value, environment.lookup id = some value ->
    exists place, locals.entries.lookup id = some place ∧ place.register.index < taken ∧
      Stores tree registers place.register value ∧ place.placeholder = value.isCell ∧
      value.Everywhere (Faithful tree)

theorem Mirrors.grow {environment : Environment} {locals localsAfter : Locals}
    {taken takenAfter : Nat} (mirrors : Mirrors tree environment locals taken before)
    (le : taken <= takenAfter) (keeps : Keeps taken before after)
    (same : forall id, id ∈ environment.scope ->
      localsAfter.entries.lookup id = locals.entries.lookup id) :
    Mirrors tree environment localsAfter takenAfter after := by
  intro id value bound
  rcases mirrors id value bound with ⟨place, found, below, stores, flag, faithful⟩
  have inside := mem_scope_iff.mpr ⟨value, bound⟩
  exact ⟨place, (same id inside).trans found, Nat.lt_of_lt_of_le below le,
    stores.keep below keeps, flag, faithful⟩

theorem Mirrors.cons {environment : Environment} {locals : Locals} {taken : Nat}
    (mirrors : Mirrors tree environment locals taken registers) {binding : Binding}
    (below : register.index < taken) (stores : Stores tree registers register value)
    (faithful : value.Everywhere (Faithful tree)) :
    Mirrors tree ((binding.id, value) :: environment)
      (locals.define binding ⟨register, value.isCell⟩) taken registers := by
  intro id found bound
  rw [List.lookup_cons] at bound
  unfold Locals.define
  rw [List.lookup_cons]
  cases same : id == binding.id with
  | true =>
      rw [same] at bound
      cases bound
      exact ⟨_, rfl, below, stores, rfl, faithful⟩
  | false =>
      rw [same] at bound
      exact mirrors id found bound

end Block
end StrictLambda
