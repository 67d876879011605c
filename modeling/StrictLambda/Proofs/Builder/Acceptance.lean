import Mathlib.Data.List.Basic
import StrictLambda.Proofs.Builder.Labels
import StrictLambda.Proofs.Layout.Acceptance

/-!
# Every closed term has a program

The plan of a term fails nowhere if all free variables have locals, and nothing is wrong with the
blocks that come out of it.
-/

namespace StrictLambda
namespace Block

open Draft

/-!
## Constructions exist
-/

def Draft.Covers (draft : Draft) (scope : List Nat) : Prop :=
  forall id, id ∈ scope -> exists place, draft.locals.entries.lookup id = some place

namespace Draft.Covers

variable {draft after : Draft} {scope : List Nat}

theorem of_locals_eq (covers : draft.Covers scope) (same : after.locals = draft.locals) :
    after.Covers scope := by
  intro id inside
  rw [same]
  exact covers id inside

theorem after_builds {construction : Construction} (covers : draft.Covers scope)
    (builds : Builds construction draft after) (fits : construction.FitsScope scope) :
    after.Covers scope := by
  intro id inside
  rw [lookup_of_builds builds fits inside]
  exact covers id inside

theorem define (covers : draft.Covers scope) (binding : Binding) (place : Local) :
    (draft.define binding place).Covers (binding.id :: scope) := by
  intro id inside
  by_cases same : id = binding.id
  · rw [same]
    exact ⟨place, List.lookup_cons_self⟩
  · rcases List.mem_cons.mp inside with here | there
    · exact absurd here same
    · rw [Draft.define, lookup_define _ _ same]
      exact covers id there

theorem exists_places (covers : draft.Covers scope) {free : List Binding}
    (visible : forall binding, binding ∈ free -> binding.id ∈ scope) :
    exists places : List (Binding × Local), places.map Prod.fst = free ∧
      forall capture, capture ∈ places -> draft.locals.get? capture.1 = some capture.2 := by
  induction free with
  | nil => exact ⟨[], rfl, fun _ member => nomatch member⟩
  | cons binding rest ih =>
      rcases ih fun other member => visible other (List.mem_cons_of_mem _ member) with
        ⟨places, free, found⟩
      rcases covers binding.id (visible binding List.mem_cons_self) with ⟨place, here⟩
      refine ⟨(binding, place) :: places, congrArg (binding :: ·) free, ?_⟩
      exact List.forall_mem_cons.mpr ⟨here, found⟩

end Draft.Covers

theorem covers_start (count : Nat) (parameter : Binding) (places : List (Binding × Local)) :
    (Draft.start count (.ofFunction parameter places)).Covers
      (parameter.id :: places.map fun place => place.1.id) := by
  intro id inside
  apply exists_lookup_defineCaptures
  rcases List.mem_cons.mp inside with rfl | captured
  · exact .inl ⟨_, List.lookup_cons_self⟩
  · exact .inr captured

/-- Wherever its free variables have locals, the term can be built in both ways. -/
def Buildable (term : Term) : Prop :=
  forall scope draft, term.FitsScope scope -> draft.Covers scope ->
    (exists register after, Builds (.value term register) draft after) ∧
      forall site, exists after, Builds (.tail site term) draft after

theorem exists_builds_values {terms : List Term} {scope : List Nat} {draft : Draft}
    (buildable : forall term, term ∈ terms -> Buildable term)
    (fits : forall term, term ∈ terms -> term.FitsScope scope) (covers : draft.Covers scope) :
    exists registers after, registers.length = terms.length ∧
      Builds (.values terms registers) draft after := by
  induction terms generalizing draft with
  | nil => exact ⟨[], draft, rfl, .none⟩
  | cons term rest ih =>
      rcases List.forall_mem_cons.mp buildable with ⟨buildableFirst, buildableOthers⟩
      rcases List.forall_mem_cons.mp fits with ⟨fitsFirst, fitsOthers⟩
      rcases (buildableFirst scope draft fitsFirst covers).1 with ⟨register, middle, first⟩
      have coversMiddle : middle.Covers scope := covers.after_builds first fitsFirst
      rcases ih buildableOthers fitsOthers coversMiddle with ⟨registers, after, length, others⟩
      exact ⟨register :: registers, after, congrArg (· + 1) length, .more first others⟩

theorem buildable_of_value {term : Term} (needed : forall site : Site, site.needsValue term = true)
    (value : forall scope draft, term.FitsScope scope -> draft.Covers scope ->
      exists register after, Builds (.value term register) draft after) : Buildable term := by
  intro scope draft fits covers
  refine ⟨value scope draft fits covers, ?_⟩
  intro site
  rcases value scope draft fits covers with ⟨register, after, builds⟩
  exact ⟨_, .leave (needed site) builds⟩

theorem exists_builds_of_combines {term : Term} {operands : List Term}
    (buildable : forall operand, operand ∈ operands -> Buildable operand)
    (combines : forall (dest : Register) (registers : List Register),
      registers.length = operands.length -> exists node, Combines term operands dest registers node)
    (scope : List Nat) (draft : Draft) (fits : term.FitsScope scope)
    (covers : draft.Covers scope) :
    exists register after, Builds (.value term register) draft after := by
  have fitsAll : forall operand, operand ∈ operands -> operand.FitsScope scope := by
    rcases combines draft.next (operands.map fun _ => draft.next) (List.length_map _) with
      ⟨node, combined⟩
    exact fitsScope_of_combines combined fits
  rcases exists_builds_values buildable fitsAll covers with ⟨registers, after, length, built⟩
  rcases combines after.next registers length with ⟨node, combined⟩
  exact ⟨_, _, .combine combined built⟩

section Terms

variable {span : Span} {binding : Binding}
  {definition body inner function argument condition consequent alternative : Term}

theorem buildable_var : Buildable (.var span binding) := by
  apply buildable_of_value (fun _ => rfl)
  intro scope draft fits covers
  rcases covers binding.id (fits.visible _ rfl) with ⟨place, found⟩
  exact ⟨_, _, .var found⟩

theorem buildable_abs (buildable : Buildable body) : Buildable (.abs span binding body) := by
  apply buildable_of_value (fun _ => rfl)
  intro scope draft fits covers
  have visible : forall free, free ∈ (Term.abs span binding body).freeVariables ->
      free.id ∈ scope := by
    intro free member
    exact fits.visible _ (Term.mem_freeVariables_iff.mp (List.mem_map_of_mem member))
  rcases covers.exists_places visible with ⟨places, free, found⟩
  have coversBody := covers_start (places.length + 1) binding places
  have ids : (places.map fun place => place.1.id) =
      (Term.abs span binding body).freeVariables.map Binding.id := by
    rw [← free, List.map_map]
    rfl
  rw [ids] at coversBody
  rcases (buildable _ _ fits.abs_body coversBody).2 .functionBody with ⟨inside, built⟩
  exact ⟨_, _, .abs free found built⟩

theorem buildable_app (first : Buildable function) (second : Buildable argument) :
    Buildable (.app span function argument) := by
  have all : forall operand, operand ∈ [function, argument] -> Buildable operand :=
    List.forall_mem_cons.mpr ⟨first, List.forall_mem_singleton.mpr second⟩
  have value : forall scope draft, (Term.app span function argument).FitsScope scope ->
      draft.Covers scope ->
        exists register after,
          Builds (.value (.app span function argument) register) draft after := by
    apply exists_builds_of_combines all
    intro dest registers length
    rcases List.length_eq_two.mp length with ⟨callee, source, rfl⟩
    exact ⟨_, .app⟩
  intro scope draft fits covers
  refine ⟨value scope draft fits covers, ?_⟩
  intro site
  cases site with
  | topLevel =>
      rcases value scope draft fits covers with ⟨register, after, builds⟩
      exact ⟨_, .leave rfl builds⟩
  | functionBody =>
      have fitsAll : forall operand, operand ∈ [function, argument] -> operand.FitsScope scope :=
        List.forall_mem_cons.mpr ⟨fits.app.1, List.forall_mem_singleton.mpr fits.app.2⟩
      rcases exists_builds_values all fitsAll covers with ⟨registers, after, length, built⟩
      rcases List.length_eq_two.mp length with ⟨callee, source, rfl⟩
      exact ⟨_, .tailCall built⟩

theorem buildable_binary {operator : Operator} (first : Buildable function)
    (second : Buildable argument) : Buildable (.binary span operator function argument) := by
  refine buildable_of_value (fun _ => rfl) (exists_builds_of_combines
    (List.forall_mem_cons.mpr ⟨first, List.forall_mem_singleton.mpr second⟩) ?_)
  intro dest registers length
  rcases List.length_eq_two.mp length with ⟨left, right, rfl⟩
  exact ⟨_, .binary⟩

theorem buildable_member {field : Symbol} (buildable : Buildable inner) :
    Buildable (.member span inner field) := by
  refine buildable_of_value (fun _ => rfl) (exists_builds_of_combines
    (List.forall_mem_singleton.mpr buildable) ?_)
  intro dest registers length
  rcases List.length_eq_one_iff.mp length with ⟨source, rfl⟩
  exact ⟨_, .member⟩

theorem buildable_data {tag : Nat} {fields : List Term} (buildable : Buildable inner)
    (all : forall field, field ∈ fields -> Buildable field) :
    Buildable (.data span inner tag fields) := by
  refine buildable_of_value (fun _ => rfl) (exists_builds_of_combines
    (List.forall_mem_cons.mpr ⟨buildable, all⟩) ?_)
  intro dest registers length
  cases registers with
  | nil => cases length
  | cons first others => exact ⟨_, .data⟩

theorem buildable_literal {value : Literal} : Buildable (.literal span value) := by
  refine buildable_of_value (fun _ => rfl) (exists_builds_of_combines (List.forall_mem_nil _) ?_)
  intro dest registers length
  rw [List.length_eq_zero_iff.mp length]
  exact ⟨_, .literal⟩

theorem buildable_dataType {declaration : Declaration} :
    Buildable (.dataType span declaration) := by
  refine buildable_of_value (fun _ => rfl) (exists_builds_of_combines (List.forall_mem_nil _) ?_)
  intro dest registers length
  rw [List.length_eq_zero_iff.mp length]
  exact ⟨_, .dataType⟩

theorem buildable_group (buildable : Buildable inner) : Buildable (.group span inner) := by
  intro scope draft fits covers
  rcases buildable scope draft fits.group covers with ⟨⟨register, after, builds⟩, tail⟩
  refine ⟨⟨register, after, .group builds⟩, ?_⟩
  intro site
  rcases tail site with ⟨last, built⟩
  exact ⟨last, .tailGroup built⟩

theorem exists_builds_bind {scope : List Nat} {draft : Draft} (buildable : Buildable definition)
    (fits : (Construction.bind span binding definition).FitsScope scope)
    (covers : draft.Covers scope) :
    exists after, Builds (.bind span binding definition) draft after ∧
      after.Covers (binding.id :: scope) := by
  cases mentions : definition.mentions binding with
  | false =>
      have fitsPlain : definition.FitsScope scope := fits.2.of_not_mentions mentions
      rcases (buildable scope draft fitsPlain covers).1 with ⟨register, after, builds⟩
      have coversAfter : after.Covers scope := covers.after_builds builds fitsPlain
      exact ⟨_, .bindPlain mentions builds, coversAfter.define binding _⟩
  | true =>
      have coversBegin : (draft.produce (.operation (.beginFixpoint draft.next) span)).Covers
        scope := covers.of_locals_eq rfl
      have coversInside := coversBegin.define binding ⟨draft.next, true⟩
      rcases (buildable _ _ fits.2 coversInside).1 with ⟨register, after, builds⟩
      have coversAfter : after.Covers (binding.id :: scope) :=
        coversInside.after_builds builds fits.2
      refine ⟨_, .bindRecursive mentions builds, ?_⟩
      have coversTied : (after.emit (.operation (.endFixpoint draft.next register)
        definition.span)).Covers scope :=
          fun id inside => coversAfter id (List.mem_cons_of_mem _ inside)
      exact coversTied.define binding _

theorem buildable_letIn (first : Buildable definition) (second : Buildable body) :
    Buildable (.letIn span binding definition body) := by
  intro scope draft fits covers
  rcases fits.letIn with ⟨fresh, fitsDefinition, fitsBody⟩
  rcases exists_builds_bind first ⟨fresh, fitsDefinition⟩ covers with ⟨middle, bound, coversBody⟩
  rcases second _ middle fitsBody coversBody with ⟨⟨register, after, builds⟩, tail⟩
  refine ⟨⟨register, after, .letIn bound builds⟩, ?_⟩
  intro site
  rcases tail site with ⟨last, built⟩
  exact ⟨last, .tailLetIn bound built⟩

theorem buildable_cond (test : Buildable condition) (first : Buildable consequent)
    (second : Buildable alternative) :
    Buildable (.cond span condition consequent alternative) := by
  intro scope draft fits covers
  rcases fits.cond with ⟨fitsCondition, fitsConsequent, fitsAlternative⟩
  rcases (test scope draft fitsCondition covers).1 with ⟨register, tested, tests⟩
  have coversTested : tested.Covers scope := covers.after_builds tests fitsCondition
  constructor
  · have coversFork : (tested.forkValue register span).Covers scope :=
      coversTested.of_locals_eq rfl
    rcases (first scope _ fitsConsequent coversFork).1 with ⟨left, branch, holds⟩
    have coversBranch : branch.Covers scope := coversFork.after_builds holds fitsConsequent
    have coversSwitch : (branch.switchValue tested left consequent.span span).Covers scope :=
      coversBranch.of_locals_eq rfl
    rcases (second scope _ fitsAlternative coversSwitch).1 with ⟨right, last, fails⟩
    exact ⟨_, _, .cond tests holds fails⟩
  · intro site
    have coversFork : (tested.forkTail register span).Covers scope :=
      coversTested.of_locals_eq rfl
    rcases (first scope _ fitsConsequent coversFork).2 site with ⟨branch, holds⟩
    have coversBranch : branch.Covers scope := coversFork.after_builds holds fitsConsequent
    have coversSwitch : (branch.switchTail tested span).Covers scope :=
      coversBranch.of_locals_eq rfl
    rcases (second scope _ fitsAlternative coversSwitch).2 site with ⟨last, fails⟩
    exact ⟨last, .tailCond tests holds fails⟩

end Terms

mutual

theorem buildable : (term : Term) -> Buildable term
  | .var _ _ => buildable_var
  | .abs _ _ body => buildable_abs (buildable body)
  | .app _ function argument => buildable_app (buildable function) (buildable argument)
  | .letIn _ _ definition body => buildable_letIn (buildable definition) (buildable body)
  | .group _ inner => buildable_group (buildable inner)
  | .dataType _ _ => buildable_dataType
  | .data _ type _ fields => buildable_data (buildable type) (buildable_of_mem fields)
  | .member _ value _ => buildable_member (buildable value)
  | .literal _ _ => buildable_literal
  | .binary _ _ lhs rhs => buildable_binary (buildable lhs) (buildable rhs)
  | .cond _ condition consequent alternative =>
      buildable_cond (buildable condition) (buildable consequent) (buildable alternative)

theorem buildable_of_mem : (terms : List Term) -> forall term, term ∈ terms -> Buildable term
  | [] => List.forall_mem_nil _
  | term :: rest => List.forall_mem_cons.mpr ⟨buildable term, buildable_of_mem rest⟩

end

/-!
## Built blocks are acceptable
-/

def Construction.leaves : Construction -> Bool
  | .tail _ _ => true
  | _ => false

theorem isTerminator_of_builds {construction : Construction} {draft after : Draft}
    (builds : Builds construction draft after) (leaves : construction.leaves = true) :
    after.nodes.toList.getLast?.any Node.isTerminator = true := by
  induction builds with
  | @leave draft after site term register =>
      cases site <;> simp [Node.isTerminator, Site.leave, Operation.isTerminator]
  | tailCall => simp [Node.isTerminator, Operation.isTerminator]
  | tailLetIn _ _ _ ih => exact ih rfl
  | tailGroup _ ih => exact ih rfl
  | tailCond _ _ _ _ _ ih => exact ih rfl
  | none | more | var | abs | combine | letIn | group | cond | bindPlain | bindRecursive =>
      cases leaves

theorem fitsInto_of_combines {term : Term} {operands : List Term} {dest : Register}
    {registers : List Register} {node : Node} {nodes : List Node}
    (combines : Combines term operands dest registers node) : FitsInto nodes node := by
  cases combines <;> exact trivial

theorem fitsInto_readNode {nodes : List Node} (span : Span) (dest : Register) (place : Local) :
    FitsInto nodes (readNode span dest place) := by
  unfold readNode
  split <;> exact trivial

theorem mem_emit (draft : Draft) (node : Node) : node ∈ (draft.emit node).nodes.toList := by
  rw [nodes_emit]
  exact List.mem_append_right _ List.mem_cons_self

theorem addsOnly_fitsInto {construction : Construction} {draft after : Draft}
    (builds : Builds construction draft after) {nodes : List Node}
    (built : after.nodes.toList <+: nodes) : draft.AddsOnly (FitsInto nodes) after := by
  induction builds generalizing nodes with
  | none => exact .refl _
  | more _ others ihFirst ihOthers =>
      exact (ihFirst ((grows_of_builds others).nodes.trans built)).trans (ihOthers built)
  | var => exact .produce (fitsInto_readNode _ _ _)
  | @abs draft inner span parameter body captures free found builds ih =>
      have inside : Acceptable (.mk (captures.length + 1) inner.nodes.toList span) :=
        acceptable_of_fitsInto (isTerminator_of_builds builds rfl)
          fun _ member => (ih (List.prefix_refl _)).of_mem member
      refine .produce ⟨?_, inside⟩
      rw [List.length_map]
      rfl
  | combine combines _ ih =>
      exact (ih ((grows_produce _ _).nodes.trans built)).trans
        (.produce (fitsInto_of_combines combines))
  | letIn _ builds ihBound ih | tailLetIn _ builds ihBound ih =>
      exact (ihBound ((grows_of_builds builds).nodes.trans built)).trans (ih built)
  | group _ ih | tailGroup _ ih => exact ih built
  | bindPlain _ _ ih => exact ih built
  | @bindRecursive draft after span binding definition register _ _ ih =>
      have begins : draft.AddsOnly (FitsInto nodes)
          (draft.produce (.operation (.beginFixpoint draft.next) span)) := .produce trivial
      have ends : after.AddsOnly (FitsInto nodes)
          (after.emit (.operation (.endFixpoint draft.next register) definition.span)) :=
        .emit trivial
      exact begins.trans (AddsOnly.trans (ih ((grows_emit _ _).nodes.trans built)) ends)
  | leave _ _ ih | tailCall _ ih =>
      exact (ih ((grows_emit _ _).nodes.trans built)).trans (.emit trivial)
  | @cond draft tested first second span condition consequent alternative test left right
      tests holds fails ihTests ihHolds ihFails =>
      -- Both labels of the conditional stand in the block, each behind the jump to it.
      have builtSecond := (grows_joinValue _ _ _ _ _).nodes.trans built
      have builtSwitch := (grows_of_builds fails).nodes.trans builtSecond
      have builtFirst := (grows_switchValue _ _ _ _ _).nodes.trans builtSwitch
      have builtFork := (grows_of_builds holds).nodes.trans builtFirst
      have otherwise : Node.label tested.label span ∈ nodes := builtSwitch.subset (mem_emit _ _)
      have done : Node.label tested.secondLabel span ∈ nodes := built.subset (mem_emit _ _)
      exact .cond (ihTests ((grows_forkValue _ _ _).nodes.trans builtFork)) (ihHolds builtFirst)
        (ihFails builtSecond) trivial trivial ⟨span, done⟩ ⟨span, otherwise⟩ (fun _ _ => trivial)
  | @tailCond draft tested first second site span condition consequent alternative test tests
      holds fails ihTests ihHolds ihFails =>
      have builtSwitch := (grows_of_builds fails).nodes.trans built
      have builtFirst := (grows_switchTail _ _ _).nodes.trans builtSwitch
      have builtFork := (grows_of_builds holds).nodes.trans builtFirst
      have otherwise : Node.label tested.label span ∈ nodes := builtSwitch.subset (mem_emit _ _)
      exact .tailCond (ihTests ((grows_forkTail _ _ _).nodes.trans builtFork)) (ihHolds builtFirst)
        (ihFails built) ⟨span, otherwise⟩ (fun _ _ => trivial)

theorem acceptable_of_builds {site : Site} {term : Term} {parameters : Nat} {locals : Locals}
    {after : Draft} (builds : Builds (.tail site term) (.start parameters locals) after)
    (span : Span) : Acceptable (.mk parameters after.nodes.toList span) := by
  apply acceptable_of_fitsInto (isTerminator_of_builds builds rfl)
  exact fun _ member => (addsOnly_fitsInto builds (List.prefix_refl _)).of_mem member

end Block
end StrictLambda
