import StrictLambda.Proofs.Builder.Completeness
import StrictLambda.Proofs.Layout.Spans
import StrictLambda.Proofs.Term.Renaming

/-!
# Building changed terms

The instructions of a block say neither how bindings are numbered nor what variables are called.  So
two terms of the same structure are built into the same instructions, each with the span of its own
term, or are rejected at the same occurrence.
-/

namespace StrictLambda

variable {change : Change} {names : Symbol -> Symbol}

/-!
## Locals
-/

namespace Locals

def renumber (change : Change) (locals : Locals) : Locals :=
  { entries := locals.entries.map (Prod.map change.ids id) }

theorem get?_renumber (locals : Locals) (binding : Binding) :
    (locals.renumber change).get? (change.binding names binding) = locals.get? binding := by
  rcases locals with ⟨entries⟩
  unfold get? renumber
  induction entries with
  | nil => rfl
  | cons entry rest ih =>
      have same : (change.ids binding.id == change.ids entry.1) = (binding.id == entry.1) :=
        change.injective.beq_eq
      dsimp only [Change.binding] at ih ⊢
      rw [List.map_cons, Prod.map, List.lookup_cons, List.lookup_cons, same, ih]
      rfl

theorem renumber_defineCaptures (captures : List (Binding × Local)) (locals : Locals)
    (index : Nat) :
    (locals.defineCaptures index captures).renumber change =
      (locals.renumber change).defineCaptures index
        (captures.map (Prod.map (change.binding names) id)) := by
  induction captures generalizing locals index with
  | nil => rfl
  | cons capture rest ih => exact ih _ _

theorem renumber_ofFunction (parameter : Binding) (name : Symbol)
    (captures : List (Binding × Local)) :
    (ofFunction parameter captures).renumber change =
      ofFunction ⟨name, change.ids parameter.id⟩
        (captures.map (Prod.map (change.binding names) id)) :=
  renumber_defineCaptures captures _ 1

end Locals

namespace Block

open Building

/-!
## Drafts
-/

namespace Draft

def recast (change : Change) (draft : Draft) : Draft :=
  { draft with
    locals := draft.locals.renumber change
    nodes := draft.nodes.map (Node.mapSpans change.spans) }

theorem nodes_recast (draft : Draft) :
    (draft.recast change).nodes.toList = mapSpansAll change.spans draft.nodes.toList := by
  rw [mapSpansAll_eq_map]
  exact Array.toList_map

theorem recast_start (parameters : Nat) (locals : Locals) :
    (Draft.start parameters locals).recast change =
      .start parameters (locals.renumber change) := by
  simp only [start, recast, List.map_toArray, List.map_nil]

variable (draft : Draft)

theorem next_recast (change : Change) : (draft.recast change).next = draft.next :=
  rfl

theorem recast_emit (node : Node) :
    (draft.emit node).recast change = (draft.recast change).emit (node.mapSpans change.spans) := by
  simp only [emit, recast, Array.map_push]

theorem recast_produce (node : Node) :
    (draft.produce node).recast change =
      (draft.recast change).produce (node.mapSpans change.spans) := by
  simp only [produce, recast, Array.map_push]

theorem recast_define (binding : Binding) (name : Symbol) (place : Local) :
    (draft.define binding place).recast change =
      (draft.recast change).define ⟨name, change.ids binding.id⟩ place :=
  rfl

theorem recast_forkValue (test : Register) (span : Span) :
    (draft.forkValue test span).recast change =
      (draft.recast change).forkValue test (change.spans span) :=
  recast_emit _ _

theorem recast_switchValue (tested : Draft) (source : Register) (copySpan span : Span) :
    (draft.switchValue tested source copySpan span).recast change =
      (draft.recast change).switchValue (tested.recast change) source (change.spans copySpan)
        (change.spans span) := by
  unfold switchValue
  rw [recast_emit, recast_emit, recast_emit]
  rfl

theorem recast_joinValue (tested : Draft) (source : Register) (copySpan span : Span) :
    (draft.joinValue tested source copySpan span).recast change =
      (draft.recast change).joinValue (tested.recast change) source (change.spans copySpan)
        (change.spans span) := by
  unfold joinValue
  rw [recast_emit, recast_emit]
  rfl

theorem recast_forkTail (test : Register) (span : Span) :
    (draft.forkTail test span).recast change =
      (draft.recast change).forkTail test (change.spans span) :=
  recast_emit _ _

theorem recast_switchTail (tested : Draft) (span : Span) :
    (draft.switchTail tested span).recast change =
      (draft.recast change).switchTail (tested.recast change) (change.spans span) :=
  recast_emit _ _

end Draft

theorem readNode_mapSpans (spans : Span -> Span) (span : Span) (dest : Register)
    (place : Local) :
    (readNode span dest place).mapSpans spans = readNode (spans span) dest place := by
  unfold readNode
  split <;> rfl

/-!
## Constructions
-/

inductive Construction.Becomes (change : Change) (names : Symbol -> Symbol) :
    Construction -> Construction -> Prop where
  | value {term other : Term} {register : Register}
      (becomes : term.Becomes change (Term.RenamedBy names) other) :
      Becomes change names (.value term register) (.value other register)
  | values {terms others : List Term} {registers : List Register}
      (become : Term.BecomeAll change (Term.RenamedBy names) terms others) :
      Becomes change names (.values terms registers) (.values others registers)
  | bind {span : Span} {binding : Binding} {name : Symbol} {definition other : Term}
      (becomes : definition.Becomes change (Term.RenamedBy names) other) :
      Becomes change names (.bind span binding definition)
        (.bind (change.spans span) ⟨name, change.ids binding.id⟩ other)
  | tail {site : Site} {term other : Term}
      (becomes : term.Becomes change (Term.RenamedBy names) other) :
      Becomes change names (.tail site term) (.tail site other)

theorem needsValue_of_becomes {term other : Term} {renames : Symbol -> Symbol -> Prop}
    (becomes : term.Becomes change renames other) (site : Site) :
    site.needsValue other = site.needsValue term := by
  cases becomes <;> rfl

theorem exists_combines_of_becomes {term other : Term} {operands : List Term} {dest : Register}
    {registers : List Register} {node : Node} {renames : Symbol -> Symbol -> Prop}
    (combines : Combines term operands dest registers node)
    (becomes : term.Becomes change renames other) :
    exists others, Term.BecomeAll change renames operands others ∧
      Combines other others dest registers (node.mapSpans change.spans) := by
  cases combines with
  | app =>
      cases becomes with
      | app first second => exact ⟨_, .cons first (.cons second .nil), .app⟩
  | dataType =>
      cases becomes with
      | dataType => exact ⟨_, .nil, .dataType⟩
  | data =>
      cases becomes with
      | data first others => exact ⟨_, .cons first others, .data⟩
  | member =>
      cases becomes with
      | member inside => exact ⟨_, .cons inside .nil, .member⟩
  | literal =>
      cases becomes with
      | literal => exact ⟨_, .nil, .literal⟩
  | binary =>
      cases becomes with
      | binary first second => exact ⟨_, .cons first (.cons second .nil), .binary⟩

theorem builds_abs_of_becomes {draft inner : Draft} {span : Span} {parameter : Binding}
    {name : Symbol} {body newBody : Term} {captures : List (Binding × Local)}
    (free : captures.map Prod.fst = (Term.abs span parameter body).freeVariables)
    (found : forall capture, capture ∈ captures ->
      draft.locals.get? capture.1 = some capture.2)
    (inside : body.Becomes change (Term.RenamedBy names) newBody)
    (built : Builds (.tail .functionBody newBody)
      ((Draft.start (captures.length + 1) (.ofFunction parameter captures)).recast change)
      (inner.recast change)) :
    Builds (.value (.abs (change.spans span) ⟨name, change.ids parameter.id⟩ newBody) draft.next)
      (draft.recast change)
      ((draft.produce
        (.function draft.next (.mk (captures.length + 1) inner.nodes.toList span)
          (captures.map fun capture => capture.2.register) span)).recast change) := by
  have newFree : (captures.map (Prod.map (change.binding names) id)).map Prod.fst =
      (Term.abs (change.spans span) ⟨name, change.ids parameter.id⟩ newBody).freeVariables := by
    rw [(Term.Becomes.abs inside).freeVariables_eq, ← free, List.map_map, List.map_map]
    rfl
  have newFound : forall capture, capture ∈ captures.map (Prod.map (change.binding names) id) ->
      (draft.recast change).locals.get? capture.1 = some capture.2 := by
    intro capture member
    rcases List.mem_map.mp member with ⟨old, stands, rfl⟩
    exact (Locals.get?_renumber draft.locals old.1).trans (found old stands)
  rw [Draft.recast_start, Locals.renumber_ofFunction parameter name] at built
  have length : (captures.map (Prod.map (change.binding names) id)).length = captures.length :=
    List.length_map _
  rw [← length] at built
  have made := Builds.abs newFree newFound built
  rw [length, Draft.nodes_recast, List.map_map] at made
  rw [Draft.recast_produce]
  exact made

theorem builds_of_becomes {construction other : Construction} {draft after : Draft}
    (builds : Builds construction draft after) (becomes : construction.Becomes change names other) :
    Builds other (draft.recast change) (after.recast change) := by
  induction builds generalizing other with
  | none =>
      cases becomes with
      | values become =>
          cases become
          exact .none
  | more _ _ ihFirst ihOthers =>
      cases becomes with
      | values become =>
          cases become with
          | cons first others => exact .more (ihFirst (.value first)) (ihOthers (.values others))
  | @var draft span binding place found =>
      cases becomes with
      | value becomes =>
          cases becomes with
          | var renamed =>
              subst renamed
              rw [Draft.recast_produce, readNode_mapSpans, ← draft.next_recast change]
              exact .var ((Locals.get?_renumber draft.locals binding).trans found)
  | @abs draft inner span parameter body captures free found _ ih =>
      cases becomes with
      | value becomes =>
          cases becomes with
          | abs inside => exact builds_abs_of_becomes free found inside (ih (.tail inside))
  | @combine draft after term operands registers node combines _ ih =>
      cases becomes with
      | value becomes =>
          rcases exists_combines_of_becomes combines becomes with ⟨others, become, combined⟩
          rw [← after.next_recast change] at combined ⊢
          rw [Draft.recast_produce]
          exact .combine combined (ih (.values become))
  | letIn _ _ ihBound ih =>
      cases becomes with
      | value becomes =>
          cases becomes with
          | letIn bound inside => exact .letIn (ihBound (.bind bound)) (ih (.value inside))
  | group _ ih =>
      cases becomes with
      | value becomes =>
          cases becomes with
          | group inside => exact .group (ih (.value inside))
  | @cond draft tested first second span _ _ _ _ _ _ _ _ _ ihTests ihHolds ihFails =>
      cases becomes with
      | value becomes =>
          cases becomes with
          | cond tests holds fails =>
              have first := ihHolds (.value holds)
              have second := ihFails (.value fails)
              rw [Draft.recast_forkValue] at first
              rw [Draft.recast_switchValue, ← holds.span_eq] at second
              rw [Draft.recast_joinValue, ← fails.span_eq, ← tested.next_recast change]
              exact .cond (ihTests (.value tests)) first second
  | bindPlain plain _ ih =>
      cases becomes with
      | bind becomes =>
          rw [Draft.recast_define]
          exact .bindPlain ((becomes.mentions_eq _ _).trans plain) (ih (.value becomes))
  | @bindRecursive draft after span binding definition register recursive _ ih =>
      cases becomes with
      | @bind _ _ name _ _ becomes =>
          have built := ih (.value becomes)
          rw [Draft.recast_define _ _ name, Draft.recast_produce,
            ← draft.next_recast change] at built
          rw [Draft.recast_define _ _ name, Draft.recast_emit, ← draft.next_recast change]
          have recursive := (becomes.mentions_eq binding name).trans recursive
          have bound := Builds.bindRecursive recursive built
          rw [becomes.span_eq] at bound
          exact bound
  | leave needed _ ih =>
      cases becomes with
      | tail becomes =>
          have built := ih (.value becomes)
          have left := Builds.leave ((needsValue_of_becomes becomes _).trans needed) built
          rw [becomes.span_eq] at left
          rw [Draft.recast_emit]
          exact left
  | tailCall _ ih =>
      cases becomes with
      | tail becomes =>
          cases becomes with
          | app first second =>
              rw [Draft.recast_emit]
              exact .tailCall (ih (.values (.cons first (.cons second .nil))))
  | tailLetIn _ _ ihBound ih =>
      cases becomes with
      | tail becomes =>
          cases becomes with
          | letIn bound inside => exact .tailLetIn (ihBound (.bind bound)) (ih (.tail inside))
  | tailGroup _ ih =>
      cases becomes with
      | tail becomes =>
          cases becomes with
          | group inside => exact .tailGroup (ih (.tail inside))
  | tailCond _ _ _ ihTests ihHolds ihFails =>
      cases becomes with
      | tail becomes =>
          cases becomes with
          | cond tests holds fails =>
              have first := ihHolds (.tail holds)
              have second := ihFails (.tail fails)
              rw [Draft.recast_forkTail] at first
              rw [Draft.recast_switchTail] at second
              exact .tailCond (ihTests (.value tests)) first second

/-!
## Blocks
-/

theorem ofTerm_of_becomes {term other : Term}
    (becomes : term.Becomes change (Term.RenamedBy names) other) :
    ofTerm other =
      ((ofTerm term).mapError (Failure.recast names change.spans)).map
        (Block.mapSpans change.spans) := by
  cases outcome : ofTerm term with
  | ok block =>
      rcases of_close outcome with ⟨inner, ran, rfl⟩
      have built := planned_of_builds (builds_of_becomes ((ruled term).tail ran) (.tail becomes))
      rw [Draft.recast_start] at built
      have closed : ofTerm other = .ok (.mk 0 (inner.recast change).nodes.toList other.span) :=
        close_eq built
      rw [closed, Draft.nodes_recast, becomes.span_eq]
      rfl
  | error failure =>
      have rejected := (ofTerm_eq_error_iff term failure).mp outcome
      have resolved := Term.resolve_of_becomes term [] becomes
      rw [rejected] at resolved
      exact (ofTerm_eq_error_iff other _).mpr resolved

end Block

/-!
## Programs
-/

namespace Program

theorem ofTerm_of_becomes {term other : Term}
    (becomes : term.Becomes change (Term.RenamedBy names) other) :
    ofTerm other =
      ((ofTerm term).mapError (Failure.recast names change.spans)).map
        (Program.mapSpans change.spans) := by
  unfold ofTerm
  rw [mapError_bind]
  exact bind_eq_map (Block.ofTerm_of_becomes becomes) fun block => ofBlock_mapSpans names block

/-- The term is rejected for its occurrence with this number, and this span is to blame. -/
def Rejects (term : Term) (number : Nat) (blame : Span) : Prop :=
  exists binding, term.occurrences[number]? = some binding ∧
    ofTerm term = .error (.defect (.unboundVariable binding.name) (some blame))

theorem rejects_of_nameAt {term : Term} {number : Symbol} {blame : Span}
    (rejected : forall default, ofTerm term =
      .error (.defect (.unboundVariable (term.nameAt default number)) (some blame))) :
    Rejects term number.index blame := by
  unfold Term.nameAt at rejected
  cases found : term.occurrences[number.index]? with
  | some binding =>
      rw [found] at rejected
      exact ⟨binding, found, rejected ⟨0⟩⟩
  | none =>
      -- Otherwise the name would be the default, whatever that is.
      rw [found] at rejected
      cases (rejected ⟨0⟩).symm.trans (rejected ⟨1⟩)

/-- Compilation sees nothing of a term but its structure.  All terms of the same structure become
the same program, each with its own spans, or all of them are rejected for the same occurrence. -/
theorem ofTerm_sees_only_structure (term : Term) :
    (exists program, ofTerm term = .ok program ∧
      forall change other, term.SharesStructure change other ->
        ofTerm other = .ok (program.mapSpans change.spans)) ∨
    (exists number blame, Rejects term number blame ∧
      forall change other, term.SharesStructure change other ->
        Rejects other number (change.spans blame)) := by
  -- All of these terms come from one, in which the occurrences have their numbers for names.
  have general : forall change other, term.SharesStructure change other ->
      forall default : Symbol, ofTerm other =
        ((ofTerm (term.enumerate 0)).mapError
          (Failure.recast (other.nameAt default) change.spans)).map
            (Program.mapSpans change.spans) :=
    fun change other shares default =>
      ofTerm_of_becomes (Term.becomes_enumerate term shares (Term.namedBy_nameAt default other))
  have own := Term.becomes_same term
  cases outcome : ofTerm (term.enumerate 0) with
  | ok program =>
      rw [outcome] at general
      refine .inl ⟨program, ?_, fun change other shares => general change other shares ⟨0⟩⟩
      exact (general .same term own ⟨0⟩).trans (congrArg Except.ok program.mapSpans_id)
  | error failure =>
      rcases exists_unbound_of_ofTerm outcome with ⟨number, blame, rfl⟩
      rw [outcome] at general
      exact .inr ⟨number.index, blame, rejects_of_nameAt (general .same term own),
        fun change other shares => rejects_of_nameAt (general change other shares)⟩

/-- A function that reads the same variable twice, by two names, and has no binding for it. -/
def openFunction : Term :=
  .abs ⟨⟨0⟩, 0, 9⟩ ⟨⟨1⟩, 0⟩
    (.binary ⟨⟨0⟩, 4, 9⟩ .add (.var ⟨⟨0⟩, 4, 5⟩ ⟨⟨2⟩, 7⟩) (.var ⟨⟨0⟩, 8, 9⟩ ⟨⟨3⟩, 7⟩))

def movedFunction : Term :=
  .abs ⟨⟨1⟩, 0, 9⟩ ⟨⟨4⟩, 1⟩
    (.binary ⟨⟨1⟩, 4, 9⟩ .add (.var ⟨⟨1⟩, 4, 5⟩ ⟨⟨5⟩, 8⟩) (.var ⟨⟨1⟩, 8, 9⟩ ⟨⟨6⟩, 8⟩))

def moving : Change where
  ids := Nat.succ
  injective := fun _ _ => Nat.succ.inj
  spans := fun span => { span with source := ⟨1⟩ }

theorem ofTerm_sees_only_structure_of_openFunction :
    openFunction.SharesStructure moving movedFunction ∧
      exists number blame, Rejects openFunction number blame ∧
        Rejects movedFunction number (moving.spans blame) := by
  have shares : openFunction.SharesStructure moving movedFunction :=
    .abs (.binary (.var trivial) (.var trivial))
  rcases ofTerm_sees_only_structure openFunction with
    ⟨program, accepted, _⟩ | ⟨number, blame, rejected, follows⟩
  · cases accepted
  · exact ⟨shares, number, blame, rejected, follows moving movedFunction shares⟩

end Program
end StrictLambda
