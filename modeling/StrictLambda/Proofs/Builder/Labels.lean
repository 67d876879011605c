import StrictLambda.Proofs.Builder.Shape

/-!
# Labels and locals of constructed blocks

A construction places each of its labels once, so a jump has one place to go to.  Of the locals it
finds it leaves those alone whose bindings are in scope.
-/

namespace StrictLambda
namespace Block

open Draft

/-!
## Labels
-/

def occurrences (label : Label) (nodes : List Node) : Nat :=
  nodes.countP (Node.marks label)

@[simp] theorem occurrences_nil (label : Label) : occurrences label [] = 0 := rfl

@[simp] theorem occurrences_append (label : Label) (first second : List Node) :
    occurrences label (first ++ second) = occurrences label first + occurrences label second :=
  List.countP_append

@[simp] theorem occurrences_cons (label : Label) (node : Node) (rest : List Node) :
    occurrences label (node :: rest) =
      occurrences label rest + if node.marks label then 1 else 0 :=
  List.countP_cons

def within (first second number : Nat) : Nat :=
  if first <= number ∧ number < second then 1 else 0

theorem within_add {first middle last : Nat} (early : first <= middle) (late : middle <= last)
    (number : Nat) : within first middle number + within middle last number =
      within first last number := by
  unfold within
  split <;> split <;> split <;> omega

theorem within_succ (first number : Nat) :
    within first (first + 1) number = if first = number then 1 else 0 := by
  unfold within
  split <;> split <;> omega

theorem marks_eq_false_of_combines {term : Term} {operands : List Term} {dest : Register}
    {registers : List Register} {node : Node} (label : Label)
    (combines : Combines term operands dest registers node) : node.marks label = false := by
  cases combines <;> rfl

theorem marks_readNode (label : Label) (span : Span) (dest : Register) (place : Local) :
    (readNode span dest place).marks label = false := by
  unfold readNode
  split <;> rfl

theorem marks_label (label : Label) (number : Nat) (span : Span) :
    (if (Node.label ⟨number⟩ span).marks label then 1 else 0) =
      within number (number + 1) label.number := by
  rw [within_succ]
  cases label
  simp [Node.marks]

theorem occurrences_forkValue (label : Label) (draft : Draft) (test : Register) (span : Span) :
    occurrences label (draft.forkValue test span).nodes.toList =
      occurrences label draft.nodes.toList := by
  simp [Node.marks]

theorem occurrences_switchValue (label : Label) (draft tested : Draft) (source : Register)
    (copySpan span : Span) :
    occurrences label (draft.switchValue tested source copySpan span).nodes.toList =
      occurrences label draft.nodes.toList +
        within tested.nextLabel (tested.nextLabel + 1) label.number := by
  rw [← marks_label label tested.nextLabel span]
  simp [Node.marks, Draft.label]

theorem occurrences_joinValue (label : Label) (draft tested : Draft) (source : Register)
    (copySpan span : Span) :
    occurrences label (draft.joinValue tested source copySpan span).nodes.toList =
      occurrences label draft.nodes.toList +
        within (tested.nextLabel + 1) (tested.nextLabel + 2) label.number := by
  rw [← marks_label label (tested.nextLabel + 1) span]
  simp [Node.marks, secondLabel]

theorem occurrences_forkTail (label : Label) (draft : Draft) (test : Register) (span : Span) :
    occurrences label (draft.forkTail test span).nodes.toList =
      occurrences label draft.nodes.toList := by
  simp [Node.marks]

theorem occurrences_switchTail (label : Label) (draft tested : Draft) (span : Span) :
    occurrences label (draft.switchTail tested span).nodes.toList =
      occurrences label draft.nodes.toList +
        within tested.nextLabel (tested.nextLabel + 1) label.number := by
  rw [← marks_label label tested.nextLabel span]
  simp [Node.marks, Draft.label]

theorem occurrences_le_of_builds {construction : Construction} {draft after : Draft}
    (builds : Builds construction draft after) (label : Label) :
    occurrences label after.nodes.toList <= occurrences label draft.nodes.toList +
      within draft.nextLabel after.nextLabel label.number := by
  induction builds with
  | none => exact Nat.le_add_right _ _
  | more first others ihFirst ihOthers =>
      have sum := within_add (grows_of_builds first).labels (grows_of_builds others).labels
        label.number
      omega
  | var => simp [marks_readNode]
  | abs => simp [Node.marks]
  | combine combines _ ih =>
      simpa [marks_eq_false_of_combines label combines, produce] using ih
  | letIn bound built ihBound ih | tailLetIn bound built ihBound ih =>
      have sum := within_add (grows_of_builds bound).labels (grows_of_builds built).labels
        label.number
      omega
  | group _ ih | tailGroup _ ih => exact ih
  | @cond draft tested first second span condition consequent alternative test left right
      tests holds fails ihTests ihHolds ihFails =>
      have early := (grows_of_builds tests).labels
      have middle : tested.nextLabel + 2 <= first.nextLabel := (grows_of_builds holds).labels
      have late : first.nextLabel <= second.nextLabel := (grows_of_builds fails).labels
      rw [occurrences_forkValue] at ihHolds
      rw [occurrences_switchValue] at ihFails
      rw [occurrences_joinValue]
      have whole : within draft.nextLabel tested.nextLabel label.number +
          within tested.nextLabel second.nextLabel label.number =
            within draft.nextLabel second.nextLabel label.number :=
        within_add early (by omega) _
      have afterTest : within tested.nextLabel (tested.nextLabel + 1) label.number +
          within (tested.nextLabel + 1) second.nextLabel label.number =
            within tested.nextLabel second.nextLabel label.number :=
        within_add (by omega) (by omega) _
      have afterOtherwise : within (tested.nextLabel + 1) (tested.nextLabel + 2) label.number +
          within (tested.nextLabel + 2) second.nextLabel label.number =
            within (tested.nextLabel + 1) second.nextLabel label.number :=
        within_add (by omega) (by omega) _
      have branches := within_add middle late label.number
      simp only [forkValue, switchValue, joinValue, emit, reserve, skipLabels]
        at ihHolds ihFails ⊢
      omega
  | bindPlain _ _ ih => exact ih
  | bindRecursive _ _ ih =>
      simpa [Node.marks, define, emit, produce] using ih
  | leave _ _ ih => simpa [Node.marks, emit] using ih
  | tailCall _ ih => simpa [Node.marks, emit] using ih
  | @tailCond draft tested first second site span condition consequent alternative test
      tests holds fails ihTests ihHolds ihFails =>
      have early := (grows_of_builds tests).labels
      have middle : tested.nextLabel + 1 <= first.nextLabel := (grows_of_builds holds).labels
      have late : first.nextLabel <= second.nextLabel := (grows_of_builds fails).labels
      rw [occurrences_forkTail] at ihHolds
      rw [occurrences_switchTail] at ihFails
      have whole : within draft.nextLabel tested.nextLabel label.number +
          within tested.nextLabel second.nextLabel label.number =
            within draft.nextLabel second.nextLabel label.number :=
        within_add early (by omega) _
      have afterTest : within tested.nextLabel (tested.nextLabel + 1) label.number +
          within (tested.nextLabel + 1) second.nextLabel label.number =
            within tested.nextLabel second.nextLabel label.number :=
        within_add (by omega) (by omega) _
      have branches := within_add middle late label.number
      simp only [forkTail, switchTail, emit, skipLabels] at ihHolds ihFails ⊢
      omega

theorem occurrences_le_one {construction : Construction} {parameters : Nat} {locals : Locals}
    {after : Draft} (builds : Builds construction (.start parameters locals) after)
    (label : Label) : occurrences label after.nodes.toList <= 1 := by
  have bound := occurrences_le_of_builds builds label
  rw [nodes_start, occurrences_nil, Nat.zero_add] at bound
  apply Nat.le_trans bound
  unfold within
  split <;> decide

theorem labelPosition?_eq_none {label : Label} {nodes : List Node}
    (nowhere : occurrences label nodes = 0) : labelPosition? label nodes = none := by
  induction nodes with
  | nil => rfl
  | cons node rest ih =>
      rw [occurrences_cons, Nat.add_eq_zero_iff] at nowhere
      rw [labelPosition?, ih nowhere.1]
      cases marked : node.marks label with
      | false => rfl
      | true => simp [marked] at nowhere

theorem labelPosition?_eq_of_le_one {label : Label} {span : Span} {nodes : List Node}
    (once : occurrences label nodes <= 1) {position : Nat}
    (found : nodes[position]? = some (.label label span)) :
    labelPosition? label nodes = some position := by
  induction nodes generalizing position with
  | nil => cases found
  | cons node rest ih =>
      rw [occurrences_cons] at once
      cases position with
      | zero =>
          cases found
          simp only [Node.marks, decide_true, if_true] at once
          rw [labelPosition?, labelPosition?_eq_none (by omega)]
          simp [Node.marks]
      | succ position =>
          rw [labelPosition?, ih (by omega) found]

/-!
## Locals
-/

def Construction.FitsScope (scope : List Nat) : Construction -> Prop
  | .value term _ => term.FitsScope scope
  | .values terms _ => forall term, term ∈ terms -> term.FitsScope scope
  | .bind _ binding definition =>
      binding.id ∉ scope ∧ definition.FitsScope (binding.id :: scope)
  | .tail _ term => term.FitsScope scope

theorem fitsScope_of_combines {term : Term} {operands : List Term} {dest : Register}
    {registers : List Register} {node : Node}
    (combines : Combines term operands dest registers node) {scope : List Nat}
    (fits : term.FitsScope scope) : forall operand, operand ∈ operands ->
      operand.FitsScope scope := by
  cases combines with
  | app =>
      exact List.forall_mem_cons.mpr ⟨fits.app.1, List.forall_mem_singleton.mpr fits.app.2⟩
  | binary =>
      exact List.forall_mem_cons.mpr ⟨fits.binary.1, List.forall_mem_singleton.mpr fits.binary.2⟩
  | dataType | literal => exact List.forall_mem_nil _
  | data => exact List.forall_mem_cons.mpr fits.data
  | member => exact List.forall_mem_singleton.mpr fits.member

theorem lookup_define (locals : Locals) {binding : Binding} (place : Local) {id : Nat}
    (other : id ≠ binding.id) :
    (locals.define binding place).entries.lookup id = locals.entries.lookup id := by
  unfold Locals.define
  rw [List.lookup_cons, beq_eq_false_iff_ne.mpr other]

theorem of_lookup_define {locals : Locals} {binding : Binding} {place own : Local} {id : Nat}
    (found : (locals.define binding place).entries.lookup id = some own) :
    (id = binding.id ∧ own = place) ∨
      (id ≠ binding.id ∧ locals.entries.lookup id = some own) := by
  by_cases same : id = binding.id
  · unfold Locals.define at found
    rw [same, List.lookup_cons_self] at found
    cases found
    exact .inl ⟨same, rfl⟩
  · rw [lookup_define locals place same] at found
    exact .inr ⟨same, found⟩

theorem lookup_of_builds {construction : Construction} {draft after : Draft}
    (builds : Builds construction draft after) {scope : List Nat}
    (fits : construction.FitsScope scope) {id : Nat} (inside : id ∈ scope) :
    after.locals.entries.lookup id = draft.locals.entries.lookup id := by
  induction builds generalizing scope with
  | none => rfl
  | more _ _ ihFirst ihOthers =>
      rw [ihOthers (fun term member => fits term (List.mem_cons_of_mem _ member)) inside]
      exact ihFirst (fits _ List.mem_cons_self) inside
  | var => rfl
  | abs => rfl
  | combine combines _ ih => exact ih (fitsScope_of_combines combines fits) inside
  | letIn _ _ ihBound ih | tailLetIn _ _ ihBound ih =>
      rcases Term.FitsScope.letIn fits with ⟨fresh, definition, body⟩
      rw [ih body (List.mem_cons_of_mem _ inside)]
      exact ihBound ⟨fresh, definition⟩ inside
  | group _ ih | tailGroup _ ih => exact ih (Term.FitsScope.group fits) inside
  | cond _ _ _ ihTests ihHolds ihFails | tailCond _ _ _ ihTests ihHolds ihFails =>
      rcases Term.FitsScope.cond fits with ⟨condition, consequent, alternative⟩
      exact (ihFails alternative inside).trans
        ((ihHolds consequent inside).trans (ihTests condition inside))
  | bindPlain plain _ ih =>
      rw [← ih (fits.2.of_not_mentions plain) inside]
      exact lookup_define _ _ (ne_of_mem_of_not_mem inside fits.1)
  | bindRecursive recursive _ ih =>
      have other := ne_of_mem_of_not_mem inside fits.1
      have kept := ih fits.2 (List.mem_cons_of_mem _ inside)
      exact (lookup_define _ _ other).trans (kept.trans (lookup_define _ _ other))
  | leave _ _ ih => exact ih fits inside
  | tailCall _ ih =>
      rcases Term.FitsScope.app fits with ⟨function, argument⟩
      exact ih (List.forall_mem_cons.mpr ⟨function, List.forall_mem_singleton.mpr argument⟩) inside

/-!
## Locals of functions
-/

section Captures

variable {locals : Locals} {index : Nat} {places : List (Binding × Local)}

theorem lookup_defineCaptures_of_not_mem {id : Nat}
    (absent : id ∉ places.map fun place => place.1.id) :
    (locals.defineCaptures index places).entries.lookup id = locals.entries.lookup id := by
  induction places generalizing locals index with
  | nil => rfl
  | cons place rest ih =>
      rw [List.map_cons, List.mem_cons, not_or] at absent
      rw [Locals.defineCaptures, ih absent.2]
      exact lookup_define _ _ absent.1

theorem lookup_defineCaptures (distinct : (places.map fun place => place.1.id).Nodup)
    {position : Nat} {place : Binding × Local} (found : places[position]? = some place) :
    (locals.defineCaptures index places).entries.lookup place.1.id =
      some ⟨⟨index + position⟩, place.2.placeholder⟩ := by
  induction places generalizing locals index position with
  | nil => cases found
  | cons first rest ih =>
      rw [List.map_cons, List.nodup_cons] at distinct
      rw [Locals.defineCaptures]
      cases position with
      | zero =>
          cases found
          rw [lookup_defineCaptures_of_not_mem distinct.1]
          exact List.lookup_cons_self
      | succ position =>
          have shifted : index + (position + 1) = index + 1 + position := by omega
          rw [ih distinct.2 found, shifted]

theorem exists_lookup_defineCaptures {id : Nat}
    (known : (exists place, locals.entries.lookup id = some place) ∨
      id ∈ places.map fun place => place.1.id) :
    exists place, (locals.defineCaptures index places).entries.lookup id = some place := by
  induction places generalizing locals index with
  | nil => exact known.resolve_right List.not_mem_nil
  | cons first rest ih =>
      rw [Locals.defineCaptures]
      apply ih
      by_cases same : id = first.1.id
      · rw [same]
        exact .inl ⟨_, List.lookup_cons_self⟩
      · rcases known with ⟨place, found⟩ | inside
        · exact .inl ⟨place, (lookup_define _ _ same).trans found⟩
        · exact .inr ((List.mem_cons.mp inside).resolve_left same)

end Captures

end Block
end StrictLambda
