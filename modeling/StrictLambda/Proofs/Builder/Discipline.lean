import StrictLambda.Proofs.Builder.Registers

/-!
# Discipline of constructed blocks

The frames of a block have room for the registers that its nodes name.  For a block that was built
these are its parameters and the registers that were handed out, each of which is filled by some
node.  Together with what is known of its paths this is all there is to the use of its registers.
-/

namespace StrictLambda
namespace Block

open Draft

/-!
## Locals
-/

def Draft.Located (draft : Draft) : Prop :=
  forall id place, draft.locals.entries.lookup id = some place ->
    place.register.index < draft.nextRegister

namespace Draft.Located

variable {draft after : Draft}

theorem of_locals_eq (located : draft.Located) (same : after.locals = draft.locals)
    (le : draft.nextRegister <= after.nextRegister) : after.Located := by
  intro id place found
  rw [same] at found
  exact Nat.lt_of_lt_of_le (located id place found) le

theorem define (located : draft.Located) (binding : Binding) (place : Local)
    (below : place.register.index < draft.nextRegister) : (draft.define binding place).Located := by
  intro id own found
  rcases of_lookup_define found with ⟨_, rfl⟩ | ⟨_, before⟩
  · exact below
  · exact located id own before

theorem produce (located : draft.Located) (node : Node) : (draft.produce node).Located :=
  located.of_locals_eq rfl (Nat.le_succ _)

end Draft.Located

theorem located_of_builds {construction : Construction} {draft after : Draft}
    (builds : Builds construction draft after) (located : draft.Located) : after.Located := by
  induction builds with
  | none => exact located
  | more _ _ ihFirst ihOthers => exact ihOthers (ihFirst located)
  | var | abs => exact located.produce _
  | combine _ _ ih => exact (ih located).produce _
  | letIn _ _ ihBound ih | tailLetIn _ _ ihBound ih => exact ih (ihBound located)
  | group _ ih | tailGroup _ ih => exact ih located
  | cond _ _ _ ihTests ihHolds ihFails =>
      have first := ihHolds ((ihTests located).of_locals_eq rfl (Nat.le_succ _))
      have second := ihFails (first.of_locals_eq rfl (Nat.le_refl _))
      exact second.of_locals_eq rfl (Nat.le_refl _)
  | bindPlain _ built ih =>
      exact (ih located).define _ _ (result_lt_of_builds built List.mem_cons_self)
  | @bindRecursive draft _ _ _ _ _ _ built ih =>
      have inside := ih ((located.produce _).define _ _ (Nat.lt_succ_self draft.nextRegister))
      have tied := inside.of_locals_eq rfl (Nat.le_refl _)
      exact tied.define _ _ (result_lt_of_builds built List.mem_cons_self)
  | leave _ _ ih | tailCall _ ih => exact (ih located).of_locals_eq rfl (Nat.le_refl _)
  | tailCond _ _ _ ihTests ihHolds ihFails =>
      have first := ihHolds ((ihTests located).of_locals_eq rfl (Nat.le_refl _))
      exact ihFails (first.of_locals_eq rfl (Nat.le_refl _))

/-!
## Registers that nodes name
-/

/-- The node names registers below the upper bound, and writes one that is not below the lower
bound. -/
structure NamesWithin (lower upper : Nat) (node : Node) : Prop where
  below : forall register, register ∈ node.registers -> register.index < upper
  writes : forall register, node.dest? = some register -> lower <= register.index

theorem namesWithin_of_sources {lower upper : Nat} {node : Node}
    (writes : forall register, node.dest? = some register ->
      lower <= register.index ∧ register.index < upper)
    (reads : forall register, register ∈ node.sources -> register.index < upper) :
    NamesWithin lower upper node where
  below := by
    intro register named
    rw [Node.registers_eq] at named
    rcases List.mem_append.mp named with dest | source
    · exact (writes register (Option.mem_toList.mp dest)).2
    · exact reads register source
  writes register dest := (writes register dest).1

namespace NamesWithin

variable {lower upper : Nat} {node : Node} {dest : Register}

theorem widen {outerLower outerUpper : Nat} (names : NamesWithin lower upper node)
    (least : outerLower <= lower) (most : upper <= outerUpper) :
    NamesWithin outerLower outerUpper node where
  below register named := Nat.lt_of_lt_of_le (names.below register named) most
  writes register dest := Nat.le_trans least (names.writes register dest)

theorem write (writes : node.dest? = some dest) (least : lower <= dest.index)
    (most : dest.index < upper)
    (reads : forall register, register ∈ node.sources -> register.index < upper) :
    NamesWithin lower upper node := by
  apply namesWithin_of_sources ?_ reads
  intro register own
  rw [writes] at own
  cases own
  exact ⟨least, most⟩

theorem silent (writes : node.dest? = none)
    (reads : forall register, register ∈ node.sources -> register.index < upper) :
    NamesWithin lower upper node := by
  apply namesWithin_of_sources ?_ reads
  intro register own
  rw [writes] at own
  cases own

end NamesWithin

namespace Draft.AddsOnly

variable {draft middle after : Draft} {lower upper : Nat} {node : Node}

theorem widen {outerLower outerUpper : Nat}
    (adds : draft.AddsOnly (NamesWithin lower upper) after) (least : outerLower <= lower)
    (most : upper <= outerUpper) : draft.AddsOnly (NamesWithin outerLower outerUpper) after :=
  adds.mono fun _ names => names.widen least most

theorem chain
    (first : draft.AddsOnly (NamesWithin draft.nextRegister middle.nextRegister) middle)
    (second : middle.AddsOnly (NamesWithin middle.nextRegister after.nextRegister) after)
    (early : draft.nextRegister <= middle.nextRegister)
    (late : middle.nextRegister <= after.nextRegister) :
    draft.AddsOnly (NamesWithin draft.nextRegister after.nextRegister) after :=
  (first.widen (Nat.le_refl _) late).trans (second.widen early (Nat.le_refl _))

theorem produce_within (writes : node.dest? = some draft.next)
    (reads : forall register, register ∈ node.sources -> register.index < draft.nextRegister) :
    draft.AddsOnly (NamesWithin draft.nextRegister (draft.nextRegister + 1))
      (draft.produce node) :=
  .produce (.write writes (Nat.le_refl _) (Nat.lt_succ_self _)
    fun register source => Nat.lt_succ_of_lt (reads register source))

theorem emit_within (writes : node.dest? = none)
    (reads : forall register, register ∈ node.sources -> register.index < draft.nextRegister) :
    draft.AddsOnly (NamesWithin lower draft.nextRegister) (draft.emit node) :=
  .emit (.silent writes reads)

end Draft.AddsOnly

section Branches

variable {draft tested first second : Draft} {condition consequent alternative : Term}
  {test left right : Register} {span : Span} {site : Site}

theorem namesWithin_cond (tests : Builds (.value condition test) draft tested)
    (holds : Builds (.value consequent left) (tested.forkValue test span) first)
    (fails : Builds (.value alternative right)
      (first.switchValue tested left consequent.span span) second)
    (namesTests : draft.AddsOnly (NamesWithin draft.nextRegister tested.nextRegister) tested)
    (namesHolds : (tested.forkValue test span).AddsOnly
      (NamesWithin (tested.nextRegister + 1) first.nextRegister) first)
    (namesFails : (first.switchValue tested left consequent.span span).AddsOnly
      (NamesWithin first.nextRegister second.nextRegister) second) :
    draft.AddsOnly (NamesWithin draft.nextRegister second.nextRegister)
      (second.joinValue tested right alternative.span span) := by
  have early := (grows_of_builds tests).registers
  have between : tested.nextRegister + 1 <= first.nextRegister := (grows_of_builds holds).registers
  have late : first.nextRegister <= second.nextRegister := (grows_of_builds fails).registers
  have dest : tested.nextRegister < second.nextRegister := Nat.le_trans between late
  have bound : tested.nextRegister <= second.nextRegister := Nat.le_of_lt dest
  have inside := Nat.le_trans early (Nat.le_succ _)
  have testBelow := Nat.lt_of_lt_of_le (result_lt_of_builds tests List.mem_cons_self) bound
  have leftBelow := Nat.lt_of_lt_of_le (result_lt_of_builds holds List.mem_cons_self) late
  have rightBelow := result_lt_of_builds fails List.mem_cons_self
  apply AddsOnly.cond (namesTests.widen (Nat.le_refl _) bound) (namesHolds.widen inside late)
    (namesFails.widen (Nat.le_trans inside between) (Nat.le_refl _))
  case copiesLeft => exact .write rfl early dest (List.forall_mem_singleton.mpr leftBelow)
  case copiesRight => exact .write rfl early dest (List.forall_mem_singleton.mpr rightBelow)
  case leaves => exact .silent rfl (List.forall_mem_singleton.mpr testBelow)
  case jumps => exact .silent rfl (List.forall_mem_nil _)
  case labels => exact fun _ _ => .silent rfl (List.forall_mem_nil _)

theorem namesWithin_tailCond (tests : Builds (.value condition test) draft tested)
    (holds : Builds (.tail site consequent) (tested.forkTail test span) first)
    (fails : Builds (.tail site alternative) (first.switchTail tested span) second)
    (namesTests : draft.AddsOnly (NamesWithin draft.nextRegister tested.nextRegister) tested)
    (namesHolds : (tested.forkTail test span).AddsOnly
      (NamesWithin tested.nextRegister first.nextRegister) first)
    (namesFails : (first.switchTail tested span).AddsOnly
      (NamesWithin first.nextRegister second.nextRegister) second) :
    draft.AddsOnly (NamesWithin draft.nextRegister second.nextRegister) second := by
  have early := (grows_of_builds tests).registers
  have between : tested.nextRegister <= first.nextRegister := (grows_of_builds holds).registers
  have late : first.nextRegister <= second.nextRegister := (grows_of_builds fails).registers
  have bound := Nat.le_trans between late
  have testBelow := Nat.lt_of_lt_of_le (result_lt_of_builds tests List.mem_cons_self) bound
  apply AddsOnly.tailCond (namesTests.widen (Nat.le_refl _) bound) (namesHolds.widen early late)
    (namesFails.widen (Nat.le_trans early between) (Nat.le_refl _))
  case leaves => exact .silent rfl (List.forall_mem_singleton.mpr testBelow)
  case labels => exact fun _ _ => .silent rfl (List.forall_mem_nil _)

end Branches

theorem namesWithin_of_builds {construction : Construction} {draft after : Draft}
    (builds : Builds construction draft after) (located : draft.Located) :
    draft.AddsOnly (NamesWithin draft.nextRegister after.nextRegister) after := by
  induction builds with
  | none => exact .refl _
  | more first others ihFirst ihOthers =>
      exact (ihFirst located).chain (ihOthers (located_of_builds first located))
        (grows_of_builds first).registers (grows_of_builds others).registers
  | @var draft span binding place found =>
      rcases registers_readNode span draft.next place with ⟨writes, sources, _⟩
      apply AddsOnly.produce_within writes
      rw [sources]
      exact List.forall_mem_singleton.mpr (located binding.id place found)
  | abs free found _ _ =>
      apply AddsOnly.produce_within rfl
      intro register reads
      rcases List.mem_map.mp reads with ⟨capture, member, rfl⟩
      exact located capture.1.id capture.2 (found capture member)
  | combine combines built ih =>
      rcases registers_of_combines combines with ⟨writes, sources, _⟩
      apply (ih located).chain (AddsOnly.produce_within writes ?_) (grows_of_builds built).registers
        (Nat.le_succ _)
      rw [sources]
      exact fun register result => result_lt_of_builds built result
  | letIn bound built ihBound ih | tailLetIn bound built ihBound ih =>
      exact (ihBound located).chain (ih (located_of_builds bound located))
        (grows_of_builds bound).registers (grows_of_builds built).registers
  | group _ ih | tailGroup _ ih => exact ih located
  | @cond draft tested first second span condition consequent alternative test left right
      tests holds fails ihTests ihHolds ihFails =>
      have locatedFork : (tested.forkValue test span).Located :=
        (located_of_builds tests located).of_locals_eq rfl (Nat.le_succ _)
      have locatedSwitch : (first.switchValue tested left consequent.span span).Located :=
        (located_of_builds holds locatedFork).of_locals_eq rfl (Nat.le_refl _)
      exact namesWithin_cond tests holds fails (ihTests located) (ihHolds locatedFork)
        (ihFails locatedSwitch)
  | bindPlain _ _ ih => exact ih located
  | @bindRecursive draft after span binding definition register _ built ih =>
      have begins : draft.AddsOnly (NamesWithin draft.nextRegister (draft.nextRegister + 1))
          (draft.produce (.operation (.beginFixpoint draft.next) span)) :=
        .produce_within rfl (List.forall_mem_nil _)
      have late : draft.nextRegister + 1 <= after.nextRegister := (grows_of_builds built).registers
      have inside := ih ((located.produce _).define _ _ (Nat.lt_succ_self draft.nextRegister))
      have ends : after.AddsOnly (NamesWithin draft.nextRegister after.nextRegister)
          (after.emit (.operation (.endFixpoint draft.next register) definition.span)) := by
        apply AddsOnly.emit_within rfl
        exact List.forall_mem_cons.mpr ⟨late,
          List.forall_mem_singleton.mpr (result_lt_of_builds built List.mem_cons_self)⟩
      exact (AddsOnly.chain begins inside (Nat.le_succ _) late).trans ends
  | @leave draft after site term register _ built ih =>
      have leaves : after.AddsOnly (NamesWithin draft.nextRegister after.nextRegister)
          (after.emit (.operation (site.leave register) term.span)) := by
        apply AddsOnly.emit_within
        · exact Node.dest?_eq_none_of_isTerminator (isTerminator_leave site register)
        · rw [Node.sources, sources_leave]
          exact List.forall_mem_singleton.mpr (result_lt_of_builds built List.mem_cons_self)
      exact (ih located).trans leaves
  | tailCall built ih =>
      exact (ih located).trans (.emit_within rfl fun register result =>
        result_lt_of_builds built result)
  | @tailCond draft tested first second site span condition consequent alternative test
      tests holds fails ihTests ihHolds ihFails =>
      have locatedFork : (tested.forkTail test span).Located :=
        (located_of_builds tests located).of_locals_eq rfl (Nat.le_refl _)
      have locatedSwitch : (first.switchTail tested span).Located :=
        (located_of_builds holds locatedFork).of_locals_eq rfl (Nat.le_refl _)
      exact namesWithin_tailCond tests holds fails (ihTests located) (ihHolds locatedFork)
        (ihFails locatedSwitch)

/-!
## Registers that are filled
-/

def Fills (lower upper : Nat) (nodes : List Node) : Prop :=
  forall index, lower <= index -> index < upper ->
    exists node, node ∈ nodes ∧ node.dest? = some ⟨index⟩

namespace Fills

variable {lower middle upper : Nat} {nodes more : List Node} {node : Node}

theorem none : Fills lower lower nodes :=
  fun _ least most => absurd most (Nat.not_lt.mpr least)

theorem single (member : node ∈ nodes) (writes : node.dest? = some ⟨lower⟩) :
    Fills lower (lower + 1) nodes := by
  intro index least most
  rcases Nat.le_antisymm least (Nat.le_of_lt_succ most) with rfl
  exact ⟨node, member, writes⟩

theorem trans (first : Fills lower middle nodes) (second : Fills middle upper nodes) :
    Fills lower upper nodes := by
  intro index least most
  rcases Nat.lt_or_ge index middle with before | behind
  · exact first index least before
  · exact second index behind most

theorem mono (fills : Fills lower upper nodes) (begins : nodes <+: more) :
    Fills lower upper more := by
  intro index least most
  rcases fills index least most with ⟨node, member, writes⟩
  exact ⟨node, begins.subset member, writes⟩

theorem produce {draft : Draft} (writes : node.dest? = some draft.next) :
    Fills draft.nextRegister (draft.produce node).nextRegister
      (draft.produce node).nodes.toList := by
  rw [nodes_produce]
  exact .single (List.mem_append_right _ (List.mem_singleton_self node)) writes

end Fills

theorem fills_of_builds {construction : Construction} {draft after : Draft}
    (builds : Builds construction draft after) :
    Fills draft.nextRegister after.nextRegister after.nodes.toList := by
  induction builds with
  | none => exact .none
  | more _ others ihFirst ihOthers =>
      exact (ihFirst.mono (grows_of_builds others).nodes).trans ihOthers
  | var => exact .produce (registers_readNode _ _ _).1
  | abs => exact .produce rfl
  | combine combines _ ih =>
      exact (ih.mono (grows_produce _ _).nodes).trans (.produce (registers_of_combines combines).1)
  | letIn _ built ihBound ih | tailLetIn _ built ihBound ih =>
      exact (ihBound.mono (grows_of_builds built).nodes).trans ih
  | group _ ih | tailGroup _ ih => exact ih
  | @cond draft tested first second span condition consequent alternative test left right
      tests holds fails ihTests ihHolds ihFails =>
      have joins := grows_joinValue second tested right alternative.span span
      have behindFirst := ((grows_switchValue first tested left consequent.span span).trans
        (grows_of_builds fails)).trans joins
      have behindTest := ((grows_forkValue tested test span).trans
        (grows_of_builds holds)).trans behindFirst
      have copies : Node.operation (.copy tested.next right) alternative.span ∈
          (second.joinValue tested right alternative.span span).nodes.toList := by
        rw [nodes_joinValue]
        exact List.mem_append_right _ List.mem_cons_self
      have dest : Fills tested.nextRegister (tested.nextRegister + 1)
          (second.joinValue tested right alternative.span span).nodes.toList :=
        .single copies rfl
      exact ((ihTests.mono behindTest.nodes).trans dest).trans
        ((ihHolds.mono behindFirst.nodes).trans (ihFails.mono joins.nodes))
  | bindPlain _ _ ih => exact ih
  | @bindRecursive draft after span binding definition register _ built ih =>
      have begins : Fills draft.nextRegister (draft.nextRegister + 1)
          (draft.produce (.operation (.beginFixpoint draft.next) span)).nodes.toList :=
        .produce rfl
      exact ((begins.mono (grows_of_builds built).nodes).trans ih).mono (grows_emit _ _).nodes
  | leave _ _ ih | tailCall _ ih => exact ih.mono (grows_emit _ _).nodes
  | tailCond _ holds fails ihTests ihHolds ihFails =>
      have behindFirst := (grows_switchTail _ _ _).trans (grows_of_builds fails)
      have behindTest := ((grows_forkTail _ _ _).trans (grows_of_builds holds)).trans behindFirst
      exact ((ihTests.mono behindTest.nodes).trans (ihHolds.mono behindFirst.nodes)).trans ihFails

/-!
## Blocks
-/

section Blocks

variable {block : Block} {site : Site} {term : Term} {locals : Locals} {inner : Draft}

theorem Made.namesWithin (made : block.Made site term locals inner) {node : Node}
    (member : node ∈ block.nodes) : NamesWithin block.parameters inner.nextRegister node := by
  rw [made.nodes] at member
  exact (namesWithin_of_builds made.builds made.known).of_mem member

theorem Made.fills (made : block.Made site term locals inner) :
    Fills block.parameters inner.nextRegister block.nodes := by
  rw [made.nodes]
  exact fills_of_builds made.builds

theorem Made.frameSize_eq (made : block.Made site term locals inner) :
    block.frameSize = inner.nextRegister := by
  apply Nat.le_antisymm
  · apply frameSize_le_iff.mpr
    exact ⟨(grows_of_builds made.builds).registers,
      fun node member => (made.namesWithin member).below⟩
  · apply Nat.le_of_not_lt
    intro beyond
    -- The first register behind the frame would be written by a node, and so it is in the frame.
    rcases made.fills _ (parameters_le_frameSize block) beyond with ⟨node, member, writes⟩
    have named : Register.mk block.frameSize ∈ node.registers := by
      rw [Node.registers_eq, writes]
      exact List.mem_cons_self
    exact absurd (lt_frameSize_of_mem member named) (Nat.lt_irrefl _)

theorem Made.orderly (made : block.Made site term locals inner) {scope : List Nat}
    (fits : term.FitsScope scope) : block.Orderly Nowhere 0 [] := by
  have once : forall label, occurrences label block.nodes <= 1 := by
    rw [made.nodes]
    exact occurrences_le_one made.builds
  have prepared : block.Prepared (.start block.parameters locals) scope [] :=
    ⟨fun id _ place found => .inl (made.known id place found), List.forall_mem_nil _⟩
  have built : inner.nodes.toList <+: block.nodes :=
    ⟨[], by rw [List.append_nil, made.nodes]⟩
  have orderly := tidy_of_builds once made.builds built scope [] prepared fits
  exact orderly.mono fun _ _ finished => finished.shows

theorem Made.disciplined (made : block.Made site term locals inner) {scope : List Nat}
    (fits : term.FitsScope scope) : block.Disciplined where
  reads _ _ _ path found _ named := (made.orderly fits).filled_of_path path found named
  once _ _ path := (made.orderly fits).nodup_of_path path
  spares _ register member writes := (made.namesWithin member).writes register writes
  fills := by
    rw [made.frameSize_eq]
    exact made.fills

/-- The block has been planned in tail position, and its frames have as many registers as had been
handed out in the end. -/
def FramesArePlanned (block : Block) : Prop :=
  exists site term locals draft,
    ((plan term).tail site).run (.start block.parameters locals) = .ok ((), draft) ∧
      block.nodes = draft.nodes.toList ∧ block.frameSize = draft.nextRegister

theorem Made.framesArePlanned (made : block.Made site term locals inner) :
    block.FramesArePlanned :=
  ⟨site, term, locals, inner, planned_of_builds made.builds, made.nodes, made.frameSize_eq⟩

end Blocks

/-- The blocks of a closed term in which no binding hides another one use their registers with
discipline: every register that is read has been filled on the way, nothing is written twice on one
way, parameters are left alone, and the frames have just the registers that were handed out. -/
theorem ofTerm_is_disciplined (term : Term) (closed : term.freeVariables = [])
    (unshadowed : term.Unshadowed []) :
    exists tree, ofTerm term = .ok tree ∧ forall block, block ∈ tree.bodies ->
      block.Disciplined ∧ block.FramesArePlanned := by
  have fits := Term.fitsScope_of_closed closed unshadowed
  rcases exists_builtFrom closed unshadowed with ⟨tree, builtFrom⟩
  refine ⟨tree, builtFrom.ofTerm_eq, ?_⟩
  intro block member
  rcases comesFrom_of_mem_bodies builtFrom member with ⟨_, _, _, _, made, fitsOwn⟩
  rcases fitsOwn fits with ⟨_, fitsScope⟩
  exact ⟨made.disciplined fitsScope, made.framesArePlanned⟩

theorem ofTerm_is_disciplined_of_countdown :
    Term.countdown.freeVariables = [] ∧ Term.countdown.Unshadowed [] ∧
      exists tree, ofTerm Term.countdown = .ok tree ∧ forall block, block ∈ tree.bodies ->
        block.Disciplined ∧ block.FramesArePlanned :=
  ⟨rfl, Term.unshadowed_countdown,
    ofTerm_is_disciplined Term.countdown rfl Term.unshadowed_countdown⟩

end Block
end StrictLambda
