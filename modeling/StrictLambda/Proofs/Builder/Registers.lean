import StrictLambda.Proofs.Block.Paths
import StrictLambda.Proofs.Builder.Bodies

/-!
# Registers of constructed blocks

A construction takes registers that nobody has, and fills them before they are read.  This is not
obvious where control comes together: both branches of a conditional fill the same register, and
while the second branch is built, the locals of the first are still known.  They do no harm, for the
second branch cannot mention what was bound in the first.
-/

namespace StrictLambda
namespace Block

open Draft

/-!
## What a node reads and writes
-/

theorem registers_of_combines {term : Term} {operands : List Term} {dest : Register}
    {registers : List Register} {node : Node}
    (combines : Combines term operands dest registers node) :
    node.dest? = some dest ∧ node.sources = registers ∧ node.target? = none := by
  cases combines <;> exact ⟨rfl, rfl, rfl⟩

theorem registers_readNode (span : Span) (dest : Register) (place : Local) :
    (readNode span dest place).dest? = some dest ∧
      (readNode span dest place).sources = [place.register] ∧
        (readNode span dest place).target? = none := by
  unfold readNode
  split <;> exact ⟨rfl, rfl, rfl⟩

theorem sources_leave (site : Site) (register : Register) :
    (site.leave register).sources = [register] := by
  cases site <;> rfl

theorem isTerminator_leave (site : Site) (register : Register) :
    (site.leave register).isTerminator = true := by
  cases site <;> rfl

/-!
## Registers that are written on the way
-/

def Draft.Writes (draft after : Draft) (written later : List Register) : Prop :=
  exists own, later = written ++ own ∧ forall register, register ∈ own ->
    draft.nextRegister <= register.index ∧ register.index < after.nextRegister

namespace Draft.Writes

variable {draft middle after last : Draft} {written later final : List Register}
  {register : Register} {block : Block}

theorem refl (draft after : Draft) (written : List Register) :
    draft.Writes after written written :=
  ⟨[], (List.append_nil _).symm, List.forall_mem_nil _⟩

theorem single (written : List Register) (lower : draft.nextRegister <= register.index)
    (upper : register.index < after.nextRegister) :
    draft.Writes after written (written ++ [register]) :=
  ⟨[register], rfl, List.forall_mem_singleton.mpr ⟨lower, upper⟩⟩

theorem widen (writes : middle.Writes after written later)
    (lower : draft.nextRegister <= middle.nextRegister)
    (upper : after.nextRegister <= last.nextRegister) : draft.Writes last written later := by
  rcases writes with ⟨own, same, between⟩
  refine ⟨own, same, ?_⟩
  intro register member
  rcases between register member with ⟨least, most⟩
  exact ⟨Nat.le_trans lower least, Nat.lt_of_lt_of_le most upper⟩

theorem append (first : draft.Writes after written later)
    (second : draft.Writes after later final) : draft.Writes after written final := by
  rcases first with ⟨front, rfl, between⟩
  rcases second with ⟨rear, rfl, betweenRear⟩
  exact ⟨front ++ rear, List.append_assoc written front rear,
    List.forall_mem_append.mpr ⟨between, betweenRear⟩⟩

theorem trans (first : draft.Writes middle written later)
    (second : middle.Writes after later final)
    (early : draft.nextRegister <= middle.nextRegister)
    (late : middle.nextRegister <= after.nextRegister) : draft.Writes after written final :=
  (first.widen (Nat.le_refl _) late).append (second.widen early (Nat.le_refl _))

theorem filled (writes : draft.Writes after written later)
    (filled : block.Filled written register) : block.Filled later register := by
  rcases writes with ⟨own, rfl, _⟩
  exact filled.append own

theorem lt (writes : draft.Writes after written later)
    (given : forall register, register ∈ written -> register.index < draft.nextRegister)
    (grows : draft.nextRegister <= after.nextRegister) :
    forall register, register ∈ later -> register.index < after.nextRegister := by
  rcases writes with ⟨own, rfl, between⟩
  intro register member
  rcases List.mem_append.mp member with before | since
  · exact Nat.lt_of_lt_of_le (given register before) grows
  · exact (between register since).2

variable {tested second : Draft}

theorem next_not_mem (writes : middle.Writes last written later)
    (given : forall register, register ∈ written -> register.index < tested.nextRegister)
    (skips : tested.nextRegister < middle.nextRegister) : tested.next ∉ later := by
  rcases writes with ⟨own, rfl, between⟩
  intro member
  rcases List.mem_append.mp member with before | since
  · exact absurd (given tested.next before) (Nat.lt_irrefl _)
  · exact absurd (between tested.next since).1 (Nat.not_le.mpr skips)

theorem join (tests : draft.Writes tested written later)
    (branch : middle.Writes last later final)
    (early : draft.nextRegister <= tested.nextRegister)
    (skips : tested.nextRegister < middle.nextRegister)
    (inside : middle.nextRegister <= last.nextRegister)
    (late : last.nextRegister <= second.nextRegister) :
    draft.Writes second written (final ++ [tested.next]) := by
  have upper : tested.nextRegister < second.nextRegister :=
    Nat.lt_of_lt_of_le skips (Nat.le_trans inside late)
  have lower : draft.nextRegister <= middle.nextRegister :=
    Nat.le_trans early (Nat.le_of_lt skips)
  have condition := tests.widen (Nat.le_refl _) (Nat.le_of_lt upper)
  exact (condition.append (branch.widen lower late)).append (.single final early upper)

end Draft.Writes

theorem next_not_mem {draft : Draft} {written : List Register}
    (given : forall register, register ∈ written -> register.index < draft.nextRegister) :
    draft.next ∉ written :=
  fun member => absurd (given draft.next member) (Nat.lt_irrefl _)

/-!
## Stages of a construction
-/

/-- Control is where the construction begins.  The locals in scope are filled, and the registers
that were written had been handed out. -/
structure Prepared (block : Block) (draft : Draft) (scope : List Nat) (written : List Register) :
    Prop where
  known : forall id, id ∈ scope -> forall place, draft.locals.entries.lookup id = some place ->
    block.Filled written place.register
  given : forall register, register ∈ written -> register.index < draft.nextRegister

def Construction.Shows (block : Block) (after : Draft) (written : List Register) :
    Construction -> Prop
  | .value _ register => block.Filled written register
  | .values _ registers => forall register, register ∈ registers -> block.Filled written register
  | .bind _ binding _ => exists place, after.locals.entries.lookup binding.id = some place ∧
      block.Filled written place.register
  | .tail _ _ => False

structure Finished (block : Block) (construction : Construction) (draft after : Draft)
    (written : List Register) (position : Nat) (later : List Register) : Prop where
  position : position = after.nodes.size
  writes : draft.Writes after written later
  shows : construction.Shows block after later

def Tidy (block : Block) (construction : Construction) (draft after : Draft) : Prop :=
  after.nodes.toList <+: block.nodes -> forall scope written,
    block.Prepared draft scope written -> construction.FitsScope scope ->
      block.Orderly (block.Finished construction draft after written) draft.nodes.size written

section Stages

variable {block : Block} {draft middle after : Draft} {construction : Construction}
  {scope : List Nat} {written later : List Register} {register : Register} {node : Node}
  {span : Span}

namespace Prepared

theorem after_builds (prepared : block.Prepared draft scope written)
    (builds : Builds construction draft after) (fits : construction.FitsScope scope)
    (writes : draft.Writes after written later) : block.Prepared after scope later where
  known := by
    intro id inside place found
    rw [lookup_of_builds builds fits inside] at found
    exact writes.filled (prepared.known id inside place found)
  given := writes.lt prepared.given (grows_of_builds builds).registers

theorem of_locals_eq (prepared : block.Prepared draft scope written)
    (same : after.locals = draft.locals) (le : draft.nextRegister <= after.nextRegister) :
    block.Prepared after scope written where
  known := by
    rw [same]
    exact prepared.known
  given register member := Nat.lt_of_lt_of_le (prepared.given register member) le

theorem define (prepared : block.Prepared draft scope written) (binding : Binding) (place : Local)
    (filled : block.Filled written place.register) :
    block.Prepared (draft.define binding place) (binding.id :: scope) written where
  known := by
    intro id inside own found
    rcases of_lookup_define found with ⟨_, rfl⟩ | ⟨other, before⟩
    · exact filled
    · exact prepared.known id ((List.mem_cons.mp inside).resolve_left other) own before
  given := prepared.given

theorem produce (prepared : block.Prepared draft scope written) (node : Node) :
    block.Prepared (draft.produce node) scope (written ++ [draft.next]) where
  known id inside place found := (prepared.known id inside place found).append _
  given := (Writes.single written (Nat.le_refl _) (Nat.lt_succ_self _)).lt
    prepared.given (Nat.le_succ _)

theorem bound (prepared : block.Prepared draft scope written) {binding : Binding}
    {definition : Term} (builds : Builds (.bind span binding definition) draft after)
    (fits : (Construction.bind span binding definition).FitsScope scope) {position : Nat}
    (finished : block.Finished (.bind span binding definition) draft after written position
      later) : block.Prepared after (binding.id :: scope) later where
  known := by
    intro id inside place found
    have others := prepared.after_builds builds fits finished.writes
    by_cases same : id = binding.id
    · rcases finished.shows with ⟨own, foundOwn, filled⟩
      rw [same, foundOwn] at found
      cases found
      exact filled
    · exact others.known id ((List.mem_cons.mp inside).resolve_left same) place found
  given := finished.writes.lt prepared.given (grows_of_builds builds).registers

end Prepared

/-!
## Single nodes
-/

theorem orderly_produce {term : Term}
    (built : (draft.produce node).nodes.toList <+: block.nodes)
    (given : forall register, register ∈ written -> register.index < draft.nextRegister)
    (writes : node.dest? = some draft.next) (plain : node.target? = none)
    (reads : forall register, register ∈ node.sources -> block.Filled written register) :
    block.Orderly
      (block.Finished (.value term draft.next) draft (draft.produce node) written)
      draft.nodes.size written := by
  rw [nodes_produce] at built
  apply Orderly.write (getElem?_of_built built) plain writes (next_not_mem given) reads
  apply Orderly.ends
  exact ⟨(size_produce draft node).symm,
    .single written (Nat.le_refl _) (Nat.lt_succ_self _), filled_append_self written _⟩

/-!
## Rules
-/

theorem tidy_none : block.Tidy (.values [] []) draft draft := by
  intro built scope written prepared fits
  exact .ends ⟨rfl, .refl draft draft written, List.forall_mem_nil _⟩

theorem tidy_more {term : Term} {rest : List Term} {registers : List Register}
    (first : Builds (.value term register) draft middle)
    (others : Builds (.values rest registers) middle after)
    (tidyFirst : block.Tidy (.value term register) draft middle)
    (tidyOthers : block.Tidy (.values rest registers) middle after) :
    block.Tidy (.values (term :: rest) (register :: registers)) draft after := by
  intro built scope written prepared fits
  have fitsFirst : term.FitsScope scope := fits term List.mem_cons_self
  have fitsOthers : (Construction.values rest registers).FitsScope scope :=
    fun other member => fits other (List.mem_cons_of_mem _ member)
  have early := (grows_of_builds first).registers
  have late := (grows_of_builds others).registers
  apply (tidyFirst ((grows_of_builds others).prefixes built) scope written prepared
    fitsFirst).followed
  rintro _ middleWritten ⟨rfl, writes, shows⟩
  apply (tidyOthers built scope middleWritten
    (prepared.after_builds first fitsFirst writes) fitsOthers).mono
  rintro _ later ⟨rfl, writesMore, showsMore⟩
  exact ⟨rfl, writes.trans writesMore early late,
    List.forall_mem_cons.mpr ⟨writesMore.filled shows, showsMore⟩⟩

theorem tidy_var {binding : Binding} {place : Local}
    (found : draft.locals.get? binding = some place) :
    block.Tidy (.value (.var span binding) draft.next) draft
      (draft.produce (readNode span draft.next place)) := by
  intro built scope written prepared fits
  rcases registers_readNode span draft.next place with ⟨writes, sources, plain⟩
  apply orderly_produce built prepared.given writes plain
  intro register reads
  rw [sources] at reads
  rcases List.mem_singleton.mp reads with rfl
  exact prepared.known binding.id (fits.visible _ rfl) place found

theorem tidy_abs {parameter : Binding} {body : Term} {captures : List (Binding × Local)}
    {created : Block} (free : captures.map Prod.fst = (Term.abs span parameter body).freeVariables)
    (found : forall capture, capture ∈ captures ->
      draft.locals.get? capture.1 = some capture.2) :
    block.Tidy (.value (.abs span parameter body) draft.next) draft
      (draft.produce (.function draft.next created
        (captures.map fun capture => capture.2.register) span)) := by
  intro built scope written prepared fits
  apply orderly_produce built prepared.given rfl rfl
  intro register reads
  rcases List.mem_map.mp reads with ⟨capture, member, rfl⟩
  have visible : capture.1.id ∈ scope := by
    apply fits.visible
    rw [← Term.mem_freeVariables_iff, ← free, List.map_map]
    exact List.mem_map.mpr ⟨capture, member, rfl⟩
  exact prepared.known capture.1.id visible capture.2 (found capture member)

theorem tidy_combine {term : Term} {operands : List Term} {registers : List Register}
    (combines : Combines term operands after.next registers node)
    (builds : Builds (.values operands registers) draft after)
    (tidy : block.Tidy (.values operands registers) draft after) :
    block.Tidy (.value term after.next) draft (after.produce node) := by
  intro built scope written prepared fits
  have fitsAll : (Construction.values operands registers).FitsScope scope :=
    fitsScope_of_combines combines fits
  have grows := (grows_of_builds builds).registers
  rcases registers_of_combines combines with ⟨dest, sources, plain⟩
  apply (tidy ((grows_produce after node).prefixes built) scope written prepared fitsAll).followed
  rintro _ middleWritten ⟨rfl, writes, shows⟩
  rw [← sources] at shows
  apply (orderly_produce built (writes.lt prepared.given grows) dest plain shows).mono
  rintro _ later ⟨rfl, writesMore, showsValue⟩
  exact ⟨rfl, writes.trans writesMore grows (Nat.le_succ _), showsValue⟩

theorem tidy_letIn {binding : Binding} {definition : Term} {inner outer : Construction}
    (bound : Builds (.bind span binding definition) draft middle)
    (builds : Builds inner middle after)
    (tidyBound : block.Tidy (.bind span binding definition) draft middle)
    (tidy : block.Tidy inner middle after)
    (fitsParts : forall scope, outer.FitsScope scope ->
      (Construction.bind span binding definition).FitsScope scope ∧
        inner.FitsScope (binding.id :: scope))
    (same : forall later, inner.Shows block after later -> outer.Shows block after later) :
    block.Tidy outer draft after := by
  intro built scope written prepared fits
  rcases fitsParts scope fits with ⟨fitsBound, fitsInner⟩
  have early := (grows_of_builds bound).registers
  have late := (grows_of_builds builds).registers
  apply (tidyBound ((grows_of_builds builds).prefixes built) scope written prepared
    fitsBound).followed
  intro position middleWritten finished
  have preparedInner := prepared.bound bound fitsBound finished
  rcases finished with ⟨rfl, writes, _⟩
  apply (tidy built _ middleWritten preparedInner fitsInner).mono
  rintro _ later ⟨rfl, writesMore, shows⟩
  exact ⟨rfl, writes.trans writesMore early late, same later shows⟩

theorem tidy_bindPlain {binding : Binding} {definition : Term}
    (plain : definition.mentions binding = false)
    (tidy : block.Tidy (.value definition register) draft after) :
    block.Tidy (.bind span binding definition) draft
      (after.define binding ⟨register, false⟩) := by
  intro built scope written prepared fits
  apply (tidy built scope written prepared (fits.2.of_not_mentions plain)).mono
  rintro _ later ⟨rfl, writes, shows⟩
  exact ⟨rfl, writes, _, List.lookup_cons_self, shows⟩

theorem tidy_bindRecursive {binding : Binding} {definition : Term}
    (builds : Builds (.value definition register)
      ((draft.produce (.operation (.beginFixpoint draft.next) span)).define binding
        ⟨draft.next, true⟩) after)
    (tidy : block.Tidy (.value definition register)
      ((draft.produce (.operation (.beginFixpoint draft.next) span)).define binding
        ⟨draft.next, true⟩) after) :
    block.Tidy (.bind span binding definition) draft
      ((after.emit (.operation (.endFixpoint draft.next register) definition.span)).define binding
        ⟨register, false⟩) := by
  intro built scope written prepared fits
  have builtTie : after.nodes.toList ++
      [.operation (.endFixpoint draft.next register) definition.span] <+: block.nodes := by
    rw [← nodes_emit]
    exact built
  have builtAfter := (List.prefix_append _ _).trans builtTie
  have builtBegin : draft.nodes.toList ++ [.operation (.beginFixpoint draft.next) span] <+:
      block.nodes := by
    rw [← nodes_produce]
    exact (grows_of_builds builds).prefixes builtAfter
  have late : draft.nextRegister + 1 <= after.nextRegister := (grows_of_builds builds).registers
  apply Orderly.write (getElem?_of_built builtBegin) rfl rfl (next_not_mem prepared.given)
    (fun _ reads => nomatch reads)
  have preparedInside := (prepared.produce (.operation (.beginFixpoint draft.next) span)).define
    binding ⟨draft.next, true⟩ (filled_append_self written draft.next)
  have inside := tidy builtAfter _ _ preparedInside fits.2
  rw [Draft.define, size_produce] at inside
  apply inside.followed
  rintro _ later ⟨rfl, writes, shows⟩
  apply Orderly.silent (getElem?_of_built builtTie) rfl rfl
  · intro own reads
    rcases List.mem_cons.mp reads with rfl | value
    · exact writes.filled (filled_append_self written draft.next)
    · rcases List.mem_singleton.mp value with rfl
      exact shows
  · apply Orderly.ends
    have begins : draft.Writes after written (written ++ [draft.next]) :=
      .single written (Nat.le_refl _) late
    exact ⟨(size_emit _ _).symm, begins.append (writes.widen (Nat.le_succ _) (Nat.le_refl _)), _,
      List.lookup_cons_self, shows⟩

theorem tidy_leave {site : Site} {term : Term}
    (tidy : block.Tidy (.value term register) draft after) :
    block.Tidy (.tail site term) draft
      (after.emit (.operation (site.leave register) span)) := by
  intro built scope written prepared fits
  have builtLeave := built
  rw [nodes_emit] at builtLeave
  apply (tidy ((grows_emit after _).prefixes built) scope written prepared fits).followed
  rintro _ later ⟨rfl, _, shows⟩
  apply Orderly.stop (getElem?_of_built builtLeave) (isTerminator_leave site register)
  intro own reads
  rw [Node.sources, sources_leave] at reads
  rcases List.mem_singleton.mp reads with rfl
  exact shows

theorem tidy_tailCall {function argument : Term} {callee value : Register}
    (tidy : block.Tidy (.values [function, argument] [callee, value]) draft after) :
    block.Tidy (.tail .functionBody (.app span function argument)) draft
      (after.emit (.operation (.tailCall callee value) span)) := by
  intro built scope written prepared fits
  have fitsAll : (Construction.values [function, argument] [callee, value]).FitsScope scope := by
    rcases Term.FitsScope.app fits with ⟨first, second⟩
    exact List.forall_mem_cons.mpr ⟨first, List.forall_mem_singleton.mpr second⟩
  have builtCall := built
  rw [nodes_emit] at builtCall
  apply (tidy ((grows_emit after _).prefixes built) scope written prepared fitsAll).followed
  rintro _ later ⟨rfl, _, shows⟩
  exact .stop (getElem?_of_built builtCall) rfl shows

/-!
## Conditionals
-/

section Branches

variable {tested first second : Draft} {condition consequent alternative : Term}
  {test left right : Register}

theorem orderly_cond {Ends : Nat -> List Register -> Prop} {goal : Nat} {labelSpan : Span}
    (once : forall label, occurrences label block.nodes <= 1)
    (tests : Builds (.value condition test) draft tested)
    (tidy : block.Tidy (.value condition test) draft tested)
    (prepared : block.Prepared draft scope written) (fits : condition.FitsScope scope)
    (built : tested.nodes.toList ++ [.jumpUnless test tested.label span] <+: block.nodes)
    (stands : block.nodes[goal]? = some (.label tested.label labelSpan))
    (holds : forall later, draft.Writes tested written later ->
      block.Prepared tested scope later -> block.Orderly Ends (tested.nodes.size + 1) later)
    (fails : forall later, draft.Writes tested written later ->
      block.Prepared tested scope later -> block.Orderly Ends (goal + 1) later) :
    block.Orderly Ends draft.nodes.size written := by
  -- Control reaches the branches of a conditional when its condition has been evaluated.
  apply (tidy ((List.prefix_append _ _).trans built) scope written prepared fits).followed
  rintro _ later ⟨rfl, writes, shows⟩
  have preparedTested := prepared.after_builds tests fits writes
  have jumps := labelPosition?_eq_of_le_one (once tested.label) stands
  apply Orderly.jumpUnless (getElem?_of_built built) jumps shows (holds later writes preparedTested)
  exact .silent stands rfl rfl (List.forall_mem_nil _) (fails later writes preparedTested)

theorem orderly_branch {Ends : Nat -> List Register -> Prop} {begun last : Draft} {branch : Term}
    {source : Register} (tidy : block.Tidy (.value branch source) begun last)
    (prepared : block.Prepared begun scope written) (fits : branch.FitsScope scope)
    (given : forall register, register ∈ written -> register.index < tested.nextRegister)
    (skips : tested.nextRegister < begun.nextRegister)
    (built : (last.emit (.operation (.copy tested.next source) span)).nodes.toList <+: block.nodes)
    (rest : forall later, begun.Writes last written later ->
      block.Orderly Ends (last.nodes.size + 1) (later ++ [tested.next])) :
    block.Orderly Ends begun.nodes.size written := by
  apply (tidy ((grows_emit last _).prefixes built) scope written prepared fits).followed
  rintro _ later ⟨rfl, writes, shows⟩
  have fresh := writes.next_not_mem given skips
  rw [nodes_emit] at built
  apply Orderly.write (getElem?_of_built built) rfl rfl fresh ?_ (rest later writes)
  intro register reads
  rcases List.mem_singleton.mp reads with rfl
  exact shows

theorem tidy_cond (once : forall label, occurrences label block.nodes <= 1)
    (tests : Builds (.value condition test) draft tested)
    (holds : Builds (.value consequent left) (tested.forkValue test span) first)
    (fails : Builds (.value alternative right)
      (first.switchValue tested left consequent.span span) second)
    (tidyTests : block.Tidy (.value condition test) draft tested)
    (tidyHolds : block.Tidy (.value consequent left) (tested.forkValue test span) first)
    (tidyFails : block.Tidy (.value alternative right)
      (first.switchValue tested left consequent.span span) second) :
    block.Tidy (.value (.cond span condition consequent alternative) tested.next) draft
      (second.joinValue tested right alternative.span span) := by
  intro built scope written prepared fits
  rcases Term.FitsScope.cond fits with ⟨fitsCondition, fitsConsequent, fitsAlternative⟩
  have builtCopyRight := (grows_emit (second.emit (.operation (.copy tested.next right)
    alternative.span)) (.label tested.secondLabel span)).prefixes built
  have builtSecond := (grows_emit second _).prefixes builtCopyRight
  have builtSwitch := (grows_of_builds fails).prefixes builtSecond
  have builtJump := (grows_emit _ _).prefixes builtSwitch
  have builtCopyLeft := (grows_emit _ _).prefixes builtJump
  have builtFork := (grows_of_builds holds).prefixes ((grows_emit first _).prefixes builtCopyLeft)
  rw [joinValue, nodes_emit] at built
  rw [nodes_forkValue] at builtFork
  rw [switchValue, nodes_emit] at builtSwitch
  rw [nodes_emit] at builtJump
  have early := (grows_of_builds tests).registers
  have between : tested.nextRegister < first.nextRegister := (grows_of_builds holds).registers
  have late : first.nextRegister <= second.nextRegister := (grows_of_builds fails).registers
  have skips : tested.nextRegister < (tested.forkValue test span).nextRegister := Nat.lt_succ_self _
  have joins := getElem?_of_built built
  have joined : forall final, draft.Writes second written (final ++ [tested.next]) ->
      block.Orderly
        (block.Finished (.value (.cond span condition consequent alternative) tested.next) draft
          (second.joinValue tested right alternative.span span) written)
        (second.emit (.operation (.copy tested.next right) alternative.span)).nodes.size
        (final ++ [tested.next]) := by
    intro final writes
    apply Orderly.silent joins rfl rfl (List.forall_mem_nil _)
    apply Orderly.ends
    exact ⟨(size_emit _ _).symm, writes, filled_append_self final tested.next⟩
  apply orderly_cond once tests tidyTests prepared fitsCondition builtFork
    (getElem?_of_built builtSwitch)
  case holds =>
    intro later writes preparedTested
    have preparedFork : block.Prepared (tested.forkValue test span) scope later :=
      preparedTested.of_locals_eq rfl (Nat.le_succ _)
    rw [← size_forkValue tested test span]
    apply orderly_branch tidyHolds preparedFork fitsConsequent preparedTested.given skips
      builtCopyLeft
    intro final writesBranch
    have jump := getElem?_of_built builtJump
    rw [size_emit] at jump
    apply Orderly.jump jump (labelPosition?_eq_of_le_one (once tested.secondLabel) joins)
    exact joined final (writes.join writesBranch early skips between late)
  case fails =>
    intro later writes preparedTested
    have preparedFork : block.Prepared (tested.forkValue test span) scope later :=
      preparedTested.of_locals_eq rfl (Nat.le_succ _)
    -- The registers of the first branch count as handed out, though they are not written here.
    have unwritten : (tested.forkValue test span).Writes first later later := .refl _ _ _
    have preparedSwitch : block.Prepared (first.switchValue tested left consequent.span span) scope
        later :=
      (preparedFork.after_builds holds fitsConsequent unwritten).of_locals_eq rfl (Nat.le_refl _)
    rw [← size_emit]
    apply orderly_branch tidyFails preparedSwitch fitsAlternative preparedTested.given between
      builtCopyRight
    intro final writesBranch
    rw [← size_emit]
    exact joined final (writes.join writesBranch early between late (Nat.le_refl _))

theorem tidy_tailCond {site : Site} (once : forall label, occurrences label block.nodes <= 1)
    (tests : Builds (.value condition test) draft tested)
    (holds : Builds (.tail site consequent) (tested.forkTail test span) first)
    (fails : Builds (.tail site alternative) (first.switchTail tested span) second)
    (tidyTests : block.Tidy (.value condition test) draft tested)
    (tidyHolds : block.Tidy (.tail site consequent) (tested.forkTail test span) first)
    (tidyFails : block.Tidy (.tail site alternative) (first.switchTail tested span) second) :
    block.Tidy (.tail site (.cond span condition consequent alternative)) draft second := by
  intro built scope written prepared fits
  rcases Term.FitsScope.cond fits with ⟨fitsCondition, fitsConsequent, fitsAlternative⟩
  have builtSwitch := (grows_of_builds fails).prefixes built
  have builtFirst := (grows_switchTail first tested span).prefixes builtSwitch
  have builtFork := (grows_of_builds holds).prefixes builtFirst
  rw [nodes_forkTail] at builtFork
  rw [nodes_switchTail] at builtSwitch
  apply orderly_cond once tests tidyTests prepared fitsCondition builtFork
    (getElem?_of_built builtSwitch)
  case holds =>
    intro later _ preparedTested
    have preparedFork : block.Prepared (tested.forkTail test span) scope later :=
      preparedTested.of_locals_eq rfl (Nat.le_refl _)
    have branch := tidyHolds builtFirst scope later preparedFork fitsConsequent
    rw [size_forkTail] at branch
    exact branch.mono fun _ _ finished => finished.shows.elim
  case fails =>
    intro later _ preparedTested
    have preparedFork : block.Prepared (tested.forkTail test span) scope later :=
      preparedTested.of_locals_eq rfl (Nat.le_refl _)
    have unwritten : (tested.forkTail test span).Writes first later later := .refl _ _ _
    have preparedSwitch : block.Prepared (first.switchTail tested span) scope later :=
      (preparedFork.after_builds holds fitsConsequent unwritten).of_locals_eq rfl (Nat.le_refl _)
    have branch := tidyFails built scope later preparedSwitch fitsAlternative
    rw [switchTail, size_emit] at branch
    exact branch.mono fun _ _ finished => finished.shows.elim

end Branches

theorem tidy_of_builds (once : forall label, occurrences label block.nodes <= 1)
    (builds : Builds construction draft after) : block.Tidy construction draft after := by
  induction builds with
  | none => exact tidy_none
  | more first others ihFirst ihOthers => exact tidy_more first others ihFirst ihOthers
  | var found => exact tidy_var found
  | abs free found _ _ => exact tidy_abs free found
  | combine combines builds ih => exact tidy_combine combines builds ih
  | letIn bound builds ihBound ih | tailLetIn bound builds ihBound ih =>
      apply tidy_letIn bound builds ihBound ih
      · intro scope fits
        rcases Term.FitsScope.letIn fits with ⟨fresh, definition, inner⟩
        exact ⟨⟨fresh, definition⟩, inner⟩
      · intro later shows
        exact shows
  | group _ ih | tailGroup _ ih =>
      intro built scope written prepared fits
      apply (ih built scope written prepared (Term.FitsScope.group fits)).mono
      rintro _ later ⟨rfl, writes, shows⟩
      exact ⟨rfl, writes, shows⟩
  | cond tests holds fails ihTests ihHolds ihFails =>
      exact tidy_cond once tests holds fails ihTests ihHolds ihFails
  | bindPlain plain _ ih => exact tidy_bindPlain plain ih
  | bindRecursive _ builds ih => exact tidy_bindRecursive builds ih
  | leave _ _ ih => exact tidy_leave ih
  | tailCall _ ih => exact tidy_tailCall ih
  | tailCond tests holds fails ihTests ihHolds ihFails =>
      exact tidy_tailCond once tests holds fails ihTests ihHolds ihFails

end Stages

end Block
end StrictLambda
