import StrictLambda.Proofs.Layout.Acceptance
import StrictLambda.Proofs.Layout.Bodies

/-!
# Which defect is reported

More than one thing can be wrong with a tree, in one block or in several, and only one of them is
reported.  All defects of a tree can be listed in one order, and what is reported is the first of
that list: a block in front of the blocks nested in it, its missing end in front of its nodes, and
the nodes as they stand.
-/

namespace StrictLambda

/-!
## Reporting the first failure
-/

/-- The outcome is a failure exactly if the list has one, and then it is the first of the list. -/
def Reports {Result : Type} (outcome : Except Failure Result) (failures : List Failure) : Prop :=
  forall failure, outcome = .error failure ↔ failures.head? = some failure

namespace Reports

variable {Result Other : Type} {outcome : Except Failure Result}
  {rest : Result -> Except Failure Other} {early late : List Failure}

theorem ok (result : Result) : Reports (.ok result) [] := by
  intro failure
  constructor <;> exact fun impossible => nomatch impossible

theorem error (failure : Failure) (others : List Failure) :
    Reports (.error failure : Except Failure Result) (failure :: others) := by
  intro other
  rw [List.head?_cons, Except.error.injEq, Option.some.injEq]

theorem exists_ok_iff (reports : Reports outcome early) :
    (exists result, outcome = .ok result) ↔ early = [] := by
  cases early with
  | nil =>
      cases outcome with
      | ok result => exact ⟨fun _ => rfl, fun _ => ⟨result, rfl⟩⟩
      | error failure => cases (reports failure).mp rfl
  | cons first others =>
      constructor
      · intro accepted
        rcases accepted with ⟨result, rfl⟩
        cases (reports first).mpr rfl
      · intro none
        cases none

theorem bind (first : Reports outcome early)
    (second : forall result, outcome = .ok result -> Reports (rest result) late) :
    Reports (outcome >>= rest) (early ++ late) := by
  cases outcome with
  | ok result =>
      have none : early = [] := first.exists_ok_iff.mp ⟨result, rfl⟩
      rw [none]
      exact second result rfl
  | error failure =>
      intro other
      have reported : early.head? = some failure := (first failure).mp rfl
      rw [List.head?_append, reported]
      exact error failure [] other

theorem map (first : Reports outcome early) (finish : Result -> Other) :
    Reports (outcome >>= fun result => .ok (finish result)) early := by
  have whole := first.bind fun result _ => ok (finish result)
  rw [List.append_nil] at whole
  exact whole

end Reports

/-!
## Defects
-/

/-- What is wrong with one node of a block that has the given nodes.  A label that the block does
not have is blamed on the block. -/
def Node.defects (nodes : List Node) (blame : Span) : Node -> List Failure
  | .function _ body captures span =>
      if body.parameters = captures.length + 1 then
        []
      else
        [.defect (.captureCount (body.parameters - 1) captures.length) (some span)]
  | .jump target _ | .jumpUnless _ target _ =>
      if nodes.any fun node => node.marks target then
        []
      else
        [.defect (.unknownLabel target) (some blame)]
  | _ => []

namespace Block

def ownDefects (block : Block) : List Failure :=
  (if block.isTerminated then [] else [.defect .unterminatedBlock (some block.span)]) ++
    block.nodes.flatMap (Node.defects block.nodes block.span)

/-- What is wrong with the blocks of a tree, in the order in which they are laid out: each block is
followed by the blocks of the functions it creates, each of them with everything nested in it. -/
def defects (tree : Block) : List Failure :=
  tree.bodies.flatMap ownDefects

/-- Control cannot run out of the block, its jumps name labels of its own, and the functions it
creates get the captures they take. -/
structure WellFormed (block : Block) : Prop where
  terminated : exists action span,
    block.nodes.getLast? = some (.operation action span) ∧ action.isTerminator = true
  targets : forall node target, node ∈ block.nodes -> node.target? = some target ->
    exists labelSpan, Node.label target labelSpan ∈ block.nodes
  captures : forall dest body sources nodeSpan,
    Node.function dest body sources nodeSpan ∈ block.nodes ->
      body.parameters = sources.length + 1

theorem any_marks_iff {nodes : List Node} {label : Label} :
    (nodes.any fun node => node.marks label) = true ↔
      exists labelSpan, Node.label label labelSpan ∈ nodes := by
  rw [List.any_eq_true]
  constructor
  · intro found
    rcases found with ⟨node, member, marks⟩
    cases node with
    | label name span =>
        have same : name = label := by simpa [Node.marks] using marks
        exact ⟨span, same ▸ member⟩
    | operation | function | data | dataType | jump | jumpUnless => cases marks
  · intro stands
    rcases stands with ⟨span, member⟩
    exact ⟨_, member, by simp [Node.marks]⟩

theorem isTerminated_iff {block : Block} :
    block.isTerminated = true ↔
      exists action span,
        block.nodes.getLast? = some (.operation action span) ∧ action.isTerminator = true := by
  rw [isTerminated]
  cases block.nodes.getLast? with
  | none => simp
  | some last =>
      cases last with
      | operation action span => simp [Node.isTerminator]
      | function | data | dataType | jump | jumpUnless | label => simp [Node.isTerminator]

theorem nodeDefects_eq_nil_iff {nodes : List Node} {blame : Span} {node : Node} :
    node.defects nodes blame = [] ↔
      (forall target, node.target? = some target ->
        exists labelSpan, Node.label target labelSpan ∈ nodes) ∧
      forall dest body sources nodeSpan, node = .function dest body sources nodeSpan ->
        body.parameters = sources.length + 1 := by
  cases node with
  | operation | data | dataType | label => simp [Node.defects, Node.target?]
  | function dest body sources span =>
      rw [Node.defects]
      constructor
      · intro none
        refine ⟨fun target jumps => (nomatch jumps), ?_⟩
        intro _ _ _ _ same
        cases same
        by_contra other
        rw [if_neg other] at none
        cases none
      · intro sound
        exact if_pos (sound.2 dest body sources span rfl)
  | jump target span | jumpUnless condition target span =>
      simp [Node.defects, Node.target?, ← any_marks_iff]

theorem ownDefects_eq_nil_iff {block : Block} : block.ownDefects = [] ↔ block.WellFormed := by
  rw [ownDefects, List.append_eq_nil_iff, List.flatMap_eq_nil_iff]
  constructor
  · rintro ⟨ends, sound⟩
    have each := fun node member => nodeDefects_eq_nil_iff.mp (sound node member)
    constructor
    case terminated => exact isTerminated_iff.mp (by simpa using ends)
    case targets => exact fun node target member => (each node member).1 target
    case captures =>
      intro dest body sources span member
      exact (each _ member).2 dest body sources span rfl
  · intro wellFormed
    constructor
    · rw [isTerminated_iff.mpr wellFormed.terminated, if_pos rfl]
    · intro node member
      apply nodeDefects_eq_nil_iff.mpr
      constructor
      · exact fun target => wellFormed.targets node target member
      · intro dest body sources span same
        exact wellFormed.captures dest body sources span (same ▸ member)

/-!
## The layout reports the first defect
-/

theorem reports_resolveLabel (target : Label) (start : Nat) (nodes : List Node) (blame : Span) :
    Reports (resolveLabel (fun label => labelAddress? label start nodes) blame target)
      (if nodes.any fun node => node.marks target then []
        else [.defect (.unknownLabel target) (some blame)]) := by
  split
  · next stands =>
      rcases any_marks_iff.mp stands with ⟨labelSpan, member⟩
      rcases exists_labelPosition? member with ⟨position, found⟩
      rw [resolveLabel_eq_ok_iff.mpr ⟨position, found, rfl⟩]
      exact .ok _
  · next missing =>
      have nowhere : labelPosition? target nodes = none := by
        cases found : labelPosition? target nodes with
        | none => rfl
        | some position => exact absurd (any_marks_iff.mpr (mem_of_labelPosition? found)) missing
      rw [resolveLabel, labelAddress?_eq, nowhere]
      exact .error _ []

theorem reports_place_node (start : Nat) (nodes : List Node) (blame : Span) (frontier : Frontier)
    (node : Node) :
    Reports (node.place (fun label => labelAddress? label start nodes) blame frontier)
      (node.defects nodes blame) := by
  cases node with
  | operation | data | dataType | label => exact .ok _
  | function dest body captures span =>
      rw [Node.place, Node.defects]
      split
      · exact .ok _
      · exact .error _ []
  | jump target span | jumpUnless condition target span =>
      exact (reports_resolveLabel target start nodes blame).map _

theorem reports_placeNodes {labels : Label -> Option Address} {nodes : List Node} {blame : Span}
    (each : forall (node : Node) frontier, Reports (node.place labels blame frontier)
      (node.defects nodes blame)) (own : List Node) (frontier : Frontier) :
    Reports (placeNodes labels blame frontier own) (own.flatMap (Node.defects nodes blame)) := by
  induction own generalizing frontier with
  | nil => exact .ok []
  | cons node rest ih =>
      rw [List.flatMap_cons]
      exact (each node frontier).bind fun code _ => (ih (frontier.past node)).map _

theorem reports_placeOwn (block : Block) (frontier : Frontier) :
    Reports (placeOwn frontier block) block.ownDefects := by
  rw [placeOwn, ownDefects]
  split
  · rw [List.nil_append]
    exact (reports_placeNodes (fun node position =>
      reports_place_node frontier.code block.nodes block.span position node) _ _).map _
  · exact .error _ _

mutual

theorem reports_place : (block : Block) -> (frontier : Frontier) ->
    Reports (place frontier block) block.defects
  | .mk parameters nodes span, frontier => by
      rw [place, defects, bodies, List.flatMap_cons]
      exact (reports_placeOwn (.mk parameters nodes span) frontier).bind fun own _ =>
        (reports_placeNested nodes (own.finish frontier)).map _

theorem reports_placeNested : (nodes : List Node) -> (frontier : Frontier) ->
    Reports (placeNested frontier nodes) ((nestedBodies nodes).flatMap ownDefects)
  | [], _ => Reports.ok Layout.empty
  | .function _ body _ _ :: rest, frontier => by
      rw [placeNested, nestedBodies, List.flatMap_append]
      exact (reports_place body frontier).bind fun first _ =>
        (reports_placeNested rest (first.finish frontier)).map _
  | .operation .. :: rest, frontier | .data .. :: rest, frontier | .dataType .. :: rest, frontier
  | .jump .. :: rest, frontier | .jumpUnless .. :: rest, frontier | .label .. :: rest, frontier =>
      reports_placeNested rest frontier

end

end Block

/-- A tree is laid out exactly if each of its blocks is well-formed; otherwise the first of its
defects is reported. -/
theorem Program.ofBlock_reports_first_defect (tree : Block) :
    ((exists program, ofBlock tree = .ok program) ↔
        forall block, block ∈ tree.bodies -> block.WellFormed) ∧
      forall failure, ofBlock tree = .error failure ↔ tree.defects.head? = some failure := by
  have reports : Reports (ofBlock tree) tree.defects := (Block.reports_place tree .start).map _
  constructor
  · rw [reports.exists_ok_iff, Block.defects, List.flatMap_eq_nil_iff]
    constructor
    · intro none block member
      exact Block.ownDefects_eq_nil_iff.mp (none block member)
    · intro wellFormed block member
      exact Block.ownDefects_eq_nil_iff.mpr (wellFormed block member)
  · exact reports

end StrictLambda
