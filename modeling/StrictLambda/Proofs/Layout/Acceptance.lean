import StrictLambda.Proofs.Layout.Sizes

/-!
# Trees that can be laid out

Three things can be wrong with a block: control may run out of it, a jump may name a label that the
block does not have, or a function may be created with another number of captures than its body
takes.  A tree is laid out if nothing is wrong with any of its blocks.
-/

namespace StrictLambda

namespace Block

inductive Acceptable : Block -> Prop where
  | mk {parameters : Nat} {nodes : List Node} {span : Span}
      (terminated : (Block.mk parameters nodes span).isTerminated = true)
      (targets : forall node target, node ∈ nodes -> node.target? = some target ->
        exists labelSpan, Node.label target labelSpan ∈ nodes)
      (captures : forall dest body sources nodeSpan,
        Node.function dest body sources nodeSpan ∈ nodes ->
          body.parameters = sources.length + 1)
      (nested : forall dest body sources nodeSpan,
        Node.function dest body sources nodeSpan ∈ nodes -> Acceptable body) :
      Acceptable (.mk parameters nodes span)

def FitsInto (nodes : List Node) : Node -> Prop
  | .function _ body sources _ => body.parameters = sources.length + 1 ∧ Acceptable body
  | .jump target _ => exists labelSpan, Node.label target labelSpan ∈ nodes
  | .jumpUnless _ target _ => exists labelSpan, Node.label target labelSpan ∈ nodes
  | _ => True

theorem acceptable_of_fitsInto {parameters : Nat} {nodes : List Node} {span : Span}
    (terminated : (Block.mk parameters nodes span).isTerminated = true)
    (fits : forall node, node ∈ nodes -> FitsInto nodes node) :
    Acceptable (.mk parameters nodes span) := by
  refine .mk terminated ?_ ?_ ?_
  · intro node target member jumps
    have here := fits node member
    cases node with
    | jump own nodeSpan | jumpUnless condition own nodeSpan =>
        cases jumps
        exact here
    | operation | function | data | dataType | label => cases jumps
  · intro dest body sources nodeSpan member
    exact (fits _ member).1
  · intro dest body sources nodeSpan member
    exact (fits _ member).2

theorem exists_placeNodes {labels : Label -> Option Address} {blame : Span} {nodes : List Node}
    (targets : forall node target, node ∈ nodes -> node.target? = some target ->
      exists address, resolveLabel labels blame target = .ok address)
    (captures : forall dest body sources nodeSpan,
      Node.function dest body sources nodeSpan ∈ nodes -> body.parameters = sources.length + 1)
    (frontier : Frontier) : exists code, placeNodes labels blame frontier nodes = .ok code := by
  induction nodes generalizing frontier with
  | nil => exact ⟨[], rfl⟩
  | cons node rest ih =>
      have own : exists code, node.place labels blame frontier = .ok code := by
        cases node with
        | operation | data | dataType | label => exact ⟨_, rfl⟩
        | function dest body sources span =>
            rw [Node.place, if_pos (captures dest body sources span List.mem_cons_self)]
            exact ⟨_, rfl⟩
        | jump target span | jumpUnless condition target span =>
            rcases targets _ target List.mem_cons_self rfl with ⟨address, resolved⟩
            rw [Node.place, resolved]
            exact ⟨_, rfl⟩
      rcases own with ⟨code, placed⟩
      rcases ih
          (fun other target member => targets other target (List.mem_cons_of_mem _ member))
          (fun dest body sources nodeSpan member =>
            captures dest body sources nodeSpan (List.mem_cons_of_mem _ member))
          (frontier.past node) with ⟨others, placedOthers⟩
      exact ⟨code ++ others,
        bind_eq_ok_iff.mpr ⟨code, placed, bind_eq_ok_iff.mpr ⟨others, placedOthers, rfl⟩⟩⟩

theorem exists_placeNested {nodes : List Node}
    (nested : forall dest body sources nodeSpan,
      Node.function dest body sources nodeSpan ∈ nodes ->
        forall frontier, exists layout, place frontier body = .ok layout)
    (frontier : Frontier) : exists layout, placeNested frontier nodes = .ok layout := by
  induction nodes generalizing frontier with
  | nil => exact ⟨.empty, rfl⟩
  | cons node rest ih =>
      have later := ih fun dest body sources nodeSpan member =>
        nested dest body sources nodeSpan (List.mem_cons_of_mem _ member)
      cases node with
      | function dest body sources span =>
          rcases nested dest body sources span List.mem_cons_self frontier with ⟨first, placed⟩
          rcases later (first.finish frontier) with ⟨others, placedOthers⟩
          exact ⟨_, placeNested_function_eq_ok_iff.mpr ⟨first, others, placed, placedOthers, rfl⟩⟩
      | operation | data | dataType | jump | jumpUnless | label => exact later frontier

theorem exists_place {block : Block} (acceptable : Acceptable block) (frontier : Frontier) :
    exists layout, place frontier block = .ok layout := by
  induction acceptable generalizing frontier with
  | @mk parameters nodes span terminated targets captures _ ih =>
      have resolved : forall node target, node ∈ nodes -> node.target? = some target ->
          exists address,
            resolveLabel (fun label => labelAddress? label frontier.code nodes) span target =
              .ok address := by
        intro node target member jumps
        rcases targets node target member jumps with ⟨labelSpan, stands⟩
        rcases exists_labelPosition? stands with ⟨position, found⟩
        exact ⟨_, resolveLabel_eq_ok_iff.mpr ⟨position, found, rfl⟩⟩
      rcases exists_placeNodes resolved captures
          { frontier with code := frontier.code + ownLength nodes } with ⟨code, placed⟩
      have own := placeOwn_eq_ok_iff.mpr ⟨terminated, code, placed, rfl⟩
      rcases exists_placeNested ih (Layout.finish _ frontier) with ⟨others, placedOthers⟩
      exact ⟨_, place_eq_ok_iff.mpr ⟨_, others, own, placedOthers, rfl⟩⟩

/-!
## Nothing else can be laid out
-/

theorem exists_place_of_placeNodes {labels : Label -> Option Address} {blame : Span}
    {frontier : Frontier} {nodes : List Node} {code : List (Instruction × Span)}
    (placed : placeNodes labels blame frontier nodes = .ok code) :
    forall node, node ∈ nodes ->
      exists own code, node.place labels blame own = .ok code := by
  induction nodes generalizing frontier code with
  | nil => exact List.forall_mem_nil _
  | cons node rest ih =>
      rcases bind_eq_ok_iff.mp placed with ⟨first, own, placed⟩
      rcases bind_eq_ok_iff.mp placed with ⟨others, later, _⟩
      exact List.forall_mem_cons.mpr ⟨⟨frontier, first, own⟩, ih later⟩

theorem acceptable_of_placeOwn {frontier : Frontier} {parameters : Nat} {nodes : List Node}
    {span : Span} {layout : Layout}
    (placed : placeOwn frontier (.mk parameters nodes span) = .ok layout)
    (nested : forall dest body sources nodeSpan,
      Node.function dest body sources nodeSpan ∈ nodes -> Acceptable body) :
    Acceptable (.mk parameters nodes span) := by
  rcases placeOwn_eq_ok_iff.mp placed with ⟨terminated, code, placedNodes, _⟩
  have each := exists_place_of_placeNodes placedNodes
  apply acceptable_of_fitsInto terminated
  intro node member
  rcases each node member with ⟨own, code, placedNode⟩
  cases node with
  | operation | data | dataType | label => exact trivial
  | function dest body sources nodeSpan =>
      rw [Node.place] at placedNode
      split at placedNode
      · next takes => exact ⟨takes, nested dest body sources nodeSpan member⟩
      · cases placedNode
  | jump target nodeSpan | jumpUnless condition target nodeSpan =>
      rcases bind_eq_ok_iff.mp placedNode with ⟨address, resolved, _⟩
      rcases resolveLabel_eq_ok_iff.mp resolved with ⟨position, stands, _⟩
      exact mem_of_labelPosition? stands

mutual

theorem acceptable_of_place : (block : Block) -> {frontier : Frontier} -> {layout : Layout} ->
    place frontier block = .ok layout -> Acceptable block
  | .mk parameters nodes span, _, _, placed => by
      rcases place_eq_ok_iff.mp placed with ⟨own, others, placedOwn, placedOthers, _⟩
      exact acceptable_of_placeOwn placedOwn (acceptable_of_placeNested nodes placedOthers)

theorem acceptable_of_placeNested : (nodes : List Node) -> {frontier : Frontier} ->
    {layout : Layout} -> placeNested frontier nodes = .ok layout ->
      forall dest body sources nodeSpan,
        Node.function dest body sources nodeSpan ∈ nodes -> Acceptable body
  | [], _, _, _ => by
      intro dest body sources nodeSpan member
      cases member
  | .function own block captures span :: rest, _, _, placed => by
      rcases placeNested_function_eq_ok_iff.mp placed with ⟨first, others, here, later, _⟩
      intro dest body sources nodeSpan member
      rcases List.mem_cons.mp member with same | member
      · cases same
        exact acceptable_of_place block here
      · exact acceptable_of_placeNested rest later dest body sources nodeSpan member
  | .operation .. :: rest, _, _, placed | .data .. :: rest, _, _, placed
  | .dataType .. :: rest, _, _, placed | .jump .. :: rest, _, _, placed
  | .jumpUnless .. :: rest, _, _, placed | .label .. :: rest, _, _, placed => by
      intro dest body sources nodeSpan member
      rcases List.mem_cons.mp member with same | member
      · cases same
      · exact acceptable_of_placeNested rest placed dest body sources nodeSpan member

end

end Block

theorem Program.exists_ofBlock {tree : Block} (acceptable : tree.Acceptable) :
    exists program, ofBlock tree = .ok program := by
  rcases Block.exists_place acceptable .start with ⟨layout, placed⟩
  exact ⟨_, bind_eq_ok_iff.mpr ⟨layout, placed, rfl⟩⟩

theorem Program.acceptable_of_ofBlock {tree : Block} {program : Program}
    (accepted : ofBlock tree = .ok program) : tree.Acceptable := by
  rcases bind_eq_ok_iff.mp accepted with ⟨layout, placed, _⟩
  exact Block.acceptable_of_place tree placed

theorem Program.size_of_ofBlock {tree : Block} {program : Program}
    (accepted : ofBlock tree = .ok program) : program.size = tree.codeSize := by
  rcases bind_eq_ok_iff.mp accepted with ⟨layout, placed, last⟩
  cases last
  simpa [Program.size] using (Block.length_of_place tree placed).1

end StrictLambda
