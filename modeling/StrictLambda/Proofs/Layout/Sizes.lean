import StrictLambda.Program.OfBlock
import StrictLambda.Proofs.Block.Interpreter
import StrictLambda.Proofs.Execution.Bind

/-!
# Sizes and positions

The address of a nested block is known before anything is laid out, because the room a block takes
does not depend on where it is put.  This module proves that the sizes computed in advance are those
of the layouts, and translates positions in a list of nodes into offsets in the code.
-/

namespace StrictLambda

def Node.blockCount : Node -> Nat
  | .function _ block _ _ => block.blockCount
  | _ => 0

namespace Block

/-!
## Sums over nodes
-/

def nestedLength : List Node -> Nat
  | [] => 0
  | node :: rest => node.bodySize + nestedLength rest

@[simp] theorem ownLength_nil : ownLength [] = 0 := rfl

@[simp] theorem ownLength_cons (node : Node) (rest : List Node) :
    ownLength (node :: rest) = node.codeLength + ownLength rest := rfl

@[simp] theorem ownLength_append (first second : List Node) :
    ownLength (first ++ second) = ownLength first + ownLength second := by
  induction first with
  | nil => simp
  | cons node rest ih => simp [ih, Nat.add_assoc]

@[simp] theorem nestedLength_nil : nestedLength [] = 0 := rfl

@[simp] theorem nestedLength_cons (node : Node) (rest : List Node) :
    nestedLength (node :: rest) = node.bodySize + nestedLength rest := rfl

@[simp] theorem nestedLength_append (first second : List Node) :
    nestedLength (first ++ second) = nestedLength first + nestedLength second := by
  induction first with
  | nil => simp
  | cons node rest ih => simp [ih, Nat.add_assoc]

@[simp] theorem nestedCount_nil : nestedCount [] = 0 := by
  rw [nestedCount]

@[simp] theorem nestedCount_cons (node : Node) (rest : List Node) :
    nestedCount (node :: rest) = node.blockCount + nestedCount rest := by
  cases node <;> simp [nestedCount, Node.blockCount]

@[simp] theorem nestedCount_append (first second : List Node) :
    nestedCount (first ++ second) = nestedCount first + nestedCount second := by
  induction first with
  | nil => simp
  | cons node rest ih =>
      simp only [List.cons_append, nestedCount_cons, ih]
      omega

theorem nodesCodeSize_eq (nodes : List Node) :
    nodesCodeSize nodes = ownLength nodes + nestedLength nodes := by
  induction nodes with
  | nil => rfl
  | cons node rest ih =>
      cases node <;>
        simp only [nodesCodeSize, ownLength_cons, nestedLength_cons, ih, Node.codeLength,
          Node.bodySize] <;>
        omega

/-!
## Lengths of layouts
-/

theorem length_of_place_node {labels : Label -> Option Address} {blame : Span}
    {frontier : Frontier} {node : Node} {code : List (Instruction × Span)}
    (placed : node.place labels blame frontier = .ok code) : code.length = node.codeLength := by
  cases node with
  | operation action span =>
      cases placed
      rfl
  | function dest body captures span =>
      simp only [Node.place] at placed
      split at placed
      · cases placed
        rfl
      · cases placed
  | data dest type tag fields span =>
      cases placed
      rfl
  | dataType dest declaration span =>
      cases placed
      rfl
  | jump target span =>
      rcases bind_eq_ok_iff.mp placed with ⟨address, _, last⟩
      cases last
      rfl
  | jumpUnless condition target span =>
      rcases bind_eq_ok_iff.mp placed with ⟨address, _, last⟩
      cases last
      rfl
  | label label span =>
      cases placed
      rfl

theorem length_of_placeNodes {labels : Label -> Option Address} {blame : Span}
    {frontier : Frontier} {nodes : List Node} {code : List (Instruction × Span)}
    (placed : placeNodes labels blame frontier nodes = .ok code) :
    code.length = ownLength nodes := by
  induction nodes generalizing frontier code with
  | nil =>
      cases placed
      rfl
  | cons node rest ih =>
      rcases bind_eq_ok_iff.mp placed with ⟨own, hown, placed⟩
      rcases bind_eq_ok_iff.mp placed with ⟨others, hothers, last⟩
      cases last
      rw [List.length_append, length_of_place_node hown, ih hothers, ownLength_cons]

theorem placeOwn_eq_ok_iff {frontier : Frontier} {block : Block} {layout : Layout} :
    placeOwn frontier block = .ok layout ↔
      block.isTerminated = true ∧
        exists code,
          placeNodes (fun label => labelAddress? label frontier.code block.nodes) block.span
            { frontier with code := frontier.code + ownLength block.nodes } block.nodes =
              .ok code ∧
          layout =
            { code := code
              operands := block.nodes.flatMap Node.operands
              declarations := block.nodes.flatMap Node.declarations
              blocks := [⟨⟨frontier.code⟩, ownLength block.nodes, block.frameSize⟩] } := by
  unfold placeOwn
  constructor
  · intro placed
    split at placed
    · next terminated =>
        rcases bind_eq_ok_iff.mp placed with ⟨code, hcode, last⟩
        cases last
        exact ⟨terminated, code, hcode, rfl⟩
    · cases placed
  · intro parts
    rcases parts with ⟨terminated, code, hcode, rfl⟩
    rw [if_pos terminated]
    exact bind_eq_ok_iff.mpr ⟨code, hcode, rfl⟩

theorem length_of_placeOwn {frontier : Frontier} {block : Block} {layout : Layout}
    (placed : placeOwn frontier block = .ok layout) :
    layout.code.length = ownLength block.nodes ∧ layout.blocks.length = 1 := by
  rcases placeOwn_eq_ok_iff.mp placed with ⟨_, code, hcode, rfl⟩
  exact ⟨length_of_placeNodes hcode, rfl⟩

theorem place_eq_ok_iff {frontier : Frontier} {block : Block} {layout : Layout} :
    place frontier block = .ok layout ↔
      exists own nested, placeOwn frontier block = .ok own ∧
        placeNested (own.finish frontier) block.nodes = .ok nested ∧
        layout = own.append nested := by
  cases block with
  | mk parameters nodes span =>
      rw [place]
      constructor
      · intro placed
        rcases bind_eq_ok_iff.mp placed with ⟨own, hown, placed⟩
        rcases bind_eq_ok_iff.mp placed with ⟨nested, hnested, last⟩
        cases last
        exact ⟨own, nested, hown, hnested, rfl⟩
      · intro parts
        rcases parts with ⟨own, nested, hown, hnested, rfl⟩
        exact bind_eq_ok_iff.mpr ⟨own, hown, bind_eq_ok_iff.mpr ⟨nested, hnested, rfl⟩⟩

theorem placeNested_function_eq_ok_iff {frontier : Frontier} {dest : Register} {block : Block}
    {captures : List Register} {span : Span} {rest : List Node} {layout : Layout} :
    placeNested frontier (.function dest block captures span :: rest) = .ok layout ↔
      exists first others, place frontier block = .ok first ∧
        placeNested (first.finish frontier) rest = .ok others ∧
        layout = first.append others := by
  rw [placeNested]
  constructor
  · intro placed
    rcases bind_eq_ok_iff.mp placed with ⟨first, hfirst, placed⟩
    rcases bind_eq_ok_iff.mp placed with ⟨others, hothers, last⟩
    cases last
    exact ⟨first, others, hfirst, hothers, rfl⟩
  · intro parts
    rcases parts with ⟨first, others, hfirst, hothers, rfl⟩
    exact bind_eq_ok_iff.mpr ⟨first, hfirst, bind_eq_ok_iff.mpr ⟨others, hothers, rfl⟩⟩

mutual

theorem length_of_place : (block : Block) -> {frontier : Frontier} -> {layout : Layout} ->
    place frontier block = .ok layout ->
      layout.code.length = block.codeSize ∧ layout.blocks.length = block.blockCount
  | .mk parameters nodes span, _, _, placed => by
      rcases place_eq_ok_iff.mp placed with ⟨own, nested, hown, hnested, rfl⟩
      have hownLength : own.code.length = ownLength nodes ∧ own.blocks.length = 1 :=
        length_of_placeOwn hown
      have hnestedLength := length_of_placeNested nodes hnested
      simp only [Layout.append, List.length_append, codeSize, blockCount, nodesCodeSize_eq,
        hownLength, hnestedLength]
      exact ⟨trivial, Nat.add_comm 1 _⟩

theorem length_of_placeNested : (nodes : List Node) -> {frontier : Frontier} ->
    {layout : Layout} -> placeNested frontier nodes = .ok layout ->
      layout.code.length = nestedLength nodes ∧ layout.blocks.length = nestedCount nodes
  | [], _, _, placed => by
      cases placed
      exact ⟨rfl, nestedCount_nil.symm⟩
  | node :: rest, frontier, layout, placed => by
      cases node with
      | function dest block captures span =>
          rcases placeNested_function_eq_ok_iff.mp placed with
            ⟨first, others, hfirst, hothers, rfl⟩
          have hfirstLength := length_of_place block hfirst
          have hothersLength := length_of_placeNested rest hothers
          simp [Layout.append, Node.bodySize, Node.blockCount, hfirstLength, hothersLength]
      | operation | data | dataType | jump | jumpUnless | label =>
          simpa [Node.bodySize, Node.blockCount] using length_of_placeNested rest placed

end

/-!
## Properties of whole layouts
-/

/-- The property holds of the instructions of each block, and of two stretches of a program together
if it holds of both. -/
structure Composes (Kept : Frontier -> Layout -> Prop) : Prop where
  empty : forall frontier, Kept frontier .empty
  own : forall {frontier block layout}, placeOwn frontier block = .ok layout ->
    Kept frontier layout
  append : forall {frontier first second}, Kept frontier first ->
    Kept (first.finish frontier) second -> Kept frontier (first.append second)

mutual

theorem Composes.of_place {Kept : Frontier -> Layout -> Prop} (composes : Composes Kept) :
    (block : Block) -> {frontier : Frontier} -> {layout : Layout} ->
      place frontier block = .ok layout -> Kept frontier layout
  | .mk parameters nodes span, _, _, placed => by
      rcases place_eq_ok_iff.mp placed with ⟨first, nested, placedOwn, placedNested, rfl⟩
      exact composes.append (composes.own placedOwn) (composes.of_placeNested nodes placedNested)

theorem Composes.of_placeNested {Kept : Frontier -> Layout -> Prop} (composes : Composes Kept) :
    (nodes : List Node) -> {frontier : Frontier} -> {layout : Layout} ->
      placeNested frontier nodes = .ok layout -> Kept frontier layout
  | [], frontier, _, placed => by
      cases placed
      exact composes.empty frontier
  | node :: rest, frontier, layout, placed => by
      cases node with
      | function dest block captures span =>
          rcases placeNested_function_eq_ok_iff.mp placed with
            ⟨first, others, placedFirst, placedOthers, rfl⟩
          exact composes.append (composes.of_place block placedFirst)
            (composes.of_placeNested rest placedOthers)
      | operation | data | dataType | jump | jumpUnless | label =>
          exact composes.of_placeNested rest placed

end

/-!
## Labels
-/

theorem exists_labelPosition? {label : Label} {labelSpan : Span} {nodes : List Node}
    (stands : Node.label label labelSpan ∈ nodes) :
    exists position, labelPosition? label nodes = some position := by
  induction nodes with
  | nil => cases stands
  | cons node rest ih =>
      rw [labelPosition?]
      cases later : labelPosition? label rest with
      | some position => exact ⟨position + 1, rfl⟩
      | none =>
          rcases List.mem_cons.mp stands with rfl | inside
          · exact ⟨0, if_pos (by simp [Node.marks])⟩
          · rcases ih inside with ⟨position, found⟩
            rw [later] at found
            cases found

theorem not_mem_of_labelPosition?_eq_none {label : Label} {nodes : List Node}
    (missing : labelPosition? label nodes = none) (span : Span) :
    Node.label label span ∉ nodes := by
  intro stands
  rcases exists_labelPosition? stands with ⟨position, found⟩
  rw [missing] at found
  cases found

theorem exists_split_of_labelPosition? {label : Label} {nodes : List Node} {position : Nat}
    (stands : labelPosition? label nodes = some position) :
    exists span after, nodes = nodes.take position ++ .label label span :: after ∧
      forall other, Node.label label other ∉ after := by
  induction nodes generalizing position with
  | nil => cases stands
  | cons node rest ih =>
      rw [labelPosition?] at stands
      split at stands
      · next later found =>
          cases stands
          rcases ih found with ⟨span, after, whole, last⟩
          exact ⟨span, after, congrArg (node :: ·) whole, last⟩
      · next missing =>
          split at stands
          · next marks =>
              cases stands
              cases node with
              | label own span =>
                  rw [Node.marks, decide_eq_true_eq] at marks
                  rw [marks]
                  exact ⟨span, rest, rfl, not_mem_of_labelPosition?_eq_none missing⟩
              | operation | function | data | dataType | jump | jumpUnless => cases marks
          · cases stands

theorem mem_of_labelPosition? {label : Label} {nodes : List Node} {position : Nat}
    (stands : labelPosition? label nodes = some position) :
    exists labelSpan, Node.label label labelSpan ∈ nodes := by
  rcases exists_split_of_labelPosition? stands with ⟨span, after, whole, _⟩
  rw [whole]
  exact ⟨span, List.mem_append_right _ List.mem_cons_self⟩

theorem labelPosition?_lt {label : Label} {nodes : List Node} {position : Nat}
    (stands : labelPosition? label nodes = some position) : position < nodes.length := by
  rcases exists_split_of_labelPosition? stands with ⟨span, after, whole, _⟩
  have length := congrArg List.length whole
  rw [List.length_append, List.length_take, List.length_cons] at length
  omega

theorem labelAddress?_cons (label : Label) (start : Nat) (node : Node) (rest : List Node) :
    labelAddress? label start (node :: rest) =
      match labelAddress? label (start + node.codeLength) rest with
      | some address => some address
      | none => if node.marks label then some ⟨start⟩ else none := by
  cases node with
  | label name span =>
      cases found : labelAddress? label start rest with
      | none => simp [labelAddress?, Node.codeLength, Node.marks, found]
      | some address => simp [labelAddress?, Node.codeLength, found]
  | operation | function | data | dataType | jump | jumpUnless =>
      simp only [labelAddress?, Node.marks]
      cases labelAddress? label _ rest <;> simp

theorem labelAddress?_eq (label : Label) (start : Nat) (nodes : List Node) :
    labelAddress? label start nodes =
      (labelPosition? label nodes).map fun position =>
        (⟨start + ownLength (nodes.take position)⟩ : Address) := by
  induction nodes generalizing start with
  | nil => rfl
  | cons node rest ih =>
      rw [labelAddress?_cons, labelPosition?, ih]
      cases labelPosition? label rest with
      | some position => simp [Nat.add_assoc]
      | none =>
          dsimp only [Option.map_none]
          split <;> simp

theorem resolveLabel_eq_ok_iff {target : Label} {start : Nat} {nodes : List Node} {blame : Span}
    {address : Address} :
    resolveLabel (fun label => labelAddress? label start nodes) blame target = .ok address ↔
      exists goal, labelPosition? target nodes = some goal ∧
        address = ⟨start + ownLength (nodes.take goal)⟩ := by
  unfold resolveLabel
  simp only [labelAddress?_eq]
  cases labelPosition? target nodes with
  | none => simp
  | some goal =>
      simp only [Option.map_some, Except.ok.injEq, Option.some.injEq, exists_eq_left']
      exact eq_comm

end Block
end StrictLambda
