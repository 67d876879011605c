import StrictLambda.Proofs.Layout.Placement

/-!
# Blocks tile the code

The blocks of a program lie one behind the other, without gaps and without overlaps.  So the block
found at an address is the one the address was made from.
-/

namespace StrictLambda

theorem Placement.contains_iff {placement : Placement} {address : Address} :
    placement.contains address = true ↔
      placement.start.index <= address.index ∧
        address.index < placement.start.index + placement.length := by
  unfold contains
  rw [Bool.and_eq_true, decide_eq_true_eq, decide_eq_true_eq]

/-- Each block of the list begins where the one before it ends, the first one at the given index. -/
def Tiles : Nat -> List Placement -> Prop
  | _, [] => True
  | start, placement :: rest =>
      placement.start.index = start ∧ Tiles (start + placement.length) rest

namespace Tiles

variable {start : Nat} {placements first second : List Placement}

def total : List Placement -> Nat
  | [] => 0
  | placement :: rest => placement.length + total rest

@[simp] theorem total_nil : total [] = 0 := rfl

@[simp] theorem total_cons (placement : Placement) (rest : List Placement) :
    total (placement :: rest) = placement.length + total rest := rfl

@[simp] theorem total_append (first second : List Placement) :
    total (first ++ second) = total first + total second := by
  induction first with
  | nil => simp
  | cons placement rest ih => simp [ih, Nat.add_assoc]

theorem append (tiles : Tiles start first) (behind : Tiles (start + total first) second) :
    Tiles start (first ++ second) := by
  induction first generalizing start with
  | nil => exact behind
  | cons placement rest ih =>
      refine ⟨tiles.1, ih tiles.2 ?_⟩
      rw [Nat.add_assoc]
      exact behind

theorem start_le {placement : Placement} {index : Nat} (tiles : Tiles start placements)
    (found : placements[index]? = some placement) : start <= placement.start.index := by
  induction placements generalizing start index with
  | nil => cases found
  | cons head rest ih =>
      cases index with
      | zero =>
          cases found
          exact Nat.le_of_eq tiles.1.symm
      | succ index => exact Nat.le_trans (Nat.le_add_right _ _) (ih tiles.2 found)

theorem end_le {placement : Placement} {index : Nat} (tiles : Tiles start placements)
    (found : placements[index]? = some placement) :
    placement.start.index + placement.length <= start + total placements := by
  induction placements generalizing start index with
  | nil => cases found
  | cons head rest ih =>
      rw [total_cons, ← Nat.add_assoc]
      cases index with
      | zero =>
          cases found
          rw [tiles.1]
          exact Nat.le_add_right _ _
      | succ index => exact ih tiles.2 found

theorem exists_contains {address : Address} (tiles : Tiles start placements)
    (above : start <= address.index) (below : address.index < start + total placements) :
    exists (index : Nat) (placement : Placement), placements[index]? = some placement ∧
      placement.contains address = true := by
  induction placements generalizing start with
  | nil =>
      rw [total_nil] at below
      omega
  | cons head rest ih =>
      by_cases inside : address.index < start + head.length
      · have own : head.contains address = true := by
          rw [Placement.contains_iff, tiles.1]
          exact ⟨above, inside⟩
        exact ⟨0, head, rfl, own⟩
      · rw [total_cons, ← Nat.add_assoc] at below
        rcases ih tiles.2 (Nat.le_of_not_lt inside) below with ⟨index, placement, found, own⟩
        exact ⟨index + 1, placement, found, own⟩

theorem index_unique {address : Address} {index other : Nat} {placement second : Placement}
    (tiles : Tiles start placements) (inside : placement.contains address = true)
    (insideOther : second.contains address = true) (found : placements[index]? = some placement)
    (foundOther : placements[other]? = some second) : index = other := by
  rw [Placement.contains_iff] at inside insideOther
  induction placements generalizing start index other with
  | nil => cases found
  | cons head rest ih =>
      have first := tiles.1
      cases index with
      | zero =>
          cases other with
          | zero => rfl
          | succ other =>
              cases found
              have behind := tiles.2.start_le foundOther
              omega
      | succ index =>
          cases other with
          | zero =>
              cases foundOther
              have behind := tiles.2.start_le found
              omega
          | succ other => exact congrArg (· + 1) (ih tiles.2 found foundOther)

theorem find?_eq {placement : Placement} {index : Nat} {address : Address}
    (tiles : Tiles start placements) (found : placements[index]? = some placement)
    (inside : placement.contains address = true) :
    placements.find? (fun placement => placement.contains address) = some placement := by
  induction placements generalizing start index with
  | nil => cases found
  | cons head rest ih =>
      cases index with
      | zero =>
          cases found
          rw [List.find?_cons, inside]
      | succ index =>
          have behind := tiles.2.start_le found
          have first := tiles.1
          have outside : head.contains address = false := by
            rw [← Bool.not_eq_true, Placement.contains_iff]
            rw [Placement.contains_iff] at inside
            omega
          rw [List.find?_cons, outside]
          exact ih tiles.2 found

end Tiles

namespace Block

theorem tiles_of_placeOwn {frontier : Frontier} {block : Block} {layout : Layout}
    (placed : placeOwn frontier block = .ok layout) :
    Tiles frontier.code layout.blocks ∧ Tiles.total layout.blocks = layout.code.length := by
  have length := (length_of_placeOwn placed).1
  rcases placeOwn_eq_ok_iff.mp placed with ⟨_, code, _, rfl⟩
  exact ⟨⟨rfl, trivial⟩, by simp only [Tiles.total_cons, Tiles.total_nil]; exact length.symm⟩

theorem composes_tiles : Composes fun frontier layout =>
    Tiles frontier.code layout.blocks ∧ Tiles.total layout.blocks = layout.code.length where
  empty _ := ⟨trivial, rfl⟩
  own := tiles_of_placeOwn
  append := by
    intro frontier first second tiles behind
    refine ⟨tiles.1.append ?_, ?_⟩
    · rw [tiles.2]
      exact behind.1
    · simp [Layout.append, tiles.2, behind.2]

theorem tiles_of_place (block : Block) {frontier : Frontier} {layout : Layout}
    (placed : place frontier block = .ok layout) :
    Tiles frontier.code layout.blocks ∧ Tiles.total layout.blocks = layout.code.length :=
  composes_tiles.of_place block placed

theorem ownLength_take_lt {nodes : List Node} {position : Nat} {node : Node}
    (found : nodes[position]? = some node) (emits : node.codeLength = 1) :
    ownLength (nodes.take position) < ownLength nodes := by
  induction nodes generalizing position with
  | nil => cases found
  | cons head rest ih =>
      cases position with
      | zero =>
          cases found
          rw [ownLength_cons, emits, List.take_zero, ownLength_nil]
          omega
      | succ position =>
          rw [List.take_succ_cons, ownLength_cons, ownLength_cons]
          have later := ih found
          omega

end Block

namespace Program

variable {program : Program} {body : Block.Body}

theorem tiles_of_ofBlock {tree : Block} (accepted : ofBlock tree = .ok program) :
    Tiles 0 program.blocks := by
  rcases ofBlock_eq_ok_iff.mp accepted with ⟨layout, placed, rfl⟩
  exact (Block.tiles_of_place tree placed).1

theorem total_of_ofBlock {tree : Block} (accepted : ofBlock tree = .ok program) :
    Tiles.total program.blocks = program.size := by
  rcases ofBlock_eq_ok_iff.mp accepted with ⟨layout, placed, rfl⟩
  unfold size
  rw [List.size_toArray, List.length_map]
  exact (Block.tiles_of_place tree placed).2

theorem Holds.blockOf?_eq (holds : program.Holds body) {start : Nat}
    (tiles : Tiles start program.blocks) {position : Nat} {node : Node}
    (found : body.block.nodes[position]? = some node) (emits : node.codeLength = 1) :
    exists placement, program.blockOf? (program.addressOf body position) = some placement ∧
      program.blocks[body.number]? = some placement ∧
      placement.frameSize = body.block.frameSize := by
  rcases holds with ⟨frontier, layout, placed, lies⟩
  have listed := placement_of_place placed lies
  refine ⟨_, tiles.find?_eq listed ?_, listed, rfl⟩
  have inside := Block.ownLength_take_lt found emits
  unfold addressOf
  rw [entryOf_of_place body placed lies, Placement.contains_iff]
  dsimp only
  omega

end Program
end StrictLambda
