import StrictLambda.Proofs.Layout.Placement

/-!
# Ranges of the tables

Instructions refer to the tables of a program by ranges.  In the order of the code these ranges
follow one another, each beginning where the one before it ended, so that together they cover the
tables.
-/

namespace StrictLambda

def Consecutive : Nat -> List Segment -> Nat -> Prop
  | start, [], stop => start = stop
  | start, segment :: rest, stop =>
      segment.start = start ∧ Consecutive (start + segment.length) rest stop

theorem Consecutive.append {start middle stop : Nat} {first second : List Segment}
    (before : Consecutive start first middle) (after : Consecutive middle second stop) :
    Consecutive start (first ++ second) stop := by
  induction first generalizing start with
  | nil =>
      cases before
      exact after
  | cons segment rest ih => exact ⟨before.1, ih before.2⟩

namespace Instruction

def operandRange? : Instruction -> Option Segment
  | function _ _ captures => some captures
  | data _ _ _ fields => some fields
  | _ => none

def declarationRange? : Instruction -> Option Segment
  | dataType _ index => some ⟨index, 1⟩
  | _ => none

end Instruction

structure Refers (frontier after : Frontier) (code : List (Instruction × Span)) : Prop where
  operands : Consecutive frontier.operands
    ((code.map Prod.fst).filterMap Instruction.operandRange?) after.operands
  declarations : Consecutive frontier.declarations
    ((code.map Prod.fst).filterMap Instruction.declarationRange?) after.declarations

theorem Refers.append {frontier middle after : Frontier} {first second : List (Instruction × Span)}
    (before : Refers frontier middle first) (behind : Refers middle after second) :
    Refers frontier after (first ++ second) := by
  constructor
  · rw [List.map_append, List.filterMap_append]
    exact before.operands.append behind.operands
  · rw [List.map_append, List.filterMap_append]
    exact before.declarations.append behind.declarations

namespace Block

theorem refers_of_place_node {labels : Label -> Option Address} {blame : Span}
    {frontier : Frontier} {node : Node} {code : List (Instruction × Span)}
    (placed : node.place labels blame frontier = .ok code) :
    Refers frontier (frontier.past node) code := by
  cases node with
  | operation | label =>
      cases placed
      exact ⟨rfl, rfl⟩
  | function dest body captures span =>
      rw [Node.place] at placed
      split at placed
      · cases placed
        exact ⟨⟨rfl, rfl⟩, rfl⟩
      · cases placed
  | data =>
      cases placed
      exact ⟨⟨rfl, rfl⟩, rfl⟩
  | dataType =>
      cases placed
      exact ⟨rfl, ⟨rfl, rfl⟩⟩
  | jump target span | jumpUnless condition target span =>
      rcases bind_eq_ok_iff.mp placed with ⟨address, _, last⟩
      cases last
      exact ⟨rfl, rfl⟩

theorem refers_of_placeNodes {labels : Label -> Option Address} {blame : Span}
    {frontier : Frontier} {nodes : List Node} {code : List (Instruction × Span)}
    (placed : placeNodes labels blame frontier nodes = .ok code) :
    Refers frontier (pastAll frontier nodes) code := by
  induction nodes generalizing frontier code with
  | nil =>
      cases placed
      exact ⟨rfl, rfl⟩
  | cons node rest ih =>
      rcases bind_eq_ok_iff.mp placed with ⟨own, here, placed⟩
      rcases bind_eq_ok_iff.mp placed with ⟨others, later, last⟩
      cases last
      exact (refers_of_place_node here).append (ih later)

theorem refers_of_placeOwn {frontier : Frontier} {block : Block} {layout : Layout}
    (placed : placeOwn frontier block = .ok layout) :
    Refers frontier (layout.finish frontier) layout.code := by
  rcases placeOwn_eq_ok_iff.mp placed with ⟨_, code, placedNodes, rfl⟩
  have refers := refers_of_placeNodes placedNodes
  rw [pastAll_eq] at refers
  exact ⟨refers.operands, refers.declarations⟩

theorem composes_refers :
    Composes fun frontier layout => Refers frontier (layout.finish frontier) layout.code where
  empty _ := ⟨rfl, rfl⟩
  own := refers_of_placeOwn
  append := by
    intro frontier first second before behind
    have same :
        (first.append second).finish frontier = second.finish (first.finish frontier) := by
      simp [Layout.append, Layout.finish, Nat.add_assoc]
    rw [same]
    exact before.append behind

end Block

theorem Program.refers_of_ofBlock {tree : Block} {program : Program}
    (accepted : ofBlock tree = .ok program) :
    Consecutive 0 (program.code.toList.filterMap Instruction.operandRange?)
        program.operands.size ∧
      Consecutive 0 (program.code.toList.filterMap Instruction.declarationRange?)
        program.declarations.size := by
  rcases ofBlock_eq_ok_iff.mp accepted with ⟨layout, placed, rfl⟩
  have refers := Block.composes_refers.of_place tree placed
  have operands := refers.operands
  have declarations := refers.declarations
  simp only [Layout.finish, Frontier.start, Nat.zero_add] at operands declarations
  exact ⟨operands, declarations⟩

end StrictLambda
