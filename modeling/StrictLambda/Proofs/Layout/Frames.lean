import StrictLambda.Machine.Stack
import StrictLambda.Proofs.Execution.Bind

/-!
# Frames on the slot stack

The stack is taken apart into the slots below the running frame, the header of that frame and its
registers.  In these terms every operation on the stack is an operation on a list of registers.
-/

namespace StrictLambda
namespace Stack

def slotOf : Option (Value Entry) -> Slot
  | none => .empty
  | some value => .value value

def frameSlots (saved : Nat) (address : Address) (registers : List (Option (Value Entry))) :
    List Slot :=
  .base saved :: .returnTo address :: registers.map slotOf

@[simp] theorem length_frameSlots (saved : Nat) (address : Address)
    (registers : List (Option (Value Entry))) :
    (frameSlots saved address registers).length = headerSize + registers.length := by
  simp [frameSlots, headerSize]
  omega

theorem getElem?_header (below : List Slot) (saved : Nat) (address : Address)
    (registers : List (Option (Value Entry))) :
    (below ++ frameSlots saved address registers)[below.length]? = some (.base saved) ∧
      (below ++ frameSlots saved address registers)[below.length + 1]? =
        some (.returnTo address) := by
  constructor
  · rw [List.getElem?_append_right (Nat.le_refl _), Nat.sub_self]
    rfl
  · rw [List.getElem?_append_right (Nat.le_add_right _ _), Nat.add_sub_cancel_left]
    rfl

theorem getElem?_behind_header (below : List Slot) (saved : Nat) (address : Address)
    (registers : List (Option (Value Entry))) (index : Nat) :
    (below ++ frameSlots saved address registers)[below.length + headerSize + index]? =
      (registers[index]?).map slotOf := by
  rw [Nat.add_assoc, List.getElem?_append_right (Nat.le_add_right _ _),
    Nat.add_sub_cancel_left]
  unfold frameSlots headerSize
  rw [show 2 + index = index + 1 + 1 by omega, List.getElem?_cons_succ,
    List.getElem?_cons_succ, List.getElem?_map]

/-- The stack consists of the slots below and of a frame with this header and these registers. -/
def HasTop (stack : Stack) (below : List Slot) (saved : Nat) (address : Address)
    (registers : List (Option (Value Entry))) : Prop :=
  stack.slots.toList = below ++ frameSlots saved address registers

variable {stack : Stack} {below : List Slot} {saved : Nat} {address : Address}
  {registers : List (Option (Value Entry))}

theorem size_of_hasTop (top : stack.HasTop below saved address registers) :
    stack.size = below.length + headerSize + registers.length := by
  unfold size
  rw [← Array.length_toList, top, List.length_append, length_frameSlots, Nat.add_assoc]

theorem getElem?_register (top : stack.HasTop below saved address registers)
    (register : Register) :
    stack.slots[below.length + headerSize + register.index]? =
      (registers[register.index]?).map slotOf := by
  rw [← Array.getElem?_toList, top]
  exact getElem?_behind_header below saved address registers register.index

theorem registerOutside_of_hasTop (top : stack.HasTop below saved address registers)
    (register : Register) :
    stack.registerOutside below.length register =
      .defect (.registerOutside register registers.length) none := by
  unfold registerOutside
  rw [size_of_hasTop top, Nat.add_sub_cancel_left]

theorem read_of_hasTop (top : stack.HasTop below saved address registers)
    (register : Register) :
    stack.read below.length register =
      match registers[register.index]? with
      | some (some value) => .ok value
      | some none => .error (.defect (.unwrittenRegister register) none)
      | none => .error (.defect (.registerOutside register registers.length) none) := by
  unfold read
  rw [getElem?_register top]
  cases registers[register.index]? with
  | none => exact congrArg Except.error (registerOutside_of_hasTop top register)
  | some content =>
      cases content with
      | none => rfl
      | some value => rfl

theorem write_of_hasTop_of_lt (top : stack.HasTop below saved address registers)
    {register : Register} (value : Value Entry) (inside : register.index < registers.length) :
    exists after, stack.write below.length register value = .ok after ∧
      after.HasTop below saved address (registers.set register.index (some value)) := by
  have fits : below.length + headerSize + register.index < stack.slots.size := by
    have size := size_of_hasTop top
    unfold Stack.size at size
    omega
  refine ⟨{ slots := stack.slots.set _ (.value value) fits }, ?_, ?_⟩
  · unfold write
    dsimp only
    rw [dif_pos fits]
  · unfold HasTop at top ⊢
    dsimp only
    rw [Array.toList_set, top, Nat.add_assoc,
      List.set_append_right _ _ (Nat.le_add_right _ _), Nat.add_sub_cancel_left]
    unfold frameSlots headerSize
    rw [show 2 + register.index = register.index + 1 + 1 by omega, List.set_cons_succ,
      List.set_cons_succ, List.map_set]
    rfl

theorem write_of_hasTop_of_not_lt (top : stack.HasTop below saved address registers)
    {register : Register} (value : Value Entry) (outside : ¬ register.index < registers.length) :
    stack.write below.length register value =
      .error (.defect (.registerOutside register registers.length) none) := by
  have fits : ¬ below.length + headerSize + register.index < stack.slots.size := by
    have size := size_of_hasTop top
    unfold Stack.size at size
    omega
  unfold write
  dsimp only
  rw [dif_neg fits, registerOutside_of_hasTop top]

theorem exists_hasTop_of_write (top : stack.HasTop below saved address registers)
    {register : Register} {value : Value Entry} {after : Stack}
    (written : stack.write below.length register value = .ok after) :
    exists others, after.HasTop below saved address others := by
  by_cases inside : register.index < registers.length
  · rcases write_of_hasTop_of_lt top value inside with ⟨stack, same, topAfter⟩
    cases written.symm.trans same
    exact ⟨_, topAfter⟩
  · rw [write_of_hasTop_of_not_lt top value inside] at written
    cases written

theorem header_of_hasTop (top : stack.HasTop below saved address registers) :
    stack.header below.length = .ok (saved, address) := by
  rcases getElem?_header below saved address registers with ⟨saves, returns⟩
  unfold header
  rw [← Array.getElem?_toList, ← Array.getElem?_toList, top, saves, returns]

theorem toList_truncate_of_hasTop (top : stack.HasTop below saved address registers) :
    (stack.truncate below.length).slots.toList = below := by
  unfold truncate
  dsimp only
  rw [Array.toList_shrink, top, List.take_left]

theorem toList_resize (slots : Array Slot) (size : Nat) :
    (resize slots size).toList =
      (slots.toList ++ List.replicate (size - slots.toList.length) Slot.empty).take size := by
  rw [Array.length_toList]
  unfold resize
  split
  · next cut =>
      rw [Nat.sub_eq_zero_of_le cut, List.replicate_zero, List.append_nil, Array.toList_shrink]
  · next grows =>
      rw [Array.toList_append, Array.toList_replicate, List.take_of_length_le]
      rw [List.length_append, Array.length_toList, List.length_replicate]
      omega

/-- The registers of a function that has just been entered: the argument, the captures, and empty
ones, as far as there is room for them. -/
def enteredRegisters (frameSize : Nat) (argument : Value Entry) (captures : List (Value Entry)) :
    List (Option (Value Entry)) :=
  (some argument :: captures.map some ++
    List.replicate (frameSize - (captures.length + 1)) none).take frameSize

theorem toList_foldl_push (captures : List (Value Entry)) (slots : Array Slot) :
    (captures.foldl (fun slots capture => slots.push (.value capture)) slots).toList =
      slots.toList ++ captures.map Slot.value := by
  induction captures generalizing slots with
  | nil => simp
  | cons capture rest ih =>
      rw [List.foldl_cons, ih]
      simp

theorem take_frameSlots (saved : Nat) (address : Address)
    (registers : List (Option (Value Entry))) (count : Nat) :
    (frameSlots saved address registers).take (headerSize + count) =
      frameSlots saved address (registers.take count) := by
  unfold frameSlots headerSize
  rw [show 2 + count = count + 1 + 1 by omega, List.take_succ_cons, List.take_succ_cons,
    List.map_take]

theorem hasTop_enter (stack : Stack) (saved : Nat) (address : Address) (argument : Value Entry)
    (entry : Entry) (captures : List (Value Entry)) :
    (stack.enter saved address argument entry captures).HasTop stack.slots.toList saved address
      (enteredRegisters entry.frameSize argument captures) := by
  have pushed : (((stack.slots.push (.base saved)).push (.returnTo address)).push
      (.value argument)).toList ++ captures.map Slot.value =
        stack.slots.toList ++ frameSlots saved address (some argument :: captures.map some) := by
    simp [frameSlots, slotOf, Function.comp_def]
  have padded : frameSlots saved address (some argument :: captures.map some) ++
      List.replicate (entry.frameSize - (captures.length + 1)) Slot.empty =
        frameSlots saved address (some argument :: captures.map some ++
          List.replicate (entry.frameSize - (captures.length + 1)) none) := by
    simp [frameSlots, slotOf]
  unfold enter HasTop
  dsimp only
  rw [toList_resize, toList_foldl_push, pushed]
  have missing : stack.slots.size + headerSize + entry.frameSize - (stack.slots.toList ++
      frameSlots saved address (some argument :: captures.map some)).length =
        entry.frameSize - (captures.length + 1) := by
    rw [List.length_append, length_frameSlots, Array.length_toList, List.length_cons,
      List.length_map]
    omega
  rw [missing, List.append_assoc, padded, ← Array.length_toList, Nat.add_assoc,
    List.take_length_add_append, take_frameSlots]
  rfl

theorem enteredRegisters_eq {frameSize : Nat} (argument : Value Entry)
    {captures : List (Value Entry)} (fits : captures.length + 1 <= frameSize) :
    enteredRegisters frameSize argument captures =
      some argument :: captures.map some ++
        List.replicate (frameSize - (captures.length + 1)) none := by
  unfold enteredRegisters
  rw [List.take_of_length_le]
  simp
  omega

end Stack
end StrictLambda
