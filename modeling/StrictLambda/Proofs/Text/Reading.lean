import StrictLambda.Name
import StrictLambda.Register

/-!
# Texts that can be read back

Two texts that have been written one behind the other can be read back if the end of the first one
can be told.  A number ends where no digit follows; most other texts end with a mark of their own.

What is said about a kind of texts always has the same form: if two of them, each with something
behind it, are the same characters, then they stand for the same thing, and the same follows.
-/

namespace StrictLambda

/-!
## Fixed words
-/

/-- Neither of two words begins with the other one. -/
def Clash (first second : List Char) : Prop :=
  ¬ first <+: second ∧ ¬ second <+: first

instance (first second : List Char) : Decidable (Clash first second) :=
  inferInstanceAs (Decidable (_ ∧ _))

theorem Clash.append_ne {first second : List Char} (clash : Clash first second)
    (rest other : List Char) : first ++ rest ≠ second ++ other := by
  intro same
  have front : first <+: second ++ other := ⟨rest, same⟩
  have either := List.prefix_or_prefix_of_prefix front (List.prefix_append second other)
  exact either.elim clash.1 clash.2

/-!
## Numerals
-/

def EndsNumber (rest : List Char) : Prop :=
  rest.takeWhile Char.isDigit = []

theorem endsNumber_append {word : List Char} (first : word.head?.any (fun char => !char.isDigit))
    (rest : List Char) : EndsNumber (word ++ rest) := by
  cases word with
  | nil => cases first
  | cons char word =>
      simp only [List.head?_cons, Option.any_some, Bool.not_eq_true'] at first
      rw [EndsNumber, List.cons_append, List.takeWhile_cons_of_neg (by simp [first])]

structure IsNumeral (word : List Char) : Prop where
  nonempty : word ≠ []
  digits : forall char, char ∈ word -> char.isDigit = true

namespace IsNumeral

variable {word : List Char}

theorem takeWhile_append (numeral : IsNumeral word) {rest : List Char} (ends : EndsNumber rest) :
    (word ++ rest).takeWhile Char.isDigit = word := by
  rw [List.takeWhile_append_of_pos numeral.digits, ends, List.append_nil]

theorem append_inj {second rest other : List Char} (numeral : IsNumeral word)
    (again : IsNumeral second) (ends : EndsNumber rest) (endsOther : EndsNumber other)
    (same : word ++ rest = second ++ other) : word = second ∧ rest = other := by
  have digits := numeral.takeWhile_append ends
  rw [same, again.takeWhile_append endsOther] at digits
  subst digits
  exact ⟨rfl, List.append_cancel_left same⟩

theorem append_ne (numeral : IsNumeral word) (rest : List Char) {other : List Char}
    (ends : EndsNumber other) : word ++ rest ≠ other := by
  rintro rfl
  rw [EndsNumber, List.takeWhile_append_of_pos numeral.digits] at ends
  exact numeral.nonempty (List.append_eq_nil_iff.mp ends).1

end IsNumeral

theorem isNumeral_toDigits (number : Nat) : IsNumeral (Nat.toDigits 10 number) where
  nonempty := Nat.toDigits_ne_nil
  digits _ member := Nat.isDigit_of_mem_toDigits (by decide) (by decide) member

theorem isNumeral_padded (zeros number : Nat) :
    IsNumeral (List.replicate zeros '0' ++ Nat.toDigits 10 number) where
  nonempty := List.append_ne_nil_of_right_ne_nil _ Nat.toDigits_ne_nil
  digits char member := by
    rcases List.mem_append.mp member with zero | digit
    · rw [List.eq_of_mem_replicate zero]
      decide
    · exact (isNumeral_toDigits number).digits char digit

theorem padded_inj (zeros others : Nat) {left right : Nat}
    (same : List.replicate zeros '0' ++ Nat.toDigits 10 left =
      List.replicate others '0' ++ Nat.toDigits 10 right) : left = right := by
  have values := congrArg (fun word => Nat.ofDigitChars 10 word 0) same
  simpa [Nat.ofDigitChars_append] using values

/-!
## Numbers, names and addresses
-/

/-- Texts of this kind can be told from the characters if no digit comes right behind them. -/
def Readable {Thing : Type} (text : Thing -> String) : Prop :=
  forall left right rest other, EndsNumber rest -> EndsNumber other ->
    (text left).toList ++ rest = (text right).toList ++ other -> left = right ∧ rest = other

theorem readable_nat : Readable (fun number : Nat => toString number) := by
  intro left right rest other ends endsOther same
  simp only [Nat.toString_eq_repr, Nat.toList_repr] at same
  rcases (isNumeral_toDigits left).append_inj (isNumeral_toDigits right) ends endsOther same with
    ⟨digits, rfl⟩
  exact ⟨padded_inj 0 0 digits, rfl⟩

theorem Readable.closed {Thing : Type} {text : Thing -> String} (readable : Readable text)
    {stop : String} (first : stop.toList.head?.any (fun char => !char.isDigit))
    {left right : Thing} {rest other : List Char}
    (same : (text left).toList ++ (stop.toList ++ rest) =
      (text right).toList ++ (stop.toList ++ other)) : left = right ∧ rest = other := by
  have ends (rest : List Char) : EndsNumber (stop.toList ++ rest) := endsNumber_append first rest
  rcases readable left right _ _ (ends rest) (ends other) same with ⟨thing, stops⟩
  exact ⟨thing, List.append_cancel_left stops⟩

theorem Readable.marked {Thing : Type} {text : Thing -> String} (readable : Readable text)
    (mark : String) : Readable (fun thing => mark ++ text thing) := by
  intro left right rest other ends endsOther same
  rw [String.toList_append, String.toList_append, List.append_assoc, List.append_assoc] at same
  exact readable left right rest other ends endsOther (List.append_cancel_left same)

theorem readable_int : Readable (fun number : Int => toString number) := by
  intro left right rest other ends endsOther same
  have minus (rest : List Char) : EndsNumber ("-".toList ++ rest) :=
    endsNumber_append (by decide) rest
  simp only [Int.toString_eq_repr, Int.repr_eq_if] at same
  split at same <;> split at same
  · next positive positiveOther =>
      have same := readable_nat left.toNat right.toNat rest other ends endsOther same
      exact ⟨by omega, same.2⟩
  · rw [Nat.toList_repr, String.toList_append, List.append_assoc] at same
    exact absurd same ((isNumeral_toDigits _).append_ne _ (minus _))
  · rw [Nat.toList_repr, String.toList_append, List.append_assoc] at same
    exact absurd same.symm ((isNumeral_toDigits _).append_ne _ (minus _))
  · next negative negativeOther =>
      have marked := readable_nat.marked "-"
      have same := marked (-left).toNat (-right).toNat rest other ends endsOther same
      exact ⟨by omega, same.2⟩

theorem readable_label : Readable Symbol.label := by
  intro left right rest other ends endsOther same
  rcases readable_nat.marked "#" left.index right.index rest other ends endsOther same with
    ⟨index, last⟩
  cases left
  cases right
  exact ⟨congrArg Symbol.mk index, last⟩

def Address.numeral (address : Address) : String :=
  if address = .halt then
    "halt"
  else
    String.ofList (List.replicate (4 - (toString address.index).length) '0') ++
      toString address.index

theorem Address.text_eq_numeral (address : Address) : address.text = "@" ++ address.numeral := by
  unfold text numeral
  split
  · rfl
  · rw [String.append_assoc]

theorem Address.toList_numeral {address : Address} (other : address ≠ .halt) :
    exists zeros, address.numeral.toList =
      List.replicate zeros '0' ++ Nat.toDigits 10 address.index := by
  refine ⟨4 - (toString address.index).length, ?_⟩
  unfold numeral
  rw [if_neg other, String.toList_append, String.toList_ofList, Nat.toString_eq_repr,
    Nat.toList_repr]

theorem readable_numeral : Readable Address.numeral := by
  intro left right rest other ends endsOther same
  have word (rest : List Char) : EndsNumber (Address.halt.numeral.toList ++ rest) :=
    endsNumber_append (by decide) rest
  -- Only the halting address has a word instead of digits.
  by_cases halts : left = .halt <;> by_cases haltsOther : right = .halt
  · subst halts haltsOther
    exact ⟨rfl, List.append_cancel_left same⟩
  · rcases Address.toList_numeral haltsOther with ⟨zeros, text⟩
    rw [halts, text] at same
    exact absurd same.symm ((isNumeral_padded zeros right.index).append_ne other (word rest))
  · rcases Address.toList_numeral halts with ⟨zeros, text⟩
    rw [haltsOther, text] at same
    exact absurd same ((isNumeral_padded zeros left.index).append_ne rest (word other))
  · rcases Address.toList_numeral halts with ⟨zeros, text⟩
    rcases Address.toList_numeral haltsOther with ⟨others, textOther⟩
    rw [text, textOther] at same
    rcases (isNumeral_padded zeros left.index).append_inj (isNumeral_padded others right.index) ends
      endsOther same with ⟨digits, last⟩
    have index := padded_inj zeros others digits
    cases left
    cases right
    exact ⟨congrArg Address.mk index, last⟩

theorem readable_address : Readable Address.text := by
  have marked := readable_numeral.marked "@"
  simp only [← Address.text_eq_numeral] at marked
  exact marked

/-!
## Lists
-/

/-- Items that can be read one by one, with a mark between any two of them and another one behind
the last, can be read as a list. -/
theorem intercalate_inj {Item Key : Type} {text : Item -> String} {key : Item -> Key}
    {separator stop : List Char} (clash : Clash separator stop) {item : Item} {items : List Item}
    (each : forall one, one ∈ item :: items -> forall two rest other,
      (text one).toList ++ rest = (text two).toList ++ other -> key one = key two ∧ rest = other)
    {another : Item} {others : List Item} {rest last : List Char}
    (same : separator.intercalate ((item :: items).map fun one => (text one).toList) ++
        (stop ++ rest) =
      separator.intercalate ((another :: others).map fun one => (text one).toList) ++
        (stop ++ last)) :
    (item :: items).map key = (another :: others).map key ∧ rest = last := by
  induction items generalizing item another others with
  | nil =>
      cases others with
      | nil =>
          simp only [List.map_cons, List.map_nil, List.intercalate_singleton] at same
          rcases each item List.mem_cons_self another _ _ same with ⟨first, stops⟩
          simp [first, List.append_cancel_left stops]
      | cons second others =>
          simp only [List.map_cons, List.map_nil, List.intercalate_singleton,
            List.intercalate_cons_cons, List.append_assoc] at same
          have stops := (each item List.mem_cons_self another _ _ same).2
          exact absurd stops.symm (clash.append_ne _ _)
  | cons next items ih =>
      cases others with
      | nil =>
          simp only [List.map_cons, List.map_nil, List.intercalate_singleton,
            List.intercalate_cons_cons, List.append_assoc] at same
          have stops := (each item List.mem_cons_self another _ _ same).2
          exact absurd stops (clash.append_ne _ _)
      | cons second others =>
          simp only [List.map_cons, List.intercalate_cons_cons, List.append_assoc] at same
          rcases each item List.mem_cons_self another _ _ same with ⟨first, goes⟩
          rcases ih (fun one member => each one (List.mem_cons_of_mem _ member))
            (List.append_cancel_left goes) with ⟨keys, ends⟩
          exact ⟨List.cons_eq_cons.mpr ⟨first, keys⟩, ends⟩

end StrictLambda
