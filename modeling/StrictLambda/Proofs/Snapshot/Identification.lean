import StrictLambda.Proofs.Snapshot.Printing
import StrictLambda.Proofs.Text.Reading

/-!
# What the full text tells

The full text of a snapshot leaves out one thing, the names of the data types of data values.  All
the rest can be read back from it: two snapshots that have the same text differ at most in those
names.  And the end of a text can be told, so that no text is the beginning of another one.
-/

namespace StrictLambda

/-!
## Headings

The first word of a text tells what kind of node it is about.
-/

inductive Heading where
  | integer
  | boolean
  | function
  | dataType
  | pending
  | data
  | tied
deriving DecidableEq

namespace Heading

def word : Heading -> String
  | integer => "Integer("
  | boolean => "Boolean("
  | function => "Function \x7b body: "
  | dataType => "DataType \x7b name: "
  | pending => "Fixpoint(None)"
  | data => "Data("
  | tied => "Fixpoint(Some("

theorem clash {left right : Heading} (different : left ≠ right) :
    Clash left.word.toList right.word.toList := by
  cases left <;> cases right <;> first | exact absurd rfl different | decide

theorem eq_of_append_eq {left right : Heading} {text another : String} {rest last : List Char}
    (begins : left.word.toList <+: text.toList)
    (beginsOther : right.word.toList <+: another.toList)
    (same : text.toList ++ rest = another.toList ++ last) : left = right := by
  rcases begins with ⟨inside, text⟩
  rcases beginsOther with ⟨others, another⟩
  rw [← text, ← another, List.append_assoc, List.append_assoc] at same
  by_contra different
  exact (clash different).append_ne _ _ same

end Heading

/-!
## Atoms
-/

namespace Atom

def heading : Atom -> Heading
  | integer _ => .integer
  | boolean _ => .boolean
  | function _ _ => .function
  | dataType _ _ => .dataType
  | pending => .pending

def constructorText (constructor : Symbol) : String :=
  "Symbol(Spur(" ++ toString (constructor.index + 1) ++ "))"

-- each text is opened by reduction: the equations of `fullText` take too long to be generated

theorem toList_integer (value : Int64) : (integer value).fullText.toList =
    "Integer(".toList ++ ((toString value.toInt).toList ++ ")".toList) := by
  have text : (integer value).fullText = "Integer(" ++ toString value.toInt ++ ")" := rfl
  rw [text, String.toList_append, String.toList_append, List.append_assoc]

theorem toList_function (entry : Entry) (captures : Nat) :
    (function entry captures).fullText.toList =
      "Function \x7b body: ".toList ++ (entry.body.text.toList ++ (", frame_size: ".toList ++
        ((toString entry.frameSize).toList ++ (", captures: ".toList ++
          ((toString captures).toList ++ " \x7d".toList))))) := by
  have text : (function entry captures).fullText =
      "Function \x7b body: " ++ entry.body.text ++ ", frame_size: " ++ toString entry.frameSize ++
        ", captures: " ++ toString captures ++ " \x7d" := rfl
  simp only [text, String.toList_append, List.append_assoc]

theorem toList_dataType (name : Symbol) (constructors : List Symbol) :
    (dataType name constructors).fullText.toList =
      "DataType \x7b name: ".toList ++ (name.label.toList ++ (", constructors: [".toList ++
        (", ".toList.intercalate
          (constructors.map fun constructor => (constructorText constructor).toList) ++
            "] \x7d".toList))) := by
  have text : (dataType name constructors).fullText =
      "DataType \x7b name: " ++ name.label ++ ", constructors: [" ++
        String.intercalate ", " (constructors.map constructorText) ++ "] \x7d" := rfl
  simp only [text, String.toList_append, String.toList_intercalate, List.map_map,
    Function.comp_def, List.append_assoc]

theorem heading_begins (leaf : Atom) : leaf.heading.word.toList <+: leaf.fullText.toList := by
  cases leaf with
  | integer value => exact ⟨_, (toList_integer value).symm⟩
  | boolean value => cases value <;> decide
  | function entry captures => exact ⟨_, (toList_function entry captures).symm⟩
  | dataType name constructors => exact ⟨_, (toList_dataType name constructors).symm⟩
  | pending => exact List.prefix_rfl

theorem constructorText_inj {left right : Symbol} {rest last : List Char}
    (same : (constructorText left).toList ++ rest = (constructorText right).toList ++ last) :
    left = right ∧ rest = last := by
  simp only [constructorText, String.toList_append, List.append_assoc] at same
  rcases readable_nat.closed (by decide) (List.append_cancel_left same) with ⟨index, closed⟩
  cases left
  cases right
  exact ⟨congrArg Symbol.mk (Nat.succ.inj index), closed⟩

theorem integer_inj {left right : Int64} {rest last : List Char}
    (same : (integer left).fullText.toList ++ rest = (integer right).fullText.toList ++ last) :
    left = right ∧ rest = last := by
  simp only [toList_integer, List.append_assoc] at same
  rcases readable_int.closed (by decide) (List.append_cancel_left same) with ⟨value, closed⟩
  exact ⟨Int64.toInt_inj.mp value, closed⟩

theorem boolean_inj {left right : Bool} {rest last : List Char}
    (same : (boolean left).fullText.toList ++ rest = (boolean right).fullText.toList ++ last) :
    left = right ∧ rest = last := by
  have clash : Clash (boolean false).fullText.toList (boolean true).fullText.toList := by decide
  cases left <;> cases right
  · exact ⟨rfl, List.append_cancel_left same⟩
  · exact absurd same (clash.append_ne rest last)
  · exact absurd same.symm (clash.append_ne last rest)
  · exact ⟨rfl, List.append_cancel_left same⟩

theorem function_inj {left right : Entry} {captures others : Nat} {rest last : List Char}
    (same : (function left captures).fullText.toList ++ rest =
      (function right others).fullText.toList ++ last) :
    function left captures = function right others ∧ rest = last := by
  simp only [toList_function, List.append_assoc] at same
  rcases readable_address.closed (by decide) (List.append_cancel_left same) with ⟨body, sizes⟩
  rcases readable_nat.closed (by decide) sizes with ⟨frameSize, counts⟩
  rcases readable_nat.closed (by decide) counts with ⟨captured, closed⟩
  cases left
  cases right
  cases body
  cases frameSize
  cases captured
  exact ⟨rfl, closed⟩

theorem constructors_begin (first : Symbol) (more : List Symbol) :
    "Symbol(Spur(".toList <+: ", ".toList.intercalate
      ((first :: more).map fun constructor => (constructorText constructor).toList) := by
  have own : "Symbol(Spur(".toList <+: (constructorText first).toList := by
    simp only [constructorText, String.toList_append, List.append_assoc]
    exact List.prefix_append _ _
  cases more with
  | nil =>
      rw [List.map_singleton, List.intercalate_singleton]
      exact own
  | cons second more =>
      rw [List.map_cons, List.map_cons, List.intercalate_cons_cons, List.append_assoc]
      exact own.trans (List.prefix_append _ _)

theorem constructors_inj {constructors others : List Symbol} {rest last : List Char}
    (same : ", ".toList.intercalate
        (constructors.map fun constructor => (constructorText constructor).toList) ++
          ("] \x7d".toList ++ rest) =
      ", ".toList.intercalate
        (others.map fun constructor => (constructorText constructor).toList) ++
          ("] \x7d".toList ++ last)) : constructors = others ∧ rest = last := by
  have clash : Clash ", ".toList "] \x7d".toList := by decide
  have empty : Clash "] \x7d".toList "Symbol(Spur(".toList := by decide
  cases constructors with
  | nil =>
      cases others with
      | nil => exact ⟨rfl, List.append_cancel_left same⟩
      | cons second others =>
          rcases constructors_begin second others with ⟨inside, text⟩
          rw [← text, List.append_assoc] at same
          exact absurd same (empty.append_ne _ _)
  | cons first constructors =>
      cases others with
      | nil =>
          rcases constructors_begin first constructors with ⟨inside, text⟩
          rw [← text, List.append_assoc] at same
          exact absurd same.symm (empty.append_ne _ _)
      | cons second others =>
          have read : (first :: constructors).map id = (second :: others).map id ∧ rest = last :=
            intercalate_inj clash (fun one _ two rest last same => constructorText_inj same) same
          simpa only [List.map_id] using read

theorem dataType_inj {left right : Symbol} {constructors others : List Symbol}
    {rest last : List Char}
    (same : (dataType left constructors).fullText.toList ++ rest =
      (dataType right others).fullText.toList ++ last) :
    dataType left constructors = dataType right others ∧ rest = last := by
  simp only [toList_dataType, List.append_assoc] at same
  rcases readable_label.closed (by decide) (List.append_cancel_left same) with ⟨rfl, lists⟩
  rcases constructors_inj lists with ⟨rfl, closed⟩
  exact ⟨rfl, closed⟩

theorem fullText_inj {left right : Atom} {rest last : List Char}
    (same : left.fullText.toList ++ rest = right.fullText.toList ++ last) :
    left = right ∧ rest = last := by
  have heading := Heading.eq_of_append_eq left.heading_begins right.heading_begins same
  cases left with
  | integer value =>
      cases right with
      | integer other => exact (integer_inj same).imp_left (congrArg integer)
      | _ => cases heading
  | boolean value =>
      cases right with
      | boolean other => exact (boolean_inj same).imp_left (congrArg boolean)
      | _ => cases heading
  | function entry captures =>
      cases right with
      | function other others => exact function_inj same
      | _ => cases heading
  | dataType name constructors =>
      cases right with
      | dataType other others => exact dataType_inj same
      | _ => cases heading
  | pending =>
      cases right with
      | pending => exact ⟨rfl, List.append_cancel_left same⟩
      | _ => cases heading

end Atom

/-!
## Snapshots
-/

/-- The same tree, with one name in the place of all data types of data values. -/
def Fold.untyped : Fold Snapshot where
  atom := .atom
  data _ constructor fields := .data ⟨0⟩ constructor fields
  tied := .tied

namespace Snapshot

def withoutDataTypes (snapshot : Snapshot) : Snapshot :=
  snapshot.fold .untyped

theorem withoutDataTypes_data (type constructor : Symbol) (fields : List (Symbol × Snapshot)) :
    (data type constructor fields).withoutDataTypes =
      data ⟨0⟩ constructor (fields.map fun field => (field.1, field.2.withoutDataTypes)) :=
  fold_data _ _ _ _

theorem withoutDataTypes_tied (content : Snapshot) :
    (tied content).withoutDataTypes = tied content.withoutDataTypes :=
  fold_tied _ _

def heading : Snapshot -> Heading
  | atom leaf => leaf.heading
  | data _ _ _ => .data
  | tied _ => .tied

def fieldText (field : Symbol × Snapshot) : String :=
  field.1.label ++ ": " ++ field.2.fullText

def fieldsText (fields : List (Symbol × Snapshot)) : String :=
  enclosed (fields.map fieldText) ++ ")"

theorem fullText_eq_fieldsText (type constructor : Symbol) (fields : List (Symbol × Snapshot)) :
    (data type constructor fields).fullText =
      "Data(" ++ constructor.label ++ fieldsText fields := by
  rw [fullText_data, String.append_assoc]
  rfl

theorem toList_tied (content : Snapshot) : (tied content).fullText.toList =
    "Fixpoint(Some(".toList ++ (content.fullText.toList ++ "))".toList) := by
  rw [fullText_tied, String.toList_append, String.toList_append, List.append_assoc]

theorem toList_data (type constructor : Symbol) (fields : List (Symbol × Snapshot)) :
    (data type constructor fields).fullText.toList =
      "Data(".toList ++ (constructor.label.toList ++ (fieldsText fields).toList) := by
  rw [fullText_eq_fieldsText, String.toList_append, String.toList_append, List.append_assoc]

theorem heading_begins (snapshot : Snapshot) :
    snapshot.heading.word.toList <+: snapshot.fullText.toList := by
  cases snapshot with
  | atom leaf =>
      rw [fullText_atom]
      exact leaf.heading_begins
  | data type constructor fields => exact ⟨_, (toList_data type constructor fields).symm⟩
  | tied content => exact ⟨_, (toList_tied content).symm⟩

theorem heading_eq {left right : Snapshot} {rest last : List Char}
    (same : left.fullText.toList ++ rest = right.fullText.toList ++ last) :
    left.heading = right.heading :=
  Heading.eq_of_append_eq left.heading_begins right.heading_begins same

/-- The snapshot can be read from its text whatever stands behind it, and so can what stands
there. -/
def Legible (snapshot : Snapshot) : Prop :=
  forall (other : Snapshot) (rest last : List Char),
    snapshot.fullText.toList ++ rest = other.fullText.toList ++ last ->
      snapshot.withoutDataTypes = other.withoutDataTypes ∧ rest = last

theorem toList_fields (first : Symbol × Snapshot) (fields : List (Symbol × Snapshot)) :
    (fieldsText (first :: fields)).toList =
      " \x7b ".toList ++
        (", ".toList.intercalate ((first :: fields).map fun field => (fieldText field).toList) ++
          " \x7d)".toList) := by
  have closing : " \x7d)".toList = " \x7d".toList ++ ")".toList := by decide
  rw [fieldsText, List.map_cons, enclosed, closing]
  simp only [String.toList_append, String.toList_intercalate, List.map_map, List.map_cons,
    Function.comp_def, List.append_assoc]

theorem endsNumber_fieldsText (fields : List (Symbol × Snapshot)) (rest : List Char) :
    EndsNumber ((fieldsText fields).toList ++ rest) := by
  cases fields with
  | nil =>
      have closed : (fieldsText []).toList = ")".toList := by decide
      rw [closed]
      exact endsNumber_append (by decide) rest
  | cons first fields =>
      rw [toList_fields, List.append_assoc]
      exact endsNumber_append (by decide) _

theorem field_inj {field other : Symbol × Snapshot} (legible : field.2.Legible)
    {rest last : List Char}
    (same : (fieldText field).toList ++ rest = (fieldText other).toList ++ last) :
    (field.1, field.2.withoutDataTypes) = (other.1, other.2.withoutDataTypes) ∧ rest = last := by
  simp only [fieldText, String.toList_append, List.append_assoc] at same
  rcases readable_label.closed (by decide) same with ⟨name, values⟩
  rcases legible other.2 rest last values with ⟨value, closed⟩
  exact ⟨Prod.ext name value, closed⟩

theorem fields_inj {fields others : List (Symbol × Snapshot)}
    (legible : forall field, field ∈ fields -> field.2.Legible) {rest last : List Char}
    (same : (fieldsText fields).toList ++ rest = (fieldsText others).toList ++ last) :
    fields.map (fun field => (field.1, field.2.withoutDataTypes)) =
      others.map (fun field => (field.1, field.2.withoutDataTypes)) ∧ rest = last := by
  have clash : Clash ", ".toList " \x7d)".toList := by decide
  have empty : Clash (fieldsText []).toList " \x7b ".toList := by decide
  cases fields with
  | nil =>
      cases others with
      | nil => exact ⟨rfl, List.append_cancel_left same⟩
      | cons second others =>
          rw [toList_fields, List.append_assoc] at same
          exact absurd same (empty.append_ne _ _)
  | cons first fields =>
      cases others with
      | nil =>
          rw [toList_fields, List.append_assoc] at same
          exact absurd same.symm (empty.append_ne _ _)
      | cons second others =>
          rw [toList_fields, toList_fields] at same
          simp only [List.append_assoc] at same
          exact intercalate_inj clash
            (fun field member other rest last => field_inj (legible field member))
            (List.append_cancel_left same)

theorem legible (snapshot : Snapshot) : snapshot.Legible := by
  -- What stands behind is left open: behind a part it is the rest of the node.
  induction snapshot using Snapshot.induction with
  | atom leaf =>
      intro other rest last same
      have heading := heading_eq same
      cases other with
      | atom another =>
          rw [fullText_atom, fullText_atom] at same
          rcases Atom.fullText_inj same with ⟨rfl, closed⟩
          exact ⟨rfl, closed⟩
      | data type constructor fields => cases leaf <;> cases heading
      | tied content => cases leaf <;> cases heading
  | data type constructor fields inside =>
      intro other rest last same
      have heading := heading_eq same
      cases other with
      | atom leaf => cases leaf <;> cases heading
      | data another label others =>
          rw [toList_data, toList_data] at same
          simp only [List.append_assoc] at same
          rcases readable_label constructor label _ _ (endsNumber_fieldsText fields rest)
            (endsNumber_fieldsText others last) (List.append_cancel_left same) with ⟨rfl, texts⟩
          rcases fields_inj inside texts with ⟨parts, closed⟩
          rw [withoutDataTypes_data, withoutDataTypes_data, parts]
          exact ⟨rfl, closed⟩
      | tied content => cases heading
  | tied content inside =>
      intro other rest last same
      have heading := heading_eq same
      cases other with
      | atom leaf => cases leaf <;> cases heading
      | data another label others => cases heading
      | tied another =>
          rw [toList_tied, toList_tied] at same
          simp only [List.append_assoc] at same
          rcases inside another _ _ (List.append_cancel_left same) with ⟨parts, closings⟩
          rw [withoutDataTypes_tied, withoutDataTypes_tied, parts]
          exact ⟨rfl, List.append_cancel_left closings⟩

theorem fullText_withoutDataTypes (snapshot : Snapshot) :
    snapshot.withoutDataTypes.fullText = snapshot.fullText := by
  induction snapshot using Snapshot.induction with
  | atom leaf => rw [withoutDataTypes, fold_atom, Fold.untyped]
  | data type constructor fields inside =>
      have pieces : (fields.map fun field => (field.1, field.2.withoutDataTypes)).map fieldText =
          fields.map fieldText := by
        rw [List.map_map]
        apply List.map_congr_left
        intro field member
        simp only [Function.comp_apply, fieldText, inside field member]
      rw [withoutDataTypes_data, fullText_eq_fieldsText, fullText_eq_fieldsText, fieldsText, pieces,
        fieldsText]
  | tied content inside => rw [withoutDataTypes_tied, fullText_tied, inside, fullText_tied]

theorem withoutDataTypes_eq_of_begins {left right : Snapshot}
    (front : left.fullText.toList <+: right.fullText.toList) :
    left.withoutDataTypes = right.withoutDataTypes := by
  rcases front with ⟨rest, text⟩
  exact (left.legible right rest [] (by rw [text, List.append_nil])).1

theorem fullText_eq_of_withoutDataTypes_eq {left right : Snapshot}
    (same : left.withoutDataTypes = right.withoutDataTypes) : left.fullText = right.fullText := by
  rw [← left.fullText_withoutDataTypes, same, right.fullText_withoutDataTypes]

/-- Two snapshots have the same text exactly if they are the same tree but for the data types of
data values, and no text is the beginning of a different one. -/
theorem fullText_identifies :
    (forall left right : Snapshot, left.fullText = right.fullText <->
      left.withoutDataTypes = right.withoutDataTypes) ∧
    (forall left right : Snapshot, left.fullText.toList <+: right.fullText.toList <->
      left.fullText = right.fullText) ∧
    (forall symbol : Symbol, symbol.label = "#" ++ toString symbol.index) ∧
    forall (name : Symbol) (constructors : List Symbol),
      (atom (.dataType name constructors)).fullText =
        "DataType \x7b name: " ++ name.label ++ ", constructors: [" ++
          String.intercalate ", " (constructors.map fun constructor =>
            "Symbol(Spur(" ++ toString (constructor.index + 1) ++ "))") ++ "] \x7d" := by
  have prefixed {left right : Snapshot} (same : left.fullText = right.fullText) :
      left.fullText.toList <+: right.fullText.toList :=
    ⟨[], by rw [same, List.append_nil]⟩
  refine ⟨fun left right => ⟨fun same => ?_, fullText_eq_of_withoutDataTypes_eq⟩,
    fun left right => ⟨fun front => ?_, prefixed⟩, fun symbol => rfl,
    fun name constructors => fullText_atom _⟩
  · exact withoutDataTypes_eq_of_begins (prefixed same)
  · exact fullText_eq_of_withoutDataTypes_eq (withoutDataTypes_eq_of_begins front)

end Snapshot
end StrictLambda
