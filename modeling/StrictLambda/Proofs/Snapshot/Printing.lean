import StrictLambda.Proofs.Snapshot.Walk
import StrictLambda.Snapshot.Printer

/-!
# Printed snapshots

Both texts of a snapshot are printed from its tokens, one token at a time.  They are the texts that
recursion on the tree would write.
-/

namespace StrictLambda

/-!
## Texts
-/

def spell (text : Token -> String) (tokens : List Token) : String :=
  String.join (tokens.map text)

theorem spell_cons (text : Token -> String) (token : Token) (tokens : List Token) :
    spell text (token :: tokens) = text token ++ spell text tokens :=
  String.join_cons

theorem spell_append (text : Token -> String) (first second : List Token) :
    spell text (first ++ second) = spell text first ++ spell text second := by
  unfold spell
  rw [List.map_append, String.join_append]

theorem spell_singleton (text : Token -> String) (token : Token) :
    spell text [token] = text token := by
  rw [spell_cons, spell, List.map_nil, String.join_nil, String.append_empty]

theorem Snapshot.foldl_tokens (snapshot : Snapshot) (text : Token -> String) :
    snapshot.tokens.foldl (fun written token => written ++ text token) "" =
      spell text snapshot.walk := by
  rw [← Array.foldl_toList, snapshot.toList_tokens, spell, String.join_eq_foldl, List.foldl_map]

def Token.textOfFields (text : Token -> String) (first : Bool) : List (Symbol × String) -> String
  | [] => ""
  | (name, value) :: rest => text (.field name first) ++ value ++ textOfFields text false rest

/-- What is printed for tokens comes to the same as what recursion writes for nodes. -/
structure Token.Prints (text : Token -> String) (style : Fold String) : Prop where
  atom : forall leaf, text (.atom leaf) = style.atom leaf
  data : forall type constructor fields,
    text (.opening type constructor fields.length) ++
      (textOfFields text true fields ++ text (.closing fields.length)) =
        style.data type constructor fields
  tied : forall content, text .tied ++ (content ++ text .untied) = style.tied content

theorem Token.spell_ofFields {text : Token -> String} {style : Fold String}
    {fields : List (Symbol × Snapshot)}
    (inside : forall field, field ∈ fields -> spell text field.2.walk = field.2.fold style)
    (first : Bool) :
    spell text (ofFields first (fields.map fun field => (field.1, field.2.walk))) =
      textOfFields text first (fields.map fun field => (field.1, field.2.fold style)) := by
  induction fields generalizing first with
  | nil => rfl
  | cons field rest ih =>
      have others := ih (fun other member => inside other (List.mem_cons_of_mem _ member)) false
      rw [List.map_cons, ofFields, spell_cons, spell_append, others,
        inside field List.mem_cons_self, List.map_cons, textOfFields, String.append_assoc]

theorem Token.Prints.spell_walk {text : Token -> String} {style : Fold String}
    (prints : Prints text style) (snapshot : Snapshot) :
    spell text snapshot.walk = snapshot.fold style := by
  induction snapshot using Snapshot.induction with
  | atom leaf => rw [Snapshot.walk_atom, spell_singleton, prints.atom, Snapshot.fold_atom]
  | data type constructor fields inside =>
      have written := prints.data type constructor
        (fields.map fun field => (field.1, field.2.fold style))
      rw [List.length_map] at written
      rw [Snapshot.walk_data, spell_cons, spell_append, spell_ofFields inside, spell_singleton,
        written, Snapshot.fold_data]
  | tied content inside =>
      rw [Snapshot.walk_tied, spell_cons, spell_append, spell_singleton, inside, prints.tied,
        Snapshot.fold_tied]

/-!
## The two styles
-/

/-- Between braces, separated by commas.  Where there is nothing there are no braces either. -/
def enclosed : List String -> String
  | [] => ""
  | piece :: rest => " \x7b " ++ String.intercalate ", " (piece :: rest) ++ " \x7d"

/-- What recursion writes for people, with texts of its own for everything without parts. -/
def Fold.plain (name : Symbol -> String) : Fold String where
  atom
    | .integer value => toString value.toInt
    | .boolean value => toString value
    | .function entry captures =>
        "<function " ++ entry.body.text ++ ", " ++ toString captures ++ " captured>"
    | .dataType symbol _ => "<data " ++ name symbol ++ ">"
    | .pending => "<pending>"
  data _ constructor fields :=
    name constructor ++ enclosed (fields.map fun field => name field.1 ++ " = " ++ field.2)
  tied content := content

def Fold.full : Fold String where
  atom
    | .integer value => "Integer(" ++ toString value.toInt ++ ")"
    | .boolean value => "Boolean(" ++ toString value ++ ")"
    | .function entry captures =>
        "Function \x7b body: " ++ entry.body.text ++ ", frame_size: " ++
          toString entry.frameSize ++ ", captures: " ++ toString captures ++ " \x7d"
    | .dataType symbol constructors =>
        "DataType \x7b name: " ++ symbol.label ++ ", constructors: [" ++
          String.intercalate ", "
            (constructors.map fun constructor =>
              "Symbol(Spur(" ++ toString (constructor.index + 1) ++ "))") ++
          "] \x7d"
    | .pending => "Fixpoint(None)"
  data _ constructor fields :=
    "Data(" ++ constructor.label ++
      enclosed (fields.map fun field => field.1.label ++ ": " ++ field.2) ++ ")"
  tied content := "Fixpoint(Some(" ++ content ++ "))"

theorem intercalate_cons (separator first : String) (rest : List String) :
    separator.intercalate (first :: rest) =
      first ++ String.join (rest.map fun piece => separator ++ piece) := by
  induction rest generalizing first with
  | nil => rw [String.intercalate_singleton, List.map_nil, String.join_nil, String.append_empty]
  | cons piece rest ih =>
      rw [String.intercalate_cons_cons, ih, List.map_cons, String.join_cons, String.append_assoc,
        String.append_assoc]

theorem Token.textOfFields_false (text : Token -> String) (piece : Symbol × String -> String)
    (separates : forall field, text (.field field.1 false) ++ field.2 = ", " ++ piece field)
    (fields : List (Symbol × String)) :
    textOfFields text false fields =
      String.join ((fields.map piece).map fun written => ", " ++ written) := by
  induction fields with
  | nil => rfl
  | cons field rest ih =>
      rw [textOfFields, separates, ih, List.map_cons, List.map_cons, String.join_cons]

theorem Token.prints_plain (name : Symbol -> String) : Prints (Token.text name) (.plain name) where
  atom leaf := by cases leaf <;> rfl
  data type constructor fields := by
    cases fields with
    | nil => rfl
    | cons field rest =>
        have others := textOfFields_false (Token.text name)
          (fun field => name field.1 ++ " = " ++ field.2)
          (fun field => by simp [Token.text, String.append_assoc]) rest
        rw [textOfFields, others]
        simp [Token.text, Fold.plain, enclosed, intercalate_cons, String.append_assoc]
  tied content := by simp [Token.text, Fold.plain]

theorem Token.prints_full : Prints Token.fullText .full where
  atom leaf := by cases leaf <;> rfl
  data type constructor fields := by
    cases fields with
    | nil => simp [Token.fullText, Fold.full, enclosed, textOfFields, String.append_assoc]
    | cons field rest =>
        have others := textOfFields_false Token.fullText
          (fun field => field.1.label ++ ": " ++ field.2)
          (fun field => by simp [Token.fullText, String.append_assoc]) rest
        -- The space behind the brace belongs to the token of the first field.
        have brace : " \x7b " = " \x7b" ++ " " := rfl
        have closing : " \x7d)" = " \x7d" ++ ")" := rfl
        rw [textOfFields, others]
        simp only [Token.fullText, Fold.full, enclosed, intercalate_cons, List.length_cons,
          List.map_cons, String.append_assoc]
        rw [brace, closing, String.append_assoc]
  tied content := by simp [Token.fullText, Fold.full, String.append_assoc]

namespace Snapshot

theorem render_eq_fold (snapshot : Snapshot) (name : Symbol -> String) :
    snapshot.render name = snapshot.fold (.plain name) := by
  unfold render
  rw [foldl_tokens, (Token.prints_plain name).spell_walk]

theorem fullText_eq_fold (snapshot : Snapshot) : snapshot.fullText = snapshot.fold .full := by
  unfold fullText
  rw [foldl_tokens, Token.prints_full.spell_walk]

theorem render_data (name : Symbol -> String) (type constructor : Symbol)
    (fields : List (Symbol × Snapshot)) : (data type constructor fields).render name =
      name constructor ++
        enclosed (fields.map fun field => name field.1 ++ " = " ++ field.2.render name) := by
  simp only [render_eq_fold, fold_data, Fold.plain, List.map_map, Function.comp_def]

theorem fullText_atom (leaf : Atom) : (atom leaf).fullText = leaf.fullText := by
  rw [fullText_eq_fold, fold_atom, ← Token.prints_full.atom, Token.fullText]

theorem fullText_data (type constructor : Symbol) (fields : List (Symbol × Snapshot)) :
    (data type constructor fields).fullText =
      "Data(" ++ constructor.label ++
        enclosed (fields.map fun field => field.1.label ++ ": " ++ field.2.fullText) ++ ")" := by
  simp only [fullText_eq_fold, fold_data, Fold.full, List.map_map, Function.comp_def]

theorem fullText_tied (content : Snapshot) :
    (tied content).fullText = "Fixpoint(Some(" ++ content.fullText ++ "))" := by
  rw [fullText_eq_fold, fullText_eq_fold, fold_tied, Fold.full]

/-- The sequence of tokens comes to an end and is the walk through the tree, and both printers write
what recursion writes.  So the marks are balanced, around each part and inside of it, and each field
is written once, in the order of the fields. -/
theorem printers_are_recursive :
    (forall snapshot : Snapshot, Task.Streams [.visit snapshot] snapshot.walk ∧
      snapshot.tokens.toList = snapshot.walk) ∧
    (forall (snapshot : Snapshot) (name : Symbol -> String),
      snapshot.render name = snapshot.fold (.plain name)) ∧
    (forall snapshot : Snapshot, snapshot.fullText = snapshot.fold .full) ∧
    (forall snapshot : Snapshot, Token.Balanced snapshot.walk) ∧
    (forall surroundings : List Surrounding, exists before after,
      Token.Balanced (before ++ after) ∧
        forall part, (place surroundings part).walk = before ++ (part.walk ++ after)) ∧
    (forall (name : Symbol -> String) (type constructor : Symbol)
      (fields : List (Symbol × Snapshot)), (data type constructor fields).render name =
        name constructor ++
          enclosed (fields.map fun field => name field.1 ++ " = " ++ field.2.render name)) ∧
    forall (type constructor : Symbol) (fields : List (Symbol × Snapshot)),
      (data type constructor fields).fullText =
        "Data(" ++ constructor.label ++
          enclosed (fields.map fun field => field.1.label ++ ": " ++ field.2.fullText) ++ ")" :=
  ⟨fun snapshot => ⟨snapshot.streams_walk, snapshot.toList_tokens⟩, render_eq_fold,
    fullText_eq_fold, balanced_walk, exists_walk_place, render_data, fullText_data⟩

end Snapshot
end StrictLambda
