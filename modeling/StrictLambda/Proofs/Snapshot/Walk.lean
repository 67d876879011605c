import StrictLambda.Proofs.Snapshot.Equality
import StrictLambda.Snapshot.Token

/-!
# The walk through a snapshot

The tokens of a snapshot come from a list of things that are still to be done.  Taken one after the
other they are the walk through the tree that visits every node before its parts: it comes to an
end, and whatever it opens it closes again.
-/

namespace StrictLambda

/-!
## Recursion on snapshots
-/

/-- What atoms come to, and what nodes come to given the results for their parts. -/
structure Fold (Result : Type) where
  atom : Atom -> Result
  data : Symbol -> Symbol -> List (Symbol × Result) -> Result
  tied : Result -> Result

namespace Snapshot

section Recursion

variable {Result : Type}

mutual

def fold (recipe : Fold Result) : Snapshot -> Result
  | atom leaf => recipe.atom leaf
  | data type constructor fields => recipe.data type constructor (foldFields recipe fields)
  | tied content => recipe.tied (fold recipe content)

def foldFields (recipe : Fold Result) : List (Symbol × Snapshot) -> List (Symbol × Result)
  | [] => []
  | (name, value) :: rest => (name, fold recipe value) :: foldFields recipe rest

end

variable (recipe : Fold Result)

theorem foldFields_eq_map (fields : List (Symbol × Snapshot)) :
    foldFields recipe fields = fields.map fun field => (field.1, field.2.fold recipe) := by
  induction fields with
  | nil => rw [foldFields, List.map_nil]
  | cons field rest ih => rw [foldFields, ih, List.map_cons]

theorem fold_atom (leaf : Atom) : (atom leaf).fold recipe = recipe.atom leaf := by
  rw [fold]

theorem fold_data (type constructor : Symbol) (fields : List (Symbol × Snapshot)) :
    (data type constructor fields).fold recipe =
      recipe.data type constructor (fields.map fun field => (field.1, field.2.fold recipe)) := by
  rw [fold, foldFields_eq_map]

theorem fold_tied (content : Snapshot) :
    (tied content).fold recipe = recipe.tied (content.fold recipe) := by
  rw [fold]

end Recursion

theorem induction {motive : Snapshot -> Prop} (atom : forall leaf, motive (.atom leaf))
    (data : forall type constructor fields, (forall field, field ∈ fields -> motive field.2) ->
      motive (.data type constructor fields))
    (tied : forall content, motive content -> motive (.tied content)) (snapshot : Snapshot) :
    motive snapshot := by
  induction snapshot.finite with
  | intro snapshot _ ih =>
      cases snapshot with
      | atom leaf => exact atom leaf
      | data type constructor fields =>
          apply data
          intro field member
          exact ih field.2 (List.mem_map_of_mem member)
      | tied content => exact tied content (ih content (List.mem_singleton_self content))

end Snapshot

/-!
## The walk
-/

def Token.ofFields (first : Bool) : List (Symbol × List Token) -> List Token
  | [] => []
  | (name, tokens) :: rest => .field name first :: (tokens ++ ofFields false rest)

def Token.walking : Fold (List Token) where
  atom leaf := [.atom leaf]
  data type constructor fields :=
    .opening type constructor fields.length :: (ofFields true fields ++ [.closing fields.length])
  tied content := .tied :: (content ++ [.untied])

def Snapshot.walk (snapshot : Snapshot) : List Token :=
  snapshot.fold Token.walking

namespace Snapshot

theorem walk_atom (leaf : Atom) : (atom leaf).walk = [.atom leaf] :=
  fold_atom _ leaf

theorem walk_data (type constructor : Symbol) (fields : List (Symbol × Snapshot)) :
    (data type constructor fields).walk =
      .opening type constructor fields.length ::
        (Token.ofFields true (fields.map fun field => (field.1, field.2.walk)) ++
          [.closing fields.length]) := by
  unfold walk
  rw [fold_data]
  simp only [Token.walking, List.length_map]

theorem walk_tied (content : Snapshot) :
    (tied content).walk = .tied :: (content.walk ++ [.untied]) :=
  fold_tied _ content

end Snapshot

/-!
## The sequence of tokens
-/

namespace Task

def next? : List Task -> Option (Token × List Task)
  | [] => none
  | .emit token :: rest => some (token, rest)
  | .visit (.atom leaf) :: rest => some (.atom leaf, rest)
  | .visit (.data type constructor fields) :: rest =>
      some (.opening type constructor fields.length,
        ofFields true fields ++ .emit (.closing fields.length) :: rest)
  | .visit (.tied content) :: rest => some (.tied, .visit content :: .emit .untied :: rest)

/-- Asked for one token after the other, the tasks give these, and then they are done. -/
inductive Streams : List Task -> List Token -> Prop where
  | ended : Streams [] []
  | token {tasks after : List Task} {token : Token} {later : List Token}
      (step : next? tasks = some (token, after)) (rest : Streams after later) :
      Streams tasks (token :: later)

def Walks (snapshot : Snapshot) : Prop :=
  forall rest later, Streams rest later ->
    Streams (.visit snapshot :: rest) (snapshot.walk ++ later)

theorem streams_ofFields {fields : List (Symbol × Snapshot)}
    (inside : forall field, field ∈ fields -> Walks field.2) {rest : List Task}
    {later : List Token} (streams : Streams rest later) (first : Bool) :
    Streams (ofFields first fields ++ rest)
      (Token.ofFields first (fields.map fun field => (field.1, field.2.walk)) ++ later) := by
  induction fields generalizing first with
  | nil => exact streams
  | cons field fields ih =>
      have others := ih (fun other member => inside other (List.mem_cons_of_mem _ member)) false
      have walks := inside field List.mem_cons_self _ _ others
      rw [← List.append_assoc] at walks
      exact .token rfl walks

theorem walks (snapshot : Snapshot) : Walks snapshot := by
  induction snapshot using Snapshot.induction with
  | atom leaf =>
      intro rest later streams
      rw [Snapshot.walk_atom]
      exact .token rfl streams
  | data type constructor fields inside =>
      intro rest later streams
      rw [Snapshot.walk_data, List.cons_append, List.append_assoc]
      exact .token rfl (streams_ofFields inside (.token rfl streams) true)
  | tied content inside =>
      intro rest later streams
      have closed : Streams (.emit .untied :: rest) (.untied :: later) := .token rfl streams
      rw [Snapshot.walk_tied, List.cons_append, List.append_assoc]
      exact .token rfl (inside _ _ closed)

theorem collect_of_next? {tasks after : List Task} {token : Token}
    (step : next? tasks = some (token, after)) (tokens : Array Token) :
    Token.collect tokens tasks = Token.collect (tokens.push token) after := by
  unfold next? at step
  split at step
  · cases step
  all_goals
    cases step
    rw [Token.collect]

theorem Streams.toList_collect {tasks : List Task} {stream : List Token}
    (streams : Streams tasks stream) (tokens : Array Token) :
    (Token.collect tokens tasks).toList = tokens.toList ++ stream := by
  induction streams generalizing tokens with
  | ended => rw [Token.collect, List.append_nil]
  | token step _ ih =>
      rw [collect_of_next? step, ih, Array.toList_push, List.append_assoc, List.singleton_append]

end Task

theorem Snapshot.streams_walk (snapshot : Snapshot) :
    Task.Streams [.visit snapshot] snapshot.walk := by
  have streams := Task.walks snapshot [] [] .ended
  rw [List.append_nil] at streams
  exact streams

theorem Snapshot.toList_tokens (snapshot : Snapshot) : snapshot.tokens.toList = snapshot.walk :=
  snapshot.streams_walk.toList_collect #[]

/-!
## Balance
-/

namespace Token

/-- Whatever is opened is closed again, and in between everything is balanced too. -/
inductive Balanced : List Token -> Prop where
  | nil : Balanced []
  | atom (leaf : Atom) : Balanced [.atom leaf]
  | field (name : Symbol) (first : Bool) : Balanced [.field name first]
  | data (type constructor : Symbol) (arity : Nat) {inside : List Token}
      (balanced : Balanced inside) :
      Balanced (.opening type constructor arity :: (inside ++ [.closing arity]))
  | tied {inside : List Token} (balanced : Balanced inside) :
      Balanced (.tied :: (inside ++ [.untied]))
  | append {first second : List Token} (left : Balanced first) (right : Balanced second) :
      Balanced (first ++ second)

theorem balanced_ofFields {fields : List (Symbol × List Token)}
    (inside : forall field, field ∈ fields -> Balanced field.2) (first : Bool) :
    Balanced (ofFields first fields) := by
  induction fields generalizing first with
  | nil => exact .nil
  | cons field rest ih =>
      have others := ih (fun other member => inside other (List.mem_cons_of_mem _ member)) false
      exact .append (.field field.1 first) (.append (inside field List.mem_cons_self) others)

theorem exists_ofFields_append (first : Bool) (before : List (Symbol × List Token)) (name : Symbol)
    (after : List (Symbol × List Token)) :
    exists mark, forall tokens, ofFields first (before ++ (name, tokens) :: after) =
      ofFields first before ++ .field name mark :: (tokens ++ ofFields false after) := by
  induction before generalizing first with
  | nil => exact ⟨first, fun tokens => rfl⟩
  | cons field rest ih =>
      rcases ih false with ⟨mark, split⟩
      refine ⟨mark, fun tokens => ?_⟩
      rw [List.cons_append, ofFields, split, ofFields, List.cons_append, List.append_assoc]

end Token

namespace Snapshot

theorem balanced_fields (fields : List (Symbol × Snapshot))
    (inside : forall field, field ∈ fields -> Token.Balanced field.2.walk) (first : Bool) :
    Token.Balanced (Token.ofFields first (fields.map fun field => (field.1, field.2.walk))) := by
  apply Token.balanced_ofFields
  intro field member
  rcases List.mem_map.mp member with ⟨own, among, rfl⟩
  exact inside own among

theorem balanced_walk (snapshot : Snapshot) : Token.Balanced snapshot.walk := by
  induction snapshot using Snapshot.induction with
  | atom leaf =>
      rw [walk_atom]
      exact .atom leaf
  | data type constructor fields inside =>
      rw [walk_data]
      exact .data _ _ _ (balanced_fields fields inside true)
  | tied content inside =>
      rw [walk_tied]
      exact .tied inside

theorem exists_walk_around (surrounding : Surrounding) :
    exists before after,
      (forall inner, Token.Balanced inner -> Token.Balanced (before ++ (inner ++ after))) ∧
        forall part, (surrounding.around part).walk = before ++ (part.walk ++ after) := by
  cases surrounding with
  | data type constructor front name back =>
      let arity := front.length + (back.length + 1)
      let shown := fun field : Symbol × Snapshot => (field.1, field.2.walk)
      rcases Token.exists_ofFields_append true (front.map shown) name (back.map shown) with
        ⟨first, split⟩
      refine ⟨.opening type constructor arity ::
          (Token.ofFields true (front.map shown) ++ [.field name first]),
        Token.ofFields false (back.map shown) ++ [.closing arity], ?_, ?_⟩
      · intro inner balanced
        have fields := (balanced_fields front (fun field _ => field.2.balanced_walk) true).append
          (.append (.field name first) (balanced.append
            (balanced_fields back (fun field _ => field.2.balanced_walk) false)))
        have closed := Token.Balanced.data type constructor arity fields
        simpa [shown] using closed
      · intro part
        rw [Surrounding.around, walk_data, List.map_append, List.map_cons, split]
        simp [arity, shown]
  | tied =>
      refine ⟨[.tied], [.untied], fun inner balanced => .tied balanced, fun part => ?_⟩
      exact walk_tied part

theorem exists_walk_place (surroundings : List Surrounding) :
    exists before after, Token.Balanced (before ++ after) ∧
      forall part, (place surroundings part).walk = before ++ (part.walk ++ after) := by
  induction surroundings with
  | nil => exact ⟨[], [], .nil, fun part => (List.append_nil _).symm⟩
  | cons surrounding rest ih =>
      rcases ih with ⟨before, after, balanced, inside⟩
      rcases exists_walk_around surrounding with ⟨front, back, encloses, around⟩
      refine ⟨front ++ before, after ++ back, ?_, fun part => ?_⟩
      · simpa using encloses _ balanced
      · have outer := around (place rest part)
        rw [inside part] at outer
        simpa [place] using outer

end Snapshot

end StrictLambda
