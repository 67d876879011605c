import StrictLambda.Proofs.Builder.Completeness
import StrictLambda.Proofs.Builder.Correctness

/-!
# Where the blocks of a tree come from

All blocks of a tree that was built from a term have been built in the same way: the outermost one
from the term itself, and the others from the bodies of abstractions.  So what is known of one
construction that starts with nothing is known of every block.
-/

namespace StrictLambda
namespace Block

open Draft

/-!
## Constructions of blocks
-/

/-- The block has been built from a term in tail position.  What is known at its start lies in its
parameters. -/
structure Made (block : Block) (site : Site) (term : Term) (locals : Locals) (inner : Draft) :
    Prop where
  builds : Builds (.tail site term) (.start block.parameters locals) inner
  nodes : block.nodes = inner.nodes.toList
  known : forall id place, locals.entries.lookup id = some place ->
    place.register.index < block.parameters

/-- A function is created from a block that was built.  Its term can be read in some scope, provided
that this is so of what is constructed. -/
def MakesBody (Fits : Prop) : Node -> Prop
  | .function _ block _ _ =>
      exists site term locals inner, block.Made site term locals inner ∧
        (Fits -> exists scope, term.FitsScope scope)
  | _ => True

theorem Draft.AddsOnly.makesBody {Fits Own : Prop} {draft after : Draft}
    (adds : draft.AddsOnly (MakesBody Own) after) (passes : Fits -> Own) :
    draft.AddsOnly (MakesBody Fits) after := by
  apply adds.mono
  intro node makes
  cases node with
  | function dest block sources span =>
      rcases makes with ⟨site, term, locals, inner, made, fits⟩
      exact ⟨site, term, locals, inner, made, fun outer => fits (passes outer)⟩
  | operation | data | dataType | jump | jumpUnless | label => exact trivial

theorem register_lt_of_lookup_defineCaptures {locals : Locals} {index bound : Nat}
    {places : List (Binding × Local)} (room : index + places.length <= bound)
    (known : forall id place, locals.entries.lookup id = some place ->
      place.register.index < bound) :
    forall id place, (locals.defineCaptures index places).entries.lookup id = some place ->
      place.register.index < bound := by
  induction places generalizing locals index with
  | nil => exact known
  | cons first rest ih =>
      rw [List.length_cons] at room
      rw [Locals.defineCaptures]
      apply ih (by omega)
      intro id place found
      rcases of_lookup_define found with ⟨_, rfl⟩ | ⟨_, before⟩
      · show index < bound
        omega
      · exact known id place before

theorem register_lt_of_lookup_ofFunction (parameter : Binding) (places : List (Binding × Local)) :
    forall id place, (Locals.ofFunction parameter places).entries.lookup id = some place ->
      place.register.index < places.length + 1 := by
  apply register_lt_of_lookup_defineCaptures (Nat.le_of_eq (Nat.add_comm 1 _))
  intro id place found
  rcases of_lookup_define found with ⟨_, rfl⟩ | ⟨_, before⟩
  · exact Nat.succ_pos _
  · cases before

theorem makesBody_operation (Fits : Prop) (action : Operation) (span : Span) :
    MakesBody Fits (.operation action span) :=
  trivial

theorem makesBody_of_combines {term : Term} {operands : List Term} {dest : Register}
    {registers : List Register} {node : Node}
    (combines : Combines term operands dest registers node) (Fits : Prop) :
    MakesBody Fits node := by
  cases combines <;> exact trivial

theorem makesBody_readNode (Fits : Prop) (span : Span) (dest : Register) (place : Local) :
    MakesBody Fits (readNode span dest place) := by
  unfold readNode
  split <;> exact trivial

def Construction.Fits (construction : Construction) : Prop :=
  exists scope, construction.FitsScope scope

theorem addsOnly_makesBody {construction : Construction} {draft after : Draft}
    (builds : Builds construction draft after) :
    draft.AddsOnly (MakesBody construction.Fits) after := by
  induction builds with
  | none => exact .refl _
  | more _ _ ihFirst ihOthers =>
      apply (ihFirst.makesBody ?_).trans (ihOthers.makesBody ?_)
      · rintro ⟨scope, fits⟩
        exact ⟨scope, fits _ List.mem_cons_self⟩
      · rintro ⟨scope, fits⟩
        exact ⟨scope, fun term member => fits term (List.mem_cons_of_mem _ member)⟩
  | var => exact .produce (makesBody_readNode _ _ _ _)
  | @abs draft inner span parameter body captures free found built _ =>
      have made : (Block.mk (captures.length + 1) inner.nodes.toList span).Made .functionBody body
          (.ofFunction parameter captures) inner :=
        ⟨built, rfl, register_lt_of_lookup_ofFunction parameter captures⟩
      have fitsBody : (Construction.value (.abs span parameter body) draft.next).Fits ->
          exists scope, body.FitsScope scope := fun ⟨_, fits⟩ => ⟨_, Term.FitsScope.abs_body fits⟩
      exact .produce ⟨_, _, _, _, made, fitsBody⟩
  | combine combines _ ih =>
      apply (ih.makesBody ?_).trans (.produce (makesBody_of_combines combines _))
      rintro ⟨scope, fits⟩
      exact ⟨scope, fitsScope_of_combines combines fits⟩
  | letIn _ _ ihBound ih | tailLetIn _ _ ihBound ih =>
      apply (ihBound.makesBody ?_).trans (ih.makesBody ?_)
      · rintro ⟨scope, fits⟩
        rcases Term.FitsScope.letIn fits with ⟨fresh, definition, _⟩
        exact ⟨scope, fresh, definition⟩
      · rintro ⟨scope, fits⟩
        exact ⟨_, (Term.FitsScope.letIn fits).2.2⟩
  | group _ ih | tailGroup _ ih =>
      apply ih.makesBody
      rintro ⟨scope, fits⟩
      exact ⟨scope, Term.FitsScope.group fits⟩
  | cond _ _ _ ihTests ihHolds ihFails =>
      apply AddsOnly.cond (ihTests.makesBody ?tests) (ihHolds.makesBody ?holds)
        (ihFails.makesBody ?fails) trivial trivial trivial trivial (fun _ _ => trivial)
      all_goals
        rintro ⟨scope, fits⟩
        rcases Term.FitsScope.cond fits with ⟨condition, consequent, alternative⟩
      case tests => exact ⟨scope, condition⟩
      case holds => exact ⟨scope, consequent⟩
      case fails => exact ⟨scope, alternative⟩
  | bindPlain plain _ ih =>
      apply ih.makesBody
      rintro ⟨scope, fits⟩
      exact ⟨scope, fits.2.of_not_mentions plain⟩
  | @bindRecursive draft after span binding definition register _ _ ih =>
      have begins : draft.AddsOnly (MakesBody (Construction.bind span binding definition).Fits)
          (draft.produce (.operation (.beginFixpoint draft.next) span)) :=
        .produce (makesBody_operation _ _ _)
      have ends : after.AddsOnly (MakesBody (Construction.bind span binding definition).Fits)
          (after.emit (.operation (.endFixpoint draft.next register) definition.span)) :=
        .emit (makesBody_operation _ _ _)
      apply begins.trans (AddsOnly.trans (ih.makesBody ?_) ends)
      rintro ⟨scope, fits⟩
      exact ⟨_, fits.2⟩
  | leave _ _ ih => exact ih.trans (.emit (makesBody_operation _ _ _))
  | tailCall _ ih =>
      apply (ih.makesBody ?_).trans (.emit (makesBody_operation _ _ _))
      rintro ⟨scope, fits⟩
      rcases Term.FitsScope.app fits with ⟨function, argument⟩
      exact ⟨scope, List.forall_mem_cons.mpr ⟨function, List.forall_mem_singleton.mpr argument⟩⟩
  | tailCond _ _ _ ihTests ihHolds ihFails =>
      apply AddsOnly.tailCond (ihTests.makesBody ?tests) (ihHolds.makesBody ?holds)
        (ihFails.makesBody ?fails) trivial (fun _ _ => trivial)
      all_goals
        rintro ⟨scope, fits⟩
        rcases Term.FitsScope.cond fits with ⟨condition, consequent, alternative⟩
      case tests => exact ⟨scope, condition⟩
      case holds => exact ⟨scope, consequent⟩
      case fails => exact ⟨scope, alternative⟩

/-!
## Blocks of trees
-/

theorem builtFrom_of_ofTerm {term : Term} {tree : Block} (built : ofTerm term = .ok tree) :
    tree.BuiltFrom term := by
  rcases Building.of_close built with ⟨inner, ran, rfl⟩
  exact ⟨inner, (ruled term).tail ran, rfl⟩

/-- The block has been built from a term, which can be read in some scope if nothing is wrong with
the whole term. -/
def ComesFrom (block : Block) (whole : Term) : Prop :=
  exists site term locals inner, block.Made site term locals inner ∧
    (whole.FitsScope [] -> exists scope, term.FitsScope scope)

theorem ComesFrom.nested {block created : Block} {whole : Term} (comes : block.ComesFrom whole)
    {dest : Register} {captures : List Register} {span : Span}
    (creates : Node.function dest created captures span ∈ block.nodes) :
    created.ComesFrom whole := by
  rcases comes with ⟨site, term, locals, inner, made, fits⟩
  rw [made.nodes] at creates
  rcases (addsOnly_makesBody made.builds).of_mem creates with
    ⟨own, ownTerm, ownLocals, ownInner, ownMade, ownFits⟩
  exact ⟨own, ownTerm, ownLocals, ownInner, ownMade, fun outer => ownFits (fits outer)⟩

theorem comesFrom_of_builtFrom {tree : Block} {term : Term} (builtFrom : tree.BuiltFrom term) :
    tree.ComesFrom term := by
  rcases builtFrom with ⟨inner, builds, rfl⟩
  have made : (Block.mk 0 inner.nodes.toList term.span).Made .topLevel term .empty inner :=
    ⟨builds, rfl, fun _ _ unknown => nomatch unknown⟩
  exact ⟨_, _, _, _, made, fun fits => ⟨[], fits⟩⟩

theorem comesFrom_of_mem_bodies {tree block : Block} {term : Term}
    (builtFrom : tree.BuiltFrom term) (member : block ∈ tree.bodies) : block.ComesFrom term := by
  rcases List.mem_iff_getElem?.mp member with ⟨number, found⟩
  have nested : forall (body : Body) position dest (created : Block) captures span,
      body.block.ComesFrom term ->
        body.block.nodes[position]? = some (Node.function dest created captures span) ->
          created.ComesFrom term :=
    fun _ _ _ _ _ _ comes creates => comes.nested (List.mem_of_getElem? creates)
  exact @kept_of_getElem?_bodies (fun body => body.block.ComesFrom term) nested tree 0
    (comesFrom_of_builtFrom builtFrom) number block found

end Block
end StrictLambda
