/-!
# Steps that can fail

What is known of two steps, one after the other, once the outcome of both together is known.
-/

namespace StrictLambda

variable {Error First Second : Type} {first : Except Error First}
  {rest : First -> Except Error Second}

theorem ok_bind (value : First) : (.ok value : Except Error First) >>= rest = rest value :=
  rfl

theorem bind_eq_ok_iff {result : Second} :
    first >>= rest = .ok result ↔ exists value, first = .ok value ∧ rest value = .ok result := by
  constructor
  · intro bound
    cases first with
    | error failure => cases bound
    | ok value => exact ⟨value, rfl, bound⟩
  · intro chain
    rcases chain with ⟨value, rfl, continued⟩
    exact continued

theorem bind_eq_error_iff {failure : Error} :
    first >>= rest = .error failure ↔
      first = .error failure ∨ exists value, first = .ok value ∧ rest value = .error failure := by
  constructor
  · intro bound
    cases first with
    | error own =>
        cases bound
        exact .inl rfl
    | ok value => exact .inr ⟨value, rfl, bound⟩
  · intro causes
    rcases causes with rfl | ⟨value, rfl, continued⟩
    · rfl
    · exact continued

theorem bind_eq_map {Other OtherSecond : Type} {change : First -> Other}
    {finish : Second -> OtherSecond} {second : Except Error Other}
    {others : Other -> Except Error OtherSecond} (same : second = first.map change)
    (continued : forall value, others (change value) = (rest value).map finish) :
    second >>= others = (first >>= rest).map finish := by
  subst same
  cases first with
  | error failure => rfl
  | ok value => exact continued value

theorem mapError_bind {OtherError : Type} (change : Error -> OtherError) :
    (first >>= rest).mapError change =
      first.mapError change >>= fun value => (rest value).mapError change := by
  cases first <;> rfl

/-!
## Corresponding steps
-/

/-- Both steps fail in the same way, or they come to related results. -/
inductive Corresponds {Error First Second : Type} (Related : First -> Second -> Prop) :
    Except Error First -> Except Error Second -> Prop where
  | ok {value : First} {other : Second} (related : Related value other) :
      Corresponds Related (.ok value) (.ok other)
  | error (failure : Error) : Corresponds Related (.error failure) (.error failure)

namespace Corresponds

variable {Other OtherSecond : Type} {second : Except Error Other} {change : First -> Other}
  {others : Other -> Except Error OtherSecond} {Related : Second -> OtherSecond -> Prop}

theorem bind (same : second = first.map change)
    (continued : forall value, first = .ok value ->
      Corresponds Related (rest value) (others (change value))) :
    Corresponds Related (first >>= rest) (second >>= others) := by
  subst same
  cases first with
  | error failure => exact .error failure
  | ok value => exact continued value rfl

theorem bind_same {others : First -> Except Error OtherSecond} {second : Except Error First}
    (same : second = first)
    (continued : forall value, first = .ok value ->
      Corresponds Related (rest value) (others value)) :
    Corresponds Related (first >>= rest) (second >>= others) := by
  subst same
  cases second with
  | error failure => exact .error failure
  | ok value => exact continued value rfl

theorem followed {Before : First -> Other -> Prop} {second : Except Error Other}
    (corresponds : Corresponds Before first second)
    (continued : forall value other, first = .ok value -> second = .ok other ->
      Before value other -> Corresponds Related (rest value) (others other)) :
    Corresponds Related (first >>= rest) (second >>= others) := by
  cases corresponds with
  | ok related => exact continued _ _ rfl rfl related
  | error failure => exact .error failure

end Corresponds
end StrictLambda
