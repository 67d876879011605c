import StrictLambda.Value.Basic

/-!
# Data values

Making a data value and taking it apart again.  Fields are found by their position in the
declaration, so names matter only until a constructor is known.
-/

namespace StrictLambda
namespace Value

variable {Code : Type}

def constructorNumbered (span : Span) (tag : Nat) (value : Value Code) :
    Except Failure (Declaration × Constructor) :=
  match value with
  | dataType declaration =>
      match declaration.constructors[tag]? with
      | some constructor => .ok (declaration, constructor)
      | none => .error (.fault (.unknownConstructor declaration.name tag) span)
  | other => .error (.fault (.notDataType other.kind) span)

def construct (span : Span) (declaration : Declaration) (constructor : Constructor) (tag : Nat)
    (fields : List (Value Code)) : Except Failure (Value Code) :=
  if fields.length = constructor.fields.length then
    .ok (data declaration tag fields)
  else
    .error (.fault (.arity constructor.name constructor.fields.length fields.length) span)

def member (span : Span) (field : Symbol) (value : Value Code) : Except Failure (Value Code) :=
  match value with
  | data declaration tag fields =>
      match declaration.constructors[tag]? with
      | some constructor =>
          match constructor.fieldIndex? field with
          | some index =>
              match fields[index]? with
              | some found => .ok found
              | none => .error (.fault (.missingField constructor.name field) span)
          | none => .error (.fault (.missingField constructor.name field) span)
      | none => .error (.defect .brokenFrame (some span))
  | other => .error (.fault (.notData field other.kind) span)

end Value
end StrictLambda
