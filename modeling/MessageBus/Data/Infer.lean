/-
Choosing a D-Bus type for a shape.

A sequence whose elements share a type becomes an array of that type, any other an array of variants; a map becomes a
dict, whose keys have to share a basic type; a tuple becomes a struct. A record becomes a struct or a dict from field
names to variants, as the policy says for its name, and a dict leaves absent fields out. A unit variant is its name.
-/
import MessageBus.Data.Shape

namespace MessageBus

/-- the two forms of a record -/
inductive RecordStyle where
  | dict | struct
  deriving DecidableEq, Repr

/-- which form a record takes, by its name, when its type is chosen -/
abbrev Policy := String → RecordStyle

namespace Policy

/-- every record is a dict -/
def dicts : Policy := fun _ => .dict

/-- every record is a struct -/
def structs : Policy := fun _ => .struct

/-- the records of the given names are structs, all others dicts -/
def structsNamed (names : List String) : Policy := fun name => if names.contains name then .struct else .dict

end Policy

namespace Shape

/-- give typed values one type: their own, if they share one, or else that of a variant around each -/
def unify (typed : List (Ty × Value)) : Ty × List Value :=
  match typed with
  | [] => (.variant, [])
  | (type, _) :: _ =>
    if typed.all fun other => other.1 = type then (type, typed.map (·.2))
    else (.variant, typed.map fun (type, value) => .variant type value)

/-- the dict of keys of one type and typed values; the keys of an empty one are strings -/
def dictOf (keyType : Option Ty) (entries : List (Value × Ty × Value)) : Ty × Value :=
  let (valueType, values) := unify (entries.map (·.2))
  (.array (.dictEntry (keyType.getD (.basic (.text .string))) valueType),
    .dict ((entries.map (·.1)).zip values))

/-- a shape that has no type of its own -/
def untyped (found : String) : Error := .typeMismatch (Ty.text .variant) found

mutual
/-- the type that a shape has of itself, and its value of that type -/
def infer (policy : Policy) : Shape → Except Error (Ty × Value)
  | absent => .error (untyped "nothing")
  | leaf value => .ok (.basic value.type, .scalar value)
  | unitVariant _ name => .ok (.basic (.text .string), .string name)
  | seq items => do
    let (type, values) := unify (← inferAll policy items)
    return (.array type, .array values)
  | tuple items =>
    if items.isEmpty then .error (untyped "empty tuple")
    else do
      let typed ← inferAll policy items
      return (.struct (typed.map (·.1)), .struct (typed.map (·.2)))
  | map entries => do
    let (keyType, entries) ← inferEntries policy none entries
    return dictOf keyType entries
  | record name fields =>
    match policy name with
    | .dict => do
      let entries ← inferPresent policy fields
      return (.array (.dictEntry (.basic (.text .string)) .variant), .dict entries)
    | .struct =>
      if fields.isEmpty then .error (untyped "empty tuple")
      else do
        let typed ← inferFields policy fields
        return (.struct (typed.map (·.1)), .struct (typed.map (·.2)))
/-- the types and values of several shapes -/
def inferAll (policy : Policy) : List Shape → Except Error (List (Ty × Value))
  | [] => .ok []
  | item :: items => do
    let item ← item.infer policy
    return item :: (← inferAll policy items)
/-- the types and values of all fields -/
def inferFields (policy : Policy) : List (String × Shape) → Except Error (List (Ty × Value))
  | [] => .ok []
  | (_, field) :: fields => do
    let field ← field.infer policy
    return field :: (← inferFields policy fields)
/-- the entries of the fields that are present -/
def inferPresent (policy : Policy) : List (String × Shape) → Except Error (List (Value × Value))
  | [] => .ok []
  | (_, absent) :: fields => inferPresent policy fields
  | (name, field) :: fields => do
    let (type, value) ← field.infer policy
    return (.string name, .variant type value) :: (← inferPresent policy fields)
/-- the entries of a map, and the basic type that all keys share with the first -/
def inferEntries (policy : Policy) (keyType : Option Ty) :
    List (Shape × Shape) → Except Error (Option Ty × List (Value × Ty × Value))
  | [] => .ok (keyType, [])
  | (key, value) :: entries => do
    let (type, key) ← key.infer policy
    if !type.isBasic || type ≠ keyType.getD type then
      .error (.typeMismatch "dict keys of one basic type" key.kindName)
    else
      let value ← value.infer policy
      let (keyType, entries) ← inferEntries policy (some type) entries
      return (keyType, (key, value) :: entries)
end

end Shape

/-- the value of a datum in a variant of the type that it has of itself -/
def Datum.toVariant (datum : Datum) (policy : Policy) : Except Error (Ty × Value) := do
  (← datum.shape).infer policy

end MessageBus
