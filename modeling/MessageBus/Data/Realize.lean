/-
Fitting shapes onto D-Bus types.

The type decides: integers are converted between widths when they fit, strings become paths and signatures, a unit
variant becomes its name where a string is wanted and its index elsewhere, a record becomes a dict of its fields or a
struct, and pairs fill a dict. Only inside a variant is the type chosen from the shape.
-/
import MessageBus.Data.Infer

namespace MessageBus

/-- convert a scalar to a basic type; a boolean, a double and a string are only accepted as such -/
def Scalar.convert (value : Scalar) (type : Basic) : Except Error Scalar :=
  let mismatch : Error := .typeMismatch (Ty.text (.basic type)) value.kindName
  match type, value with
  | .int kind, value => do return .int kind (← (Value.scalar value).toWord kind)
  | .boolean, .boolean b => .ok (.boolean b)
  | .double, .double bits => .ok (.double bits)
  | .text .string, .text .string content => .ok (.text .string content)
  | .text .objectPath, .text .string path => do
    NameKind.objectPath.check path
    return .text .objectPath path
  | .text .signature, .text .string content => do
    let _ ← Ty.parse content
    return .text .signature content
  | _, _ => .error mismatch

namespace Shape

/-- a shape that is no value of a type -/
def misfit (type : Ty) (found : String) : Error := .typeMismatch type.text found

/-- a tuple or sequence of two -/
def isPair : Shape → Bool
  | tuple [_, _] | seq [_, _] => true
  | _ => false

/-- a field name as a key of a type -/
def realizeName (type : Ty) (name : String) : Except Error Value :=
  match type with
  | .variant => .ok (.variant (.basic (.text .string)) (.string name))
  | .basic type => do return .scalar (← (Scalar.text .string name).convert type)
  | type => .error (misfit type TextKind.string.name)

mutual
/-- the value of a shape as a value of a type -/
def realize (policy : Policy) : Ty → Shape → Except Error Value
  | .variant, shape => do
    let (type, value) ← shape.infer policy
    return .variant type value
  | .basic type, leaf value => do return .scalar (← value.convert type)
  | type, leaf value => .error (misfit type value.kindName)
  | .basic (.text .string), unitVariant _ name => .ok (.string name)
  | .basic type, unitVariant index _ => do
    return .scalar (← (Scalar.int .uint32 (BitVec.ofNat 32 index)).convert type)
  | type, unitVariant index _ => .error (misfit type (Scalar.int .uint32 (BitVec.ofNat 32 index)).kindName)
  | .array (.dictEntry key value), map entries => do return .dict (← realizeEntries policy key value entries)
  | .array (.dictEntry key value), record _ fields => do return .dict (← realizePresent policy key value fields)
  | .array (.dictEntry key value), seq items =>
    match items.find? fun item => !item.isPair with
    | some item => .error (misfit (.dictEntry key value) item.kindName)
    | none => do return .dict (← realizePairs policy key value items)
  | .array (.dictEntry key value), shape => .error (misfit (.array (.dictEntry key value)) shape.kindName)
  | .array element, seq items | .array element, tuple items => do
    return .array (← realizeAll policy element items)
  | .struct types, seq items | .struct types, tuple items =>
    if types.length = items.length then do return .struct (← realizeItems policy types items)
    else .error (misfit (.struct types) "struct with a different number of fields")
  | .struct types, record _ fields =>
    if types.length = fields.length then do return .struct (← realizeFields policy types fields)
    else .error (misfit (.struct types) "struct with a different number of fields")
  | .dictEntry key value, seq [first, second] | .dictEntry key value, tuple [first, second] => do
    let first ← first.realize policy key
    return .struct [first, ← second.realize policy value]
  | type, shape => .error (misfit type shape.kindName)
/-- several shapes as values of one type -/
def realizeAll (policy : Policy) (type : Ty) : List Shape → Except Error (List Value)
  | [] => .ok []
  | item :: items => do
    let item ← item.realize policy type
    return item :: (← realizeAll policy type items)
/-- several shapes as values of as many types -/
def realizeItems (policy : Policy) : List Ty → List Shape → Except Error (List Value)
  | type :: types, item :: items => do
    let item ← item.realize policy type
    return item :: (← realizeItems policy types items)
  | _, _ => .ok []
/-- the fields of a record as values of as many types -/
def realizeFields (policy : Policy) : List Ty → List (String × Shape) → Except Error (List Value)
  | type :: types, (_, field) :: fields => do
    let field ← field.realize policy type
    return field :: (← realizeFields policy types fields)
  | _, _ => .ok []
/-- the entries of a map as entries of a dict -/
def realizeEntries (policy : Policy) (keyType valueType : Ty) :
    List (Shape × Shape) → Except Error (List (Value × Value))
  | [] => .ok []
  | (key, value) :: entries => do
    let key ← key.realize policy keyType
    let value ← value.realize policy valueType
    return (key, value) :: (← realizeEntries policy keyType valueType entries)
/-- the fields of a record that are present as entries of a dict -/
def realizePresent (policy : Policy) (keyType valueType : Ty) :
    List (String × Shape) → Except Error (List (Value × Value))
  | [] => .ok []
  | (_, absent) :: fields => realizePresent policy keyType valueType fields
  | (name, field) :: fields => do
    let key ← realizeName keyType name
    let value ← field.realize policy valueType
    return (key, value) :: (← realizePresent policy keyType valueType fields)
/-- pairs as entries of a dict -/
def realizePairs (policy : Policy) (keyType valueType : Ty) : List Shape → Except Error (List (Value × Value))
  | [] => .ok []
  | tuple [key, value] :: items | seq [key, value] :: items => do
    let key ← key.realize policy keyType
    let value ← value.realize policy valueType
    return (key, value) :: (← realizePairs policy keyType valueType items)
  | item :: _ => .error (misfit (.dictEntry keyType valueType) item.kindName)
end

end Shape

/-- the value of a datum as a value of a type -/
def Datum.toValue (datum : Datum) (policy : Policy) (type : Ty) : Except Error Value := do
  (← datum.shape).realize policy type

namespace Body

/-- lay a shape out over the arguments of a signature: a shape as the only argument, unless it is a tuple of one and
the type no struct, or the elements of a tuple or sequence as several -/
def spread (signature : String) (types : List Ty) (shape : Shape) : Except Error (List Shape) :=
  match types, shape with
  | [], .absent => .ok []
  | [.struct _], shape => .ok [shape]
  | [_], .tuple [item] => .ok [item]
  | [_], shape => .ok [shape]
  | types, .tuple items | types, .seq items =>
    if types.length = items.length then .ok items else .error (.typeMismatch signature shape.kindName)
  | _, shape => .error (.typeMismatch signature shape.kindName)

/-- the body of a signature that holds a datum -/
def ofDatum (signature : String) (datum : Datum) (policy : Policy) : Except Error Body := do
  let types ← Ty.parse signature
  let items ← spread signature types (← datum.shape)
  ofParts types (← Shape.realizeItems policy types items)

end Body

end MessageBus
