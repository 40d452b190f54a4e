/-
Shapes: host data that has not been given a D-Bus type yet.

A shape keeps what decides between types (is it a tuple or a sequence, which fields have names) and forgets the rest:
an optional value is its content or absent, a newtype is its content, and a variant with content is a map of one entry
from its name.
-/
import MessageBus.Data.Datum
import MessageBus.Binary.Rounding
import MessageBus.Value

namespace MessageBus

inductive Shape where
  | absent
  | leaf (value : Scalar)
  | unitVariant (index : Nat) (name : String)
  | seq (items : List Shape)
  | tuple (items : List Shape)
  | map (entries : List (Shape × Shape))
  | record (name : String) (fields : List (String × Shape))
  deriving Repr

namespace Shape

def kindName : Shape → String
  | absent => "nothing"
  | leaf value => value.kindName
  | unitVariant _ _ => "enum variant"
  | seq _ => "sequence"
  | tuple _ => "tuple"
  | map _ => "map"
  | record _ _ => "struct"

abbrev string (text : String) : Shape := .leaf (.text .string text)

/-- the name of a variant in front of its content -/
def named (name : String) (content : Shape) : Shape := .map [(string name, content)]

end Shape

/-- the D-Bus integers that a host integer is written as when nothing else is asked for -/
def HostInt.kind : HostInt → IntKind
  | i8 | i16 => .int16
  | i32 => .int32
  | i64 => .int64
  | u8 => .byte
  | u16 => .uint16
  | u32 => .uint32
  | u64 | usize => .uint64

namespace Datum

mutual
/-- the shape of a datum, unless some part of it cannot be written -/
def shape : Datum → Except Error Shape
  | bool value => .ok (.leaf (.boolean value))
  | int type value => .ok (.leaf (.int type.kind (BitVec.ofInt _ value)))
  | single bits => .ok (.leaf (.double (Binary.widen bits)))
  | double bits => .ok (.leaf (.double bits))
  | char value => .ok (Shape.string (String.singleton value))
  | text value => .ok (Shape.string value)
  | bytes value => .ok (.seq (value.map fun byte => .leaf (.int .byte byte.toBitVec)))
  | absent | unit | unitStruct _ => .ok .absent
  | present content | newtypeStruct _ content => content.shape
  | seq items => do return .seq (← shapeAll items)
  | tuple items | tupleStruct _ items => do return .tuple (← shapeAll items)
  | record name fields => do return .record name (← shapeFields fields)
  | unitVariant _ index name => .ok (.unitVariant index name)
  | newtypeVariant _ _ name content => do return .named name (← content.shape)
  | tupleVariant _ _ name items => do return .named name (.tuple (← shapeAll items))
  | recordVariant _ _ name fields => do return .named name (.record name (← shapeFields fields))
  | map entries => do return .map (← shapeEntries entries)
  | mapParts parts => do return .map (← shapeParts none parts)
  | refused reason => .error (.unwritable (.refused reason))
  | unsupported type => .error (.unwritable (.unsupported type))
/-- the shapes of several data -/
def shapeAll : List Datum → Except Error (List Shape)
  | [] => .ok []
  | item :: items => do
    let item ← item.shape
    return item :: (← shapeAll items)
/-- the shapes of named data -/
def shapeFields : List (String × Datum) → Except Error (List (String × Shape))
  | [] => .ok []
  | (name, field) :: fields => do
    let field ← field.shape
    return (name, field) :: (← shapeFields fields)
/-- the shapes of pairs of data -/
def shapeEntries : List (Datum × Datum) → Except Error (List (Shape × Shape))
  | [] => .ok []
  | (key, value) :: entries => do
    let key ← key.shape
    let value ← value.shape
    return (key, value) :: (← shapeEntries entries)
/-- pair keys with the values that follow them; `waiting` is a key without a value so far -/
def shapeParts (waiting : Option Shape) : List (MapPart × Datum) → Except Error (List (Shape × Shape))
  | [] => .ok []
  | (.key, key) :: parts => do
    let key ← key.shape
    shapeParts (some key) parts
  | (.value, value) :: parts => do
    match waiting with
    | none => .error (.unwritable .valueBeforeKey)
    | some key =>
      let value ← value.shape
      return (key, value) :: (← shapeParts none parts)
end

end Datum

end MessageBus
