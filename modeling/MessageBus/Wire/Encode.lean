/-
Writing values as bytes.

A value is written together with its type, which decides alignment and layout. Integers of any kind are accepted for
an integer type that they fit, the integers 0 and 1 for a boolean, strings for paths and signatures, and an array of
pairs for a dict. An encoder that fails keeps what it has written so far. Containers, variants included, nest at most
64 deep: `levels` counts how many are still allowed.
-/
import MessageBus.Value
import MessageBus.Text.Utf8
import MessageBus.Wire.Writer

namespace MessageBus.Wire

/-- most containers around one another, variants included -/
def maxDepth : Nat := 64

/-- longest array body in bytes: 64 MiB -/
def maxArrayLength : Nat := 64 * 1024 * 1024

/-- a step that writes, and may fail after having written -/
abbrev Encoder (α : Type) := ExceptT Error (StateM Writer) α

namespace Encoder

def align (alignment : Nat) : Encoder Unit := modify (·.align alignment)

def append (bytes : List UInt8) : Encoder Unit := modify (·.append bytes)

def put (size n : Nat) : Encoder Unit := modify (·.put size n)

def startLength : Encoder LengthSlot := modifyGet (·.startLength)

def beginLength (slot : LengthSlot) : Encoder LengthSlot := return (← get).beginLength slot

def finishLength (slot : LengthSlot) : Encoder Nat := modifyGet (·.finishLength slot)

end Encoder

open Encoder

/-- the type and the kind of value that was met in its place -/
def mismatch (type : Ty) (value : Value) : Error := .typeMismatch type.text value.kindName

/-- a word with the byte count, the bytes, and a NUL, which may not occur among the bytes -/
def putText (text : String) : Encoder Unit := do
  if text.contains '\x00' then throw .embeddedNul
  if UInt32.size ≤ text.utf8ByteSize then throw (.messageTooLong text.utf8ByteSize)
  put 4 text.utf8ByteSize
  append (Text.utf8 text)
  append [0]

/-- a byte with the byte count, the bytes, and a NUL; the text has to be a signature -/
def putSignature (text : String) : Encoder Unit := do
  let _ ← Ty.parse text
  put 1 text.utf8ByteSize
  append (Text.utf8 text)
  append [0]

/-- write a value of a basic type -/
def encodeBasic (type : Basic) (value : Value) : Encoder Unit :=
  match type with
  | .int kind => do put kind.size (← value.toWord kind).toNat
  | .boolean =>
    match value with
    | .scalar (.boolean b) => put 4 b.toNat
    | _ =>
      if value.number? = some 0 then put 4 0
      else if value.number? = some 1 then put 4 1
      else throw (mismatch (.basic type) value)
  | .double =>
    match value with
    | .scalar (.double bits) => put 8 bits.toNat
    | _ => throw (mismatch (.basic type) value)
  | .text .string =>
    match value with
    | .scalar (.text .string text) => putText text
    | _ => throw (mismatch (.basic type) value)
  | .text .objectPath =>
    match value with
    | .scalar (.text .objectPath path) | .scalar (.text .string path) => do
      NameKind.objectPath.check path
      putText path
    | _ => throw (mismatch (.basic type) value)
  | .text .signature =>
    match value with
    | .scalar (.text .signature text) | .scalar (.text .string text) => putSignature text
    | _ => throw (mismatch (.basic type) value)

/-- write a value of any type, of which `levels` more containers may nest -/
def encodeWithin : (levels : Nat) → Ty → Value → Encoder Unit
  | 0, type, _ => throw (.signatureTooComplex type.text)
  | levels + 1, type, value =>
    match type, value with
    | .basic type, value => encodeBasic type value
    | .variant, .variant type value => do
      putSignature type.text
      encodeWithin levels type value
    | .array element, value => do
      let slot ← startLength
      align element.alignment
      let slot ← beginLength slot
      match element, value with
      | .dictEntry key value, .dict entries =>
        entries.forM fun entry => do
          align 8
          encodeWithin levels key entry.1
          encodeWithin levels value entry.2
      | element, .array items => items.forM (encodeWithin levels element)
      | element, value => throw (mismatch (.array element) value)
      let length ← finishLength slot
      if maxArrayLength < length then throw (.arrayTooLong length)
    | .struct types, .struct fields =>
      if types.length = fields.length then do
        align 8
        (types.zip fields).forM fun field => encodeWithin levels field.1 field.2
      else throw (mismatch (.struct types) (.struct fields))
    | .dictEntry key value, .struct [first, second] => do
      align 8
      encodeWithin levels key first
      encodeWithin levels value second
    | type, value => throw (mismatch type value)

/-- write a value of a type -/
def encode (type : Ty) (value : Value) : Encoder Unit := encodeWithin (maxDepth + 1) type value

/-- write an argument list, one value for each type -/
def encodeAll (types : List Ty) (values : List Value) : Encoder Unit :=
  if types.length = values.length then (types.zip values).forM fun argument => encode argument.1 argument.2
  else throw (.typeMismatch (Ty.textAll types) "argument list of a different length")

/-- the bytes of an argument list that starts at a multiple of eight -/
def marshal (order : ByteOrder) (types : List Ty) (values : List Value) : Except Error (List UInt8) :=
  match (encodeAll types values).run (Writer.new order 0) with
  | (.ok _, w) => .ok w.data.toList
  | (.error e, _) => .error e

/-- the little-endian bytes of an argument list for a signature -/
def marshalText (signature : String) (values : List Value) : Except Error (List UInt8) := do
  marshal .little (← Ty.parse signature) values

end MessageBus.Wire
