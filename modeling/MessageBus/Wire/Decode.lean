/-
Reading values from bytes.

The type says what to read; a variant names the type of its content in the data. Padding is skipped unseen, all else
is checked as strictly as when writing. Containers, variants included, nest at most 64 deep: `levels` counts how many
are still allowed.
-/
import MessageBus.Wire.Encode
import MessageBus.Wire.Reader

namespace MessageBus.Wire

open Decoder

/-- read a value of a basic type -/
def decodeBasic : Basic → Decoder Scalar
  | .int kind => return .int kind (BitVec.ofNat kind.width (← word kind.size))
  | .boolean => do
    let n ← word 4
    if n = 0 then return .boolean false
    else if n = 1 then return .boolean true
    else throw (.invalidBoolean n)
  | .double => return .double (BitVec.ofNat 64 (← word 8))
  | .text .string => return .text .string (← terminated (← word 4))
  | .text .objectPath => do
    let path ← terminated (← word 4)
    NameKind.objectPath.check path
    return .text .objectPath path
  | .text .signature => do
    let text ← terminated (← word 1)
    let _ ← Ty.parse text
    return .text .signature text

/-- read a value of any type, of which `levels` more containers may nest; no element of a type that a signature can
name is empty, so an array has at most as many elements as bytes -/
def decodeWithin : (levels : Nat) → Ty → Decoder Value
  | 0, type => throw (.signatureTooComplex type.text)
  | levels + 1, type =>
    match type with
    | .basic type => return .scalar (← decodeBasic type)
    | .variant => do
      let type ← Ty.parseSingle (← terminated (← word 1))
      return .variant type (← decodeWithin levels type)
    | .array element => do
      let length ← word 4
      if maxArrayLength < length then throw (.arrayTooLong length)
      align element.alignment
      let r ← get
      if !hasAtLeast length r.rest then throw (r.shortage length)
      let stop := r.position + length
      match element with
      | .dictEntry key value =>
        let entry : Decoder (Value × Value) := do
          align 8
          let key ← decodeWithin levels key
          return (key, ← decodeWithin levels value)
        return .dict (← untilPosition stop entry length)
      | element => return .array (← untilPosition stop (decodeWithin levels element) length)
    | .struct types => do
      align 8
      return .struct (← types.mapM (decodeWithin levels))
    | .dictEntry key value => do
      align 8
      let key ← decodeWithin levels key
      return .struct [key, ← decodeWithin levels value]

/-- read a value of a type -/
def decode (type : Ty) : Decoder Value := decodeWithin (maxDepth + 1) type

/-- read an argument list, one value for each type -/
def decodeAll (types : List Ty) : Decoder (List Value) := types.mapM decode

/-- the argument list that takes up all of some bytes -/
def unmarshal (order : ByteOrder) (types : List Ty) (data : List UInt8) : Except Error (List Value) :=
  match (decodeAll types).run ⟨order, 0, data⟩ with
  | (.ok values, r) =>
    if r.rest.isEmpty then .ok values else .error (.lengthMismatch data.length r.position)
  | (.error e, _) => .error e

/-- the argument list that takes up all of some little-endian bytes for a signature -/
def unmarshalText (signature : String) (data : List UInt8) : Except Error (List Value) := do
  unmarshal .little (← Ty.parse signature) data

end MessageBus.Wire
