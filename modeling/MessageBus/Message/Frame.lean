/-
Messages as bytes.

A frame is the byte order, type, flags and version of a message in one byte each, the length of the body, the serial,
the array of header fields, padding to a multiple of eight, and the body. The length word of the header fields stands
at position 12, so that the first 16 bytes tell how long the whole frame is.
-/
import MessageBus.Message.Fields
import MessageBus.Wire.Decode

namespace MessageBus

open Wire

/-- bytes that are always present: up to the length word of the header fields -/
def fixedHeaderLength : Nat := 16

/-- longest message in bytes: 128 MiB -/
def maxMessageSize : Nat := 128 * 1024 * 1024

/-- the first 16 bytes of a frame; any message type will do to find its end -/
structure FixedHeader where
  order : ByteOrder
  type : UInt8
  flags : Flags
  version : UInt8
  bodyLength : Nat
  serial : UInt32
  fieldsLength : Nat
  deriving DecidableEq, Repr

namespace FixedHeader

def parse (data : List UInt8) : Except Error FixedHeader :=
  match data with
  | marker :: type :: flags :: version :: rest => do
    if !hasAtLeast (fixedHeaderLength - 4) rest then throw (.truncated 0 fixedHeaderLength data.length)
    let order ← ByteOrder.ofMarker marker
    if version ≠ protocolVersion then throw (.unsupportedVersion version)
    let word (index : Nat) : Nat := order.number ((data.drop index).take 4)
    return ⟨order, type, ⟨flags⟩, version, word 4, .ofNat (word 8), word 12⟩
  | _ => .error (.truncated 0 fixedHeaderLength data.length)

/-- length of the whole frame -/
def frameLength (header : FixedHeader) : Nat :=
  fixedHeaderLength + (header.fieldsLength + padding header.fieldsLength 8) + header.bodyLength

end FixedHeader

namespace Message

open Encoder in
/-- write a message -/
def encode (message : Message) : Encoder Unit := do
  append [message.order.marker, message.type.code, message.flags.bits, message.version]
  let bodyLength ← startLength
  put 4 message.serial.toNat
  Wire.encode Fields.wireType (.array (message.fields.toWire message.body))
  align 8
  let bodyLength ← beginLength bodyLength
  encodeAll message.body.types message.body.values
  let _ ← finishLength bodyLength

/-- the frame of a message, which has to be valid and numbered -/
def marshal (message : Message) : Except Error (List UInt8) := do
  if message.serial = 0 then throw .zeroSerial
  message.validate
  match message.encode.run (Writer.new message.order 0) with
  | (.ok _, w) => if maxMessageSize < w.data.size then throw (.messageTooLong w.data.size) else return w.data.toList
  | (.error e, _) => throw e

open Decoder in
/-- read what follows the fixed header, from the length word of the header fields on -/
def decodeRest (header : FixedHeader) : Decoder Message := do
  let some type := MessageType.ofCode? header.type | throw (.invalidMessageType header.type)
  let sorted ← Fields.ofWire (← Wire.decode Fields.wireType)
  align 8
  let start := (← get).position
  let types ← match sorted.signature with
    | some signature => Ty.parse signature
    | none => pure []
  let values ← decodeAll types
  let r ← get
  if !r.rest.isEmpty then throw (.lengthMismatch header.bodyLength (r.position - start))
  let message : Message :=
    { type, order := header.order, flags := header.flags, version := header.version, serial := header.serial
      fields := sorted.fields, body := ← Body.ofParts types values }
  message.validate
  return message

/-- the message whose frame takes up all of some bytes -/
def unmarshal (data : List UInt8) : Except Error Message := do
  let header ← FixedHeader.parse data
  if header.frameLength ≠ data.length then throw (.lengthMismatch header.frameLength data.length)
  if header.serial = 0 then throw .zeroSerial
  ((decodeRest header).run ⟨header.order, fixedHeaderLength - 4, data.drop (fixedHeaderLength - 4)⟩).1

end Message

end MessageBus
