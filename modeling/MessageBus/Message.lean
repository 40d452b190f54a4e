/-
Messages.

A message has a type, flags, a serial, optional header fields and a body. The signature of the body is a header field
on the wire but not here, since the body knows its types. `Message.validate` says what every message on the wire
obeys: the fields that its type requires are present and every name is well formed.
-/
import MessageBus.Value.Display
import MessageBus.Wire.ByteOrder

namespace MessageBus

/-- the only version of the protocol -/
def protocolVersion : UInt8 := 1

/-- the flag bits of a message -/
structure Flags where
  bits : UInt8
  deriving DecidableEq, Repr

namespace Flags

def none : Flags := ⟨0⟩

def noReplyExpected : Flags := ⟨1⟩

/-- the flags of both -/
def union (a b : Flags) : Flags := ⟨a.bits ||| b.bits⟩

/-- every flag of `b` is one of `a` -/
def contains (a b : Flags) : Bool := a.bits &&& b.bits == b.bits

end Flags

/-- the optional header fields; `unknown` keeps those of a code without a meaning, in order -/
structure Fields where
  path : Option String := none
  interface : Option String := none
  member : Option String := none
  errorName : Option String := none
  replySerial : Option UInt32 := none
  destination : Option String := none
  sender : Option String := none
  unixFds : Option UInt32 := none
  unknown : List (UInt8 × Ty × Value) := []

namespace Fields

/-- fields of a code without a meaning, compared like values -/
def alikeUnknown : List (UInt8 × Ty × Value) → List (UInt8 × Ty × Value) → Bool
  | [], [] => true
  | (code, type, value) :: as, (code', type', value') :: bs =>
    code = code' && type = type' && value.alike value' && alikeUnknown as bs
  | _, _ => false

def alike (a b : Fields) : Bool :=
  a.path = b.path && a.interface = b.interface && a.member = b.member && a.errorName = b.errorName
    && a.replySerial = b.replySerial && a.destination = b.destination && a.sender = b.sender
    && a.unixFds = b.unixFds && alikeUnknown a.unknown b.unknown

end Fields

/-- the serial is zero until the message is sent -/
structure Message where
  type : MessageType
  order : ByteOrder := .little
  flags : Flags := .none
  version : UInt8 := protocolVersion
  serial : UInt32 := 0
  fields : Fields := {}
  body : Body := .empty

/-- a failure of a method call as an error message carries it -/
structure RemoteError where
  name : String
  text : Option String
  body : Body

namespace RemoteError

/-- the name for failures that have none of their own -/
def failedName : String := "org.freedesktop.DBus.Error.Failed"

/-- an error whose body is the text that explains it -/
def new (name text : String) : RemoteError := ⟨name, some text, .ofString text⟩

def failed (text : String) : RemoteError := new failedName text

def display (e : RemoteError) : String := e.name ++ ": " ++ e.text.getD "(no message)"

end RemoteError

namespace Message

/-- a call of a method; the names are checked, the path last -/
def methodCall (path : String) (interface : Option String) (member : String) : Except Error Message := do
  if let some interface := interface then NameKind.interface.check interface
  NameKind.member.check member
  NameKind.objectPath.check path
  return { type := .methodCall, fields := { path := some path, interface, member := some member } }

/-- a signal; the names are checked, the path last -/
def signal (path interface member : String) : Except Error Message := do
  NameKind.interface.check interface
  NameKind.member.check member
  NameKind.objectPath.check path
  return { type := .signal, fields := { path := some path, interface := some interface, member := some member } }

/-- a successful reply to a call, addressed to its sender -/
def methodReturn (call : Message) : Message :=
  { type := .methodReturn, fields := { replySerial := some call.serial, destination := call.fields.sender } }

/-- an error reply to a call, addressed to its sender; the name of the error is checked -/
def errorReply (call : Message) (e : RemoteError) : Except Error Message := do
  NameKind.error.check e.name
  let fields : Fields :=
    { errorName := some e.name, replySerial := some call.serial, destination := call.fields.sender }
  return { type := .error, fields, body := e.body }

/-- address a message to a bus name, which is checked -/
def withDestination (message : Message) (destination : String) : Except Error Message := do
  NameKind.bus.check destination
  return { message with fields := { message.fields with destination := some destination } }

/-- a method call that does not decline a reply -/
def expectsReply (message : Message) : Bool :=
  message.type = .methodCall && !message.flags.contains .noReplyExpected

/-- the header fields that every message of a type has -/
def requiredFields : MessageType → List FieldCode
  | .methodCall => [.path, .member]
  | .signal => [.path, .interface, .member]
  | .methodReturn => [.replySerial]
  | .error => [.errorName, .replySerial]

/-- the header field is present -/
def hasField (message : Message) : FieldCode → Bool
  | .path => message.fields.path.isSome
  | .interface => message.fields.interface.isSome
  | .member => message.fields.member.isSome
  | .errorName => message.fields.errorName.isSome
  | .replySerial => message.fields.replySerial.isSome
  | .destination => message.fields.destination.isSome
  | .sender => message.fields.sender.isSome
  | .signature => !message.body.isEmpty
  | .unixFds => message.fields.unixFds.isSome
  | .unknown code => message.fields.unknown.any fun field => field.1 = code

/-- the names that are present, with their kinds, in the order in which they are checked -/
def names (message : Message) : List (NameKind × String) :=
  let fields := message.fields
  [(NameKind.objectPath, fields.path), (.interface, fields.interface), (.member, fields.member),
    (.error, fields.errorName), (.bus, fields.destination), (.bus, fields.sender)].filterMap
    fun (kind, name) => name.map (kind, ·)

/-- version, required fields and names are as the protocol wants them -/
def validate (message : Message) : Except Error Unit := do
  if message.version ≠ protocolVersion then throw (.unsupportedVersion message.version)
  match (requiredFields message.type).find? fun field => !message.hasField field with
  | some field => throw (.missingField message.type field)
  | none => message.names.forM fun name => name.1.check name.2

/-- equality in which doubles compare as numbers -/
def alike (a b : Message) : Bool :=
  a.type = b.type && a.order = b.order && a.flags = b.flags && a.version = b.version && a.serial = b.serial
    && a.fields.alike b.fields && a.body.alike b.body

/-- a line with the header fields that are set, and a line for each argument -/
def display (message : Message) : String :=
  let fields := message.fields
  let reply := match fields.replySerial with
    | some serial => s!" reply_serial={serial}"
    | none => ""
  let names := [("sender", fields.sender), ("destination", fields.destination), ("path", fields.path),
    ("interface", fields.interface), ("member", fields.member), ("error_name", fields.errorName)].filterMap
    fun (label, name) => name.map fun name => s!" {label}={name}"
  let body :=
    if message.body.isEmpty then ""
    else s!" signature={Text.quoted message.body.signature}"
      ++ String.join (message.body.values.map fun value => "\n  " ++ value.display)
  s!"{message.type.name} serial={message.serial}" ++ reply ++ String.join names ++ body

end Message

end MessageBus
