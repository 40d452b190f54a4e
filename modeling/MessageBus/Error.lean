/-
Everything that can go wrong, by cause.

`Error.message` gives the wording. `Error.isFatal` singles out the errors after which a byte stream cannot be trusted
any more, so that a connection has to be torn down; all others concern one value or one message.
-/
import MessageBus.Text.Quoted
import MessageBus.Decimal.Shortest
import MessageBus.Name
import MessageBus.Message.Kind

namespace MessageBus

/-- why a text is not a signature -/
inductive SignatureFault where
  | tooLong
  | entryOutsideArray
  | emptyStruct
  | unbalancedParenthesis
  | incompleteEntry
  | unbalancedBrace
  | unknownCode
  | overfullEntry
  | keyNotBasic
  | unterminated
  | notSingle
  deriving DecidableEq, Repr

def SignatureFault.message : SignatureFault → String
  | tooLong => "longer than 255 bytes"
  | entryOutsideArray => "dict entry outside of an array"
  | emptyStruct => "empty struct"
  | unbalancedParenthesis => "unbalanced ')'"
  | incompleteEntry => "dict entry needs a key and a value"
  | unbalancedBrace => "unbalanced '\x7d'"
  | unknownCode => "unknown type code"
  | overfullEntry => "dict entry has more than two fields"
  | keyNotBasic => "dict entry key must be a basic type"
  | unterminated => "unterminated container"
  | notSingle => "expected exactly one complete type"

/-- why host data has no D-Bus form whatever the type -/
inductive WriteFault where
  | refused (reason : String)
  | valueBeforeKey
  | unsupported (type : String)
  deriving DecidableEq, Repr

def WriteFault.message : WriteFault → String
  | refused reason => reason
  | valueBeforeKey => "map value without a key"
  | unsupported type => s!"{type} is not supported"

/-- what a reader found where it looked for something else -/
inductive Sight where
  | boolean (value : Bool)
  | integer (value : Int)
  | double (bits : BitVec 64)
  | text (value : String)
  | sequence
  | map
  | unitVariant
  deriving DecidableEq, Repr

def Sight.message : Sight → String
  | boolean value => s!"boolean `{value}`"
  | integer value => s!"integer `{value}`"
  | double bits => s!"floating point `{Decimal.textWithPoint bits}`"
  | text value => s!"string {Text.quoted value}"
  | sequence => "sequence"
  | map => "map"
  | unitVariant => "unit variant"

/-- why a value does not fit the description that it is read by -/
inductive ReadFault where
  | wrongType (seen : Sight) (expected : String)
  | wrongValue (seen : Sight) (expected : String)
  | wrongLength (length : Nat) (expected : String)
  | missingField (name : String)
  | duplicateField (name : String)
  | unknownField (name : String) (known : List String)
  | unknownVariant (name : String) (known : List String)
  | noMatch (type : String)
  | valueBeforeKey
  | unsupported (type : String)
  deriving DecidableEq, Repr

/-- a choice of names; `plural` says what there are none of -/
def nameChoice (plural : String) : List String → String
  | [] => s!"there are no {plural}"
  | [a] => s!"expected `{a}`"
  | [a, b] => s!"expected `{a}` or `{b}`"
  | names => "expected one of " ++ ", ".intercalate (names.map fun name => s!"`{name}`")

def ReadFault.message : ReadFault → String
  | wrongType seen expected => s!"invalid type: {seen.message}, expected {expected}"
  | wrongValue seen expected => s!"invalid value: {seen.message}, expected {expected}"
  | wrongLength length expected => s!"invalid length {length}, expected {expected}"
  | missingField name => s!"missing field `{name}`"
  | duplicateField name => s!"duplicate field `{name}`"
  | unknownField name known => s!"unknown field `{name}`, " ++ nameChoice "fields" known
  | unknownVariant name known => s!"unknown variant `{name}`, " ++ nameChoice "variants" known
  | noMatch type => s!"data did not match any variant of untagged enum {type}"
  | valueBeforeKey => "dict value read before its key"
  | unsupported type => s!"{type} is not supported"

inductive Error where
  | malformedSignature (text : String) (fault : SignatureFault)
  | signatureTooComplex (text : String)
  | reservedCode (code : Char)
  | outOfRange (value : Int) (code : Char)
  | typeMismatch (expected found : String)
  | embeddedNul
  | arrayTooLong (length : Nat)
  | invalidName (kind : NameKind) (name : String)
  | truncated (offset needed available : Nat)
  | lengthMismatch (declared actual : Nat)
  | arrayOverrun (position stop : Nat)
  | invalidBoolean (word : Nat)
  | invalidUtf8
  | unterminatedText (offset : Nat)
  | invalidByteOrder (marker : UInt8)
  | invalidMessageType (code : UInt8)
  | unsupportedVersion (version : UInt8)
  | messageTooLong (length : Nat)
  | missingField (type : MessageType) (field : FieldCode)
  | invalidField (code : UInt8) (signature : String)
  | zeroSerial
  | noReplyExpected (type : MessageType)
  | unwritable (fault : WriteFault)
  | unreadable (fault : ReadFault)
  | transport (reason : String)
  | closed
  deriving DecidableEq, Repr

def NameKind.title : NameKind → String
  | objectPath => "object path"
  | interface => "interface name"
  | member => "member name"
  | error => "error name"
  | bus => "bus name"

namespace Error

def message : Error → String
  | malformedSignature text fault => s!"malformed signature {Text.quoted text}: {fault.message}"
  | signatureTooComplex text =>
    s!"signature {Text.quoted text} nests containers deeper than the protocol allows"
  | reservedCode code => s!"unsupported type code '{code}'"
  | outOfRange value code => s!"value {value} does not fit in DBus type '{code}'"
  | typeMismatch expected found =>
    s!"value of kind {found} does not conform to signature {Text.quoted expected}"
  | embeddedNul => "string contains an embedded nul byte"
  | arrayTooLong length => s!"array of {length} bytes exceeds the maximum array length"
  | invalidName kind name => s!"invalid {kind.title} {Text.quoted name}"
  | truncated offset needed available =>
    s!"message truncated: needed {needed} bytes at offset {offset}, {available} available"
  | lengthMismatch declared actual =>
    s!"frame length mismatch: header declares {declared} bytes, found {actual}"
  | arrayOverrun position stop =>
    s!"array elements overran their declared length: at {position}, array ends at {stop}"
  | invalidBoolean word => s!"invalid boolean value {word}"
  | invalidUtf8 => "invalid utf-8 in string"
  | unterminatedText offset => s!"string at offset {offset} is not nul terminated"
  | invalidByteOrder marker => "invalid endianness marker 0x" ++ String.ofList (Text.hexPadded 2 marker.toNat)
  | invalidMessageType code => s!"invalid message type {code}"
  | unsupportedVersion version => s!"unsupported protocol version {version}"
  | messageTooLong length => s!"message of {length} bytes exceeds the maximum message size"
  | missingField type field => s!"{type.name} message is missing required header field {field.name}"
  | invalidField code signature => s!"header field {code} carries a value of signature {Text.quoted signature}"
  | zeroSerial => "message serial must not be zero"
  | noReplyExpected type => s!"a {type.name} that expects no reply cannot be awaited"
  | unwritable fault => s!"error serializing: {fault.message}"
  | unreadable fault => s!"error deserializing: {fault.message}"
  | transport reason => s!"transport error: {reason}"
  | closed => "connection closed"

/-- the byte stream that the error arose on cannot be trusted any more -/
def isFatal : Error → Bool
  | truncated .. | lengthMismatch .. | invalidByteOrder _ | unsupportedVersion _ | messageTooLong _ | transport _
  | closed => true
  | _ => false

end Error

/-- refuse a name that breaks the grammar of its kind -/
def NameKind.check (kind : NameKind) (name : String) : Except Error Unit :=
  if kind.accepts name then .ok () else .error (.invalidName kind name)

end MessageBus
