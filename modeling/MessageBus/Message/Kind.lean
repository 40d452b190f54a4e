/-
The kinds of message and of header field, with their codes on the wire.
-/

namespace MessageBus

inductive MessageType where
  | methodCall | methodReturn | error | signal
  deriving DecidableEq, Repr

namespace MessageType

def code : MessageType → UInt8
  | methodCall => 1
  | methodReturn => 2
  | error => 3
  | signal => 4

def ofCode? : UInt8 → Option MessageType
  | 1 => some methodCall
  | 2 => some methodReturn
  | 3 => some error
  | 4 => some signal
  | _ => none

def name : MessageType → String
  | methodCall => "method call"
  | methodReturn => "method return"
  | error => "error"
  | signal => "signal"

theorem ofCode?_code (type : MessageType) : ofCode? type.code = some type := by cases type <;> rfl

end MessageType

/-- the header fields; a field of a code without a meaning is kept when read and never written -/
inductive FieldCode where
  | path | interface | member | errorName | replySerial | destination | sender | signature | unixFds
  | unknown (code : UInt8)
  deriving DecidableEq, Repr

namespace FieldCode

def code : FieldCode → UInt8
  | path => 1
  | interface => 2
  | member => 3
  | errorName => 4
  | replySerial => 5
  | destination => 6
  | sender => 7
  | signature => 8
  | unixFds => 9
  | unknown code => code

def ofCode : UInt8 → FieldCode
  | 1 => path
  | 2 => interface
  | 3 => member
  | 4 => errorName
  | 5 => replySerial
  | 6 => destination
  | 7 => sender
  | 8 => signature
  | 9 => unixFds
  | code => unknown code

def name : FieldCode → String
  | path => "path"
  | interface => "interface"
  | member => "member"
  | errorName => "error name"
  | replySerial => "reply serial"
  | destination => "destination"
  | sender => "sender"
  | signature => "signature"
  | unixFds => "unix fds"
  | unknown _ => "unknown"

end FieldCode

end MessageBus
