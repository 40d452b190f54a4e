/-
Header fields on the wire: an array of pairs of a code and a variant.

`Fields.toWire` lists the fields that are set in the order of their codes, with the signature of a body that is not
empty; `Fields.ofWire` sorts any array of values into fields. The last of several fields of one code counts, and an
entry that is not a pair of a byte and a variant is passed over.
-/
import MessageBus.Message

namespace MessageBus.Fields

/-- the type of the array of header fields, a(yv) -/
def wireType : Ty := .array (.struct [.basic (.int .byte), .variant])

/-- one entry of the array -/
def wireEntry (code : FieldCode) (value : Scalar) : Value :=
  .struct [.byte code.code.toBitVec, .variant (.basic value.type) (.scalar value)]

/-- the entries of the fields that are set, and of the signature of the body; unknown fields are left out -/
def toWire (fields : Fields) (body : Body) : List Value :=
  let string (text : String) : Scalar := .text .string text
  let number (n : UInt32) : Scalar := .int .uint32 n.toBitVec
  [ fields.path.map fun path => wireEntry .path (.text .objectPath path),
    fields.interface.map fun name => wireEntry .interface (string name),
    fields.member.map fun name => wireEntry .member (string name),
    fields.errorName.map fun name => wireEntry .errorName (string name),
    fields.replySerial.map fun serial => wireEntry .replySerial (number serial),
    fields.destination.map fun name => wireEntry .destination (string name),
    fields.sender.map fun name => wireEntry .sender (string name),
    if body.isEmpty then none else some (wireEntry .signature (.text .signature body.signature)),
    fields.unixFds.map fun count => wireEntry .unixFds (number count) ].filterMap id

/-- the code, type and content of a well-shaped entry -/
def entry? : Value → Option (UInt8 × Ty × Value)
  | .struct [.scalar (.int .byte code), .variant type value] => some (.ofBitVec code, type, value)
  | _ => none

/-- header fields together with the signature of the body -/
structure Sorted where
  fields : Fields := {}
  signature : Option String := none

/-- the text that a value is, if it is of the type of a kind of texts -/
def textOf? (kind : TextKind) : Ty → Value → Option String
  | .basic (.text typed), .scalar (.text given text) => if typed = kind ∧ given = kind then some text else none
  | _, _ => none

/-- the number that a value is, if it is of the type of unsigned numbers of 32 bits -/
def numberOf? : Ty → Value → Option UInt32
  | .basic (.int .uint32), .scalar (.int .uint32 n) => some (.ofBitVec n)
  | _, _ => none

/-- set the field that an entry stands for; a field of a known code has one type -/
def Sorted.insert (sorted : Sorted) (entry : UInt8 × Ty × Value) : Except Error Sorted :=
  let (code, type, value) := entry
  let fields := sorted.fields
  let text (kind : TextKind) (set : String → Fields) : Option Sorted :=
    (textOf? kind type value).map fun text => { sorted with fields := set text }
  let number (set : UInt32 → Fields) : Option Sorted := (numberOf? type value).map fun n => { sorted with fields := set n }
  let inserted := match FieldCode.ofCode code with
    | .path => text .objectPath fun path => { fields with path := some path }
    | .interface => text .string fun name => { fields with interface := some name }
    | .member => text .string fun name => { fields with member := some name }
    | .errorName => text .string fun name => { fields with errorName := some name }
    | .replySerial => number fun serial => { fields with replySerial := some serial }
    | .destination => text .string fun name => { fields with destination := some name }
    | .sender => text .string fun name => { fields with sender := some name }
    | .signature => (textOf? .signature type value).map fun text => { sorted with signature := some text }
    | .unixFds => number fun count => { fields with unixFds := some count }
    | .unknown code => some { sorted with fields := { fields with unknown := fields.unknown ++ [(code, type, value)] } }
  match inserted with
  | some sorted => .ok sorted
  | none => .error (.invalidField code type.text)

/-- sort the entries of an array into fields -/
def ofWire : Value → Except Error Sorted
  | .array entries => (entries.filterMap entry?).foldlM Sorted.insert {}
  | value => .error (.typeMismatch wireType.text value.kindName)

end MessageBus.Fields
