/-
What a reader sees of a value.

Variants are looked through everywhere, so that a reader never sees one. What it sees then is a scalar, a sequence (an
array or a struct) or a map (a dict). The arguments of a message are seen as the argument when there is one, and as a
sequence otherwise. `Value.datum` takes a value as it is, for a reader that wants nothing in particular.
-/
import MessageBus.Data.Datum
import MessageBus.Value

namespace MessageBus

/-- what a reader can see of a value -/
inductive View where
  | scalar (value : Scalar)
  | seq (items : List Value)
  | map (entries : List (Value × Value))

/-- what a value looks like behind any number of variants -/
def Value.view : Value → View
  | scalar value => .scalar value
  | array items | struct items => .seq items
  | dict entries => .map entries
  | variant _ value => value.view

/-- how an error names what was seen -/
def View.sight : View → Sight
  | scalar (.int kind bits) => .integer (kind.toInt bits)
  | scalar (.boolean value) => .boolean value
  | scalar (.double bits) => .double bits
  | scalar (.text _ value) => .text value
  | seq _ => .sequence
  | map _ => .map

/-- what is read: a value, or the arguments of a message -/
inductive Source where
  | value (value : Value)
  | arguments (values : List Value)

namespace Source

/-- a single argument reads as itself, any other number of them as a sequence -/
def view : Source → View
  | value v => v.view
  | arguments [v] => v.view
  | arguments vs => .seq vs

/-- a tuple is read from all arguments -/
def tupleView : Source → View
  | value v => v.view
  | arguments vs => .seq vs

/-- the value with the same view -/
def toValue : Source → Value
  | value v => v
  | arguments [v] => v
  | arguments vs => .struct vs

end Source

/-- the unsigned or signed host type in which a D-Bus integer is delivered -/
def IntKind.hostInt : IntKind → HostInt
  | byte => .u8
  | int16 => .i16
  | uint16 => .u16
  | int32 => .i32
  | uint32 | unixFd => .u32
  | int64 => .i64
  | uint64 => .u64

namespace Value

mutual
/-- whatever a value is, as host data -/
def datum : Value → Datum
  | scalar (.int kind bits) => .int kind.hostInt (kind.toInt bits)
  | scalar (.boolean value) => .bool value
  | scalar (.double bits) => .double bits
  | scalar (.text _ value) => .text value
  | array items | struct items => .seq (datumAll items)
  | dict entries => .map (datumEntries entries)
  | variant _ value => value.datum
/-- whatever several values are -/
def datumAll : List Value → List Datum
  | [] => []
  | value :: values => value.datum :: datumAll values
/-- whatever the keys and values of a dict are -/
def datumEntries : List (Value × Value) → List (Datum × Datum)
  | [] => []
  | (key, value) :: entries => (key.datum, value.datum) :: datumEntries entries
end

end Value

end MessageBus
