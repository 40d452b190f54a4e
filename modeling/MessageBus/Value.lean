/-
D-Bus values.

A scalar knows its kind; a container does not know the type of what it holds, so a value is always written together
with a type. Only a variant brings its own. An integer is held as its bits on the wire, which its kind reads as a
signed or an unsigned number, and a double as its 64 bits.
-/
import MessageBus.Ty.Parser

namespace MessageBus

/-- a value of a basic type -/
inductive Scalar where
  | int (kind : IntKind) (bits : BitVec kind.width)
  | boolean (value : Bool)
  | double (bits : BitVec 64)
  | text (kind : TextKind) (value : String)
  deriving DecidableEq, Repr

/-- a dict holds its entries in order -/
inductive Value where
  | scalar (value : Scalar)
  | array (items : List Value)
  | dict (entries : List (Value × Value))
  | struct (fields : List Value)
  | variant (type : Ty) (value : Value)
  deriving Repr

namespace Scalar

/-- the type that a scalar has of itself -/
def type : Scalar → Basic
  | int kind _ => .int kind
  | boolean _ => .boolean
  | double _ => .double
  | text kind _ => .text kind

def kindName : Scalar → String
  | int kind _ => kind.name
  | boolean _ => "boolean"
  | double _ => "double"
  | text kind _ => kind.name

/-- the number held by an integer of any kind -/
def number? : Scalar → Option Int
  | int kind bits => some (kind.toInt bits)
  | _ => none

/-- the text held by a text of any kind -/
def text? : Scalar → Option String
  | text _ value => some value
  | _ => none

/-- equality of kind and content, except that doubles compare as numbers: a NaN differs from itself and the two zeros
are equal -/
def alike : Scalar → Scalar → Bool
  | double a, double b => Decimal.sameNumber a b
  | a, b => a = b

end Scalar

namespace Value

abbrev byte (n : BitVec 8) : Value := .scalar (.int .byte n)
abbrev uint32 (n : BitVec 32) : Value := .scalar (.int .uint32 n)
abbrev string (text : String) : Value := .scalar (.text .string text)
abbrev objectPath (path : String) : Value := .scalar (.text .objectPath path)
abbrev signature (text : String) : Value := .scalar (.text .signature text)

def kindName : Value → String
  | scalar value => value.kindName
  | array _ => "array"
  | dict _ => "dict"
  | struct _ => "struct"
  | variant _ _ => "variant"

def scalar? : Value → Option Scalar
  | scalar value => some value
  | _ => none

/-- the number held by an integer of any kind -/
def number? (value : Value) : Option Int := value.scalar?.bind Scalar.number?

/-- the text held by a text of any kind -/
def text? (value : Value) : Option String := value.scalar?.bind Scalar.text?

/-- look through any number of variants -/
def flatten : Value → Value
  | variant _ value => value.flatten
  | value => value

mutual
/-- equality of kind, content and order, in which doubles compare as numbers and variants have the same type -/
def alike : Value → Value → Bool
  | scalar a, scalar b => a.alike b
  | array as, array bs => alikeAll as bs
  | dict as, dict bs => alikeEntries as bs
  | struct as, struct bs => alikeAll as bs
  | variant t a, variant u b => t = u && a.alike b
  | _, _ => false
/-- as many values, each like its counterpart -/
def alikeAll : List Value → List Value → Bool
  | [], [] => true
  | a :: as, b :: bs => a.alike b && alikeAll as bs
  | _, _ => false
/-- as many entries, each like its counterpart -/
def alikeEntries : List (Value × Value) → List (Value × Value) → Bool
  | [], [] => true
  | (k, v) :: as, (k', v') :: bs => k.alike k' && v.alike v' && alikeEntries as bs
  | _, _ => false
end

/-- the value of the first entry of a dict with a key like this one -/
def get? (value key : Value) : Option Value :=
  match value with
  | dict entries => (entries.find? fun entry => entry.1.alike key).map (·.2)
  | _ => none

mutual
/-- the type that a value has of itself; an array or dict takes it from its first element, so that an empty one has
none -/
def inferType? : Value → Option Ty
  | scalar value => some (.basic value.type)
  | array [] => none
  | array (item :: _) => do return .array (← item.inferType?)
  | dict [] => none
  | dict ((key, value) :: _) => do return .array (.dictEntry (← key.inferType?) (← value.inferType?))
  | struct fields => do return .struct (← inferTypes? fields)
  | variant _ _ => some .variant
/-- the types of several values, if each has one -/
def inferTypes? : List Value → Option (List Ty)
  | [] => some []
  | value :: values => do return (← value.inferType?) :: (← inferTypes? values)
end

/-- put a value into a variant of the type it has of itself -/
def inferVariant (value : Value) : Except Error (Ty × Value) :=
  match value.inferType? with
  | some type => .ok (type, value)
  | none => .error (.typeMismatch "v" "empty container")

/-- the number of a value that is to become an integer of some kind, which has to fit -/
def toWord (kind : IntKind) (value : Value) : Except Error (BitVec kind.width) :=
  match value.number? with
  | none => .error (.typeMismatch (Ty.text (.basic (.int kind))) value.kindName)
  | some n => match kind.ofInt? n with
    | some bits => .ok bits
    | none => .error (.outOfRange n kind.code)

end Value

/-- the arguments of a message, with the types that they are written as -/
structure Body where
  types : List Ty
  values : List Value
  arity : types.length = values.length

namespace Body

def empty : Body := ⟨[], [], rfl⟩

/-- pair types with as many values -/
def ofParts (types : List Ty) (values : List Value) : Except Error Body :=
  if h : types.length = values.length then .ok ⟨types, values, h⟩
  else .error (.typeMismatch (Ty.textAll types) "argument list of a different length")

/-- pair the types of a signature with as many values -/
def ofSignature (signature : String) (values : List Value) : Except Error Body := do
  ofParts (← Ty.parse signature) values

/-- a single string, as an error reply carries it -/
def ofString (text : String) : Body := ⟨[.basic (.text .string)], [.string text], rfl⟩

def signature (body : Body) : String := Ty.textAll body.types

def isEmpty (body : Body) : Bool := body.values.isEmpty

/-- the first argument, when it is a text -/
def firstText? (body : Body) : Option String := body.values.head?.bind Value.text?

def alike (a b : Body) : Bool := a.types = b.types && Value.alikeAll a.values b.values

end Body

end MessageBus
