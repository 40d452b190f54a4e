/-
Reading one piece of data.

Integers are read into every type that has the number, and rounded into the floating point types. A record is read from
a map by field names or indices, in any order, or from a sequence in the order of its fields; an enumeration from the
name or index of a variant, or from a dict of one entry from it to its content. How the parts are read is up to
the caller.
-/
import MessageBus.Binary.Rounding
import MessageBus.Data.View

namespace MessageBus

/-- an outcome of reading -/
abbrev Reading := Except ReadFault

/-- a way to read data -/
abbrev DatumReader := Source → Reading Datum

/-- how one field of a record is read; `absence` is what its absence from a map means, `default` what stands in for it
in a sequence too -/
structure FieldReader where
  name : String
  read : DatumReader
  default : Option Datum
  absence : Option Datum

/-- how one variant of an enumeration is read, given its content if it has any -/
structure VariantReader where
  name : String
  read : Option Value → Reading Datum

namespace Reading

def wrongType {α : Type} (view : View) (expected : String) : Reading α := .error (.wrongType view.sight expected)

def bool : View → Reading Datum
  | .scalar (.boolean value) => .ok (.bool value)
  | view => wrongType view "a boolean"

def int (type : HostInt) : View → Reading Datum
  | .scalar (.int kind bits) =>
    let n := kind.toInt bits
    if type.holds n then .ok (.int type n) else .error (.wrongValue (.integer n) type.name)
  | view => wrongType view type.name

/-- any integer is rounded to the nearest number, and so is a double -/
def single : View → Reading Datum
  | .scalar (.double bits) => .ok (.single (Binary.narrow bits))
  | .scalar (.int kind bits) => .ok (.single (Binary.single.ofInt (kind.toInt bits)))
  | view => wrongType view "f32"

/-- any integer is rounded to the nearest number -/
def double : View → Reading Datum
  | .scalar (.double bits) => .ok (.double bits)
  | .scalar (.int kind bits) => .ok (.double (Binary.double.ofInt (kind.toInt bits)))
  | view => wrongType view "f64"

/-- a string of exactly one character -/
def char : View → Reading Datum
  | .scalar (.text _ text) =>
    match text.toList with
    | [c] => .ok (.char c)
    | _ => .error (.wrongValue (.text text) "a character")
  | view => wrongType view "a character"

def text (expected : String) : View → Reading Datum
  | .scalar (.text _ text) => .ok (.text text)
  | view => wrongType view expected

/-- as many items as there are readers, from the front of the items there are -/
def items (expected : String) (readers : List DatumReader) (values : List Value) : Reading (List Datum) :=
  go 0 readers values
where
  go (done : Nat) : List DatumReader → List Value → Reading (List Datum)
    | [], _ => .ok []
    | _ :: _, [] => .error (.wrongLength done expected)
    | reader :: readers, value :: values => do
      let item ← reader (.value value)
      return item :: (← go (done + 1) readers values)

/-- the place among some names that a value points to, by name or, for the unsigned kinds of integers, by index;
`none` for a name or an index out of place -/
def identifier (what : String) (names : List String) : View → Reading (Option Nat)
  | .scalar (.text _ name) => .ok (names.idxOf? name)
  | .scalar (.int kind bits) =>
    if kind.isSigned then wrongType (.scalar (.int kind bits)) what
    else .ok (if bits.toNat < names.length then some bits.toNat else none)
  | view => wrongType view what

/-- what a name or index out of place is in a record that admits no other fields -/
def unknownField (names : List String) : View → ReadFault
  | .scalar (.text _ name) => .unknownField name names
  | view => .wrongValue view.sight s!"field index 0 <= i < {names.length}"

/-- what a name or index out of place is in an enumeration -/
def unknownVariant (names : List String) : View → ReadFault
  | .scalar (.text _ name) => .unknownVariant name names
  | view => .wrongValue view.sight s!"variant index 0 <= i < {names.length}"

/-- read the entries of a map into the places of the fields; a field may occur once -/
def fieldsOfMap (fields : List FieldReader) (closed : Bool) :
    List (Value × Value) → List (Option Datum) → Reading (List (Option Datum))
  | [], found => .ok found
  | (key, value) :: entries, found => do
    let names := fields.map (·.name)
    match ← identifier "field identifier" names key.view with
    | none =>
      if closed then .error (unknownField names key.view) else fieldsOfMap fields closed entries found
    | some place =>
      match fields[place]?, found[place]? with
      | some field, some none =>
        let datum ← field.read (.value value)
        fieldsOfMap fields closed entries (found.set place (some datum))
      | some field, _ => .error (.duplicateField field.name)
      | none, _ => fieldsOfMap fields closed entries found

/-- the fields of a record from those found in a map -/
def settle : List FieldReader → List (Option Datum) → Reading (List (String × Datum))
  | [], _ => .ok []
  | field :: fields, found => do
    let datum ← match found.head?.join, field.absence with
      | some datum, _ => pure datum
      | none, some datum => pure datum
      | none, none => throw (.missingField field.name)
    return (field.name, datum) :: (← settle fields found.tail)

/-- the fields of a record from the items of a sequence -/
def fieldsOfSeq (expected : String) (fields : List FieldReader) (values : List Value) :
    Reading (List (String × Datum)) :=
  go 0 fields values
where
  go (done : Nat) : List FieldReader → List Value → Reading (List (String × Datum))
    | [], _ => .ok []
    | field :: fields, [] =>
      match field.default with
      | some datum => do return (field.name, datum) :: (← go (done + 1) fields [])
      | none => .error (.wrongLength done expected)
    | field :: fields, value :: values => do
      let datum ← field.read (.value value)
      return (field.name, datum) :: (← go (done + 1) fields values)

/-- so many elements, in words -/
def elements (n : Nat) : String := if n = 1 then "1 element" else s!"{n} elements"

/-- the fields of a record or of a variant that is one -/
def record (title : String) (fields : List FieldReader) (closed : Bool) : View → Reading (List (String × Datum))
  | .seq values => fieldsOfSeq s!"{title} with {elements fields.length}" fields values
  | .map entries => do settle fields (← fieldsOfMap fields closed entries (fields.map fun _ => none))
  | view => wrongType view title

/-- the variant that a value points to, with its content -/
def variant (variants : List VariantReader) (tag : Value) (content : Option Value) : Reading Datum := do
  let names := variants.map (·.name)
  match ← identifier "variant identifier" names tag.view with
  | none => .error (unknownVariant names tag.view)
  | some place =>
    match variants[place]? with
    | some variant => variant.read content
    | none => .error (unknownVariant names tag.view)

/-- a variant with its content is a dict of one entry, a variant without content any other value -/
def enumerated (variants : List VariantReader) : Source → Reading Datum
  | .arguments [v] => ofValue v
  | .arguments vs => .error (.wrongLength vs.length "a single argument")
  | .value v => ofValue v
where
  ofValue (v : Value) : Reading Datum :=
    match v.view with
    | .map [(tag, content)] => variant variants tag (some content)
    | .map entries => .error (.wrongLength entries.length "a dict with a single entry")
    | _ => variant variants v none

/-- the content that a variant needs -/
def content (what : String) : Option Value → Reading Value
  | some value => .ok value
  | none => .error (.wrongType .unitVariant what)

/-- the first reading that succeeds -/
def firstOf (name : String) (source : Source) : List DatumReader → Reading Datum
  | [] => .error (.noMatch name)
  | reader :: readers =>
    match reader source with
    | .ok datum => .ok datum
    | .error _ => firstOf name source readers

end Reading

end MessageBus
