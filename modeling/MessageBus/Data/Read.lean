/-
Reading values by a schema.

`Value.read` reads a value, and `Body.read` the arguments of a message: as the argument when there is one, and as a
sequence otherwise, but a tuple or an array of a given length always takes the whole list.
-/
import MessageBus.Data.Reading
import MessageBus.Data.Schema

namespace MessageBus

mutual
/-- read data by a schema -/
def Schema.read : Schema → DatumReader
  | .bool, source => Reading.bool source.view
  | .int type, source => Reading.int type source.view
  | .single, source => Reading.single source.view
  | .double, source => Reading.double source.view
  | .char, source => Reading.char source.view
  | .text expected, source => Reading.text expected source.view
  | .unsupported type, _ => .error (.unsupported type)
  | .unit, .value _ => .ok .unit
  | .unit, .arguments values =>
    if values.isEmpty then .ok .unit else .error (.wrongLength values.length "an empty body")
  | .unitStruct name, .value _ => .ok (.unitStruct name)
  | .unitStruct name, source => Reading.wrongType source.view s!"unit struct {name}"
  | .newtypeStruct name schema, .arguments [v] => do return .newtypeStruct name (← schema.read (.value v))
  | .newtypeStruct name schema, source => do return .newtypeStruct name (← schema.read source)
  | .option _, .arguments [] => .ok .absent
  | .option schema, source => do return .present (← schema.read source)
  | .vec schema, source =>
    match source.view with
    | .seq values => do return .seq (← values.mapM fun value => schema.read (.value value))
    | view => Reading.wrongType view "a sequence"
  | .array length schema, source =>
    let title := s!"an array of length {length}"
    match source.tupleView with
    | .seq values => do return .tuple (← Reading.items title (List.replicate length schema.read) values)
    | view => Reading.wrongType view title
  | .tuple schemas, source =>
    let title := s!"a tuple of size {schemas.length}"
    match source.tupleView with
    | .seq values => do return .tuple (← Reading.items title (Schema.readers schemas) values)
    | view => Reading.wrongType view title
  | .tupleStruct name schemas, source =>
    let title := s!"tuple struct {name}"
    match source.tupleView with
    | .seq values => do
      let title := s!"{title} with {Reading.elements schemas.length}"
      return .tupleStruct name (← Reading.items title (Schema.readers schemas) values)
    | view => Reading.wrongType view title
  | .map key value, source =>
    match source.view with
    | .map entries => do
      return .map (← entries.mapM fun entry => do
        let key ← key.read (.value entry.1)
        return (key, ← value.read (.value entry.2)))
    | view => Reading.wrongType view "a map"
  | .record name fields closed, source => do
    return .record name (← Reading.record s!"struct {name}" (Field.readers fields) closed source.view)
  | .enumeration name variants, source => Reading.enumerated (Variant.readers name 0 variants) source
  | .firstOf name options, source => Reading.firstOf name (.value source.toValue) (Schema.readers options)
  | .any, source => .ok source.toValue.datum
  | .ignored, _ => .ok .unit
  | .valueFirst, source =>
    match source.view with
    | .map _ => .error .valueBeforeKey
    | view => Reading.wrongType view "a dict"
/-- one reader for each schema -/
def Schema.readers : List Schema → List DatumReader
  | [] => []
  | schema :: schemas => schema.read :: Schema.readers schemas
/-- one reader for each field; without a default, only an optional field may be absent -/
def Field.readers : List Field → List FieldReader
  | [] => []
  | .mk name schema default :: fields =>
    { name, read := schema.read, default
      absence := default <|> match schema with
        | .option _ => some .absent
        | _ => none } :: Field.readers fields
/-- one reader for each variant of a type, counted from an index -/
def Variant.readers (type : String) (index : Nat) : List Variant → List VariantReader
  | [] => []
  | .unit name :: variants =>
    ⟨name, fun
      | none => .ok (.unitVariant type index name)
      | some _ => .error (.wrongType .map "unit variant")⟩ :: Variant.readers type (index + 1) variants
  | .newtype name schema :: variants =>
    ⟨name, fun content => do
      let content ← Reading.content "newtype variant" content
      return .newtypeVariant type index name (← schema.read (.value content))⟩
      :: Variant.readers type (index + 1) variants
  | .tuple name schemas :: variants =>
    ⟨name, fun content => do
      let content ← Reading.content "tuple variant" content
      let title := s!"tuple variant {type}::{name}"
      match content.view with
      | .seq values =>
        let title := s!"{title} with {Reading.elements schemas.length}"
        return .tupleVariant type index name (← Reading.items title (Schema.readers schemas) values)
      | view => Reading.wrongType view title⟩ :: Variant.readers type (index + 1) variants
  | .record name fields :: variants =>
    ⟨name, fun content => do
      let content ← Reading.content "struct variant" content
      let title := s!"struct variant {type}::{name}"
      return .recordVariant type index name (← Reading.record title (Field.readers fields) false content.view)⟩
      :: Variant.readers type (index + 1) variants
end

/-- run a reading as an operation of its own -/
def Reading.toExcept {α : Type} : Reading α → Except Error α
  | .ok a => .ok a
  | .error fault => .error (.unreadable fault)

/-- read a value by a schema -/
def Value.read (value : Value) (schema : Schema) : Except Error Datum := (schema.read (.value value)).toExcept

/-- read the arguments of a message by a schema -/
def Body.read (body : Body) (schema : Schema) : Except Error Datum := (schema.read (.arguments body.values)).toExcept

end MessageBus
