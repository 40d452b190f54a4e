/-
Data that schemas describe.

A schema stands for a type of host data, and `Schema.Holds` says which data are of it: a record has the fields that its
schema names in their order, a variant the place among the others that its index says, an optional value is there or not.
The schemas of `Schema.Plain` are built from scalars, strings, optional values, sequences, tuples, maps, records and
enumerations whose fields and variants have names of their own. An optional value may not be optional inside once more,
since two absences look the same when nothing is written.
-/
import Mathlib
import MessageBus.Data.Schema
import MessageBus.Proofs.Binary.Widening
import MessageBus.Proofs.Data.Mapping

namespace MessageBus

/-! ## Parts of schemas -/

def Field.content : Field → Schema
  | mk _ content _ => content

def Field.default : Field → Option Datum
  | mk _ _ default => default

/-- the fields of a variant that is a record -/
def Variant.fields : Variant → List Field
  | record _ fields => fields
  | _ => []

/-- what a variant holds, in order -/
def Variant.contents : Variant → List Schema
  | unit _ => []
  | newtype _ content => [content]
  | tuple _ items => items
  | record _ fields => fields.map Field.content

namespace Schema

/-- a schema of scalars, strings, optional values, sequences, tuples, maps, records and enumerations, in which fields and
variants are told apart by their names and no field has a default; an index of a variant has 32 bits -/
inductive Plain : Schema → Prop where
  | bool : Plain .bool
  | int (type : HostInt) : Plain (.int type)
  | single : Plain .single
  | double : Plain .double
  | char : Plain .char
  | text (expected : String) : Plain (.text expected)
  | option {content : Schema} (hcontent : ∀ inner, content ≠ .option inner) (h : Plain content) : Plain (.option content)
  | vec {item : Schema} (h : Plain item) : Plain (.vec item)
  | array (length : Nat) {item : Schema} (h : Plain item) : Plain (.array length item)
  | tuple {items : List Schema} (h : ∀ item ∈ items, Plain item) : Plain (.tuple items)
  | map {key value : Schema} (hkey : Plain key) (hvalue : Plain value) : Plain (.map key value)
  | record (name : String) {fields : List Field} (closed : Bool) (hnames : (fields.map Field.name).Nodup)
      (hdefault : ∀ field ∈ fields, field.default = none) (h : ∀ field ∈ fields, Plain field.content) :
      Plain (.record name fields closed)
  | enumeration (name : String) {variants : List Variant} (hnames : (variants.map Variant.name).Nodup)
      (hfew : variants.length ≤ 2 ^ 32) (hfields : ∀ variant ∈ variants, (variant.fields.map Field.name).Nodup)
      (hdefault : ∀ variant ∈ variants, ∀ field ∈ variant.fields, field.default = none)
      (h : ∀ variant ∈ variants, ∀ content ∈ variant.contents, Plain content) : Plain (.enumeration name variants)

/-! ## Data of a schema -/

/-- a datum is of the type that a schema describes -/
inductive Holds : Schema → Datum → Prop where
  | bool (value : Bool) : Holds .bool (.bool value)
  | int {type : HostInt} {value : Int} (h : type.holds value = true) : Holds (.int type) (.int type value)
  /-- all numbers and infinities, and the NaN that no conversion changes -/
  | single {bits : BitVec 32} (h : Binary.isSignaling bits = false) : Holds .single (.single bits)
  | double (bits : BitVec 64) : Holds .double (.double bits)
  | char (value : Char) : Holds .char (.char value)
  | text (expected value : String) : Holds (.text expected) (.text value)
  | unit : Holds .unit .unit
  | absent (content : Schema) : Holds (.option content) .absent
  | present {content : Schema} {datum : Datum} (h : Holds content datum) : Holds (.option content) (.present datum)
  | vec {item : Schema} {data : List Datum} (h : ∀ datum ∈ data, Holds item datum) : Holds (.vec item) (.seq data)
  | array {item : Schema} {data : List Datum} (h : ∀ datum ∈ data, Holds item datum) :
      Holds (.array data.length item) (.tuple data)
  | tuple {items : List Schema} {data : List Datum} (hlen : items.length = data.length)
      (h : ∀ part ∈ items.zip data, Holds part.1 part.2) : Holds (.tuple items) (.tuple data)
  | map {key value : Schema} {entries : List (Datum × Datum)} (hkey : ∀ entry ∈ entries, Holds key entry.1)
      (hvalue : ∀ entry ∈ entries, Holds value entry.2) : Holds (.map key value) (.map entries)
  | record (name : String) {fields : List Field} (closed : Bool) {data : List (String × Datum)}
      (hnames : fields.map Field.name = data.map (·.1)) (h : ∀ part ∈ fields.zip data, Holds part.1.content part.2.2) :
      Holds (.record name fields closed) (.record name data)
  | unitVariant (type : String) {variants : List Variant} {index : Nat} {name : String}
      (hvariant : variants[index]? = some (.unit name)) :
      Holds (.enumeration type variants) (.unitVariant type index name)
  | newtypeVariant (type : String) {variants : List Variant} {index : Nat} {name : String} {content : Schema}
      {datum : Datum} (hvariant : variants[index]? = some (.newtype name content)) (h : Holds content datum) :
      Holds (.enumeration type variants) (.newtypeVariant type index name datum)
  | tupleVariant (type : String) {variants : List Variant} {index : Nat} {name : String} {items : List Schema}
      {data : List Datum} (hvariant : variants[index]? = some (.tuple name items)) (hlen : items.length = data.length)
      (h : ∀ part ∈ items.zip data, Holds part.1 part.2) :
      Holds (.enumeration type variants) (.tupleVariant type index name data)
  | recordVariant (type : String) {variants : List Variant} {index : Nat} {name : String} {fields : List Field}
      {data : List (String × Datum)} (hvariant : variants[index]? = some (.record name fields))
      (hnames : fields.map Field.name = data.map (·.1)) (h : ∀ part ∈ fields.zip data, Holds part.1.content part.2.2) :
      Holds (.enumeration type variants) (.recordVariant type index name data)

end Schema

end MessageBus
