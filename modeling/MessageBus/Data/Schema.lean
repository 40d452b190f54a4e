/-
Schemas: what host data a reader wants.

A schema describes a type of host data by the way in which it is read: the scalars, optional values, sequences, tuples,
maps, records with named fields and enumerations.
-/
import MessageBus.Data.Datum

namespace MessageBus

mutual
/-- a description of host data; `text` comes with what it calls a string -/
inductive Schema where
  | bool
  | int (type : HostInt)
  | single
  | double
  | char
  | text (expected : String)
  /-- a type that cannot be read -/
  | unsupported (type : String)
  | unit
  | unitStruct (name : String)
  | newtypeStruct (name : String) (content : Schema)
  | option (content : Schema)
  /-- any number of items -/
  | vec (item : Schema)
  /-- exactly so many items -/
  | array (length : Nat) (item : Schema)
  | tuple (items : List Schema)
  | tupleStruct (name : String) (items : List Schema)
  | map (key value : Schema)
  /-- a record; a closed one admits no other fields -/
  | record (name : String) (fields : List Field) (closed : Bool)
  /-- one of several named variants -/
  | enumeration (name : String) (variants : List Variant)
  /-- the first of several readings that succeeds -/
  | firstOf (name : String) (options : List Schema)
  /-- whatever there is -/
  | any
  /-- whatever there is, which is then forgotten -/
  | ignored
  /-- a dict whose first value is asked for before its key -/
  | valueFirst
/-- a field of a record, with the datum that stands in for it when it is not there -/
inductive Field where
  | mk (name : String) (content : Schema) (default : Option Datum)
/-- a variant of an enumeration -/
inductive Variant where
  | unit (name : String)
  | newtype (name : String) (content : Schema)
  | tuple (name : String) (items : List Schema)
  | record (name : String) (fields : List Field)
end

def Field.name : Field → String
  | mk name _ _ => name

def Variant.name : Variant → String
  | unit name | newtype name _ | tuple name _ | record name _ => name

/-- a field that has to be there, unless its content is optional -/
abbrev Field.required (name : String) (content : Schema) : Field := .mk name content none

/-- a field with a default -/
abbrev Field.withDefault (name : String) (content : Schema) (default : Datum) : Field := .mk name content (some default)

/-- an owned string -/
abbrev Schema.string : Schema := .text "a string"

/-- a string that stays where it was read from -/
abbrev Schema.borrowedString : Schema := .text "a borrowed string"

end MessageBus
