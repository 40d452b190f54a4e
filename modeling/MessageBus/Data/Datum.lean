/-
Host data: what a program hands over to be written as D-Bus values, or gets back when values are read.

A datum says in the terms of a typed host language what a piece of data is: a number of some width, an optional value,
a record with named fields, one variant of an enumeration, and so on. It says nothing about D-Bus types; whoever
writes or reads it decides on those.
-/

namespace MessageBus

/-- the integer types of a host; `usize` is as wide as a pointer, which is 64 bits -/
inductive HostInt where
  | i8 | i16 | i32 | i64 | u8 | u16 | u32 | u64 | usize
  deriving DecidableEq, Repr

namespace HostInt

def width : HostInt → Nat
  | i8 | u8 => 8
  | i16 | u16 => 16
  | i32 | u32 => 32
  | i64 | u64 | usize => 64

def isSigned : HostInt → Bool
  | i8 | i16 | i32 | i64 => true
  | u8 | u16 | u32 | u64 | usize => false

def name : HostInt → String
  | i8 => "i8"
  | i16 => "i16"
  | i32 => "i32"
  | i64 => "i64"
  | u8 => "u8"
  | u16 => "u16"
  | u32 => "u32"
  | u64 => "u64"
  | usize => "usize"

/-- the type has the number: its lowest bits, as many as the type has, still stand for it -/
def holds (type : HostInt) (n : Int) : Bool :=
  let bits := BitVec.ofInt type.width n
  (if type.isSigned then bits.toInt else bits.toNat) = n

end HostInt

/-- the two halves in which a map may be handed over -/
inductive MapPart where
  | key | value
  deriving DecidableEq, Repr

/-- a piece of host data; names are those of types, of variants and of fields, and an index is the place of a variant
among those of its type -/
inductive Datum where
  | bool (value : Bool)
  | int (type : HostInt) (value : Int)
  | single (bits : BitVec 32)
  | double (bits : BitVec 64)
  | char (value : Char)
  | text (value : String)
  | bytes (value : List UInt8)
  | absent
  | present (content : Datum)
  | unit
  | unitStruct (name : String)
  | newtypeStruct (name : String) (content : Datum)
  | seq (items : List Datum)
  | tuple (items : List Datum)
  | tupleStruct (name : String) (items : List Datum)
  | record (name : String) (fields : List (String × Datum))
  | unitVariant (type : String) (index : Nat) (name : String)
  | newtypeVariant (type : String) (index : Nat) (name : String) (content : Datum)
  | tupleVariant (type : String) (index : Nat) (name : String) (items : List Datum)
  | recordVariant (type : String) (index : Nat) (name : String) (fields : List (String × Datum))
  | map (entries : List (Datum × Datum))
  /-- a map whose keys and values are handed over one by one: a key replaces one that still waits for its value -/
  | mapParts (parts : List (MapPart × Datum))
  /-- data that refuses to be written -/
  | refused (reason : String)
  /-- data of a type that cannot be written -/
  | unsupported (type : String)
  deriving Repr

end MessageBus
