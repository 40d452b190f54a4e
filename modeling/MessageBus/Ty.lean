/-
D-Bus types.

A basic type is a fixed-width integer, a boolean, a double or one of three kinds of text; arrays, structs and dict
entries hold other types, and a variant brings its type along. `Ty.text` writes a type as the protocol does, one
letter per basic type. Nothing here keeps a tree from being ill formed (an empty struct, a dict entry outside of an
array): what the protocol admits is decided where signatures are read.
-/

namespace MessageBus

/-- the fixed-width integers; a file descriptor travels as its index among the descriptors of the message -/
inductive IntKind where
  | byte | int16 | uint16 | int32 | uint32 | int64 | uint64 | unixFd
  deriving DecidableEq, Repr

namespace IntKind

/-- bytes on the wire, which is also the alignment -/
def size : IntKind → Nat
  | byte => 1
  | int16 | uint16 => 2
  | int32 | uint32 | unixFd => 4
  | int64 | uint64 => 8

abbrev width (k : IntKind) : Nat := 8 * k.size

def isSigned : IntKind → Bool
  | int16 | int32 | int64 => true
  | byte | uint16 | uint32 | uint64 | unixFd => false

def code : IntKind → Char
  | byte => 'y'
  | int16 => 'n'
  | uint16 => 'q'
  | int32 => 'i'
  | uint32 => 'u'
  | int64 => 'x'
  | uint64 => 't'
  | unixFd => 'h'

def name : IntKind → String
  | byte => "byte"
  | int16 => "int16"
  | uint16 => "uint16"
  | int32 => "int32"
  | uint32 => "uint32"
  | int64 => "int64"
  | uint64 => "uint64"
  | unixFd => "unix fd"

/-- the number that a word of the kind stands for -/
def toInt (k : IntKind) (bits : BitVec k.width) : Int := if k.isSigned then bits.toInt else bits.toNat

/-- the word that stands for a number, if there is one -/
def ofInt? (k : IntKind) (n : Int) : Option (BitVec k.width) :=
  let bits := BitVec.ofInt k.width n
  if k.toInt bits = n then some bits else none

end IntKind

/-- the kinds of text -/
inductive TextKind where
  | string | objectPath | signature
  deriving DecidableEq, Repr

namespace TextKind

def code : TextKind → Char
  | string => 's'
  | objectPath => 'o'
  | signature => 'g'

def name : TextKind → String
  | string => "string"
  | objectPath => "object path"
  | signature => "signature"

/-- alignment of the length in front of the text, which is one byte for a signature and a word otherwise -/
def alignment : TextKind → Nat
  | string | objectPath => 4
  | signature => 1

end TextKind

/-- the types that may be keys of a dict -/
inductive Basic where
  | int (kind : IntKind)
  | boolean
  | double
  | text (kind : TextKind)
  deriving DecidableEq, Repr

namespace Basic

def code : Basic → Char
  | int kind => kind.code
  | boolean => 'b'
  | double => 'd'
  | text kind => kind.code

def alignment : Basic → Nat
  | int kind => kind.size
  | boolean => 4
  | double => 8
  | text kind => kind.alignment

/-- the type that a letter stands for -/
def ofCode? : Char → Option Basic
  | 'y' => some (int .byte)
  | 'b' => some boolean
  | 'n' => some (int .int16)
  | 'q' => some (int .uint16)
  | 'i' => some (int .int32)
  | 'u' => some (int .uint32)
  | 'x' => some (int .int64)
  | 't' => some (int .uint64)
  | 'd' => some double
  | 's' => some (text .string)
  | 'o' => some (text .objectPath)
  | 'g' => some (text .signature)
  | 'h' => some (int .unixFd)
  | _ => none

theorem ofCode?_code (b : Basic) : ofCode? b.code = some b := by
  rcases b with k | _ | _ | k <;> (try cases k) <;> rfl

end Basic

/-- a single complete type -/
inductive Ty where
  | basic (type : Basic)
  | variant
  | array (element : Ty)
  | struct (fields : List Ty)
  | dictEntry (key value : Ty)
  deriving Repr

namespace Ty

/-- the letter or opening bracket that a type starts with -/
def code : Ty → Char
  | basic type => type.code
  | variant => 'v'
  | array _ => 'a'
  | struct _ => '('
  | dictEntry _ _ => '\x7b'

/-- the positions at which a value of the type may start are the multiples of this -/
def alignment : Ty → Nat
  | basic type => type.alignment
  | variant => 1
  | array _ => 4
  | struct _ | dictEntry _ _ => 8

/-- the types that may be keys of a dict -/
def isBasic : Ty → Bool
  | basic _ => true
  | _ => false

/-- the types directly inside, in order -/
def children : Ty → List Ty
  | basic _ | variant => []
  | array element => [element]
  | struct fields => fields
  | dictEntry key value => [key, value]

mutual
/-- the letters and brackets of a type -/
def letters : Ty → List Char
  | basic type => [type.code]
  | variant => ['v']
  | array element => 'a' :: element.letters
  | struct fields => '(' :: lettersAll fields ++ [')']
  | dictEntry key value => '\x7b' :: key.letters ++ value.letters ++ ['\x7d']
/-- the letters and brackets of several types, one after another -/
def lettersAll : List Ty → List Char
  | [] => []
  | type :: types => type.letters ++ lettersAll types
end

/-- a type in signature notation -/
def text (type : Ty) : String := String.ofList type.letters

/-- a sequence of types in signature notation -/
def textAll (types : List Ty) : String := String.ofList (lettersAll types)

mutual
/-- equality of types, by recursion on both trees -/
def same : Ty → Ty → Bool
  | basic a, basic b => a = b
  | variant, variant => true
  | array a, array b => a.same b
  | struct a, struct b => sameAll a b
  | dictEntry k v, dictEntry k' v' => k.same k' && v.same v'
  | _, _ => false
/-- equality of lists of types -/
def sameAll : List Ty → List Ty → Bool
  | [], [] => true
  | a :: as, b :: bs => a.same b && sameAll as bs
  | _, _ => false
end

mutual
theorem same_iff (a b : Ty) : a.same b = true ↔ a = b := by
  cases a with
  | basic x => cases b <;> simp [same]
  | variant => cases b <;> simp [same]
  | array x => cases b with
    | array y => simp [same, same_iff x y]
    | _ => simp [same]
  | struct xs => cases b with
    | struct ys => simp [same, sameAll_iff xs ys]
    | _ => simp [same]
  | dictEntry k v => cases b with
    | dictEntry k' v' => simp [same, same_iff k k', same_iff v v']
    | _ => simp [same]
theorem sameAll_iff (as bs : List Ty) : sameAll as bs = true ↔ as = bs := by
  cases as with
  | nil => cases bs <;> simp [sameAll]
  | cons a as => cases bs with
    | nil => simp [sameAll]
    | cons b bs => simp [sameAll, same_iff a b, sameAll_iff as bs]
end

instance : DecidableEq Ty := fun a b => decidable_of_iff _ (same_iff a b)

end Ty

end MessageBus
