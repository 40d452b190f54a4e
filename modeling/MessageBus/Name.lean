/-
The grammars of the names that messages carry.

An object path is `/`, or segments of letters, digits and underscores with a slash before each. A member is an
identifier; an interface or error name is two or more identifiers joined by dots; a bus name is two or more non-empty
segments joined by dots, in which `-` may occur, and only a unique name, which starts with `:`, may have segments that
start with a digit. All but paths are at most 255 bytes long. Every accepted name is plain ASCII.
-/

namespace MessageBus

/-- what a name is used for -/
inductive NameKind where
  | objectPath | interface | member | error | bus
  deriving DecidableEq, Repr

namespace Name

/-- the pieces of a text between occurrences of `mark`, of which there is one more than occurrences -/
def segments (mark : Char) : List Char → List (List Char)
  | [] => [[]]
  | c :: cs =>
    if c = mark then [] :: segments mark cs
    else match segments mark cs with
      | [] => [[c]]
      | first :: rest => (c :: first) :: rest

/-- letters, digits and the underscore -/
def isElement (c : Char) : Bool := c.isAlphanum || c = '_'

/-- elements that do not start with a digit, at least one -/
def isIdentifier : List Char → Bool
  | [] => false
  | c :: cs => (c.isAlpha || c = '_') && cs.all isElement

/-- identifiers joined by dots, at least two -/
def isDotted (name : List Char) : Bool := name.contains '.' && (segments '.' name).all isIdentifier

/-- a segment of a bus name -/
def isBusSegment (unique : Bool) : List Char → Bool
  | [] => false
  | c :: cs => (unique || !c.isDigit) && (c :: cs).all fun c => isElement c || c = '-'

def isObjectPath : List Char → Bool
  | ['/'] => true
  | '/' :: rest => (segments '/' rest).all fun segment => !segment.isEmpty && segment.all isElement
  | _ => false

def isBusName : List Char → Bool
  | ':' :: rest => rest.contains '.' && (segments '.' rest).all (isBusSegment true)
  | name => name.contains '.' && (segments '.' name).all (isBusSegment false)

/-- the greatest length of a name in bytes -/
def maxLength : Nat := 255

end Name

/-- the name obeys the grammar of its kind -/
def NameKind.accepts (kind : NameKind) (name : String) : Bool :=
  match kind with
  | .objectPath => Name.isObjectPath name.toList
  | .interface | .error => name.utf8ByteSize ≤ Name.maxLength && Name.isDotted name.toList
  | .member => name.utf8ByteSize ≤ Name.maxLength && Name.isIdentifier name.toList
  | .bus => name.utf8ByteSize ≤ Name.maxLength && Name.isBusName name.toList

end MessageBus
