/-
Values as text.

Numbers, booleans and paths stand for themselves, strings are quoted, signatures and file descriptors say what they
are; arrays are put in square brackets, dicts in braces, structs in parentheses, and a variant shows its type.
-/
import MessageBus.Value

namespace MessageBus

def Scalar.display : Scalar → String
  | int .unixFd bits => s!"fd {IntKind.unixFd.toInt bits}"
  | int kind bits => s!"{kind.toInt bits}"
  | boolean value => if value then "true" else "false"
  | double bits => Decimal.text bits
  | text .string value => Text.quoted value
  | text .objectPath value => value
  | text .signature value => "signature " ++ Text.quoted value

namespace Value

/-- put pieces, separated by commas, between two brackets -/
def bracketed (left : String) (pieces : List String) (right : String) : String :=
  left ++ ", ".intercalate pieces ++ right

mutual
def display : Value → String
  | scalar value => value.display
  | array items => bracketed "[" (displayAll items) "]"
  | dict entries => bracketed "\x7b" (displayEntries entries) "\x7d"
  | struct fields => bracketed "(" (displayAll fields) ")"
  | variant type value => "<" ++ type.text ++ " " ++ value.display ++ ">"
def displayAll : List Value → List String
  | [] => []
  | value :: values => value.display :: displayAll values
def displayEntries : List (Value × Value) → List String
  | [] => []
  | (key, value) :: entries => (key.display ++ ": " ++ value.display) :: displayEntries entries
end

end Value

end MessageBus
