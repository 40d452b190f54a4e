/-
Reading signatures.

The text is scanned once from left to right with a stack of open containers, innermost first: an array waits for the
next complete type, a struct or dict entry collects fields until its closing bracket. `Scan.step` handles one letter;
`parse` runs it over a whole text and wants every container closed. Arrays may nest 32 deep, and so may structs and
dict entries together.
-/
import MessageBus.Ty
import MessageBus.Error

namespace MessageBus.Ty

/-- longest signature in bytes -/
def maxTextLength : Nat := 255

/-- most arrays around one another -/
def maxArrayDepth : Nat := 32

/-- most structs and dict entries around one another -/
def maxStructDepth : Nat := 32

/-- an open container with the fields read so far -/
inductive Frame where
  | array
  | struct (fields : List Ty)
  | dictEntry (fields : List Ty)
  deriving DecidableEq, Repr

/-- state of the scan: open containers, complete types outside of them, and how many containers of each sort are
open -/
structure Scan where
  stack : List Frame
  complete : List Ty
  arrays : Nat
  structs : Nat
  deriving DecidableEq, Repr

namespace Scan

def start : Scan := ⟨[], [], 0, 0⟩

/-- a complete type ends every array that was waiting for an element -/
def closeArrays (type : Ty) : List Frame → Nat → Ty × List Frame × Nat
  | .array :: stack, arrays => closeArrays (.array type) stack (arrays - 1)
  | stack, arrays => (type, stack, arrays)

/-- put a complete type where the scan stands -/
def place (text : String) (scan : Scan) (type : Ty) : Except Error Scan :=
  let (type, stack, arrays) := closeArrays type scan.stack scan.arrays
  match stack with
  | .struct fields :: rest => .ok { scan with stack := .struct (fields ++ [type]) :: rest, arrays }
  | .dictEntry fields :: rest =>
    if fields.length = 2 then .error (.malformedSignature text .overfullEntry)
    else if fields.isEmpty && !type.isBasic then .error (.malformedSignature text .keyNotBasic)
    else .ok { scan with stack := .dictEntry (fields ++ [type]) :: rest, arrays }
  | _ => .ok { scan with stack, complete := scan.complete ++ [type], arrays }

def openArray (text : String) (scan : Scan) : Except Error Scan :=
  if maxArrayDepth < scan.arrays + 1 then .error (.signatureTooComplex text)
  else .ok { scan with stack := .array :: scan.stack, arrays := scan.arrays + 1 }

def openStruct (text : String) (scan : Scan) : Except Error Scan :=
  if maxStructDepth < scan.structs + 1 then .error (.signatureTooComplex text)
  else .ok { scan with stack := .struct [] :: scan.stack, structs := scan.structs + 1 }

def openEntry (text : String) (scan : Scan) : Except Error Scan :=
  match scan.stack with
  | .array :: _ =>
    if maxStructDepth < scan.structs + 1 then .error (.signatureTooComplex text)
    else .ok { scan with stack := .dictEntry [] :: scan.stack, structs := scan.structs + 1 }
  | _ => .error (.malformedSignature text .entryOutsideArray)

def closeStruct (text : String) (scan : Scan) : Except Error Scan :=
  match scan.stack with
  | .struct [] :: _ => .error (.malformedSignature text .emptyStruct)
  | .struct fields :: rest => place text { scan with stack := rest, structs := scan.structs - 1 } (.struct fields)
  | _ => .error (.malformedSignature text .unbalancedParenthesis)

def closeEntry (text : String) (scan : Scan) : Except Error Scan :=
  match scan.stack with
  | .dictEntry [key, value] :: rest =>
    place text { scan with stack := rest, structs := scan.structs - 1 } (.dictEntry key value)
  | .dictEntry _ :: _ => .error (.malformedSignature text .incompleteEntry)
  | _ => .error (.malformedSignature text .unbalancedBrace)

/-- letters that the protocol sets aside for programs; they never occur in a message -/
def isReserved (c : Char) : Bool := ['m', 'r', 'e', '*', '?', '@', '&', '^'].contains c

/-- scan one letter of `text` -/
def step (text : String) (scan : Scan) (c : Char) : Except Error Scan :=
  if c = 'a' then scan.openArray text
  else if c = '(' then scan.openStruct text
  else if c = '\x7b' then scan.openEntry text
  else if c = ')' then scan.closeStruct text
  else if c = '\x7d' then scan.closeEntry text
  else if c = 'v' then scan.place text .variant
  else match Basic.ofCode? c with
    | some type => scan.place text (.basic type)
    | none => if isReserved c then .error (.reservedCode c) else .error (.malformedSignature text .unknownCode)

/-- scan letters of `text` from left to right -/
def run (text : String) : Scan → List Char → Except Error Scan
  | scan, [] => .ok scan
  | scan, c :: cs => do run text (← scan.step text c) cs

/-- the complete types, when no container is left open -/
def finish (text : String) (scan : Scan) : Except Error (List Ty) :=
  if scan.stack.isEmpty then .ok scan.complete else .error (.malformedSignature text .unterminated)

end Scan

/-- read a signature: a sequence of complete types -/
def parse (text : String) : Except Error (List Ty) :=
  if maxTextLength < text.utf8ByteSize then .error (.malformedSignature text .tooLong)
  else do (← Scan.start.run text text.toList).finish text

/-- read a signature of exactly one complete type, as a variant carries it -/
def parseSingle (text : String) : Except Error Ty := do
  match ← parse text with
  | [type] => .ok type
  | _ => .error (.malformedSignature text .notSingle)

end MessageBus.Ty
