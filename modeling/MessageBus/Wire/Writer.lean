/-
The output side of the wire format.

A writer appends bytes and knows the position of the next one relative to the start of the message, since padding
depends on it. The length in front of an array is only known once the array is written: `startLength` reserves a word
and hands out a slot for it, `beginLength` says where the measured bytes start, `finishLength` fills the word in.
-/
import MessageBus.Wire.ByteOrder

namespace MessageBus.Wire

/-- bytes written so far; the first of them stands at position `base` of the message -/
structure Writer where
  order : ByteOrder
  base : Nat
  data : Array UInt8
  deriving DecidableEq, Repr

/-- a reserved length word: its index, and the index at which the measured bytes start -/
structure LengthSlot where
  word : Nat
  start : Nat
  deriving DecidableEq, Repr

/-- overwrite bytes from an index on -/
def overwrite (data : Array UInt8) (index : Nat) : List UInt8 → Array UInt8
  | [] => data
  | byte :: bytes => overwrite (data.setIfInBounds index byte) (index + 1) bytes

namespace Writer

/-- nothing written yet -/
def new (order : ByteOrder) (base : Nat) : Writer := ⟨order, base, #[]⟩

/-- position of the next byte in the message -/
def position (w : Writer) : Nat := w.base + w.data.size

def append (w : Writer) (bytes : List UInt8) : Writer := { w with data := w.data ++ bytes }

/-- pad with zeros up to a multiple of `alignment` -/
def align (w : Writer) (alignment : Nat) : Writer :=
  w.append (List.replicate (padding w.position alignment) 0)

/-- the lowest `size` bytes of a number, aligned to their size -/
def put (w : Writer) (size n : Nat) : Writer :=
  let w := w.align size
  w.append (w.order.bytes size n)

/-- reserve an aligned length word; the measured bytes start right behind it unless `beginLength` moves the start -/
def startLength (w : Writer) : LengthSlot × Writer :=
  let w := w.align 4
  (⟨w.data.size, w.data.size + 4⟩, w.append [0, 0, 0, 0])

/-- the measured bytes start here -/
def beginLength (w : Writer) (slot : LengthSlot) : LengthSlot := { slot with start := w.data.size }

/-- fill in the number of bytes written since the measured ones started, and return it -/
def finishLength (w : Writer) (slot : LengthSlot) : Nat × Writer :=
  let length := w.data.size - slot.start
  (length, { w with data := overwrite w.data slot.word (w.order.bytes 4 length) })

end Writer

end MessageBus.Wire
