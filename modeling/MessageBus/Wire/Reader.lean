/-
The input side of the wire format.

A reader holds the bytes not read yet and the position of the first of them relative to the start of the message. A
read that asks for more bytes than there are fails and leaves the reader where it is.
-/
import MessageBus.Text.Utf8
import MessageBus.Wire.ByteOrder

namespace MessageBus.Wire

structure Reader where
  order : ByteOrder
  position : Nat
  rest : List UInt8
  deriving DecidableEq, Repr

/-- a step that reads, and may fail after having read -/
abbrev Decoder (α : Type) := ExceptT Error (StateM Reader) α

/-- a list has at least so many elements; looks no further than them -/
def hasAtLeast {α : Type} (n : Nat) (list : List α) : Bool := n = 0 || !(list.drop (n - 1)).isEmpty

theorem hasAtLeast_iff {α : Type} (n : Nat) (list : List α) : hasAtLeast n list = true ↔ n ≤ list.length := by
  simp only [hasAtLeast, Bool.or_eq_true, decide_eq_true_eq, Bool.not_eq_true', List.isEmpty_eq_false_iff, ne_eq,
    List.drop_eq_nil_iff]
  omega

namespace Reader

def remaining (r : Reader) : Nat := r.rest.length

/-- the error of asking for more bytes than there are -/
def shortage (r : Reader) (needed : Nat) : Error := .truncated r.position needed r.remaining

end Reader

namespace Decoder

/-- the next `n` bytes -/
def read (n : Nat) : Decoder (List UInt8) := do
  let r ← get
  if hasAtLeast n r.rest then
    set { r with position := r.position + n, rest := r.rest.drop n }
    return r.rest.take n
  else throw (r.shortage n)

/-- skip padding up to a multiple of `alignment`, whatever the bytes are -/
def align (alignment : Nat) : Decoder Unit := do
  let _ ← read (padding (← get).position alignment)

/-- the number in the next `size` bytes, aligned to their size -/
def word (size : Nat) : Decoder Nat := do
  align size
  return (← get).order.number (← read size)

/-- `length` bytes of UTF-8 without a NUL, and the NUL behind them -/
def terminated (length : Nat) : Decoder String := do
  let bytes ← read length
  let stop := (← get).position
  if (← read 1) ≠ [0] then throw (.unterminatedText stop)
  if bytes.contains 0 then throw .embeddedNul
  match Text.ofUtf8? bytes with
  | some text => return text
  | none => throw .invalidUtf8

/-- repeat a step until the position reaches `stop`, at most `steps` times; a step that goes past it fails -/
def untilPosition {α : Type} (stop : Nat) (step : Decoder α) : (steps : Nat) → Decoder (List α)
  | 0 => do
    let r ← get
    if r.position < stop then throw (.arrayOverrun r.position stop) else return []
  | steps + 1 => do
    if (← get).position < stop then
      let item ← step
      let reached := (← get).position
      if stop < reached then throw (.arrayOverrun reached stop)
      return item :: (← untilPosition stop step steps)
    else return []

end Decoder

end MessageBus.Wire
