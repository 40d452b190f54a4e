/-
What a stretch of a message is made of.

A layout is a list of segments: padding, words, the lengths in front of arrays, and plain bytes. It says nothing of byte
order, which only decides how a word is spelled (`render`). Bytes stand for a layout (`Matches`) when they spell it with
any bytes at all as padding; of all of these, `render` writes the ones whose padding is zero (`render_eq_blank`).

`Piece` is a layout that depends on the position that it starts at, as padding does; `consecutive` puts pieces one after
another.
-/
import Mathlib.Tactic
import MessageBus.Wire.Encode

namespace MessageBus

/-! ## Words -/

namespace ByteOrder

theorem littleBytes_littleNumber (bytes : List UInt8) : littleBytes bytes.length (littleNumber bytes) = bytes := by
  induction bytes with
  | nil => rfl
  | cons b bs ih =>
    have hlow : UInt8.ofNat (b.toNat + 256 * littleNumber bs) = b := by
      rw [← UInt8.toNat_inj, UInt8.toNat_ofNat']
      have := b.toNat_lt
      omega
    have hhigh : (b.toNat + 256 * littleNumber bs) / 256 = littleNumber bs := by
      have := b.toNat_lt
      omega
    rw [List.length_cons, littleNumber, littleBytes, hlow, hhigh, ih]

theorem bytes_number (order : ByteOrder) (bytes : List UInt8) : order.bytes bytes.length (order.number bytes) = bytes := by
  cases order with
  | little => exact littleBytes_littleNumber bytes
  | big =>
    have := littleBytes_littleNumber bytes.reverse
    rw [List.length_reverse] at this
    simp only [ByteOrder.bytes, number, this, List.reverse_reverse]

theorem number_lt (order : ByteOrder) (bytes : List UInt8) : order.number bytes < 1 <<< (8 * bytes.length) := by
  have h := number_bytes order bytes.length (order.number bytes)
  rw [bytes_number] at h
  rw [h]
  exact Nat.mod_lt _ (by simp [Nat.shiftLeft_eq])

end ByteOrder

namespace Wire

/-! ## Segments -/

inductive Segment where
  /-- bytes without a meaning -/
  | padding (size : Nat)
  /-- a number in so many bytes -/
  | word (size n : Nat)
  /-- the number of bytes of an array -/
  | length (n : Nat)
  | raw (bytes : List UInt8)
  deriving DecidableEq, Repr

namespace Segment

def size : Segment → Nat
  | padding size => size
  | word size _ => size
  | length _ => 4
  | raw bytes => bytes.length

/-- the bytes of a segment, with zeros as padding -/
def bytes (order : ByteOrder) : Segment → List UInt8
  | padding size => List.replicate size 0
  | word size n => order.bytes size n
  | length n => order.bytes 4 n
  | raw bytes => bytes

/-- the number has room in its word, and the array is not longer than the protocol allows -/
def Fits : Segment → Prop
  | padding _ | raw _ => True
  | word size n => n < 1 <<< (8 * size)
  | length n => n ≤ maxArrayLength

/-- these bytes may stand for the segment: any as padding, and otherwise only its own -/
def Matches (order : ByteOrder) : Segment → List UInt8 → Prop
  | padding size, bytes => bytes.length = size
  | segment, bytes => bytes = segment.bytes order

/-- for every byte of the segment, whether it is padding -/
def mask : Segment → List Bool
  | padding size => List.replicate size true
  | segment => List.replicate segment.size false

@[simp] theorem length_bytes (order : ByteOrder) (s : Segment) : (s.bytes order).length = s.size := by
  cases s <;> simp [bytes, size]

@[simp] theorem length_mask (s : Segment) : s.mask.length = s.size := by
  cases s <;> simp [mask, size]

theorem matches_bytes (order : ByteOrder) (s : Segment) : s.Matches order (s.bytes order) := by
  cases s <;> simp [Matches, bytes]

theorem Matches.length_eq {order : ByteOrder} {s : Segment} {bs : List UInt8} (h : s.Matches order bs) :
    bs.length = s.size := by
  cases s with
  | padding size => exact h
  | _ => rw [h, length_bytes]

end Segment

/-- number of bytes of some segments -/
def size : List Segment → Nat
  | [] => 0
  | segment :: segments => segment.size + size segments

/-- the bytes of some segments, with zeros as padding -/
def render (order : ByteOrder) (segments : List Segment) : List UInt8 := segments.flatMap (·.bytes order)

/-- for every byte of some segments, whether it is padding -/
def mask (segments : List Segment) : List Bool := segments.flatMap Segment.mask

/-- these bytes may stand for the segments one after another -/
def Matches (order : ByteOrder) : List Segment → List UInt8 → Prop
  | [], bytes => bytes = []
  | segment :: segments, bytes =>
    ∃ front rest, bytes = front ++ rest ∧ segment.Matches order front ∧ Matches order segments rest

/-- every segment fits -/
def AllFit (segments : List Segment) : Prop := ∀ segment ∈ segments, segment.Fits

variable {order : ByteOrder} {s t : List Segment} {bs : List UInt8}

@[simp] theorem size_nil : size [] = 0 := rfl

@[simp] theorem size_cons (segment : Segment) (s : List Segment) : size (segment :: s) = segment.size + size s := rfl

theorem size_singleton (segment : Segment) : size [segment] = segment.size := rfl

@[simp] theorem size_append (s t : List Segment) : size (s ++ t) = size s + size t := by
  induction s with
  | nil => simp
  | cons a s ih => simp [ih, Nat.add_assoc]

@[simp] theorem render_nil (order : ByteOrder) : render order [] = [] := rfl

@[simp] theorem render_cons (order : ByteOrder) (segment : Segment) (s : List Segment) :
    render order (segment :: s) = segment.bytes order ++ render order s := rfl

@[simp] theorem render_append (order : ByteOrder) (s t : List Segment) :
    render order (s ++ t) = render order s ++ render order t := List.flatMap_append

@[simp] theorem length_render (order : ByteOrder) (s : List Segment) : (render order s).length = size s := by
  induction s with
  | nil => rfl
  | cons a s ih => simp [ih]

@[simp] theorem length_mask (s : List Segment) : (mask s).length = size s := by
  induction s with
  | nil => rfl
  | cons a s ih => simpa [mask] using ih

@[simp] theorem allFit_nil : AllFit [] := by simp [AllFit]

@[simp] theorem allFit_cons (segment : Segment) (s : List Segment) :
    AllFit (segment :: s) ↔ segment.Fits ∧ AllFit s := List.forall_mem_cons

@[simp] theorem allFit_append (s t : List Segment) : AllFit (s ++ t) ↔ AllFit s ∧ AllFit t := List.forall_mem_append

theorem matches_append : Matches order (s ++ t) bs ↔ ∃ a b, bs = a ++ b ∧ Matches order s a ∧ Matches order t b := by
  induction s generalizing bs with
  | nil => simp [Matches]
  | cons segment s ih =>
    constructor
    · intro h
      rcases h with ⟨front, rest, rfl, hf, hr⟩
      obtain ⟨a, b, rfl, ha, hb⟩ := ih.1 hr
      exact ⟨front ++ a, b, (List.append_assoc ..).symm, ⟨front, a, rfl, hf, ha⟩, hb⟩
    · intro h
      rcases h with ⟨_, b, rfl, ⟨front, a, rfl, hf, ha⟩, hb⟩
      exact ⟨front, a ++ b, List.append_assoc .., hf, ih.2 ⟨a, b, rfl, ha, hb⟩⟩

theorem matches_singleton {segment : Segment} : Matches order [segment] bs ↔ segment.Matches order bs := by
  simp [Matches]

theorem Matches.length_eq (h : Matches order s bs) : bs.length = size s := by
  induction s generalizing bs with
  | nil => simp [show bs = [] from h]
  | cons segment s ih =>
    obtain ⟨front, rest, rfl, hf, hr⟩ := h
    simp [hf.length_eq, ih hr]

theorem matches_render (order : ByteOrder) (s : List Segment) : Matches order s (render order s) := by
  induction s with
  | nil => rfl
  | cons segment s ih => exact ⟨_, _, rfl, segment.matches_bytes order, ih⟩

/-! ## Zeros for padding -/

/-- bytes with zeros where the mask says so -/
def blank (mask : List Bool) (bytes : List UInt8) : List UInt8 :=
  List.zipWith (fun pad byte => if pad then 0 else byte) mask bytes

theorem blank_segment {segment : Segment} (h : segment.Matches order bs) :
    blank segment.mask bs = segment.bytes order := by
  have hlen := h.length_eq
  cases segment with
  | padding size =>
    obtain rfl : bs.length = size := h
    apply List.ext_getElem <;> simp [blank, Segment.mask, Segment.bytes]
  | _ =>
    rw [← show bs = Segment.bytes order _ from h]
    apply List.ext_getElem <;> simp [blank, Segment.mask, hlen]

/-- what is written has zeros as padding, and is otherwise the same as whatever stands for the same segments -/
theorem Matches.render_eq_blank (h : Matches order s bs) : render order s = blank (mask s) bs := by
  induction s generalizing bs with
  | nil => simp [blank, mask]
  | cons segment s ih =>
    obtain ⟨front, rest, rfl, hf, hr⟩ := h
    have hlen : segment.mask.length = front.length := by rw [Segment.length_mask, hf.length_eq]
    have hsplit : blank (mask (segment :: s)) (front ++ rest) = blank segment.mask front ++ blank (mask s) rest :=
      List.zipWith_append hlen
    rw [hsplit, blank_segment hf, ← ih hr, render_cons]

/-! ## Pieces -/

/-- a layout that depends on the position of its first byte -/
abbrev Piece := Nat → List Segment

/-- pieces one after another -/
def consecutive : List Piece → Piece
  | [], _ => []
  | piece :: pieces, p => piece p ++ consecutive pieces (p + size (piece p))

/-- a piece behind padding to a multiple of an alignment -/
def aligned (alignment : Nat) (piece : Piece) : Piece := fun p =>
  .padding (padding p alignment) :: piece (p + padding p alignment)

/-- the number of bytes of an array, and its contents behind padding that does not count -/
def measured (alignment : Nat) (body : Piece) : Piece := fun p =>
  let start := p + padding p 4 + 4
  let content := body (start + padding start alignment)
  [.padding (padding p 4), .length (size content), .padding (padding start alignment)] ++ content

/-- the same with the position of the contents at hand -/
theorem measured_eq {alignment : Nat} {body : Piece} {p start : Nat} (h : start = p + padding p 4 + 4) :
    measured alignment body p = [.padding (padding p 4), .length (size (body (start + padding start alignment))),
      .padding (padding start alignment)] ++ body (start + padding start alignment) := by
  subst h
  rfl

@[simp] theorem consecutive_nil (p : Nat) : consecutive [] p = [] := rfl

theorem consecutive_cons (piece : Piece) (pieces : List Piece) (p : Nat) :
    consecutive (piece :: pieces) p = piece p ++ consecutive pieces (p + size (piece p)) := rfl

theorem consecutive_pair (a b : Piece) (p : Nat) : consecutive [a, b] p = a p ++ b (p + size (a p)) := by
  simp [consecutive]

end Wire

end MessageBus
