/-
Words in either byte order, and the padding in front of them.

`ByteOrder.bytes` writes the lowest bytes of a number and `ByteOrder.number` reads them back. `padding` is the least
number of bytes after which a position is a multiple of an alignment.
-/
import MessageBus.Error

namespace MessageBus

inductive ByteOrder where
  | little | big
  deriving DecidableEq, Repr

namespace ByteOrder

/-- the byte that a message announces its order with -/
def marker : ByteOrder → UInt8
  | little => 108
  | big => 66

def ofMarker (marker : UInt8) : Except Error ByteOrder :=
  if marker = 108 then .ok little
  else if marker = 66 then .ok big
  else .error (.invalidByteOrder marker)

/-- the lowest `size` bytes of a number, least significant first -/
def littleBytes : (size n : Nat) → List UInt8
  | 0, _ => []
  | size + 1, n => UInt8.ofNat n :: littleBytes size (n / 256)

/-- the number written by some bytes, least significant first -/
def littleNumber : List UInt8 → Nat
  | [] => 0
  | byte :: bytes => byte.toNat + 256 * littleNumber bytes

/-- the lowest `size` bytes of a number -/
def bytes (order : ByteOrder) (size n : Nat) : List UInt8 :=
  match order with
  | little => littleBytes size n
  | big => (littleBytes size n).reverse

/-- the number written by some bytes -/
def number (order : ByteOrder) (bytes : List UInt8) : Nat :=
  match order with
  | little => littleNumber bytes
  | big => littleNumber bytes.reverse

@[simp] theorem length_littleBytes (size n : Nat) : (littleBytes size n).length = size := by
  induction size generalizing n with
  | zero => rfl
  | succ size ih => simp [littleBytes, ih]

@[simp] theorem length_bytes (order : ByteOrder) (size n : Nat) : (order.bytes size n).length = size := by
  cases order <;> simp [bytes]

theorem littleNumber_littleBytes (size n : Nat) : littleNumber (littleBytes size n) = n % (1 <<< (8 * size)) := by
  induction size generalizing n with
  | zero => simp [littleBytes, littleNumber, Nat.mod_one]
  | succ size ih =>
    have low : (UInt8.ofNat n).toNat = n % 256 := UInt8.toNat_ofNat'
    have unit : 1 <<< (8 * (size + 1)) = 256 * (1 <<< (8 * size)) := by
      rw [Nat.shiftLeft_eq, Nat.shiftLeft_eq, Nat.mul_succ, Nat.pow_add, Nat.one_mul, Nat.one_mul]
      exact Nat.mul_comm _ _
    rw [littleBytes, littleNumber, ih, low, unit, Nat.mod_mul]

theorem number_bytes (order : ByteOrder) (size n : Nat) : order.number (order.bytes size n) = n % (1 <<< (8 * size)) := by
  cases order <;> simp [number, bytes, littleNumber_littleBytes]

end ByteOrder

namespace Wire

/-- bytes from a position to the next multiple of an alignment -/
def padding (position alignment : Nat) : Nat := (alignment - position % alignment) % alignment

theorem padding_lt {alignment : Nat} (position : Nat) (h : 0 < alignment) : padding position alignment < alignment :=
  Nat.mod_lt _ h

theorem dvd_add_padding {alignment : Nat} (position : Nat) (h : 0 < alignment) :
    alignment ∣ position + padding position alignment := by
  have split := Nat.div_add_mod position alignment
  have low := Nat.mod_lt position h
  unfold padding
  by_cases aligned : position % alignment = 0
  · rw [aligned, Nat.sub_zero, Nat.mod_self]
    exact Nat.dvd_of_mod_eq_zero (by simpa using aligned)
  · rw [Nat.mod_eq_of_lt (by omega)]
    exact ⟨position / alignment + 1, by rw [Nat.mul_add, Nat.mul_one]; omega⟩

end Wire

end MessageBus
