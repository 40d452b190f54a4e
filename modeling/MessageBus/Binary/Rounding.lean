/-
Conversions into the two binary floating-point formats.

`Format.round` gives the bits of the number of a format that is nearest to m · 2^q, a tie going to the number with an
even mantissa and what is too large becoming infinity. Whole numbers and numbers of the other format are converted
through it; a NaN keeps its sign and the upper bits of its fraction and becomes quiet.
-/

namespace MessageBus.Binary

/-- a binary interchange format: a sign bit, the exponent, the fraction -/
structure Format where
  exponentBits : Nat
  fractionBits : Nat
  deriving DecidableEq, Repr

/-- the 32-bit format -/
def single : Format := ⟨8, 23⟩

/-- the 64-bit format -/
def double : Format := ⟨11, 52⟩

namespace Format

/-- all bits of the format -/
abbrev width (f : Format) : Nat := 1 + f.exponentBits + f.fractionBits

/-- the exponent of the last place of the subnormal numbers -/
def leastExponent (f : Format) : Int := 2 - (1 <<< (f.exponentBits - 1) : Nat) - f.fractionBits

/-- the bits of positive infinity -/
def infinity (f : Format) : Nat := ((1 <<< f.exponentBits) - 1) <<< f.fractionBits

/-- put the sign bit in front of the other bits -/
def signed (f : Format) (negative : Bool) (bits : Nat) : BitVec f.width :=
  BitVec.ofNat f.width (if negative then bits + (1 <<< (f.exponentBits + f.fractionBits)) else bits)

/-- n / 2^shift rounded to nearest, a tie to the even number -/
def shiftRound (n shift : Nat) : Nat :=
  let unit := 1 <<< shift
  let quotient := n / unit
  let twice := 2 * (n % unit)
  if twice < unit then quotient
  else if unit < twice then quotient + 1
  else quotient + quotient % 2

/-- the number of the format nearest to mantissa · 2^exponent -/
def round (f : Format) (negative : Bool) (mantissa : Nat) (exponent : Int) : BitVec f.width :=
  if mantissa = 0 then f.signed negative 0
  else
    let length : Int := (Nat.log2 mantissa + 1 : Nat)
    let place := max (exponent + length - (f.fractionBits + 1)) f.leastExponent
    let kept :=
      if place ≤ exponent then mantissa <<< (exponent - place).toNat
      else shiftRound mantissa (place - exponent).toNat
    let bits := ((place - f.leastExponent).toNat <<< f.fractionBits) + kept
    f.signed negative (min bits f.infinity)

/-- the number of the format nearest to a whole number -/
def ofInt (f : Format) (n : Int) : BitVec f.width := f.round (n < 0) n.natAbs 0

/-- convert a number of another format -/
def convert (f g : Format) (bits : BitVec f.width) : BitVec g.width :=
  let negative := bits.msb
  let exponent := (bits.extractLsb' f.fractionBits f.exponentBits).toNat
  let fraction := (bits.extractLsb' 0 f.fractionBits).toNat
  if exponent = (1 <<< f.exponentBits) - 1 then
    if fraction = 0 then g.signed negative g.infinity
    else
      let upper := (fraction <<< g.fractionBits) >>> f.fractionBits
      g.signed negative (g.infinity + (upper ||| (1 <<< (g.fractionBits - 1))))
  else if exponent = 0 then g.round negative fraction f.leastExponent
  else g.round negative ((1 <<< f.fractionBits) + fraction) (f.leastExponent + exponent - 1)

end Format

/-- every number of the 32-bit format is one of the 64-bit format -/
def widen (bits : BitVec 32) : BitVec 64 := single.convert double bits

/-- the nearest number of the 32-bit format -/
def narrow (bits : BitVec 64) : BitVec 32 := double.convert single bits

end MessageBus.Binary
