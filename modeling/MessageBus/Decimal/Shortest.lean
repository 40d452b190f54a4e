/-
The shortest decimal text of a 64-bit binary floating-point number.

A finite double is m · 2^q. The reals that round to it form an interval around it, whose ends count when m is even.
Among the decimal grids 10^(k-1), 10^(k-2), …, where 10^k is the least power of ten above the value, the first one
with a point in that interval is taken, and on it the point nearest to the value; of two equally near points the
larger. The text is always positional and a whole number has no fraction.
-/

namespace MessageBus.Decimal

/-- a positive finite double m · 2^q; `narrowBelow` says that the next smaller double is only half as far away as the
next larger one -/
structure Magnitude where
  mantissa : Nat
  exponent : Int
  narrowBelow : Bool
  deriving DecidableEq, Repr

/-- what the 64 bits of a double stand for; zero is the finite number with mantissa zero -/
inductive Double where
  | nan
  | infinite (negative : Bool)
  | finite (negative : Bool) (size : Magnitude)
  deriving DecidableEq, Repr

/-- take the sign, the eleven exponent bits and the 52 fraction bits apart -/
def Double.ofBits (bits : BitVec 64) : Double :=
  let negative := bits.msb
  let exponent := (bits.extractLsb' 52 11).toNat
  let fraction := (bits.extractLsb' 0 52).toNat
  if exponent = 2047 then
    if fraction = 0 then .infinite negative else .nan
  else if exponent = 0 then .finite negative ⟨fraction, -1074, false⟩
  else .finite negative ⟨(1 <<< 52) + fraction, (exponent : Int) - 1075, fraction = 0 && exponent != 1⟩

/-- the reals that round to a magnitude, and the magnitude itself, as numerators over one denominator -/
structure Interval where
  low : Nat
  value : Nat
  high : Nat
  denominator : Nat
  closed : Bool
  deriving DecidableEq, Repr

/-- half a step to either side, a quarter step below a power of two -/
def Magnitude.interval (x : Magnitude) : Interval :=
  let up := 1 <<< (x.exponent - 2).toNat
  { low := (4 * x.mantissa - if x.narrowBelow then 1 else 2) * up
    value := 4 * x.mantissa * up
    high := (4 * x.mantissa + 2) * up
    denominator := 1 <<< (2 - x.exponent).toNat
    closed := x.mantissa % 2 = 0 }

/-- a decimal number digits · 10^exponent -/
structure Digits where
  digits : Nat
  exponent : Int
  deriving DecidableEq, Repr

/-- the decimal number lies among the reals of the interval -/
def Interval.contains (x : Interval) (d : Digits) : Bool :=
  let n := d.digits * Nat.pow 10 d.exponent.toNat * x.denominator
  let scale := Nat.pow 10 (-d.exponent).toNat
  if x.closed then x.low * scale ≤ n && n ≤ x.high * scale else x.low * scale < n && n < x.high * scale

/-- the quotient of the value and 10^exponent, as a pair of numerator and denominator -/
def Interval.gridRatio (x : Interval) (exponent : Int) : Nat × Nat :=
  (x.value * Nat.pow 10 (-exponent).toNat, x.denominator * Nat.pow 10 exponent.toNat)

/-- the number of digits before the decimal point; minus the zeros after it for a value below one tenth -/
def Interval.magnitude (x : Interval) : Int :=
  let guess := ((Nat.toDigits 10 x.value).length : Int) - (Nat.toDigits 10 x.denominator).length
  let (num, den) := x.gridRatio guess
  if den ≤ num then guess + 1 else guess

/-- the point of the grid 10^exponent in the interval that is nearest to the value, the larger of two -/
def Interval.nearest? (x : Interval) (exponent : Int) : Option Digits :=
  let (num, den) := x.gridRatio exponent
  let below : Digits := ⟨num / den, exponent⟩
  let above : Digits := ⟨num / den + 1, exponent⟩
  match x.contains below, x.contains above with
  | true, true => some (if 2 * (num % den) < den then below else above)
  | true, false => some below
  | false, true => some above
  | false, false => none

/-- the first of the grids with one, two, … digits that meets the interval; 17 digits always do -/
def Interval.shortest (x : Interval) : Digits :=
  let k := x.magnitude
  ((List.range 17).findSome? fun n => x.nearest? (k - (n + 1 : Nat))).getD ⟨0, 0⟩

/-- digits without the zeros at their end -/
def dropTrailingZeros (digits : List Char) : List Char :=
  (digits.reverse.dropWhile (· = '0')).reverse

/-- positional notation, without a point when there is no fraction -/
def Digits.positional (d : Digits) : List Char :=
  let digits := Nat.toDigits 10 d.digits
  if 0 ≤ d.exponent then digits ++ List.replicate d.exponent.toNat '0'
  else
    let places := (-d.exponent).toNat
    let padded := List.replicate (places + 1 - digits.length) '0' ++ digits
    let whole := padded.take (padded.length - places)
    match dropTrailingZeros (padded.drop (padded.length - places)) with
    | [] => whole
    | fraction => whole ++ '.' :: fraction

/-- the text of a double: `NaN`, `inf`, or the shortest positional digits with a minus sign where the sign bit is set -/
def text (bits : BitVec 64) : String :=
  match Double.ofBits bits with
  | .nan => "NaN"
  | .infinite negative => if negative then "-inf" else "inf"
  | .finite negative size =>
    let digits := if size.mantissa = 0 then ['0'] else size.interval.shortest.positional
    String.ofList (if negative then '-' :: digits else digits)

/-- as `text`, but a finite whole number keeps a fraction of zero -/
def textWithPoint (bits : BitVec 64) : String :=
  match Double.ofBits bits with
  | .finite _ _ => let plain := text bits; if plain.contains '.' then plain else plain ++ ".0"
  | _ => text bits

/-- both doubles are numbers and the same one; the two zeros are -/
def sameNumber (a b : BitVec 64) : Bool :=
  match Double.ofBits a, Double.ofBits b with
  | .nan, _ | _, .nan => false
  | .finite _ x, .finite _ y => a = b || (x.mantissa = 0 && y.mantissa = 0)
  | _, _ => a = b

end MessageBus.Decimal
