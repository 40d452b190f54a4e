/-
Numbers of the 32-bit format in the 64-bit format.

A number is taken apart into its sign, exponent and fraction, and put together from them (`parts_signed`, `exists_parts`).
Whatever it is, the wider format has it exactly, with a mantissa that is shifted up to its full length; and rounding that
mantissa back shifts it down by as many places, with nothing to round (`narrow_round`). So widening loses nothing, but for
a signaling NaN, which becomes quiet (`narrow_widen`).
-/
import Mathlib
import MessageBus.Binary.Rounding

namespace MessageBus.Binary

/-- a NaN of the 32-bit format whose uppermost bit of the fraction is not set -/
def isSignaling (bits : BitVec 32) : Bool :=
  let fraction := (bits.extractLsb' 0 23).toNat
  (bits.extractLsb' 23 8).toNat = 255 && 0 < fraction && fraction < 1 <<< 22

namespace Format

/-! ## Sign, exponent and fraction -/

section Parts

variable (f : Format) (negative : Bool) {exponent fraction : Nat}

theorem parts_lt (hexponent : exponent < 2 ^ f.exponentBits) (hfraction : fraction < 2 ^ f.fractionBits) :
    exponent * 2 ^ f.fractionBits + fraction < 2 ^ f.exponentBits * 2 ^ f.fractionBits :=
  calc exponent * 2 ^ f.fractionBits + fraction < (exponent + 1) * 2 ^ f.fractionBits := by
        rw [Nat.succ_mul]
        omega
    _ ≤ 2 ^ f.exponentBits * 2 ^ f.fractionBits := Nat.mul_le_mul_right _ hexponent

theorem toNat_signed (hexponent : exponent < 2 ^ f.exponentBits) (hfraction : fraction < 2 ^ f.fractionBits) :
    (f.signed negative (exponent * 2 ^ f.fractionBits + fraction)).toNat
      = ((if negative then 2 ^ f.exponentBits else 0) + exponent) * 2 ^ f.fractionBits + fraction := by
  have hpow : 2 ^ (f.exponentBits + f.fractionBits) = 2 ^ f.exponentBits * 2 ^ f.fractionBits := Nat.pow_add ..
  have hall : 2 ^ f.width = 2 * (2 ^ f.exponentBits * 2 ^ f.fractionBits) := by
    rw [Nat.pow_add, Nat.pow_add, Nat.mul_assoc]
  have hlow := f.parts_lt hexponent hfraction
  rw [signed, BitVec.toNat_ofNat, Nat.one_shiftLeft, Nat.mod_eq_of_lt]
  · split_ifs
    · rw [hpow, Nat.add_mul]
      omega
    · rw [Nat.zero_add]
  · rw [hall]
    split_ifs
    · rw [hpow]
      omega
    · omega

/-- sign, exponent and fraction are found in the bits that are put together from them -/
theorem parts_signed (hexponent : exponent < 2 ^ f.exponentBits) (hfraction : fraction < 2 ^ f.fractionBits) :
    (f.signed negative (exponent * 2 ^ f.fractionBits + fraction)).msb = negative ∧
      ((f.signed negative (exponent * 2 ^ f.fractionBits + fraction)).extractLsb' f.fractionBits f.exponentBits).toNat
        = exponent ∧
      ((f.signed negative (exponent * 2 ^ f.fractionBits + fraction)).extractLsb' 0 f.fractionBits).toNat = fraction := by
  have hpos : 0 < 2 ^ f.fractionBits := Nat.two_pow_pos _
  have hupper : ∀ n, (n * 2 ^ f.fractionBits + fraction) / 2 ^ f.fractionBits = n := fun n => by
    rw [Nat.mul_comm, Nat.mul_add_div hpos, Nat.div_eq_of_lt hfraction, Nat.add_zero]
  have htop : 2 ^ (f.width - 1) = 2 ^ f.exponentBits * 2 ^ f.fractionBits := by
    rw [← Nat.pow_add]
    congr 1
    simp only [width]
    omega
  refine ⟨?_, ?_, ?_⟩
  · rw [BitVec.msb_eq_decide, f.toNat_signed _ hexponent hfraction, htop]
    cases negative
    · have hlow := f.parts_lt hexponent hfraction
      simpa using hlow
    · have : 2 ^ f.exponentBits * 2 ^ f.fractionBits ≤ (2 ^ f.exponentBits + exponent) * 2 ^ f.fractionBits :=
        Nat.mul_le_mul_right _ (Nat.le_add_right ..)
      simpa using by omega
  · rw [BitVec.extractLsb'_toNat, f.toNat_signed _ hexponent hfraction, Nat.shiftRight_eq_div_pow, hupper]
    split_ifs
    · rw [Nat.add_mod_left, Nat.mod_eq_of_lt hexponent]
    · rw [Nat.zero_add, Nat.mod_eq_of_lt hexponent]
  · rw [BitVec.extractLsb'_toNat, f.toNat_signed _ hexponent hfraction, Nat.shiftRight_zero, Nat.mul_add_mod',
      Nat.mod_eq_of_lt hfraction]

/-- all bits are put together from a sign, an exponent and a fraction -/
theorem exists_parts (bits : BitVec f.width) :
    ∃ negative exponent fraction, exponent < 2 ^ f.exponentBits ∧ fraction < 2 ^ f.fractionBits ∧
      bits = f.signed negative (exponent * 2 ^ f.fractionBits + fraction) := by
  have hpos : 0 < 2 ^ f.fractionBits := Nat.two_pow_pos _
  have hexponent : bits.toNat / 2 ^ f.fractionBits % 2 ^ f.exponentBits < 2 ^ f.exponentBits :=
    Nat.mod_lt _ (Nat.two_pow_pos _)
  have hfraction : bits.toNat % 2 ^ f.fractionBits < 2 ^ f.fractionBits := Nat.mod_lt _ hpos
  refine ⟨bits.msb, _, _, hexponent, hfraction, BitVec.eq_of_toNat_eq ?_⟩
  rw [f.toNat_signed _ hexponent hfraction]
  have hwidth : bits.toNat < 2 * 2 ^ f.exponentBits * 2 ^ f.fractionBits := by
    calc bits.toNat < 2 ^ f.width := bits.isLt
      _ = _ := by rw [Nat.pow_add, Nat.pow_add]
  have hupper : bits.toNat / 2 ^ f.fractionBits < 2 * 2 ^ f.exponentBits := Nat.div_lt_of_lt_mul (by linarith)
  have hmsb : bits.msb = decide (2 ^ f.exponentBits ≤ bits.toNat / 2 ^ f.fractionBits) := by
    rw [BitVec.msb_eq_decide, decide_eq_decide, Nat.le_div_iff_mul_le hpos, ← Nat.pow_add]
    congr! 2
    simp only [width]
    omega
  have hsum : (if bits.msb = true then 2 ^ f.exponentBits else 0) + bits.toNat / 2 ^ f.fractionBits % 2 ^ f.exponentBits
      = bits.toNat / 2 ^ f.fractionBits := by
    by_cases hle : 2 ^ f.exponentBits ≤ bits.toNat / 2 ^ f.fractionBits
    · rw [hmsb, if_pos (decide_eq_true hle), Nat.mod_eq_sub_mod hle, Nat.mod_eq_of_lt (by omega)]
      omega
    · rw [hmsb, if_neg (by simpa using hle), Nat.mod_eq_of_lt (by omega), Nat.zero_add]
  rw [hsum, Nat.div_add_mod']

end Parts

/-! ## Rounding with nothing to round -/

theorem shiftRound_mul (n shift : Nat) : shiftRound (n * 2 ^ shift) shift = n := by
  have hpos : 0 < 2 ^ shift := Nat.two_pow_pos _
  simp [shiftRound, Nat.one_shiftLeft, hpos]

theorem log2_mul_two_pow {n : Nat} (hn : n ≠ 0) (shift : Nat) : Nat.log2 (n * 2 ^ shift) = Nat.log2 n + shift := by
  have hne : n * 2 ^ shift ≠ 0 := Nat.mul_ne_zero hn (Nat.two_pow_pos _).ne'
  refine (Nat.log2_eq_iff hne).2 ⟨?_, ?_⟩
  · rw [Nat.pow_add]
    exact Nat.mul_le_mul_right _ (Nat.log2_self_le hn)
  · rw [Nat.add_right_comm, Nat.pow_add]
    exact Nat.mul_lt_mul_of_pos_right Nat.lt_log2_self (Nat.two_pow_pos _)

/-- a mantissa that is longer than the format's by zeros only loses these -/
theorem round_mul_two_pow (f : Format) (negative : Bool) {kept : Nat} (hkept : kept ≠ 0) (shift : Nat) (exponent : Int)
    (hplace : max (exponent + shift + Nat.log2 kept - f.fractionBits) f.leastExponent = exponent + shift) :
    f.round negative (kept * 2 ^ shift) exponent
      = f.signed negative (min ((exponent + shift - f.leastExponent).toNat * 2 ^ f.fractionBits + kept) f.infinity) := by
  have hne : kept * 2 ^ shift ≠ 0 := Nat.mul_ne_zero hkept (Nat.two_pow_pos _).ne'
  have hlength : exponent + ((Nat.log2 (kept * 2 ^ shift) + 1 : Nat) : Int) - (f.fractionBits + 1)
      = exponent + shift + Nat.log2 kept - f.fractionBits := by
    rw [log2_mul_two_pow hkept]
    push_cast
    ring
  simp only [round, if_neg hne, hlength, hplace, Nat.shiftLeft_eq]
  congr 3
  split_ifs with hle
  · obtain rfl : shift = 0 := by omega
    simp
  · rw [show (exponent + shift - exponent).toNat = shift by omega, shiftRound_mul]

/-- a mantissa that is shorter than the format's is filled up with zeros -/
theorem round_of_le (f : Format) (negative : Bool) {mantissa shift : Nat} (hmantissa : mantissa ≠ 0) (exponent : Int)
    (hshift : Nat.log2 mantissa + shift = f.fractionBits) (hplace : f.leastExponent ≤ exponent - shift) :
    f.round negative mantissa exponent
      = f.signed negative
        (min ((exponent - shift - f.leastExponent).toNat * 2 ^ f.fractionBits + mantissa * 2 ^ shift) f.infinity) := by
  have hlength : max (exponent + ((Nat.log2 mantissa + 1 : Nat) : Int) - (f.fractionBits + 1)) f.leastExponent
      = exponent - shift := by omega
  simp only [round, if_neg hmantissa, hlength, Nat.shiftLeft_eq]
  rw [if_pos (by omega), show (exponent - (exponent - shift)).toNat = shift by omega]

theorem convert_signed (f g : Format) (negative : Bool) {exponent fraction : Nat} (hexponent : exponent < 2 ^ f.exponentBits)
    (hfraction : fraction < 2 ^ f.fractionBits) :
    f.convert g (f.signed negative (exponent * 2 ^ f.fractionBits + fraction)) =
      if exponent = (1 <<< f.exponentBits) - 1 then
        if fraction = 0 then g.signed negative g.infinity
        else g.signed negative
          (g.infinity + ((fraction <<< g.fractionBits) >>> f.fractionBits ||| (1 <<< (g.fractionBits - 1))))
      else if exponent = 0 then g.round negative fraction f.leastExponent
      else g.round negative ((1 <<< f.fractionBits) + fraction) (f.leastExponent + exponent - 1) := by
  obtain ⟨hmsb, he, hf⟩ := f.parts_signed negative hexponent hfraction
  simp only [convert, hmsb, he, hf]

end Format

/-! ## There and back -/

theorem exponentBits_single : single.exponentBits = 8 := rfl
theorem fractionBits_single : single.fractionBits = 23 := rfl
theorem leastExponent_single : single.leastExponent = -149 := rfl
theorem infinity_single : single.infinity = 255 * 2 ^ 23 := rfl
theorem exponentBits_double : double.exponentBits = 11 := rfl
theorem fractionBits_double : double.fractionBits = 52 := rfl
theorem leastExponent_double : double.leastExponent = -1074 := rfl
theorem infinity_double : double.infinity = 2047 * 2 ^ 52 := rfl

section Numbers

variable {negative : Bool} {mantissa : Nat} {exponent : Int}

/-- a mantissa and an exponent that the 32-bit format has: the mantissa has its full length, unless the number is
subnormal -/
structure InSingle (mantissa : Nat) (exponent : Int) : Prop where
  pos : mantissa ≠ 0
  lt : mantissa < 2 ^ 24
  full : exponent = -149 ∨ 2 ^ 23 ≤ mantissa
  least : -149 ≤ exponent
  most : exponent ≤ 104

/-- the bits of a number of the 32-bit format -/
def singleOf (negative : Bool) (mantissa : Nat) (exponent : Int) : BitVec 32 :=
  single.signed negative ((exponent + 149).toNat * 2 ^ 23 + mantissa)

theorem widen_singleOf (h : InSingle mantissa exponent) :
    widen (singleOf negative mantissa exponent) = double.round negative mantissa exponent := by
  obtain ⟨-, hlt, hfull, hleast, hmost⟩ := h
  by_cases hsub : mantissa < 2 ^ 23
  · obtain rfl : exponent = -149 := by omega
    have hbits : ((-149 : Int) + 149).toNat * 2 ^ 23 + mantissa = 0 * 2 ^ single.fractionBits + mantissa := by simp
    rw [widen, singleOf, hbits, single.convert_signed double negative (by decide) hsub, if_neg (by decide), if_pos rfl,
      leastExponent_single]
  · obtain ⟨fraction, rfl⟩ := Nat.exists_eq_add_of_le (Nat.le_of_not_lt hsub)
    have hbits : (exponent + 149).toNat * 2 ^ 23 + (2 ^ 23 + fraction)
        = ((exponent + 149).toNat + 1) * 2 ^ single.fractionBits + fraction := by
      rw [fractionBits_single]
      omega
    have hfield : (exponent + 149).toNat + 1 < 2 ^ single.exponentBits - 1 := by
      rw [exponentBits_single]
      omega
    have hfraction : fraction < 2 ^ single.fractionBits := by
      rw [fractionBits_single]
      omega
    rw [widen, singleOf, hbits, single.convert_signed double negative (by omega) hfraction,
      if_neg (by rw [Nat.one_shiftLeft]; omega), if_neg (by omega), leastExponent_single, Nat.one_shiftLeft,
      fractionBits_single]
    congr 1
    omega

theorem narrow_round (h : InSingle mantissa exponent) :
    narrow (double.round negative mantissa exponent) = singleOf negative mantissa exponent := by
  obtain ⟨hpos, hlt, hfull, hleast, hmost⟩ := h
  have hlength : Nat.log2 mantissa < 24 := (Nat.log2_lt hpos).2 hlt
  have hfull' : exponent = -149 ∨ 23 ≤ Nat.log2 mantissa := hfull.imp_right (Nat.le_log2 hpos).2
  obtain ⟨shift, hshift⟩ : ∃ shift, Nat.log2 mantissa + shift = 52 := ⟨52 - Nat.log2 mantissa, by omega⟩
  -- the mantissa of the wider number has its full length
  obtain ⟨fraction, hfraction⟩ : ∃ fraction, mantissa * 2 ^ shift = 2 ^ 52 + fraction := by
    refine Nat.exists_eq_add_of_le ?_
    rw [← hshift, Nat.pow_add]
    exact Nat.mul_le_mul_right _ (Nat.log2_self_le hpos)
  have hlt52 : fraction < 2 ^ 52 := by
    have : mantissa * 2 ^ shift < 2 ^ 53 := by
      rw [show 53 = Nat.log2 mantissa + 1 + shift by omega, Nat.pow_add]
      exact Nat.mul_lt_mul_of_pos_right Nat.lt_log2_self (Nat.two_pow_pos _)
    omega
  obtain ⟨field, hfield⟩ := Int.eq_ofNat_of_zero_le (show 0 ≤ exponent - shift + 1074 by omega)
  have hwide : double.round negative mantissa exponent = double.signed negative ((field + 1) * 2 ^ 52 + fraction) := by
    have hround := double.round_of_le negative hpos exponent hshift (by rw [leastExponent_double]; omega)
    rw [hround, leastExponent_double, infinity_double, hfraction, sub_neg_eq_add, hfield, Int.toNat_natCast,
      fractionBits_double]
    congr 1
    omega
  have hback : double.convert single (double.signed negative ((field + 1) * 2 ^ 52 + fraction))
      = single.round negative (mantissa * 2 ^ shift) (exponent - shift) := by
    have hexponent : field + 1 < 2 ^ double.exponentBits := by
      rw [exponentBits_double]
      omega
    have hconvert := double.convert_signed single negative hexponent hlt52
    rw [if_neg (by rw [exponentBits_double]; omega), if_neg (by omega)] at hconvert
    rw [fractionBits_double] at hconvert
    rw [hconvert, hfraction, Nat.one_shiftLeft, leastExponent_double]
    congr 1
    omega
  have hround := single.round_mul_two_pow negative hpos shift (exponent - shift)
    (by rw [leastExponent_single, fractionBits_single]; omega)
  rw [leastExponent_single, infinity_single, fractionBits_single, sub_add_cancel, sub_neg_eq_add,
    Nat.min_eq_left (by omega)] at hround
  rw [hwide]
  exact hback.trans hround

end Numbers

/-- a bit that is set already may be set once more -/
theorem or_two_pow {n k : Nat} (hle : 2 ^ k ≤ n) (hlt : n < 2 ^ (k + 1)) : n ||| 2 ^ k = n := by
  obtain ⟨rest, rfl⟩ := Nat.exists_eq_add_of_le hle
  have hsplit : 2 ^ k + rest = 2 ^ k ||| rest := by
    simpa using Nat.two_pow_add_eq_or_of_lt (show rest < 2 ^ k by omega) 1
  rw [hsplit, Nat.or_right_comm, Nat.or_self]

/-- widening keeps an infinity, and the fraction of a quiet NaN in its upper bits -/
theorem narrow_special (negative : Bool) {fraction : Nat} (hfraction : fraction < 2 ^ 23)
    (hquiet : fraction ≠ 0 → 2 ^ 22 ≤ fraction) :
    narrow (widen (single.signed negative (255 * 2 ^ 23 + fraction))) = single.signed negative (255 * 2 ^ 23 + fraction) := by
  obtain rfl | hne := eq_or_ne fraction 0
  · cases negative <;> rfl
  have hset := hquiet hne
  have hwide := single.convert_signed double negative (show 255 < 2 ^ single.exponentBits by decide) hfraction
  have hkept : (fraction <<< 52) >>> 23 = fraction * 2 ^ 29 := by
    rw [Nat.shiftLeft_eq, Nat.shiftRight_eq_div_pow]
    omega
  have hbits : double.infinity + ((fraction <<< 52) >>> 23 ||| 1 <<< 51) = 2047 * 2 ^ 52 + fraction * 2 ^ 29 := by
    rw [hkept, Nat.one_shiftLeft, or_two_pow (by omega) (by omega), infinity_double]
  rw [if_pos (show 255 = 1 <<< single.exponentBits - 1 from rfl), if_neg hne, fractionBits_double, fractionBits_single,
    hbits] at hwide
  have hnarrow := double.convert_signed single negative (show 2047 < 2 ^ double.exponentBits by decide)
    (show fraction * 2 ^ 29 < 2 ^ double.fractionBits by rw [fractionBits_double]; omega)
  have hback : ((fraction * 2 ^ 29) <<< 23) >>> 52 = fraction := by
    rw [Nat.shiftLeft_eq, Nat.shiftRight_eq_div_pow]
    omega
  rw [if_pos (show 2047 = 1 <<< double.exponentBits - 1 from rfl), if_neg (by omega), fractionBits_double,
    fractionBits_single, hback, Nat.one_shiftLeft, or_two_pow hset hfraction, infinity_single] at hnarrow
  exact (congrArg narrow hwide).trans hnarrow

/-- **A number of the 32-bit format survives the 64-bit format.** -/
theorem narrow_widen {bits : BitVec 32} (h : isSignaling bits = false) : narrow (widen bits) = bits := by
  have hquiet : (bits.extractLsb' 23 8).toNat = 255 → 0 < (bits.extractLsb' 0 23).toNat →
      2 ^ 22 ≤ (bits.extractLsb' 0 23).toNat := by simpa [isSignaling] using h
  obtain ⟨negative, e, fraction, he, hfraction, rfl⟩ := single.exists_parts bits
  obtain ⟨-, hexponent, hrest⟩ := single.parts_signed negative he hfraction
  rw [exponentBits_single] at he
  rw [fractionBits_single] at hfraction hexponent hrest hquiet ⊢
  have hnumber : ∀ {mantissa exponent}, InSingle mantissa exponent →
      narrow (widen (singleOf negative mantissa exponent)) = singleOf negative mantissa exponent := fun h => by
    rw [widen_singleOf h, narrow_round h]
  obtain rfl | hspecial := eq_or_ne e 255
  · refine narrow_special negative hfraction fun hne => ?_
    exact hrest ▸ hquiet hexponent (lt_of_lt_of_eq (Nat.pos_of_ne_zero hne) hrest.symm)
  obtain rfl | hnormal := Nat.eq_zero_or_pos e
  · obtain rfl | hpos := Nat.eq_zero_or_pos fraction
    · cases negative <;> rfl
    · have hin : InSingle fraction (-149) := ⟨by omega, by omega, .inl rfl, by omega, by omega⟩
      simpa [singleOf] using hnumber hin
  · have hin : InSingle (2 ^ 23 + fraction) ((e : Int) - 150) := ⟨by omega, by omega, .inr (by omega), by omega, by omega⟩
    have hbits : ((e : Int) - 150 + 149).toNat * 2 ^ 23 + (2 ^ 23 + fraction) = e * 2 ^ 23 + fraction := by omega
    have := hnumber hin
    rwa [singleOf, hbits] at this

end MessageBus.Binary
