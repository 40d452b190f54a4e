/-
Two tables of basic types.

A scalar that is made to fit a basic type meets one table (`Scalar.convert`), a scalar that is written as a basic type another
one (`encodeBasic`). Whoever makes host data fit a type and then writes the value gets what he gets by writing the scalar
itself as that type, down to the error (`Datum.coercions_agree`): integers are checked against the same ranges, strings
against the rules of paths and signatures, and all else is refused by both. The one exception are the integers 0 and 1 where
a boolean is wanted (`Scalar.IsFlag`). They are written as booleans, but refused as host data.
-/
import Mathlib
import MessageBus.Data.Realize
import MessageBus.Proofs.Data.Mapping
import MessageBus.Proofs.Wire.Encode

namespace MessageBus

open Wire

/-- make the value of a type that a datum becomes, and write it -/
def Datum.encode (datum : Datum) (policy : Policy) (type : Ty) : Encoder Unit := do
  Wire.encode type (← datum.toValue policy type)

namespace Scalar

/-- an integer 0 or 1 where a boolean is wanted -/
def IsFlag (value : Scalar) (type : Basic) : Prop := type = .boolean ∧ (value.number? = some 0 ∨ value.number? = some 1)

/-- a text that is a plain string, or no text at all -/
def IsPlain : Scalar → Prop
  | text kind _ => kind = .string
  | _ => True

/-- no scalar but a boolean is made to fit a boolean -/
theorem convert_boolean {value : Scalar} (h : ¬∃ b, value = .boolean b) :
    value.convert .boolean = .error (mismatch (.basic .boolean) (.scalar value)) := by
  cases value with
  | boolean b => exact absurd ⟨b, rfl⟩ h
  | _ => rfl

end Scalar

namespace Wire

/-- an integer that fits its kind is the word for itself -/
theorem toWord_self (kind : IntKind) (bits : BitVec kind.width) : (Value.scalar (.int kind bits)).toWord kind = .ok bits :=
  toWord_eq_ok_iff.2 (kind.ofInt?_toInt bits)

/-- **The tables agree but for flags.** A scalar that is made to fit a type is written as the scalar itself would be. -/
theorem encodeBasic_convert {value : Scalar} {type : Basic} (hplain : value.IsPlain) (hflag : ¬value.IsFlag type) (w : Writer) :
    (do encodeBasic type (.scalar (← value.convert type)) : Encoder Unit).run w = (encodeBasic type (.scalar value)).run w := by
  cases type with
  | int kind =>
    rw [encodeBasic, Scalar.convert]
    cases hword : (Value.scalar value).toWord kind with
    | error e => rfl
    | ok bits =>
      change (encodeBasic (.int kind) (.scalar (.int kind bits))).run w = _
      rw [encodeBasic, toWord_self]
  | boolean =>
    by_cases hboolean : ∃ b, value = .boolean b
    · obtain ⟨b, rfl⟩ := hboolean
      rfl
    · have hzero : value.number? ≠ some 0 := fun h => hflag ⟨rfl, .inl h⟩
      have hone : value.number? ≠ some 1 := fun h => hflag ⟨rfl, .inr h⟩
      rw [encodeBasic_boolean hboolean, if_neg hzero, if_neg hone, Scalar.convert_boolean hboolean]
      rfl
  | double => cases value <;> rfl
  | text wanted =>
    cases value with
    | text kind content =>
      obtain rfl : kind = .string := hplain
      cases wanted with
      | string => rfl
      | objectPath =>
        -- the check comes twice, and does not change its mind
        rw [encodeBasic, Scalar.convert]
        cases hcheck : NameKind.objectPath.check content with
        | error e => rfl
        | ok _ =>
          change (encodeBasic (.text .objectPath) (.scalar (.text .objectPath content))).run w = _
          rw [encodeBasic, hcheck]
      | signature =>
        rw [encodeBasic, putSignature, Scalar.convert]
        cases hparse : Ty.parse content with
        | error e => rfl
        | ok types =>
          change (encodeBasic (.text .signature) (.scalar (.text .signature content))).run w = _
          rw [encodeBasic, putSignature, hparse]
    | _ => cases wanted <;> rfl

/-- a flag is written as the boolean that it stands for -/
theorem encodeBasic_flag {value : Scalar} {type : Basic} (h : value.IsFlag type) :
    ∃ b : Bool, encodeBasic type (.scalar value) = encodeBasic type (.scalar (.boolean b)) := by
  obtain ⟨rfl, h⟩ := h
  have hboolean : ¬∃ b, value = .boolean b := by
    rintro ⟨b, rfl⟩
    rcases h with h | h <;> cases h
  rw [encodeBasic_boolean hboolean]
  rcases h with h | h
  · exact ⟨false, by rw [if_pos h, encodeBasic]; rfl⟩
  · exact ⟨true, by rw [if_neg (by rw [h]; decide), if_pos h, encodeBasic]; rfl⟩

end Wire

namespace Datum

/-- of all texts, data have only plain strings -/
theorem isPlain_of_shape : ∀ {datum : Datum} {value : Scalar}, datum.shape = .ok (.leaf value) → value.IsPlain
  | bool _, _, h | int _ _, _, h | single _, _, h | double _, _, h => by
    cases h
    trivial
  | char _, _, h | text _, _, h => by
    cases h
    rfl
  | present content, _, h | newtypeStruct _ content, _, h => @isPlain_of_shape content _ h
  | bytes _, _, h | absent, _, h | unit, _, h | unitStruct _, _, h | unitVariant _ _ _, _, h | refused _, _, h
  | unsupported _, _, h => by cases h
  | seq _, _, h | tuple _, _, h | tupleStruct _ _, _, h | record _ _, _, h | newtypeVariant _ _ _ _, _, h
  | tupleVariant _ _ _ _, _, h | recordVariant _ _ _ _, _, h | map _, _, h | mapParts _, _, h => by
    obtain ⟨_, _, h⟩ := bind_eq_ok.1 h
    cases h

theorem encode_of_leaf {datum : Datum} {value : Scalar} (h : datum.shape = .ok (.leaf value)) (policy : Policy) (type : Basic)
    (w : Writer) : (datum.encode policy (.basic type)).run w
      = (do encodeBasic type (.scalar (← value.convert type)) : Encoder Unit).run w := by
  have hvalue : datum.toValue policy (.basic type) = do return .scalar (← value.convert type) := by
    rw [toValue, h]
    rfl
  rw [encode, hvalue]
  cases value.convert type <;> rfl

/-- **Host data are coerced like values.** A scalar that is made to fit a basic type is written like the value that the
scalar has of itself: in the same bytes, or not at all and for the same reason. Only a flag is written as such and refused as
host data. -/
theorem coercions_agree {datum : Datum} {value : Scalar} (h : datum.shape = .ok (.leaf value)) (policy : Policy)
    (type : Basic) (w : Writer) :
    (¬value.IsFlag type →
      (datum.encode policy (.basic type)).run w = (Wire.encode (.basic type) (.scalar value)).run w) ∧
    (value.IsFlag type →
      (datum.encode policy (.basic type)).run w = (.error (mismatch (.basic type) (.scalar value)), w) ∧
        ∃ b : Bool, (Wire.encode (.basic type) (.scalar value)).run w
          = (Wire.encode (.basic type) (.scalar (.boolean b))).run w) := by
  rw [encode_of_leaf h]
  constructor
  · exact fun hflag => encodeBasic_convert (isPlain_of_shape h) hflag w
  · rintro hflag
    obtain ⟨b, hb⟩ := encodeBasic_flag hflag
    obtain ⟨rfl, hbit⟩ := hflag
    have hboolean : ¬∃ b, value = .boolean b := by
      rintro ⟨b, rfl⟩
      rcases hbit with hbit | hbit <;> cases hbit
    refine ⟨?_, b, congrArg (·.run w) hb⟩
    rw [Scalar.convert_boolean hboolean]
    rfl

/-- a string becomes a path in big-endian order from position 3 on, and 300 is no byte -/
theorem coercions_agree_path :
    (text "/a").shape = .ok (.leaf (.text .string "/a")) ∧
      ((text "/a").encode .dicts (.basic (.text .objectPath))).run (Writer.new .big 3)
        = (.ok (), ⟨.big, 3, #[0, 0, 0, 0, 2, 47, 97, 0]⟩) ∧
      (present (int .u32 300)).shape = .ok (.leaf (.int .uint32 300)) ∧
      ((present (int .u32 300)).encode .dicts (.basic (.int .byte))).run (Writer.new .big 3)
        = (.error (.outOfRange 300 'y'), Writer.new .big 3) := by
  have hpath : (text "/a").shape = .ok (.leaf (.text .string "/a")) := rfl
  have hnumber : (present (int .u32 300)).shape = .ok (.leaf (.int .uint32 300)) := by rfl
  have hflag {value : Scalar} {type : Basic} (h : type ≠ .boolean) : ¬value.IsFlag type := fun hflag => h hflag.1
  refine ⟨hpath, ?_, hnumber, ?_⟩
  · rw [(coercions_agree hpath .dicts (.text .objectPath) (Writer.new .big 3)).1 (hflag (by decide))]
    cbv
  · rw [(coercions_agree hnumber .dicts (.int .byte) (Writer.new .big 3)).1 (hflag (by decide))]
    rfl

/-- a byte of 1 is written as a boolean, and refused as host data -/
theorem coercions_disagree_flag :
    (int .u8 1).shape = .ok (.leaf (.int .byte 1)) ∧
      ((int .u8 1).encode .dicts (.basic .boolean)).run (Writer.new .little 0)
        = (.error (.typeMismatch "b" "byte"), Writer.new .little 0) ∧
      (Wire.encode (.basic .boolean) (.byte 1)).run (Writer.new .little 0) = (.ok (), ⟨.little, 0, #[1, 0, 0, 0]⟩) :=
  ⟨by rfl, by rfl, by rfl⟩

end Datum

end MessageBus
