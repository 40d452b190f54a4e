/-
What all steps of a decoder have in common.

A value is read by few kinds of steps, one after another: padding is skipped, words and texts are read, and arrays are read
item by item. `Decoder.Stepwise P` says that all of these have a property `P`, and that it is kept when steps are put
together. Then reading a value has it too, of any type and at any depth (`Decoder.Stepwise.decodeWithin`), so that the types
are gone through here once for all such properties.
-/
import MessageBus.Proofs.Wire.Decode
import MessageBus.Proofs.Wire.Refusals

namespace MessageBus

/-- an error about a value or a type, which does not say where it was met -/
def Error.Placeless : Error → Prop
  | truncated .. | arrayOverrun .. | unterminatedText _ => False
  | _ => True

theorem Error.IsRefusal.placeless {e : Error} (h : e.IsRefusal) : e.Placeless := by
  cases e <;> trivial

namespace Ty

theorem parseSingle_refusal {text : String} {error : Error} (h : parseSingle text = .error error) : error.IsRefusal := by
  unfold parseSingle at h
  rcases hparse : parse text with e | types
  · rw [hparse] at h
    cases h
    exact parse_refusal hparse
  · rw [hparse] at h
    rcases types with _ | ⟨type, _ | ⟨next, rest⟩⟩ <;> cases h <;> trivial

end Ty

namespace Wire

/-- a property that the steps of a decoder have that read something, when they fail by themselves only by an error of some
sort, and that is kept when steps are put together -/
structure Decoder.Steps (Q : Error → Prop) (P : ∀ {α : Type}, Decoder α → Prop) : Prop where
  /-- an error without a position that blames no signature without a reason is of the sort -/
  admits (error : Error) (h : error.Placeless) (hj : error.Justified) : Q error
  pure {α : Type} (a : α) : P (pure a)
  throw {α : Type} {error : Error} (h : Q error) : P (throw error : Decoder α)
  lift {α : Type} {x : Except Error α} (h : ∀ error, x = .error error → Q error) : P (liftM x)
  bind {α β : Type} {d : Decoder α} {f : α → Decoder β} (hd : P d) (hf : ∀ a, P (f a)) : P (d >>= f)
  word {size : Nat} (h : size ∣ 8) : P (Decoder.word size)
  terminated (length : Nat) : P (Decoder.terminated length)

/-- a property that all steps of a decoder have, when they say of themselves only what is wrong with a value and align only
to divisors of eight, and that is kept when steps are put together -/
structure Decoder.Stepwise (P : ∀ {α : Type}, Decoder α → Prop) : Prop extends Decoder.Steps Error.Placeless P where
  admits := fun _ h _ => h
  align {alignment : Nat} (h : alignment ∣ 8) : P (Decoder.align alignment)
  measured {α : Type} {alignment : Nat} (h : alignment ∣ 8) {step : Decoder α} (hstep : P step) (collect : List α → Value) :
    P (readMeasured alignment step collect)

namespace Decoder.Steps

variable {Q : Error → Prop} {P : ∀ {α : Type}, Decoder α → Prop}

theorem text (h : Steps Q P) {size : Nat} (hsize : size ∣ 8) {α : Type} {f : String → Decoder α} (hf : ∀ text, P (f text)) :
    P (Decoder.word size >>= fun length => Decoder.terminated length >>= f) :=
  h.bind (h.word hsize) fun length => h.bind (h.terminated length) hf

theorem decodeBasic (h : Steps Q P) (type : Basic) : P (decodeBasic type) := by
  cases type with
  | int kind => exact h.bind (h.word (IntKind.size_dvd kind)) fun _ => h.pure _
  | boolean =>
    apply h.bind (h.word (by decide))
    intro n
    split_ifs
    · exact h.pure _
    · exact h.pure _
    · exact h.throw (h.admits _ trivial trivial)
  | double => exact h.bind (h.word (by decide)) fun _ => h.pure _
  | text kind =>
    cases kind with
    | string => exact h.text (by decide) fun _ => h.pure _
    | objectPath =>
      apply h.text (by decide)
      intro path
      apply h.bind (h.lift fun _ he => h.admits _ (NameKind.check_refusal he).placeless (NameKind.check_justified he))
      exact fun _ => h.pure _
    | signature =>
      apply h.text (by decide)
      intro text
      apply h.bind (h.lift fun _ he => h.admits _ (Ty.parse_refusal he).placeless (Ty.parse_justified he))
      exact fun _ => h.pure _

end Decoder.Steps

namespace Decoder.Stepwise

variable {P : ∀ {α : Type}, Decoder α → Prop}

theorem mapM (h : Stepwise P) {α β : Type} {f : α → Decoder β} (xs : List α) (hf : ∀ x, P (f x)) : P (xs.mapM f) := by
  induction xs with
  | nil => exact h.pure []
  | cons x xs ih =>
    rw [List.mapM_cons]
    exact h.bind (hf x) fun _ => h.bind ih fun _ => h.pure _

/-- **What all steps have, reading a value has**, of any type and at any depth. -/
theorem decodeWithin (h : Stepwise P) (levels : Nat) (type : Ty) : P (decodeWithin levels type) := by
  induction levels generalizing type with
  | zero => exact h.throw trivial
  | succ levels ih =>
    have hpair {α : Type} (key value : Ty) (collect : Value → Value → α) : P (do
        Decoder.align 8
        let key ← Wire.decodeWithin levels key
        return collect key (← Wire.decodeWithin levels value)) :=
      h.bind (h.align (by decide)) fun _ => h.bind (ih key) fun _ => h.bind (ih value) fun _ => h.pure _
    cases type with
    | basic type => exact h.bind (h.decodeBasic type) fun _ => h.pure _
    | variant =>
      apply h.text (by decide)
      intro text
      apply h.bind (h.lift fun _ he => (Ty.parseSingle_refusal he).placeless)
      intro type
      exact h.bind (ih type) fun _ => h.pure _
    | array element =>
      cases element with
      | dictEntry key value => exact h.measured (Nat.dvd_refl 8) (hpair key value Prod.mk) .dict
      | _ => exact h.measured (alignment_dvd _) (ih _) .array
    | struct types => exact h.bind (h.align (by decide)) fun _ => h.bind (h.mapM types ih) fun _ => h.pure _
    | dictEntry key value => exact hpair key value fun first second => Value.struct [first, second]

theorem decodeAll (h : Stepwise P) (types : List Ty) : P (decodeAll types) := h.mapM types (h.decodeWithin _)

end Decoder.Stepwise

end Wire

end MessageBus
