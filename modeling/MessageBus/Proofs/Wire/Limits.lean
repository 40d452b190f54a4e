/-
The limits of what encoders write.

An encoder succeeds when the value is writable and every segment of its layout fits. Which segments may fail to fit is
no matter of the bytes before them: the words in front of texts too long to be counted (`layout_carries`), and the
lengths of arrays (`bodySizes`). So encoding succeeds exactly on the values that conform to the type and keep within
three limits, of depth, of array bodies and of texts (`encode_ok_iff`).
-/
import MessageBus.Proofs.Value.Conforming
import MessageBus.Proofs.Wire.Encode

namespace MessageBus

namespace Value

/-- every text in a value has fewer than 2³² bytes -/
def TextsFit (value : Value) : Prop :=
  ∀ n part text, value.Below n part → part.text? = some text → text.utf8ByteSize < 2 ^ 32

theorem textsFit_scalar {value : Scalar} :
    (scalar value).TextsFit ↔ ∀ text, value.text? = some text → text.utf8ByteSize < 2 ^ 32 := by
  constructor
  · intro h text htext
    exact h 0 _ text (.self _) htext
  · intro h n part text hpart htext
    cases hpart with
    | self => exact h text htext
    | inside hchild _ => cases hchild

/-- a container has no text but those of the values in it -/
theorem textsFit_iff {value : Value} (hscalar : value.scalar? = none) :
    value.TextsFit ↔ ∀ child ∈ value.children, child.TextsFit := by
  constructor
  · intro h child hchild n part text hpart htext
    exact h (n + 1) part text (.inside hchild hpart) htext
  · intro h n part text hpart htext
    cases hpart with
    | self => simp [Value.text?, hscalar] at htext
    | inside hchild hpart => exact h _ hchild _ _ text hpart htext

end Value

namespace Wire

open Value (Writable TextsFit)

/-! ## Words that fit -/

/-- every number has room in its word -/
def WordsFit (segments : List Segment) : Prop := ∀ size n, .word size n ∈ segments → n < 1 <<< (8 * size)

/-- numbers of bytes of the array bodies among some segments -/
def bodySizes (segments : List Segment) : List Nat :=
  segments.filterMap fun
    | .length n => some n
    | _ => none

theorem allFit_iff {segments : List Segment} :
    AllFit segments ↔ WordsFit segments ∧ ∀ n ∈ bodySizes segments, n ≤ maxArrayLength := by
  have hmem (n : Nat) : n ∈ bodySizes segments ↔ .length n ∈ segments := by
    rw [bodySizes, List.mem_filterMap]
    constructor
    · rintro ⟨segment, hsegment, heq⟩
      cases segment <;> cases heq
      exact hsegment
    · intro h
      exact ⟨_, h, rfl⟩
  constructor
  · intro h
    exact ⟨fun size n hn => h _ hn, fun n hn => h _ ((hmem n).1 hn)⟩
  · rintro ⟨hwords, hbodies⟩ segment hsegment
    cases segment with
    | padding | raw => trivial
    | word size n => exact hwords size n hsegment
    | length n => exact hbodies n ((hmem n).2 hsegment)

@[simp] theorem wordsFit_nil : WordsFit [] := by simp [WordsFit]

@[simp] theorem wordsFit_append (s t : List Segment) : WordsFit (s ++ t) ↔ WordsFit s ∧ WordsFit t := by
  simp only [WordsFit, List.mem_append, or_imp, forall_and]

@[simp] theorem wordsFit_word (size n : Nat) (s : List Segment) :
    WordsFit (.word size n :: s) ↔ n < 1 <<< (8 * size) ∧ WordsFit s := by
  simp [WordsFit, or_imp, forall_and]

theorem wordsFit_cons {segment : Segment} (h : ∀ size n, .word size n ≠ segment) (s : List Segment) :
    WordsFit (segment :: s) ↔ WordsFit s := by
  simp [WordsFit, h]

/-- the words of a piece fit just when `P` holds, wherever it starts -/
def Carries (piece : Piece) (P : Prop) : Prop := ∀ p, WordsFit (piece p) ↔ P

section Carries

variable {a b : Piece} {P Q : Prop}

theorem Carries.congr (h : Carries a P) (hP : P ↔ Q) : Carries a Q := fun p => (h p).trans hP

theorem carries_pair (ha : Carries a P) (hb : Carries b Q) : Carries (consecutive [a, b]) (P ∧ Q) := by
  intro p
  rw [consecutive_pair, wordsFit_append, ha, hb]

theorem carries_map {α : Type} {f : α → Piece} {P : α → Prop} (xs : List α) (h : ∀ x ∈ xs, Carries (f x) (P x)) :
    Carries (consecutive (xs.map f)) (∀ x ∈ xs, P x) := by
  induction xs with
  | nil => simp [Carries]
  | cons x xs ih =>
    intro p
    have htail := ih fun y hy => h y (List.mem_cons_of_mem x hy)
    rw [List.map_cons, consecutive_cons, wordsFit_append, h x List.mem_cons_self, htail, List.forall_mem_cons]

theorem Carries.aligned (h : Carries a P) (alignment : Nat) : Carries (Wire.aligned alignment a) P := by
  intro p
  rw [Wire.aligned, wordsFit_cons (by simp), h]

theorem Carries.measured (h : Carries a P) (alignment : Nat) : Carries (Wire.measured alignment a) P := by
  intro p
  rw [measured_eq rfl, wordsFit_append, h]
  simp [WordsFit]

end Carries

/-! ## Texts that fit -/

theorem carries_word {alignment size n : Nat} {P : Prop} {rest : List Segment} (h : n < 1 <<< (8 * size) ↔ P)
    (hrest : WordsFit rest) : Carries (aligned alignment fun _ => .word size n :: rest) P := by
  refine Carries.aligned (fun p => ?_) alignment
  rw [wordsFit_word, h, and_iff_left hrest]

theorem carries_text {kind : TextKind} {text : String} {P : Prop}
    (h : text.utf8ByteSize < 1 <<< (8 * kind.alignment) ↔ P) : Carries (Scalar.text kind text).layout P :=
  carries_word h (by simp [WordsFit])

theorem carries_signature {text : String} (h : ∃ types, Ty.parse text = .ok types) :
    Carries (Scalar.text .signature text).layout True := by
  obtain ⟨types, htypes⟩ := h
  exact carries_text (iff_true_intro (Nat.lt_succ_of_le (Ty.parse_sound htypes).1))

/-- a scalar is written with words that fit, but for the length of a text -/
theorem carries_coerced {type : Basic} {value result : Scalar} (h : type.coerce? value = some result)
    (hvalid : result.Valid) :
    Carries result.layout (∀ text, value.text? = some text → text.utf8ByteSize < 2 ^ 32) := by
  cases type with
  | int kind =>
    obtain ⟨bits, hbits, rfl⟩ := Option.map_eq_some_iff.1 h
    have hfits : bits.toNat < 1 <<< (8 * kind.size) := lt_of_lt_of_eq bits.isLt (Nat.one_shiftLeft _).symm
    have hnone : value.text? = none := by
      cases value with
      | int => rfl
      | _ => cases hbits
    exact carries_word (iff_of_true hfits (by simp [hnone])) wordsFit_nil
  | boolean =>
    have hput (b : Bool) : Carries (Scalar.boolean b).layout True :=
      carries_word (iff_true_intro (by cases b <;> decide)) wordsFit_nil
    have hnone : value.text? = none := by
      cases value with
      | text => cases h
      | _ => rfl
    obtain ⟨b, rfl⟩ : ∃ b, result = .boolean b := by
      have htype := Basic.type_of_coerce? h
      cases result <;> cases htype
      exact ⟨_, rfl⟩
    exact (hput b).congr (by simp [hnone])
  | double =>
    cases value with
    | double bits =>
      cases h
      exact carries_word (iff_of_true bits.isLt (by simp [Scalar.text?])) wordsFit_nil
    | _ => cases h
  | text kind =>
    obtain ⟨content, hgiven, rfl⟩ := Basic.coerce?_text.1 h
    have hsome : value.text? = some content := by
      obtain rfl | rfl := hgiven <;> rfl
    simp only [hsome, Option.some.injEq, forall_eq']
    cases kind with
    | string | objectPath => exact carries_text (by rw [Nat.one_shiftLeft]; rfl)
    | signature =>
      -- the limit is no limit here: a signature that parses has at most 255 bytes
      refine (carries_signature hvalid).congr (iff_of_true trivial ?_)
      obtain ⟨types, htypes⟩ := hvalid
      exact lt_of_le_of_lt (Ty.parse_sound htypes).1 (by decide)

/-- a value for each type, wherever the words of a single value fit when its texts do -/
theorem layoutAll_carries {levels : Nat} {types : List Ty} {values : List Value}
    (hone : ∀ {type value}, Writable levels type value → Carries (layout type (Value.normalize type value)) value.TextsFit)
    (h : List.Forall₂ (Writable levels) types values) :
    Carries (layoutAll types (Value.normalizeAll types values)) (∀ value ∈ values, value.TextsFit) := by
  induction h with
  | nil => simp [Carries, Value.normalizeAll, layoutAll]
  | cons hv _ ih => exact (carries_pair (hone hv) ih).congr List.forall_mem_cons.symm

/-- **The words of a value fit when its texts do.** -/
theorem layout_carries {levels : Nat} {type : Ty} {value : Value} (h : Writable levels type value) :
    Carries (layout type (Value.normalize type value)) value.TextsFit := by
  induction levels generalizing type value with
  | zero => cases h
  | succ levels ih =>
    unfold Writable at h
    split at h
    · obtain ⟨result, hresult, hvalid⟩ := h
      simp only [Value.normalize, hresult, Option.getD_some, layout]
      exact (carries_coerced hresult hvalid).congr Value.textsFit_scalar.symm
    · refine Carries.congr ?_ (Value.textsFit_iff rfl).symm
      refine (carries_pair (carries_signature ⟨_, h.1⟩) (ih h.2)).congr ?_
      rw [true_and]
      exact List.forall_mem_singleton.symm
    · refine Carries.congr ?_ (Value.textsFit_iff rfl).symm
      rw [Value.normalize, layout, layoutEntries_eq, Value.normalizeEntries_eq_map, List.map_map]
      have hentries := carries_map _ fun entry he => (carries_pair (ih (h entry he).1) (ih (h entry he).2)).aligned 8
      exact (hentries.measured 8).congr Value.forall_children_dict.symm
    · refine Carries.congr ?_ (Value.textsFit_iff rfl).symm
      rw [layout_items h]
      exact (carries_map _ fun item hitem => ih (h item hitem)).measured _
    · refine Carries.congr ?_ (Value.textsFit_iff rfl).symm
      exact (layoutAll_carries ih h).aligned 8
    · refine Carries.congr ?_ (Value.textsFit_iff rfl).symm
      exact (layoutAll_carries ih h).aligned 8
    · cases h

/-! ## The limits -/

/-- a value that is written as a type behind so many bytes keeps within the limits -/
structure InLimits (type : Ty) (value : Value) (p : Nat) : Prop where
  /-- no value lies more than 64 levels down -/
  depth : ∀ n part, value.Below n part → n ≤ 64
  /-- no array body is longer than 64 MiB -/
  bodies : ∀ n ∈ bodySizes (layout type (Value.normalize type value) p), n ≤ 2 ^ 26
  /-- the number of bytes of a text fits its word -/
  texts : value.TextsFit

/-- **Encoding succeeds exactly on the values that conform to the type and keep within the limits**, at any offset. -/
theorem encode_ok_iff (type : Ty) (value : Value) (w : Writer) :
    (∃ w', (encode type value).run w = (.ok (), w')) ↔ value.Conforms type ∧ InLimits type value w.position := by
  have hwithin : value.Within (maxDepth + 1) ↔ ∀ n part, value.Below n part → n ≤ 64 := by
    simp only [Value.Within, Nat.lt_succ_iff, maxDepth]
  have hrun : (∃ w', (encode type value).run w = (.ok (), w')) ↔
      Writable (maxDepth + 1) type value ∧ AllFit (layout type (Value.normalize type value) w.position) := by
    simp only [encode, encodeWithin_emits (maxDepth + 1) type value w, ← and_assoc, exists_and_left, exists_eq, and_true]
  rw [hrun, allFit_iff]
  constructor
  · rintro ⟨hwritable, hwords, hbodies⟩
    obtain ⟨hconforms, hdepth⟩ := Value.writable_iff.1 hwritable
    exact ⟨hconforms, hwithin.1 hdepth, hbodies, (layout_carries hwritable _).1 hwords⟩
  · rintro ⟨hconforms, hdepth, hbodies, htexts⟩
    have hwritable := Value.writable_iff.2 ⟨hconforms, hwithin.2 hdepth⟩
    exact ⟨hwritable, (layout_carries hwritable _).2 htexts, hbodies⟩

end Wire

end MessageBus
