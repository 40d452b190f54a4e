/-
What encoders write.

`Emits e P piece` says all there is to say about a successful run of an encoder: it succeeds exactly when `P` holds and
every segment of the piece fits, and then it has appended the bytes of that piece, whatever was written before. Encoders
one after another emit their pieces one after another (`Emits.bind`, `emits_forM`), and a length that is filled in
afterwards is emitted as if it had been known from the start (`emits_measured`).

So a value is written exactly when it is writable as the type, and what is written is the layout of the value that it
normalizes to (`encodeWithin_emits`).
-/
import MessageBus.Proofs.Wire.Layout

namespace MessageBus.Wire

/-! ## Steps that may fail -/

section Run

variable {σ α β : Type}

/-- outcomes of steps by their parts, where simp does not see that they are pairs -/
@[simp] theorem outcome_eq_iff {r r' : Except Error α} {s s' : σ} :
    @Eq (Id (Except Error α × σ)) (r, s) (r', s') ↔ r = r' ∧ s = s' := Prod.mk_inj

theorem run_bind (x : ExceptT Error (StateM σ) α) (f : α → ExceptT Error (StateM σ) β) (s : σ) :
    (x >>= f).run s = match x.run s with
      | (.ok a, t) => (f a).run t
      | (.error e, t) => (.error e, t) := by
  change ExceptT.bindCont f (x s).1 (x s).2 = match x s with
    | (.ok a, t) => f a t
    | (.error e, t) => (.error e, t)
  rcases x s with ⟨_ | _, t⟩ <;> rfl

theorem run_bind_eq_ok {x : ExceptT Error (StateM σ) α} {f : α → ExceptT Error (StateM σ) β} {s s' : σ} {b : β} :
    (x >>= f).run s = (.ok b, s') ↔ ∃ a t, x.run s = (.ok a, t) ∧ (f a).run t = (.ok b, s') := by
  rw [run_bind]
  rcases x.run s with ⟨e | a, t⟩
  · simp
  · constructor
    · intro h
      exact ⟨a, t, rfl, h⟩
    · intro h
      rcases h with ⟨_, _, heq, h⟩
      cases heq
      exact h

theorem run_pure (a : α) (s : σ) : (pure a : ExceptT Error (StateM σ) α).run s = (.ok a, s) := rfl

theorem run_throw (e : Error) (s : σ) : (throw e : ExceptT Error (StateM σ) α).run s = (.error e, s) := rfl

theorem run_lift (x : Except Error α) (s : σ) : (liftM x : ExceptT Error (StateM σ) α).run s = (x, s) := rfl

theorem run_get (f : σ → ExceptT Error (StateM σ) α) (s : σ) : (get >>= f).run s = (f s).run s := rfl

end Run

namespace Encoder

theorem run_append (bytes : List UInt8) (w : Writer) : (append bytes).run w = (.ok (), w.append bytes) := rfl

theorem run_align (alignment : Nat) (w : Writer) : (align alignment).run w = (.ok (), w.align alignment) := rfl

theorem run_put (size n : Nat) (w : Writer) : (put size n).run w = (.ok (), w.put size n) := rfl

theorem run_startLength (w : Writer) : startLength.run w = (.ok w.startLength.1, w.startLength.2) := rfl

theorem run_beginLength (slot : LengthSlot) (w : Writer) : (beginLength slot).run w = (.ok (w.beginLength slot), w) := rfl

theorem run_finishLength (slot : LengthSlot) (w : Writer) :
    (finishLength slot).run w = (.ok (w.finishLength slot).1, (w.finishLength slot).2) := rfl

end Encoder

/-! ## Lengths that are filled in -/

theorem size_appendList (data : Array UInt8) (bytes : List UInt8) : (data ++ bytes).size = data.size + bytes.length := by
  rw [← Array.length_toList, Array.toList_appendList, List.length_append, Array.length_toList]

namespace Writer

@[simp] theorem append_order (w : Writer) (bytes : List UInt8) : (w.append bytes).order = w.order := rfl

@[simp] theorem append_position (w : Writer) (bytes : List UInt8) :
    (w.append bytes).position = w.position + bytes.length := by
  simp only [position, append, size_appendList, Nat.add_assoc]

@[simp] theorem size_append (w : Writer) (bytes : List UInt8) :
    (w.append bytes).data.size = w.data.size + bytes.length := size_appendList ..

@[simp] theorem append_nil (w : Writer) : w.append [] = w := by
  simp [append]

@[simp] theorem append_append (w : Writer) (a b : List UInt8) : (w.append a).append b = w.append (a ++ b) := by
  have hdata : w.data ++ a ++ b = w.data ++ (a ++ b) := Array.ext' (by simp)
  simp only [append, hdata]

@[simp] theorem toList_append (w : Writer) (bytes : List UInt8) : (w.append bytes).data.toList = w.data.toList ++ bytes := by
  simp [append]

end Writer

theorem size_overwrite (data : Array UInt8) (index : Nat) (bytes : List UInt8) :
    (overwrite data index bytes).size = data.size := by
  induction bytes generalizing data index with
  | nil => rfl
  | cons byte bytes ih => rw [overwrite, ih, Array.size_setIfInBounds]

theorem overwrite_append {old new : List UInt8} (data : Array UInt8) (back : List UInt8) (h : old.length = new.length) :
    overwrite (data ++ (old ++ back)) data.size new = data ++ (new ++ back) := by
  induction new generalizing data old with
  | nil => rw [List.eq_nil_of_length_eq_zero h, overwrite]
  | cons n ns ih =>
    obtain ⟨o, os, rfl⟩ := List.exists_cons_of_length_eq_add_one h
    have hset : (data ++ (o :: os ++ back)).setIfInBounds data.size n = data.push n ++ (os ++ back) := by
      apply Array.ext'
      simp
    have hpush : data.push n ++ (ns ++ back) = data ++ (n :: ns ++ back) := by
      apply Array.ext'
      simp
    have := ih (data.push n) (Nat.succ.inj h)
    rw [Array.size_push] at this
    rw [overwrite, hset, this, hpush]

/-- a reserved word is filled in with the number of bytes that follow the ones in between -/
theorem finishLength_append (w : Writer) (between content : List UInt8) :
    ((w.append ([0, 0, 0, 0] ++ between)).append content).finishLength
        ⟨w.data.size, (w.append ([0, 0, 0, 0] ++ between)).data.size⟩
      = (content.length, w.append (w.order.bytes 4 content.length ++ (between ++ content))) := by
  have hlen : ((w.append ([0, 0, 0, 0] ++ between)).append content).data.size
      - (w.append ([0, 0, 0, 0] ++ between)).data.size = content.length := by
    rw [Writer.size_append]
    omega
  rw [Writer.finishLength, hlen, Writer.append_append, List.append_assoc]
  simp only [Writer.append]
  rw [overwrite_append _ _ (by simp)]

/-! ## What an encoder emits -/

/-- an encoder succeeds exactly when `P` holds and the segments of the piece fit, and then appends their bytes -/
def Emits (e : Encoder Unit) (P : Prop) (piece : Piece) : Prop :=
  ∀ w w', e.run w = (.ok (), w') ↔
    P ∧ AllFit (piece w.position) ∧ w' = w.append (render w.order (piece w.position))

section Emits

variable {e f : Encoder Unit} {P Q : Prop} {a b : Piece}

theorem Emits.congr (h : Emits e P a) (hP : P ↔ Q) (hab : Q → a = b) : Emits e Q b := by
  intro w w'
  rw [h w w', hP]
  constructor <;> rintro ⟨hq, hrest⟩ <;> exact ⟨hq, hab hq ▸ hrest⟩

theorem emits_pure : Emits (pure ()) True (consecutive []) := by
  intro w w'
  simp [run_pure, eq_comm]

theorem emits_throw (error : Error) (h : ∀ p, P → ¬AllFit (a p)) : Emits (throw error) P a := by
  intro w w'
  simp only [run_throw, outcome_eq_iff, reduceCtorEq, false_and, false_iff]
  intro h
  rcases h with ⟨hP, hfit, -⟩
  exact h _ hP hfit

theorem Emits.bind (he : Emits e P a) (hf : Emits f Q b) : Emits (do e; f) (P ∧ Q) (consecutive [a, b]) := by
  intro w w'
  have hpos : (w.append (render w.order (a w.position))).position = w.position + size (a w.position) := by simp
  simp only [run_bind_eq_ok, consecutive_pair, allFit_append, render_append]
  constructor
  · intro h
    rcases h with ⟨_, w₁, h₁, h₂⟩
    obtain ⟨hP, hfit, rfl⟩ := (he _ _).1 h₁
    obtain ⟨hQ, hfit', rfl⟩ := (hf _ _).1 h₂
    rw [hpos] at hfit' ⊢
    exact ⟨⟨hP, hQ⟩, ⟨hfit, hfit'⟩, by simp⟩
  · intro h
    rcases h with ⟨⟨hP, hQ⟩, ⟨hfit, hfit'⟩, rfl⟩
    refine ⟨(), _, (he _ _).2 ⟨hP, hfit, rfl⟩, (hf _ _).2 ⟨hQ, ?_, ?_⟩⟩
    · rwa [hpos]
    · simp

theorem Emits.lift {α : Type} {x : Except Error α} {f : α → Encoder Unit}
    (hok : ∀ r, x = .ok r → Emits (f r) P a) (herr : ∀ error, x = .error error → ¬P) :
    Emits (liftM x >>= f) P a := by
  intro w w'
  rw [run_bind, run_lift]
  cases x with
  | error error => simp [herr error rfl]
  | ok r => exact hok r rfl w w'

theorem emits_forM {α : Type} {f : α → Encoder Unit} {P : α → Prop} {piece : α → Piece} (xs : List α)
    (h : ∀ x ∈ xs, Emits (f x) (P x) (piece x)) : Emits (xs.forM f) (∀ x ∈ xs, P x) (consecutive (xs.map piece)) := by
  induction xs with
  | nil => exact emits_pure.congr (by simp) fun _ => rfl
  | cons x xs ih =>
    have htail := ih fun y hy => h y (List.mem_cons_of_mem _ hy)
    refine ((h x List.mem_cons_self).bind htail).congr (by simp) fun _ => ?_
    funext p
    rw [List.map_cons, consecutive_pair, consecutive_cons]

theorem emits_append (bytes : List UInt8) : Emits (Encoder.append bytes) True fun _ => [.raw bytes] := by
  intro w w'
  simp [Encoder.run_append, Segment.Fits, Segment.bytes, eq_comm]

theorem emits_align (alignment : Nat) :
    Emits (Encoder.align alignment) True fun p => [.padding (padding p alignment)] := by
  intro w w'
  simp [Encoder.run_align, Segment.Fits, Segment.bytes, Writer.align, eq_comm]

theorem Emits.behindAlign (he : Emits e P a) (alignment : Nat) :
    Emits (do Encoder.align alignment; e) P (aligned alignment a) := by
  refine ((emits_align alignment).bind he).congr (by simp) fun _ => ?_
  funext p
  simp [consecutive_pair, aligned, Segment.size]

theorem emits_put {size n : Nat} (h : n < 1 <<< (8 * size)) :
    Emits (Encoder.put size n) True (aligned size fun _ => [.word size n]) := by
  intro w w'
  simp [Encoder.run_put, h, aligned, Segment.Fits, Segment.bytes, Writer.put, Writer.align, eq_comm]

/-- write the length of a body in front of it -/
def writeMeasured (alignment : Nat) (body : Encoder Unit) : Encoder Unit := do
  let slot ← Encoder.startLength
  Encoder.align alignment
  let slot ← Encoder.beginLength slot
  body
  let length ← Encoder.finishLength slot
  if maxArrayLength < length then throw (.arrayTooLong length)

/-- once the body is written, the reserved word is filled in -/
theorem run_writeMeasured {alignment : Nat} {body : Encoder Unit} {w start w' : Writer}
    (hs : ((w.align 4).append [0, 0, 0, 0]).align alignment = start) :
    (writeMeasured alignment body).run w = (.ok (), w') ↔
      ∃ done, body.run start = (.ok (), done) ∧
        (done.finishLength ⟨(w.align 4).data.size, start.data.size⟩).1 ≤ maxArrayLength ∧
        w' = (done.finishLength ⟨(w.align 4).data.size, start.data.size⟩).2 := by
  simp only [writeMeasured, run_bind, Encoder.run_startLength, Encoder.run_align, Encoder.run_beginLength,
    Encoder.run_finishLength]
  have hs' : w.startLength.2.align alignment = start := hs
  have hslot : start.beginLength w.startLength.1 = ⟨(w.align 4).data.size, start.data.size⟩ := rfl
  rw [hs', hslot]
  rcases body.run start with ⟨error | _, done⟩
  · simp
  · simp only [outcome_eq_iff, true_and, exists_eq_left']
    split_ifs with hlong
    · simp [run_throw, hlong]
    · simp [run_pure, not_lt.1 hlong, eq_comm]

theorem emits_measured {alignment : Nat} (h : Emits e P a) :
    Emits (writeMeasured alignment e) P (measured alignment a) := by
  intro w w'
  obtain ⟨word, hword⟩ : ∃ word, w.align 4 = word := ⟨_, rfl⟩
  have hpos : word.position = w.position + padding w.position 4 := by simp [← hword, Writer.align]
  have horder : word.order = w.order := by simp [← hword, Writer.align]
  -- what the measured bytes start behind: zeros in place of the length, and padding
  obtain ⟨pad, hpad⟩ : ∃ pad, pad = List.replicate (padding (word.position + 4) alignment) (0 : UInt8) := ⟨_, rfl⟩
  obtain ⟨start, hstart⟩ : ∃ start, start = word.append ([0, 0, 0, 0] ++ pad) := ⟨_, rfl⟩
  obtain ⟨content, hcontent⟩ : ∃ content, content = a start.position := ⟨_, rfl⟩
  have hrun : ((w.align 4).append [0, 0, 0, 0]).align alignment = start := by
    rw [hword, hstart, hpad]
    simp [Writer.align]
  have hstartpos : start.position = word.position + 4 + padding (word.position + 4) alignment := by
    rw [hstart, hpad]
    simp
    omega
  have hsegments : measured alignment a w.position = [.padding (padding w.position 4), .length (size content),
      .padding (padding (word.position + 4) alignment)] ++ content := by
    rw [hcontent, hstartpos, hpos]
    rfl
  have hfilled (bytes : List UInt8) : (start.append bytes).finishLength ⟨word.data.size, start.data.size⟩
      = (bytes.length, word.append (word.order.bytes 4 bytes.length ++ (pad ++ bytes))) := by
    rw [hstart, finishLength_append]
  have hbytes : word.append (word.order.bytes 4 (render w.order content).length ++ (pad ++ render w.order content))
      = w.append (render w.order ([.padding (padding w.position 4), .length (size content),
          .padding (padding (word.position + 4) alignment)] ++ content)) := by
    rw [horder, ← hword, hpad]
    simp [Writer.align, Segment.bytes, hpos]
  have hone := h start
  rw [← hcontent, show start.order = w.order by rw [hstart]; exact horder] at hone
  rw [run_writeMeasured hrun, hword, hsegments, ← hbytes]
  constructor
  · intro h
    rcases h with ⟨done, hdone, hlen, rfl⟩
    obtain ⟨hP, hfit, rfl⟩ := (hone _).1 hdone
    rw [hfilled] at hlen ⊢
    exact ⟨hP, by simpa [Segment.Fits, hfit] using hlen, rfl⟩
  · intro h
    rcases h with ⟨hP, hfit, rfl⟩
    have hfits : size content ≤ maxArrayLength ∧ AllFit content := by simpa [Segment.Fits] using hfit
    refine ⟨_, (hone _).2 ⟨hP, hfits.2, rfl⟩, ?_⟩
    rw [hfilled]
    exact ⟨by simpa using hfits.1, rfl⟩

end Emits

/-! ## Values -/

open Value (Writable)

theorem emits_text (kind : TextKind) {text : String} (h : text.utf8ByteSize < 1 <<< (8 * kind.alignment)) :
    Emits (do Encoder.put kind.alignment text.utf8ByteSize; Encoder.append (Text.utf8 text); Encoder.append [0]) True
      (Scalar.text kind text).layout := by
  refine ((emits_put h).bind ((emits_append (Text.utf8 text)).bind (emits_append [0]))).congr (by simp) fun _ => ?_
  funext p
  simp [consecutive_pair, Scalar.layout, aligned]

theorem putText_emits (text : String) :
    Emits (putText text) (text.contains '\x00' = false) (Scalar.text .string text).layout := by
  unfold putText
  by_cases hnul : text.contains '\x00' = true
  · rw [if_pos hnul]
    exact emits_throw _ fun _ h => by simp [hnul] at h
  · rw [if_neg hnul]
    by_cases hlen : UInt32.size ≤ text.utf8ByteSize
    · rw [if_pos hlen]
      refine emits_throw _ fun p _ hfit => ?_
      simp only [Scalar.layout, aligned, allFit_cons, Segment.Fits] at hfit
      exact absurd hfit.2.1 (not_lt.2 hlen)
    · rw [if_neg hlen]
      exact (emits_text .string (not_le.1 hlen)).congr (by simp [hnul]) fun _ => rfl

theorem putSignature_emits (text : String) :
    Emits (putSignature text) (∃ types, Ty.parse text = .ok types) (Scalar.text .signature text).layout := by
  refine .lift (fun types h => ?_) fun error h => by simp [h]
  have hlen := (Ty.parse_sound h).1
  exact (emits_text .signature (Nat.lt_succ_of_le hlen)).congr (by simp [h]) fun _ => rfl

theorem putPath_emits (path : String) :
    Emits (do NameKind.objectPath.check path; putText path) (NameKind.objectPath.accepts path = true)
      (Scalar.text .objectPath path).layout := by
  refine .lift (fun _ h => ?_) fun error h => ?_
  · have hacc : NameKind.objectPath.accepts path = true := by
      by_contra hno
      simp [NameKind.check, hno] at h
    have hnul := TextKind.Admits.contains_nul (show TextKind.objectPath.Admits path from hacc)
    exact (putText_emits path).congr (by simp [hacc, hnul]) fun _ => rfl
  · intro hacc
    simp [NameKind.check, hacc] at h

theorem toWord_eq_ok_iff {kind : IntKind} {value : Value} {bits : BitVec kind.width} :
    value.toWord kind = .ok bits ↔ value.number?.bind kind.ofInt? = some bits := by
  unfold Value.toWord
  cases value.number? with
  | none => simp
  | some n => cases hbits : kind.ofInt? n <;> simp [hbits]

theorem coerce?_boolean {value : Scalar} (h : ¬∃ b, value = .boolean b) :
    Basic.boolean.coerce? value
      = if value.number? = some 0 then some (.boolean false)
        else if value.number? = some 1 then some (.boolean true) else none := by
  cases value with
  | boolean b => exact absurd ⟨b, rfl⟩ h
  | _ => rfl

theorem encodeBasic_boolean {value : Scalar} (h : ¬∃ b, value = .boolean b) :
    encodeBasic .boolean (.scalar value)
      = if value.number? = some 0 then Encoder.put 4 0
        else if value.number? = some 1 then Encoder.put 4 1
        else throw (mismatch (.basic .boolean) (.scalar value)) := by
  cases value with
  | boolean b => exact absurd ⟨b, rfl⟩ h
  | _ => rfl

/-- a scalar that stands for one of the type is written as that one -/
theorem encodeBasic_coerced {type : Basic} {value result : Scalar} (h : type.coerce? value = some result) :
    Emits (encodeBasic type (.scalar value)) result.Valid result.layout := by
  cases type with
  | int kind =>
    obtain ⟨bits, hbits, rfl⟩ := Option.map_eq_some_iff.1 h
    have hfits : bits.toNat < 1 <<< (8 * kind.size) := lt_of_lt_of_eq bits.isLt (Nat.one_shiftLeft _).symm
    have hword : (Value.scalar value).toWord kind = .ok bits := toWord_eq_ok_iff.2 hbits
    rw [encodeBasic, hword]
    exact (emits_put hfits).congr (by simp [Scalar.Valid]) fun _ => rfl
  | boolean =>
    have hput (b : Bool) : Emits (Encoder.put 4 b.toNat) (Scalar.Valid (.boolean b)) (Scalar.boolean b).layout :=
      (emits_put (by cases b <;> decide)).congr (by simp [Scalar.Valid]) fun _ => rfl
    by_cases hb : ∃ b, value = .boolean b
    · obtain ⟨b, rfl⟩ := hb
      cases h
      exact hput b
    · rw [encodeBasic_boolean hb]
      rw [coerce?_boolean hb] at h
      split_ifs at h ⊢ with h₀ h₁
      · cases h
        exact hput false
      · cases h
        exact hput true
  | double =>
    cases value with
    | double bits =>
      cases h
      exact (emits_put bits.isLt).congr (by simp [Scalar.Valid]) fun _ => rfl
    | _ => cases h
  | text kind =>
    cases value with
    | text given value =>
      obtain ⟨hgiven, rfl⟩ : (given = kind ∨ given = .string) ∧ Scalar.text kind value = result := by
        simpa [Basic.coerce?] using h
      cases kind with
      | string =>
        obtain rfl : given = .string := by simpa using hgiven
        exact putText_emits value
      | objectPath => obtain rfl | rfl := hgiven <;> exact putPath_emits value
      | signature => obtain rfl | rfl := hgiven <;> exact putSignature_emits value
    | _ => cases h

/-- whatever stands for nothing of the type is refused -/
theorem encodeBasic_refused {type : Basic} {value : Value} (h : ∀ s, value.scalar? = some s → type.coerce? s = none) :
    ∃ error, encodeBasic type value = throw error := by
  cases type with
  | int kind =>
    cases hword : value.toWord kind with
    | error e => exact ⟨e, by rw [encodeBasic, hword]; rfl⟩
    | ok bits =>
      have hbits := toWord_eq_ok_iff.1 hword
      cases value with
      | scalar s =>
        have hnone := Option.map_eq_none_iff.1 (h s rfl)
        exact absurd (hnone.symm.trans hbits) (by simp)
      | _ => cases hbits
  | boolean =>
    cases value with
    | scalar s =>
      have hnone := h s rfl
      by_cases hb : ∃ b, s = .boolean b
      · obtain ⟨b, rfl⟩ := hb
        cases hnone
      · rw [encodeBasic_boolean hb]
        rw [coerce?_boolean hb] at hnone
        split_ifs at hnone ⊢ with h₀ h₁
        exact ⟨_, rfl⟩
    | _ => exact ⟨_, rfl⟩
  | double =>
    cases value with
    | scalar s =>
      have hnone := h s rfl
      cases s with
      | double bits => cases hnone
      | _ => exact ⟨_, rfl⟩
    | _ => exact ⟨_, rfl⟩
  | text kind =>
    cases value with
    | scalar s =>
      have hnone := h s rfl
      cases s with
      | text given value => cases kind <;> cases given <;> first | exact ⟨_, rfl⟩ | cases hnone
      | _ => cases kind <;> exact ⟨_, rfl⟩
    | _ => cases kind <;> exact ⟨_, rfl⟩

theorem encodeBasic_emits (levels : Nat) (type : Basic) (value : Value) :
    Emits (encodeBasic type value) (Writable (levels + 1) (.basic type) value)
      (layout (.basic type) (Value.normalize (.basic type) value)) := by
  by_cases h : ∃ s r, value = .scalar s ∧ type.coerce? s = some r
  · obtain ⟨s, r, rfl, hr⟩ := h
    refine (encodeBasic_coerced hr).congr ?_ fun _ => ?_
    · simp [Writable, hr]
    · simp only [Value.normalize, hr, Option.getD_some, layout]
  · obtain ⟨error, he⟩ : ∃ error, encodeBasic type value = throw error := by
      refine encodeBasic_refused fun s hs => ?_
      cases value <;> cases hs
      exact Option.eq_none_iff_forall_ne_some.2 fun r hr => h ⟨_, _, rfl, hr⟩
    rw [he]
    refine emits_throw _ fun p hw => ?_
    cases value with
    | scalar s =>
      obtain ⟨r, hr, -⟩ := hw
      exact absurd ⟨_, _, rfl, hr⟩ h
    | _ => cases hw

theorem encodeWithin_array (levels : Nat) (element : Ty) (items : List Value) :
    encodeWithin (levels + 1) (.array element) (.array items)
      = writeMeasured element.alignment (items.forM (encodeWithin levels element)) := by
  cases element <;> rfl

theorem encodeWithin_dict (levels : Nat) (key value : Ty) (entries : List (Value × Value)) :
    encodeWithin (levels + 1) (.array (.dictEntry key value)) (.dict entries)
      = writeMeasured 8 (entries.forM fun entry => do
          Encoder.align 8
          encodeWithin levels key entry.1
          encodeWithin levels value entry.2) := rfl

theorem emits_mismatch {alignment : Nat} {element : Ty} {value : Value} {P : Prop} {piece : Piece} (h : ¬P) :
    Emits (writeMeasured alignment (throw (mismatch (.array element) value))) P piece := by
  have hthrow : Emits (throw (mismatch (.array element) value)) False (consecutive []) := emits_throw _ fun _ hf => hf.elim
  exact (emits_measured hthrow).congr (by simp [h]) fun hP => absurd hP h

theorem layout_pair {key value : Ty} {first second : Value} :
    layout (.dictEntry key value) (Value.normalize (.dictEntry key value) (.struct [first, second]))
      = aligned 8 (consecutive [layout key (Value.normalize key first), layout value (Value.normalize value second)]) := by
  simp only [Value.normalize, Value.normalizeAll, layout, layoutAll]
  congr 1
  funext p
  simp [consecutive_pair]

/-- an array of pairs is laid out like the dict that it normalizes to -/
theorem layout_pairs {levels : Nat} {key value : Ty} {items : List Value}
    (h : ∀ item ∈ items, Writable levels (.dictEntry key value) item) :
    layout (.array (.dictEntry key value)) (Value.normalize (.array (.dictEntry key value)) (.array items))
      = measured 8 (consecutive (items.map fun item =>
          layout (.dictEntry key value) (Value.normalize (.dictEntry key value) item))) := by
  obtain ⟨entries, rfl, hn⟩ := Value.normalize_pairs h
  rw [hn, layout, layoutEntries_eq, Value.normalizeEntries_eq_map, List.map_map, List.map_map]
  congr 3
  funext entry
  exact layout_pair.symm

/-- an array is laid out item by item, whatever its elements -/
theorem layout_items {levels : Nat} {element : Ty} {items : List Value} (h : ∀ item ∈ items, Writable levels element item) :
    layout (.array element) (Value.normalize (.array element) (.array items))
      = measured element.alignment (consecutive (items.map fun item => layout element (Value.normalize element item))) := by
  cases element with
  | dictEntry key value => exact layout_pairs h
  | _ => simp [Value.normalize, Value.ofItems, layout, Value.normalizeEach_eq_map, layoutEach_eq, Function.comp_def]

theorem layoutAll_normalizeAll (types : List Ty) (values : List Value) :
    layoutAll types (Value.normalizeAll types values)
      = consecutive ((types.zip values).map fun argument => layout argument.1 (Value.normalize argument.1 argument.2)) := by
  induction types generalizing values with
  | nil => cases values <;> rfl
  | cons type types ih =>
    cases values with
    | nil => rfl
    | cons value values =>
      funext p
      rw [Value.normalizeAll, layoutAll, ih, List.zip_cons_cons, List.map_cons, consecutive_pair, consecutive_cons]

/-- a value for each type, wherever a single value is written just when it is writable -/
theorem emits_zip {levels : Nat} {types : List Ty} {values : List Value} (hlen : types.length = values.length)
    (hone : ∀ type value,
      Emits (encodeWithin levels type value) (Writable levels type value) (layout type (Value.normalize type value))) :
    Emits ((types.zip values).forM fun argument => encodeWithin levels argument.1 argument.2)
      (List.Forall₂ (Writable levels) types values) (layoutAll types (Value.normalizeAll types values)) := by
  rw [layoutAll_normalizeAll]
  refine (emits_forM (types.zip values) fun argument _ => hone argument.1 argument.2).congr ?_ fun _ => rfl
  simp [List.forall₂_iff_zip, hlen]

/-- **A value is written exactly when it is writable as the type**, and then as the layout of the value that it
normalizes to. -/
theorem encodeWithin_emits (levels : Nat) (type : Ty) (value : Value) :
    Emits (encodeWithin levels type value) (Writable levels type value) (layout type (Value.normalize type value)) := by
  induction levels generalizing type value with
  | zero => exact emits_throw _ fun _ h => h.elim
  | succ levels ih =>
    cases type with
    | basic type => exact encodeBasic_emits levels type value
    | variant =>
      cases value with
      | variant type v =>
        refine ((putSignature_emits type.text).bind (ih type v)).congr ?_ fun _ => rfl
        constructor
        · intro h
          rcases h with ⟨⟨types, hp⟩, hw⟩
          exact ⟨Ty.eq_of_parse_text hp ▸ hp, hw⟩
        · intro h
          rcases h with ⟨hp, hw⟩
          exact ⟨⟨_, hp⟩, hw⟩
      | _ => exact emits_throw _ fun _ h => False.elim h
    | array element =>
      cases value with
      | array items =>
        rw [encodeWithin_array]
        refine (emits_measured (emits_forM items fun i _ => ih element i)).congr Value.writable_array.symm fun h => ?_
        exact (layout_items (Value.writable_array.1 h)).symm
      | dict entries =>
        cases element with
        | dictEntry key value =>
          rw [encodeWithin_dict]
          have hentry := fun (entry : Value × Value) (_ : entry ∈ entries) =>
            ((ih key entry.1).bind (ih value entry.2)).behindAlign 8
          refine (emits_measured (emits_forM entries hentry)).congr (by simp [Writable]) fun _ => ?_
          rw [Value.normalize, layout, layoutEntries_eq, Value.normalizeEntries_eq_map, List.map_map]
          rfl
        | _ => exact emits_mismatch fun h => h
      | _ => cases element <;> exact emits_mismatch fun h => h
    | struct types =>
      cases value with
      | struct fields =>
        by_cases hlen : types.length = fields.length
        · rw [show encodeWithin (levels + 1) (.struct types) (.struct fields) = _ from if_pos hlen]
          exact ((emits_zip hlen ih).behindAlign 8).congr Iff.rfl fun _ => rfl
        · rw [show encodeWithin (levels + 1) (.struct types) (.struct fields) = _ from if_neg hlen]
          exact emits_throw _ fun _ h => absurd (List.Forall₂.length_eq h) hlen
      | _ => exact emits_throw _ fun _ h => False.elim h
    | dictEntry key value =>
      rename_i v
      cases v with
      | struct fields =>
        rcases fields with _ | ⟨first, _ | ⟨second, _ | ⟨third, rest⟩⟩⟩
        case cons.cons.nil =>
          refine (((ih key first).bind (ih value second)).behindAlign 8).congr (by simp [Writable]) fun _ => ?_
          rw [layout_pair]
        all_goals exact emits_throw _ fun _ h => by simp [Writable] at h
      | _ => exact emits_throw _ fun _ h => False.elim h

/-- an argument list is written exactly when there is a writable value for each type -/
theorem encodeAll_emits (types : List Ty) (values : List Value) :
    Emits (encodeAll types values) (List.Forall₂ (Writable (maxDepth + 1)) types values)
      (layoutAll types (Value.normalizeAll types values)) := by
  by_cases hlen : types.length = values.length
  · rw [encodeAll, if_pos hlen]
    exact emits_zip hlen (encodeWithin_emits (maxDepth + 1))
  · rw [encodeAll, if_neg hlen]
    exact emits_throw _ fun _ h => absurd (List.Forall₂.length_eq h) hlen

end MessageBus.Wire
