/-
The two byte orders.

A writer's byte order decides how it spells a word, and nothing else: writers that have come equally far do the same, in
whatever order each of them writes (`Parallel`). So marshaling fails alike in both orders or gives as many bytes, and these
are one layout spelled in two ways. Read in the order that it was written in, each gives the same values; and each frame of
a message the same message, but for its byte order (`codec_orders`).
-/
import Mathlib
import MessageBus.Proofs.Wire.Refusals
import MessageBus.Proofs.Message.Frame

namespace MessageBus

namespace Wire

variable {α β : Type}

/-! ## Writers side by side -/

/-- two writers that have come equally far, in whatever order each of them writes -/
structure Abreast (w₁ w₂ : Writer) : Prop where
  base : w₁.base = w₂.base
  size : w₁.data.size = w₂.data.size

/-- two encoders come to the same result from writers that are abreast, and leave them abreast -/
def Parallel (e₁ e₂ : Encoder α) : Prop :=
  ∀ w₁ w₂, Abreast w₁ w₂ → (e₁.run w₁).1 = (e₂.run w₂).1 ∧ Abreast (e₁.run w₁).2 (e₂.run w₂).2

section Writers

variable {w₁ w₂ : Writer} {e₁ e₂ : Encoder α} {f₁ f₂ : α → Encoder β}

theorem abreast_new (order₁ order₂ : ByteOrder) (base : Nat) : Abreast (Writer.new order₁ base) (Writer.new order₂ base) :=
  ⟨rfl, rfl⟩

theorem Abreast.position (h : Abreast w₁ w₂) : w₁.position = w₂.position := by
  rw [Writer.position, Writer.position, h.base, h.size]

theorem Abreast.append (h : Abreast w₁ w₂) {bytes₁ bytes₂ : List UInt8} (hlen : bytes₁.length = bytes₂.length) :
    Abreast (w₁.append bytes₁) (w₂.append bytes₂) where
  base := h.base
  size := by rw [Writer.size_append, Writer.size_append, h.size, hlen]

theorem Abreast.align (h : Abreast w₁ w₂) (alignment : Nat) : Abreast (w₁.align alignment) (w₂.align alignment) :=
  h.append (by rw [h.position])

/-- here the orders differ: the bytes of a word are others, but as many -/
theorem Abreast.put (h : Abreast w₁ w₂) (size n : Nat) : Abreast (w₁.put size n) (w₂.put size n) :=
  (h.align size).append (by simp)

theorem Abreast.finishLength (h : Abreast w₁ w₂) (slot : LengthSlot) :
    (w₁.finishLength slot).1 = (w₂.finishLength slot).1 ∧ Abreast (w₁.finishLength slot).2 (w₂.finishLength slot).2 := by
  refine ⟨congrArg (· - slot.start) h.size, h.base, ?_⟩
  simp only [Writer.finishLength, size_overwrite, h.size]

/-- a step that leaves the writer as it is -/
theorem Parallel.of_run (result : Except Error α) (h₁ : ∀ w, e₁.run w = (result, w)) (h₂ : ∀ w, e₂.run w = (result, w)) :
    Parallel e₁ e₂ := by
  intro w₁ w₂ h
  rw [h₁, h₂]
  exact ⟨rfl, h⟩

theorem Parallel.bind (he : Parallel e₁ e₂) (hf : ∀ a, Parallel (f₁ a) (f₂ a)) : Parallel (e₁ >>= f₁) (e₂ >>= f₂) := by
  intro w₁ w₂ h
  obtain ⟨hresult, hnext⟩ := he w₁ w₂ h
  rw [run_bind, run_bind]
  generalize e₁.run w₁ = outcome₁, e₂.run w₂ = outcome₂ at hresult hnext ⊢
  obtain ⟨result, next₁⟩ := outcome₁
  obtain ⟨_, next₂⟩ := outcome₂
  cases hresult
  cases result with
  | error e => exact ⟨rfl, hnext⟩
  | ok a => exact hf a next₁ next₂ hnext

theorem parallel_append {bytes₁ bytes₂ : List UInt8} (h : bytes₁.length = bytes₂.length) :
    Parallel (Encoder.append bytes₁) (Encoder.append bytes₂) := fun _ _ hw => ⟨rfl, hw.append h⟩

theorem parallel_align (alignment : Nat) : Parallel (Encoder.align alignment) (Encoder.align alignment) :=
  fun _ _ hw => ⟨rfl, hw.align alignment⟩

theorem parallel_put (size n : Nat) : Parallel (Encoder.put size n) (Encoder.put size n) :=
  fun _ _ hw => ⟨rfl, hw.put size n⟩

theorem parallel_startLength : Parallel Encoder.startLength Encoder.startLength := by
  intro w₁ w₂ h
  rw [Encoder.run_startLength, Encoder.run_startLength, Writer.startLength, Writer.startLength]
  refine ⟨?_, (h.align 4).append rfl⟩
  rw [(h.align 4).size]

theorem parallel_beginLength (slot : LengthSlot) : Parallel (Encoder.beginLength slot) (Encoder.beginLength slot) := by
  intro w₁ w₂ h
  rw [Encoder.run_beginLength, Encoder.run_beginLength, Writer.beginLength, Writer.beginLength, h.size]
  exact ⟨rfl, h⟩

theorem parallel_finishLength (slot : LengthSlot) : Parallel (Encoder.finishLength slot) (Encoder.finishLength slot) := by
  intro w₁ w₂ h
  obtain ⟨hlength, hnext⟩ := h.finishLength slot
  exact ⟨congrArg Except.ok hlength, hnext⟩

theorem parallel_measured (alignment : Nat) {body : Encoder Unit} (hbody : Parallel body body) :
    Parallel (writeMeasured alignment body) (writeMeasured alignment body) := by
  apply parallel_startLength.bind
  intro slot
  apply (parallel_align alignment).bind
  intro _
  apply (parallel_beginLength slot).bind
  intro slot
  apply hbody.bind
  intro _
  apply (parallel_finishLength slot).bind
  intro length
  split_ifs
  · exact .of_run (.error _) (fun _ => rfl) fun _ => rfl
  · exact .of_run (.ok ()) (fun _ => rfl) fun _ => rfl

theorem stepwise_parallel : Encoder.Stepwise fun e => Parallel e e where
  pure a := .of_run (.ok a) (fun _ => rfl) fun _ => rfl
  throw _ := .of_run (.error _) (fun _ => rfl) fun _ => rfl
  lift {_ x} _ := .of_run x (fun _ => rfl) fun _ => rfl
  bind := .bind
  append _ := parallel_append rfl
  align _ := parallel_align _
  put _ n := parallel_put _ n
  measured _ _ hbody := parallel_measured _ hbody

end Writers

/-! ## Argument lists -/

/-- an argument list is refused alike in both orders, or takes as many bytes -/
theorem marshal_length (order₁ order₂ : ByteOrder) (types : List Ty) (values : List Value) :
    (marshal order₁ types values).map List.length = (marshal order₂ types values).map List.length := by
  obtain ⟨hresult, hsize⟩ := stepwise_parallel.encodeAll types values _ _ (abreast_new order₁ order₂ 0)
  unfold marshal
  generalize (encodeAll types values).run (Writer.new order₁ 0) = outcome₁,
    (encodeAll types values).run (Writer.new order₂ 0) = outcome₂ at hresult hsize ⊢
  obtain ⟨result, w₁⟩ := outcome₁
  obtain ⟨_, w₂⟩ := outcome₂
  cases hresult
  cases result with
  | error e => rfl
  | ok _ => exact congrArg Except.ok (by simpa using hsize.size)

end Wire

/-! ## Messages -/

namespace Message

open Wire

theorem validate_order (m : Message) (order : ByteOrder) : { m with order }.validate = m.validate := by
  obtain ⟨type, _, flags, version, serial, fields, body⟩ := m
  cases type <;> rfl

theorem parallel_encode (m : Message) (order₁ order₂ : ByteOrder) :
    Parallel { m with order := order₁ }.encode { m with order := order₂ }.encode := by
  refine Parallel.bind (parallel_append rfl) fun _ => parallel_startLength.bind fun slot => ?_
  refine (parallel_put 4 _).bind fun _ => (stepwise_parallel.encodeWithin _ _ _).bind fun _ => ?_
  refine (parallel_align 8).bind fun _ => (parallel_beginLength slot).bind fun slot => ?_
  refine (stepwise_parallel.encodeAll _ _).bind fun _ => (parallel_finishLength slot).bind fun _ => ?_
  exact .of_run (.ok ()) (fun _ => rfl) fun _ => rfl

/-- a message is refused alike in both orders, or its frames are of one length -/
theorem marshal_length (m : Message) (order₁ order₂ : ByteOrder) :
    { m with order := order₁ }.marshal.map List.length = { m with order := order₂ }.marshal.map List.length := by
  obtain ⟨hresult, hsize⟩ := parallel_encode m order₁ order₂ _ _ (abreast_new order₁ order₂ 0)
  unfold marshal
  rw [validate_order m order₁, validate_order m order₂]
  dsimp only
  generalize { m with order := order₁ }.encode.run (Writer.new order₁ 0) = outcome₁,
    { m with order := order₂ }.encode.run (Writer.new order₂ 0) = outcome₂ at hresult hsize ⊢
  obtain ⟨result, w₁⟩ := outcome₁
  obtain ⟨_, w₂⟩ := outcome₂
  cases hresult
  obtain hserial | hserial := em (m.serial = 0)
  · rw [if_pos hserial, if_pos hserial]
    rfl
  · rw [if_neg hserial, if_neg hserial]
    rcases m.validate with e | _
    · rfl
    · rcases result with e | _
      · rfl
      · have hsame : w₁.data.size = w₂.data.size := hsize.size
        have hbytes : w₁.data.toList.length = w₂.data.toList.length := by simpa using hsame
        change Except.map List.length (if maxMessageSize < w₁.data.size then Except.error (Error.messageTooLong w₁.data.size)
            else .ok w₁.data.toList)
          = Except.map List.length (if maxMessageSize < w₂.data.size then Except.error (Error.messageTooLong w₂.data.size)
            else .ok w₂.data.toList)
        rw [hsame]
        split_ifs
        · rfl
        · exact congrArg Except.ok hbytes

/-- all of a frame behind its first byte -/
def plan (message : Message) : List Segment :=
  [.raw [message.type.code, message.flags.bits, message.version], .word 4 (size message.content),
    .word 4 message.serial.toNat] ++ message.header ++ [.padding message.gap] ++ message.content

/-- the frames of a message in the two orders are spelled by one plan -/
theorem frame_order (m : Message) (order : ByteOrder) :
    { m with order }.frame = order.marker :: render order m.plan := by
  have hplan : m.plan = { m with order }.plan := rfl
  rw [hplan]
  simp [frame, plan, Segment.bytes]

end Message

/-! ## Both orders -/

/-- what fails alike in all orders or goes well in all of them -/
theorem forall_error_or_forall_ok {α : Type} {outcome : ByteOrder → Except Error (List α)}
    (h : ∀ order₁ order₂, (outcome order₁).map List.length = (outcome order₂).map List.length) :
    (∃ e, ∀ order, outcome order = .error e) ∨ ∀ order, ∃ data, outcome order = .ok data := by
  cases hlittle : outcome .little with
  | error e =>
    refine .inl ⟨e, fun order => ?_⟩
    have hsame := h order .little
    rw [hlittle] at hsame
    cases horder : outcome order with
    | error e' =>
      rw [horder] at hsame
      rw [Except.error.inj hsame]
    | ok data =>
      rw [horder] at hsame
      cases hsame
  | ok data =>
    refine .inr fun order => ?_
    have hsame := h order .little
    rw [hlittle] at hsame
    cases horder : outcome order with
    | error e =>
      rw [horder] at hsame
      cases hsame
    | ok data => exact ⟨data, rfl⟩

open Wire in
/-- **Byte order is only a way to spell words.** In both orders, the same values fail with the same error or are one layout
in the spelling of each, and are read from it in that order as the same values. The same goes for a message, whose frames
are one layout behind the byte that tells the order, and are read as one message, but for its order. -/
theorem codec_orders :
    (∀ {signature : String} {types : List Ty}, Ty.parse signature = .ok types → ∀ values,
      (∃ e, ∀ order, marshal order types values = .error e) ∨
      ∃ segments back, ∀ order, marshal order types values = .ok (render order segments) ∧
        (render order segments).length = size segments ∧ unmarshal order types (render order segments) = .ok back) ∧
    ∀ m : Message,
      (∃ e, ∀ order, { m with order }.marshal = .error e) ∨
      ∃ (segments : List Segment) (back : Message), ∀ order : ByteOrder,
        { m with order }.marshal = .ok (order.marker :: render order segments) ∧
        (order.marker :: render order segments).length = size segments + 1 ∧
        Message.unmarshal (order.marker :: render order segments) = .ok { back with order } := by
  constructor
  · intro signature types hsig values
    obtain hfails | hok := forall_error_or_forall_ok fun order₁ order₂ => Wire.marshal_length order₁ order₂ types values
    · exact .inl hfails
    · refine .inr ⟨layoutAll types (Value.normalizeAll types values) 0, Value.normalizeAll types values, fun order => ?_⟩
      obtain ⟨data, hdata⟩ := hok order
      obtain ⟨hw, hfit, rfl⟩ := marshal_eq_ok_iff.1 hdata
      have hs := shaped_of_mem hsig
      exact ⟨hdata, length_render .., (unmarshal_eq_ok_iff hs).2 ⟨exact_normalized hs hw, hfit, matches_render ..⟩⟩
  · intro m
    obtain hfails | hok := forall_error_or_forall_ok m.marshal_length
    · exact .inl hfails
    · refine .inr ⟨m.plan, m.received, fun order => ?_⟩
      obtain ⟨data, hdata⟩ := hok order
      obtain rfl : data = order.marker :: render order m.plan := (Message.frame_of_marshal hdata).trans (m.frame_order order)
      exact ⟨hdata, by simp, Message.unmarshal_written hdata⟩

/-- a reply in the other order: its words are turned around, its bytes stay where they are, and it is read as that reply -/
theorem codec_orders_reply :
    let little : Message := { Message.bigReply with order := .little }
    let bytes : List UInt8 :=
      [108, 2, 0, 1, 1, 0, 0, 0, 2, 0, 0, 0, 15, 0, 0, 0, 5, 1, 117, 0, 1, 0, 0, 0, 8, 1, 103, 0, 1, 121, 0, 0, 7]
    Message.bigReply.marshal = .ok Message.bigReplyFrame ∧ little.marshal = .ok bytes ∧
      Message.unmarshal bytes = .ok { Message.bigReply.received with order := .little } := by
  intro little bytes
  have hbig : Message.unmarshal Message.bigReplyFrame = .ok Message.bigReply.received := by cbv
  have hlittle : little.marshal = .ok bytes := by cbv
  obtain ⟨e, he⟩ | ⟨segments, back, h⟩ := codec_orders.2 Message.bigReply
  · cases (he .little).symm.trans hlittle
  · obtain ⟨hwritten, -, hread⟩ := h .little
    obtain ⟨hwritten', -, hread'⟩ := h .big
    rw [← Except.ok.inj (hlittle.symm.trans hwritten)] at hread
    rw [← Except.ok.inj (Message.marshal_bigReply.symm.trans hwritten'), hbig] at hread'
    have hback := Except.ok.inj hread'
    refine ⟨Message.marshal_bigReply, hlittle, hread.trans ?_⟩
    rw [hback]

end MessageBus
