/-
How much a frame buffer stores.

What waits in a sound buffer once it has been asked for all of its messages is less than a fixed header, or less than a
frame of at most the maximum size (`length_of_incomplete`). The used bytes in front of it are let go no later than when
they are more than half of all (`length_extend_le`). `Arises` are the buffers that come up when bytes are handed in and
messages are taken out, in any order. Each of these waits for just the frame that its bytes announce (`Arises.holds`), no
more of its bytes count as used than there are (`Arises.start_le`), and it is as thrifty as `Thrifty` says
(`Arises.thrifty`).
-/
import Mathlib.Tactic
import MessageBus.Proofs.FrameBuffer.Frames

namespace MessageBus.FrameBuffer

variable {maxSize : Nat} {bytes : List UInt8} {buffer : FrameBuffer} {fault : Option (Option Error)}

/-! ## What waits -/

/-- bytes without a complete frame at their front are fewer than the longest frame has -/
theorem length_of_incomplete (h : front maxSize bytes = .incomplete) : bytes.length < max 16 maxSize := by
  by_cases hshort : bytes.length < fixedHeaderLength
  · exact lt_max_of_lt_left hshort
  · rw [front_long (not_lt.1 hshort)] at h
    cases hparse : FixedHeader.parse (bytes.take fixedHeaderLength) with
    | error e => simp [hparse] at h
    | ok header =>
      simp only [hparse] at h
      split_ifs at h with hlarge hpart
      exact lt_max_of_lt_right (hpart.trans_le (not_lt.1 hlarge))

theorem Taken.error_eq_none {taken : Taken} (h : taken.failure = none) : taken.error = none := by
  obtain ⟨_ | _, _ | e, rest⟩ := taken <;> first | rfl | cases h

/-! ## What is used -/

/-- a whole frame is used at a time -/
theorem start_use_le {length : Nat} (hwhole : ¬(!Wire.hasAtLeast length buffer.pending) = true)
    (h : buffer.start ≤ buffer.data.length) : buffer.start + length ≤ buffer.data.length := by
  have hle : length ≤ buffer.pending.length := by simpa [hasAtLeast_eq] using hwhole
  rw [pending, List.length_drop] at hle
  omega

theorem start_next_le (h : buffer.start ≤ buffer.data.length) : buffer.next.2.start ≤ buffer.next.2.data.length := by
  fun_induction next buffer with
  | case1 | case2 | case3 | case5 => exact h
  | case4 buffer hstate hlong length hdeclared ih => exact ih h
  | case6 buffer length hstate hwhole rest message hread => exact start_use_le hwhole h
  | case7 buffer length hstate hwhole rest e hread hfatal => exact start_use_le hwhole h
  | case8 buffer length hstate hwhole rest e hread hfatal ih => exact ih (start_use_le hwhole h)

theorem start_drain_le (h : buffer.start ≤ buffer.data.length) (count : Nat) :
    (drain count buffer).2.2.start ≤ (drain count buffer).2.2.data.length := by
  induction count generalizing buffer with
  | zero => exact h
  | succ count ih =>
    have hnext := start_next_le h
    rw [drain]
    rcases hresult : buffer.next with ⟨_ | _ | _, rest⟩ <;> rw [hresult] at hnext
    · exact ih hnext
    · exact hnext
    · exact hnext

/-! ## What is stored -/

theorem start_extend_le (h : buffer.start ≤ buffer.data.length) (chunk : List UInt8) :
    (buffer.extend chunk).start ≤ (buffer.extend chunk).data.length := by
  unfold extend
  split_ifs with hall hhalf
  · exact Nat.zero_le _
  · exact Nat.zero_le _
  · rw [List.length_append]
    exact Nat.le_add_right_of_le h

theorem start_push_le (h : buffer.start ≤ buffer.data.length) (chunk : List UInt8) :
    (buffer.push chunk).2.start ≤ (buffer.push chunk).2.data.length := by
  have hdrain := start_drain_le (start_extend_le h chunk) ((buffer.extend chunk).buffered + 1)
  rw [push]
  rcases hresult : (buffer.extend chunk).drain ((buffer.extend chunk).buffered + 1)
    with ⟨_ | ⟨message, messages⟩, _ | e, rest⟩ <;> rw [hresult] at hdrain <;> exact hdrain

/-- the used bytes that are kept are no more than those that wait -/
theorem length_extend_le (h : buffer.start ≤ buffer.data.length) (chunk : List UInt8) :
    (buffer.extend chunk).data.length ≤ 2 * buffer.buffered + chunk.length := by
  unfold extend buffered
  split_ifs with hall hhalf
  · exact Nat.le_add_left _ _
  · rw [List.length_append, List.length_drop]
    omega
  · rw [List.length_append]
    omega

theorem Holds.own (h : buffer.Holds maxSize bytes fault) : buffer.Holds maxSize buffer.pending buffer.failure :=
  ⟨h.maxSize, rfl, rfl, h.awaited⟩

theorem Holds.next (h : buffer.Holds maxSize bytes fault) :
    buffer.next.2.Holds maxSize buffer.next.2.pending buffer.next.2.failure := by
  cases fault with
  | none =>
    obtain ⟨after, hnext, hafter⟩ := next_open h
    rw [hnext]
    exact hafter.own
  | some kept =>
    obtain ⟨after, hnext, hafter⟩ := next_failed h
    rw [hnext]
    exact hafter.own

theorem Holds.push (h : buffer.Holds maxSize bytes fault) (chunk : List UInt8) :
    (buffer.push chunk).2.Holds maxSize (buffer.push chunk).2.pending (buffer.push chunk).2.failure := by
  cases fault with
  | none =>
    obtain ⟨after, hpush, hafter⟩ := push_open h chunk
    rw [hpush]
    exact hafter.own
  | some kept =>
    obtain ⟨after, hpush, hafter⟩ := push_failed h chunk
    rw [hpush]
    exact hafter.own

/-- buffers for frames of at most a size that come up as bytes are handed in and messages are taken out -/
inductive Arises (maxSize : Nat) : FrameBuffer → Prop where
  | new : Arises maxSize (new maxSize)
  | extend {buffer : FrameBuffer} (h : Arises maxSize buffer) (chunk : List UInt8) : Arises maxSize (buffer.extend chunk)
  | next {buffer : FrameBuffer} (h : Arises maxSize buffer) : Arises maxSize buffer.next.2
  | push {buffer : FrameBuffer} (h : Arises maxSize buffer) (chunk : List UInt8) : Arises maxSize (buffer.push chunk).2

namespace Arises

/-- no more bytes count as used than there are -/
theorem start_le (h : Arises maxSize buffer) : buffer.start ≤ buffer.data.length := by
  induction h with
  | new => exact Nat.zero_le _
  | extend _ chunk ih => exact start_extend_le ih chunk
  | next _ ih => exact start_next_le ih
  | push _ chunk ih => exact start_push_le ih chunk

/-- whatever is asked of a buffer, it knows what it waits for -/
theorem holds (h : Arises maxSize buffer) : buffer.Holds maxSize buffer.pending buffer.failure := by
  induction h with
  | new => exact holds_new maxSize
  | extend _ chunk ih => exact (ih.extend chunk).own
  | next _ ih => exact ih.next
  | push _ chunk ih => exact ih.push chunk

/-- a push to a buffer that has failed leaves it so -/
theorem sound_of_push (h : Arises maxSize buffer) {chunk : List UInt8} (hsound : (buffer.push chunk).2.hasFailed = false) :
    buffer.failure = none := by
  cases hfailure : buffer.failure with
  | none => rfl
  | some kept =>
    obtain ⟨after, hpush, hafter⟩ := push_failed (hfailure ▸ h.holds) chunk
    rw [hpush, hafter.hasFailed] at hsound
    cases hsound

/-- what waits behind a push that leaves the buffer sound is less than a frame -/
theorem buffered_push_lt (h : Arises maxSize buffer) {chunk : List UInt8}
    (hsound : (buffer.push chunk).2.hasFailed = false) : (buffer.push chunk).2.buffered < max 16 maxSize := by
  have hopen := h.sound_of_push hsound
  obtain ⟨after, hpush, hafter⟩ := push_open (hopen ▸ h.holds) chunk
  rw [hpush, hafter.hasFailed, Option.isSome_eq_false_iff, Option.isNone_iff_eq_none] at hsound
  rw [hpush, hafter.buffered]
  exact length_of_incomplete (front_rest (Taken.error_eq_none hsound))

end Arises

/-- how much a buffer stores, now and when a chunk comes in -/
structure Thrifty (maxSize : Nat) (buffer : FrameBuffer) : Prop where
  /-- less than a frame waits after a push that has an answer and leaves the buffer sound -/
  push_lt : ∀ chunk messages, (buffer.push chunk).1 = .ok messages → (buffer.push chunk).2.hasFailed = false →
    (buffer.push chunk).2.buffered < max 16 maxSize
  /-- no more bytes count as used than there are -/
  start_le : buffer.start ≤ buffer.data.length
  /-- bytes that are handed in come behind those that wait, which stay as they are -/
  extend_pending : ∀ chunk, (buffer.extend chunk).pending = buffer.pending ++ chunk
  extend_start_le : ∀ chunk, (buffer.extend chunk).start ≤ (buffer.extend chunk).data.length
  /-- there are at most as many used bytes then as waited before -/
  extend_length_le : ∀ chunk, (buffer.extend chunk).data.length ≤ 2 * buffer.buffered + chunk.length

/-- **A buffer stays bounded**, whatever is handed in and taken out. -/
theorem Arises.thrifty (h : Arises maxSize buffer) : buffer.Thrifty maxSize where
  push_lt _ _ _ hsound := h.buffered_push_lt hsound
  start_le := h.start_le
  extend_pending := buffer.pending_extend
  extend_start_le := start_extend_le h.start_le
  extend_length_le := length_extend_le h.start_le

/-- a message, and most of a second one -/
def replyAndPart : List UInt8 := replyFrame ++ overlongFrame.take 24

theorem push_replyAndPart : (new 32).push replyAndPart
    = (.ok [{ type := .methodReturn, serial := 1, fields := { replySerial := some 1 } }],
      ⟨32, replyAndPart, 24, .frame 32⟩) := by cbv

/-- the second one is of the maximum size. 24 bytes of it wait behind 24 used ones, which are not yet more than half when
one byte more comes in, and stay -/
theorem thrifty_replyAndPart :
    let buffer := ((new 32).push replyAndPart).2
    Arises 32 (new 32) ∧ Arises 32 buffer ∧
      ((new 32).push replyAndPart).1 = .ok [{ type := .methodReturn, serial := 1, fields := { replySerial := some 1 } }] ∧
      buffer.hasFailed = false ∧ buffer.buffered = 24 ∧ buffer.buffered < max 16 32 ∧
      (buffer.extend [1]).pending = overlongFrame.take 24 ++ [1] ∧ (buffer.extend [1]).start = 24 ∧
      (buffer.extend [1]).data.length = 2 * buffer.buffered + 1 ∧
      (buffer.extend [1]).data.length ≤ 2 * buffer.buffered + [(1 : UInt8)].length := by
  intro buffer
  have hnew : Arises 32 (new 32) := .new
  have hbuffer : Arises 32 buffer := hnew.push replyAndPart
  have hanswer := congrArg Prod.fst push_replyAndPart
  have heq : buffer = ⟨32, replyAndPart, 24, .frame 32⟩ := congrArg Prod.snd push_replyAndPart
  have hsound : buffer.hasFailed = false := by rw [heq]; rfl
  refine ⟨hnew, hbuffer, hanswer, hsound, by rw [heq]; rfl, hnew.thrifty.push_lt replyAndPart _ hanswer hsound, ?_, ?_, ?_,
    hbuffer.thrifty.extend_length_le [1]⟩
  · rw [hbuffer.thrifty.extend_pending [1], heq]
    rfl
  · rw [heq]
    decide
  · rw [heq]
    decide

end MessageBus.FrameBuffer
