/-
What becomes of the frames of a stream.

A frame is a byte string that its own fixed header measures. Frames that hold a message, or at worst an error that is not
fatal, are passed one by one: the messages among them are delivered and all else is skipped (`takeAll_frames`). So an
unfinished frame behind them just waits, and whatever breaks the stream behind them costs none of their messages, is
reported once, and is the last that is heard of the stream (`pushAll_frames`).
-/
import Mathlib
import MessageBus.Proofs.FrameBuffer.Stream

namespace MessageBus.FrameBuffer

/-! ## Frames -/

/-- the first 16 bytes say that this is one whole frame, of at most the maximum size -/
def IsFrame (maxSize : Nat) (bytes : List UInt8) : Prop :=
  ∃ header, FixedHeader.parse (bytes.take fixedHeaderLength) = .ok header ∧ header.frameLength = bytes.length ∧
    bytes.length ≤ maxSize

/-- the beginning of a frame: a part of a fixed header, or one that asks for more bytes than there are -/
def IsPartial (maxSize : Nat) (bytes : List UInt8) : Prop :=
  bytes.length < fixedHeaderLength ∨
    ∃ header, FixedHeader.parse (bytes.take fixedHeaderLength) = .ok header ∧ header.frameLength ≤ maxSize ∧
      bytes.length < header.frameLength

/-- a frame that holds a message, or something that is none but leaves the stream sound -/
def Passable (frame : List UInt8) : Prop := ∀ e, Message.unmarshal frame = .error e → e.isFatal = false

/-- the stream cannot be read any further than up to these bytes -/
inductive Breaks (maxSize : Nat) : List UInt8 → Error → Prop where
  /-- a frame whose contents disagree with what it declares -/
  | content {frame : List UInt8} {e : Error} (isFrame : IsFrame maxSize frame)
      (fails : Message.unmarshal frame = .error e) (fatal : e.isFatal = true) (more : List UInt8) :
      Breaks maxSize (frame ++ more) e
  /-- a fixed header that is none -/
  | header {bytes : List UInt8} {e : Error} (long : fixedHeaderLength ≤ bytes.length)
      (fails : FixedHeader.parse (bytes.take fixedHeaderLength) = .error e) : Breaks maxSize bytes e
  /-- a fixed header that declares too much -/
  | size {bytes : List UInt8} {header : FixedHeader} (long : fixedHeaderLength ≤ bytes.length)
      (parses : FixedHeader.parse (bytes.take fixedHeaderLength) = .ok header) (large : maxSize < header.frameLength) :
      Breaks maxSize bytes (.messageTooLong header.frameLength)

/-- the messages among some frames -/
def messagesIn (frames : List (List UInt8)) : List Message :=
  frames.filterMap fun frame => (Message.unmarshal frame).toOption

variable {maxSize : Nat} {frame bytes rest : List UInt8} {e : Error}

theorem IsFrame.long (h : IsFrame maxSize frame) : fixedHeaderLength ≤ frame.length := by
  obtain ⟨header, -, hlen, -⟩ := h
  rw [← hlen, FixedHeader.frameLength]
  omega

/-- a frame is told by itself, whatever follows it -/
theorem IsFrame.front (h : IsFrame maxSize frame) (more : List UInt8) :
    front maxSize (frame ++ more) = .frame frame.length (Message.unmarshal frame) := by
  have hfront : FrameBuffer.front maxSize frame = .frame frame.length (Message.unmarshal frame) := by
    have hlong := h.long
    obtain ⟨header, hparse, hlen, hmax⟩ := h
    rw [front_long hlong, hparse]
    simp only [hlen, not_lt.2 hmax, lt_irrefl, if_false, List.take_length]
  rw [front_append more (by simp [hfront]), hfront]

theorem IsPartial.front (h : IsPartial maxSize bytes) : front maxSize bytes = .incomplete := by
  by_cases hshort : bytes.length < fixedHeaderLength
  · exact front_short hshort
  · obtain ⟨header, hparse, hmax, hlen⟩ := h.resolve_left hshort
    rw [front_long (not_lt.1 hshort), hparse]
    simp only [not_lt.2 hmax, hlen, if_false, if_true]

/-- where the stream breaks, there is nothing to take but the error -/
theorem Breaks.takeAll (h : Breaks maxSize bytes e) : ∃ left, takeAll maxSize bytes = ⟨[], some e, left⟩ := by
  cases h with
  | content isFrame fails fatal more => exact ⟨_, takeAll_fatal (by rw [isFrame.front, fails]) fatal⟩
  | header long fails => exact ⟨_, takeAll_unframed (by rw [front_long long, fails])⟩
  | size long parses large =>
    refine ⟨_, takeAll_unframed ?_⟩
    rw [front_long long, parses]
    simp only [large, if_true]

/-- **Frames that may be passed leave just their messages**: all else is skipped, and what follows is taken from its
first byte on. -/
theorem takeAll_frames {frames : List (List UInt8)} (h : ∀ frame ∈ frames, IsFrame maxSize frame ∧ Passable frame)
    (rest : List UInt8) :
    takeAll maxSize (frames.flatten ++ rest) = { takeAll maxSize rest with
      messages := messagesIn frames ++ (takeAll maxSize rest).messages } := by
  induction frames with
  | nil => rfl
  | cons frame frames ih =>
    obtain ⟨hframe, hpass⟩ := h frame List.mem_cons_self
    have hlater := ih fun f hf => h f (List.mem_cons_of_mem frame hf)
    have hfront := hframe.front (frames.flatten ++ rest)
    rw [List.flatten_cons, List.append_assoc]
    cases hread : Message.unmarshal frame with
    | ok message =>
      rw [hread] at hfront
      rw [takeAll_message hfront, List.drop_left, hlater]
      simp [messagesIn, hread, Taken.cons, Except.toOption]
    | error e =>
      rw [hread] at hfront
      rw [takeAll_skipped hfront (hpass e hread), List.drop_left, hlater]
      simp [messagesIn, hread, Except.toOption]

/-! ## Delivery -/

theorem callAll_cons (buffer : FrameBuffer) (c : Call) (calls : List Call) :
    (buffer.callAll (c :: calls)).1 = (buffer.call c).1 :: ((buffer.call c).2.callAll calls).1 := rfl

/-- the call behind those that took out everything brings out the error at the latest, and then there is nothing more -/
theorem Reported.callAll {buffer : FrameBuffer} {taken : Taken} {results : List Result}
    {fault : Option (Option Error)} (hr : Reported taken results fault) (h : buffer.Holds maxSize rest fault)
    (he : taken.error = some e) (c : Call) (calls : List Call) :
    ∃ (lists : List (List Message)) (later : Nat), results ++ (buffer.callAll (c :: calls)).1
        = lists.map .ok ++ .error e :: List.replicate later (.error .closed) ∧ lists.flatten = taken.messages := by
  cases hr with
  | sound lists messages error =>
    rw [he] at error
    cases error
  | kept lists e' messages error =>
    obtain rfl : e' = e := Option.some.inj (error.symm.trans he)
    obtain ⟨after, more, hcall, hafter⟩ := call_failed h c
    refine ⟨lists, calls.length, ?_, messages⟩
    rw [callAll_cons, hcall, callAll_failed hafter]
    rfl
  | told lists e' later messages error =>
    obtain rfl : e' = e := Option.some.inj (error.symm.trans he)
    refine ⟨lists, later + (c :: calls).length, ?_, messages⟩
    rw [callAll_failed h, List.append_assoc, List.cons_append, List.replicate_add]

/-- **A bad frame costs no neighbour, and a failure is final.** When passable frames arrive in any chunks, just their
messages are delivered. With the beginning of a frame behind them, there is no error and the beginning stays in the
buffer. With something behind them that breaks the stream, this error is returned exactly once, no later than by the
first call after the chunks, and then every call returns that the stream is closed. -/
theorem pushAll_frames {frames : List (List UInt8)} (hframes : ∀ frame ∈ frames, IsFrame maxSize frame ∧ Passable frame)
    {chunks : List (List UInt8)} (hchunks : chunks.flatten = frames.flatten ++ rest) :
    (IsPartial maxSize rest → ∃ lists : List (List Message), (pushAll maxSize chunks).1 = lists.map .ok ∧ lists.flatten = messagesIn frames ∧
        (pushAll maxSize chunks).2.hasFailed = false ∧ (pushAll maxSize chunks).2.pending = rest) ∧
      ∀ e, Breaks maxSize rest e → ∀ c calls, ∃ (lists : List (List Message)) (later : Nat),
        ((new maxSize).callAll (chunks.map .push ++ c :: calls)).1
            = lists.map .ok ++ .error e :: List.replicate later (.error .closed) ∧
          lists.flatten = messagesIn frames := by
  have hall := takeAll_frames hframes rest
  obtain ⟨hholds, hreported⟩ := pushAll_reported maxSize chunks
  rw [hchunks, hall] at hholds hreported
  constructor
  · intro hpartial
    rw [takeAll_incomplete hpartial.front] at hholds hreported
    generalize (pushAll maxSize chunks).2.failure = fault at hholds hreported
    generalize (pushAll maxSize chunks).1 = results at hreported ⊢
    cases hreported with
    | sound lists messages error =>
      exact ⟨lists, rfl, by simpa using messages, by rw [hholds.hasFailed]; rfl, hholds.pending⟩
    | kept lists e messages error => cases error
    | told lists e later messages error => cases error
  · intro e hbreaks c calls
    obtain ⟨left, hleft⟩ := hbreaks.takeAll
    rw [hleft] at hholds hreported
    obtain ⟨lists, later, hresults, hmessages⟩ := hreported.callAll hholds rfl c calls
    refine ⟨lists, later, ?_, by simpa using hmessages⟩
    rw [callAll_append]
    exact hresults

/-- a method return without a body -/
def replyFrame : List UInt8 :=
  [108, 2, 0, 1, 0, 0, 0, 0, 1, 0, 0, 0, 8, 0, 0, 0, 5, 1, 117, 0, 1, 0, 0, 0]

/-- the same of a type that there is none of -/
def strangeFrame : List UInt8 :=
  [108, 9, 0, 1, 0, 0, 0, 0, 1, 0, 0, 0, 8, 0, 0, 0, 5, 1, 117, 0, 1, 0, 0, 0]

/-- the same with eight bytes that its signature says nothing of -/
def overlongFrame : List UInt8 :=
  [108, 2, 0, 1, 8, 0, 0, 0, 1, 0, 0, 0, 8, 0, 0, 0, 5, 1, 117, 0, 1, 0, 0, 0, 0, 0, 0, 0, 0, 0, 0, 0]

theorem unmarshal_replyFrame : Message.unmarshal replyFrame
    = .ok { type := .methodReturn, serial := 1, fields := { replySerial := some 1 } } := by cbv

theorem unmarshal_strangeFrame : Message.unmarshal strangeFrame = .error (.invalidMessageType 9) := by cbv

theorem unmarshal_overlongFrame : Message.unmarshal overlongFrame = .error (.lengthMismatch 8 0) := by cbv

theorem passable_frames : ∀ frame ∈ [strangeFrame, replyFrame], IsFrame 64 frame ∧ Passable frame := by
  intro frame hframe
  obtain rfl | rfl : frame = strangeFrame ∨ frame = replyFrame := by simpa using hframe
  · refine ⟨⟨_, rfl, rfl, by decide⟩, fun e h => ?_⟩
    rw [unmarshal_strangeFrame] at h
    cases h
    rfl
  · refine ⟨⟨_, rfl, rfl, by decide⟩, fun e h => ?_⟩
    rw [unmarshal_replyFrame] at h
    cases h

/-- a frame of an unknown type and one with a message, cut within each of them; behind them one byte of a third, or a
frame that is longer than its contents -/
theorem pushAll_frames_strange :
    (∀ frame ∈ [strangeFrame, replyFrame], IsFrame 64 frame ∧ Passable frame) ∧
      (∃ lists : List (List Message),
        (pushAll 64 [strangeFrame.take 3, strangeFrame.drop 3 ++ replyFrame.take 20, replyFrame.drop 20 ++ [108]]).1
            = lists.map .ok ∧
          lists.flatten = [{ type := .methodReturn, serial := 1, fields := { replySerial := some 1 } }]) ∧
      Breaks 64 overlongFrame (.lengthMismatch 8 0) ∧
      ∃ (lists : List (List Message)) (later : Nat),
        ((new 64).callAll ([strangeFrame, replyFrame ++ overlongFrame].map .push ++ [.next, .push replyFrame])).1
            = lists.map .ok ++ .error (.lengthMismatch 8 0) :: List.replicate later (.error .closed) ∧
          lists.flatten = [{ type := .methodReturn, serial := 1, fields := { replySerial := some 1 } }] := by
  have hmessages : messagesIn [strangeFrame, replyFrame]
      = [{ type := .methodReturn, serial := 1, fields := { replySerial := some 1 } }] := by
    simp [messagesIn, unmarshal_strangeFrame, unmarshal_replyFrame, Except.toOption]
  have hbreaks : Breaks 64 overlongFrame (.lengthMismatch 8 0) := by
    have hcontent : Breaks 64 (overlongFrame ++ []) (.lengthMismatch 8 0) :=
      .content ⟨_, rfl, rfl, by decide⟩ unmarshal_overlongFrame rfl []
    rwa [List.append_nil] at hcontent
  have hcut : [strangeFrame.take 3, strangeFrame.drop 3 ++ replyFrame.take 20, replyFrame.drop 20 ++ [108]].flatten
      = [strangeFrame, replyFrame].flatten ++ [108] := rfl
  have hwhole : [strangeFrame, replyFrame ++ overlongFrame].flatten = [strangeFrame, replyFrame].flatten ++ overlongFrame :=
    rfl
  obtain ⟨lists, hlists, hflat, -⟩ := (pushAll_frames passable_frames hcut).1 (.inl (by decide))
  obtain ⟨lists', later, hresults, hflat'⟩ :=
    (pushAll_frames passable_frames hwhole).2 _ hbreaks .next [.push replyFrame]
  rw [hmessages] at hflat hflat'
  exact ⟨passable_frames, ⟨lists, hlists, hflat⟩, hbreaks, lists', later, hresults, hflat'⟩

end MessageBus.FrameBuffer
