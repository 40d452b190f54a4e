/-
What is shown of a recording.

Any bytes are frames that may be passed, one after another, and behind them either the beginning of a frame or something
that breaks the stream (`exists_parts`). The transcript of a recording shows just the messages among these frames and ends
with what breaks the stream, if anything does. The parts know nothing of the chunks in which the recording is read, so that
their size does not show either (`transcript_parts`).
-/
import MessageBus.Capture
import MessageBus.Proofs.FrameBuffer.Frames

namespace MessageBus

namespace FrameBuffer

variable {maxSize : Nat} {bytes : List UInt8} {e : Error}

/-! ## Parts of a stream -/

/-- what there is behind the last frame of a stream: the beginning of one more, or something that breaks the stream with
an error -/
def EndsWith (maxSize : Nat) (rest : List UInt8) : Option Error → Prop
  | none => IsPartial maxSize rest
  | some e => Breaks maxSize rest e

/-- frames that may be passed, one after another, and how the stream ends behind them -/
def Parts (maxSize : Nat) (bytes : List UInt8) (frames : List (List UInt8)) (ending : Option Error) : Prop :=
  (∀ frame ∈ frames, IsFrame maxSize frame ∧ Passable frame) ∧
    ∃ rest, bytes = frames.flatten ++ rest ∧ EndsWith maxSize rest ending

/-- the messages that are taken are those among the frames -/
theorem Parts.takeAll {frames : List (List UInt8)} {ending : Option Error} (h : Parts maxSize bytes frames ending) :
    (takeAll maxSize bytes).messages = messagesIn frames ∧ (takeAll maxSize bytes).error = ending := by
  obtain ⟨passable, rest, rfl, hending⟩ := h
  rw [takeAll_frames passable]
  cases ending with
  | none =>
    rw [takeAll_incomplete (IsPartial.front hending)]
    exact ⟨List.append_nil _, rfl⟩
  | some e =>
    obtain ⟨left, hleft⟩ := Breaks.takeAll hending
    rw [hleft]
    exact ⟨List.append_nil _, rfl⟩

/-- one frame more in front -/
theorem Parts.cons {frame : List UInt8} {frames : List (List UInt8)} {ending : Option Error}
    (hframe : IsFrame maxSize frame) (hpass : Passable frame) (h : Parts maxSize bytes frames ending) :
    Parts maxSize (frame ++ bytes) (frame :: frames) ending := by
  obtain ⟨passable, rest, rfl, hending⟩ := h
  exact ⟨List.forall_mem_cons.2 ⟨⟨hframe, hpass⟩, passable⟩, rest, (List.append_assoc ..).symm, hending⟩

/-- no frame at all -/
theorem Parts.nil {ending : Option Error} (h : EndsWith maxSize bytes ending) : Parts maxSize bytes [] ending :=
  ⟨by simp, bytes, rfl, h⟩

theorem isPartial_of_front (h : front maxSize bytes = .incomplete) : IsPartial maxSize bytes := by
  by_cases hshort : bytes.length < fixedHeaderLength
  · exact .inl hshort
  · rw [front_long (not_lt.1 hshort)] at h
    cases hparse : FixedHeader.parse (bytes.take fixedHeaderLength) with
    | error e =>
      rw [hparse] at h
      cases h
    | ok header =>
      rw [hparse] at h
      simp only at h
      split_ifs at h with hmax hlen
      exact .inr ⟨header, hparse, not_lt.1 hmax, hlen⟩

theorem breaks_of_front (h : front maxSize bytes = .unframed e) : Breaks maxSize bytes e := by
  have hlong : fixedHeaderLength ≤ bytes.length := by
    by_contra hshort
    rw [front_short (not_le.1 hshort)] at h
    cases h
  rw [front_long hlong] at h
  cases hparse : FixedHeader.parse (bytes.take fixedHeaderLength) with
  | error e' =>
    rw [hparse] at h
    cases h
    exact .header hlong hparse
  | ok header =>
    rw [hparse] at h
    simp only at h
    split_ifs at h with hmax hlen
    cases h
    exact .size hlong hparse hmax

theorem isFrame_of_front {length : Nat} {content : Except Error Message} (h : front maxSize bytes = .frame length content) :
    IsFrame maxSize (bytes.take length) ∧ Message.unmarshal (bytes.take length) = content := by
  have hlength := front_frame_length h
  have hlong := hlength.1.trans hlength.2
  rw [front_long hlong] at h
  cases hparse : FixedHeader.parse (bytes.take fixedHeaderLength) with
  | error e =>
    rw [hparse] at h
    cases h
  | ok header =>
    rw [hparse] at h
    simp only at h
    split_ifs at h with hmax hlen
    cases h
    have hframe : (bytes.take header.frameLength).length = header.frameLength := List.length_take_of_le hlength.2
    refine ⟨⟨header, ?_, hframe.symm, ?_⟩, rfl⟩
    · rw [List.take_take, min_eq_left hlength.1, hparse]
    · rw [hframe]
      exact not_lt.1 hmax

/-- any bytes have parts -/
theorem exists_parts (maxSize : Nat) (bytes : List UInt8) : ∃ frames ending, Parts maxSize bytes frames ending := by
  fun_induction FrameBuffer.takeAll maxSize bytes with
  | case1 bytes hfront => exact ⟨[], none, .nil (isPartial_of_front hfront)⟩
  | case2 bytes e hfront => exact ⟨[], some e, .nil (breaks_of_front hfront)⟩
  | case3 bytes length message hfront ih =>
    obtain ⟨frames, ending, hparts⟩ := ih
    obtain ⟨hframe, hread⟩ := isFrame_of_front hfront
    have hpass : Passable (bytes.take length) := fun e he => by
      rw [hread] at he
      cases he
    have hall := hparts.cons hframe hpass
    rw [List.take_append_drop] at hall
    exact ⟨_, ending, hall⟩
  | case4 bytes length e hfront hfatal =>
    obtain ⟨hframe, hread⟩ := isFrame_of_front hfront
    have hbreaks := Breaks.content hframe hread hfatal (bytes.drop length)
    rw [List.take_append_drop] at hbreaks
    exact ⟨[], some e, .nil hbreaks⟩
  | case5 bytes length e hfront hfatal ih =>
    obtain ⟨frames, ending, hparts⟩ := ih
    obtain ⟨hframe, hread⟩ := isFrame_of_front hfront
    have hpass : Passable (bytes.take length) := fun e' he => by
      rw [hread] at he
      cases he
      simpa using hfatal
    have hall := hparts.cons hframe hpass
    rw [List.take_append_drop] at hall
    exact ⟨_, ending, hall⟩

theorem ofMarker_isFatal {marker : UInt8} (h : ByteOrder.ofMarker marker = .error e) : e.isFatal = true := by
  unfold ByteOrder.ofMarker at h
  split_ifs at h
  cases h
  rfl

theorem parse_isFatal {data : List UInt8} (h : FixedHeader.parse data = .error e) : e.isFatal = true := by
  unfold FixedHeader.parse at h
  split at h
  · next marker type flags version rest =>
      by_cases hlong : Wire.hasAtLeast (fixedHeaderLength - 4) rest = true
      · simp only [hlong, Bool.not_true, Bool.false_eq_true, if_false] at h
        cases horder : ByteOrder.ofMarker marker with
        | error e' =>
          rw [horder] at h
          cases h
          exact ofMarker_isFatal horder
        | ok order =>
          rw [horder] at h
          by_cases hversion : version = protocolVersion
          · simp only [hversion, ne_eq, not_true_eq_false, if_false] at h
            cases h
          · simp only [hversion, ne_eq, not_false_eq_true, if_true] at h
            cases h
            rfl
      · simp only [hlong, Bool.not_false, if_true] at h
        cases h
        rfl
  · cases h
    rfl

/-- only a fatal error breaks a stream -/
theorem Breaks.isFatal (h : Breaks maxSize bytes e) : e.isFatal = true := by
  cases h with
  | content isFrame fails fatal more => exact fatal
  | header long fails => exact parse_isFatal fails
  | size long parses large => rfl

/-! ## Results up to the first error -/

/-- what is delivered before the first error, and that error -/
def untilError : List Result → List Message × Option Error
  | [] => ([], none)
  | .error e :: _ => ([], some e)
  | .ok messages :: results => (messages ++ (untilError results).1, (untilError results).2)

theorem untilError_append (lists : List (List Message)) (results : List Result) :
    untilError (lists.map .ok ++ results) = (lists.flatten ++ (untilError results).1, (untilError results).2) := by
  induction lists with
  | nil => rfl
  | cons messages lists ih =>
    rw [List.map_cons, List.cons_append, untilError, ih, List.flatten_cons, List.append_assoc]

/-- nothing is delivered behind the first error, once it has been brought out -/
theorem Reported.untilError_eq {taken : Taken} {results : List Result} {fault : Option (Option Error)}
    (hr : Reported taken results fault) (h : ∀ e, fault ≠ some (some e)) :
    untilError results = (taken.messages, taken.error) := by
  cases hr with
  | sound lists messages error =>
    have hall := untilError_append lists []
    rwa [List.append_nil, untilError, List.append_nil, messages, ← error] at hall
  | kept lists e messages error => exact absurd rfl (h e)
  | told lists e later messages error => rw [untilError_append, untilError, List.append_nil, messages, error]

end FrameBuffer

/-! ## Recordings -/

namespace Capture

open FrameBuffer (Parts messagesIn untilError)

theorem pushAll_eq (buffer : FrameBuffer) (chunks : List (List UInt8)) :
    pushAll buffer chunks = untilError (buffer.callAll (chunks.map .push)).1 := by
  induction chunks generalizing buffer with
  | nil => rfl
  | cons chunk chunks ih =>
    rw [pushAll, List.map_cons, FrameBuffer.callAll_cons, FrameBuffer.call]
    rcases buffer.push chunk with ⟨_ | messages, after⟩
    · rfl
    · simp only [ih, untilError]

variable (options : Options) (recording : List UInt8)

/-- the largest message that options admit -/
def Options.effectiveMaxSize (options : Options) : Nat :=
  ({ maxMessageSize := options.maxMessageSize } : Config).effectiveMaxSize

/-- a recording holds what is taken of the bytes behind those to skip -/
theorem messages_eq : messages options recording
    = ((FrameBuffer.takeAll options.effectiveMaxSize (recording.drop options.skip)).messages,
      (FrameBuffer.takeAll options.effectiveMaxSize (recording.drop options.skip)).error) := by
  obtain ⟨fault, -, hreported, hkept⟩ :=
    FrameBuffer.pushAll_flushed options.effectiveMaxSize (chunks options.chunkSize (recording.drop options.skip))
  rw [flatten_chunks] at hreported
  exact (pushAll_eq _ _).trans (hreported.untilError_eq hkept)

/-- the lines that show the messages among some frames -/
def linesOf (frames : List (List UInt8)) : String :=
  String.join ((messagesIn frames).map fun message => message.display ++ "\n")

theorem exitStatus_eq_one_iff (ending : Option Error) : exitStatus ending = 1 ↔ ∃ e, ending = some e := by
  cases ending with
  | none => exact ⟨nofun, nofun⟩
  | some e => exact ⟨fun _ => ⟨e, rfl⟩, fun _ => rfl⟩

/-- **What is shown does not depend on the size of the chunks**, and is what the bytes behind those to skip are made of: the
messages of the frames up to the first fatal error, in order. The exit status is 1 exactly when there is such an error. -/
theorem transcript_parts :
    (∀ chunkSize, transcript { options with chunkSize } recording = transcript options recording) ∧
      (∃ frames ending, Parts options.effectiveMaxSize (recording.drop options.skip) frames ending) ∧
      (∀ frames ending, Parts options.effectiveMaxSize (recording.drop options.skip) frames ending →
        transcript options recording = (linesOf frames, ending)) ∧
      (exitStatus (transcript options recording).2 = 1 ↔
        ∃ frames e, Parts options.effectiveMaxSize (recording.drop options.skip) frames (some e) ∧ e.isFatal = true) := by
  have hshows : ∀ frames ending, Parts options.effectiveMaxSize (recording.drop options.skip) frames ending →
      transcript options recording = (linesOf frames, ending) := fun frames ending hparts => by
    obtain ⟨hmessages, herror⟩ := hparts.takeAll
    rw [transcript, messages_eq, hmessages, herror, linesOf]
  refine ⟨fun chunkSize => ?_, FrameBuffer.exists_parts _ _, hshows, ?_⟩
  · have hsame : messages { options with chunkSize } recording = messages options recording :=
      (messages_eq _ recording).trans (messages_eq options recording).symm
    rw [transcript, transcript, hsame]
  · rw [exitStatus_eq_one_iff]
    constructor
    · intro h
      obtain ⟨e, he⟩ := h
      obtain ⟨frames, ending, hparts⟩ := FrameBuffer.exists_parts options.effectiveMaxSize (recording.drop options.skip)
      obtain rfl : ending = some e := by rw [← he, hshows frames ending hparts]
      obtain ⟨rest, -, hbreaks⟩ := hparts.2
      exact ⟨frames, e, hparts, FrameBuffer.Breaks.isFatal hbreaks⟩
    · intro h
      obtain ⟨frames, e, hparts, -⟩ := h
      exact ⟨e, by rw [hshows frames _ hparts]⟩

open FrameBuffer (strangeFrame replyFrame overlongFrame)

/-- one byte to skip, a frame of an unknown type, one with a message, and one that is longer than its contents: read in one
chunk or byte by byte, the message is shown and the error ends it -/
theorem transcript_parts_overlong :
    let recording := 0 :: [strangeFrame, replyFrame].flatten ++ overlongFrame
    let options : Options := { chunkSize := 4096, skip := 1, maxMessageSize := 64 }
    Parts options.effectiveMaxSize (recording.drop options.skip) [strangeFrame, replyFrame] (some (.lengthMismatch 8 0)) ∧
      transcript options recording = ("method return serial=1 reply_serial=1\n", some (.lengthMismatch 8 0)) ∧
      transcript { options with chunkSize := 0 } recording = transcript options recording ∧
      exitStatus (transcript options recording).2 = 1 := by
  intro recording options
  have hbreaks : FrameBuffer.Breaks 64 overlongFrame (.lengthMismatch 8 0) := by
    have hcontent : FrameBuffer.Breaks 64 (overlongFrame ++ []) (.lengthMismatch 8 0) :=
      .content ⟨_, rfl, rfl, by decide⟩ FrameBuffer.unmarshal_overlongFrame rfl []
    rwa [List.append_nil] at hcontent
  have hparts : Parts options.effectiveMaxSize (recording.drop options.skip) [strangeFrame, replyFrame]
      (some (.lengthMismatch 8 0)) := ⟨FrameBuffer.passable_frames, overlongFrame, rfl, hbreaks⟩
  obtain ⟨hchunks, -, hshows, hstatus⟩ := transcript_parts options recording
  have hlines : linesOf [strangeFrame, replyFrame] = "method return serial=1 reply_serial=1\n" := by cbv
  refine ⟨hparts, ?_, hchunks 0, hstatus.2 ⟨_, _, hparts, rfl⟩⟩
  rw [hshows _ _ hparts, hlines]

end Capture

end MessageBus
