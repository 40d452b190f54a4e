/-
Cutting an incoming byte stream into messages.

Bytes are buffered until the fixed header is there, which declares how long the frame is, and then until the whole frame
is there. A complete frame that is no message (an unknown type, a header field of the wrong type, a malformed name) is
dropped, since the next frame starts behind it all the same. When the fixed header is wrong, or the contents disagree with
the lengths that it declares, no later byte can be trusted: the buffer fails for good, reports that error once, and answers
`closed` from then on.
-/
import MessageBus.Message.Frame

namespace MessageBus

/-- what a buffer waits for -/
inductive ReadState where
  | header
  /-- the fields and the body of a frame whose fixed header declares this length -/
  | frame (length : Nat)
  /-- nothing, since the stream has failed; the error is kept until it is reported -/
  | failed (error : Option Error)
  deriving DecidableEq, Repr

/-- what a round of `FrameBuffer.next` lowers that uses no bytes. A frame of no bytes, which no fixed header declares, may
count for more than none, since its round leads to the next fixed header -/
def ReadState.rank : ReadState → Nat
  | header => 1
  | frame 0 => 2
  | frame (_ + 1) | failed _ => 0

/-- received bytes, of which the first `start` have been used -/
structure FrameBuffer where
  maxSize : Nat
  data : List UInt8
  start : Nat
  state : ReadState
  deriving DecidableEq, Repr

namespace FrameBuffer

/-- an empty buffer for frames of at most `maxSize` bytes -/
def new (maxSize : Nat) : FrameBuffer := ⟨maxSize, [], 0, .header⟩

/-- bytes not used yet -/
def pending (buffer : FrameBuffer) : List UInt8 := buffer.data.drop buffer.start

/-- number of bytes not used yet -/
def buffered (buffer : FrameBuffer) : Nat := buffer.data.length - buffer.start

/-- once the stream has failed, the error that is still to be reported -/
def failure (buffer : FrameBuffer) : Option (Option Error) :=
  match buffer.state with
  | .failed error => some error
  | _ => none

def hasFailed (buffer : FrameBuffer) : Bool := buffer.failure.isSome

/-- append received bytes; used ones are let go when they are all there is or more than half of it -/
def extend (buffer : FrameBuffer) (chunk : List UInt8) : FrameBuffer :=
  if buffer.start = buffer.data.length then { buffer with data := chunk, start := 0 }
  else if buffer.data.length / 2 < buffer.start then
    { buffer with data := buffer.data.drop buffer.start ++ chunk, start := 0 }
  else { buffer with data := buffer.data ++ chunk }

/-- the length of the frame that the fixed header at the front of some bytes declares, which is at most `maxSize` -/
def declared (maxSize : Nat) (bytes : List UInt8) : Except Error Nat :=
  match FixedHeader.parse (bytes.take fixedHeaderLength) with
  | .error e => .error e
  | .ok header =>
    if maxSize < header.frameLength then .error (.messageTooLong header.frameLength) else .ok header.frameLength

/-- a frame takes up at least its fixed header -/
theorem le_of_declared {maxSize length : Nat} {bytes : List UInt8} (h : declared maxSize bytes = .ok length) :
    fixedHeaderLength ≤ length := by
  unfold declared at h
  split at h
  · cases h
  · split at h
    · cases h
    · cases h
      unfold FixedHeader.frameLength
      omega

/-- what comes of looking for the next message -/
inductive Next where
  | message (message : Message)
  | nothing
  | failed (error : Error)

/-- take the next message out of the buffer, behind any number of frames that are none; the frame that breaks the stream
counts as used, a broken header does not -/
def next (buffer : FrameBuffer) : Next × FrameBuffer :=
  match _hstate : buffer.state with
  | .failed error => (.failed (error.getD .closed), { buffer with state := .failed none })
  | .header =>
    if !Wire.hasAtLeast fixedHeaderLength buffer.pending then (.nothing, buffer)
    else
      match _hlength : declared buffer.maxSize buffer.pending with
      | .error e => (.failed e, { buffer with state := .failed none })
      | .ok length => { buffer with state := .frame length }.next
  | .frame length =>
    if _hwhole : !Wire.hasAtLeast length buffer.pending then (.nothing, buffer)
    else
      let rest : FrameBuffer := { buffer with start := buffer.start + length, state := .header }
      match Message.unmarshal (buffer.pending.take length) with
      | .ok message => (.message message, rest)
      | .error e => if e.isFatal then (.failed e, { rest with state := .failed none }) else rest.next
termination_by 2 * buffer.buffered + buffer.state.rank
decreasing_by
  · have hle := le_of_declared _hlength
    obtain _ | length := length
    · exact absurd hle (by decide)
    · simp [_hstate, buffered, ReadState.rank]
  · have hle : length ≤ buffer.pending.length := (Wire.hasAtLeast_iff _ _).1 (by simpa using _hwhole)
    rw [pending, List.length_drop] at hle
    rw [_hstate]
    obtain _ | length := length
    · simp [buffered, ReadState.rank]
    · simp only [buffered, ReadState.rank]
      omega

/-- take messages out of the buffer, at most `count`, up to the first error -/
def drain : (count : Nat) → FrameBuffer → List Message × Option Error × FrameBuffer
  | 0, buffer => ([], none, buffer)
  | count + 1, buffer =>
    match buffer.next with
    | (.message message, buffer) =>
      let (messages, error, buffer) := drain count buffer
      (message :: messages, error, buffer)
    | (.nothing, buffer) => ([], none, buffer)
    | (.failed e, buffer) => ([], some e, buffer)

/-- append received bytes and take out every message that they complete; an error behind some of them is kept for the
next time -/
def push (buffer : FrameBuffer) (chunk : List UInt8) : Except Error (List Message) × FrameBuffer :=
  let buffer := buffer.extend chunk
  match drain (buffer.buffered + 1) buffer with
  | (messages, none, buffer) => (.ok messages, buffer)
  | ([], some e, buffer) => (.error e, buffer)
  | (messages, some e, buffer) => (.ok messages, { buffer with state := .failed (some e) })

end FrameBuffer

end MessageBus
