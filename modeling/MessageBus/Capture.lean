/-
Showing the messages of a recorded byte stream.

The bytes behind those to skip are handed to a frame buffer in chunks. Every message is shown on lines of its own; the
first error that breaks the stream ends the transcript, also when it hides behind messages of the last chunk.
-/
import MessageBus.Chunks
import MessageBus.Connection.Config
import MessageBus.FrameBuffer

namespace MessageBus.Capture

structure Options where
  chunkSize : Nat := ({} : Config).readChunkSize
  skip : Nat := 0
  maxMessageSize : Nat := ({} : Config).maxMessageSize
  deriving DecidableEq, Repr

/-- push chunks in order; the messages before the first error, and that error -/
def pushAll (buffer : FrameBuffer) : List (List UInt8) → List Message × Option Error
  | [] => ([], none)
  | chunk :: chunks =>
    match buffer.push chunk with
    | (.error e, _) => ([], some e)
    | (.ok messages, buffer) =>
      let (later, e) := pushAll buffer chunks
      (messages ++ later, e)

/-- the messages of a recording, and the error that ends it; an empty chunk at the end brings out an error that was
kept back -/
def messages (options : Options) (recording : List UInt8) : List Message × Option Error :=
  let config : Config := { maxMessageSize := options.maxMessageSize }
  pushAll (.new config.effectiveMaxSize) (chunks options.chunkSize (recording.drop options.skip) ++ [[]])

/-- the lines of a recording, and the error that ends it -/
def transcript (options : Options) (recording : List UInt8) : String × Option Error :=
  let (shown, e) := messages options recording
  (String.join (shown.map fun message => message.display ++ "\n"), e)

/-- the exit status that tells how a recording ended -/
def exitStatus : Option Error → UInt32
  | none => 0
  | some _ => 1

end MessageBus.Capture
