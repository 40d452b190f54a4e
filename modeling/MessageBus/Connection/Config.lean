/-
Settings of a connection.
-/
import MessageBus.Message.Frame

namespace MessageBus

/-- outgoing messages have the byte order; an incoming frame that declares more than the maximum size, or more than
the protocol allows, fails the connection; the chunk size is that of a read from a source -/
structure Config where
  order : ByteOrder := .little
  maxMessageSize : Nat := MessageBus.maxMessageSize
  readChunkSize : Nat := 4096
  deriving DecidableEq, Repr

/-- longest incoming message in bytes -/
def Config.effectiveMaxSize (config : Config) : Nat := min config.maxMessageSize MessageBus.maxMessageSize

end MessageBus
