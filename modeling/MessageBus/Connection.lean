/-
A connection: a router for messages together with the buffer that cuts the incoming bytes into them.

`Connection.feed` takes received bytes in whatever chunks they come, and deals with every message that they complete,
in order. A stream that can no longer be cut into messages closes the connection. `Connection.run` reads a source to
its end.
-/
import MessageBus.Chunks
import MessageBus.Connection.Dispatch
import MessageBus.FrameBuffer

namespace MessageBus

structure Connection where
  router : Router
  buffer : FrameBuffer

namespace Connection

def new (config : Config) (transport : Transport) : Connection :=
  ⟨{ config, link := { transport } }, .new config.effectiveMaxSize⟩

/-- close the connection and tell everybody who waits for a reply -/
def close (c : Connection) (reason : String) : Connection :=
  let (router, tasks) := c.router.close reason
  { c with router := router.settle tasks }

def isClosed (c : Connection) : Bool := c.router.closed.isSome

/-- take received bytes and deal with every message that they complete, whatever dealing with the ones before does to
the connection; an error of the stream closes it -/
def feed (c : Connection) (chunk : List UInt8) : Except Error Unit × Connection :=
  if c.isClosed then (.error .closed, c)
  else
    let buffer := c.buffer.extend chunk
    let (messages, e, buffer) := buffer.drain (buffer.buffered + 1)
    let c : Connection := ⟨messages.foldl Router.dispatch c.router, buffer⟩
    match e with
    | none => (.ok (), c)
    | some e => (.error e, c.close e.message)

/-- feed chunks in order, up to the first error -/
def feedAll (c : Connection) : List (List UInt8) → Except Error Unit × Connection
  | [] => (.ok (), c)
  | chunk :: chunks =>
    match c.feed chunk with
    | (.ok _, c) => c.feedAll chunks
    | failure => failure

/-- read a source to its end and close the connection there; bytes come in reads of at most the chunk size -/
def run (c : Connection) : List Arrival → Except Error Unit × Connection
  | [] | .bytes [] :: _ => (.ok (), c.close "end of stream")
  | .interrupted :: arrivals => c.run arrivals
  | .failed reason :: _ => (.error (.transport reason), c.close reason)
  | .bytes data :: arrivals =>
    match c.feedAll (chunks c.router.config.readChunkSize data) with
    | (.ok _, c) => c.run arrivals
    | failure => failure

/-- carry out an action of the owner of the connection, and all that it causes -/
def act (c : Connection) (action : Action) : Answer × Connection :=
  match action with
  | .feed chunks =>
    let (result, c) := c.feedAll chunks
    (Router.answer (fun _ => .done) result, c)
  | .run arrivals =>
    let (result, c) := c.run arrivals
    (Router.answer (fun _ => .done) result, c)
  | action =>
    let (answer, router) := c.router.act action
    (answer, { c with router })

end Connection

end MessageBus
