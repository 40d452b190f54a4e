/-
What becomes of an incoming message.

First every tap sees it. Then it is routed once, by its type: a reply goes to the waiter of its serial, a signal to the
listeners of its names in the order in which they were added, a call to its handler. A call that expects a reply gets
exactly one answer; when the answer of the handler cannot be sent, an error that says why is sent in its place.
-/
import MessageBus.Connection.Settle

namespace MessageBus

/-- what a call is answered with -/
abbrev Answering := Except RemoteError Body

/-- the name of the error for calls that nobody serves -/
def unknownMethodName : String := "org.freedesktop.DBus.Error.UnknownMethod"

/-- the error for calls that nobody serves -/
def Message.unknownMethod (call : Message) : RemoteError :=
  let member := call.fields.member.getD ""
  let path := call.fields.path.getD ""
  .new unknownMethodName s!"no method {member} on {path}"

/-- the answer of a handler to a call -/
def Handling.answer (handling : Handling) (call : Message) : Answering :=
  match handling with
  | echo => .ok call.body
  | give body => .ok body
  | fail e => .error e
  | crash => .error (.failed "method handler panicked")

/-- the message that answers a call -/
def Message.reply (call : Message) : Answering → Except Error Message
  | .ok body => .ok { call.methodReturn with body }
  | .error e => call.errorReply e

/-- what the end of a call with a reply is -/
def Message.outcome (reply : Message) : CallOutcome :=
  match reply.type with
  | .error => .error (.remote ⟨reply.fields.errorName.getD "", reply.body.firstText?, reply.body⟩)
  | _ => .ok reply.body

namespace Router

/-- send a message that may not have come about -/
def sendBuilt (r : Router) (message : Except Error Message) : Except Error UInt32 × Router × List Task :=
  match message with
  | .error e => (.error e, r, [])
  | .ok message => r.send message none

/-- answer a call; if that fails and the stream is sound, answer with an error that tells the failure -/
def reply (r : Router) (call : Message) (answering : Answering) : Router :=
  let (result, r, tasks) := r.sendBuilt (call.reply answering)
  let r := r.settle tasks
  match result with
  | .ok _ => r
  | .error e =>
    if e.isFatal then r
    else
      let (_, r, tasks) := r.sendBuilt (call.errorReply (.failed e.message))
      r.settle tasks

/-- take whoever waits for a reply out of the table -/
def takeWaiter (r : Router) (message : Message) : Router × List Task :=
  match message.fields.replySerial with
  | none => (r, [])
  | some serial =>
    match r.pending.find? fun entry => entry.1 = serial with
    | none => (r, [])
    | some (_, waiter) =>
      ({ r with pending := r.pending.filter fun entry => entry.1 ≠ serial }, [.tell serial waiter message.outcome])

/-- hand a signal to its listeners -/
def signalled (r : Router) (message : Message) : List Task :=
  match message.routeKey? with
  | none => []
  | some key => (r.listenersFor key).map fun callback => .run callback (.signalled callback.label message)

/-- have a call served: what it is to be answered with, and the run of the handler -/
def served (r : Router) (call : Message) : Answering × List Task :=
  match call.routeKey?.bind r.handlerFor? with
  | some handler => (handler.handling.answer call, [.run handler.callback (.served handler.callback.label call)])
  | none => (.error call.unknownMethod, [])

/-- route a message by its type -/
def route (r : Router) (message : Message) : Router :=
  match message.type with
  | .methodReturn | .error =>
    let (r, tasks) := r.takeWaiter message
    r.settle tasks
  | .signal => r.settle (r.signalled message)
  | .methodCall =>
    let (answering, tasks) := r.served message
    let r := r.settle tasks
    if message.expectsReply then r.reply message answering else r

/-- have every tap see a message -/
def tapped (r : Router) (message : Message) : List Task :=
  r.taps.map fun callback => .run callback (.tapped callback.label message)

/-- deal with an incoming message -/
def dispatch (r : Router) (message : Message) : Router :=
  let r := r.log (.arrived message)
  let r := r.settle (r.tapped message)
  (r.record (.routed message)).route message

end Router

end MessageBus
