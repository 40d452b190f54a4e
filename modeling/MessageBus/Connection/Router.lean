/-
The state of a connection and the immediate effect of each action on it.

A router numbers outgoing messages, keeps a waiter for each call that has no reply yet, and knows the callbacks for
signals, calls and messages at large. An action changes the router at once; when it closes the connection, the waiters
that are told so follow as tasks, in the order of their calls. All that happens is kept as the past of the router, of
which the journal is the part that its users get to see.
-/
import MessageBus.Connection.Config
import MessageBus.Connection.Script
import MessageBus.Connection.Transport

namespace MessageBus

/-- the names that signals and calls are routed by -/
structure RouteKey where
  path : String
  interface : Option String
  member : String
  deriving DecidableEq, Repr

/-- the names of a message, if it has a path and a member -/
def Message.routeKey? (message : Message) : Option RouteKey := do
  return ⟨← message.fields.path, message.fields.interface, ← message.fields.member⟩

/-- who is told the outcome of a call -/
inductive Waiter where
  | callback (callback : Callback)
  | handle (index : Nat)

/-- what happens on a connection -/
inductive Moment where
  /-- an entry of the journal -/
  | seen (event : Event)
  /-- an outgoing message got its serial -/
  | numbered (serial : UInt32)
  /-- a waiter was entered for the reply to a serial -/
  | entered (serial : UInt32) (waiter : Waiter)
  /-- the taps have run for a message, and it is routed -/
  | routed (message : Message)
  /-- every waiter is dismissed -/
  | dismissed (reason : String)
  /-- a waiter was told the outcome of its call -/
  | told (serial : UInt32) (waiter : Waiter) (outcome : CallOutcome)
  /-- an action had its immediate effect -/
  | acted (action : Action) (answer : Answer)

/-- the entry of the journal that a moment is -/
def Moment.event? : Moment → Option Event
  | seen event => some event
  | _ => none

structure Listener where
  id : Nat
  key : RouteKey
  callback : Callback

structure Handler where
  key : RouteKey
  callback : Callback
  handling : Handling

/-- what a handle has to say: its call is open, has an outcome that nobody has asked for, or has none (any more); a
handle that was given up is unknown -/
inductive HandleState where
  | waiting
  | resolved (outcome : CallOutcome)
  | dropped
  | unknown

/-- what is still to be done -/
inductive Task where
  /-- enter an event into the journal -/
  | note (event : Event)
  /-- carry out an action and enter its result into the journal -/
  | act (action : Action)
  /-- run a callback for an event -/
  | run (callback : Callback) (event : Event)
  /-- tell a waiter the outcome of its call -/
  | tell (serial : UInt32) (waiter : Waiter) (outcome : CallOutcome)

/-- lists are in the order in which things were added -/
structure Router where
  config : Config
  link : Link
  nextSerial : UInt32 := 1
  pending : List (UInt32 × Waiter) := []
  handles : List HandleState := []
  nextListener : Nat := 0
  listeners : List Listener := []
  handlers : List Handler := []
  taps : List Callback := []
  closed : Option String := none
  past : List Moment := []

namespace Router

/-- what the users of the connection get to see -/
def journal (r : Router) : List Event := r.past.filterMap Moment.event?

/-- keep a moment in the past -/
def record (r : Router) (moment : Moment) : Router := { r with past := r.past ++ [moment] }

/-- enter an event into the journal -/
def log (r : Router) (event : Event) : Router := r.record (.seen event)

def isPending (r : Router) (serial : UInt32) : Bool := r.pending.any fun entry => entry.1 = serial

/-- the first serial from `serial` on that is neither zero nor waited for, within so many steps -/
def freeSerial (r : Router) (serial : UInt32) : (steps : Nat) → UInt32
  | 0 => serial
  | steps + 1 => if serial = 0 || r.isPending serial then r.freeSerial (serial + 1) steps else serial

/-- take the next serial; one more step than there are serials to skip finds it -/
def allocateSerial (r : Router) : UInt32 × Router :=
  let serial := r.freeSerial r.nextSerial (r.pending.length + 2)
  (serial, { r with nextSerial := serial + 1 }.record (.numbered serial))

/-- close the connection, unless it is closed, and dismiss every waiter -/
def close (r : Router) (reason : String) : Router × List Task :=
  let dismissals := r.pending.map fun entry => .tell entry.1 entry.2 (.error (.disconnected reason))
  let r := { r with pending := [] }.record (.dismissed reason)
  match r.closed with
  | some _ => (r, dismissals)
  | none => ({ r with closed := some reason }.log (.closed reason), dismissals)

/-- number a message and hand it to the transport; a waiter is entered once the message is known to have a frame. A
transport that fails closes the connection -/
def send (r : Router) (message : Message) (waiter : Option Waiter) : Except Error UInt32 × Router × List Task :=
  if r.closed.isSome then (.error .closed, r, [])
  else
    let (serial, r) := r.allocateSerial
    let message := { message with serial, order := r.config.order }
    match message.marshal with
    | .error e => (.error e, r, [])
    | .ok data =>
      let r := match waiter with
        | some waiter => { r with pending := r.pending ++ [(serial, waiter)] }.record (.entered serial waiter)
        | none => r
      let r := r.log (.written message)
      let (result, link) := r.link.send data
      let r := { r with link }
      match result with
      | .ok _ => (.ok serial, r, [])
      | .error reason =>
        let e : Error := .transport reason
        let (r, tasks) := r.close e.message
        (.error e, r, tasks)

/-- send a method call that expects a reply -/
def sendCall (r : Router) (message : Message) (waiter : Waiter) : Except Error UInt32 × Router × List Task :=
  if message.expectsReply then r.send message (some waiter)
  else (.error (.noReplyExpected message.type), r, [])

/-- the outcome that a handle holds, which can be asked for once -/
def poll (r : Router) (index : Nat) : Answer × Router :=
  match r.handles[index]?.getD .unknown with
  | .unknown => (.unknown, r)
  | .waiting => (.unresolved, r)
  | .resolved outcome => (.outcome outcome, { r with handles := r.handles.set index .dropped })
  | .dropped => (.outcome (.error .cancelled), r)

/-- as `poll`, but the handle is unknown afterwards, unless its call is still open -/
def await (r : Router) (index : Nat) : Answer × Router :=
  match r.poll index with
  | (.outcome outcome, r) => (.outcome outcome, { r with handles := r.handles.set index .unknown })
  | unsettled => unsettled

/-- stop waiting for the reply to a serial; a handle that waited for it has no outcome then -/
def cancel (r : Router) (serial : UInt32) : Bool × Router :=
  match r.pending.find? fun entry => entry.1 = serial with
  | none => (false, r)
  | some (_, waiter) =>
    let r := { r with pending := r.pending.filter fun entry => entry.1 ≠ serial }
    match waiter with
    | .callback _ => (true, r)
    | .handle index => (true, { r with handles := r.handles.set index .dropped })

/-- run a callback for the signals of these names, which are checked -/
def listen (r : Router) (path interface member : String) (callback : Callback) : Except Error Nat × Router :=
  let checked : Except Error Unit := do
    NameKind.objectPath.check path
    NameKind.interface.check interface
    NameKind.member.check member
  match checked with
  | .error e => (.error e, r)
  | .ok _ =>
    let listener : Listener := ⟨r.nextListener, ⟨path, some interface, member⟩, callback⟩
    (.ok r.nextListener, { r with nextListener := r.nextListener + 1, listeners := r.listeners ++ [listener] })

/-- remove a listener, and say whether it was there -/
def unlisten (r : Router) (id : Nat) : Bool × Router :=
  (r.listeners.any fun listener => listener.id = id,
    { r with listeners := r.listeners.filter fun listener => listener.id ≠ id })

/-- serve the calls of these names, which are checked, in place of whoever served them -/
def serve (r : Router) (key : RouteKey) (callback : Callback) (handling : Handling) : Except Error Unit × Router :=
  let checked : Except Error Unit := do
    NameKind.objectPath.check key.path
    if let some interface := key.interface then NameKind.interface.check interface
    NameKind.member.check key.member
  match checked with
  | .error e => (.error e, r)
  | .ok _ =>
    (.ok (), { r with
      handlers := (r.handlers.filter fun handler => handler.key ≠ key) ++ [⟨key, callback, handling⟩] })

/-- stop serving the calls of these names, and say whether they were served -/
def unserve (r : Router) (key : RouteKey) : Bool × Router :=
  (r.handlers.any fun handler => handler.key = key,
    { r with handlers := r.handlers.filter fun handler => handler.key ≠ key })

/-- who serves a call: the handler of its names, else one without an interface; a call without an interface goes to
any handler of its path and member -/
def handlerFor? (r : Router) (key : RouteKey) : Option Handler :=
  match r.handlers.find? fun handler => handler.key = key with
  | some handler => some handler
  | none =>
    match key.interface with
    | some _ => r.handlers.find? fun handler => handler.key = { key with interface := none }
    | none => r.handlers.find? fun handler => handler.key.path = key.path && handler.key.member = key.member

/-- the callbacks for a signal -/
def listenersFor (r : Router) (key : RouteKey) : List Callback :=
  (r.listeners.filter fun listener => listener.key = key).map (·.callback)

/-- read a source up to its end, its failure or its first bytes, which are not taken -/
def exhaust (r : Router) : List Arrival → Answer × Router × List Task
  | [] | .bytes [] :: _ =>
    let (r, tasks) := r.close "end of stream"
    (.done, r, tasks)
  | .interrupted :: arrivals => r.exhaust arrivals
  | .failed reason :: _ =>
    let (r, tasks) := r.close reason
    (.failed (.transport reason), r, tasks)
  | .bytes (_ :: _) :: _ => (.failed .closed, r, [])

/-- the answer of an operation that can fail -/
def answer {α : Type} (ok : α → Answer) : Except Error α → Answer
  | .ok a => ok a
  | .error e => .failed e

/-- the immediate effect of an action: its result and what is to be done next. No bytes are taken here: while a message
is being dealt with the input is in use, and at any other time a script only runs because the connection was closed -/
def effect (r : Router) : Action → Answer × Router × List Task
  | .send message =>
    let (result, r, tasks) := r.send message none
    (answer .serial result, r, tasks)
  | .invoke message label script =>
    let (result, r, tasks) := r.sendCall message (.callback ⟨label, script⟩)
    (answer .serial result, r, tasks)
  | .call message =>
    let index := r.handles.length
    match r.sendCall message (.handle index) with
    | (.ok serial, r, tasks) => (.handle serial index, { r with handles := r.handles ++ [.waiting] }, tasks)
    | (.error e, r, tasks) => (.failed e, r, tasks)
  | .poll handle =>
    let (result, r) := r.poll handle
    (result, r, [])
  | .await handle =>
    let (result, r) := r.await handle
    (result, r, [])
  | .cancel serial =>
    let (found, r) := r.cancel serial
    (.flag found, r, [])
  | .tap label script => (.done, { r with taps := r.taps ++ [⟨label, script⟩] }, [])
  | .listen path interface member label script =>
    let (result, r) := r.listen path interface member ⟨label, script⟩
    (answer .listener result, r, [])
  | .unlisten listener =>
    if r.nextListener ≤ listener then (.unknown, r, [])
    else
      let (found, r) := r.unlisten listener
      (.flag found, r, [])
  | .serve path interface member label script handling =>
    let (result, r) := r.serve ⟨path, interface, member⟩ ⟨label, script⟩ handling
    (answer (fun _ => .done) result, r, [])
  | .unserve path interface member =>
    let (found, r) := r.unserve ⟨path, interface, member⟩
    (.flag found, r, [])
  | .feed _ => (.failed .closed, r, [])
  | .run arrivals => r.exhaust arrivals
  | .close reason =>
    let (r, tasks) := r.close reason
    (.done, r, tasks)
  | .fail e => (.failed e, r, [])

/-- have an action take its immediate effect, and keep it in the past -/
def perform (r : Router) (action : Action) : Answer × Router × List Task :=
  let (answer, r, tasks) := r.effect action
  (answer, r.record (.acted action answer), tasks)

end Router

end MessageBus
