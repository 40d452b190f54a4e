/-
What the users of a connection do, and what they get to see.

A callback is a label and a script: when it runs, the label is entered into the journal together with what the
callback was run for, and then the actions of the script are carried out in order. Scripts are plain data, so that
whatever happens on a connection can be followed step by step.
-/
import MessageBus.Message

namespace MessageBus

/-- why a call ends without the return of the method -/
inductive CallFailure where
  | remote (e : RemoteError)
  | disconnected (reason : String)
  | cancelled

def CallFailure.message : CallFailure → String
  | remote e => s!"remote error {e.display}"
  | disconnected reason => s!"connection closed before a reply arrived: {reason}"
  | cancelled => "call was cancelled"

/-- what a call ends with -/
abbrev CallOutcome := Except CallFailure Body

/-- what a method handler does with a call -/
inductive Handling where
  /-- return the arguments of the call -/
  | echo
  | give (body : Body)
  | fail (e : RemoteError)
  | crash

/-- what reading from a source yields -/
inductive Arrival where
  /-- received bytes; none mean the end of the stream -/
  | bytes (data : List UInt8)
  /-- the read was interrupted and has to be tried again -/
  | interrupted
  | failed (reason : String)

/-- what a user of a connection can do; a label and a script make a callback -/
inductive Action where
  /-- send any message -/
  | send (message : Message)
  /-- send a method call and run a callback with its outcome -/
  | invoke (message : Message) (label : String) (script : List Action)
  /-- send a method call and keep a handle to ask for its outcome -/
  | call (message : Message)
  /-- ask a handle for the outcome -/
  | poll (handle : Nat)
  /-- give a handle up for the outcome -/
  | await (handle : Nat)
  /-- stop waiting for the reply to a serial -/
  | cancel (serial : UInt32)
  /-- run a callback for every incoming message -/
  | tap (label : String) (script : List Action)
  /-- run a callback for the signals of these names -/
  | listen (path interface member : String) (label : String) (script : List Action)
  | unlisten (listener : Nat)
  /-- serve calls of these names -/
  | serve (path : String) (interface : Option String) (member : String) (label : String) (script : List Action)
      (handling : Handling)
  | unserve (path : String) (interface : Option String) (member : String)
  /-- take received bytes, in chunks -/
  | feed (chunks : List (List UInt8))
  /-- read a source to its end -/
  | run (arrivals : List Arrival)
  | close (reason : String)
  /-- an action that fails before it gets to the connection -/
  | fail (e : Error)

structure Callback where
  label : String
  script : List Action

/-- the result of an action -/
inductive Answer where
  | done
  | serial (serial : UInt32)
  | handle (serial : UInt32) (index : Nat)
  | outcome (outcome : CallOutcome)
  | unresolved
  | listener (id : Nat)
  | flag (value : Bool)
  /-- there is no such handle or listener -/
  | unknown
  | failed (e : Error)

/-- an entry of the journal -/
inductive Event where
  /-- a message came in -/
  | arrived (message : Message)
  /-- a message was handed to the transport -/
  | written (message : Message)
  /-- the connection was closed -/
  | closed (reason : String)
  /-- a callback ran for any message -/
  | tapped (label : String) (message : Message)
  /-- a callback ran for a signal -/
  | signalled (label : String) (message : Message)
  /-- a method handler ran for a call -/
  | served (label : String) (message : Message)
  /-- a callback ran for the outcome of a call -/
  | replied (label : String) (outcome : CallOutcome)
  /-- an action of a script had a result -/
  | result (answer : Answer)

end MessageBus
