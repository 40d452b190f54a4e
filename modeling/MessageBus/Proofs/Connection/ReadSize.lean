/-
The size of reads.

A connection asks its source for a number of bytes at a time, which is a setting of its own. Nothing else looks at this
setting: whatever is done with a connection that reads in other sizes is done in the same way, and leads to the same
connection but for the setting (`Router.dispatch_reading`, `Connection.feedAll_reading`).
-/
import MessageBus.Proofs.Connection.Turns

namespace MessageBus

namespace Router

/-- the router of a connection that reads so many bytes at a time -/
def reading (size : Nat) (r : Router) : Router := { r with config := { r.config with readChunkSize := size } }

variable (size : Nat) (r : Router)

theorem freeSerial_reading (serial : UInt32) (steps : Nat) :
    (r.reading size).freeSerial serial steps = r.freeSerial serial steps := by
  induction steps generalizing serial with
  | zero => rfl
  | succ steps ih =>
    rw [freeSerial, freeSerial, ih]
    rfl

theorem allocateSerial_reading :
    (r.reading size).allocateSerial = (r.allocateSerial.1, r.allocateSerial.2.reading size) := by
  have hserial := r.freeSerial_reading size r.nextSerial (r.pending.length + 2)
  exact Prod.ext hserial (congrArg (fun s => record { r.reading size with nextSerial := s + 1 } (.numbered s)) hserial)

theorem close_reading (reason : String) :
    (r.reading size).close reason = ((r.close reason).1.reading size, (r.close reason).2) := by
  refine Prod.ext ?_ ?_
  · rw [close_eq, close_eq]
    rfl
  · rw [close_tasks, close_tasks]
    rfl

theorem numbered_reading (message : Message) : (r.reading size).numbered message = r.numbered message := by
  rw [numbered, numbered, allocateSerial_reading]
  rfl

theorem offered_reading (message : Message) (waiter : Option Waiter) (data : List UInt8) :
    (r.reading size).offered message waiter data = (r.offered message waiter data).reading size := by
  simp only [offered, entry, numbered_reading, allocateSerial_reading]
  rfl

/-- what comes of a step of a router, with the setting -/
def andReading {α : Type} (step : α × Router × List Task) : α × Router × List Task :=
  (step.1, step.2.1.reading size, step.2.2)

theorem send_reading (message : Message) (waiter : Option Waiter) :
    (r.reading size).send message waiter = andReading size (r.send message waiter) := by
  cases hclosed : r.closed with
  | some reason =>
    have hrefused : r.closed.isSome = true := by rw [hclosed]; rfl
    rw [send_refused hrefused, send_refused (r := r.reading size) hrefused]
    rfl
  | none =>
    cases hdata : (r.numbered message).marshal with
    | error e =>
      rw [send_unframed hclosed hdata, send_unframed (r := r.reading size) hclosed (by rwa [numbered_reading]),
        allocateSerial_reading]
      rfl
    | ok data =>
      have hlink : (r.reading size).link = r.link := rfl
      rw [send_framed hclosed hdata, send_framed (r := r.reading size) hclosed (by rwa [numbered_reading]),
        offered_reading, allocateSerial_reading, hlink]
      cases (r.link.send data).1 with
      | ok _ => rfl
      | error why =>
        simp only [close_reading]
        rfl

theorem sendCall_reading (message : Message) (waiter : Waiter) :
    (r.reading size).sendCall message waiter = andReading size (r.sendCall message waiter) := by
  rw [sendCall, sendCall, send_reading]
  split <;> rfl

theorem sendBuilt_reading (message : Except Error Message) :
    (r.reading size).sendBuilt message = andReading size (r.sendBuilt message) := by
  cases message with
  | error e => rfl
  | ok message => exact r.send_reading size message none

theorem poll_reading (index : Nat) :
    (r.reading size).poll index = ((r.poll index).1, (r.poll index).2.reading size) := by
  have hhandles : (r.reading size).handles = r.handles := rfl
  rw [poll, poll, hhandles]
  cases r.handles[index]?.getD .unknown <;> rfl

theorem await_reading (index : Nat) :
    (r.reading size).await index = ((r.await index).1, (r.await index).2.reading size) := by
  rw [await, await, poll_reading]
  rcases r.poll index with ⟨answer, polled⟩
  cases answer <;> rfl

theorem cancel_reading (serial : UInt32) :
    (r.reading size).cancel serial = ((r.cancel serial).1, (r.cancel serial).2.reading size) := by
  have hpending : (r.reading size).pending = r.pending := rfl
  rw [cancel, cancel, hpending]
  cases hfound : r.pending.find? fun entry => entry.1 = serial with
  | none => rfl
  | some entry => rcases entry with ⟨_, _ | _⟩ <;> rfl

theorem exhaust_reading (arrivals : List Arrival) :
    (r.reading size).exhaust arrivals = andReading size (r.exhaust arrivals) := by
  have hclose (answer : Answer) (reason : String) :
      (answer, (r.reading size).close reason) = andReading size (answer, r.close reason) := by
    rw [close_reading]
    rfl
  induction arrivals with
  | nil => exact hclose _ _
  | cons arrival arrivals ih =>
    match arrival with
    | .bytes [] => exact hclose _ _
    | .bytes (_ :: _) => rfl
    | .interrupted => exact ih
    | .failed reason => exact hclose _ _

theorem effect_reading (action : Action) : (r.reading size).effect action = andReading size (r.effect action) := by
  cases action with
  | send message =>
    rw [effect, effect, send_reading]
    rfl
  | invoke message label script =>
    rw [effect, effect, sendCall_reading]
    rfl
  | call message =>
    have hhandles : (r.reading size).handles = r.handles := rfl
    rw [effect, effect, hhandles, sendCall_reading]
    rcases r.sendCall message (.handle r.handles.length) with ⟨_ | _, _⟩ <;> rfl
  | poll i =>
    rw [effect, effect, poll_reading]
    rfl
  | await i =>
    rw [effect, effect, await_reading]
    rfl
  | cancel s =>
    rw [effect, effect, cancel_reading]
    rfl
  | tap label script => rfl
  | listen path interface member label script =>
    simp only [effect, listen]
    split <;> rfl
  | unlisten listener =>
    have hnext : (r.reading size).nextListener = r.nextListener := rfl
    simp only [effect, hnext]
    split <;> rfl
  | serve path interface member label script handling =>
    simp only [effect, serve]
    split <;> rfl
  | unserve path interface member => rfl
  | feed chunks => rfl
  | run arrivals => exact r.exhaust_reading size arrivals
  | close reason =>
    rw [effect, effect, close_reading]
    rfl
  | fail e => rfl

theorem tell_reading (serial : UInt32) (waiter : Waiter) (outcome : CallOutcome) :
    (r.reading size).tell serial waiter outcome
      = ((r.tell serial waiter outcome).1.reading size, (r.tell serial waiter outcome).2) := by
  cases waiter <;> rfl

theorem turn_reading (task : Task) :
    (r.reading size).turn task = ((r.turn task).1.reading size, (r.turn task).2) := by
  cases task with
  | note event => rfl
  | act action =>
    simp only [turn, perform, effect_reading]
    rfl
  | run callback event => rfl
  | tell serial waiter outcome => exact r.tell_reading size serial waiter outcome

theorem settle_reading (tasks : List Task) : (r.reading size).settle tasks = (r.settle tasks).reading size := by
  induction r, tasks using settle.induct with
  | case1 r => rw [settle, settle]
  | case2 r task tasks next ih =>
    rw [settle, settle, turn_reading]
    exact ih

theorem reply_reading (call : Message) (answering : Answering) :
    (r.reading size).reply call answering = (r.reply call answering).reading size := by
  simp only [reply, sendBuilt_reading]
  rcases r.sendBuilt (call.reply answering) with ⟨_ | _, sent, tasks⟩
  · simp only [andReading, settle_reading, sendBuilt_reading]
    split <;> rfl
  · exact settle_reading size sent tasks

theorem takeWaiter_reading (message : Message) :
    (r.reading size).takeWaiter message = ((r.takeWaiter message).1.reading size, (r.takeWaiter message).2) := by
  have hpending : (r.reading size).pending = r.pending := rfl
  rw [takeWaiter, takeWaiter, hpending]
  cases message.fields.replySerial with
  | none => rfl
  | some serial =>
    simp only
    cases hfound : r.pending.find? fun entry => entry.1 = serial <;> rfl

theorem route_reading (message : Message) : (r.reading size).route message = (r.route message).reading size := by
  cases htype : message.type with
  | methodReturn | error =>
    simp only [route, htype, takeWaiter_reading]
    exact settle_reading size _ _
  | signal =>
    simp only [route, htype]
    exact settle_reading size r _
  | methodCall =>
    have hserved : (r.reading size).served message = r.served message := rfl
    simp only [route, htype, hserved, settle_reading, reply_reading]
    split <;> rfl

theorem dispatch_reading (message : Message) : (r.reading size).dispatch message = (r.dispatch message).reading size := by
  obtain ⟨seen, hseen⟩ : ∃ seen, seen = (r.log (.arrived message)).settle ((r.log (.arrived message)).tapped message) :=
    ⟨_, rfl⟩
  have hsettled := (r.log (.arrived message)).settle_reading size ((r.log (.arrived message)).tapped message)
  rw [← hseen] at hsettled
  rw [dispatch, dispatch, ← hseen, ← route_reading]
  exact congrArg (fun r => (record r (.routed message)).route message) hsettled

theorem dispatchAll_reading (messages : List Message) :
    messages.foldl dispatch (r.reading size) = (messages.foldl dispatch r).reading size := by
  induction messages generalizing r with
  | nil => rfl
  | cons message messages ih => rw [List.foldl_cons, dispatch_reading, ih, List.foldl_cons]

end Router

namespace Connection

/-- the connection that reads so many bytes at a time -/
def reading (size : Nat) (c : Connection) : Connection := { c with router := c.router.reading size }

variable (size : Nat) (c : Connection)

theorem close_reading (reason : String) : (c.reading size).close reason = (c.close reason).reading size := by
  have hclose := c.router.close_reading size reason
  have hsettled := (c.router.close reason).1.settle_reading size (c.router.close reason).2
  simp only [close, reading, hclose, hsettled]

/-- the result of dealing with messages, and with an error behind them, which closes the connection -/
def dealt (r : Router) (messages : List Message) (buffer : FrameBuffer) : Option Error → Except Error Unit × Connection
  | none => (.ok (), ⟨messages.foldl Router.dispatch r, buffer⟩)
  | some e => (.error e, (Connection.mk (messages.foldl Router.dispatch r) buffer).close e.message)

/-- an open connection deals with all that the buffer gives out -/
theorem feed_drained {c : Connection} {chunk : List UInt8} {messages : List Message} {fault : Option Error}
    {buffer : FrameBuffer} (hopen : c.isClosed = false)
    (hdrain : (c.buffer.extend chunk).drain ((c.buffer.extend chunk).buffered + 1) = (messages, fault, buffer)) :
    c.feed chunk = dealt c.router messages buffer fault := by
  rw [feed, if_neg (by simp [hopen])]
  simp only [hdrain]
  cases fault <;> rfl

theorem dealt_reading (r : Router) (messages : List Message) (buffer : FrameBuffer) (fault : Option Error) :
    dealt (r.reading size) messages buffer fault
      = ((dealt r messages buffer fault).1, (dealt r messages buffer fault).2.reading size) := by
  cases fault with
  | none => rw [dealt, Router.dispatchAll_reading]; rfl
  | some e =>
    rw [dealt, Router.dispatchAll_reading]
    exact congrArg (Prod.mk _) (close_reading size ⟨messages.foldl Router.dispatch r, buffer⟩ e.message)

theorem feed_reading (chunk : List UInt8) :
    (c.reading size).feed chunk = ((c.feed chunk).1, (c.feed chunk).2.reading size) := by
  cases hclosed : c.isClosed with
  | true =>
    have hclosed' : (c.reading size).isClosed = true := hclosed
    rw [feed, feed, if_pos hclosed, if_pos hclosed']
  | false =>
    rcases hdrain : (c.buffer.extend chunk).drain ((c.buffer.extend chunk).buffered + 1) with ⟨messages, fault, buffer⟩
    rw [feed_drained hclosed hdrain, feed_drained (c := c.reading size) hclosed hdrain]
    exact dealt_reading size c.router messages buffer fault

theorem feedAll_reading (chunks : List (List UInt8)) :
    (c.reading size).feedAll chunks = ((c.feedAll chunks).1, (c.feedAll chunks).2.reading size) := by
  induction chunks generalizing c with
  | nil => rfl
  | cons chunk chunks ih =>
    rw [feedAll, feedAll, feed_reading]
    rcases c.feed chunk with ⟨_ | _, fed⟩
    · rfl
    · exact ih fed

end Connection

end MessageBus
