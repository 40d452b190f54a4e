/-
What is done behind the message that closes a connection.

A connection asks whether it is closed when a chunk is fed to it, and not again before it has dealt with all of the
messages in this chunk. So when dealing with one of them closes the connection, the others are late: they are dealt with
all the same, by the taps, listeners and handlers that there are (`Connection.feed_late`), although no answer to them can
be sent. In a chunk of their own they are refused.
-/
import MessageBus.Proofs.Connection.Feeding

namespace MessageBus

open FrameBuffer (takeAll front)

/-! ## Late messages -/

namespace Router

/-- the router once it is closed, and the messages that are late then; or once it has dealt with all of them -/
def untilClosed (r : Router) : List Message → Router × List Message
  | [] => (r, [])
  | message :: messages =>
    if (r.dispatch message).closed.isSome then (r.dispatch message, messages) else (r.dispatch message).untilClosed messages

variable {config : Config} {transport : Transport} {r : Router}

theorem foldl_untilClosed (r : Router) (messages : List Message) :
    (r.untilClosed messages).2.foldl dispatch (r.untilClosed messages).1 = messages.foldl dispatch r := by
  induction messages generalizing r with
  | nil => rfl
  | cons message messages ih =>
    rw [untilClosed]
    split
    · rfl
    · exact ih _

/-- messages are late only on a closed connection -/
theorem untilClosed_closed (messages : List Message) (hlate : (r.untilClosed messages).2 ≠ []) :
    (r.untilClosed messages).1.closed.isSome = true := by
  induction messages generalizing r with
  | nil => exact absurd rfl hlate
  | cons message messages ih =>
    rw [untilClosed] at hlate ⊢
    split
    · assumption
    · next hopen => exact ih (by rwa [if_neg hopen] at hlate)

theorem reachable_untilClosed (messages : List Message) (h : Reachable config transport r []) :
    Reachable config transport (r.untilClosed messages).1 [] := by
  induction messages generalizing r with
  | nil => exact h
  | cons message messages ih =>
    have hdealt := h.dispatchAll [message]
    rw [untilClosed]
    split
    · exact hdealt
    · exact ih hdealt

theorem dealingsOfAll_eq_nil {messages : List Message} : r.dealingsOfAll messages = [] ↔ messages = [] := by
  cases messages with
  | nil => exact iff_of_true rfl rfl
  | cons message messages => simp [dealingsOfAll, dealingsOf]

end Router

namespace Connection

variable {config : Config} {transport : Transport} {c : Connection}

/-- nothing is done about a message of a chunk behind the one that closes the connection -/
def ClosesAtOnce (c : Connection) (chunk : List UInt8) : Prop :=
  ∀ messages fault buffer,
    (c.buffer.extend chunk).drain ((c.buffer.extend chunk).buffered + 1) = (messages, fault, buffer) →
      (c.feed chunk).2.router.dealings = (c.router.untilClosed messages).1.dealings

theorem dealt_late (r : Router) (messages : List Message) (buffer : FrameBuffer) (fault : Option Error) :
    (dealt r messages buffer fault).2.router.dealings
      = (r.untilClosed messages).1.dealings ++ (r.untilClosed messages).1.dealingsOfAll (r.untilClosed messages).2 := by
  calc (dealt r messages buffer fault).2.router.dealings
    _ = r.dealings ++ r.dealingsOfAll messages := dealt_dealings r messages buffer fault
    _ = (messages.foldl Router.dispatch r).dealings := (r.dispatchAll_dealings messages).symm
    _ = ((r.untilClosed messages).2.foldl Router.dispatch (r.untilClosed messages).1).dealings := by
      rw [Router.foldl_untilClosed]
    _ = _ := Router.dispatchAll_dealings _ _

/-- dealing with late messages does not change what was sent and who was told -/
theorem dealt_rests {messages : List Message} (h : Reachable config transport c.router [])
    (hlate : (c.router.untilClosed messages).2 ≠ []) (buffer : FrameBuffer) (fault : Option Error) :
    (c.router.untilClosed messages).1.Rests [] (dealt c.router messages buffer fault).2.router [] := by
  have hdealt := (Later.refl : Later (c.router.untilClosed messages).1 [] _ []).dispatchAll (c.router.untilClosed messages).2
  rw [Router.foldl_untilClosed] at hdealt
  have hlater : Later (c.router.untilClosed messages).1 [] (dealt c.router messages buffer fault).2.router [] := by
    cases fault with
    | none => exact hdealt
    | some e => exact Later.close (c := ⟨_, buffer⟩) e.message hdealt
  exact (Router.reachable_untilClosed messages h).rests (Router.untilClosed_closed messages hlate) hlater

/-- **Late messages are dealt with all the same, unless they come in a chunk of their own.** An open connection deals
with all messages of a chunk, also with those behind one that has closed it, while it rests otherwise. So it closes at
once only if there are none of these; and a closed connection refuses the next chunk. -/
theorem feed_late (h : Reachable config transport c.router []) (hopen : c.isClosed = false) {chunk : List UInt8}
    {messages : List Message} {fault : Option Error} {buffer : FrameBuffer}
    (hdrain : (c.buffer.extend chunk).drain ((c.buffer.extend chunk).buffered + 1) = (messages, fault, buffer)) :
    (c.feed chunk).2.router.dealings = (c.router.untilClosed messages).1.dealings
        ++ (c.router.untilClosed messages).1.dealingsOfAll (c.router.untilClosed messages).2 ∧
      ((c.router.untilClosed messages).2 ≠ [] → (c.router.untilClosed messages).1.closed.isSome = true ∧
        (c.router.untilClosed messages).1.Rests [] (c.feed chunk).2.router []) ∧
      (c.ClosesAtOnce chunk ↔ (c.router.untilClosed messages).2 = []) ∧
      ∀ fed, c.feed chunk = (.ok (), fed) → fed.isClosed = true → ∀ more,
        c.feedAll [chunk, more] = (.error .closed, fed) := by
  have hlate := dealt_late c.router messages buffer fault
  have hrests (hsome : (c.router.untilClosed messages).2 ≠ []) := dealt_rests h hsome buffer fault
  rw [← feed_drained hopen hdrain] at hlate hrests
  refine ⟨hlate, fun hsome => ⟨Router.untilClosed_closed messages hsome, hrests hsome⟩, ⟨fun hatonce => ?_, ?_⟩, ?_⟩
  · -- a late message has at least one dealing, its arrival
    have hsame := hatonce messages fault buffer hdrain
    rw [hlate, List.append_right_eq_self, Router.dealingsOfAll_eq_nil] at hsame
    exact hsame
  · intro hnone messages' fault' buffer' hdrain'
    cases hdrain.symm.trans hdrain'
    rw [hlate, hnone]
    exact List.append_nil _
  · intro fed hfed hclosed more
    simp only [feedAll, hfed, feed_refused hclosed]

/-- a reply that nobody waits for -/
def strayReply : Message := { type := .methodReturn, serial := 1, fields := { replySerial := some 1 } }

def strayFrame : List UInt8 := [108, 2, 0, 1, 0, 0, 0, 0, 1, 0, 0, 0, 8, 0, 0, 0, 5, 1, 117, 0, 1, 0, 0, 0]

theorem takeAll_strayFrame : takeAll maxMessageSize strayFrame = ⟨[strayReply], none, []⟩ := by
  have hfirst : front maxMessageSize strayFrame = .frame 24 (.ok strayReply) := by cbv
  have hnothing : front maxMessageSize (strayFrame.drop 24) = .incomplete := FrameBuffer.front_short (by decide)
  rw [FrameBuffer.takeAll_message hfirst, FrameBuffer.takeAll_incomplete hnothing]
  rfl

theorem takeAll_strayFrames : takeAll maxMessageSize (strayFrame ++ strayFrame) = ⟨[strayReply, strayReply], none, []⟩ := by
  have hfirst : front maxMessageSize (strayFrame ++ strayFrame) = .frame 24 (.ok strayReply) := by cbv
  rw [FrameBuffer.takeAll_message hfirst, show (strayFrame ++ strayFrame).drop 24 = strayFrame from rfl, takeAll_strayFrame]
  rfl

theorem holds_guarded : guarded.buffer.Holds maxMessageSize [] none := FrameBuffer.holds_new maxMessageSize

theorem dispatch_guarded : (guarded.router.dispatch strayReply).closed = some "bye" := by cbv

theorem untilClosed_guarded :
    guarded.router.untilClosed [strayReply, strayReply] = (guarded.router.dispatch strayReply, [strayReply]) := by
  rw [Router.untilClosed, if_pos (by rw [dispatch_guarded]; rfl)]

theorem reachable_guarded : Reachable {} .reliable guarded.router [] :=
  Reachable.runAll {} .reliable [.tap "guard" [.close "bye"]]

/-- the guard sees the second reply on a connection that it has closed itself -/
theorem feed_late_guarded :
    Reachable {} .reliable guarded.router [] ∧ guarded.isClosed = false ∧
      (guarded.router.dispatch strayReply).closed = some "bye" ∧
      (guarded.feed (strayFrame ++ strayFrame)).2.router.dealings = (guarded.router.dispatch strayReply).dealings
        ++ [.seen (.arrived strayReply), .seen (.tapped "guard" strayReply), .routed strayReply] ∧
      ¬guarded.ClosesAtOnce (strayFrame ++ strayFrame) := by
  have hopen : guarded.isClosed = false := by cbv
  obtain ⟨buffer, hdrain, -⟩ := FrameBuffer.drain_extend holds_guarded (strayFrame ++ strayFrame)
  rw [List.nil_append, takeAll_strayFrames] at hdrain
  obtain ⟨hlate, -, hatonce, -⟩ := feed_late reachable_guarded hopen hdrain
  rw [untilClosed_guarded] at hlate hatonce
  have hseen : (guarded.router.dispatch strayReply).dealingsOfAll [strayReply]
      = [.seen (.arrived strayReply), .seen (.tapped "guard" strayReply), .routed strayReply] := by cbv
  exact ⟨reachable_guarded, hopen, dispatch_guarded, hlate.trans (congrArg _ hseen), fun h => absurd (hatonce.1 h) (by simp)⟩

/-- a connection does not close at once, as it would if the second reply came in a chunk of its own -/
theorem not_closesAtOnce_guarded :
    Reachable {} .reliable guarded.router [] ∧ ¬guarded.ClosesAtOnce (strayFrame ++ strayFrame) ∧
      (guarded.feedAll [strayFrame, strayFrame]).1 = .error .closed ∧
      (guarded.feedAll [strayFrame, strayFrame]).2.router = guarded.router.dispatch strayReply := by
  have hopen : guarded.isClosed = false := by cbv
  refine ⟨reachable_guarded, fun hatonce => ?_, ?_⟩
  · obtain ⟨buffer, hdrain, -⟩ := FrameBuffer.drain_extend holds_guarded (strayFrame ++ strayFrame)
    rw [List.nil_append, takeAll_strayFrames] at hdrain
    have hsame := hatonce _ _ buffer hdrain
    rw [feed_drained hopen hdrain, dealt_late, untilClosed_guarded, List.append_right_eq_self,
      Router.dealingsOfAll_eq_nil] at hsame
    exact absurd hsame (by simp)
  · obtain ⟨buffer, hfed, -⟩ := feed_eq hopen holds_guarded strayFrame
    rw [List.nil_append, takeAll_strayFrame] at hfed
    have hclosed : (Connection.mk (guarded.router.dispatch strayReply) buffer).isClosed = true := by
      rw [isClosed, dispatch_guarded]
      rfl
    simp only [feedAll, hfed, dealt, List.foldl_cons, List.foldl_nil, feed_refused hclosed, and_self]

end Connection

end MessageBus
