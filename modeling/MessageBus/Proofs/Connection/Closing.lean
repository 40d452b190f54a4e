/-
Closing is final, and leaves nobody waiting.

A connection is closed by its owner or by a callback, at the end of the stream, by a stream that cannot be cut into
messages, or by a transport that fails. Whoever waits for a reply at this moment, the call that fails to be sent included,
is owed the news with the reason, and is told so once: from then on the connection rests (`Router.Rests`), so that what
was told and what is owed stay the same taken together. `Closing` says so of a connection at any time, and
`Connection.closes_for_good` that it holds of every connection.
-/
import Mathlib
import MessageBus.Proofs.Connection.Closed
import MessageBus.Proofs.FrameBuffer.Stream

namespace MessageBus

/-! ## The moment of closing -/

/-- the waiter that was entered, with the serial of its call -/
def Moment.entered? : Moment → Option (UInt32 × Waiter)
  | .entered serial waiter => some (serial, waiter)
  | _ => none

/-- who was entered to wait for a reply, in order -/
def Router.entered (r : Router) : List (UInt32 × Waiter) := r.past.filterMap Moment.entered?

/-- what somebody who waits is owed when the connection is closed for a reason -/
def dismissal (reason : String) (entry : UInt32 × Waiter) : UInt32 × Waiter × CallOutcome :=
  (entry.1, entry.2, .error (.disconnected reason))

namespace Router

variable {r r' mid : Router} {more : List Moment} {owed owed' : List (UInt32 × Waiter × CallOutcome)} {reason : String}

theorem entered_append (h : r'.past = r.past ++ more) : r'.entered = r.entered ++ more.filterMap Moment.entered? := by
  rw [entered, entered, h, List.filterMap_append]

theorem close_entered (r : Router) (reason : String) : (r.close reason).1.entered = r.entered := by
  rw [entered_append (congrArg past (r.close_eq reason))]
  cases r.closed <;> simp [Moment.entered?]

theorem offered_entered (r : Router) (message : Message) (waiter : Option Waiter) (data : List UInt8) :
    (r.offered message waiter data).entered = r.entered ++ r.entry waiter := by
  rw [entered_append (by rw [offered, List.append_assoc])]
  cases waiter <;> rfl

theorem offered_told (r : Router) (message : Message) (waiter : Option Waiter) (data : List UInt8) :
    (r.offered message waiter data).told = r.told := by
  rw [told_append (by rw [offered, List.append_assoc])]
  cases waiter <;> exact List.append_nil _

theorem Still.entered_eq (h : r.Still r') : r'.entered = r.entered := by
  obtain ⟨more, hpast, hmore⟩ := h.past_eq
  have hnone : more.filterMap Moment.entered? = [] := by
    rw [List.filterMap_eq_nil_iff]
    intro m hm
    have hsilent := hmore m hm
    cases m <;> first | rfl | cases hsilent
  rw [entered_append hpast, hnone, List.append_nil]

/-- whoever waits when the connection is closed is owed the news, also whoever was entered just before -/
theorem Change.closes (h : Change r owed mid owed') (hopen : r.closed = none) (hclosed : mid.closed = some reason) :
    mid.told = r.told ∧ ∃ entered, mid.entered = r.entered ++ entered ∧
      owed' = (r.pending ++ entered).map (dismissal reason) ++ owed := by
  cases h with
  | rest | cancelling | replying | telling => exact absurd (hopen.symm.trans hclosed) (by simp)
  | sending owed message waiter =>
    have hsends := r.send_sends message waiter
    generalize r.send message waiter = sent at hsends hclosed ⊢
    cases hsends with
    | refused | unframed | taken => exact absurd (hopen.symm.trans hclosed) (by simp)
    | @failed data why =>
      have hreason : (r.offered message waiter data).closed.getD (Error.transport why).message = reason := by
        simpa using hclosed
      rw [show (r.offered message waiter data).closed = none from hopen, Option.getD_none] at hreason
      refine ⟨by rw [close_told, offered_told], r.entry waiter, by rw [close_entered, offered_entered], ?_⟩
      rw [close_owed, hreason]
      rfl
  | closing owed why =>
    have hreason : why = reason := by simpa [hopen] using hclosed
    refine ⟨close_told _ _, [], by rw [close_entered, List.append_nil], ?_⟩
    rw [close_owed, hreason, List.append_nil]
    rfl

end Router

section Closing

variable {config : Config} {transport : Transport} {first r : Router} {todo jobs left : List Job} {job : Job}
  {reason : String} {c : Connection}

/-- the turn that closes a connection: whoever waits is owed the news, and whoever is told so later was owed it -/
theorem Reachable.turn_closes (h : Reachable config transport r (job :: left)) (hopen : r.closed = none)
    (hclosed : (job.turn r).1.closed = some reason) :
    ∃ entered, (job.turn r).1.entered = r.entered ++ entered ∧
      ∀ r' jobs', Later (job.turn r).1 ((job.turn r).2 ++ left) r' jobs' →
        r'.told ++ owedBy jobs' = r.told ++ ((r.pending ++ entered).map (dismissal reason) ++ owedBy (job :: left)) := by
  obtain ⟨⟨mid, hchange, hstill⟩, -⟩ := Job.turn_moves (List.forall_mem_cons.1 h.isSilent).1 r left
  obtain ⟨htold, entered, hentered, howed⟩ := hchange.closes hopen (hstill.closed_eq ▸ hclosed)
  refine ⟨entered, hstill.entered_eq.trans hentered, fun r' jobs' hlater => ?_⟩
  have hrests := h.turn.rests (by rw [hclosed]; rfl) hlater
  rw [hrests.told_eq, hstill.told_eq, htold, howed]

/-- whatever is still to be done comes to an end -/
theorem Later.finish (h : Later first todo r jobs) : ∃ r', Later first todo r' [] := by
  induction jobs generalizing r with
  | nil => exact ⟨r, h⟩
  | cons job jobs ih =>
    suffices hdone : ∃ r', Later first todo r' jobs from hdone.elim fun _ => ih
    cases job with
    | task given =>
      have hgiven : Later first todo r ([given].map .task ++ jobs) := h
      exact ⟨_, hgiven.settle⟩
    | own action => exact ⟨_, h.turn.settle⟩
    | close reason => exact ⟨_, h.turn.settle⟩
    | deal message => exact ⟨_, h.dispatch⟩
    | route message => exact ⟨_, h.route⟩
    | answer call answering => exact ⟨_, h.reply⟩
    | excuse call e =>
      have hturn := h.turn
      rw [Job.turn] at hturn
      split at hturn
      · exact ⟨_, hturn⟩
      · exact ⟨_, hturn.settle⟩

theorem Router.Change.heard {mid : Router} {owed owed' : List (UInt32 × Waiter × CallOutcome)}
    (h : Router.Change r owed mid owed') (hr : Heard r.past) : Heard mid.past := by
  have hoffered (message : Message) (waiter : Option Waiter) (data : List UInt8) :
      Heard (r.offered message waiter data).past := by
    rw [Router.offered, List.append_assoc]
    refine hr.append ?_
    cases waiter <;> rfl
  have hclose {r : Router} (hr : Heard r.past) (reason : String) : Heard (r.close reason).1.past := by
    rw [Router.close_eq]
    refine hr.append ?_
    cases r.closed <;> rfl
  cases h with
  | rest | cancelling | replying => exact hr
  | sending owed message waiter =>
    have hsends := r.send_sends message waiter
    generalize r.send message waiter = sent at hsends ⊢
    cases hsends with
    | refused => exact hr
    | unframed => exact hr.append rfl
    | taken => exact hoffered _ _ _
    | failed => exact hclose (hoffered _ _ _) _
  | closing owed reason => exact hclose hr reason
  | telling _ s w o handles =>
    refine hr.append ?_
    cases w <;> rfl

/-- callbacks run for just the outcomes that they are told -/
theorem Reachable.heard (h : Reachable config transport r jobs) : Heard r.past := by
  refine h.holds (P := fun r _ => Heard r.past) rfl (fun _ _ _ _ _ hchange => hchange.heard) fun r r' _ hstill hr => ?_
  obtain ⟨more, hpast, hmore⟩ := hstill.past_eq
  have hsilent : Heard more := by
    rw [Heard, List.filterMap_filterMap]
    refine List.filterMap_congr fun m hm => ?_
    have hm := hmore m hm
    cases m with
    | seen event => cases event <;> first | rfl | cases hm
    | told => cases hm
    | _ => rfl
  rw [hpast]
  exact hr.append hsilent

/-! ## The ways to close -/

theorem Reachable.settle_closed {tasks : List Task} (h : Reachable config transport r (tasks.map .task ++ []))
    (hclosed : r.closed = some reason) : (r.settle tasks).closed = some reason :=
  (h.rests (by rw [hclosed]; rfl) Later.refl.settle).closed_eq.trans hclosed

theorem Reachable.close_closed (h : Reachable config transport c.router []) (reason : String) :
    (c.close reason).router.closed = some (c.router.closed.getD reason) :=
  ((h.begin (.close reason) rfl).turn).settle_closed (c.router.close_closed reason)

/-- the owner closes the connection, with the reason that is given first -/
theorem Reachable.act_close (h : Reachable config transport c.router []) (reason : String) :
    (c.act (.close reason)).2.router.closed = some (c.router.closed.getD reason) :=
  ((h.begin (.own (.close reason)) rfl).turn).settle_closed (c.router.close_closed reason)

theorem Reachable.close_isClosed (h : Reachable config transport c.router []) (reason : String) :
    (c.close reason).isClosed = true := by
  rw [Connection.isClosed, h.close_closed]
  rfl

/-- a stream that cannot be cut into messages closes the connection, unless a message before has done so -/
theorem Reachable.feed_closed {chunk : List UInt8} {e : Error} (h : Reachable config transport c.router [])
    (hopen : c.isClosed = false) (he : (c.feed chunk).1 = .error e) :
    ∃ messages buffer,
      (c.buffer.extend chunk).drain ((c.buffer.extend chunk).buffered + 1) = (messages, some e, buffer) ∧
        (c.feed chunk).2.router.closed = some ((messages.foldl Router.dispatch c.router).closed.getD e.message) := by
  have hno : ¬c.isClosed = true := by simp [hopen]
  rw [Connection.feed, if_neg hno] at he ⊢
  rcases hdrain : (c.buffer.extend chunk).drain ((c.buffer.extend chunk).buffered + 1) with ⟨messages, _ | e', buffer⟩
  · simp only [hdrain] at he
    cases he
  · simp only [hdrain] at he ⊢
    cases he
    have hdealt : Reachable config transport (Connection.mk (messages.foldl Router.dispatch c.router) buffer).router [] :=
      h.dispatchAll messages
    exact ⟨messages, buffer, rfl, hdealt.close_closed e.message⟩

/-- the same, where it is known what the stream has in front of what breaks it -/
theorem Reachable.feed_broken {maxSize : Nat} {stream rest : List UInt8} {messages : List Message} {e : Error}
    (h : Reachable config transport c.router []) (hopen : c.isClosed = false) (hholds : c.buffer.Holds maxSize [] none)
    (htaken : FrameBuffer.takeAll maxSize stream = ⟨messages, some e, rest⟩) : (c.feed stream).1 = .error e ∧
      (c.feed stream).2.router.closed = some ((messages.foldl Router.dispatch c.router).closed.getD e.message) := by
  obtain ⟨buffer, hdrain, -⟩ := FrameBuffer.drain_extend hholds stream
  rw [List.nil_append, htaken] at hdrain
  have hfeed : (c.feed stream).1 = .error e := by
    rw [Connection.feed, if_neg (by simp [hopen])]
    simp only [hdrain]
  obtain ⟨messages', buffer', hdrain', hclosed⟩ := h.feed_closed hopen hfeed
  cases hdrain.symm.trans hdrain'
  exact ⟨hfeed, hclosed⟩

theorem Reachable.feed_isClosed {chunk : List UInt8} {e : Error} (h : Reachable config transport c.router [])
    (he : (c.feed chunk).1 = .error e) : (c.feed chunk).2.isClosed = true := by
  cases hclosed : c.isClosed with
  | true =>
    rw [Connection.feed, if_pos hclosed]
    exact hclosed
  | false =>
    obtain ⟨messages, buffer, -, hreason⟩ := h.feed_closed hclosed he
    rw [Connection.isClosed, hreason]
    rfl

theorem Reachable.feedAll_isClosed {chunks : List (List UInt8)} {e : Error} (h : Reachable config transport c.router [])
    (he : (c.feedAll chunks).1 = .error e) : (c.feedAll chunks).2.isClosed = true := by
  induction chunks generalizing c with
  | nil => cases he
  | cons chunk chunks ih =>
    have hfed := h.later (Later.refl.feed chunk)
    rw [Connection.feedAll] at he ⊢
    rcases hresult : c.feed chunk with ⟨e' | _, fed⟩ <;> simp only [hresult] at he hfed ⊢
    · have hclosed : (c.feed chunk).2.isClosed = true := h.feed_isClosed (e := e') (by rw [hresult])
      rwa [hresult] at hclosed
    · exact ih hfed he

/-- whatever a source yields, reading it closes the connection -/
theorem Reachable.run_isClosed (arrivals : List Arrival) (h : Reachable config transport c.router []) :
    (c.run arrivals).2.isClosed = true := by
  induction arrivals generalizing c with
  | nil => exact h.close_isClosed _
  | cons arrival arrivals ih =>
    match arrival with
    | .bytes [] => exact h.close_isClosed _
    | .interrupted => exact ih h
    | .failed reason => exact h.close_isClosed _
    | .bytes (byte :: data) =>
      have hfed := h.later (Later.refl.feedAll (chunks c.router.config.readChunkSize (byte :: data)))
      rw [Connection.run]
      · rcases hresult : c.feedAll (chunks c.router.config.readChunkSize (byte :: data)) with ⟨e | _, fed⟩ <;>
          rw [hresult] at hfed
        · have hclosed := h.feedAll_isClosed (e := e) (by rw [hresult])
          rwa [hresult] at hclosed
        · exact ih hfed
      · simp

/-! ## What is refused -/

/-- an action that sends a message, makes a call that is answered, or takes bytes -/
def Action.isUse : Action → Bool
  | .send _ => true
  | .invoke message _ _ | .call message => message.expectsReply
  | .feed chunks => !chunks.isEmpty
  | _ => false

theorem Router.sendCall_refused {message : Message} (hclosed : r.closed.isSome = true)
    (hreply : message.expectsReply = true) (waiter : Waiter) :
    r.sendCall message waiter = (.error .closed, r, []) := by
  rw [sendCall, if_pos hreply, send_refused hclosed]

/-- a closed connection refuses to be used, and keeps everything but the past as it was -/
theorem Router.perform_refused {action : Action} (hclosed : r.closed.isSome = true) (huse : action.isUse = true) :
    ∃ past, r.perform action = (.failed .closed, { r with past }, []) := by
  refine ⟨r.past ++ [.acted action (.failed .closed)], ?_⟩
  cases action with
  | send message =>
    rw [perform, effect, send_refused hclosed]
    rfl
  | invoke message label script =>
    rw [perform, effect, sendCall_refused hclosed huse]
    rfl
  | call message =>
    rw [perform, effect, sendCall_refused hclosed huse]
    rfl
  | feed chunks => rfl
  | _ => cases huse

theorem Connection.feed_refused (hclosed : c.isClosed = true) (chunk : List UInt8) :
    c.feed chunk = (.error .closed, c) := by
  rw [Connection.feed, if_pos hclosed]

theorem Connection.act_refused {action : Action} (hclosed : c.isClosed = true) (huse : action.isUse = true) :
    ∃ past, c.act action = (.failed .closed, { c with router := { c.router with past } }) := by
  have hown : ∃ past, ((c.router.act action).1, { c with router := (c.router.act action).2 })
      = (Answer.failed .closed, { c with router := { c.router with past } }) := by
    obtain ⟨past, hpast⟩ := Router.perform_refused hclosed huse
    exact ⟨past, by simp only [Router.act, hpast, Router.settle]⟩
  cases action with
  | feed chunks =>
    cases chunks with
    | nil => cases huse
    | cons chunk chunks =>
      refine ⟨c.router.past, ?_⟩
      rw [Connection.act, Connection.feedAll, Connection.feed_refused hclosed]
      rfl
  | run => cases huse
  | _ => exact hown

end Closing

/-! ## Closed for good -/

/-- what holds of the closing of a connection, with jobs that are still to be done; with none it is between operations -/
structure ClosesForGood (r : Router) (jobs : List Job) : Prop where
  /-- nobody waits for a reply on a closed connection -/
  nobody_waits : r.closed.isSome = true → r.pending = []
  /-- it stays closed for the same reason, and just those are told an outcome who are owed it -/
  rests : r.closed.isSome = true → ∀ r' jobs', Later r jobs r' jobs' → r.Rests (owedBy jobs) r' (owedBy jobs')
  /-- it refuses to be used by callbacks -/
  perform_refused : r.closed.isSome = true → ∀ action, action.isUse = true →
    ∃ past, r.perform action = (.failed .closed, { r with past }, [])
  /-- and by its owner -/
  act_refused : r.closed.isSome = true → ∀ buffer action, action.isUse = true →
    ∃ past, (Connection.mk r buffer).act action = (.failed .closed, ⟨{ r with past }, buffer⟩)
  feed_refused : r.closed.isSome = true → ∀ buffer chunk,
    (Connection.mk r buffer).feed chunk = (.error .closed, ⟨r, buffer⟩)
  /-- whoever waits when a turn closes the connection, or was entered in this turn, is owed the news and its reason, and
  from then on just these are told an outcome, and those who were owed one before -/
  turn_closes : r.closed = none → ∀ job left reason, jobs = job :: left → (job.turn r).1.closed = some reason →
    ∃ entered, (job.turn r).1.entered = r.entered ++ entered ∧
      ∀ r' jobs', Later (job.turn r).1 ((job.turn r).2 ++ left) r' jobs' →
        r'.told ++ owedBy jobs' = r.told ++ ((r.pending ++ entered).map (dismissal reason) ++ owedBy jobs)
  /-- whoever is owed an outcome is told so in the end -/
  finish : ∃ r', Later r jobs r' []
  /-- callbacks run for just the outcomes that they are told -/
  heard : r.journal.filterMap Event.reply? = r.past.filterMap Moment.run?
  /-- the owner closes the connection -/
  act_close : jobs = [] → ∀ buffer reason,
    ((Connection.mk r buffer).act (.close reason)).2.router.closed = some (r.closed.getD reason)
  /-- so does the end of a source, or its failure -/
  run_closes : jobs = [] → ∀ buffer arrivals, ((Connection.mk r buffer).run arrivals).2.isClosed = true
  /-- and a transport that fails -/
  send_closes : r.closed = none → ∀ message waiter data why, (r.numbered message).marshal = .ok data →
    (r.link.send data).1 = .error why → (r.send message waiter).1 = .error (.transport why) ∧
      (r.send message waiter).2.1.closed = some (Error.transport why).message
  /-- and a stream that cannot be cut into messages, unless dealing with a message before has closed it: then the reason
  that was given there stays, be it that of a callback or of an answer that could not be written -/
  feed_closes : jobs = [] → r.closed = none → ∀ buffer chunk e, ((Connection.mk r buffer).feed chunk).1 = .error e →
    ∃ messages rest, (buffer.extend chunk).drain ((buffer.extend chunk).buffered + 1) = (messages, some e, rest) ∧
      ((Connection.mk r buffer).feed chunk).2.router.closed =
        some ((messages.foldl Router.dispatch r).closed.getD e.message)

/-- **Closing is final and leaves nobody waiting.** Whatever the owner of a new connection does leads to a reachable
state. In each of these, between operations or in the middle of one, a closed connection is closed for good, and
whatever closes it leaves nobody waiting. -/
theorem Connection.closes_for_good (config : Config) (transport : Transport) :
    (∀ actions, Reachable config transport ((Connection.new config transport).runAll actions).router []) ∧
      ∀ r jobs, Reachable config transport r jobs → ClosesForGood r jobs := by
  refine ⟨Reachable.runAll config transport, fun r jobs h => ?_⟩
  refine {
    nobody_waits := h.nobody_waits
    rests := fun hclosed r' jobs' hlater => h.rests hclosed hlater
    perform_refused := fun hclosed action huse => Router.perform_refused hclosed huse
    act_refused := fun hclosed buffer action huse => Connection.act_refused (c := ⟨r, buffer⟩) hclosed huse
    feed_refused := fun hclosed buffer chunk => Connection.feed_refused (c := ⟨r, buffer⟩) hclosed chunk
    turn_closes := ?_
    finish := Later.refl.finish
    heard := h.heard
    act_close := ?_
    run_closes := ?_
    send_closes := fun hopen message waiter data why hdata hlink => ?_
    feed_closes := ?_ }
  · rintro hopen job left reason rfl hclosed
    exact h.turn_closes hopen hclosed
  · rintro rfl buffer reason
    exact h.act_close (c := ⟨r, buffer⟩) reason
  · rintro rfl buffer arrivals
    exact h.run_isClosed (c := ⟨r, buffer⟩) arrivals
  · have hoffered : (r.offered message waiter data).closed = none := hopen
    rw [Router.send_framed hopen hdata, hlink]
    exact ⟨rfl, by rw [Router.close_closed, hoffered, Option.getD_none]⟩
  · rintro rfl hopen buffer chunk e he
    exact h.feed_closed (c := ⟨r, buffer⟩) (by rw [Connection.isClosed, hopen]; rfl) he

def asks : Message := { type := .methodCall, fields := { path := some "/", member := some "M" } }

/-- two calls are pending when the connection is closed; the callback of the first one tries to send another -/
def dismissed : Router :=
  ((Connection.new {} .reliable).runAll [.invoke asks "first" [.send asks], .call asks, .close "bye"]).router

theorem Connection.closes_for_good_dismissed :
    Reachable {} .reliable dismissed [] ∧ ClosesForGood dismissed [] ∧ dismissed.closed = some "bye" ∧
      dismissed.told = dismissed.entered.map (dismissal "bye") ∧ dismissed.entered.map Prod.fst = [1, 2] := by
  have hreachable := (Connection.closes_for_good {} .reliable).1
    [.invoke asks "first" [.send asks], .call asks, .close "bye"]
  exact ⟨hreachable, (Connection.closes_for_good {} .reliable).2 dismissed [] hreachable, by cbv, by cbv, by cbv⟩

/-- every message closes the connection -/
def guarded : Connection := (Connection.new {} .reliable).runAll [.tap "guard" [.close "bye"]]

/-- a reply, and what is no frame -/
def brokenStream : List UInt8 :=
  [108, 2, 0, 1, 0, 0, 0, 0, 1, 0, 0, 0, 8, 0, 0, 0, 5, 1, 117, 0, 1, 0, 0, 0] ++ 63 :: List.replicate 15 0

theorem takeAll_brokenStream : FrameBuffer.takeAll maxMessageSize brokenStream =
    ⟨[{ type := .methodReturn, serial := 1, fields := { replySerial := some 1 } }], some (.invalidByteOrder 63),
      63 :: List.replicate 15 0⟩ := by
  have hreply : FrameBuffer.front maxMessageSize brokenStream =
      .frame 24 (.ok { type := .methodReturn, serial := 1, fields := { replySerial := some 1 } }) := by cbv
  have hbroken : FrameBuffer.front maxMessageSize (brokenStream.drop 24) = .unframed (.invalidByteOrder 63) := by cbv
  rw [FrameBuffer.takeAll_message hreply, FrameBuffer.takeAll_unframed hbroken]
  rfl

/-- a transport that takes nothing -/
def full : Transport := .limited (some (0, "full")) none none

/-- a call that nobody serves, and what is no frame -/
def brokenCall : List UInt8 :=
  [108, 1, 0, 1, 0, 0, 0, 0, 9, 0, 0, 0, 26, 0, 0, 0, 1, 1, 111, 0, 1, 0, 0, 0, 47, 0, 0, 0, 0, 0, 0, 0,
    3, 1, 115, 0, 1, 0, 0, 0, 77, 0, 0, 0, 0, 0, 0, 0] ++ 63 :: List.replicate 15 0

theorem takeAll_brokenCall : FrameBuffer.takeAll maxMessageSize brokenCall =
    ⟨[{ asks with serial := 9 }], some (.invalidByteOrder 63), 63 :: List.replicate 15 0⟩ := by
  have hcall : FrameBuffer.front maxMessageSize brokenCall = .frame 48 (.ok { asks with serial := 9 }) := by cbv
  have hbroken : FrameBuffer.front maxMessageSize (brokenCall.drop 48) = .unframed (.invalidByteOrder 63) := by cbv
  rw [FrameBuffer.takeAll_message hcall, FrameBuffer.takeAll_unframed hbroken]
  rfl

theorem Link.send_full {link : Link} (h : link.transport = full) {data : List UInt8} (hdata : data ≠ []) :
    (link.send data).1 = .error "full" := by
  have hwrite : link.transport.write link.uses link.sent.length data.length = .error "full" := by
    rw [h]
    simp [full, Transport.limited]
  rw [send, writeAll, if_neg (by simpa using hdata), hwrite]

/-- an answer that cannot be written closes the connection -/
theorem Router.reply_unwritten {r : Router} {call message : Message} {answering : Answering} {data : List UInt8}
    {why : String} (hopen : r.closed = none) (hnobody : r.pending = []) (hreply : call.reply answering = .ok message)
    (hdata : (r.numbered message).marshal = .ok data) (hlink : (r.link.send data).1 = .error why) :
    (r.reply call answering).closed = some (Error.transport why).message := by
  have htasks : ((r.offered message none data).close (Error.transport why).message).2 = [] := by
    rw [close_tasks, List.map_eq_nil_iff]
    exact List.append_eq_nil_iff.2 ⟨hnobody, rfl⟩
  have hoffered : (r.offered message none data).closed = none := hopen
  have hfatal : (Error.transport why).isFatal = true := rfl
  rw [reply, hreply, sendBuilt, send_framed hopen hdata, hlink]
  simp only [hfatal, if_true, htasks]
  rw [settle, close_closed, hoffered, Option.getD_none]

/-- the answer to a call that nobody serves -/
def nobodyServes : Message where
  type := .error
  fields := { errorName := some unknownMethodName, replySerial := some 9 }
  body := .ofString "no method M on /"

theorem dispatch_full : ((Connection.new {} full).router.dispatch { asks with serial := 9 }).closed
    = some "transport error: full" := by
  let call : Message := { asks with serial := 9 }
  let r := ((Connection.new {} full).router.log (.arrived call)).record (.routed call)
  have hreply : call.reply (.error call.unknownMethod) = .ok nobodyServes := by cbv
  have hdispatch : (Connection.new {} full).router.dispatch call = r.reply call (.error call.unknownMethod) := by
    have hserved : r.served call = (.error call.unknownMethod, []) := rfl
    have hexpects : call.expectsReply = true := by decide
    rw [Router.dispatch, show Router.tapped _ call = [] from rfl, Router.settle, Router.route]
    change (if call.expectsReply then ((r.settle (r.served call).2).reply call (r.served call).1) else _) = _
    rw [hserved, Router.settle, if_pos hexpects]
  obtain ⟨data, hdata, hsome⟩ : ∃ data, (r.numbered nobodyServes).marshal = .ok data ∧ data ≠ [] := by
    have hlength : (r.numbered nobodyServes).marshal.toOption.map List.length = some 109 := by cbv
    cases hdata : (r.numbered nobodyServes).marshal with
    | error e =>
      rw [hdata] at hlength
      cases hlength
    | ok data =>
      rw [hdata] at hlength
      refine ⟨data, rfl, fun hnil => ?_⟩
      rw [hnil] at hlength
      cases hlength
  exact hdispatch ▸ Router.reply_unwritten rfl rfl hreply hdata (Link.send_full rfl hsome)

/-- a stream that breaks does not always give the reason: a callback has closed the connection before, or there was a call
to be answered that nobody serves, and the answer could not be written -/
theorem Connection.feed_guarded :
    (Reachable {} .reliable guarded.router [] ∧ guarded.isClosed = false ∧
      (guarded.feed brokenStream).1 = .error (.invalidByteOrder 63) ∧
      (guarded.feed brokenStream).2.router.closed = some "bye" ∧
      some "bye" ≠ some (Error.invalidByteOrder 63).message) ∧
    (Reachable {} full (Connection.new {} full).router [] ∧ (Connection.new {} full).isClosed = false ∧
      ((Connection.new {} full).feed brokenCall).1 = .error (.invalidByteOrder 63) ∧
      ((Connection.new {} full).feed brokenCall).2.router.closed = some "transport error: full" ∧
      some "transport error: full" ≠ some (Error.invalidByteOrder 63).message) := by
  refine ⟨?_, ?_⟩
  · have hreachable : Reachable {} .reliable guarded.router [] :=
      Reachable.runAll {} .reliable [.tap "guard" [.close "bye"]]
    have hopen : guarded.isClosed = false := by cbv
    have hdealt : (guarded.router.dispatch
        { type := .methodReturn, serial := 1, fields := { replySerial := some 1 } }).closed = some "bye" := by cbv
    obtain ⟨hfeed, hclosed⟩ := hreachable.feed_broken hopen (FrameBuffer.holds_new maxMessageSize) takeAll_brokenStream
    refine ⟨hreachable, hopen, hfeed, ?_, by decide⟩
    rw [hclosed, List.foldl_cons, List.foldl_nil, hdealt, Option.getD_some]
  · have hreachable : Reachable {} full (Connection.new {} full).router [] := .new
    have hopen : (Connection.new {} full).isClosed = false := rfl
    obtain ⟨hfeed, hclosed⟩ := hreachable.feed_broken hopen (FrameBuffer.holds_new maxMessageSize) takeAll_brokenCall
    refine ⟨hreachable, hopen, hfeed, ?_, by decide⟩
    rw [hclosed, List.foldl_cons, List.foldl_nil, dispatch_full, Option.getD_some]

end MessageBus
