/-
What is done about an incoming message.

The past of a connection also holds what scripts do. The moments at which an incoming message is dealt with are its
dealings: it arrives, a tap sees it, it is routed, a listener or a handler runs for it, or whoever waits for it is told.
No action has dealings of its own (`Router.perform_quiet`), so that those of some tasks are known before they are
carried out (`Router.settle_dealings`). Hence the dealings of a message are that it arrives, that every tap sees it in
the order in which they were added, and that it is routed once, by its type (`Router.dispatch_dealings`).
-/
import MessageBus.Proofs.Connection.Answers

namespace MessageBus

/-! ## Dealings -/

/-- an outcome that came with a message, and not by closing the connection -/
def CallOutcome.isReceived : CallOutcome → Bool
  | .error (.disconnected _) => false
  | _ => true

theorem Message.outcome_isReceived (message : Message) : message.outcome.isReceived = true := by
  unfold outcome
  cases message.type <;> rfl

/-- a moment at which an incoming message is dealt with -/
def Moment.isDealing : Moment → Bool
  | .seen (.arrived _) | .seen (.tapped _ _) | .seen (.signalled _ _) | .seen (.served _ _) | .routed _ => true
  | .seen (.replied _ outcome) | .told _ _ outcome => outcome.isReceived
  | _ => false

/-- the moments that a task has of itself, apart from those of the tasks that it causes -/
def Task.moments : Task → List Moment
  | note event | run _ event => [.seen event]
  | act _ => []
  | tell serial waiter outcome => .told serial waiter outcome :: waiter.heard outcome

/-- the dealings that a task has of itself -/
def Task.dealings (task : Task) : List Moment := task.moments.filter Moment.isDealing

namespace Router

/-- what was done about incoming messages, in order -/
def dealings (r : Router) : List Moment := r.past.filter Moment.isDealing

/-- what is done about a message once it is routed: whoever waits for a reply is told, the listeners of a signal run in
the order in which they were added, and so does the handler of a call -/
def due (r : Router) (message : Message) : List Moment :=
  match message.type with
  | .methodReturn | .error =>
    match message.fields.replySerial.bind fun serial => r.pending.find? fun entry => entry.1 = serial with
    | none => []
    | some (serial, waiter) => .told serial waiter message.outcome :: waiter.heard message.outcome
  | .signal =>
    match message.routeKey? with
    | none => []
    | some key => (r.listenersFor key).map fun callback => .seen (.signalled callback.label message)
  | .methodCall =>
    match message.routeKey?.bind r.handlerFor? with
    | none => []
    | some handler => [.seen (.served handler.callback.label message)]

variable {r r' : Router} {more : List Moment} {tasks : List Task}

theorem dealings_append (h : r'.past = r.past ++ more) : r'.dealings = r.dealings ++ more.filter Moment.isDealing := by
  rw [dealings, dealings, h, List.filter_append]

theorem record_dealings (r : Router) (m : Moment) :
    (r.record m).dealings = r.dealings ++ [m].filter Moment.isDealing := dealings_append rfl

/-! ## What has no dealings -/

/-- a router comes to another without dealings, and causes tasks that have none -/
structure Quiet (r r' : Router) (tasks : List Task) : Prop where
  dealings_eq : r'.dealings = r.dealings
  tasks_eq : ∀ task ∈ tasks, task.dealings = []

theorem Quiet.refl (r : Router) : r.Quiet r [] := ⟨rfl, by simp⟩

theorem Quiet.of_past (h : r'.past = r.past) : r.Quiet r' [] := ⟨by rw [dealings, h, dealings], by simp⟩

theorem close_quiet (r : Router) (reason : String) : r.Quiet (r.close reason).1 (r.close reason).2 := by
  refine ⟨?_, ?_⟩
  · rw [dealings_append (congrArg past (r.close_eq reason))]
    cases r.closed <;> simp [Moment.isDealing]
  · rw [close_tasks]
    refine List.forall_mem_map.2 fun entry _ => ?_
    rcases entry with ⟨serial, _ | _⟩ <;> rfl

theorem offered_dealings (r : Router) (message : Message) (waiter : Option Waiter) (data : List UInt8) :
    (r.offered message waiter data).dealings = r.dealings := by
  rw [dealings_append (by rw [offered, List.append_assoc])]
  cases waiter <;> simp [Moment.isDealing, entry]

theorem send_quiet (r : Router) (message : Message) (waiter : Option Waiter) :
    r.Quiet (r.send message waiter).2.1 (r.send message waiter).2.2 := by
  have hsends := r.send_sends message waiter
  generalize r.send message waiter = sent at hsends
  cases hsends with
  | refused => exact .refl r
  | unframed => exact ⟨by simp [dealings, allocateSerial, record, Moment.isDealing], by simp⟩
  | @taken data => exact ⟨r.offered_dealings message waiter data, by simp⟩
  | @failed data why =>
    have hclose := (r.offered message waiter data).close_quiet (Error.transport why).message
    exact ⟨hclose.dealings_eq.trans (r.offered_dealings message waiter data), hclose.tasks_eq⟩

theorem sendCall_quiet (r : Router) (message : Message) (waiter : Waiter) :
    r.Quiet (r.sendCall message waiter).2.1 (r.sendCall message waiter).2.2 := by
  unfold sendCall
  split
  · exact r.send_quiet message (some waiter)
  · exact .refl r

theorem sendBuilt_quiet (r : Router) (message : Except Error Message) :
    r.Quiet (r.sendBuilt message).2.1 (r.sendBuilt message).2.2 := by
  cases message with
  | error e => exact .refl r
  | ok message => exact r.send_quiet message none

theorem exhaust_quiet (r : Router) (arrivals : List Arrival) :
    r.Quiet (r.exhaust arrivals).2.1 (r.exhaust arrivals).2.2 := by
  induction arrivals with
  | nil => exact r.close_quiet _
  | cons arrival arrivals ih =>
    match arrival with
    | .bytes [] => exact r.close_quiet _
    | .bytes (_ :: _) => exact .refl r
    | .interrupted => exact ih
    | .failed reason => exact r.close_quiet reason

theorem Quiet.of_core (h : r'.core = r.core) : r.Quiet r' [] := .of_past (congrArg (fun core => core.2.2.2.2.2) h)

theorem cancel_quiet (r : Router) (s : UInt32) : r.Quiet (r.cancel s).2 [] := by
  unfold cancel
  split
  · exact .refl r
  · next waiter _ => cases waiter <;> exact .of_past rfl

theorem effect_quiet (r : Router) (action : Action) : r.Quiet (r.effect action).2.1 (r.effect action).2.2 := by
  cases action with
  | send message => exact r.send_quiet message none
  | invoke message label script => exact r.sendCall_quiet message _
  | call message =>
    have hsent := r.sendCall_quiet message (.handle r.handles.length)
    simp only [effect]
    split <;> next h =>
      rw [h] at hsent
      exact ⟨hsent.dealings_eq, hsent.tasks_eq⟩
  | poll i => exact .of_core (r.poll_core i)
  | await i => exact .of_core (r.await_core i)
  | cancel s => exact r.cancel_quiet s
  | tap label script => exact .of_past rfl
  | listen path interface member label script =>
    simp only [effect, listen]
    split <;> exact .of_past rfl
  | unlisten listener =>
    simp only [effect]
    split <;> exact .of_past rfl
  | serve path interface member label script handling =>
    simp only [effect, serve]
    split <;> exact .of_past rfl
  | unserve path interface member => exact .of_past rfl
  | feed chunks => exact .refl r
  | run arrivals => exact r.exhaust_quiet arrivals
  | close reason => exact r.close_quiet reason
  | fail e => exact .refl r

/-- no action has dealings of its own, nor do the tasks that it causes -/
theorem perform_quiet (r : Router) (action : Action) : r.Quiet (r.perform action).2.1 (r.perform action).2.2 := by
  have heffect := r.effect_quiet action
  refine ⟨?_, heffect.tasks_eq⟩
  rw [← heffect.dealings_eq]
  exact (record_dealings _ _).trans (List.append_nil _)

/-! ## The dealings of tasks -/

theorem dealings_acts (callback : Callback) : callback.tasks.flatMap Task.dealings = [] := by
  rw [Callback.tasks, List.flatMap_map]
  exact List.flatMap_eq_nil_iff.2 fun _ _ => rfl

theorem turn_dealings (r : Router) (task : Task) :
    (r.turn task).1.dealings ++ (r.turn task).2.flatMap Task.dealings = r.dealings ++ task.dealings := by
  cases task with
  | note event => rw [turn, List.flatMap_nil, List.append_nil, log, record_dealings, Task.dealings, Task.moments]
  | act action =>
    have hquiet := r.perform_quiet action
    rw [turn, List.flatMap_append, List.flatMap_eq_nil_iff.2 hquiet.tasks_eq, hquiet.dealings_eq]
    rfl
  | run callback event =>
    rw [turn, dealings_acts, List.append_nil, log, record_dealings, Task.dealings, Task.moments]
  | tell serial waiter outcome =>
    cases waiter with
    | callback cb =>
      have hpast : ((r.record (.told serial (.callback cb) outcome)).log (.replied cb.label outcome)).past
          = r.past ++ Task.moments (.tell serial (.callback cb) outcome) := by
        simp [log, record, Task.moments, Waiter.heard]
      rw [turn, tell, dealings_acts, List.append_nil, dealings_append hpast, Task.dealings]
    | handle index => exact (List.append_nil _).trans (r.record_dealings (.told serial (.handle index) outcome))

/-- **The dealings of tasks are known before they are carried out.** -/
theorem settle_dealings (r : Router) (tasks : List Task) :
    (r.settle tasks).dealings = r.dealings ++ tasks.flatMap Task.dealings := by
  induction r, tasks using Router.settle.induct with
  | case1 r => simp [settle_nil]
  | case2 r task tasks next ih =>
    calc (r.settle (task :: tasks)).dealings
      _ = next.1.dealings ++ (next.2 ++ tasks).flatMap Task.dealings := by rw [settle, ih]
      _ = (next.1.dealings ++ next.2.flatMap Task.dealings) ++ tasks.flatMap Task.dealings := by
        rw [List.flatMap_append, List.append_assoc]
      _ = (r.dealings ++ task.dealings) ++ tasks.flatMap Task.dealings := by rw [turn_dealings]
      _ = r.dealings ++ (task :: tasks).flatMap Task.dealings := by rw [List.append_assoc, List.flatMap_cons]

theorem Quiet.settle (h : r.Quiet r' tasks) : (r'.settle tasks).dealings = r.dealings := by
  rw [settle_dealings, List.flatMap_eq_nil_iff.2 h.tasks_eq, List.append_nil, h.dealings_eq]

/-- the dealings of callbacks that run for what happens to each of them -/
theorem dealings_runs (callbacks : List Callback) (event : Callback → Event)
    (h : ∀ callback ∈ callbacks, (Moment.seen (event callback)).isDealing = true) :
    (callbacks.map fun callback => Task.run callback (event callback)).flatMap Task.dealings
      = callbacks.map fun callback => .seen (event callback) := by
  induction callbacks with
  | nil => rfl
  | cons callback callbacks ih =>
    obtain ⟨hfirst, hrest⟩ := List.forall_mem_cons.1 h
    rw [List.map_cons, List.flatMap_cons, ih hrest, List.map_cons, Task.dealings, Task.moments,
      List.filter_cons_of_pos hfirst]
    rfl

/-! ## The dealings of a message -/

theorem due_reply (r : Router) {message : Message} (h : message.type = .methodReturn ∨ message.type = .error) :
    r.due message
      = match message.fields.replySerial.bind fun serial => r.pending.find? fun entry => entry.1 = serial with
        | none => []
        | some (serial, waiter) => .told serial waiter message.outcome :: waiter.heard message.outcome := by
  obtain h | h := h <;> rw [due, h]

theorem takeWaiter_dealings (r : Router) {message : Message} (h : message.type = .methodReturn ∨ message.type = .error) :
    (r.takeWaiter message).1.dealings = r.dealings ∧
      (r.takeWaiter message).2.flatMap Task.dealings = r.due message := by
  have hreceived := message.outcome_isReceived
  rw [r.due_reply h, takeWaiter]
  cases message.fields.replySerial with
  | none => exact ⟨rfl, rfl⟩
  | some serial =>
    simp only [Option.bind_some]
    cases hfound : r.pending.find? fun entry => entry.1 = serial with
    | none => exact ⟨rfl, rfl⟩
    | some entry =>
      obtain ⟨found, waiter⟩ := entry
      obtain rfl : found = serial := by simpa using List.find?_some hfound
      refine ⟨rfl, ?_⟩
      cases waiter <;> simp [Task.dealings, Task.moments, Waiter.heard, Moment.isDealing, hreceived]

theorem signalled_dealings (r : Router) {message : Message} (h : message.type = .signal) :
    (r.signalled message).flatMap Task.dealings = r.due message := by
  rw [due, h, signalled]
  cases message.routeKey? with
  | none => rfl
  | some key => exact dealings_runs _ (fun callback => .signalled callback.label message) fun _ _ => rfl

theorem served_dealings (r : Router) {message : Message} (h : message.type = .methodCall) :
    (r.served message).2.flatMap Task.dealings = r.due message := by
  rw [due, h, served]
  cases message.routeKey?.bind r.handlerFor? with
  | none => rfl
  | some handler => rfl

theorem tapped_dealings (r : Router) (message : Message) :
    (r.tapped message).flatMap Task.dealings = r.taps.map fun callback => .seen (.tapped callback.label message) :=
  dealings_runs _ (fun callback => .tapped callback.label message) fun _ _ => rfl

/-- a call is answered without further dealings -/
theorem reply_dealings (r : Router) (call : Message) (answering : Answering) :
    (r.reply call answering).dealings = r.dealings := by
  have hanswer := (r.sendBuilt_quiet (call.reply answering)).settle
  rw [reply]
  -- an answer that cannot be framed is excused by another message, which has no dealings either
  rcases hsent : r.sendBuilt (call.reply answering) with ⟨_ | _, sent, tasks⟩ <;> rw [hsent] at hanswer
  · next e =>
    simp only
    split
    · exact hanswer
    · exact ((sent.settle tasks).sendBuilt_quiet (call.errorReply (.failed e.message))).settle.trans hanswer
  · exact hanswer

theorem route_dealings (r : Router) (message : Message) : (r.route message).dealings = r.dealings ++ r.due message := by
  rw [route]
  cases htype : message.type with
  | methodReturn =>
    obtain ⟨hsame, hdue⟩ := r.takeWaiter_dealings (.inl htype)
    exact (settle_dealings _ _).trans (congrArg₂ (· ++ ·) hsame hdue)
  | error =>
    obtain ⟨hsame, hdue⟩ := r.takeWaiter_dealings (.inr htype)
    exact (settle_dealings _ _).trans (congrArg₂ (· ++ ·) hsame hdue)
  | signal => exact (settle_dealings _ _).trans (congrArg (r.dealings ++ ·) (r.signalled_dealings htype))
  | methodCall =>
    have hserved := (settle_dealings r (r.served message).2).trans (congrArg (r.dealings ++ ·) (r.served_dealings htype))
    simp only
    split
    · exact (reply_dealings _ message _).trans hserved
    · exact hserved

/-- what is done about a message: it arrives, every tap sees it, in the order in which they were added, and then it is
routed once, by its type -/
def dealingsOf (r : Router) (message : Message) : List Moment :=
  .seen (.arrived message) :: (r.taps.map fun callback => .seen (.tapped callback.label message))
    ++ .routed message :: (r.reception message).due message

/-- what is done about messages one after another -/
def dealingsOfAll (r : Router) : List Message → List Moment
  | [] => []
  | message :: messages => r.dealingsOf message ++ (r.dispatch message).dealingsOfAll messages

/-- **What is done about a message** is known from the callbacks that there are when it arrives and when it is routed. -/
theorem dispatch_dealings (r : Router) (message : Message) :
    (r.dispatch message).dealings = r.dealings ++ r.dealingsOf message := by
  have harrived : (r.log (.arrived message)).dealings = r.dealings ++ [.seen (.arrived message)] :=
    r.record_dealings _
  have htaps : ((r.log (.arrived message)).tapped message).flatMap Task.dealings
      = r.taps.map fun callback => .seen (.tapped callback.label message) := tapped_dealings _ message
  have hreception : (r.reception message).dealings = r.dealings ++ [.seen (.arrived message)]
      ++ (r.taps.map fun callback => .seen (.tapped callback.label message)) ++ [.routed message] := by
    rw [← harrived, ← htaps, ← settle_dealings]
    exact record_dealings _ _
  change ((r.reception message).route message).dealings = _
  rw [route_dealings, hreception, dealingsOf]
  simp

theorem dispatchAll_dealings (r : Router) (messages : List Message) :
    (messages.foldl dispatch r).dealings = r.dealings ++ r.dealingsOfAll messages := by
  induction messages generalizing r with
  | nil => exact (List.append_nil _).symm
  | cons message messages ih =>
    calc ((message :: messages).foldl dispatch r).dealings
      _ = (r.dispatch message).dealings ++ (r.dispatch message).dealingsOfAll messages := ih _
      _ = (r.dealings ++ r.dealingsOf message) ++ (r.dispatch message).dealingsOfAll messages := by rw [dispatch_dealings]
      _ = r.dealings ++ r.dealingsOfAll (message :: messages) := by rw [List.append_assoc, dealingsOfAll]

end Router

theorem Connection.close_dealings (c : Connection) (reason : String) :
    (c.close reason).router.dealings = c.router.dealings :=
  (c.router.close_quiet reason).settle

end MessageBus
