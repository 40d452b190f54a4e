/-
A connection step by step.

Dealing with a message takes many steps: callbacks run scripts, and these close the connection, give up calls or make
new ones. `Job.turn` is one of these steps, and a list of jobs is what is still to be done. `Reachable` are the routers
and lists of jobs that come up in between when the owner of a connection acts and messages come in, in any order; with
no jobs left the connection is between operations. `Later` are those that come up after a router with its jobs.

Whatever the owner does with a connection goes through states of these kinds (`Later.runAll`, `Reachable.runAll`).
-/
import Mathlib.Tactic
import MessageBus.Connection

namespace MessageBus

/-! ## Jobs -/

/-- something that is still to be done -/
inductive Job where
  | task (task : Task)
  /-- an action of the owner, who gets its result -/
  | own (action : Action)
  /-- close the connection, as the stream has ended or is broken -/
  | close (reason : String)
  /-- an incoming message, which the taps see first -/
  | deal (message : Message)
  | route (message : Message)
  /-- answer a call, once its handler has run -/
  | answer (call : Message) (answering : Answering)
  /-- see to a call whose answer could not be sent -/
  | excuse (call : Message) (e : Error)

/-- a job that an operation on a connection begins with -/
def Job.isBeginning : Job → Bool
  | own _ | close _ | deal _ => true
  | _ => false

/-- the jobs that a call leaves when an attempt to answer it had a result -/
def Job.excuses (call : Message) : Except Error UInt32 → List Job
  | .ok _ => []
  | .error e => [.excuse call e]

/-- do a job, up to the jobs that it causes -/
def Job.turn (r : Router) : Job → Router × List Job
  | .task given => ((r.turn given).1, (r.turn given).2.map .task)
  | .own action => ((r.perform action).2.1, (r.perform action).2.2.map .task)
  | .close reason => ((r.close reason).1, (r.close reason).2.map .task)
  | .deal message => (r.log (.arrived message), ((r.log (.arrived message)).tapped message).map .task ++ [.route message])
  | .route message =>
    let r := r.record (.routed message)
    match message.type with
    | .methodReturn | .error => ((r.takeWaiter message).1, (r.takeWaiter message).2.map .task)
    | .signal => (r, (r.signalled message).map .task)
    | .methodCall =>
      (r, (r.served message).2.map .task
        ++ if message.expectsReply then [.answer message (r.served message).1] else [])
  | .answer call answering =>
    let sent := r.sendBuilt (call.reply answering)
    (sent.2.1, sent.2.2.map .task ++ Job.excuses call sent.1)
  | .excuse call e =>
    if e.isFatal then (r, [])
    else
      let sent := r.sendBuilt (call.errorReply (.failed e.message))
      (sent.2.1, sent.2.2.map .task)

/-- routers, with the jobs that are still to be done, that come up on a connection -/
inductive Reachable (config : Config) (transport : Transport) : Router → List Job → Prop where
  | new : Reachable config transport { config, link := { transport } } []
  /-- between operations any other may be begun -/
  | begin {r : Router} (job : Job) (hjob : job.isBeginning = true) (h : Reachable config transport r []) :
      Reachable config transport r [job]
  | turn {r : Router} {job : Job} {jobs : List Job} (h : Reachable config transport r (job :: jobs)) :
      Reachable config transport (job.turn r).1 ((job.turn r).2 ++ jobs)

/-- routers, with the jobs that are still to be done, that come up after a router with its jobs -/
inductive Later (first : Router) (todo : List Job) : Router → List Job → Prop where
  | refl : Later first todo first todo
  | begin {r : Router} (job : Job) (hjob : job.isBeginning = true) (h : Later first todo r []) : Later first todo r [job]
  | turn {r : Router} {job : Job} {jobs : List Job} (h : Later first todo r (job :: jobs)) :
      Later first todo (job.turn r).1 ((job.turn r).2 ++ jobs)

variable {config : Config} {transport : Transport} {first r : Router} {todo jobs : List Job}

theorem Reachable.later (h : Reachable config transport first todo) (hlater : Later first todo r jobs) :
    Reachable config transport r jobs := by
  induction hlater with
  | refl => exact h
  | begin job hjob _ ih => exact ih.begin job hjob
  | turn _ ih => exact ih.turn

/-- what comes up on a connection comes up after the new one -/
theorem Reachable.later_new (h : Reachable config transport r jobs) :
    Later { config, link := { transport } } [] r jobs := by
  induction h with
  | new => exact .refl
  | begin job hjob _ ih => exact ih.begin job hjob
  | turn _ ih => exact ih.turn

/-! ## Whole operations -/

theorem Later.settle {tasks : List Task} (h : Later first todo r (tasks.map .task ++ jobs)) :
    Later first todo (r.settle tasks) jobs := by
  induction r, tasks using Router.settle.induct with
  | case1 r =>
    rw [Router.settle]
    exact h
  | case2 r task tasks next ih =>
    rw [Router.settle]
    apply ih
    rw [List.map_append, List.append_assoc]
    exact h.turn

theorem Later.reply {call : Message} {answering : Answering}
    (h : Later first todo r (.answer call answering :: jobs)) :
    Later first todo (r.reply call answering) jobs := by
  have hturn := h.turn
  rw [Router.reply]
  rcases hsent : r.sendBuilt (call.reply answering) with ⟨result, r', tasks⟩
  simp only [Job.turn, hsent, List.append_assoc] at hturn
  have hsettled := hturn.settle
  cases result with
  | ok serial => exact hsettled
  | error e =>
    have hexcuse := hsettled.turn
    by_cases hfatal : e.isFatal = true
    · simpa [Job.turn, hfatal] using hexcuse
    · simp only [Job.turn, hfatal] at hexcuse
      simp only [hfatal]
      exact hexcuse.settle

/-- once a message is routed, what this causes is left -/
theorem Later.routed {message : Message}
    (hturn : Later first todo ((Job.route message).turn r).1 (((Job.route message).turn r).2 ++ jobs)) :
    Later first todo ((r.record (.routed message)).route message) jobs := by
  rw [Router.route]
  cases htype : message.type with
  | methodReturn =>
    simp only [Job.turn, htype] at hturn
    exact hturn.settle
  | error =>
    simp only [Job.turn, htype] at hturn
    exact hturn.settle
  | signal =>
    simp only [Job.turn, htype] at hturn
    exact hturn.settle
  | methodCall =>
    simp only [Job.turn, htype, List.append_assoc] at hturn
    have hserved := hturn.settle
    by_cases hreply : message.expectsReply = true
    · simp only [hreply, if_true] at hserved ⊢
      exact hserved.reply
    · simp only [hreply] at hserved ⊢
      exact hserved

theorem Later.route {message : Message} (h : Later first todo r (.route message :: jobs)) :
    Later first todo ((r.record (.routed message)).route message) jobs :=
  h.turn.routed

theorem Later.dispatch {message : Message} (h : Later first todo r (.deal message :: jobs)) :
    Later first todo (r.dispatch message) jobs := by
  have hturn := h.turn
  rw [Job.turn, List.append_assoc] at hturn
  exact hturn.settle.route

theorem Later.dispatchAll (messages : List Message) (h : Later first todo r []) :
    Later first todo (messages.foldl Router.dispatch r) [] := by
  induction messages generalizing r with
  | nil => exact h
  | cons message messages ih => exact ih (h.begin (.deal message) rfl).dispatch

/-! ## The owner of a connection -/

variable {c : Connection}

theorem Later.close (reason : String) (h : Later first todo c.router []) :
    Later first todo (c.close reason).router [] := by
  have hturn := (h.begin (.close reason) rfl).turn
  rw [Job.turn] at hturn
  exact hturn.settle

theorem Later.feed (chunk : List UInt8) (h : Later first todo c.router []) :
    Later first todo (c.feed chunk).2.router [] := by
  rw [Connection.feed]
  by_cases hclosed : c.isClosed = true
  · rw [if_pos hclosed]
    exact h
  · rw [if_neg hclosed]
    dsimp only
    rcases (c.buffer.extend chunk).drain ((c.buffer.extend chunk).buffered + 1) with ⟨messages, e, buffer⟩
    have hdealt : Later first todo (Connection.mk (messages.foldl Router.dispatch c.router) buffer).router [] :=
      h.dispatchAll messages
    cases e with
    | none => exact hdealt
    | some e => exact hdealt.close e.message

theorem Later.feedAll (chunks : List (List UInt8)) (h : Later first todo c.router []) :
    Later first todo (c.feedAll chunks).2.router [] := by
  induction chunks generalizing c with
  | nil => exact h
  | cons chunk chunks ih =>
    have hfed := h.feed chunk
    rw [Connection.feedAll]
    rcases hresult : c.feed chunk with ⟨_ | _, fed⟩ <;> rw [hresult] at hfed
    · exact hfed
    · exact ih hfed

theorem Later.run (arrivals : List Arrival) (h : Later first todo c.router []) :
    Later first todo (c.run arrivals).2.router [] := by
  induction arrivals generalizing c with
  | nil => exact h.close _
  | cons arrival arrivals ih =>
    match arrival with
    | .bytes [] => exact h.close _
    | .interrupted => exact ih h
    | .failed reason => exact h.close _
    | .bytes (byte :: data) =>
      have hfed := h.feedAll (chunks c.router.config.readChunkSize (byte :: data))
      rw [Connection.run]
      · rcases hresult : c.feedAll (chunks c.router.config.readChunkSize (byte :: data)) with ⟨_ | _, fed⟩ <;>
          rw [hresult] at hfed
        · exact hfed
        · exact ih hfed
      · simp

theorem Later.act (action : Action) (h : Later first todo c.router []) :
    Later first todo (c.act action).2.router [] := by
  have hown : Later first todo (c.router.act action).2 [] := by
    have hturn := (h.begin (.own action) rfl).turn
    rw [Job.turn] at hturn
    exact hturn.settle
  cases action with
  | feed chunks => exact h.feedAll chunks
  | run arrivals => exact h.run arrivals
  | _ => exact hown

namespace Connection

/-- a connection after its owner has acted -/
def runAll (c : Connection) (actions : List Action) : Connection := actions.foldl (fun c action => (c.act action).2) c

end Connection

theorem Later.runAll (actions : List Action) (h : Later first todo c.router []) :
    Later first todo (c.runAll actions).router [] := by
  induction actions generalizing c with
  | nil => exact h
  | cons action actions ih => exact ih (h.act action)

theorem Reachable.dispatchAll (messages : List Message) (h : Reachable config transport r []) :
    Reachable config transport (messages.foldl Router.dispatch r) [] :=
  h.later (Later.refl.dispatchAll messages)

theorem Reachable.act (action : Action) (h : Reachable config transport c.router []) :
    Reachable config transport (c.act action).2.router [] :=
  h.later (Later.refl.act action)

/-- **Whatever the owner of a new connection does, it is in a reachable state afterwards**, with nothing left to be
done. -/
theorem Reachable.runAll (config : Config) (transport : Transport) (actions : List Action) :
    Reachable config transport ((Connection.new config transport).runAll actions).router [] :=
  Reachable.new.later (Later.refl.runAll (c := .new config transport) actions)

end MessageBus
