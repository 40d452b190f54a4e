/-
Signals reach exactly those who listen.

The listeners of a signal are those whom the past has under its names when it is routed (`audience`): they were added and
not removed so far. Just these run, in the order in which they were added (`Reachable.signal_jobs`), and whatever their
scripts do, nobody else hears the signal and nobody is left out (`Reachable.signal_dealings`): a script that adds or
removes a listener has a say in the next signal only.
-/
import Mathlib.Tactic
import MessageBus.Proofs.Connection.Dealings
import MessageBus.Proofs.Connection.Registry

namespace MessageBus

/-- the listeners of the names of a message, by all that has happened, in the order in which they were added -/
def audience (past : List Moment) (message : Message) : List Listener :=
  (registered past).filter fun listener => message.routeKey? = some listener.key

/-- a listener runs for a signal -/
def Listener.task (message : Message) (listener : Listener) : Task :=
  .run listener.callback (.signalled listener.callback.label message)

/-- a listener has heard a signal -/
def Listener.heard (message : Message) (listener : Listener) : Moment :=
  .seen (.signalled listener.callback.label message)

namespace Router.Listens

variable {r : Router} {message : Message}

theorem signalled_eq (h : r.Listens) (message : Message) :
    r.signalled message = (audience r.past message).map (Listener.task message) := by
  rw [signalled, audience, ← h.listeners_eq]
  rcases message.routeKey? with _ | key
  · simp
  · simp only [listenersFor, List.map_map]
    refine congrArg (List.map (Listener.task message)) (List.filter_congr fun listener _ => ?_)
    simp [eq_comm]

theorem due_signal (h : r.Listens) (hsignal : message.type = .signal) :
    r.due message = (audience r.past message).map (Listener.heard message) := by
  rw [← r.signalled_dealings hsignal, h.signalled_eq, List.flatMap_map]
  exact List.map_eq_flatMap.symm

/-- no number is given to two listeners, and least of all to two that are there at a time -/
theorem registered_nodup (h : r.Listens) : ((registered r.past).map Listener.id).Nodup := by
  have hadded : ((added r.past).map Listener.id).Nodup := h.added_ids ▸ List.nodup_range
  exact hadded.sublist (List.filter_sublist.map Listener.id)

/-- adding a listener fails for an invalid name only, and changes nothing then; else the listener gets the next number -/
theorem perform_listen (h : r.Listens) (path interface member label : String) (script : List Action) :
    (∀ e, (r.perform (.listen path interface member label script)).1 = .failed e →
        (∃ kind name, e = .invalidName kind name) ∧ (r.perform (.listen path interface member label script)).2
          = (r.record (.acted (.listen path interface member label script) (.failed e)), [])) ∧
      ∀ id, (r.perform (.listen path interface member label script)).1 = .listener id → id = r.nextListener ∧
        registered (r.perform (.listen path interface member label script)).2.1.past
          = registered r.past ++ [⟨id, ⟨path, some interface, member⟩, ⟨label, script⟩⟩] := by
  rcases r.perform_listen_cases path interface member label script with ⟨kind, name, hperform⟩ | hperform
  · rw [hperform]
    constructor
    · intro e he
      cases he
      exact ⟨⟨kind, name, rfl⟩, rfl⟩
    · intro id hid
      cases hid
  · have hafter : (r.perform (.listen path interface member label script)).2.1.Listens := by
      rw [hperform]
      exact h.add rfl rfl rfl rfl rfl rfl
    rw [← hafter.listeners_eq, ← h.listeners_eq, hperform]
    constructor
    · intro e he
      cases he
    · intro id hid
      cases hid
      exact ⟨rfl, rfl⟩

end Router.Listens

section Signals

variable {config : Config} {transport : Transport} {r : Router} {jobs left : List Job} {message : Message}

/-- what is left to be done for a signal that is routed: its listeners run -/
theorem Reachable.signal_jobs (h : Reachable config transport r jobs) (hsignal : message.type = .signal) :
    ((Job.route message).turn r).2
      = (audience r.past message).map fun listener => .task (listener.task message) := by
  have hlistens := h.registers.listens
  have hsame : (r.record (.routed message)).signalled message = r.signalled message := rfl
  rw [Job.turn, hsignal]
  simp only [hsame, hlistens.signalled_eq, List.map_map]
  rfl

/-- what is done about a signal that is routed: its listeners hear it -/
theorem Reachable.signal_dealings (h : Reachable config transport r jobs) (hsignal : message.type = .signal) :
    ((r.record (.routed message)).route message).dealings
      = r.dealings ++ .routed message :: (audience r.past message).map (Listener.heard message) := by
  have hrouted : (r.record (.routed message)).dealings = r.dealings ++ [.routed message] := r.record_dealings _
  have hdue : (r.record (.routed message)).due message = (audience r.past message).map (Listener.heard message) :=
    h.registers.listens.due_signal hsignal
  rw [Router.route_dealings, hrouted, hdue, List.append_assoc, List.singleton_append]

/-- what holds of the listeners of a connection, with jobs that are still to be done -/
structure SignalsReach (r : Router) (jobs : List Job) : Prop where
  /-- when a signal is routed, just those run who listen to its names by then, each once, in the order in which they were
  added -/
  runs : ∀ message left, jobs = .route message :: left → message.type = .signal →
    ((Job.route message).turn r).2 = (audience r.past message).map fun listener => .task (listener.task message)
  /-- so it is whatever their scripts do, until all that the signal causes is done -/
  heard : ∀ message left, jobs = .route message :: left → message.type = .signal →
    Later r jobs ((r.record (.routed message)).route message) left ∧
      ((r.record (.routed message)).route message).dealings
        = r.dealings ++ .routed message :: (audience r.past message).map (Listener.heard message)
  /-- listeners are numbered as they are added: no number is given to another, also after its listener was removed -/
  added_ids : (added r.past).map Listener.id = List.range r.nextListener
  registered_nodup : ((registered r.past).map Listener.id).Nodup
  /-- adding a listener fails for a name that is none only, and changes nothing then -/
  listen_failed : ∀ path interface member label script e,
    (r.perform (.listen path interface member label script)).1 = .failed e →
      (∃ kind name, e = .invalidName kind name) ∧ (r.perform (.listen path interface member label script)).2
        = (r.record (.acted (.listen path interface member label script) (.failed e)), [])
  /-- else the listener has the next number, and comes behind all others -/
  listen_added : ∀ path interface member label script id,
    (r.perform (.listen path interface member label script)).1 = .listener id → id = r.nextListener ∧
      registered (r.perform (.listen path interface member label script)).2.1.past
        = registered r.past ++ [⟨id, ⟨path, some interface, member⟩, ⟨label, script⟩⟩]
  /-- removing a listener tells whether it was there, and leaves all others -/
  unlisten : ∀ id, ((r.perform (.unlisten id)).1 = .flag true ↔ ∃ listener ∈ registered r.past, listener.id = id) ∧
    registered (r.perform (.unlisten id)).2.1.past = (registered r.past).filter (fun listener => listener.id ≠ id) ∧
    ∃ past, (r.perform (.unlisten id)).2 = ({ r with
      listeners := r.listeners.filter fun listener => listener.id ≠ id
      past }, [])

/-- **Signals reach exactly those who listen.** Whatever the owner of a new connection does leads to a reachable state. In
each of these, between operations or in the middle of one, the listeners of a signal are those that were added under its
names and not removed, by its owner or by scripts. -/
theorem Connection.signals_reach (config : Config) (transport : Transport) :
    (∀ actions, Reachable config transport ((Connection.new config transport).runAll actions).router []) ∧
      ∀ r jobs, Reachable config transport r jobs → SignalsReach r jobs := by
  refine ⟨Reachable.runAll config transport, fun r jobs h => ?_⟩
  have hlistens := h.registers.listens
  refine {
    runs := fun message left _ hsignal => h.signal_jobs hsignal
    heard := ?_
    added_ids := hlistens.added_ids
    registered_nodup := hlistens.registered_nodup
    listen_failed := fun path interface member label script => (hlistens.perform_listen path interface member label script).1
    listen_added := fun path interface member label script => (hlistens.perform_listen path interface member label script).2
    unlisten := fun id => ?_ }
  · rintro message left rfl hsignal
    exact ⟨Later.refl.route, h.signal_dealings hsignal⟩
  · have hafter := (h.registers.unlisten id).listens.listeners_eq
    obtain ⟨answer, hperform, hanswer⟩ := hlistens.perform_unlisten id
    rw [← hafter, ← hlistens.listeners_eq, hperform]
    exact ⟨hanswer, rfl, _, rfl⟩

/-- two listeners of the same names, of which the first one removes the other and adds a third; a fourth has no path -/
def attended : Connection := (Connection.new {} .reliable).runAll [
  .listen "/" "o.c" "R" "first" [.unlisten 2, .listen "/" "o.c" "R" "third" []],
  .listen "/" "o.c" "S" "other" [],
  .listen "/" "o.c" "R" "second" [],
  .listen "" "o.c" "R" "none" []]

/-- a signal has come in for them, and is to be routed -/
def ringing : Router := attended.router.log (.arrived rang)

/-- who is removed while a signal is routed hears it all the same, and who is added hears the next one -/
theorem Connection.signals_reach_ringing :
    Reachable {} .reliable ringing [.route rang] ∧ rang.type = .signal ∧ SignalsReach ringing [.route rang] ∧
      (audience ringing.past rang).map (fun listener => (listener.id, listener.callback.label))
        = [(0, "first"), (2, "second")] ∧
      (audience ((ringing.record (.routed rang)).route rang).past rang).map
        (fun listener => (listener.id, listener.callback.label)) = [(0, "first"), (3, "third")] := by
  have hattended := (Connection.signals_reach {} .reliable).1 [
    .listen "/" "o.c" "R" "first" [.unlisten 2, .listen "/" "o.c" "R" "third" []],
    .listen "/" "o.c" "S" "other" [],
    .listen "/" "o.c" "R" "second" [],
    .listen "" "o.c" "R" "none" []]
  have hjobs : ((Job.deal rang).turn attended.router).2 ++ [] = [.route rang] := by cbv
  have hringing : Reachable {} .reliable ringing [.route rang] := by
    rw [← hjobs]
    exact (hattended.begin (.deal rang) rfl).turn
  refine ⟨hringing, rfl, (Connection.signals_reach {} .reliable).2 ringing _ hringing, by cbv, by cbv⟩

end Signals

end MessageBus
