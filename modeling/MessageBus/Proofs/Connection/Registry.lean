/-
Who listens, who serves and who taps, by all that has happened.

The past tells which listeners were added and not removed (`registered`), who was last set to serve the calls of some
names and not removed since (`serving`), and which taps were added (`tapping`). No turn but that of an action which adds
or removes somebody has a say in this: all others stand aside (`Job.turn_registers`). So whatever comes up on a connection,
the listeners, the handlers and the taps that a router has are those of its past, and listeners are numbered in the order
in which they were added (`Registers`, `Reachable.registers`).
-/
import Mathlib.Tactic
import MessageBus.Proofs.Connection.Turns

namespace MessageBus

/-! ## What the past tells -/

/-- the listener that is added at a moment -/
def Moment.added? : Moment → Option Listener
  | .acted (.listen path interface member label script) (.listener id) =>
    some ⟨id, ⟨path, some interface, member⟩, ⟨label, script⟩⟩
  | _ => none

/-- the listener that is removed at a moment -/
def Moment.removed? : Moment → Option Nat
  | .acted (.unlisten id) (.flag true) => some id
  | _ => none

/-- the listeners that were ever added, in order -/
def added (past : List Moment) : List Listener := past.filterMap Moment.added?

/-- the listeners that were ever removed -/
def removed (past : List Moment) : List Nat := past.filterMap Moment.removed?

/-- the listeners that were added and not removed, in the order in which they were added -/
def registered (past : List Moment) : List Listener := (added past).filter fun listener => listener.id ∉ removed past

/-- what a moment says about who serves the calls of some names: somebody from now on, or nobody -/
def Moment.appoints? (key : RouteKey) : Moment → Option (Option Handler)
  | .acted (.serve path interface member label script handling) .done =>
    if ⟨path, interface, member⟩ = key then some (some ⟨key, ⟨label, script⟩, handling⟩) else none
  | .acted (.unserve path interface member) _ => if ⟨path, interface, member⟩ = key then some none else none
  | _ => none

/-- who serves the calls of just these names: the last that was said about it counts -/
def serving (key : RouteKey) (past : List Moment) : Option Handler :=
  (past.filterMap (Moment.appoints? key)).getLast?.join

/-- the callback that is added at a moment, to be run for every message -/
def Moment.tap? : Moment → Option Callback
  | .acted (.tap label script) .done => some ⟨label, script⟩
  | _ => none

/-- the callbacks that are run for every message, in the order in which they were added -/
def tapping (past : List Moment) : List Callback := past.filterMap Moment.tap?

/-- an action that adds or removes a listener, a handler or a tap -/
def Action.isRegistration : Action → Bool
  | .listen _ _ _ _ _ | .unlisten _ | .serve _ _ _ _ _ _ | .unserve _ _ _ | .tap _ _ => true
  | _ => false

def Moment.isRegistration : Moment → Bool
  | .acted action _ => action.isRegistration
  | _ => false

section Past

variable {past more : List Moment} {m : Moment} {key : RouteKey} {handler : Handler}

@[simp] theorem added_append (past more : List Moment) : added (past ++ more) = added past ++ added more :=
  List.filterMap_append

@[simp] theorem removed_append (past more : List Moment) : removed (past ++ more) = removed past ++ removed more :=
  List.filterMap_append

theorem Moment.added?_eq_none (h : m.isRegistration = false) : m.added? = none := by
  unfold added?
  split <;> first | rfl | cases h

theorem Moment.removed?_eq_none (h : m.isRegistration = false) : m.removed? = none := by
  unfold removed?
  split <;> first | rfl | cases h

theorem Moment.appoints?_eq_none (h : m.isRegistration = false) (key : RouteKey) : m.appoints? key = none := by
  unfold appoints?
  split <;> first | rfl | cases h

theorem Moment.tap?_eq_none (h : m.isRegistration = false) : m.tap? = none := by
  unfold tap?
  split <;> first | rfl | cases h

@[simp] theorem tapping_append (past more : List Moment) : tapping (past ++ more) = tapping past ++ tapping more :=
  List.filterMap_append

/-- nothing is said about the calls of the names -/
theorem serving_append_none (hmore : ∀ m ∈ more, m.appoints? key = none) :
    serving key (past ++ more) = serving key past := by
  rw [serving, List.filterMap_append, List.filterMap_eq_nil_iff.2 hmore, List.append_nil, serving]

theorem serving_snoc {appointed : Option Handler} (hm : m.appoints? key = some appointed) :
    serving key (past ++ [m]) = appointed := by
  rw [serving, List.filterMap_append, List.filterMap_cons_some hm, List.filterMap_nil, List.getLast?_concat]
  rfl

/-- whoever serves the calls of some names was set to serve those -/
theorem serving_key (h : serving key past = some handler) : handler.key = key := by
  obtain ⟨m, -, hm⟩ := List.mem_filterMap.1 (List.mem_of_getLast? (Option.join_eq_some_iff.1 h))
  unfold Moment.appoints? at hm
  split at hm
  · split_ifs at hm
    cases hm
    rfl
  · split_ifs at hm
    cases hm
  · cases hm

end Past

/-! ## Standing aside -/

namespace Router

variable {r r' r'' : Router} {m : Moment}

/-- the listeners, the handlers and the taps stay as they are, and nothing happens to them -/
structure Aside (r r' : Router) : Prop where
  nextListener_eq : r'.nextListener = r.nextListener
  listeners_eq : r'.listeners = r.listeners
  handlers_eq : r'.handlers = r.handlers
  taps_eq : r'.taps = r.taps
  past_eq : ∃ more, r'.past = r.past ++ more ∧ ∀ m ∈ more, m.isRegistration = false

/-- what a router keeps of listeners, handlers and taps, and all that has happened -/
def registry (r : Router) : Nat × List Listener × List Handler × List Callback × List Moment :=
  (r.nextListener, r.listeners, r.handlers, r.taps, r.past)

theorem Aside.of_registry (h : r'.registry = r.registry) : r.Aside r' := by
  simp only [registry, Prod.mk.injEq] at h
  obtain ⟨hnext, hlisteners, hhandlers, htaps, hpast⟩ := h
  exact ⟨hnext, hlisteners, hhandlers, htaps, [], by rw [hpast, List.append_nil], by simp⟩

theorem Aside.refl (r : Router) : r.Aside r := .of_registry rfl

theorem Aside.trans (h : r.Aside r') (h' : r'.Aside r'') : r.Aside r'' := by
  obtain ⟨more, hpast, hmore⟩ := h.past_eq
  obtain ⟨more', hpast', hmore'⟩ := h'.past_eq
  refine ⟨h'.nextListener_eq.trans h.nextListener_eq, h'.listeners_eq.trans h.listeners_eq,
    h'.handlers_eq.trans h.handlers_eq, h'.taps_eq.trans h.taps_eq, more ++ more', ?_,
    List.forall_mem_append.2 ⟨hmore, hmore'⟩⟩
  rw [hpast', hpast, List.append_assoc]

theorem record_aside (r : Router) (hm : m.isRegistration = false) : r.Aside (r.record m) :=
  ⟨rfl, rfl, rfl, rfl, [m], rfl, List.forall_mem_singleton.2 hm⟩

theorem close_aside (r : Router) (reason : String) : r.Aside (r.close reason).1 := by
  refine ⟨by rw [close_eq], by rw [close_eq], by rw [close_eq], by rw [close_eq], _, congrArg past (r.close_eq reason), ?_⟩
  cases r.closed <;> simp [Moment.isRegistration]

theorem offered_aside (r : Router) (message : Message) (waiter : Option Waiter) (data : List UInt8) :
    r.Aside (r.offered message waiter data) := by
  refine ⟨rfl, rfl, rfl, rfl, _, by rw [offered, List.append_assoc], ?_⟩
  cases waiter <;> simp [Moment.isRegistration, entry]

theorem send_aside (r : Router) (message : Message) (waiter : Option Waiter) :
    r.Aside (r.send message waiter).2.1 := by
  have hsends := r.send_sends message waiter
  generalize r.send message waiter = sent at hsends
  cases hsends with
  | refused => exact .refl r
  | unframed => exact ⟨rfl, rfl, rfl, rfl, [.numbered r.allocateSerial.1], rfl, List.forall_mem_singleton.2 rfl⟩
  | @taken data => exact r.offered_aside message waiter data
  | @failed data why => exact (r.offered_aside message waiter data).trans (close_aside _ _)

theorem sendCall_aside (r : Router) (message : Message) (waiter : Waiter) :
    r.Aside (r.sendCall message waiter).2.1 := by
  unfold sendCall
  split
  · exact r.send_aside message (some waiter)
  · exact .refl r

theorem sendBuilt_aside (r : Router) (message : Except Error Message) : r.Aside (r.sendBuilt message).2.1 := by
  cases message with
  | error e => exact .refl r
  | ok message => exact r.send_aside message none

theorem takeWaiter_aside (r : Router) (message : Message) : r.Aside (r.takeWaiter message).1 := by
  unfold takeWaiter
  split
  · exact .refl r
  · split <;> exact .of_registry rfl

theorem exhaust_aside (r : Router) (arrivals : List Arrival) : r.Aside (r.exhaust arrivals).2.1 := by
  induction arrivals with
  | nil => exact r.close_aside _
  | cons arrival arrivals ih =>
    match arrival with
    | .bytes [] => exact r.close_aside _
    | .bytes (_ :: _) => exact .refl r
    | .interrupted => exact ih
    | .failed reason => exact r.close_aside reason

theorem poll_registry (r : Router) (i : Nat) : (r.poll i).2.registry = r.registry := by
  unfold poll
  split <;> rfl

theorem await_registry (r : Router) (i : Nat) : (r.await i).2.registry = r.registry := by
  have hpolled := r.poll_registry i
  unfold await
  split
  · next h => rw [h] at hpolled; exact hpolled
  · exact hpolled

theorem cancel_aside (r : Router) (s : UInt32) : r.Aside (r.cancel s).2 := by
  unfold cancel
  split
  · exact .refl r
  · next waiter _ => cases waiter <;> exact .of_registry rfl

theorem effect_aside (r : Router) {action : Action} (haction : action.isRegistration = false) :
    r.Aside (r.effect action).2.1 := by
  cases action with
  | send message => exact r.send_aside message none
  | invoke message label script => exact r.sendCall_aside message _
  | call message =>
    have hsent := r.sendCall_aside message (.handle r.handles.length)
    simp only [effect]
    split <;> next h => rw [h] at hsent; exact ⟨hsent.1, hsent.2, hsent.3, hsent.4, hsent.5⟩
  | poll i => exact .of_registry (r.poll_registry i)
  | await i => exact .of_registry (r.await_registry i)
  | cancel s => exact r.cancel_aside s
  | feed chunks => exact .refl r
  | run arrivals => exact r.exhaust_aside arrivals
  | close reason => exact r.close_aside reason
  | fail e => exact .refl r
  | listen | unlisten | serve | unserve | tap => cases haction

theorem perform_aside (r : Router) {action : Action} (haction : action.isRegistration = false) :
    r.Aside (r.perform action).2.1 :=
  (r.effect_aside haction).trans (record_aside _ haction)

theorem tell_aside (r : Router) (s : UInt32) (w : Waiter) (o : CallOutcome) : r.Aside (r.tell s w o).1 := by
  have htold : r.Aside (r.record (.told s w o)) := r.record_aside rfl
  cases w with
  | callback cb => exact htold.trans (record_aside _ rfl)
  | handle i => exact htold.trans (.of_registry rfl)

end Router

/-- **Only an action adds or removes a listener, a handler or a tap**; at every other turn they stand aside. -/
theorem Job.turn_registers (job : Job) (r : Router) :
    r.Aside (job.turn r).1 ∨ ∃ action, job.action? = some action ∧ action.isRegistration = true := by
  have haction {action : Action} (h : (job.turn r).1 = (r.perform action).2.1) (hjob : job.action? = some action) :
      r.Aside (job.turn r).1 ∨ ∃ action, job.action? = some action ∧ action.isRegistration = true := by
    cases hregistration : action.isRegistration with
    | true => exact .inr ⟨action, hjob, hregistration⟩
    | false => exact .inl (h ▸ r.perform_aside hregistration)
  cases job with
  | own action => exact haction rfl rfl
  | task given =>
    cases given with
    | act action => exact haction rfl rfl
    | note event => exact .inl (r.record_aside rfl)
    | run callback event => exact .inl (r.record_aside rfl)
    | tell s w o => exact .inl (r.tell_aside s w o)
  | close reason => exact .inl (r.close_aside reason)
  | deal message => exact .inl (r.record_aside rfl)
  | route message =>
    have hrouted : r.Aside (r.record (.routed message)) := r.record_aside rfl
    rw [turn]
    cases message.type with
    | methodReturn | error => exact .inl (hrouted.trans (Router.takeWaiter_aside _ message))
    | signal | methodCall => exact .inl hrouted
  | answer call answering => exact .inl (r.sendBuilt_aside _)
  | excuse call e =>
    rw [turn]
    split
    · exact .inl (.refl r)
    · exact .inl (r.sendBuilt_aside _)

/-! ## Adding and removing -/

theorem NameKind.check_cases (kind : NameKind) (name : String) :
    kind.check name = .ok () ∨ kind.check name = .error (.invalidName kind name) := by
  unfold check
  split
  · exact .inl rfl
  · exact .inr rfl

namespace Router

variable {r r' : Router} {more : List Moment} {m : Moment} {key : RouteKey} {appointed : Option Handler}

/-- a listener is added with valid names, or nothing changes -/
theorem listen_cases (r : Router) (path interface member : String) (callback : Callback) :
    (∃ kind name, r.listen path interface member callback = (.error (.invalidName kind name), r)) ∨
      r.listen path interface member callback = (.ok r.nextListener, { r with
        nextListener := r.nextListener + 1
        listeners := r.listeners ++ [⟨r.nextListener, ⟨path, some interface, member⟩, callback⟩] }) := by
  unfold listen
  rcases NameKind.objectPath.check_cases path with hpath | hpath <;>
    rcases NameKind.interface.check_cases interface with hinterface | hinterface <;>
    rcases NameKind.member.check_cases member with hmember | hmember <;>
    simp [hpath, hinterface, hmember, bind, Except.bind]

/-- so is a handler -/
theorem serve_cases (r : Router) (key : RouteKey) (callback : Callback) (handling : Handling) :
    (∃ kind name, r.serve key callback handling = (.error (.invalidName kind name), r)) ∨
      r.serve key callback handling = (.ok (), { r with
        handlers := (r.handlers.filter fun handler => handler.key ≠ key) ++ [⟨key, callback, handling⟩] }) := by
  unfold serve
  rcases hinterface : key.interface with _ | interface
  · rcases NameKind.objectPath.check_cases key.path with hpath | hpath <;>
      rcases NameKind.member.check_cases key.member with hmember | hmember <;>
      simp [hpath, hmember, bind, Except.bind]
  · rcases NameKind.objectPath.check_cases key.path with hpath | hpath <;>
      rcases NameKind.interface.check_cases interface with hvalid | hvalid <;>
      rcases NameKind.member.check_cases key.member with hmember | hmember <;>
      simp [hpath, hvalid, hmember, bind, Except.bind]

/-! ## Listeners -/

/-- the listeners that a router has are those of its past, and they are numbered as they are added -/
structure Listens (r : Router) : Prop where
  listeners_eq : r.listeners = registered r.past
  added_ids : (added r.past).map Listener.id = List.range r.nextListener
  removed_lt : ∀ id ∈ removed r.past, id < r.nextListener

namespace Listens

theorem id_lt (h : r.Listens) {listener : Listener} (hmem : listener ∈ added r.past) : listener.id < r.nextListener := by
  have hid : listener.id ∈ (added r.past).map Listener.id := List.mem_map_of_mem hmem
  rwa [h.added_ids, List.mem_range] at hid

theorem keep (h : r.Listens) (hnext : r'.nextListener = r.nextListener) (hlisteners : r'.listeners = r.listeners)
    (hpast : r'.past = r.past ++ more) (hadded : added more = []) (hremoved : removed more = []) : r'.Listens := by
  have hadded' : added r'.past = added r.past := by rw [hpast, added_append, hadded, List.append_nil]
  have hremoved' : removed r'.past = removed r.past := by rw [hpast, removed_append, hremoved, List.append_nil]
  refine ⟨?_, by rw [hadded', hnext, h.added_ids], by rw [hremoved', hnext]; exact h.removed_lt⟩
  rw [hlisteners, h.listeners_eq, registered, registered, hadded', hremoved']

/-- a listener is added, with a number that was not given to any before -/
theorem add (h : r.Listens) {listener : Listener} (hid : listener.id = r.nextListener)
    (hnext : r'.nextListener = r.nextListener + 1) (hlisteners : r'.listeners = r.listeners ++ [listener])
    (hpast : r'.past = r.past ++ [m]) (hadded : m.added? = some listener) (hremoved : m.removed? = none) : r'.Listens := by
  have hadded' : added r'.past = added r.past ++ [listener] := by
    rw [hpast, added_append, added, added, List.filterMap_cons_some hadded, List.filterMap_nil]
  have hremoved' : removed r'.past = removed r.past := by
    rw [hpast, removed_append, removed, removed, List.filterMap_cons_none hremoved, List.filterMap_nil, List.append_nil]
  have hfresh : listener.id ∉ removed r.past := fun hmem => absurd (h.removed_lt _ hmem) (by omega)
  refine ⟨?_, ?_, ?_⟩
  · rw [hlisteners, h.listeners_eq, registered, registered, hadded', hremoved', List.filter_append,
      List.filter_cons_of_pos (by simpa using hfresh), List.filter_nil]
  · rw [hadded', hnext, List.map_append, h.added_ids, List.map_singleton, hid, List.range_succ]
  · rw [hremoved', hnext]
    exact fun id hmem => Nat.lt_succ_of_lt (h.removed_lt id hmem)

/-- a listener is removed, and no other -/
theorem remove (h : r.Listens) {id : Nat} (hid : id < r.nextListener) (hnext : r'.nextListener = r.nextListener)
    (hlisteners : r'.listeners = r.listeners.filter fun listener => listener.id ≠ id)
    (hpast : r'.past = r.past ++ [m]) (hadded : m.added? = none) (hremoved : m.removed? = some id) : r'.Listens := by
  have hadded' : added r'.past = added r.past := by
    rw [hpast, added_append, added, added, List.filterMap_cons_none hadded, List.filterMap_nil, List.append_nil]
  have hremoved' : removed r'.past = removed r.past ++ [id] := by
    rw [hpast, removed_append, removed, removed, List.filterMap_cons_some hremoved, List.filterMap_nil]
  refine ⟨?_, by rw [hadded', hnext, h.added_ids], ?_⟩
  · rw [hlisteners, h.listeners_eq, registered, registered, hadded', hremoved', List.filter_filter]
    refine List.filter_congr fun listener _ => ?_
    simp [and_comm]
  · rw [hremoved', hnext]
    exact List.forall_mem_append.2 ⟨h.removed_lt, List.forall_mem_singleton.2 hid⟩

end Listens

/-! ## Handlers -/

/-- the handlers that a router has are those of its past, one for the calls of the same names -/
structure Serves (r : Router) : Prop where
  keys_nodup : (r.handlers.map Handler.key).Nodup
  handlers_eq : ∀ key, (r.handlers.find? fun handler => handler.key = key) = serving key r.past

/-- removing the handler of some names is without effect on all others -/
theorem find?_others (handlers : List Handler) (removed key : RouteKey) :
    ((handlers.filter fun handler => handler.key ≠ removed).find? fun handler => handler.key = key)
      = if key = removed then none else handlers.find? fun handler => handler.key = key := by
  rw [List.find?_filter]
  split_ifs with hsame
  · rw [List.find?_eq_none]
    intro handler _
    simp [hsame]
  · congr 1
    funext handler
    by_cases hkey : handler.key = key
    · simp [hkey, hsame]
    · simp [hkey]

namespace Serves

theorem keep (h : r.Serves) (hhandlers : r'.handlers = r.handlers) (hpast : r'.past = r.past ++ more)
    (happoints : ∀ m ∈ more, ∀ key, m.appoints? key = none) : r'.Serves := by
  refine ⟨by rw [hhandlers]; exact h.keys_nodup, fun key => ?_⟩
  rw [hhandlers, hpast, serving_append_none fun m hm => happoints m hm key, h.handlers_eq]

/-- what a moment says about the calls of the names that it is about, and of all others -/
theorem serving_about (happoints : ∀ key', m.appoints? key' = if key = key' then some appointed else none)
    (past : List Moment) (key' : RouteKey) :
    serving key' (past ++ [m]) = if key' = key then appointed else serving key' past := by
  split_ifs with hsame
  · exact serving_snoc (by rw [happoints, if_pos hsame.symm])
  · exact serving_append_none (List.forall_mem_singleton.2 (by rw [happoints, if_neg (Ne.symm hsame)]))

theorem keys_nodup_others (h : r.Serves) (key : RouteKey) :
    ((r.handlers.filter fun handler => handler.key ≠ key).map Handler.key).Nodup :=
  h.keys_nodup.sublist (List.filter_sublist.map Handler.key)

/-- somebody is set to serve the calls of some names, in place of whoever did -/
theorem appoint (h : r.Serves) (handler : Handler)
    (hhandlers : r'.handlers = (r.handlers.filter fun other => other.key ≠ handler.key) ++ [handler])
    (hpast : r'.past = r.past ++ [m])
    (happoints : ∀ key, m.appoints? key = if handler.key = key then some (some handler) else none) : r'.Serves := by
  refine ⟨?_, fun key => ?_⟩
  · rw [hhandlers, List.map_append, List.map_singleton]
    refine List.nodup_append.2 ⟨h.keys_nodup_others handler.key, List.nodup_singleton _, ?_⟩
    refine List.forall_mem_map.2 fun other hother key hkey => ?_
    rw [List.mem_singleton.1 hkey]
    simpa using (List.mem_filter.1 hother).2
  · rw [hhandlers, hpast, serving_about happoints, List.find?_append, find?_others, h.handlers_eq]
    split_ifs with hsame
    · simp [hsame]
    · simp [Ne.symm hsame]

/-- nobody serves the calls of some names any more -/
theorem dismiss (h : r.Serves) (hhandlers : r'.handlers = r.handlers.filter fun handler => handler.key ≠ key)
    (hpast : r'.past = r.past ++ [m]) (happoints : ∀ key', m.appoints? key' = if key = key' then some none else none) :
    r'.Serves := by
  refine ⟨by rw [hhandlers]; exact h.keys_nodup_others key, fun key' => ?_⟩
  rw [hhandlers, hpast, serving_about happoints, find?_others, h.handlers_eq]

end Serves

/-! ## Runs -/

/-- the listeners, the handlers and the taps that a router has are those of its past -/
structure Registers (r : Router) : Prop where
  listens : r.Listens
  serves : r.Serves
  taps_eq : r.taps = tapping r.past

theorem taps_keep (h : r.taps = tapping r.past) (htaps : r'.taps = r.taps) (hpast : r'.past = r.past ++ more)
    (htapping : tapping more = []) : r'.taps = tapping r'.past := by
  rw [htaps, h, hpast, tapping_append, htapping, List.append_nil]

theorem Aside.registers (h : r.Aside r') (hr : r.Registers) : r'.Registers := by
  obtain ⟨more, hpast, hmore⟩ := h.past_eq
  have hadded : added more = [] := List.filterMap_eq_nil_iff.2 fun m hm => Moment.added?_eq_none (hmore m hm)
  have hremoved : removed more = [] := List.filterMap_eq_nil_iff.2 fun m hm => Moment.removed?_eq_none (hmore m hm)
  have htapping : tapping more = [] := List.filterMap_eq_nil_iff.2 fun m hm => Moment.tap?_eq_none (hmore m hm)
  exact ⟨hr.listens.keep h.nextListener_eq h.listeners_eq hpast hadded hremoved,
    hr.serves.keep h.handlers_eq hpast fun m hm => Moment.appoints?_eq_none (hmore m hm),
    taps_keep hr.taps_eq h.taps_eq hpast htapping⟩

/-- somebody adds a listener, who is numbered next if the names are valid; else nothing changes -/
theorem perform_listen_cases (r : Router) (path interface member label : String) (script : List Action) :
    (∃ kind name, r.perform (.listen path interface member label script) = (.failed (.invalidName kind name),
        r.record (.acted (.listen path interface member label script) (.failed (.invalidName kind name))), [])) ∨
      r.perform (.listen path interface member label script) = (.listener r.nextListener,
        record { r with
          nextListener := r.nextListener + 1
          listeners := r.listeners ++ [⟨r.nextListener, ⟨path, some interface, member⟩, ⟨label, script⟩⟩] }
          (.acted (.listen path interface member label script) (.listener r.nextListener)), []) := by
  rcases r.listen_cases path interface member ⟨label, script⟩ with ⟨kind, name, hlisten⟩ | hlisten
  · refine .inl ⟨kind, name, ?_⟩
    rw [perform, effect, hlisten]
    rfl
  · refine .inr ?_
    rw [perform, effect, hlisten]
    rfl

/-- somebody sets a handler, who takes the place of the one before if the names are valid; else nothing changes -/
theorem perform_serve_cases (r : Router) (path : String) (interface : Option String) (member label : String)
    (script : List Action) (handling : Handling) :
    (∃ kind name, r.perform (.serve path interface member label script handling) = (.failed (.invalidName kind name),
        r.record (.acted (.serve path interface member label script handling) (.failed (.invalidName kind name))), [])) ∨
      r.perform (.serve path interface member label script handling) = (.done,
        record { r with
          handlers := (r.handlers.filter fun handler => handler.key ≠ ⟨path, interface, member⟩)
            ++ [⟨⟨path, interface, member⟩, ⟨label, script⟩, handling⟩] }
          (.acted (.serve path interface member label script handling) .done), []) := by
  rcases r.serve_cases ⟨path, interface, member⟩ ⟨label, script⟩ handling with ⟨kind, name, hserve⟩ | hserve
  · refine .inl ⟨kind, name, ?_⟩
    rw [perform, effect, hserve]
    rfl
  · refine .inr ?_
    rw [perform, effect, hserve]
    rfl

/-- somebody removes a listener, and no other; whether it was there is the answer -/
theorem Listens.perform_unlisten (h : r.Listens) (id : Nat) :
    ∃ answer, r.perform (.unlisten id) = (answer, record { r with
        listeners := r.listeners.filter fun listener => listener.id ≠ id } (.acted (.unlisten id) answer), []) ∧
      (answer = .flag true ↔ ∃ listener ∈ r.listeners, listener.id = id) := by
  by_cases hgiven : r.nextListener ≤ id
  · have hnone : ∀ listener ∈ r.listeners, listener.id ≠ id := by
      intro listener hmem
      rw [h.listeners_eq] at hmem
      have hlt := h.id_lt (List.mem_of_mem_filter hmem)
      omega
    have hsame : (r.listeners.filter fun listener => listener.id ≠ id) = r.listeners := by
      rw [List.filter_eq_self]
      simpa using hnone
    refine ⟨.unknown, ?_, by simpa using hnone⟩
    rw [perform, effect, if_pos hgiven, hsame]
  · refine ⟨.flag (r.listeners.any fun listener => listener.id = id), ?_, by simp⟩
    rw [perform, effect, if_neg hgiven]
    rfl

/-- somebody removes the handler of some names; whether it was there is the answer -/
theorem Serves.perform_unserve (h : r.Serves) (path : String) (interface : Option String) (member : String) :
    r.perform (.unserve path interface member) = (.flag (serving ⟨path, interface, member⟩ r.past).isSome,
      record { r with handlers := r.handlers.filter fun handler => handler.key ≠ ⟨path, interface, member⟩ }
        (.acted (.unserve path interface member) (.flag (serving ⟨path, interface, member⟩ r.past).isSome)), []) := by
  have hfound : (r.handlers.any fun handler => handler.key = ⟨path, interface, member⟩)
      = (serving ⟨path, interface, member⟩ r.past).isSome := by
    rw [← h.handlers_eq, List.isSome_find?]
  rw [perform, effect, Router.unserve, hfound]

theorem Registers.listen (hr : r.Registers) (path interface member label : String) (script : List Action) :
    (r.perform (.listen path interface member label script)).2.1.Registers := by
  have happoints (answer : Answer) :
      ∀ m ∈ [Moment.acted (.listen path interface member label script) answer], ∀ key, m.appoints? key = none :=
    List.forall_mem_singleton.2 fun _ => rfl
  rcases r.perform_listen_cases path interface member label script with ⟨kind, name, hperform⟩ | hperform
  · rw [hperform]
    exact ⟨hr.listens.keep rfl rfl rfl rfl rfl, hr.serves.keep rfl rfl (happoints _), taps_keep hr.taps_eq rfl rfl rfl⟩
  · rw [hperform]
    exact ⟨hr.listens.add rfl rfl rfl rfl rfl rfl, hr.serves.keep rfl rfl (happoints _),
      taps_keep hr.taps_eq rfl rfl rfl⟩

theorem Registers.unlisten (hr : r.Registers) (id : Nat) : (r.perform (.unlisten id)).2.1.Registers := by
  obtain ⟨answer, hperform, hanswer⟩ := hr.listens.perform_unlisten id
  rw [hperform]
  refine ⟨?_, hr.serves.keep rfl rfl (List.forall_mem_singleton.2 fun _ => rfl), taps_keep hr.taps_eq rfl rfl rfl⟩
  by_cases hfound : ∃ listener ∈ r.listeners, listener.id = id
  · obtain rfl := hanswer.2 hfound
    obtain ⟨listener, hmem, rfl⟩ := hfound
    rw [hr.listens.listeners_eq] at hmem
    exact hr.listens.remove (hr.listens.id_lt (List.mem_of_mem_filter hmem)) rfl rfl rfl rfl rfl
  · have hsame : (r.listeners.filter fun listener => listener.id ≠ id) = r.listeners := by
      rw [List.filter_eq_self]
      simpa using hfound
    have hremoved : (Moment.acted (.unlisten id) answer).removed? = none := by
      unfold Moment.removed?
      split
      · next heq =>
        cases heq
        exact absurd (hanswer.1 rfl) hfound
      · rfl
    exact hr.listens.keep rfl hsame rfl rfl (List.filterMap_cons_none hremoved)

theorem Registers.serve (hr : r.Registers) (path : String) (interface : Option String) (member label : String)
    (script : List Action) (handling : Handling) :
    (r.perform (.serve path interface member label script handling)).2.1.Registers := by
  rcases r.perform_serve_cases path interface member label script handling with ⟨kind, name, hperform⟩ | hperform
  · rw [hperform]
    exact ⟨hr.listens.keep rfl rfl rfl rfl rfl, hr.serves.keep rfl rfl (List.forall_mem_singleton.2 fun _ => rfl),
      taps_keep hr.taps_eq rfl rfl rfl⟩
  · rw [hperform]
    refine ⟨hr.listens.keep rfl rfl rfl rfl rfl,
      hr.serves.appoint ⟨⟨path, interface, member⟩, ⟨label, script⟩, handling⟩ rfl rfl fun key => ?_,
      taps_keep hr.taps_eq rfl rfl rfl⟩
    rw [Moment.appoints?]
    split_ifs with hkey
    · rw [hkey]
    · rfl

theorem Registers.unserve (hr : r.Registers) (path : String) (interface : Option String) (member : String) :
    (r.perform (.unserve path interface member)).2.1.Registers :=
  ⟨hr.listens.keep rfl rfl rfl rfl rfl, hr.serves.dismiss rfl rfl fun _ => rfl, taps_keep hr.taps_eq rfl rfl rfl⟩

/-- a tap is added behind all others -/
theorem Registers.tap (hr : r.Registers) (label : String) (script : List Action) :
    (r.perform (.tap label script)).2.1.Registers := by
  refine ⟨hr.listens.keep rfl rfl rfl rfl rfl, hr.serves.keep rfl rfl (List.forall_mem_singleton.2 fun _ => rfl), ?_⟩
  change r.taps ++ [⟨label, script⟩] = tapping (r.past ++ [.acted (.tap label script) .done])
  rw [tapping_append, hr.taps_eq]
  rfl

end Router

section Runs

variable {config : Config} {transport : Transport} {r : Router} {job : Job} {jobs : List Job}

theorem Job.turn_keeps_registers (hr : r.Registers) (job : Job) : (job.turn r).1.Registers := by
  rcases job.turn_registers r with haside | ⟨action, haction, hregistration⟩
  · exact haside.registers hr
  · rw [Job.turn_of_action haction]
    cases action with
    | listen path interface member label script => exact hr.listen path interface member label script
    | unlisten id => exact hr.unlisten id
    | serve path interface member label script handling => exact hr.serve path interface member label script handling
    | unserve path interface member => exact hr.unserve path interface member
    | tap label script => exact hr.tap label script
    | _ => cases hregistration

/-- **Whatever happens on a connection, its listeners, handlers and taps are those of its past.** -/
theorem Reachable.registers (h : Reachable config transport r jobs) : r.Registers := by
  induction h with
  | new =>
    exact ⟨⟨rfl, rfl, by simp [removed]⟩, ⟨List.nodup_nil, fun key => rfl⟩, rfl⟩
  | begin _ _ _ ih => exact ih
  | turn _ ih => exact Job.turn_keeps_registers ih _

end Runs

end MessageBus
