/-
Calls are served by whom the past has appointed.

`Chosen` are the rules by which the handler of a call is chosen among those of its path and member: the one of just its
names, else the one without an interface, and any at all for a call that names no interface. A router chooses by these
rules (`Router.Serves.chosen`). The handler that is chosen runs once and its answer is that of the call, and just if none
qualifies the answer is that the method is unknown (`Connection.calls_served`).
-/
import Mathlib.Tactic
import MessageBus.Proofs.Connection.Dealings
import MessageBus.Proofs.Connection.Registry

namespace MessageBus

/-! ## The choice of a handler -/

/-- a handler that was set with an interface, or with none, may serve a call that names an interface, or none -/
def Qualifies (interface other : Option String) : Prop := interface = none ∨ other = none ∨ other = interface

/-- who serves the calls of a path and a member that name an interface, or none -/
inductive Chosen (past : List Moment) (path member : String) : Option String → Option Handler → Prop where
  /-- whoever was last set for just these names -/
  | exact {interface : Option String} {handler : Handler}
      (hexact : serving ⟨path, interface, member⟩ past = some handler) :
      Chosen past path member interface (some handler)
  /-- else whoever was last set without an interface -/
  | general {interface : String} {handler : Handler} (hno : serving ⟨path, some interface, member⟩ past = none)
      (hgeneral : serving ⟨path, none, member⟩ past = some handler) :
      Chosen past path member (some interface) (some handler)
  /-- or, if the call names no interface, whoever was last set with any -/
  | any {interface : String} {handler : Handler} (hno : serving ⟨path, none, member⟩ past = none)
      (hany : serving ⟨path, some interface, member⟩ past = some handler) : Chosen past path member none (some handler)
  /-- nobody, if none qualifies -/
  | nobody {interface : Option String}
      (hno : ∀ other, Qualifies interface other → serving ⟨path, other, member⟩ past = none) :
      Chosen past path member interface none

namespace Chosen

variable {past : List Moment} {path member : String} {interface : Option String} {chosen : Option Handler}
  {handler : Handler}

/-- a handler that is chosen qualifies, and is of the path and the member of the call -/
theorem serves (h : Chosen past path member interface (some handler)) :
    Qualifies interface handler.key.interface ∧ handler.key.path = path ∧ handler.key.member = member ∧
      serving handler.key past = some handler := by
  cases h with
  | exact hexact =>
    have hkey := serving_key hexact
    rw [hkey]
    exact ⟨.inr (.inr rfl), rfl, rfl, hexact⟩
  | general hno hgeneral =>
    have hkey := serving_key hgeneral
    rw [hkey]
    exact ⟨.inr (.inl rfl), rfl, rfl, hgeneral⟩
  | any hno hany =>
    have hkey := serving_key hany
    rw [hkey]
    exact ⟨.inl rfl, rfl, rfl, hany⟩

theorem eq_none_iff (h : Chosen past path member interface chosen) :
    chosen = none ↔ ∀ other, Qualifies interface other → serving ⟨path, other, member⟩ past = none := by
  cases h with
  | exact hexact => exact iff_of_false nofun fun hno => by simp [hno interface (.inr (.inr rfl))] at hexact
  | general _ hgeneral => exact iff_of_false nofun fun hno => by simp [hno none (.inr (.inl rfl))] at hgeneral
  | any _ hany => exact iff_of_false nofun fun hno => by simp [hno _ (.inl rfl)] at hany
  | nobody hno => exact iff_of_true rfl hno

end Chosen

namespace Router.Serves

variable {r : Router}

/-- a router has just those handlers who were last set for the calls of their names -/
theorem mem_iff (h : r.Serves) (handler : Handler) :
    handler ∈ r.handlers ↔ serving handler.key r.past = some handler := by
  rw [← h.handlers_eq]
  constructor
  · intro hmem
    cases hfound : r.handlers.find? fun other => other.key = handler.key with
    | none => simpa using List.find?_eq_none.1 hfound handler hmem
    | some other =>
      have hkey : other.key = handler.key := by simpa using List.find?_some hfound
      rw [List.inj_on_of_nodup_map h.keys_nodup (List.mem_of_find?_eq_some hfound) hmem hkey]
  · exact List.mem_of_find?_eq_some

/-- **A router chooses handlers by what the past says about them.** -/
theorem chosen (h : r.Serves) (path member : String) (interface : Option String) :
    Chosen r.past path member interface (r.handlerFor? ⟨path, interface, member⟩) := by
  unfold handlerFor?
  rw [h.handlers_eq]
  cases hexact : serving ⟨path, interface, member⟩ r.past with
  | some handler => exact .exact hexact
  | none =>
    cases interface with
    | some interface =>
      simp only [h.handlers_eq]
      cases hgeneral : serving ⟨path, none, member⟩ r.past with
      | some handler => exact .general hexact hgeneral
      | none =>
        refine .nobody fun other hqualifies => ?_
        rcases hqualifies with hnone | rfl | rfl
        · cases hnone
        · exact hgeneral
        · exact hexact
    | none =>
      cases hany : r.handlers.find? fun handler => handler.key.path = path && handler.key.member = member with
      | some handler =>
        have hnames : handler.key.path = path ∧ handler.key.member = member := by simpa using List.find?_some hany
        have hserves := (h.mem_iff handler).1 (List.mem_of_find?_eq_some hany)
        obtain ⟨⟨_, interface, _⟩, callback, handling⟩ := handler
        obtain ⟨rfl, rfl⟩ := hnames
        cases interface with
        | none => simp [hexact] at hserves
        | some interface => exact .any hexact hserves
      | none =>
        refine .nobody fun other _ => ?_
        rw [← h.handlers_eq, List.find?_eq_none]
        intro handler hmem hkey
        have hother := List.find?_eq_none.1 hany handler hmem
        simp [of_decide_eq_true hkey] at hother

end Router.Serves

/-! ## Calls -/

/-- the error for a call of a member of a path that nobody serves -/
def unserved (path member : String) : RemoteError where
  name := "org.freedesktop.DBus.Error.UnknownMethod"
  text := some ("no method " ++ member ++ " on " ++ path)
  body := .ofString ("no method " ++ member ++ " on " ++ path)

theorem Message.unknownMethod_eq {call : Message} {path member : String} (hpath : call.fields.path = some path)
    (hmember : call.fields.member = some member) : call.unknownMethod = unserved path member := by
  rw [unknownMethod, hpath, hmember]
  rfl

/-- what a call of a member of a path is answered with: what its handler says, or that the method is unknown -/
def answeringOf (call : Message) (path member : String) : Option Handler → Answering
  | some handler => handler.handling.answer call
  | none => .error (unserved path member)

/-- what is to be done for a call: whoever is chosen runs, and the call is answered if it expects that -/
def servedBy (call : Message) (path member : String) (chosen : Option Handler) : List Job :=
  (chosen.toList.map fun handler => .task (.run handler.callback (.served handler.callback.label call)))
    ++ if call.expectsReply then [.answer call (answeringOf call path member chosen)] else []

section Calls

variable {config : Config} {transport : Transport} {r : Router} {call : Message} {path member : String}

/-- a handler is looked up by the names of the call -/
theorem Router.lookup_eq (r : Router) (hpath : call.fields.path = some path)
    (hmember : call.fields.member = some member) :
    call.routeKey?.bind r.handlerFor? = r.handlerFor? ⟨path, call.fields.interface, member⟩ := by
  have hkey : call.routeKey? = some ⟨path, call.fields.interface, member⟩ := by
    rw [Message.routeKey?, hpath, hmember]
    rfl
  rw [hkey, Option.bind_some]

theorem Router.served_eq (r : Router) (hpath : call.fields.path = some path) (hmember : call.fields.member = some member) :
    r.served call = (answeringOf call path member (r.handlerFor? ⟨path, call.fields.interface, member⟩),
      (r.handlerFor? ⟨path, call.fields.interface, member⟩).toList.map fun handler =>
        .run handler.callback (.served handler.callback.label call)) := by
  rw [served, r.lookup_eq hpath hmember]
  rcases r.handlerFor? ⟨path, call.fields.interface, member⟩ with _ | handler
  · simp only [Message.unknownMethod_eq hpath hmember]
    rfl
  · rfl

/-- what is left to be done for a call that is routed -/
theorem Job.turn_call (hcall : call.type = .methodCall) (hpath : call.fields.path = some path)
    (hmember : call.fields.member = some member) : ((Job.route call).turn r).2
      = servedBy call path member (r.handlerFor? ⟨path, call.fields.interface, member⟩) := by
  have hsame : (r.record (.routed call)).served call = r.served call := rfl
  rw [turn, hcall]
  simp only [hsame, r.served_eq hpath hmember, List.map_map]
  rfl

/-- what is done about a call that is routed: whoever is chosen runs -/
theorem Router.call_dealings {chosen : Option Handler} (hcall : call.type = .methodCall)
    (hchosen : call.routeKey?.bind r.handlerFor? = chosen) :
    ((r.record (.routed call)).route call).dealings = r.dealings ++ .routed call :: chosen.toList.map fun handler =>
      .seen (.served handler.callback.label call) := by
  have hrouted : (r.record (.routed call)).dealings = r.dealings ++ [.routed call] := r.record_dealings _
  have hdue : (r.record (.routed call)).due call = chosen.toList.map fun handler =>
      .seen (.served handler.callback.label call) := by
    have hsame : (r.record (.routed call)).handlerFor? = r.handlerFor? := rfl
    rw [due, hcall, hsame]
    simp only [hchosen]
    rcases chosen with _ | handler <;> rfl
  rw [route_dealings, hrouted, hdue, List.append_assoc, List.singleton_append]

/-- what holds of the handlers of a connection, with jobs that are still to be done -/
structure CallsServed (r : Router) (jobs : List Job) : Prop where
  /-- the handlers at hand are those that were last set for the calls of their names, and not removed since -/
  handlers_iff : ∀ handler, handler ∈ r.handlers ↔ serving handler.key r.past = some handler
  /-- when a call is routed, whoever is chosen by its names runs, once and whatever is done meanwhile, and says what the
  answer is; if nobody is chosen, it is that the method is unknown -/
  served : ∀ call left path member, jobs = .route call :: left → call.type = .methodCall →
    call.fields.path = some path → call.fields.member = some member →
      ∃ chosen, Chosen r.past path member call.fields.interface chosen ∧
        ((Job.route call).turn r).2 = servedBy call path member chosen ∧
        ((r.record (.routed call)).route call).dealings = r.dealings ++ .routed call :: chosen.toList.map fun handler =>
          .seen (.served handler.callback.label call)
  /-- whoever is chosen is of the path and the member of the call -/
  chosen_names : ∀ path member interface handler, Chosen r.past path member interface (some handler) →
    handler.key.path = path ∧ handler.key.member = member
  /-- nobody runs, and the answer is that there is no such method, just if no handler qualifies -/
  unknown_iff : ∀ call path member, call.fields.path = some path → call.fields.member = some member →
    (r.served call = (.error (unserved path member), []) ↔
      ∀ other, Qualifies call.fields.interface other → serving ⟨path, other, member⟩ r.past = none)
  /-- setting a handler fails for a name that is none only, and changes nothing then -/
  serve_failed : ∀ path interface member label script handling e,
    (r.perform (.serve path interface member label script handling)).1 = .failed e →
      (∃ kind name, e = .invalidName kind name) ∧ (r.perform (.serve path interface member label script handling)).2
        = (r.record (.acted (.serve path interface member label script handling) (.failed e)), [])
  /-- else it serves the calls of its names, and all others are served as before -/
  serve_done : ∀ path interface member label script handling,
    (r.perform (.serve path interface member label script handling)).1 = .done → ∀ key,
      ((r.perform (.serve path interface member label script handling)).2.1.handlers.find?
          fun handler => handler.key = key)
        = if key = ⟨path, interface, member⟩ then some ⟨key, ⟨label, script⟩, handling⟩ else serving key r.past
  /-- removing a handler tells whether it was there, and leaves all others -/
  unserve : ∀ path interface member,
    (r.perform (.unserve path interface member)).1 = .flag (serving ⟨path, interface, member⟩ r.past).isSome ∧
      (∃ past, (r.perform (.unserve path interface member)).2 = ({ r with
        handlers := r.handlers.filter fun handler => handler.key ≠ ⟨path, interface, member⟩
        past }, [])) ∧
      ∀ key, ((r.perform (.unserve path interface member)).2.1.handlers.find? fun handler => handler.key = key)
        = if key = ⟨path, interface, member⟩ then none else serving key r.past

theorem Router.Serves.perform_serve (h : r.Serves) (path : String) (interface : Option String) (member label : String)
    (script : List Action) (handling : Handling) :
    (∀ e, (r.perform (.serve path interface member label script handling)).1 = .failed e →
        (∃ kind name, e = .invalidName kind name) ∧ (r.perform (.serve path interface member label script handling)).2
          = (r.record (.acted (.serve path interface member label script handling) (.failed e)), [])) ∧
      ((r.perform (.serve path interface member label script handling)).1 = .done → ∀ key,
        ((r.perform (.serve path interface member label script handling)).2.1.handlers.find?
            fun handler => handler.key = key)
          = if key = ⟨path, interface, member⟩ then some ⟨key, ⟨label, script⟩, handling⟩
            else serving key r.past) := by
  rcases r.perform_serve_cases path interface member label script handling with ⟨kind, name, hperform⟩ | hperform
  · rw [hperform]
    constructor
    · intro e he
      cases he
      exact ⟨⟨kind, name, rfl⟩, rfl⟩
    · intro hdone
      cases hdone
  · rw [hperform]
    constructor
    · intro e he
      cases he
    · intro _ key
      simp only [record, List.find?_append, find?_others, h.handlers_eq]
      split_ifs with hsame
      · simp [hsame]
      · simp [Ne.symm hsame]

/-- **Handler lookup follows the registrations.** Whatever the owner of a new connection does leads to a reachable state.
In each of these, between operations or in the middle of one, calls are served by whoever was last set for their names and
not removed since, by its owner or by scripts. -/
theorem Connection.calls_served (config : Config) (transport : Transport) :
    (∀ actions, Reachable config transport ((Connection.new config transport).runAll actions).router []) ∧
      ∀ r jobs, Reachable config transport r jobs → CallsServed r jobs := by
  refine ⟨Reachable.runAll config transport, fun r jobs h => ?_⟩
  have hserves := h.registers.serves
  refine {
    handlers_iff := hserves.mem_iff
    served := fun call left path member _ hcall hpath hmember => ?_
    chosen_names := fun path member interface handler hchosen => ⟨hchosen.serves.2.1, hchosen.serves.2.2.1⟩
    unknown_iff := fun call path member hpath hmember => ?_
    serve_failed := fun path interface member label script handling =>
      (hserves.perform_serve path interface member label script handling).1
    serve_done := fun path interface member label script handling =>
      (hserves.perform_serve path interface member label script handling).2
    unserve := fun path interface member => ?_ }
  · have hlookup := r.lookup_eq hpath hmember
    exact ⟨_, hserves.chosen path member call.fields.interface, Job.turn_call hcall hpath hmember,
      Router.call_dealings hcall hlookup⟩
  · rw [r.served_eq hpath hmember,
      ← (hserves.chosen path member call.fields.interface).eq_none_iff]
    rcases r.handlerFor? ⟨path, call.fields.interface, member⟩ with _ | handler <;> simp [answeringOf]
  · rw [hserves.perform_unserve]
    refine ⟨rfl, ⟨_, rfl⟩, fun key => ?_⟩
    simp only [Router.record, Router.find?_others, hserves.handlers_eq]

/-- a handler that was replaced, one for any interface that was removed, and one for another interface -/
def attendant : Connection := (Connection.new {} .reliable).runAll [
  .serve "/" (some "o.a") "M" "old" [] .echo,
  .serve "/" none "M" "any" [] .echo,
  .serve "/" (some "o.b") "M" "other" [] .echo,
  .serve "/" (some "o.a") "M" "new" [.unserve "/" (some "o.a") "M"] (.fail (.failed "busy")),
  .unserve "/" none "M"]

/-- a call that names an interface -/
def named (interface : String) : Message :=
  { type := .methodCall, serial := 9, fields := { path := some "/", interface := some interface, member := some "M" } }

/-- the handler that took the place of another is chosen, and removes itself. A call of an interface that nobody serves is
not served by those of others, now that the one for any is gone, and gets an error that says so -/
theorem Connection.calls_served_named :
    Reachable {} .reliable (attendant.router.log (.arrived (named "o.a"))) [.route (named "o.a")] ∧
      CallsServed (attendant.router.log (.arrived (named "o.a"))) [.route (named "o.a")] ∧
      ((serving ⟨"/", some "o.a", "M"⟩ attendant.router.past).map fun handler => handler.callback.label) = some "new" ∧
      (attendant.router.dispatch (named "o.a")).dealings
        = [.seen (.arrived (named "o.a")), .routed (named "o.a"), .seen (.served "new" (named "o.a"))] ∧
      (∀ other, Qualifies (some "o.c") other → serving ⟨"/", other, "M"⟩ attendant.router.past = none) ∧
      (attendant.router.dispatch (named "o.c")).written.map
          (fun m => (m.type, m.fields.errorName, m.body.values))
        = [(.error, some "org.freedesktop.DBus.Error.UnknownMethod", [.scalar (.text .string "no method M on /")])] := by
  have hattendant := (Connection.calls_served {} .reliable).1 [
    .serve "/" (some "o.a") "M" "old" [] .echo,
    .serve "/" none "M" "any" [] .echo,
    .serve "/" (some "o.b") "M" "other" [] .echo,
    .serve "/" (some "o.a") "M" "new" [.unserve "/" (some "o.a") "M"] (.fail (.failed "busy")),
    .unserve "/" none "M"]
  have hjobs : ((Job.deal (named "o.a")).turn attendant.router).2 ++ [] = [.route (named "o.a")] := by cbv
  have harrived : Reachable {} .reliable (attendant.router.log (.arrived (named "o.a"))) [.route (named "o.a")] := by
    rw [← hjobs]
    exact (hattendant.begin (.deal (named "o.a")) rfl).turn
  have hunserved : attendant.router.served (named "o.c") = (.error (unserved "/" "M"), []) := by cbv
  exact ⟨harrived, (Connection.calls_served {} .reliable).2 _ _ harrived, by cbv, by cbv,
    (((Connection.calls_served {} .reliable).2 _ _ hattendant).unknown_iff (named "o.c") "/" "M" rfl rfl).1 hunserved,
    by cbv⟩

end Calls

end MessageBus
