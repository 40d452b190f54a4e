/-
Messages are routed by what has happened.

Who waits for which reply is told by the past as well (`waiting`): they were entered, and since then neither the reply was
routed nor the call cancelled nor everybody dismissed. So `Due` says what is done about a message that is routed without
looking into the connection: whoever waits for a reply is told what it says, those who listen for a signal hear it, and
whoever is chosen to serve a call does. `Dealt` says how a message as a whole is dealt with, and `DealtAll` how messages
are, one after another. A connection deals with incoming messages in this way (`Reachable.dealtAll`).
-/
import Mathlib.Tactic
import MessageBus.Proofs.Connection.Handlers
import MessageBus.Proofs.Connection.Signals

namespace MessageBus

/-! ## Who waits -/

/-- those who wait for replies after a moment -/
def Moment.awaited (entries : List (UInt32 × Waiter)) : Moment → List (UInt32 × Waiter)
  | .entered serial waiter => entries ++ [(serial, waiter)]
  | .routed message => entries.filter fun entry => !message.isReplyTo entry.1
  | .dismissed _ => []
  | .acted (.cancel serial) (.flag true) => entries.filter fun entry => entry.1 ≠ serial
  | _ => entries

/-- who waits for the replies to which serials, by all that has happened -/
def waiting (past : List Moment) : List (UInt32 × Waiter) := past.foldl Moment.awaited []

section Waiting

variable {past more : List Moment} {message : Message} {l l' : Ledger}

theorem waiting_append (past more : List Moment) : waiting (past ++ more) = more.foldl Moment.awaited (waiting past) := by
  rw [waiting, List.foldl_append, waiting]

theorem Moment.awaited_idle {m : Moment} (h : m.isIdle = true) (entries : List (UInt32 × Waiter)) :
    m.awaited entries = entries := by
  unfold awaited
  split <;> simp_all [isIdle]

theorem waiting_idle (h : ∀ m ∈ more, m.isIdle = true) : waiting (past ++ more) = waiting past := by
  rw [waiting_append]
  induction more with
  | nil => rfl
  | cons m more ih =>
    rw [List.forall_mem_cons] at h
    rw [List.foldl_cons, Moment.awaited_idle h.1, ih h.2]

/-- a reply is for nobody but those who wait under its serial -/
theorem filter_isReplyTo {s : UInt32} (h : message.isReplyTo s = true) (entries : List (UInt32 × Waiter)) :
    (entries.filter fun entry => !message.isReplyTo entry.1) = entries.filter fun entry => entry.1 ≠ s := by
  refine List.filter_congr fun entry _ => ?_
  by_cases hsame : entry.1 = s
  · simp [hsame, h]
  · have hother : message.isReplyTo entry.1 = false := by
      by_contra hyes
      exact hsame (Message.isReplyTo_unique (by simpa using hyes) h)
    simp [hsame, hother]

theorem Ledger.Step.pending_eq (h : l.Step l') (hpending : l.pending = waiting l.past) : l'.pending = waiting l'.past := by
  cases h with
  | quiet m hm | reading m i handles hm =>
    exact hpending.trans (waiting_idle (List.forall_mem_singleton.2 hm.isIdle)).symm
  | number s hs => exact hpending.trans (waiting_idle (List.forall_mem_singleton.2 rfl)).symm
  | opening s w e m hs hclosed hw he hm =>
    have hopened : waiting (l.past ++ [.numbered s, .entered s w, .seen e]) = l.pending ++ [(s, w)] := by
      rw [waiting_append, ← hpending]
      rfl
    have hsplit : l.past ++ [.numbered s, .entered s w, .seen e, m] = l.past ++ [.numbered s, .entered s w, .seen e] ++ [m] := by
      simp
    rw [hsplit, waiting_idle (List.forall_mem_singleton.2 (Moment.isIdle_of_opens? hm)), hopened]
  | losing s w hs hw =>
    rw [waiting_append, ← hpending]
    simp [Moment.awaited]
  | dismissing reason =>
    rw [waiting_append]
    simp [Moment.awaited]
  | passing message hno =>
    rw [waiting_append, ← hpending]
    exact (List.filter_eq_self.2 fun entry hentry => by simp [hno entry hentry]).symm
  | replying message s w hs hreply =>
    rw [waiting_append, ← hpending]
    exact (filter_isReplyTo hreply l.pending).symm
  | cancelling s w hs =>
    rw [waiting_append, ← hpending]
    rfl
  | telling s w o owed howed =>
    rw [waiting_append, ← hpending]
    cases w <;> simp [Moment.awaited, Waiter.heard]

theorem Ledger.Step.past_grows (h : l.Step l') : l.past <+: l'.past := by
  cases h <;> exact List.prefix_append _ _

end Waiting

section Reachable

variable {config : Config} {transport : Transport} {r first : Router} {todo jobs : List Job}

/-- **Whatever happens on a connection, those wait who do so by its past.** -/
theorem Reachable.pending_eq (h : Reachable config transport r jobs) : r.pending = waiting r.past := by
  refine Relation.ReflTransGen.head_induction_on (motive := fun l _ => l.pending = waiting l.past → r.pending = waiting r.past)
    h.steps.1 id (fun hstep _ ih hl => ih (hstep.pending_eq hl)) rfl

/-- what has happened stays -/
theorem Reachable.past_grows (h : Reachable config transport first todo) (hlater : Later first todo r jobs) :
    first.past <+: r.past := by
  induction hlater with
  | refl => exact List.prefix_refl _
  | begin _ _ _ ih => exact ih
  | @turn r job jobs hlater ih =>
    obtain ⟨hsteps, -⟩ := Job.turn_steps (List.forall_mem_cons.1 (h.later hlater).steps.2).1 r jobs
    refine ih.trans ?_
    exact Relation.ReflTransGen.head_induction_on (motive := fun l _ => l.past <+: (job.turn r).1.past) hsteps
      (List.prefix_refl _) fun hstep _ ih => hstep.past_grows.trans ih

end Reachable

/-! ## What is due -/

/-- a tap has seen a message -/
def Callback.saw (message : Message) (callback : Callback) : Moment := .seen (.tapped callback.label message)

/-- a handler has run for a call -/
def Handler.ran (call : Message) (handler : Handler) : Moment := .seen (.served handler.callback.label call)

/-- what is done about a message that is routed, by all that has happened before -/
inductive Due (past : List Moment) (message : Message) : List Moment → Prop
  /-- whoever waits for a reply is told what it says -/
  | reply {serial : UInt32} {waiter : Waiter} {outcome : CallOutcome} (hreply : message.isReplyTo serial = true)
      (hwaits : (waiting past).lookup serial = some waiter) (hsaid : message.Says outcome) :
      Due past message (.told serial waiter outcome :: waiter.heard outcome)
  /-- nobody is told about a reply that nobody waits for -/
  | stray (htype : message.type = .methodReturn ∨ message.type = .error)
      (hnobody : ∀ serial, message.isReplyTo serial = true → (waiting past).lookup serial = none) : Due past message []
  /-- those who listen for a signal hear it, in the order in which they were added -/
  | signal (htype : message.type = .signal) : Due past message ((audience past message).map (Listener.heard message))
  /-- whoever is chosen to serve a call does so -/
  | call {path member : String} {chosen : Option Handler} (htype : message.type = .methodCall)
      (hpath : message.fields.path = some path) (hmember : message.fields.member = some member)
      (hchosen : Chosen past path member message.fields.interface chosen) :
      Due past message (chosen.toList.map (Handler.ran message))
  /-- nobody serves a call that lacks one of these names -/
  | nameless (htype : message.type = .methodCall)
      (hnames : message.fields.path = none ∨ message.fields.member = none) : Due past message []

/-- a message is dealt with: it arrives, every tap of that time sees it, in the order in which they were added, and then,
whatever their scripts have done, it is routed once, by its type -/
inductive Dealt (past : List Moment) (message : Message) : List Moment → Prop
  | intro {shown caused : List Moment} (hshown : shown.filter Moment.isDealing = (tapping past).map (Callback.saw message))
      (hdue : Due (past ++ .seen (.arrived message) :: shown) message (caused.filter Moment.isDealing)) :
      Dealt past message (past ++ .seen (.arrived message) :: shown ++ .routed message :: caused)

/-- messages are dealt with one after another -/
inductive DealtAll : List Moment → List Message → List Moment → Prop
  | nil (past : List Moment) : DealtAll past [] past
  | cons {past mid past' : List Moment} {message : Message} {messages : List Message} (hfirst : Dealt past message mid)
      (hrest : DealtAll mid messages past') : DealtAll past (message :: messages) past'

theorem find?_eq_lookup (entries : List (UInt32 × Waiter)) (serial : UInt32) :
    (entries.find? fun entry => entry.1 = serial) = (entries.lookup serial).map fun waiter => (serial, waiter) := by
  induction entries with
  | nil => rfl
  | cons entry entries ih =>
    obtain ⟨s, waiter⟩ := entry
    by_cases hsame : s = serial
    · simp [hsame]
    · have hother : (serial == s) = false := by simpa using Ne.symm hsame
      simp [hsame, List.lookup_cons, hother, ih]

namespace Router.Registers

variable {r : Router} {message : Message}

theorem due_reply (hpending : r.pending = waiting r.past) (htype : message.type = .methodReturn ∨ message.type = .error) :
    Due r.past message (r.due message) := by
  rw [r.due_reply htype, hpending]
  cases hserial : message.fields.replySerial with
  | none => exact .stray htype fun serial hreply => by simp [Message.isReplyTo, hserial] at hreply
  | some serial =>
    rw [Option.bind_some, find?_eq_lookup]
    cases hwaits : (waiting r.past).lookup serial with
    | none =>
      refine .stray htype fun s hreply => ?_
      obtain rfl : serial = s := Option.some.inj (hserial.symm.trans (Message.isReplyTo_iff.1 hreply).2)
      exact hwaits
    | some waiter => exact .reply (Message.isReplyTo_iff.2 ⟨htype, hserial⟩) hwaits (Message.says_outcome htype)

theorem due_call (hr : r.Registers) (htype : message.type = .methodCall) : Due r.past message (r.due message) := by
  have hdue : r.due message = (message.routeKey?.bind r.handlerFor?).toList.map (Handler.ran message) := by
    rw [due, htype]
    rcases message.routeKey?.bind r.handlerFor? with _ | handler <;> rfl
  rw [hdue]
  cases hpath : message.fields.path with
  | none =>
    have hkey : message.routeKey? = none := by rw [Message.routeKey?, hpath]; rfl
    rw [hkey]
    exact .nameless htype (.inl hpath)
  | some path =>
    cases hmember : message.fields.member with
    | none =>
      have hkey : message.routeKey? = none := by rw [Message.routeKey?, hpath, hmember]; rfl
      rw [hkey]
      exact .nameless htype (.inr hmember)
    | some member =>
      rw [r.lookup_eq hpath hmember]
      exact .call htype hpath hmember (hr.serves.chosen path member message.fields.interface)

/-- **What a router does about a message that is routed is due by its past.** -/
theorem due (hr : r.Registers) (hpending : r.pending = waiting r.past) (message : Message) :
    Due r.past message (r.due message) := by
  cases htype : message.type with
  | methodReturn => exact due_reply hpending (.inl htype)
  | error => exact due_reply hpending (.inr htype)
  | signal =>
    rw [hr.listens.due_signal htype]
    exact .signal htype
  | methodCall => exact hr.due_call htype

end Router.Registers

/-! ## Dealing with messages -/

section Dealt

variable {config : Config} {transport : Transport} {r : Router} {message : Message}

theorem Router.takeWaiter_past (r : Router) (message : Message) : (r.takeWaiter message).1.past = r.past := by
  unfold takeWaiter
  split
  · rfl
  · split <;> rfl

theorem Job.turn_route_past (r : Router) (message : Message) :
    ((Job.route message).turn r).1.past = r.past ++ [.routed message] := by
  rw [turn]
  cases message.type with
  | methodReturn | error => exact Router.takeWaiter_past _ message
  | signal | methodCall => rfl

/-- **A message that comes in is dealt with by what has happened before.** -/
theorem Reachable.dealt (h : Reachable config transport r []) (message : Message) :
    Dealt r.past message (r.dispatch message).past := by
  let arrived := r.log (.arrived message)
  let tapped := arrived.settle (arrived.tapped message)
  let routed := tapped.record (.routed message)
  have hdeal : Later r [] arrived ((arrived.tapped message).map .task ++ [.route message]) := by
    have hrefl : Later r [] r [] := .refl
    simpa [Job.turn] using (hrefl.begin (.deal message) rfl).turn
  have htapped : Reachable config transport tapped [.route message] := h.later hdeal.settle
  obtain ⟨shown, hshown⟩ : arrived.past <+: tapped.past := (h.later hdeal).past_grows Later.refl.settle
  obtain ⟨caused, hcaused⟩ : routed.past <+: (routed.route message).past := by
    have hrouted := htapped.turn.past_grows Later.refl.routed
    rwa [Job.turn_route_past] at hrouted
  have htaps : shown.filter Moment.isDealing = (tapping r.past).map (Callback.saw message) := by
    refine List.append_cancel_left ((Router.dealings_append hshown.symm).symm.trans ?_)
    rw [Router.settle_dealings, Router.tapped_dealings, ← h.registers.taps_eq]
    rfl
  have hdue : caused.filter Moment.isDealing = tapped.due message :=
    List.append_cancel_left ((Router.dealings_append hcaused.symm).symm.trans (routed.route_dealings message))
  have htappedPast : tapped.past = r.past ++ .seen (.arrived message) :: shown := by
    rw [← hshown]
    exact List.append_assoc _ _ _
  have hpast : (routed.route message).past = r.past ++ .seen (.arrived message) :: shown ++ .routed message :: caused := by
    rw [← hcaused, ← htappedPast]
    exact List.append_assoc _ _ _
  change Dealt r.past message (routed.route message).past
  rw [hpast]
  refine .intro htaps ?_
  rw [← htappedPast, hdue]
  exact htapped.registers.due htapped.pending_eq message

theorem Reachable.dealtAll (h : Reachable config transport r []) (messages : List Message) :
    DealtAll r.past messages (messages.foldl Router.dispatch r).past := by
  induction messages generalizing r with
  | nil => exact .nil r.past
  | cons message messages ih => exact .cons (h.dealt message) (ih (h.dispatchAll [message]))

end Dealt

end MessageBus
