/-
A connection keeps its books.

What a router keeps of calls, together with the tasks that are still to tell waiters the outcomes, is a ledger
(`Router.ledger`). `Router.Leads` says that a router comes to another by steps of the ledger, and leaves jobs none of
which enters the outcome of a call into the journal by itself. This holds of closing, of sending, of every action, and so
of every turn (`Job.turn_steps`). Hence the books of every reachable router are right (`Reachable.books`), as long as the
serials do not run out.
-/
import Mathlib.Tactic
import MessageBus.Proofs.Connection.Books
import MessageBus.Proofs.Connection.Jobs

namespace MessageBus

/-! ## Fair jobs -/

/-- a job that does not enter the outcome of a call into the journal, unless it tells it to the waiter -/
def Job.IsFair : Job → Prop
  | task (.note event) | task (.run _ event) => event.reply? = none
  | _ => True

theorem Job.IsSilent.isFair {job : Job} (h : job.IsSilent) : job.IsFair := by
  have hfair {event : Event} (hevent : event.isSilent = true) : event.reply? = none := by
    cases event <;> first | rfl | cases hevent
  unfold IsFair
  split
  · exact hfair h
  · exact hfair h
  · trivial

/-! ## Routers -/

/-- what a router keeps of calls, together with what their waiters are owed -/
def Router.ledger (r : Router) (owed : List (UInt32 × Waiter × CallOutcome)) : Ledger :=
  ⟨r.nextSerial, r.pending, owed, r.handles, r.closed.isSome, r.past⟩

/-- a router comes to another by steps of the ledger, and fair jobs are left -/
structure Router.Leads (r : Router) (owed : List (UInt32 × Waiter × CallOutcome)) (r' : Router) (jobs : List Job) :
    Prop where
  steps : Relation.ReflTransGen Ledger.Step (r.ledger owed) (r'.ledger (owedBy jobs ++ owed))
  isFair : ∀ job ∈ jobs, job.IsFair

theorem Moment.quiet_seen {e : Event} (h : e.reply? = none) : (Moment.seen e).Quiet := ⟨rfl, rfl, rfl, h⟩

variable {r r' r'' : Router} {owed : List (UInt32 × Waiter × CallOutcome)} {jobs : List Job} {m : Moment}

namespace Router

theorem Leads.of_ledger (h : r'.ledger owed = r.ledger owed) : r.Leads owed r' [] :=
  ⟨by rw [owedBy_nil, List.nil_append, h], by simp⟩

theorem Leads.of_step (h : (r.ledger owed).Step (r'.ledger owed)) : r.Leads owed r' [] := ⟨.single h, by simp⟩

theorem Leads.trans (h : r.Leads owed r' []) (h' : r'.Leads owed r'' jobs) : r.Leads owed r'' jobs :=
  ⟨h.steps.trans h'.steps, h'.isFair⟩

theorem Leads.record (h : r.Leads owed r' jobs) (hm : m.Quiet) : r.Leads owed (r'.record m) jobs :=
  ⟨h.steps.tail (.quiet _ m hm), h.isFair⟩

/-- closing comes out the same, whether the ledger counts as closed before or not -/
theorem close_steps (r : Router) (reason : String) (owed : List (UInt32 × Waiter × CallOutcome)) (closed : Bool) :
    Relation.ReflTransGen Ledger.Step { r.ledger owed with closed }
      ((r.close reason).1.ledger (owedBy ((r.close reason).2.map .task) ++ owed)) := by
  rw [close_owed]
  have hdismissed := Ledger.Step.dismissing { r.ledger owed with closed } reason
  cases hclosed : r.closed with
  | none =>
    simp only [close, hclosed]
    exact .tail (.single hdismissed) (.quiet _ _ (Moment.quiet_seen rfl))
  | some earlier =>
    simp only [close, hclosed]
    simp only [ledger, hclosed] at hdismissed ⊢
    exact .single hdismissed

theorem close_isFair (r : Router) (reason : String) : ∀ job ∈ (r.close reason).2.map Job.task, job.IsFair :=
  fun job hjob => (r.close_isSilent reason job hjob).isFair

theorem close_leads (r : Router) (reason : String) (owed : List (UInt32 × Waiter × CallOutcome)) :
    r.Leads owed (r.close reason).1 ((r.close reason).2.map .task) :=
  ⟨r.close_steps reason owed r.closed.isSome, r.close_isFair reason⟩

theorem allocateSerial_eq (r : Router) (owed : List (UInt32 × Waiter × CallOutcome)) :
    ∃ serial, (r.ledger owed).Allots serial ∧
      r.allocateSerial = (serial, { r with nextSerial := serial + 1, past := r.past ++ [.numbered serial] }) := by
  refine ⟨_, fun hzero hpending => ?_, rfl⟩
  change r.nextSerial ∉ r.pending.map Prod.fst at hpending
  have hfree : r.isPending r.nextSerial = false := by
    rw [isPending, List.any_eq_false]
    intro entry hentry hsame
    exact hpending (List.mem_map.2 ⟨entry, hentry, of_decide_eq_true hsame⟩)
  change r.nextSerial ≠ 0 at hzero
  rw [freeSerial, hfree]
  simp [ledger, hzero]

theorem send_leads (r : Router) (message : Message) (owed : List (UInt32 × Waiter × CallOutcome)) :
    r.Leads owed (r.send message none).2.1 ((r.send message none).2.2.map .task) := by
  obtain ⟨serial, hserial, hallocated⟩ := r.allocateSerial_eq owed
  have hnumbered := Ledger.Step.number (r.ledger owed) serial hserial
  have hwritten : (Moment.seen (.written { message with serial, order := r.config.order })).Quiet := Moment.quiet_seen rfl
  unfold send
  by_cases hclosed : r.closed.isSome = true
  · rw [if_pos hclosed]
    exact .of_ledger rfl
  · rw [if_neg hclosed, hallocated]
    dsimp only
    split
    · exact .of_step hnumbered
    · split
      · exact ⟨.tail (.single hnumbered) (.quiet _ _ hwritten), by simp⟩
      · refine Leads.trans ?_ (close_leads _ _ owed)
        exact ⟨.tail (.single hnumbered) (.quiet _ _ hwritten), by simp⟩

/-- a call was handed to the transport under a serial, and its waiter is in the table -/
structure Enters (r : Router) (serial : UInt32) (w : Waiter) (r' : Router) : Prop where
  allots : ∀ owed, (r.ledger owed).Allots serial
  closed : r.closed = none
  closed_eq : r'.closed = none
  next_eq : r'.nextSerial = serial + 1
  pending_eq : r'.pending = r.pending ++ [(serial, w)]
  handles_eq : r'.handles = r.handles
  past_eq : ∃ e, (Moment.seen e).Quiet ∧ r'.past = r.past ++ [.numbered serial, .entered serial w, .seen e]

/-- what comes of a call: the serial that its waiter was entered for, or else an error -/
def Calls (r : Router) (owed : List (UInt32 × Waiter × CallOutcome)) (w : Waiter) :
    Except Error UInt32 × Router × List Task → Prop
  | (.ok serial, r', tasks) => tasks = [] ∧ r.Enters serial w r'
  | (.error _, r', tasks) => r.Leads owed r' (tasks.map .task)

theorem send_calls (r : Router) (message : Message) (owed : List (UInt32 × Waiter × CallOutcome)) {w : Waiter}
    (hw : ∀ i, w = .handle i → i = r.handles.length) : r.Calls owed w (r.send message (some w)) := by
  obtain ⟨serial, hserial, hallocated⟩ := r.allocateSerial_eq owed
  have hwritten : (Moment.seen (.written { message with serial, order := r.config.order })).Quiet := Moment.quiet_seen rfl
  unfold send
  by_cases hclosed : r.closed.isSome = true
  · rw [if_pos hclosed]
    exact .of_ledger rfl
  · rw [if_neg hclosed, hallocated]
    have hnone : r.closed = none := by simpa using hclosed
    dsimp only
    split
    · exact .of_step (.number (r.ledger owed) serial hserial)
    · split
      · exact ⟨rfl, fun _ => hserial, hnone, hnone, rfl, rfl, rfl, _, hwritten, by simp [log, record]⟩
      · -- the waiter is entered and dismissed at once, and a handle for it is never made
        refine ⟨.trans ?_ (close_steps _ _ owed true), close_isFair _ _⟩
        have hlost := Ledger.Step.losing (r.ledger owed) serial w hserial fun i hi => (hw i hi).ge
        have hsteps := Relation.ReflTransGen.tail (.single hlost) (.quiet _ _ hwritten)
        simpa [Router.ledger, log, record] using hsteps

theorem sendCall_calls (r : Router) (message : Message) (owed : List (UInt32 × Waiter × CallOutcome)) {w : Waiter}
    (hw : ∀ i, w = .handle i → i = r.handles.length) : r.Calls owed w (r.sendCall message w) := by
  unfold sendCall
  by_cases hexpects : message.expectsReply = true
  · rw [if_pos hexpects]
    exact r.send_calls message owed hw
  · rw [if_neg hexpects]
    exact .of_ledger rfl

/-- the answer to the call is kept in the past, and the handle of the waiter is made -/
theorem Enters.leads {serial : UInt32} {w : Waiter} (h : r.Enters serial w r')
    (hw : ∀ i, w = .handle i → i = r.handles.length) (hm : m.opens? = some (serial, w))
    (owed : List (UInt32 × Waiter × CallOutcome)) :
    r.Leads owed ({ r' with handles := r'.handles ++ w.handles }.record m) [] := by
  obtain ⟨e, he, hpast⟩ := h.past_eq
  refine .of_step ?_
  have hopened := Ledger.Step.opening (r.ledger owed) serial w e m (h.allots owed) (by simp [ledger, h.closed]) hw he hm
  simpa [ledger, record, h.closed, h.closed_eq, h.next_eq, h.pending_eq, h.handles_eq, hpast] using hopened

/-- a handle is asked for the outcome, which leaves the other handles alone -/
def Asks (r : Router) (i : Nat) (asked : Answer × Router) : Prop :=
  ∃ handles, asked.2 = { r with handles } ∧ handles.length = r.handles.length ∧
    (∀ j, j ≠ i → handles[j]? = r.handles[j]?) ∧ ((∃ o, asked.1 = .outcome o) ∨ handles = r.handles)

theorem poll_asks (r : Router) (i : Nat) : r.Asks i (r.poll i) := by
  unfold poll
  split
  · exact ⟨r.handles, rfl, rfl, fun j _ => rfl, .inr rfl⟩
  · exact ⟨r.handles, rfl, rfl, fun j _ => rfl, .inr rfl⟩
  · next o _ => exact ⟨r.handles.set i .dropped, rfl, by simp, fun j hj => by simp [hj.symm], .inl ⟨o, rfl⟩⟩
  · exact ⟨r.handles, rfl, rfl, fun j _ => rfl, .inr rfl⟩

theorem await_asks (r : Router) (i : Nat) : r.Asks i (r.await i) := by
  obtain ⟨handles, hrouter, hlength, hother, hanswer⟩ := poll_asks r i
  unfold await
  split
  · next o r' hpolled =>
    rw [hpolled] at hrouter
    subst hrouter
    exact ⟨handles.set i .unknown, rfl, by simp [hlength], fun j hj => by simp [hj.symm, hother j hj], .inl ⟨o, rfl⟩⟩
  · exact ⟨handles, hrouter, hlength, hother, hanswer⟩

theorem Asks.leads {i : Nat} {asked : Answer × Router} (h : r.Asks i asked) (hm : m.Quiet)
    (hread : ∀ o, asked.1 = .outcome o → HasRead [m] i) (owed : List (UInt32 × Waiter × CallOutcome)) :
    r.Leads owed (asked.2.record m) [] := by
  obtain ⟨handles, hrouter, hlength, hother, ⟨o, ho⟩ | hsame⟩ := h
  · rw [hrouter]
    exact .of_step (.reading (r.ledger owed) m i handles hm (hread o ho) hlength hother)
  · rw [hrouter, hsame]
    exact .of_step (.quiet (r.ledger owed) m hm)

theorem cancel_leads (r : Router) (s : UInt32) (owed : List (UInt32 × Waiter × CallOutcome)) :
    r.Leads owed ((r.cancel s).2.record (.acted (.cancel s) (.flag (r.cancel s).1))) [] := by
  unfold cancel
  split
  · exact .of_step (.quiet (r.ledger owed) _ ⟨rfl, rfl, rfl, rfl⟩)
  · next t w hfound =>
    have hmem : (t, w) ∈ r.pending := List.mem_of_find?_eq_some hfound
    obtain rfl : t = s := by simpa using List.find?_some hfound
    cases w <;> exact .of_step (.cancelling (r.ledger owed) t _ hmem)

theorem exhaust_leads (r : Router) (arrivals : List Arrival) (owed : List (UInt32 × Waiter × CallOutcome)) :
    r.Leads owed (r.exhaust arrivals).2.1 ((r.exhaust arrivals).2.2.map .task) := by
  induction arrivals with
  | nil => exact close_leads r _ owed
  | cons arrival arrivals ih =>
    match arrival with
    | .bytes [] => exact close_leads r _ owed
    | .bytes (_ :: _) => exact .of_ledger rfl
    | .interrupted => exact ih
    | .failed reason => exact close_leads r _ owed

/-- every action goes by steps of the ledger -/
theorem perform_leads (r : Router) (action : Action) (owed : List (UInt32 × Waiter × CallOutcome)) :
    r.Leads owed (r.perform action).2.1 ((r.perform action).2.2.map .task) := by
  cases action with
  | send message => exact (r.send_leads message owed).record ⟨rfl, rfl, rfl, rfl⟩
  | invoke message label script =>
    have hw : ∀ i, Waiter.callback ⟨label, script⟩ = .handle i → i = r.handles.length := by simp
    have hcalls := r.sendCall_calls message owed hw
    rcases hsent : r.sendCall message (.callback ⟨label, script⟩) with ⟨_ | serial, r', tasks⟩ <;> rw [hsent] at hcalls
    · simp only [perform, effect, hsent]
      exact Leads.record hcalls ⟨rfl, rfl, rfl, rfl⟩
    · obtain ⟨rfl, hentered⟩ := hcalls
      simp only [perform, effect, hsent]
      simpa [Waiter.handles] using hentered.leads hw rfl owed
  | call message =>
    have hw : ∀ i, Waiter.handle r.handles.length = .handle i → i = r.handles.length := by simp [eq_comm]
    have hcalls := r.sendCall_calls message owed hw
    rcases hsent : r.sendCall message (.handle r.handles.length) with ⟨_ | serial, r', tasks⟩ <;> rw [hsent] at hcalls
    · simp only [perform, effect, hsent]
      exact Leads.record hcalls ⟨rfl, rfl, rfl, rfl⟩
    · obtain ⟨rfl, hentered⟩ := hcalls
      simp only [perform, effect, hsent]
      exact hentered.leads hw rfl owed
  | poll i =>
    refine (poll_asks r i).leads ⟨rfl, rfl, rfl, rfl⟩ (fun o ho => ⟨o, .inl ?_⟩) owed
    exact List.mem_singleton.2 (congrArg (Moment.acted (.poll i)) ho.symm)
  | await i =>
    refine (await_asks r i).leads ⟨rfl, rfl, rfl, rfl⟩ (fun o ho => ⟨o, .inr ?_⟩) owed
    exact List.mem_singleton.2 (congrArg (Moment.acted (.await i)) ho.symm)
  | cancel s => exact cancel_leads r s owed
  | tap label script => exact .of_step (.quiet (r.ledger owed) _ ⟨rfl, rfl, rfl, rfl⟩)
  | listen path interface member label script =>
    simp only [perform, effect, listen]
    split <;> exact .of_step (.quiet (r.ledger owed) _ ⟨rfl, rfl, rfl, rfl⟩)
  | unlisten listener =>
    simp only [perform, effect]
    split <;> exact .of_step (.quiet (r.ledger owed) _ ⟨rfl, rfl, rfl, rfl⟩)
  | serve path interface member label script handling =>
    simp only [perform, effect, serve]
    split <;> exact .of_step (.quiet (r.ledger owed) _ ⟨rfl, rfl, rfl, rfl⟩)
  | unserve path interface member => exact .of_step (.quiet (r.ledger owed) _ ⟨rfl, rfl, rfl, rfl⟩)
  | feed chunks => exact .of_step (.quiet (r.ledger owed) _ ⟨rfl, rfl, rfl, rfl⟩)
  | run arrivals => exact (exhaust_leads r arrivals owed).record ⟨rfl, rfl, rfl, rfl⟩
  | close reason => exact (close_leads r reason owed).record ⟨rfl, rfl, rfl, rfl⟩
  | fail e => exact .of_step (.quiet (r.ledger owed) _ ⟨rfl, rfl, rfl, rfl⟩)

end Router

/-! ## Turns -/

/-- a job that tells no waiter anything -/
structure Job.IsPlain (job : Job) : Prop where
  owed : job.owed? = none
  isFair : job.IsFair

namespace Router

theorem Leads.append (h : r.Leads owed r' jobs) {more : List Job} (hmore : ∀ job ∈ more, job.IsModest) :
    r.Leads owed r' (jobs ++ more) := by
  have howed : owedBy more = [] := List.filterMap_eq_nil_iff.2 fun job hjob => (hmore job hjob).owed
  refine ⟨?_, fun job hjob => ?_⟩
  · rw [owedBy_append, howed, List.append_nil]
    exact h.steps
  · exact (List.mem_append.1 hjob).elim (h.isFair job) fun hjob => (hmore job hjob).isSilent.isFair

/-- a waiter is told the outcome of its call, which it is owed no more -/
theorem tell_steps (r : Router) (s : UInt32) (w : Waiter) (o : CallOutcome) (owed : List (UInt32 × Waiter × CallOutcome)) :
    Ledger.Step (r.ledger ((s, w, o) :: owed)) ((r.tell s w o).1.ledger owed) := by
  have htold := Ledger.Step.telling (r.ledger ((s, w, o) :: owed)) s w o owed rfl
  cases w with
  | callback cb => simpa [tell, ledger, log, record, Waiter.heard, Waiter.show] using htold
  | handle i => exact htold

/-- a message that is no reply is no reply to anybody who waits -/
theorem routed_leads {message : Message} (hno : ¬(message.type = .methodReturn ∨ message.type = .error)) :
    r.Leads owed (r.record (.routed message)) [] := by
  refine .of_step (.passing (r.ledger owed) message fun entry _ => ?_)
  simp only [Message.isReplyTo, Bool.and_eq_false_iff]
  exact .inl (by simpa using hno)

theorem takeWaiter_leads {message : Message} (hreply : message.type = .methodReturn ∨ message.type = .error) :
    r.Leads owed ((r.record (.routed message)).takeWaiter message).1
      (((r.record (.routed message)).takeWaiter message).2.map .task) := by
  unfold takeWaiter
  split
  · next hserial =>
    exact .of_step (.passing (r.ledger owed) message fun entry _ => by simp [Message.isReplyTo, hserial])
  · next s hserial =>
    split
    · next hnobody =>
      refine .of_step (.passing (r.ledger owed) message fun entry hentry => ?_)
      have hne : entry.1 ≠ s := by simpa using List.find?_eq_none.1 hnobody entry hentry
      simp [Message.isReplyTo, hserial, hne.symm]
    · next t w hfound =>
      have hmem : (t, w) ∈ r.pending := List.mem_of_find?_eq_some hfound
      obtain rfl : t = s := by simpa using List.find?_some hfound
      have hreply : message.isReplyTo t = true := by simpa [Message.isReplyTo, hserial] using hreply
      exact ⟨.single (.replying (r.ledger owed) message t w hmem hreply), by simp [Job.IsFair]⟩

theorem sendBuilt_leads (r : Router) (message : Except Error Message) (owed : List (UInt32 × Waiter × CallOutcome)) :
    r.Leads owed (r.sendBuilt message).2.1 ((r.sendBuilt message).2.2.map .task) := by
  cases message with
  | error e => exact .of_ledger rfl
  | ok message => exact r.send_leads message owed

end Router

theorem Task.turn_leads {given : Task} (hplain : (Job.task given).IsPlain) (r : Router)
    (owed : List (UInt32 × Waiter × CallOutcome)) : r.Leads owed (r.turn given).1 ((r.turn given).2.map .task) := by
  cases given with
  | note event => exact .of_step (.quiet (r.ledger owed) _ (Moment.quiet_seen hplain.isFair))
  | act action =>
    rw [Router.turn]
    simp only [List.map_append]
    exact (r.perform_leads action owed).append (List.forall_mem_singleton.2 ⟨rfl, rfl⟩)
  | run cb event =>
    exact Router.Leads.append (.of_step (.quiet (r.ledger owed) _ (Moment.quiet_seen hplain.isFair))) cb.jobs_isModest
  | tell s w o => cases hplain.owed

/-- a job that tells no waiter anything is done by steps of the ledger -/
theorem Job.turn_leads {job : Job} (hplain : job.IsPlain) (r : Router)
    (owed : List (UInt32 × Waiter × CallOutcome)) : r.Leads owed (job.turn r).1 (job.turn r).2 := by
  cases job with
  | task given => exact Task.turn_leads hplain r owed
  | own action => exact r.perform_leads action owed
  | close reason => exact Router.close_leads r reason owed
  | deal message =>
    have hlogged : r.Leads owed (r.log (.arrived message)) [] :=
      .of_step (.quiet (r.ledger owed) _ (Moment.quiet_seen rfl))
    exact (hlogged.append (Router.tapped_isModest _ message)).append (List.forall_mem_singleton.2 ⟨rfl, trivial⟩)
  | route message =>
    rw [turn]
    cases htype : message.type with
    | methodReturn => exact Router.takeWaiter_leads (.inl htype)
    | error => exact Router.takeWaiter_leads (.inr htype)
    | signal =>
      have hrouted : r.Leads owed (r.record (.routed message)) [] := Router.routed_leads (by simp [htype])
      exact hrouted.append (Router.signalled_isModest _ message)
    | methodCall =>
      have hrouted : r.Leads owed (r.record (.routed message)) [] := Router.routed_leads (by simp [htype])
      refine (hrouted.append (Router.served_isModest _ message)).append ?_
      split
      · exact List.forall_mem_singleton.2 ⟨rfl, trivial⟩
      · simp
  | answer call answering => exact (r.sendBuilt_leads _ owed).append (Job.excuses_isModest call _)
  | excuse call e =>
    rw [turn]
    split
    · exact .of_ledger rfl
    · exact r.sendBuilt_leads _ owed

/-- a turn goes by steps of the ledger, whatever the job -/
theorem Job.turn_steps {job : Job} (hfair : job.IsFair) (r : Router) (jobs : List Job) :
    Relation.ReflTransGen Ledger.Step (r.ledger (owedBy (job :: jobs)))
        ((job.turn r).1.ledger (owedBy ((job.turn r).2 ++ jobs))) ∧
      ∀ job' ∈ (job.turn r).2, job'.IsFair := by
  rcases howed : job.owed? with _ | ⟨s, w, o⟩
  · have hsame : owedBy (job :: jobs) = owedBy jobs := List.filterMap_cons_none howed
    rw [hsame, owedBy_append]
    have hleads := Job.turn_leads ⟨howed, hfair⟩ r (owedBy jobs)
    exact ⟨hleads.steps, hleads.isFair⟩
  · obtain rfl : job = .task (.tell s w o) := by
      unfold Job.owed? at howed
      split at howed <;> simp_all
    have hmodest := r.tell_isModest s w o
    have hnobody : owedBy ((r.tell s w o).2.map .task) = [] :=
      List.filterMap_eq_nil_iff.2 fun job hjob => (hmodest job hjob).owed
    refine ⟨.single ?_, fun job hjob => (hmodest job hjob).isSilent.isFair⟩
    have htold := r.tell_steps s w o (owedBy jobs)
    rw [owedBy_append]
    change Ledger.Step _ ((r.tell s w o).1.ledger (owedBy ((r.tell s w o).2.map .task) ++ owedBy jobs))
    rw [hnobody]
    exact htold

/-- whatever happens on a connection goes by steps of the ledger, and jobs are fair all the time -/
theorem Reachable.steps {config : Config} {transport : Transport} (h : Reachable config transport r jobs) :
    Relation.ReflTransGen Ledger.Step .empty (r.ledger (owedBy jobs)) ∧ ∀ job ∈ jobs, job.IsFair := by
  induction h with
  | new => exact ⟨.refl, by simp⟩
  | begin job hjob h ih =>
    have hmodest := Job.isModest_of_isBeginning hjob
    have hnobody : owedBy [job] = [] := List.filterMap_cons_none hmodest.owed
    rw [hnobody]
    exact ⟨ih.1, List.forall_mem_singleton.2 hmodest.isSilent.isFair⟩
  | turn h ih =>
    obtain ⟨hsteps, hfair⟩ := ih
    rw [List.forall_mem_cons] at hfair
    obtain ⟨hturn, hleft⟩ := Job.turn_steps hfair.1 _ _
    exact ⟨hsteps.trans hturn, fun job hjob => (List.mem_append.1 hjob).elim (hleft job) (hfair.2 job)⟩

/-- **A connection keeps its books**, unless the serials run out. -/
theorem Reachable.books {config : Config} {transport : Transport} (h : Reachable config transport r jobs)
    (hfew : issued r.past < 2 ^ 32 - 1) : Books (r.ledger (owedBy jobs)) :=
  Books.empty.steps h.steps.1 hfew

end MessageBus
