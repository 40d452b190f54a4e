/-
What a turn can do to a connection.

`Router.Change` lists the ways in which a turn changes a router and what it owes to waiters; all else that a turn does
is `Router.Still`: it leaves alone the link, the table of waiters, the serials and whether the connection is closed.
Every turn is a change and then still (`Job.turn_moves`). What every change keeps and what is kept while nothing changes
hence holds of all that comes up on a connection (`Reachable.holds`), and of all that comes after a state of it
(`Reachable.keeps`).

A change by sending is taken apart by `Router.send_sends`.
-/
import Mathlib.Tactic
import MessageBus.Proofs.Connection.Bookkeeping

namespace MessageBus

/-! ## Moments -/

/-- a moment at which nothing is sent, nobody comes to wait, and nobody who waits is dismissed or told -/
def Moment.isSilent : Moment → Bool
  | .seen event => event.isSilent
  | .routed _ | .acted _ _ => true
  | .numbered _ | .entered _ _ | .dismissed _ | .told _ _ _ => false

/-! ## Sending -/

namespace Router

/-- a message as it is sent next -/
def numbered (r : Router) (message : Message) : Message :=
  { message with serial := r.allocateSerial.1, order := r.config.order }

/-- the waiter that is entered for a message, under its serial -/
def entry (r : Router) (waiter : Option Waiter) : List (UInt32 × Waiter) :=
  waiter.toList.map fun waiter => (r.allocateSerial.1, waiter)

/-- the router once the transport was offered the frame of a message -/
def offered (r : Router) (message : Message) (waiter : Option Waiter) (data : List UInt8) : Router :=
  { r with
    link := (r.link.send data).2
    nextSerial := r.allocateSerial.1 + 1
    pending := r.pending ++ r.entry waiter
    past := r.past ++ .numbered r.allocateSerial.1 :: (r.entry waiter).map (fun entry => .entered entry.1 entry.2)
      ++ [.seen (.written (r.numbered message))] }

/-- what comes of sending a message -/
inductive Sends (r : Router) (message : Message) (waiter : Option Waiter) :
    Except Error UInt32 × Router × List Task → Prop
  | refused (hclosed : r.closed.isSome = true) : Sends r message waiter (.error .closed, r, [])
  | unframed {e : Error} (hopen : r.closed = none) (he : (r.numbered message).marshal = .error e) :
      Sends r message waiter (.error e, r.allocateSerial.2, [])
  | taken {data : List UInt8} (hopen : r.closed = none) (hdata : (r.numbered message).marshal = .ok data)
      (hlink : (r.link.send data).1 = .ok ()) :
      Sends r message waiter (.ok r.allocateSerial.1, r.offered message waiter data, [])
  | failed {data : List UInt8} {why : String} (hopen : r.closed = none) (hdata : (r.numbered message).marshal = .ok data)
      (hlink : (r.link.send data).1 = .error why) :
      Sends r message waiter (.error (.transport why), (r.offered message waiter data).close (Error.transport why).message)

theorem send_refused {r : Router} (hclosed : r.closed.isSome = true) (message : Message) (waiter : Option Waiter) :
    r.send message waiter = (.error .closed, r, []) := by
  rw [send, if_pos hclosed]

theorem send_unframed {r : Router} {message : Message} {e : Error} (hopen : r.closed = none)
    (he : (r.numbered message).marshal = .error e) (waiter : Option Waiter) :
    r.send message waiter = (.error e, r.allocateSerial.2, []) := by
  have hmarshal : ({ message with serial := r.allocateSerial.1, order := r.allocateSerial.2.config.order } : Message).marshal
      = .error e := he
  simp only [send, hopen, Option.isSome_none, Bool.false_eq_true, if_false, hmarshal]

theorem send_framed {r : Router} {message : Message} {data : List UInt8} (hopen : r.closed = none)
    (hdata : (r.numbered message).marshal = .ok data) (waiter : Option Waiter) :
    r.send message waiter = match (r.link.send data).1 with
      | .ok _ => (.ok r.allocateSerial.1, r.offered message waiter data, [])
      | .error why => (.error (.transport why), (r.offered message waiter data).close (Error.transport why).message) := by
  have hmarshal : ({ message with serial := r.allocateSerial.1, order := r.allocateSerial.2.config.order } : Message).marshal
      = .ok data := hdata
  simp only [send, hopen, Option.isSome_none, Bool.false_eq_true, if_false, hmarshal]
  rcases hlink : r.link.send data with ⟨_ | _, link⟩ <;> cases waiter <;>
    simp [offered, entry, log, record, allocateSerial, numbered, hlink]

theorem send_sends (r : Router) (message : Message) (waiter : Option Waiter) :
    r.Sends message waiter (r.send message waiter) := by
  rcases hclosed : r.closed with _ | reason
  · cases hmarshal : (r.numbered message).marshal with
    | error e =>
      rw [send_unframed hclosed hmarshal]
      exact .unframed hclosed hmarshal
    | ok data =>
      rw [send_framed hclosed hmarshal]
      cases hlink : (r.link.send data).1 with
      | ok _ => exact .taken hclosed hmarshal hlink
      | error why => exact .failed hclosed hmarshal hlink
  · have hsome : r.closed.isSome = true := by rw [hclosed, Option.isSome_some]
    rw [send_refused hsome]
    exact .refused hsome

/-! ## Closing -/

/-- closing empties the table and is in the past; whoever closes first gives the reason -/
theorem close_eq (r : Router) (reason : String) : (r.close reason).1 = { r with
    pending := []
    closed := some (r.closed.getD reason)
    past := r.past ++ .dismissed reason :: if r.closed.isSome then [] else [.seen (.closed reason)] } := by
  cases hclosed : r.closed <;> simp [close, hclosed, log, record]

@[simp] theorem close_config (r : Router) (reason : String) : (r.close reason).1.config = r.config := by
  rw [close_eq]

@[simp] theorem close_link (r : Router) (reason : String) : (r.close reason).1.link = r.link := by
  rw [close_eq]

@[simp] theorem close_nextSerial (r : Router) (reason : String) : (r.close reason).1.nextSerial = r.nextSerial := by
  rw [close_eq]

@[simp] theorem close_pending (r : Router) (reason : String) : (r.close reason).1.pending = [] := by
  rw [close_eq]

@[simp] theorem close_closed (r : Router) (reason : String) :
    (r.close reason).1.closed = some (r.closed.getD reason) := by
  rw [close_eq]

/-! ## Changes -/

/-- what a router keeps of sending, of closing and of who waits, and all that has happened -/
def core (r : Router) : Config × Link × UInt32 × List (UInt32 × Waiter) × Option String × List Moment :=
  (r.config, r.link, r.nextSerial, r.pending, r.closed, r.past)

/-- nothing is sent or closed, and the table of waiters stays as it is -/
structure Still (r r' : Router) : Prop where
  config_eq : r'.config = r.config
  link_eq : r'.link = r.link
  next_eq : r'.nextSerial = r.nextSerial
  pending_eq : r'.pending = r.pending
  closed_eq : r'.closed = r.closed
  past_eq : ∃ more, r'.past = r.past ++ more ∧ ∀ m ∈ more, m.isSilent = true

/-- the ways in which a turn changes a router and what is owed to waiters, apart from what is still -/
inductive Change : Router → List (UInt32 × Waiter × CallOutcome) → Router → List (UInt32 × Waiter × CallOutcome) → Prop
  | rest (r : Router) (owed : List (UInt32 × Waiter × CallOutcome)) : Change r owed r owed
  | cancelling (r : Router) (owed : List (UInt32 × Waiter × CallOutcome)) (s : UInt32) :
      Change r owed { r with pending := r.pending.filter fun entry => entry.1 ≠ s } owed
  | replying (r : Router) (owed : List (UInt32 × Waiter × CallOutcome)) (s : UInt32) (w : Waiter) (o : CallOutcome)
      (hs : (s, w) ∈ r.pending) :
      Change r owed { r with pending := r.pending.filter fun entry => entry.1 ≠ s } ((s, w, o) :: owed)
  | sending (r : Router) (owed : List (UInt32 × Waiter × CallOutcome)) (message : Message) (waiter : Option Waiter) :
      Change r owed (r.send message waiter).2.1 (owedBy ((r.send message waiter).2.2.map .task) ++ owed)
  | closing (r : Router) (owed : List (UInt32 × Waiter × CallOutcome)) (reason : String) :
      Change r owed (r.close reason).1 (owedBy ((r.close reason).2.map .task) ++ owed)
  | telling (r : Router) (owed : List (UInt32 × Waiter × CallOutcome)) (s : UInt32) (w : Waiter) (o : CallOutcome)
      (handles : List HandleState) :
      Change r ((s, w, o) :: owed) { r with handles, past := r.past ++ .told s w o :: w.heard o } owed

variable {r r' r'' : Router} {owed : List (UInt32 × Waiter × CallOutcome)} {jobs : List Job} {m : Moment}

theorem Still.refl (r : Router) : r.Still r := ⟨rfl, rfl, rfl, rfl, rfl, [], by simp, by simp⟩

theorem Still.record (h : r.Still r') (hm : m.isSilent = true) : r.Still (r'.record m) := by
  obtain ⟨more, hpast, hmore⟩ := h.past_eq
  refine ⟨h.config_eq, h.link_eq, h.next_eq, h.pending_eq, h.closed_eq, more ++ [m], ?_, ?_⟩
  · rw [Router.record, hpast, List.append_assoc]
  · exact List.forall_mem_append.2 ⟨hmore, List.forall_mem_singleton.2 hm⟩

theorem Still.of_core (h : r'.core = r.core) : r.Still r' := by
  simp only [core, Prod.mk.injEq] at h
  obtain ⟨hconfig, hlink, hnext, hpending, hclosed, hpast⟩ := h
  exact ⟨hconfig, hlink, hnext, hpending, hclosed, [], by rw [hpast, List.append_nil], by simp⟩

end Router

/-! ## Moves -/

namespace Router

variable {r r' r'' : Router} {owed : List (UInt32 × Waiter × CallOutcome)} {jobs : List Job} {m : Moment}

/-- a router comes to another by a change, and silent jobs are left -/
structure Moves (r : Router) (owed : List (UInt32 × Waiter × CallOutcome)) (r' : Router) (jobs : List Job) : Prop where
  change : ∃ mid, Change r owed mid (owedBy jobs ++ owed) ∧ mid.Still r'
  isSilent : ∀ job ∈ jobs, job.IsSilent

theorem Moves.of_still (h : r.Still r') (owed : List (UInt32 × Waiter × CallOutcome)) : r.Moves owed r' [] :=
  ⟨⟨r, .rest r owed, h⟩, by simp⟩

theorem Moves.record (h : r.Moves owed r' jobs) (hm : m.isSilent = true) : r.Moves owed (r'.record m) jobs := by
  obtain ⟨mid, hchange, hstill⟩ := h.change
  exact ⟨⟨mid, hchange, hstill.record hm⟩, h.isSilent⟩

theorem Moves.append (h : r.Moves owed r' jobs) {more : List Job} (hmore : ∀ job ∈ more, job.IsModest) :
    r.Moves owed r' (jobs ++ more) := by
  have howed : owedBy more = [] := List.filterMap_eq_nil_iff.2 fun job hjob => (hmore job hjob).owed
  refine ⟨?_, fun job hjob => ?_⟩
  · rw [owedBy_append, howed, List.append_nil]
    exact h.change
  · exact (List.mem_append.1 hjob).elim (h.isSilent job) fun hjob => (hmore job hjob).isSilent

theorem close_moves (r : Router) (reason : String) (owed : List (UInt32 × Waiter × CallOutcome)) :
    r.Moves owed (r.close reason).1 ((r.close reason).2.map .task) :=
  ⟨⟨_, .closing r owed reason, .refl _⟩, r.close_isSilent reason⟩

theorem send_moves (r : Router) (message : Message) (waiter : Option Waiter)
    (owed : List (UInt32 × Waiter × CallOutcome)) :
    r.Moves owed (r.send message waiter).2.1 ((r.send message waiter).2.2.map .task) := by
  refine ⟨⟨_, .sending r owed message waiter, .refl _⟩, ?_⟩
  have hsends := r.send_sends message waiter
  generalize r.send message waiter = sent at hsends
  cases hsends with
  | refused | unframed | taken => simp
  | failed => exact close_isSilent _ _

theorem sendCall_moves (r : Router) (message : Message) (waiter : Waiter)
    (owed : List (UInt32 × Waiter × CallOutcome)) :
    r.Moves owed (r.sendCall message waiter).2.1 ((r.sendCall message waiter).2.2.map .task) := by
  unfold sendCall
  split
  · exact r.send_moves message (some waiter) owed
  · exact .of_still (.refl r) owed

theorem sendBuilt_moves (r : Router) (message : Except Error Message) (owed : List (UInt32 × Waiter × CallOutcome)) :
    r.Moves owed (r.sendBuilt message).2.1 ((r.sendBuilt message).2.2.map .task) := by
  cases message with
  | error e => exact .of_still (.refl r) owed
  | ok message => exact r.send_moves message none owed

theorem cancel_moves (r : Router) (s : UInt32) (owed : List (UInt32 × Waiter × CallOutcome)) :
    r.Moves owed (r.cancel s).2 [] := by
  refine ⟨?_, by simp⟩
  unfold cancel
  split
  · exact ⟨_, .rest r owed, .refl r⟩
  · next w _ => cases w <;> exact ⟨_, .cancelling r owed s, .of_core rfl⟩

/-- whoever waits for the reply is taken out of the table as it was before a moment was recorded -/
theorem takeWaiter_moves (r : Router) (message : Message) (hm : m.isSilent = true)
    (owed : List (UInt32 × Waiter × CallOutcome)) :
    r.Moves owed ((r.record m).takeWaiter message).1 (((r.record m).takeWaiter message).2.map .task) := by
  have hstill : r.Moves owed (r.record m) [] := .of_still ((Still.refl r).record hm) owed
  unfold takeWaiter
  split
  · exact hstill
  · split
    · exact hstill
    · next s _ _ t w hfound =>
      have hmem : (t, w) ∈ r.pending := List.mem_of_find?_eq_some hfound
      obtain rfl : t = s := by simpa using List.find?_some hfound
      exact ⟨⟨_, .replying r owed t w message.outcome hmem, (Still.refl _).record hm⟩, List.forall_mem_singleton.2 trivial⟩

theorem exhaust_moves (r : Router) (arrivals : List Arrival) (owed : List (UInt32 × Waiter × CallOutcome)) :
    r.Moves owed (r.exhaust arrivals).2.1 ((r.exhaust arrivals).2.2.map .task) := by
  induction arrivals with
  | nil => exact r.close_moves _ owed
  | cons arrival arrivals ih =>
    match arrival with
    | .bytes [] => exact r.close_moves _ owed
    | .bytes (_ :: _) => exact .of_still (.refl r) owed
    | .interrupted => exact ih
    | .failed reason => exact r.close_moves _ owed

theorem poll_core (r : Router) (i : Nat) : (r.poll i).2.core = r.core := by
  unfold poll
  split <;> rfl

theorem await_core (r : Router) (i : Nat) : (r.await i).2.core = r.core := by
  have hpolled := r.poll_core i
  unfold await
  split
  · next h => rw [h] at hpolled; exact hpolled
  · exact hpolled

theorem effect_moves (r : Router) (action : Action) (owed : List (UInt32 × Waiter × CallOutcome)) :
    r.Moves owed (r.effect action).2.1 ((r.effect action).2.2.map .task) := by
  have hstill {r' : Router} (h : r'.core = r.core) : r.Moves owed r' [] := .of_still (.of_core h) owed
  cases action with
  | send message => exact r.send_moves message none owed
  | invoke message label script => exact r.sendCall_moves message _ owed
  | call message =>
    have hsent := r.sendCall_moves message (.handle r.handles.length) owed
    simp only [effect]
    split <;> next h =>
      rw [h] at hsent
      obtain ⟨⟨mid, hchange, hmid⟩, hjobs⟩ := hsent
      exact ⟨⟨mid, hchange, hmid.1, hmid.2, hmid.3, hmid.4, hmid.5, hmid.6⟩, hjobs⟩
  | poll i => exact hstill (r.poll_core i)
  | await i => exact hstill (r.await_core i)
  | cancel s => exact r.cancel_moves s owed
  | tap label script => exact hstill rfl
  | listen path interface member label script =>
    simp only [effect, listen]
    split <;> exact hstill rfl
  | unlisten listener =>
    simp only [effect]
    split <;> exact hstill rfl
  | serve path interface member label script handling =>
    simp only [effect, serve]
    split <;> exact hstill rfl
  | unserve path interface member => exact hstill rfl
  | feed chunks => exact hstill rfl
  | run arrivals => exact r.exhaust_moves arrivals owed
  | close reason => exact r.close_moves reason owed
  | fail e => exact hstill rfl

theorem perform_moves (r : Router) (action : Action) (owed : List (UInt32 × Waiter × CallOutcome)) :
    r.Moves owed (r.perform action).2.1 ((r.perform action).2.2.map .task) :=
  (r.effect_moves action owed).record rfl

end Router

/-! ## Turns -/

section Turns

variable {r : Router} {owed : List (UInt32 × Waiter × CallOutcome)} {jobs : List Job}

/-- jobs that owe nobody anything are left, and nothing changes -/
theorem Router.Moves.of_modest {r' : Router} (h : r.Still r') (hjobs : ∀ job ∈ jobs, job.IsModest) :
    r.Moves owed r' jobs :=
  (Moves.of_still h owed).append hjobs

/-- the turn of a task that tells nobody anything -/
theorem Task.turn_moves {given : Task} (hmodest : (Job.task given).IsModest) (r : Router)
    (owed : List (UInt32 × Waiter × CallOutcome)) : r.Moves owed (r.turn given).1 ((r.turn given).2.map .task) := by
  cases given with
  | note event => exact .of_still ((Router.Still.refl r).record (m := .seen event) hmodest.isSilent) owed
  | act action =>
    rw [Router.turn]
    simp only [List.map_append]
    exact (r.perform_moves action owed).append (List.forall_mem_singleton.2 ⟨rfl, rfl⟩)
  | run callback event => exact .of_modest ((Router.Still.refl r).record hmodest.isSilent) callback.jobs_isModest
  | tell s w o => cases hmodest.owed

theorem Job.modest_moves {job : Job} (hmodest : job.IsModest) (r : Router)
    (owed : List (UInt32 × Waiter × CallOutcome)) : r.Moves owed (job.turn r).1 (job.turn r).2 := by
  cases job with
  | task given => exact Task.turn_moves hmodest r owed
  | own action => exact r.perform_moves action owed
  | close reason => exact r.close_moves reason owed
  | deal message =>
    refine .of_modest ((Router.Still.refl r).record rfl) (List.forall_mem_append.2 ⟨Router.tapped_isModest _ message, ?_⟩)
    exact List.forall_mem_singleton.2 ⟨rfl, trivial⟩
  | route message =>
    have hrouted : r.Still (r.record (.routed message)) := (Router.Still.refl r).record rfl
    rw [turn]
    cases message.type with
    | methodReturn | error => exact r.takeWaiter_moves message rfl owed
    | signal => exact .of_modest hrouted (Router.signalled_isModest _ message)
    | methodCall =>
      refine .of_modest hrouted (List.forall_mem_append.2 ⟨Router.served_isModest _ message, ?_⟩)
      split
      · exact List.forall_mem_singleton.2 ⟨rfl, trivial⟩
      · simp
  | answer call answering => exact (r.sendBuilt_moves _ owed).append (Job.excuses_isModest call _)
  | excuse call e =>
    rw [turn]
    split
    · exact .of_still (.refl r) owed
    · exact r.sendBuilt_moves _ owed

/-- a waiter is told the outcome of its call, which it is owed no more -/
theorem Router.tell_change (r : Router) (s : UInt32) (w : Waiter) (o : CallOutcome)
    (owed : List (UInt32 × Waiter × CallOutcome)) : Router.Change r ((s, w, o) :: owed) (r.tell s w o).1 owed := by
  have htold := Router.Change.telling r owed s w o (w.show (.resolved o) r.handles)
  cases w with
  | callback cb => simpa [tell, log, record, Waiter.heard, Waiter.show] using htold
  | handle i => exact htold

/-- **Every turn is a change and then still**, and leaves silent jobs. -/
theorem Job.turn_moves {job : Job} (hsilent : job.IsSilent) (r : Router) (jobs : List Job) :
    (∃ mid, Router.Change r (owedBy (job :: jobs)) mid (owedBy ((job.turn r).2 ++ jobs)) ∧ mid.Still (job.turn r).1) ∧
      ∀ left ∈ (job.turn r).2, left.IsSilent := by
  rcases howed : job.owed? with _ | ⟨s, w, o⟩
  · have hsame : owedBy (job :: jobs) = owedBy jobs := List.filterMap_cons_none howed
    rw [hsame, owedBy_append]
    have hmoves := Job.modest_moves ⟨howed, hsilent⟩ r (owedBy jobs)
    exact ⟨hmoves.change, hmoves.isSilent⟩
  · obtain rfl : job = .task (.tell s w o) := by
      unfold Job.owed? at howed
      split at howed <;> simp_all
    have hmodest := r.tell_isModest s w o
    have hnobody : owedBy ((r.tell s w o).2.map .task) = [] :=
      List.filterMap_eq_nil_iff.2 fun job hjob => (hmodest job hjob).owed
    refine ⟨⟨_, ?_, .refl _⟩, fun job hjob => (hmodest job hjob).isSilent⟩
    have htold := r.tell_change s w o (owedBy jobs)
    rw [owedBy_append]
    change Router.Change _ _ _ (owedBy ((r.tell s w o).2.map .task) ++ owedBy jobs)
    rw [hnobody]
    exact htold

end Turns

/-! ## Runs -/

section Runs

variable {config : Config} {transport : Transport} {r r' : Router} {jobs jobs' : List Job}

theorem Reachable.isSilent (h : Reachable config transport r jobs) : ∀ job ∈ jobs, job.IsSilent := by
  induction h with
  | new => simp
  | begin job hjob _ _ => exact List.forall_mem_singleton.2 (Job.isModest_of_isBeginning hjob).isSilent
  | turn _ ih =>
    rw [List.forall_mem_cons] at ih
    exact List.forall_mem_append.2 ⟨(Job.turn_moves ih.1 _ []).2, ih.2⟩

/-- what every change of a reachable router keeps, and what is kept while nothing changes, holds ever after -/
theorem Reachable.keeps {P : Router → List (UInt32 × Waiter × CallOutcome) → Prop} (h : Reachable config transport r jobs)
    (hchange : ∀ r jobs mid owed, Reachable config transport r jobs → Router.Change r (owedBy jobs) mid owed →
      P r (owedBy jobs) → P mid owed)
    (hstill : ∀ r r' owed, Router.Still r r' → P r owed → P r' owed) (hlater : Later r jobs r' jobs')
    (hnow : P r (owedBy jobs)) : P r' (owedBy jobs') := by
  induction hlater with
  | refl => exact hnow
  | begin job hjob _ ih =>
    have hnobody : owedBy [job] = [] := List.filterMap_cons_none (Job.isModest_of_isBeginning hjob).owed
    rw [hnobody]
    exact ih
  | @turn r' job left hlater ih =>
    have hreachable := h.later hlater
    obtain ⟨⟨mid, hmid, hr'⟩, -⟩ := Job.turn_moves (List.forall_mem_cons.1 hreachable.isSilent).1 r' left
    exact hstill _ _ _ hr' (hchange _ _ _ _ hreachable hmid ih)

/-- what holds of a new router, and is kept by every change and while nothing changes, holds of every reachable one -/
theorem Reachable.holds {P : Router → List (UInt32 × Waiter × CallOutcome) → Prop} (h : Reachable config transport r jobs)
    (hnew : P { config, link := { transport } } [])
    (hchange : ∀ r jobs mid owed, Reachable config transport r jobs → Router.Change r (owedBy jobs) mid owed →
      P r (owedBy jobs) → P mid owed)
    (hstill : ∀ r r' owed, Router.Still r r' → P r owed → P r' owed) : P r (owedBy jobs) :=
  Reachable.new.keeps hchange hstill h.later_new hnew

end Runs

end MessageBus
