/-
Every call ends once, and with its own reply.

Whoever waits for a reply is entered under a serial of its own. It is told an outcome just if a reply to this serial is
routed, or everybody is dismissed, while it is in the table, and then once; after a call is cancelled nobody is told
anything. `CallsEnd` says this of a connection at any time, between operations or in the middle of one, and
`Connection.calls_end_once` that it holds of every connection on which the serials have not run out.
-/
import Mathlib
import MessageBus.Proofs.Connection.Bookkeeping

namespace MessageBus

/-- what a handle answers when it is asked for the outcome -/
def HandleState.answer : HandleState → Answer
  | waiting => .unresolved
  | resolved outcome => .outcome outcome
  | dropped => .outcome (.error .cancelled)
  | unknown => .unknown

namespace Router

theorem poll_answer (r : Router) (i : Nat) : (r.poll i).1 = (r.handles[i]?.getD .unknown).answer := by
  unfold poll
  split <;> next h => rw [h]; rfl

theorem await_answer (r : Router) (i : Nat) : (r.await i).1 = (r.poll i).1 := by
  unfold await
  split
  · next h => rw [h]
  · rfl

/-- a reply that nobody waits for changes nothing -/
theorem route_strange (r : Router) {message : Message} (hreply : message.type = .methodReturn ∨ message.type = .error)
    (hnobody : ∀ s, message.fields.replySerial = some s → s ∉ r.pending.map Prod.fst) : r.route message = r := by
  have htaken : r.takeWaiter message = (r, []) := by
    unfold takeWaiter
    split
    · rfl
    · next s hserial =>
      have hfind : (r.pending.find? fun entry => entry.1 = s) = none := by
        rw [List.find?_eq_none]
        intro entry hentry hsame
        exact hnobody s hserial (List.mem_map.2 ⟨entry, hentry, of_decide_eq_true hsame⟩)
      rw [hfind]
  unfold route
  obtain htype | htype := hreply <;> simp [htype, htaken, settle]

end Router

/-- what holds of the calls of a connection, with jobs that are still to be done; with none it is between operations -/
structure CallsEnd (r : Router) (jobs : List Job) : Prop where
  /-- whoever waits for a reply is entered under a serial of its own -/
  entered_once : ∀ s w before after, r.past = before ++ .entered s w :: after → ∀ v, .entered s v ∉ before ++ after
  /-- each call that gets through has another serial -/
  opened_nodup : ((opened r.past).map Prod.fst).Nodup
  /-- its waiter is entered under this serial -/
  opened_entered : ∀ s w, (s, w) ∈ opened r.past → .entered s w ∈ r.past
  /-- whoever is entered is in the table, is to be told the outcome or was told it, unless the call was cancelled -/
  fate : ∀ s w, .entered s w ∈ r.past →
    (s, w) ∈ r.pending ∨ (∃ o, .task (.tell s w o) ∈ jobs) ∨ (∃ o, .told s w o ∈ r.past) ∨
      .acted (.cancel s) (.flag true) ∈ r.past
  /-- the table has just those who wait -/
  pending_iff : ∀ s w, (s, w) ∈ r.pending ↔ stage s r.past = .waiting w
  /-- nobody is in the table twice -/
  pending_nodup : (r.pending.map Prod.fst).Nodup
  /-- a waiter has been told an outcome, or is to be told next, just if the call ended with it while it was waited for:
  a reply to its serial said so, or everybody was dismissed -/
  told_iff : ∀ s w o, .told s w o ∈ r.past ∨ .task (.tell s w o) ∈ jobs ↔
    ∃ before m after, r.past = before ++ m :: after ∧ stage s before = .waiting w ∧ m.Ends s o
  /-- nobody is told twice -/
  told_once : ∀ s w o before after, r.past = before ++ .told s w o :: after →
    ∀ v p, .told s v p ∉ before ++ after ∧ .task (.tell s v p) ∉ jobs
  /-- nobody is to be told twice -/
  owed_nodup : ((owedBy jobs).map Prod.fst).Nodup
  /-- nobody is told anything while in the table -/
  pending_untold : ∀ s w, (s, w) ∈ r.pending → ∀ v o, .told s v o ∉ r.past ∧ .task (.tell s v o) ∉ jobs
  /-- nobody is told anything of a call that was cancelled -/
  cancelled_untold : ∀ s, .acted (.cancel s) (.flag true) ∈ r.past →
    ∀ w o, .told s w o ∉ r.past ∧ .task (.tell s w o) ∉ jobs
  /-- the callbacks that have run for outcomes are those that were told so, in this order -/
  heard : r.journal.filterMap Event.reply? = r.past.filterMap Moment.run?
  /-- a reply that nobody waits for changes nothing -/
  strange : ∀ message : Message, message.type = .methodReturn ∨ message.type = .error →
    (∀ s, message.fields.replySerial = some s → s ∉ r.pending.map Prod.fst) → r.route message = r
  /-- between operations a handle that has given no outcome yet is unresolved just while its call is in the table -/
  unresolved_iff : jobs = [] → ∀ s i, (s, .handle i) ∈ opened r.past → ¬HasRead r.past i →
    ((r.poll i).1 = .unresolved ↔ (s, .handle i) ∈ r.pending)
  /-- otherwise it has the outcome that it was told, or the call was cancelled -/
  outcome_iff : jobs = [] → ∀ s i, (s, .handle i) ∈ opened r.past → ¬HasRead r.past i → ∀ o,
    ((r.poll i).1 = .outcome o ↔ .told s (.handle i) o ∈ r.past ∨
      (.acted (.cancel s) (.flag true) ∈ r.past ∧ o = .error .cancelled))
  /-- whether it is kept or given up for that -/
  await_eq : ∀ i, (r.await i).1 = (r.poll i).1

section Books

variable {r : Router} {jobs : List Job} {s : UInt32} {w : Waiter} {o : CallOutcome} {i : Nat}

theorem Books.tell_mem_iff (h : Books (r.ledger (owedBy jobs))) :
    .task (.tell s w o) ∈ jobs ↔ stage s r.past = .ended w o :=
  mem_owedBy.symm.trans (h.accounts.owed_iff s w o)

theorem Books.told_mem_iff (h : Books (r.ledger (owedBy jobs))) : .told s w o ∈ r.past ↔ stage s r.past = .told w o :=
  Orderly.told_iff h.orderly

theorem Books.result?_iff (h : Books (r.ledger (owedBy jobs))) :
    .told s w o ∈ r.past ∨ .task (.tell s w o) ∈ jobs ↔ (stage s r.past).result? = some (w, o) := by
  rw [h.told_mem_iff, h.tell_mem_iff]
  cases stage s r.past <;> simp [Stage.result?]

/-- nobody is told anything of a call that has not ended -/
theorem Books.untold (h : Books (r.ledger (owedBy jobs))) (hs : (stage s r.past).result? = none) (w : Waiter)
    (o : CallOutcome) : .told s w o ∉ r.past ∧ .task (.tell s w o) ∉ jobs := by
  rw [← not_or, h.result?_iff, hs]
  simp

/-- what a handle answers between operations, as long as it has given no outcome -/
theorem Books.poll_answer (h : Books (r.ledger (owedBy []))) (hopened : (s, .handle i) ∈ opened r.past)
    (hunread : ¬HasRead r.past i) :
    (stage s r.past = .waiting (.handle i) ∧ (r.poll i).1 = .unresolved) ∨
      (∃ o, stage s r.past = .told (.handle i) o ∧ (r.poll i).1 = .outcome o) ∨
      (stage s r.past = .cancelled (.handle i) ∧ (r.poll i).1 = .outcome (.error .cancelled)) := by
  have hwaiter : (stage s r.past).waiter? = some (.handle i) := h.shows.opened_waiter s _ hopened
  have hshown : r.handles[i]? = some (stage s r.past).shown := h.shows.shown s i hopened hunread
  have hnobody (w : Waiter) (o : CallOutcome) : stage s r.past ≠ .ended w o := by
    rw [Ne, ← h.tell_mem_iff]
    simp
  rw [r.poll_answer, hshown]
  generalize stage s r.past = x at hwaiter hnobody
  cases x with
  | unused => cases hwaiter
  | waiting w =>
    cases hwaiter
    exact .inl ⟨rfl, rfl⟩
  | ended w o => exact absurd rfl (hnobody w o)
  | told w o =>
    cases hwaiter
    exact .inr (.inl ⟨o, rfl, rfl⟩)
  | cancelled w =>
    cases hwaiter
    exact .inr (.inr ⟨rfl, rfl⟩)

end Books

/-- **Each call ends once, and with its own reply.** Whatever the owner of a new connection does leads to a reachable
state. In each of these, between operations or in the middle of one, calls and their waiters fare as they should, as
long as fewer serials were allocated than there are. -/
theorem Connection.calls_end_once (config : Config) (transport : Transport) :
    (∀ actions, Reachable config transport ((Connection.new config transport).runAll actions).router []) ∧
      ∀ r jobs, Reachable config transport r jobs → issued r.past < 2 ^ 32 - 1 → CallsEnd r jobs := by
  refine ⟨Reachable.runAll config transport, fun r jobs h hfew => ?_⟩
  have hbooks := h.books hfew
  have horderly : Orderly r.past := hbooks.orderly
  have hpending (s : UInt32) (w : Waiter) : (s, w) ∈ r.pending ↔ stage s r.past = .waiting w :=
    hbooks.accounts.pending_iff s w
  have hcancelled (s : UInt32) : .acted (.cancel s) (.flag true) ∈ r.past ↔ ∃ w, stage s r.past = .cancelled w :=
    horderly.cancelled_iff
  refine {
    entered_once := fun s w before after heq v => horderly.entered_once heq v
    opened_nodup := hbooks.shows.opened_nodup
    opened_entered := fun s w hs => entered_of_waiter? (hbooks.shows.opened_waiter s w hs)
    fate := fun s w hs => ?_
    pending_iff := hpending
    pending_nodup := hbooks.accounts.pending_nodup
    told_iff := fun s w o => hbooks.result?_iff.trans result?_iff
    told_once := fun s w o before after heq v p => ⟨horderly.told_once heq v p, fun hjob => ?_⟩
    owed_nodup := hbooks.accounts.owed_nodup
    pending_untold := fun s w hs => hbooks.untold (by rw [(hpending s w).1 hs]; rfl)
    cancelled_untold := fun s hs => ?_
    heard := hbooks.heard
    strange := fun message hreply hnobody => r.route_strange hreply hnobody
    unresolved_iff := fun hjobs s i hopened hunread => ?_
    outcome_iff := fun hjobs s i hopened hunread o => ?_
    await_eq := r.await_answer }
  · have hwaiter := horderly.waiter?_of_entered hs
    simp only [hpending, hbooks.tell_mem_iff, hbooks.told_mem_iff, hcancelled]
    generalize stage s r.past = x at hwaiter
    cases x <;> cases hwaiter <;> simp
  · have htold : stage s r.past = .told w o := hbooks.told_mem_iff.1 (by simp [heq])
    rw [hbooks.tell_mem_iff, htold] at hjob
    cases hjob
  · obtain ⟨w, hw⟩ := (hcancelled s).1 hs
    exact hbooks.untold (by rw [hw]; rfl)
  · subst hjobs
    rw [hpending]
    obtain ⟨hs, ha⟩ | ⟨o, hs, ha⟩ | ⟨hs, ha⟩ := hbooks.poll_answer hopened hunread <;> rw [hs, ha] <;> simp
  · subst hjobs
    rw [hbooks.told_mem_iff, hcancelled]
    obtain ⟨hs, ha⟩ | ⟨o, hs, ha⟩ | ⟨hs, ha⟩ := hbooks.poll_answer hopened hunread <;> rw [hs, ha] <;> simp [eq_comm]

def pinging : Message := { type := .methodCall, fields := { path := some "/pinger", member := some "Ping" } }

def ponging (call : UInt32) : Message :=
  { type := .methodReturn, serial := 7, fields := { replySerial := some call }, body := .ofString "pong" }

def refusing (call : UInt32) : Message :=
  { type := .error, serial := 8, fields := { replySerial := some call, errorName := some "o.c.Busy" },
    body := .ofString "later" }

def pings : List Action :=
  [.invoke pinging "pinged" [.cancel 2], .call pinging, .call pinging, .call pinging]

/-- four calls: the first one gets two replies, of which the first gives up the second call, for which there is a reply
nevertheless; the third one fails, and the connection is closed before there is a reply for the fourth -/
def pinged : Router :=
  let c := (Connection.new {} .reliable).runAll pings
  let r := [ponging 1, ponging 1, ponging 2, refusing 3].foldl Router.dispatch c.router
  ({ c with router := r }.act (.close "done")).2.router

set_option maxRecDepth 1024 in
theorem Connection.calls_end_once_pinged :
    Reachable {} .reliable pinged [] ∧ issued pinged.past < 2 ^ 32 - 1 ∧ CallsEnd pinged [] ∧
      opened pinged.past
        = [(1, .callback ⟨"pinged", [.cancel 2]⟩), (2, .handle 0), (3, .handle 1), (4, .handle 2)] ∧
      pinged.journal.filterMap Event.reply? = [("pinged", .ok (.ofString "pong"))] ∧
      (pinged.poll 0).1 = .outcome (.error .cancelled) ∧
      (pinged.poll 1).1 = .outcome (.error (.remote ⟨"o.c.Busy", some "later", .ofString "later"⟩)) ∧
      (pinged.poll 2).1 = .outcome (.error (.disconnected "done")) := by
  have hreachable : Reachable {} .reliable pinged [] := by
    have hasked := (Connection.calls_end_once {} .reliable).1 pings
    exact Reachable.act (.close "done") (hasked.dispatchAll [ponging 1, ponging 1, ponging 2, refusing 3])
  have hissued : issued pinged.past = 4 := by cbv
  have hfew : issued pinged.past < 2 ^ 32 - 1 := by omega
  exact ⟨hreachable, hfew, (Connection.calls_end_once {} .reliable).2 pinged [] hreachable hfew, by cbv⟩

end MessageBus
