/-
A closed connection.

Nobody waits for a reply on it (`Reachable.nobody_waits`), and whatever is done with it, it rests (`Reachable.rests`):
the reason stays, no byte is written, no serial is allocated, nobody comes to wait, and just those waiters are still told
an outcome who were owed it. What was written and who was told is read off the past (`Router.written`, `Router.told`).
-/
import Mathlib.Tactic
import MessageBus.Proofs.Connection.Turns

namespace MessageBus

/-! ## What was written, and who was told -/

/-- the message that was handed to the transport -/
def Event.written? : Event → Option Message
  | .written message => some message
  | _ => none

/-- the messages that were handed to the transport, in order -/
def Router.written (r : Router) : List Message := r.journal.filterMap Event.written?

/-- the waiter that was told the outcome of its call -/
def Moment.told? : Moment → Option (UInt32 × Waiter × CallOutcome)
  | .told serial waiter outcome => some (serial, waiter, outcome)
  | _ => none

/-- who was told the outcome of a call, and what, in order -/
def Router.told (r : Router) : List (UInt32 × Waiter × CallOutcome) := r.past.filterMap Moment.told?

namespace Router

/-! ## What a change says -/

variable {r r' : Router} {more : List Moment}

theorem written_append (h : r'.past = r.past ++ more) :
    r'.written = r.written ++ (more.filterMap Moment.event?).filterMap Event.written? := by
  rw [written, written, journal, journal, h, List.filterMap_append, List.filterMap_append]

theorem told_append (h : r'.past = r.past ++ more) : r'.told = r.told ++ more.filterMap Moment.told? := by
  rw [told, told, h, List.filterMap_append]

theorem Still.written_eq (h : r.Still r') : r'.written = r.written := by
  obtain ⟨more, hpast, hmore⟩ := h.past_eq
  have hnone : (more.filterMap Moment.event?).filterMap Event.written? = [] := by
    rw [List.filterMap_filterMap, List.filterMap_eq_nil_iff]
    intro m hm
    have hsilent := hmore m hm
    cases m with
    | seen event => cases event <;> first | rfl | cases hsilent
    | _ => rfl
  rw [written_append hpast, hnone, List.append_nil]

theorem Still.told_eq (h : r.Still r') : r'.told = r.told := by
  obtain ⟨more, hpast, hmore⟩ := h.past_eq
  have hnone : more.filterMap Moment.told? = [] := by
    rw [List.filterMap_eq_nil_iff]
    intro m hm
    have hsilent := hmore m hm
    cases m <;> first | rfl | cases hsilent
  rw [told_append hpast, hnone, List.append_nil]

theorem close_written (r : Router) (reason : String) : (r.close reason).1.written = r.written := by
  rw [written_append (congrArg past (r.close_eq reason))]
  cases r.closed <;> simp [Moment.event?, Event.written?]

theorem close_told (r : Router) (reason : String) : (r.close reason).1.told = r.told := by
  rw [told_append (congrArg past (r.close_eq reason))]
  cases r.closed <;> simp [Moment.told?]

theorem offered_written (r : Router) (message : Message) (waiter : Option Waiter) (data : List UInt8) :
    (r.offered message waiter data).written = r.written ++ [r.numbered message] := by
  rw [written_append (by rw [offered, List.append_assoc])]
  cases waiter <;> rfl

theorem telling_written (r : Router) (s : UInt32) (w : Waiter) (o : CallOutcome) (handles : List HandleState) :
    written { r with handles, past := r.past ++ .told s w o :: w.heard o } = r.written := by
  rw [written_append (r := r) rfl]
  cases w <;> simp [Waiter.heard, Moment.event?, Event.written?]

theorem telling_told (r : Router) (s : UInt32) (w : Waiter) (o : CallOutcome) (handles : List HandleState) :
    told { r with handles, past := r.past ++ .told s w o :: w.heard o } = r.told ++ [(s, w, o)] := by
  rw [told_append (r := r) rfl]
  cases w <;> simp [Waiter.heard, Moment.told?]

/-! ## Rest -/

/-- nothing comes to be sent, nobody comes to wait, and whoever is told an outcome was owed it -/
structure Rests (r : Router) (owed : List (UInt32 × Waiter × CallOutcome)) (r' : Router)
    (owed' : List (UInt32 × Waiter × CallOutcome)) : Prop where
  closed_eq : r'.closed = r.closed
  link_eq : r'.link = r.link
  next_eq : r'.nextSerial = r.nextSerial
  pending_eq : r'.pending = r.pending
  written_eq : r'.written = r.written
  told_eq : r'.told ++ owed' = r.told ++ owed

theorem Rests.trans {r'' : Router} {owed owed' owed'' : List (UInt32 × Waiter × CallOutcome)}
    (h : r.Rests owed r' owed') (h' : r'.Rests owed' r'' owed'') : r.Rests owed r'' owed'' :=
  ⟨h'.closed_eq.trans h.closed_eq, h'.link_eq.trans h.link_eq, h'.next_eq.trans h.next_eq,
    h'.pending_eq.trans h.pending_eq, h'.written_eq.trans h.written_eq, h'.told_eq.trans h.told_eq⟩

theorem Still.rests (h : r.Still r') (owed : List (UInt32 × Waiter × CallOutcome)) : r.Rests owed r' owed :=
  ⟨h.closed_eq, h.link_eq, h.next_eq, h.pending_eq, h.written_eq, by rw [h.told_eq]⟩

/-- nobody waits for a reply on a closed connection, whatever changes -/
theorem Change.nobody_waits {mid : Router} {owed owed' : List (UInt32 × Waiter × CallOutcome)}
    (h : Change r owed mid owed') (hr : r.closed.isSome = true → r.pending = []) (hclosed : mid.closed.isSome = true) :
    mid.pending = [] := by
  cases h with
  | rest => exact hr hclosed
  | cancelling owed s | replying owed s => simp [hr hclosed]
  | sending owed message waiter =>
    have hsends := r.send_sends message waiter
    generalize r.send message waiter = sent at hsends hclosed ⊢
    cases hsends with
    | refused => exact hr hclosed
    | unframed => exact hr hclosed
    | taken hopen =>
      have hsome : r.closed.isSome = true := hclosed
      simp [hopen] at hsome
    | failed => exact close_pending _ _
  | closing owed reason => exact close_pending _ _
  | telling => exact hr hclosed

/-- a closed connection, on which nobody waits, rests -/
theorem Change.rests {mid : Router} {owed owed' : List (UInt32 × Waiter × CallOutcome)} (h : Change r owed mid owed')
    (hclosed : r.closed.isSome = true) (hnobody : r.pending = []) : r.Rests owed mid owed' := by
  have hsame : r.Rests owed r owed := ⟨rfl, rfl, rfl, rfl, rfl, rfl⟩
  cases h with
  | rest => exact hsame
  | cancelling owed s => exact ⟨rfl, rfl, rfl, by simp [hnobody], rfl, rfl⟩
  | replying owed s w o hs => simp [hnobody] at hs
  | sending owed message waiter =>
    rw [send_refused hclosed]
    exact hsame
  | closing owed reason =>
    obtain ⟨earlier, hearlier⟩ := Option.isSome_iff_exists.1 hclosed
    refine ⟨?_, close_link r reason, close_nextSerial r reason, ?_, close_written r reason, ?_⟩
    · rw [close_closed, hearlier, Option.getD_some]
    · rw [close_pending, hnobody]
    · rw [close_owed, hnobody, close_told, List.map_nil, List.nil_append]
  | telling owed s w o handles =>
    refine ⟨rfl, rfl, rfl, rfl, telling_written r s w o handles, ?_⟩
    rw [telling_told, List.append_assoc, List.singleton_append]

end Router

section Runs

variable {config : Config} {transport : Transport} {r r' : Router} {jobs jobs' : List Job}

/-- **Nobody waits for a reply on a closed connection**, at any time. -/
theorem Reachable.nobody_waits (h : Reachable config transport r jobs) (hclosed : r.closed.isSome = true) :
    r.pending = [] := by
  refine h.holds (P := fun r _ => r.closed.isSome = true → r.pending = []) (fun _ => rfl)
    (fun _ _ _ _ _ hchange hr => hchange.nobody_waits hr) (fun _ _ _ hstill hr hclosed => ?_) hclosed
  rw [hstill.pending_eq]
  exact hr (by rwa [← hstill.closed_eq])

/-- **A closed connection rests for ever.** -/
theorem Reachable.rests (h : Reachable config transport r jobs) (hclosed : r.closed.isSome = true)
    (hlater : Later r jobs r' jobs') : r.Rests (owedBy jobs) r' (owedBy jobs') := by
  refine h.keeps (P := r.Rests (owedBy jobs)) (fun mid _ _ _ hmid hchange hrests => ?_)
    (fun _ _ owed hstill hrests => hrests.trans (hstill.rests owed)) hlater ⟨rfl, rfl, rfl, rfl, rfl, rfl⟩
  have hmidClosed : mid.closed.isSome = true := by rwa [hrests.closed_eq]
  exact hrests.trans (hchange.rests hmidClosed (hmid.nobody_waits hmidClosed))

/-- a connection that is open was open all the time -/
theorem Reachable.open_of_later (h : Reachable config transport r jobs) (hlater : Later r jobs r' jobs')
    (hopen : r'.closed = none) : r.closed = none := by
  by_contra hclosed
  have hrests := h.rests (Option.isSome_iff_ne_none.2 hclosed) hlater
  exact hclosed (hrests.closed_eq.symm.trans hopen)

end Runs

end MessageBus
