/-
A message that cannot be sent leaves no trace.

A message is refused at once when the connection is closed, or when it is no call that expects a reply although somebody
is to wait for one. All other refusals come from writing the message, once it has been numbered
(`Message.marshal_inherent`). Either way nothing but its serial is used up (`Router.perform_refusal`), and nothing ever
happens under that serial: `Dormant` says what is in the past about a serial under which nobody waits, and a turn keeps
this unless it allocates the serial (`Change.dormant`). So it does of every serial that is still to come
(`Reachable.dormant`), and of one that was used up for nothing (`Reachable.stays_dormant`).
-/
import Mathlib.Tactic
import MessageBus.Proofs.Connection.Outgoing
import MessageBus.Proofs.Message.Writing

namespace MessageBus

/-! ## The errors of a message -/

/-- a refusal before the message gets a serial -/
def Error.isPrompt : Error → Bool
  | closed | noReplyExpected _ => true
  | _ => false

def Error.isTransport : Error → Bool
  | transport _ => true
  | _ => false

/-- an error of the message itself, wherever it is sent -/
structure Error.Inherent (e : Error) : Prop where
  isPrompt : e.isPrompt = false
  isTransport : e.isTransport = false

theorem Error.IsRefusal.inherent {e : Error} (h : e.IsRefusal) : e.Inherent := by
  cases e <;> first | exact ⟨rfl, rfl⟩ | cases h

theorem forM_check_error {names : List (NameKind × String)} {e : Error}
    (h : (names.forM fun name => name.1.check name.2) = .error e) : ∃ kind name, e = .invalidName kind name := by
  induction names with
  | nil => cases h
  | cons name names ih =>
    rw [List.forM] at h
    cases hname : name.1.check name.2 with
    | ok _ =>
      rw [hname] at h
      exact ih h
    | error e' =>
      rw [hname] at h
      cases h
      rw [NameKind.check] at hname
      split_ifs at hname
      cases hname
      exact ⟨_, _, rfl⟩

namespace Message

variable {m : Message} {e : Error}

theorem validate_inherent (h : m.validate = .error e) : e.Inherent := by
  rw [validate] at h
  split_ifs at h with hversion
  · cases h
    exact ⟨rfl, rfl⟩
  · cases hfind : (requiredFields m.type).find? fun field => !m.hasField field with
    | some field =>
      simp only [hfind] at h
      cases h
      exact ⟨rfl, rfl⟩
    | none =>
      simp only [hfind] at h
      obtain ⟨kind, name, rfl⟩ := forM_check_error h
      exact ⟨rfl, rfl⟩

/-- writing a message fails for what the message is, and not for what becomes of a connection -/
theorem marshal_inherent (h : m.marshal = .error e) : e.Inherent := by
  by_cases hserial : m.serial = 0
  · rw [marshal, if_pos hserial] at h
    cases h
    exact ⟨rfl, rfl⟩
  · cases hvalid : m.validate with
    | ok _ => exact (marshal_refusal hserial hvalid h).inherent
    | error e' =>
      rw [marshal, if_neg hserial, hvalid] at h
      cases h
      exact validate_inherent hvalid

end Message

/-! ## What is left of a refusal -/

/-- the message that an action sends -/
def Action.message? : Action → Option Message
  | .send message | .invoke message _ _ | .call message => some message
  | _ => none

namespace Router

variable {r : Router} {action : Action} {message : Message} {e : Error}

/-- a router that has refused a message: unless that was at once, a serial is used up -/
def dropped (r : Router) (e : Error) : Router := if e.isPrompt then r else r.allocateSerial.2

/-- a router that has refused the message of an action -/
def refused (r : Router) (action : Action) (e : Error) : Router := (r.dropped e).record (.acted action (.failed e))

/-- what comes of trying to send a message for which somebody is to wait, or nobody -/
inductive Attempt (r : Router) (message : Message) : Except Error UInt32 × Router × List Task → Prop where
  | unasked : Attempt r message (.error (.noReplyExpected message.type), r, [])
  | sent (waiter : Option Waiter) : Attempt r message (r.send message waiter)

theorem sendCall_attempt (r : Router) (message : Message) (waiter : Waiter) :
    r.Attempt message (r.sendCall message waiter) := by
  unfold sendCall
  split
  · exact .sent (some waiter)
  · exact .unasked

/-- an action fails just if an attempt does, with what that leaves, and closes the connection with it -/
structure Conveys (r : Router) (action : Action) (sent : Except Error UInt32 × Router × List Task) : Prop where
  failed : ∀ e, (r.effect action).1 = .failed e → sent.1 = .error e
  effect_eq : ∀ e, sent.1 = .error e → r.effect action = (.failed e, sent.2)
  closed_eq : (r.effect action).2.1.closed = sent.2.1.closed

/-- an action whose answer is the serial, if the attempt gives one -/
theorem conveys_serial {sent : Except Error UInt32 × Router × List Task}
    (heffect : r.effect action = (answer .serial sent.1, sent.2)) : r.Conveys action sent := by
  obtain ⟨result, left⟩ := sent
  refine ⟨fun e he => ?_, fun e he => ?_, by rw [heffect]⟩
  · rw [heffect] at he
    cases result with
    | ok serial => cases he
    | error e' =>
      cases he
      rfl
  · obtain rfl : result = .error e := he
    exact heffect

theorem effect_conveys (r : Router) (hmessage : action.message? = some message) :
    ∃ sent, r.Attempt message sent ∧ r.Conveys action sent := by
  cases action with
  | send given =>
    cases hmessage
    exact ⟨_, .sent none, conveys_serial rfl⟩
  | invoke given label script =>
    cases hmessage
    exact ⟨_, r.sendCall_attempt message _, conveys_serial rfl⟩
  | call given =>
    cases hmessage
    have hattempt := r.sendCall_attempt message (.handle r.handles.length)
    rcases hsent : r.sendCall message (.handle r.handles.length) with ⟨e | serial, left, tasks⟩
    · have heffect : r.effect (.call message) = (.failed e, left, tasks) := by simp only [effect, hsent]
      rw [hsent] at hattempt
      refine ⟨_, hattempt, fun e' he => ?_, fun e' he => ?_, by rw [heffect]⟩
      · rw [heffect] at he
        cases he
        rfl
      · cases he
        exact heffect
    · have heffect : r.effect (.call message)
          = (.handle serial r.handles.length, { left with handles := left.handles ++ [.waiting] }, tasks) := by
        simp only [effect, hsent]
      rw [hsent] at hattempt
      refine ⟨_, hattempt, fun e' he => ?_, fun e' he => ?_, by rw [heffect]⟩
      · rw [heffect] at he
        cases he
      · cases he
  | _ => cases hmessage

variable {sent : Except Error UInt32 × Router × List Task}

theorem Attempt.refusal (h : r.Attempt message sent) (he : sent.1 = .error e) (hlink : e.isTransport = false) :
    sent = (.error e, r.dropped e, []) := by
  cases h with
  | unasked =>
    cases he
    rfl
  | sent waiter =>
    have hsends := r.send_sends message waiter
    generalize r.send message waiter = sent at hsends he ⊢
    cases hsends with
    | refused =>
      cases he
      rfl
    | unframed hopen hmarshal =>
      cases he
      rw [dropped, (Message.marshal_inherent hmarshal).isPrompt, if_neg Bool.false_ne_true]
    | taken => cases he
    | failed =>
      cases he
      cases hlink

/-- **A refusal changes nothing but the serials**, and causes nothing. -/
theorem perform_refusal (hmessage : action.message? = some message) (he : (r.perform action).1 = .failed e)
    (hlink : e.isTransport = false) :
    r.perform action = (.failed e, r.refused action e, []) := by
  obtain ⟨sent, hattempt, hconveys⟩ := r.effect_conveys hmessage
  have hfailed := hconveys.failed e he
  rw [perform, hconveys.effect_eq e hfailed, hattempt.refusal hfailed hlink, refused]

/-! ## What closes a connection -/

theorem Attempt.closed_only (h : r.Attempt message sent) (hopen : r.closed = none)
    (hclosed : sent.2.1.closed.isSome = true) :
    ∃ data why, (r.numbered message).marshal = .ok data ∧ (r.link.send data).1 = .error why ∧
      sent.1 = .error (.transport why) := by
  have hno : ¬r.closed.isSome = true := by simp [hopen]
  cases h with
  | unasked => exact absurd hclosed hno
  | sent waiter =>
    have hsends := r.send_sends message waiter
    generalize r.send message waiter = sent at hsends hclosed ⊢
    cases hsends with
    | refused => exact absurd hclosed hno
    | unframed => exact absurd hclosed hno
    | taken => exact absurd hclosed hno
    | @failed data why _ hdata hlink => exact ⟨data, why, hdata, hlink, rfl⟩

/-- **A message closes the connection only when the transport fails on its frame.** -/
theorem perform_closed_only (hmessage : action.message? = some message) (hopen : r.closed = none)
    (hclosed : (r.perform action).2.1.closed.isSome = true) :
    ∃ data why, (r.numbered message).marshal = .ok data ∧ (r.link.send data).1 = .error why ∧
      (r.perform action).1 = .failed (.transport why) := by
  obtain ⟨sent, hattempt, hconveys⟩ := r.effect_conveys hmessage
  have heffect : (r.effect action).2.1.closed.isSome = true := hclosed
  rw [hconveys.closed_eq] at heffect
  obtain ⟨data, why, hdata, hlink, he⟩ := hattempt.closed_only hopen heffect
  refine ⟨data, why, hdata, hlink, ?_⟩
  rw [perform, hconveys.effect_eq _ he]

end Router

/-! ## Serials under which nothing happens -/

/-- a serial is allocated, a message is sent with it, or somebody is to wait for the reply to it or is told the outcome -/
def Moment.concerns (serial : UInt32) : Moment → Bool
  | .numbered s | .entered s _ | .told s _ _ => s = serial
  | .seen (.written message) => message.serial = serial
  | _ => false

theorem Moment.concerns_of_isSilent {m : Moment} (h : m.isSilent = true) (serial : UInt32) :
    m.concerns serial = false := by
  cases m with
  | seen event => cases event <;> first | rfl | cases h
  | _ => first | rfl | cases h

namespace Router

/-- nobody waits for the reply to a serial or is owed the outcome, and the past says just this about it -/
structure Dormant (r : Router) (owed : List (UInt32 × Waiter × CallOutcome)) (serial : UInt32) (said : List Moment) :
    Prop where
  said_eq : r.past.filter (Moment.concerns serial) = said
  pending_ne : ∀ entry ∈ r.pending, entry.1 ≠ serial
  owed_ne : ∀ entry ∈ owed, entry.1 ≠ serial

variable {r r' mid : Router} {owed owed' : List (UInt32 × Waiter × CallOutcome)} {serial : UInt32}
  {said more : List Moment}

theorem said_append (hpast : r'.past = r.past ++ more) (hmore : ∀ m ∈ more, m.concerns serial = false) :
    r'.past.filter (Moment.concerns serial) = r.past.filter (Moment.concerns serial) := by
  have hnone : more.filter (Moment.concerns serial) = [] :=
    List.filter_eq_nil_iff.2 fun m hm => by rw [hmore m hm]; exact Bool.false_ne_true
  rw [hpast, List.filter_append, hnone, List.append_nil]

theorem Still.dormant (hstill : r.Still r') (h : r.Dormant owed serial said) : r'.Dormant owed serial said := by
  obtain ⟨more, hpast, hmore⟩ := hstill.past_eq
  refine ⟨?_, by rw [hstill.pending_eq]; exact h.pending_ne, h.owed_ne⟩
  rw [said_append hpast fun m hm => Moment.concerns_of_isSilent (hmore m hm) serial, h.said_eq]

theorem Dormant.close (h : r.Dormant owed serial said) (reason : String) :
    (r.close reason).1.Dormant (owedBy ((r.close reason).2.map .task) ++ owed) serial said := by
  refine ⟨?_, by simp, List.forall_mem_append.2 ⟨?_, h.owed_ne⟩⟩
  · rw [said_append (congrArg past (r.close_eq reason)) ?_, h.said_eq]
    cases r.closed <;> simp [Moment.concerns]
  · rw [close_owed]
    exact List.forall_mem_map.2 h.pending_ne

/-- a message with another serial is offered to the transport -/
theorem Dormant.offered (h : r.Dormant owed serial said) (hother : r.allocateSerial.1 ≠ serial) (message : Message)
    (waiter : Option Waiter) (data : List UInt8) : (r.offered message waiter data).Dormant owed serial said := by
  have hentry : ∀ entry ∈ r.entry waiter, entry.1 ≠ serial := List.forall_mem_map.2 fun _ _ => hother
  refine ⟨?_, List.forall_mem_append.2 ⟨h.pending_ne, hentry⟩, h.owed_ne⟩
  rw [said_append (by rw [Router.offered, List.append_assoc]) ?_, h.said_eq]
  rw [List.forall_mem_append, List.forall_mem_cons, List.forall_mem_map, List.forall_mem_singleton]
  exact ⟨⟨decide_eq_false hother, fun entry hmem => decide_eq_false (hentry entry hmem)⟩, decide_eq_false hother⟩

theorem Change.issued_le (h : Change r owed mid owed') : issued r.past ≤ issued mid.past := by
  cases h with
  | rest | cancelling | replying => exact le_rfl
  | sending _ message waiter =>
    have hsends := r.send_sends message waiter
    generalize r.send message waiter = sent at hsends
    cases hsends with
    | refused => exact le_rfl
    | unframed => exact (Nat.le_add_right _ _).trans (issued_append r.past _).ge
    | taken => exact (Nat.le_succ _).trans (r.offered_issued message waiter _).ge
    | failed =>
      rw [close_issued, offered_issued]
      exact Nat.le_succ _
  | closing => exact (r.close_issued _).ge
  | telling => exact (Nat.le_add_right _ _).trans (issued_append r.past _).ge

end Router

section Runs

variable {config : Config} {transport : Transport} {r r' mid : Router} {jobs jobs' : List Job}
  {owed : List (UInt32 × Waiter × CallOutcome)} {serial : UInt32} {said : List Moment}

/-- **Nothing happens under a serial** whose turn is over, or is still to come. -/
theorem Router.Change.dormant (h : Reachable config transport r jobs) (hchange : Router.Change r (owedBy jobs) mid owed)
    (hfew : issued mid.past < 2 ^ 32 - 1) (hother : serial.toNat ≤ issued r.past ∨ issued mid.past < serial.toNat)
    (hdormant : r.Dormant (owedBy jobs) serial said) : mid.Dormant owed serial said := by
  generalize owedBy jobs = before at hchange hdormant
  cases hchange with
  | rest => exact hdormant
  | cancelling =>
    exact ⟨hdormant.said_eq, fun entry hmem => hdormant.pending_ne entry (List.mem_of_mem_filter hmem), hdormant.owed_ne⟩
  | replying _ s w o hs =>
    exact ⟨hdormant.said_eq, fun entry hmem => hdormant.pending_ne entry (List.mem_of_mem_filter hmem),
      List.forall_mem_cons.2 ⟨hdormant.pending_ne (s, w) hs, hdormant.owed_ne⟩⟩
  | sending _ message waiter =>
    -- the serial that is allocated comes right after all those before
    have hnext (hissued : issued (r.send message waiter).2.1.past = issued r.past + 1) : r.allocateSerial.1 ≠ serial := by
      intro hsame
      have hnumber := h.allocateSerial_toNat (by omega)
      rw [hsame] at hnumber
      omega
    have hsends := r.send_sends message waiter
    generalize r.send message waiter = sent at hsends hfew hother hnext ⊢
    cases hsends with
    | refused => exact hdormant
    | unframed =>
      have hother := hnext (issued_append r.past _)
      have hpast : r.allocateSerial.2.past = r.past ++ [.numbered r.allocateSerial.1] := rfl
      refine ⟨?_, hdormant.pending_ne, hdormant.owed_ne⟩
      rw [Router.said_append hpast (List.forall_mem_singleton.2 (decide_eq_false hother)), hdormant.said_eq]
    | @taken data => exact hdormant.offered (hnext (r.offered_issued message waiter data)) message waiter data
    | @failed data why =>
      have hissued := (r.offered message waiter data).close_issued (Error.transport why).message
      rw [Router.offered_issued] at hissued
      exact (hdormant.offered (hnext hissued) message waiter data).close _
  | closing _ reason => exact hdormant.close reason
  | telling _ s w o handles =>
    have htold : s ≠ serial := hdormant.owed_ne (s, w, o) List.mem_cons_self
    refine ⟨?_, hdormant.pending_ne, fun entry hmem => hdormant.owed_ne entry (List.mem_cons_of_mem _ hmem)⟩
    rw [Router.said_append (r := r) rfl ?_, hdormant.said_eq]
    refine List.forall_mem_cons.2 ⟨decide_eq_false htold, ?_⟩
    cases w <;> simp [Waiter.heard, Moment.concerns]

/-- nothing has happened under a serial that is still to come -/
theorem Reachable.dormant (h : Reachable config transport r jobs) (hlate : issued r.past < serial.toNat) :
    r.Dormant (owedBy jobs) serial [] := by
  refine h.holds (P := fun r owed => issued r.past < serial.toNat → r.Dormant owed serial [])
    (fun _ => ⟨rfl, by simp, by simp⟩) (fun r _ mid _ hreachable hchange hr hlate => ?_)
    (fun r r' _ hstill hr hlate => hstill.dormant (hr (hstill.issued_eq ▸ hlate))) hlate
  have hsize := serial.toNat_lt
  have hmore := hchange.issued_le
  exact hchange.dormant hreachable (by omega) (.inr hlate) (hr (by omega))

/-- nothing happens any more under one whose turn is over -/
theorem Reachable.stays_dormant (h : Reachable config transport r jobs) (hdormant : r.Dormant (owedBy jobs) serial said)
    (hover : serial.toNat ≤ issued r.past) (hlater : Later r jobs r' jobs') (hfew : issued r'.past < 2 ^ 32 - 1) :
    r'.Dormant (owedBy jobs') serial said := by
  refine (h.keeps
    (P := fun r owed => serial.toNat ≤ issued r.past ∧ (issued r.past < 2 ^ 32 - 1 → r.Dormant owed serial said))
    (fun r _ mid _ hreachable hchange hr => ?_) (fun r r' _ hstill hr => ?_) hlater ⟨hover, fun _ => hdormant⟩).2 hfew
  · have hmore := hchange.issued_le
    exact ⟨hr.1.trans hmore, fun hfew => hchange.dormant hreachable hfew (.inl hr.1) (hr.2 (by omega))⟩
  · rw [hstill.issued_eq]
    exact ⟨hr.1, fun hfew => hstill.dormant (hr.2 hfew)⟩

/-- serials that were allocated stay so -/
theorem Reachable.issued_le (h : Reachable config transport r jobs) (hlater : Later r jobs r' jobs') :
    issued r.past ≤ issued r'.past :=
  h.keeps (P := fun mid _ => issued r.past ≤ issued mid.past)
    (fun _ _ _ _ _ hchange hr => hr.trans hchange.issued_le) (fun _ _ _ hstill hr => hstill.issued_eq ▸ hr) hlater le_rfl

end Runs

/-! ## No trace -/

/-- how the result of an action is told that was a job: a script has it entered into the journal -/
def Job.report (answer : Answer) : Job → List Job
  | .task _ => [.task (.note (.result answer))]
  | _ => []

/-- what is left when the message of an action is refused, which is one of the jobs that are to be done -/
structure LeavesNoTrace (r : Router) (job : Job) (left : List Job) (action : Action) (e : Error) : Prop where
  turn_eq : (job.turn r).1 = r.refused action e
  /-- nothing is left to be done but to tell the error -/
  jobs_eq : (job.turn r).2 = job.report (.failed e)
  /-- the owner of the connection is told the error at once -/
  act_eq : ∀ buffer, (Connection.mk r buffer).act action = (.failed e, ⟨r.refused action e, buffer⟩)
  /-- if the message was refused at once, all stays as it was -/
  prompt_eq : e.isPrompt = true → r.refused action e = { r with past := r.past ++ [.acted action (.failed e)] }
  /-- else one serial is used up, the next one, and all but this stays as it was: nothing is handed to the transport and
  nobody is entered. The serial is never used: whatever happens, the past says no more of it than that -/
  numbered_eq : e.isPrompt = false → ∃ serial,
    r.refused action e = { r with
      nextSerial := serial + 1
      past := r.past ++ [.numbered serial, .acted action (.failed e)] } ∧
    (issued r.past < 2 ^ 32 - 1 → serial = r.nextSerial) ∧
    ∀ r' jobs', Later (job.turn r).1 ((job.turn r).2 ++ left) r' jobs' → issued r'.past < 2 ^ 32 - 1 →
      r'.past.filter (Moment.concerns serial) = [.numbered serial]

section Trace

variable {config : Config} {transport : Transport} {r r' : Router} {job : Job} {jobs jobs' left : List Job}
  {action : Action} {message : Message} {e : Error}

theorem Router.refused_prompt (hprompt : e.isPrompt = true) (r : Router) (action : Action) :
    r.refused action e = { r with past := r.past ++ [.acted action (.failed e)] } := by
  rw [refused, dropped, if_pos hprompt]
  rfl

theorem Reachable.refused_late (h : Reachable config transport r jobs) (hlate : e.isPrompt = false) (action : Action) :
    ∃ serial, r.refused action e = { r with
        nextSerial := serial + 1
        past := r.past ++ [.numbered serial, .acted action (.failed e)] } ∧
      (issued r.past < 2 ^ 32 - 1 → serial = r.nextSerial) := by
  obtain ⟨serial, hserial, hallocated⟩ := r.allocateSerial_eq (owedBy jobs)
  refine ⟨serial, ?_, fun hfew => (h.books hfew).eq_next hserial⟩
  rw [Router.refused, Router.dropped, hlate, if_neg Bool.false_ne_true, hallocated]
  simp [Router.record]

/-- of an action that causes nothing, only the answer is left to be told -/
theorem Job.turn_report {answer : Answer} (haction : job.action? = some action)
    (hperform : r.perform action = (answer, r', [])) : job.turn r = (r', job.report answer) := by
  unfold action? at haction
  split at haction <;> cases haction <;> simp [turn, report, Router.turn, hperform]

/-- nobody is owed an answer -/
theorem Job.report_owed (haction : job.action? = some action) (answer : Answer) (left : List Job) :
    owedBy (job.report answer ++ left) = owedBy (job :: left) := by
  unfold action? at haction
  split at haction <;> cases haction <;> rfl

/-- the owner of a connection has an action that sends a message carried out at once -/
theorem Connection.act_of_message (c : Connection) (hmessage : action.message? = some message) :
    c.act action = ((c.router.act action).1, { c with router := (c.router.act action).2 }) := by
  cases action <;> first | rfl | cases hmessage

/-- a serial that is used up for nothing is not used later on -/
theorem Reachable.unused (h : Reachable config transport r jobs)
    (hturn : Reachable config transport (r.refused action e) left) (howed : owedBy left = owedBy jobs)
    (hrefused : r.refused action e = { r with
      nextSerial := r.nextSerial + 1
      past := r.past ++ [.numbered r.nextSerial, .acted action (.failed e)] })
    (hlater : Later (r.refused action e) left r' jobs') (hfew : issued r'.past < 2 ^ 32 - 1) :
    r'.past.filter (Moment.concerns r.nextSerial) = [.numbered r.nextSerial] := by
  have hissued : issued (r.refused action e).past = issued r.past + 1 := by
    rw [hrefused, issued_append]
    rfl
  have hmore := hturn.issued_le hlater
  have hnext : r.nextSerial.toNat = issued r.past + 1 := (h.books (by omega)).numbering.next_eq
  have hbefore : r.Dormant (owedBy jobs) r.nextSerial [] := h.dormant (by omega)
  have hdormant : (r.refused action e).Dormant (owedBy left) r.nextSerial [.numbered r.nextSerial] := by
    rw [hrefused, howed]
    refine ⟨?_, hbefore.pending_ne, hbefore.owed_ne⟩
    rw [List.filter_append, hbefore.said_eq]
    simp [Moment.concerns]
  exact (hturn.stays_dormant hdormant (by omega) hlater hfew).said_eq

/-- **A refused message leaves no trace.** Whatever the owner of a new connection does leads to a reachable state. In each
of these, whether its owner or a script sends a message, makes a call, or makes one and keeps a handle: when that is
refused for anything but a failure of the transport, nothing is left of it. And only such a failure closes the
connection. -/
theorem Connection.refused_without_trace (config : Config) (transport : Transport) :
    (∀ actions, Reachable config transport ((Connection.new config transport).runAll actions).router []) ∧
      ∀ r job left action message, Reachable config transport r (job :: left) → job.action? = some action →
        action.message? = some message →
        (∀ e, (r.perform action).1 = .failed e → e.isTransport = false → LeavesNoTrace r job left action e) ∧
        (r.closed = none → (job.turn r).1.closed.isSome = true →
          ∃ data why, (r.numbered message).marshal = .ok data ∧ (r.link.send data).1 = .error why ∧
            (r.perform action).1 = .failed (.transport why)) := by
  refine ⟨Reachable.runAll config transport, fun r job left action message h haction hmessage => ?_⟩
  have hrouter := Job.turn_of_action haction r
  refine ⟨fun e he hlink => ?_, fun hopen hclosed => Router.perform_closed_only hmessage hopen (hrouter ▸ hclosed)⟩
  have hrefused := Router.perform_refusal hmessage he hlink
  have hturn := Job.turn_report haction hrefused
  have hleft := h.turn
  rw [hturn] at hleft
  refine ⟨congrArg Prod.fst hturn, congrArg Prod.snd hturn, fun buffer => ?_,
    fun hprompt => Router.refused_prompt hprompt r action, fun hlate => ?_⟩
  · have hsettle : (r.refused action e).settle [] = r.refused action e := by rw [Router.settle]
    rw [Connection.act_of_message _ hmessage, Router.act]
    simp only [hrefused, hsettle]
  · obtain ⟨serial, hdropped, hnext⟩ := h.refused_late hlate action
    rw [hturn]
    refine ⟨serial, hdropped, hnext, fun r' jobs' hlater hfew => ?_⟩
    have hmore : issued r.past ≤ issued (r.refused action e).past := by
      rw [hdropped, issued_append]
      exact Nat.le_add_right _ _
    obtain rfl := hnext ((hmore.trans (hleft.issued_le hlater)).trans_lt hfew)
    exact h.unused hleft (Job.report_owed haction _ left) hdropped hlater hfew

/-- a connection with a call that is pending -/
def pendingCall : Connection := (Connection.new {} .reliable).runAll [.call asksTime]

/-- a call of another version of the protocol, whose callback would close the connection -/
def strangeCall : Action := .invoke { asksTime with version := 7 } "strange" [.close "bye"]

/-- a connection to which the transport is not kind at all -/
def jammed : Connection := .new {} (.limited (some (0, "full")) none none)

/-- such a call is refused for an error after which a stream is not to be trusted. The connection stays open all the
same, and the next message has the serial after the one that was used up. A transport that fails does close it -/
theorem Connection.refused_without_trace_strangeCall :
    Reachable {} .reliable pendingCall.router [.own strangeCall] ∧
      (pendingCall.router.perform strangeCall).1 = .failed (.unsupportedVersion 7) ∧
      (Error.unsupportedVersion 7).isTransport = false ∧ (Error.unsupportedVersion 7).isFatal = true ∧
      LeavesNoTrace pendingCall.router (.own strangeCall) [] strangeCall (.unsupportedVersion 7) ∧
      (pendingCall.act strangeCall).2.isClosed = false ∧
      pendingCall.router.nextSerial = 2 ∧ (pendingCall.act strangeCall).2.router.nextSerial = 3 ∧
      Reachable {} (.limited (some (0, "full")) none none) jammed.router [.own (.send rang)] ∧
      jammed.router.closed = none ∧ ((Job.own (.send rang)).turn jammed.router).1.closed.isSome = true ∧
      ∃ data why, (jammed.router.numbered rang).marshal = .ok data ∧ (jammed.router.link.send data).1 = .error why ∧
        (jammed.router.perform (.send rang)).1 = .failed (.transport why) := by
  have hpending := ((Connection.refused_without_trace {} .reliable).1 [.call asksTime]).begin (.own strangeCall) rfl
  have hfailed : (pendingCall.router.perform strangeCall).1 = .failed (.unsupportedVersion 7) := by cbv
  have htrace := ((Connection.refused_without_trace {} .reliable).2 _ _ _ _ _ hpending rfl rfl).1 _ hfailed rfl
  have hact := htrace.act_eq pendingCall.buffer
  have hjammed := ((Connection.refused_without_trace {} (.limited (some (0, "full")) none none)).1 []).begin
    (.own (.send rang)) rfl
  have hdata : (jammed.router.numbered rang).marshal = .ok (jammed.router.numbered rang).frame := by cbv
  have hlink : (jammed.router.link.send (jammed.router.numbered rang).frame).1 = .error "full" := by cbv
  have hclosed : ((Job.own (.send rang)).turn jammed.router).1.closed.isSome = true := by
    change (jammed.router.send rang none).2.1.closed.isSome = true
    rw [Router.send_framed rfl hdata, hlink, Router.close_closed]
    rfl
  refine ⟨hpending, hfailed, rfl, rfl, htrace, ?_, by cbv, ?_, hjammed, rfl, hclosed,
    ((Connection.refused_without_trace {} _).2 _ _ _ _ _ hjammed rfl rfl).2 rfl hclosed⟩
  · exact (congrArg (fun acted => acted.2.isClosed) hact).trans (by cbv)
  · exact (congrArg (fun acted => acted.2.router.nextSerial) hact).trans (by cbv)

end Trace

end MessageBus
