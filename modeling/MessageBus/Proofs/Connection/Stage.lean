/-
The life of a call.

What has become of the call of a serial is a stage, which the moments of the past lead to one after the other (`stage`):
a waiter is entered; a reply ends the call, or the dismissal of everybody, or it is cancelled; a call that has ended is
told to its waiter. `Stage.Goes` lists the ways in which a call goes on, and `book_idle` and its like say what a moment
does to the stages of all calls. A call has ended just if it did so while it was waited for (`result?_iff`).
-/
import Mathlib.Tactic
import MessageBus.Connection.Dispatch

namespace MessageBus

/-! ## Stages -/

/-- what has become of the call of a serial -/
inductive Stage where
  /-- nobody was entered for it -/
  | unused
  | waiting (waiter : Waiter)
  /-- there is an outcome, and the waiter is still to be told -/
  | ended (waiter : Waiter) (outcome : CallOutcome)
  | told (waiter : Waiter) (outcome : CallOutcome)
  | cancelled (waiter : Waiter)

/-- a message is a reply to the call of a serial -/
def Message.isReplyTo (message : Message) (serial : UInt32) : Bool :=
  (message.type = .methodReturn || message.type = .error) && message.fields.replySerial = some serial

/-- the text that a body leads with: its first argument, if that is one -/
inductive Body.Leads (body : Body) : Option String → Prop
  | text {kind : TextKind} {text : String} {rest : List Value} (h : body.values = .scalar (.text kind text) :: rest) :
      body.Leads (some text)
  | none (h : ∀ kind text rest, body.values ≠ .scalar (.text kind text) :: rest) : body.Leads none

/-- what a reply says about the call that it is for: it has returned with the arguments, or has failed with an error of
this name, which the first argument explains if it is a text -/
inductive Message.Says (reply : Message) : CallOutcome → Prop
  | returned (htype : reply.type = .methodReturn) : reply.Says (.ok reply.body)
  | failed {text : Option String} (htype : reply.type = .error) (htext : reply.body.Leads text) :
      reply.Says (.error (.remote ⟨reply.fields.errorName.getD "", text, reply.body⟩))

/-- the ways in which the call of a serial ends at a moment at which it is waited for -/
inductive Moment.Ends (serial : UInt32) : Moment → CallOutcome → Prop
  | replied {reply : Message} {outcome : CallOutcome} (hreply : reply.isReplyTo serial = true) (hsaid : reply.Says outcome) :
      Ends serial (.routed reply) outcome
  | dismissed (reason : String) : Ends serial (.dismissed reason) (.error (.disconnected reason))

theorem Body.leads_firstText? (body : Body) : body.Leads body.firstText? := by
  rw [firstText?]
  rcases hvalues : body.values with _ | ⟨value, rest⟩
  · exact .none (by simp [hvalues])
  · cases value with
    | scalar value =>
      cases value with
      | text kind text => exact .text hvalues
      | _ => exact .none (by simp [hvalues])
    | _ => exact .none (by simp [hvalues])

theorem Body.Leads.eq {body : Body} {text text' : Option String} (h : body.Leads text) (h' : body.Leads text') :
    text = text' := by
  cases h with
  | text hvalues =>
    cases h' with
    | text hvalues' =>
      cases hvalues.symm.trans hvalues'
      rfl
    | none hno => exact absurd hvalues (hno _ _ _)
  | none hno =>
    cases h' with
    | text hvalues' => exact absurd hvalues' (hno _ _ _)
    | none => rfl

theorem Message.isReplyTo_iff {message : Message} {serial : UInt32} : message.isReplyTo serial = true ↔
    (message.type = .methodReturn ∨ message.type = .error) ∧ message.fields.replySerial = some serial := by
  simp [isReplyTo]

/-- **The outcome of a reply is what the reply says.** -/
theorem Message.says_outcome {reply : Message} (hreply : reply.type = .methodReturn ∨ reply.type = .error) :
    reply.Says reply.outcome := by
  unfold outcome
  obtain htype | htype := hreply <;> rw [htype]
  · exact .returned htype
  · exact .failed htype reply.body.leads_firstText?

theorem Message.Says.eq_outcome {reply : Message} {outcome : CallOutcome} (h : reply.Says outcome) :
    outcome = reply.outcome := by
  unfold Message.outcome
  cases h with
  | returned htype => rw [htype]
  | failed htype htext => rw [htype, htext.eq reply.body.leads_firstText?]

theorem Moment.ends_replied {message : Message} {serial : UInt32} (h : message.isReplyTo serial = true) :
    (Moment.routed message).Ends serial message.outcome :=
  .replied h (Message.says_outcome (Message.isReplyTo_iff.1 h).1)

namespace Stage

def waiter? : Stage → Option Waiter
  | unused => none
  | waiting waiter | ended waiter _ | told waiter _ | cancelled waiter => some waiter

/-- what a call has ended with -/
def result? : Stage → Option (Waiter × CallOutcome)
  | ended waiter outcome | told waiter outcome => some (waiter, outcome)
  | _ => none

/-- what a handle has to say, as long as nobody has asked it -/
def shown : Stage → HandleState
  | told _ outcome => .resolved outcome
  | cancelled _ => .dropped
  | _ => .waiting

/-- what becomes of a call when everybody is dismissed -/
def dismissed (reason : String) : Stage → Stage
  | waiting waiter => ended waiter (.error (.disconnected reason))
  | stage => stage

/-- what becomes of the call of a serial at a moment -/
def next (serial : UInt32) : Stage → Moment → Stage
  | unused, .entered s waiter => if s = serial then waiting waiter else unused
  | waiting waiter, .routed message =>
    if message.isReplyTo serial then ended waiter message.outcome else waiting waiter
  | stage, .dismissed reason => stage.dismissed reason
  | waiting waiter, .acted (.cancel s) (.flag true) => if s = serial then cancelled waiter else waiting waiter
  | ended waiter outcome, .told s _ _ => if s = serial then told waiter outcome else ended waiter outcome
  | stage, _ => stage

/-- the ways in which the call of a serial comes to another stage -/
inductive Goes (serial : UInt32) : Stage → Moment → Stage → Prop
  | entered (w : Waiter) : Goes serial unused (.entered serial w) (waiting w)
  | ended {m : Moment} {o : CallOutcome} (w : Waiter) (hm : m.Ends serial o) : Goes serial (waiting w) m (ended w o)
  | cancelled (w : Waiter) : Goes serial (waiting w) (.acted (.cancel serial) (.flag true)) (cancelled w)
  | told (w v : Waiter) (o p : CallOutcome) : Goes serial (ended w o) (.told serial v p) (told w o)

/-- a call stays where it is unless it goes on -/
theorem next_cases (serial : UInt32) (x : Stage) (m : Moment) :
    x.next serial m = x ∨ Goes serial x m (x.next serial m) := by
  unfold next
  split
  · split_ifs with hs
    · exact .inr (hs ▸ .entered _)
    · exact .inl rfl
  · split_ifs with hreply
    · exact .inr (.ended _ (Moment.ends_replied hreply))
    · exact .inl rfl
  · cases x with
    | waiting w => exact .inr (.ended w (.dismissed _))
    | _ => exact .inl rfl
  · split_ifs with hs
    · exact .inr (hs ▸ .cancelled _)
    · exact .inl rfl
  · split_ifs with hs
    · exact .inr (hs ▸ .told _ _ _ _)
    · exact .inl rfl
  · exact .inl rfl

end Stage

/-! ## From moment to moment -/

/-- what has become of the call of a serial, by all that has happened -/
def stage (serial : UInt32) (past : List Moment) : Stage := past.foldl (Stage.next serial) .unused

/-- what has become of the calls of all serials -/
def book (past : List Moment) : UInt32 → Stage := fun serial => stage serial past

variable {past more : List Moment} {m : Moment} {s t : UInt32} {w : Waiter} {o : CallOutcome}

theorem stage_snoc (s : UInt32) (past : List Moment) (m : Moment) :
    stage s (past ++ [m]) = (stage s past).next s m := by
  simp [stage]

/-- what holds of a stage and is kept at every moment to come holds ever after -/
theorem stage_append {P : Stage → Prop} (h : P (stage s past)) (hkeep : ∀ m ∈ more, ∀ x, P x → P (x.next s m)) :
    P (stage s (past ++ more)) := by
  rw [stage, List.foldl_append]
  change P (more.foldl (Stage.next s) (stage s past))
  generalize stage s past = x at h
  induction more generalizing x with
  | nil => exact h
  | cons m more ih =>
    rw [List.forall_mem_cons] at hkeep
    exact ih hkeep.2 _ (hkeep.1 x h)

theorem Stage.waiter?_next {x : Stage} (h : x.waiter? = some w) (s : UInt32) (m : Moment) :
    (x.next s m).waiter? = some w := by
  obtain hsame | hgoes := next_cases s x m
  · rw [hsame, h]
  · generalize x.next s m = y at hgoes
    cases hgoes with
    | entered => cases h
    | ended | cancelled | told => exact h

/-- a moment at which calls end, but none begins, and nobody is told -/
def Moment.isEnding : Moment → Bool
  | .routed _ | .dismissed _ => true
  | _ => false

/-- calls that end keep their waiters, and no handle shows that they have ended -/
theorem Stage.next_ending (h : m.isEnding = true) (s : UInt32) (x : Stage) :
    (x.next s m).waiter? = x.waiter? ∧ (x.next s m).shown = x.shown := by
  obtain hsame | hgoes := next_cases s x m
  · rw [hsame]
    exact ⟨rfl, rfl⟩
  · generalize x.next s m = y at hgoes
    cases hgoes with
    | ended => exact ⟨rfl, rfl⟩
    | entered | cancelled | told => cases h

/-- a call keeps its waiter -/
theorem waiter?_append (h : (stage s past).waiter? = some w) (more : List Moment) :
    (stage s (past ++ more)).waiter? = some w :=
  stage_append (P := fun x => x.waiter? = some w) h fun m _ _ hx => Stage.waiter?_next hx s m

theorem unused_append (h : stage s past = .unused) (hmore : ∀ w, .entered s w ∉ more) :
    stage s (past ++ more) = .unused := by
  refine stage_append (P := fun x => x = .unused) h fun m hm x hx => ?_
  subst hx
  cases m with
  | entered t v =>
    have hne : t ≠ s := fun heq => hmore v (heq ▸ hm)
    simp [Stage.next, hne]
  | _ => rfl

/-! ## Books -/

/-- a moment of which no call takes notice -/
def Moment.isIdle : Moment → Bool
  | .seen _ | .numbered _ => true
  | .acted (.cancel _) (.flag found) => !found
  | .acted _ _ => true
  | _ => false

theorem Stage.next_idle (h : m.isIdle = true) (s : UInt32) (x : Stage) : x.next s m = x := by
  unfold Stage.next
  split <;> simp_all [Moment.isIdle]

theorem book_idle (h : ∀ m ∈ more, m.isIdle = true) : book (past ++ more) = book past := by
  funext s
  exact stage_append (P := fun x => x = stage s past) rfl fun m hm x hx => by rw [Stage.next_idle (h m hm), hx]

/-- a moment at which one call comes to another stage -/
theorem book_update {x : Stage} (hs : (stage s past).next s m = x)
    (hother : ∀ t, t ≠ s → (stage t past).next t m = stage t past) :
    book (past ++ [m]) = Function.update (book past) s x := by
  funext t
  rw [book, stage_snoc]
  by_cases ht : t = s
  · rw [ht, Function.update_self, hs]
  · rw [Function.update_of_ne ht, hother t ht, book]

/-- the stage of a call that has come to another one -/
theorem stage_self {x : Stage} (h : book (past ++ more) = Function.update (book past) s x) : stage s (past ++ more) = x := by
  rw [← Function.update_self s x (book past), ← h, book]

/-- the stage of every other call -/
theorem stage_other {x : Stage} (h : book (past ++ more) = Function.update (book past) s x) (ht : t ≠ s) :
    stage t (past ++ more) = stage t past := by
  rw [← book, h, Function.update_of_ne ht, book]

theorem book_entered (h : stage s past = .unused) :
    book (past ++ [.entered s w]) = Function.update (book past) s (.waiting w) := by
  refine book_update (by simp [h, Stage.next]) fun t ht => ?_
  cases stage t past <;> simp [Stage.next, Ne.symm ht]

/-- a waiter is entered right after a serial is allocated -/
theorem book_entering {rest : List Moment} (h : stage s past = .unused) (hrest : ∀ m ∈ rest, m.isIdle = true) :
    book (past ++ .numbered t :: .entered s w :: rest) = Function.update (book past) s (.waiting w) := by
  have hnumbered : book (past ++ [.numbered t]) = book past := book_idle (by simp [Moment.isIdle])
  have hs : stage s (past ++ [.numbered t]) = .unused := by rw [← h]; exact congrFun hnumbered s
  have hsplit : past ++ .numbered t :: .entered s w :: rest = past ++ [.numbered t] ++ [.entered s w] ++ rest := by simp
  rw [hsplit, book_idle hrest, book_entered hs, hnumbered]

theorem Message.isReplyTo_unique {message : Message} (hs : message.isReplyTo s = true) (ht : message.isReplyTo t = true) :
    s = t := by
  simp only [isReplyTo, Bool.and_eq_true, decide_eq_true_eq] at hs ht
  exact Option.some.inj (hs.2.symm.trans ht.2)

theorem book_routed {message : Message} (h : stage s past = .waiting w) (hs : message.isReplyTo s = true) :
    book (past ++ [.routed message]) = Function.update (book past) s (.ended w message.outcome) := by
  refine book_update (by simp [h, Stage.next, hs]) fun t ht => ?_
  have hno : message.isReplyTo t = false := by
    by_contra hyes
    exact ht (Message.isReplyTo_unique (by simpa using hyes) hs)
  cases stage t past <;> simp [Stage.next, hno]

/-- a message that is no reply to anybody who waits changes nothing -/
theorem book_strange {message : Message} (h : ∀ s w, stage s past = .waiting w → message.isReplyTo s = false) :
    book (past ++ [.routed message]) = book past := by
  funext t
  rw [book, stage_snoc, book]
  cases ht : stage t past with
  | waiting w => simp [Stage.next, h t w ht]
  | _ => rfl

theorem book_dismissed (reason : String) :
    book (past ++ [.dismissed reason]) = fun s => (book past s).dismissed reason := by
  funext t
  rw [book, stage_snoc, book]
  cases stage t past <;> rfl

theorem book_cancel (h : stage s past = .waiting w) :
    book (past ++ [.acted (.cancel s) (.flag true)]) = Function.update (book past) s (.cancelled w) := by
  refine book_update (by simp [h, Stage.next]) fun t ht => ?_
  cases stage t past <;> simp [Stage.next, Ne.symm ht]

theorem book_told (h : stage s past = .ended w o) :
    book (past ++ [.told s w o]) = Function.update (book past) s (.told w o) := by
  refine book_update (by simp [h, Stage.next]) fun t ht => ?_
  cases stage t past <;> simp [Stage.next, Ne.symm ht]

/-! ## How calls came to their stages -/

/-- what holds of a stage now and does not hold at first came to hold at some moment -/
theorem exists_goes {P : Stage → Prop} (h : P (stage s past)) (hunused : ¬P .unused) :
    ∃ before m after x, past = before ++ m :: after ∧ (stage s before).Goes s m x ∧ ¬P (stage s before) ∧ P x := by
  induction past using List.reverseRecOn with
  | nil => exact absurd h hunused
  | append_singleton past m ih =>
    by_cases hbefore : P (stage s past)
    · obtain ⟨before, n, after, x, rfl, hgoes⟩ := ih hbefore
      exact ⟨before, n, after ++ [m], x, by simp, hgoes⟩
    · rw [stage_snoc] at h
      obtain hsame | hgoes := Stage.next_cases s (stage s past) m
      · rw [hsame] at h
        exact absurd h hbefore
      · exact ⟨past, m, [], _, rfl, hgoes, hbefore, h⟩

/-- the waiter of a call was entered -/
theorem entered_of_waiter? (h : (stage s past).waiter? = some w) : .entered s w ∈ past := by
  obtain ⟨before, m, after, x, rfl, hgoes, hno, hyes⟩ := exists_goes (P := fun x => x.waiter? = some w) h (by simp [Stage.waiter?])
  generalize stage s before = y at hgoes hno
  cases hgoes with
  | entered v =>
    obtain rfl : v = w := Option.some.inj hyes
    simp
  | ended | cancelled | told => exact absurd hyes hno

theorem Stage.result?_next {x : Stage} (h : x.result? = some (w, o)) (s : UInt32) (m : Moment) :
    (x.next s m).result? = some (w, o) := by
  obtain hsame | hgoes := next_cases s x m
  · rw [hsame, h]
  · generalize x.next s m = y at hgoes
    cases hgoes with
    | entered | ended | cancelled => cases h
    | told => exact h

/-- a call has ended just if it did so at a moment at which it was waited for -/
theorem result?_iff : (stage s past).result? = some (w, o) ↔
    ∃ before m after, past = before ++ m :: after ∧ stage s before = .waiting w ∧ m.Ends s o := by
  refine ⟨fun h => ?_, fun ⟨before, m, after, heq, hw, hm⟩ => ?_⟩
  · obtain ⟨before, m, after, x, rfl, hgoes, hno, hyes⟩ :=
      exists_goes (P := fun x => x.result? = some (w, o)) h (by simp [Stage.result?])
    generalize hbefore : stage s before = y at hgoes hno
    cases hgoes with
    | ended v hm =>
      cases hyes
      exact ⟨before, m, after, rfl, hbefore, hm⟩
    | told => exact absurd hyes hno
    | entered | cancelled => cases hyes
  · have hended : (stage s (before ++ [m])).result? = some (w, o) := by
      rw [stage_snoc, hw]
      cases hm with
      | replied hreply hsaid =>
        rw [Stage.next, if_pos hreply, hsaid.eq_outcome]
        rfl
      | dismissed reason => rfl
    rw [heq, List.append_cons]
    exact stage_append (P := fun x => x.result? = some (w, o)) hended fun m _ x hx => Stage.result?_next hx s m

end MessageBus
