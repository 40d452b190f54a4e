/-
The books of a connection.

A ledger is what a connection keeps of calls: the next serial, the table of waiters, what they are owed, the handles,
and all that has happened. `Ledger.Step` lists the ways in which it changes, and `Books` says that it agrees with the
past. Every step preserves this (`Books.step`), and so does any number of them (`Books.steps`).
-/
import Mathlib.Tactic
import MessageBus.Proofs.Connection.Accounts

namespace MessageBus

variable {more : List Moment} {m : Moment} {s : UInt32} {w : Waiter} {o : CallOutcome}

/-- what a connection keeps of calls, and what their waiters are owed -/
structure Ledger where
  next : UInt32
  pending : List (UInt32 × Waiter)
  owed : List (UInt32 × Waiter × CallOutcome)
  handles : List HandleState
  closed : Bool
  past : List Moment

/-- the ledger of a new connection -/
def Ledger.empty : Ledger := ⟨1, [], [], [], false, []⟩

/-- a serial can be allocated next; the one that is next in order is taken unless it is zero or waited for -/
def Ledger.Allots (l : Ledger) (serial : UInt32) : Prop :=
  l.next ≠ 0 → l.next ∉ l.pending.map Prod.fst → serial = l.next

/-- a moment that leaves the books alone -/
structure Moment.Quiet (m : Moment) : Prop where
  isIdle : m.isIdle = true
  isNumber : m.isNumber = false
  opens : m.opens? = none
  heard : m.event?.bind Event.reply? = none

/-- the ways in which a ledger changes -/
inductive Ledger.Step : Ledger → Ledger → Prop
  | quiet (l : Ledger) (m : Moment) (hm : m.Quiet) : Step l { l with past := l.past ++ [m] }
  /-- a message that nobody waits for is numbered -/
  | number (l : Ledger) (s : UInt32) (hs : l.Allots s) :
      Step l { l with next := s + 1, past := l.past ++ [.numbered s] }
  /-- a call gets through -/
  | opening (l : Ledger) (s : UInt32) (w : Waiter) (e : Event) (m : Moment) (hs : l.Allots s) (hclosed : l.closed = false)
      (hw : ∀ i, w = .handle i → i = l.handles.length) (he : (Moment.seen e).Quiet) (hm : m.opens? = some (s, w)) :
      Step l { l with
        next := s + 1
        pending := l.pending ++ [(s, w)]
        handles := l.handles ++ w.handles
        past := l.past ++ [.numbered s, .entered s w, .seen e, m] }
  /-- a call is entered that does not get through, for which the connection is closed -/
  | losing (l : Ledger) (s : UInt32) (w : Waiter) (hs : l.Allots s) (hw : ∀ i, w = .handle i → l.handles.length ≤ i) :
      Step l { l with
        next := s + 1
        pending := l.pending ++ [(s, w)]
        closed := true
        past := l.past ++ [.numbered s, .entered s w] }
  | dismissing (l : Ledger) (reason : String) :
      Step l { l with
        pending := []
        owed := l.pending.map (fun entry => (entry.1, entry.2, .error (.disconnected reason))) ++ l.owed
        closed := true
        past := l.past ++ [.dismissed reason] }
  /-- a message is no reply to anybody who waits -/
  | passing (l : Ledger) (message : Message) (hno : ∀ entry ∈ l.pending, message.isReplyTo entry.1 = false) :
      Step l { l with past := l.past ++ [.routed message] }
  | replying (l : Ledger) (message : Message) (s : UInt32) (w : Waiter) (hs : (s, w) ∈ l.pending)
      (hreply : message.isReplyTo s = true) :
      Step l { l with
        pending := l.pending.filter fun entry => entry.1 ≠ s
        owed := (s, w, message.outcome) :: l.owed
        past := l.past ++ [.routed message] }
  | cancelling (l : Ledger) (s : UInt32) (w : Waiter) (hs : (s, w) ∈ l.pending) :
      Step l { l with
        pending := l.pending.filter fun entry => entry.1 ≠ s
        handles := w.show .dropped l.handles
        past := l.past ++ [.acted (.cancel s) (.flag true)] }
  | telling (l : Ledger) (s : UInt32) (w : Waiter) (o : CallOutcome) (owed : List (UInt32 × Waiter × CallOutcome))
      (howed : l.owed = (s, w, o) :: owed) :
      Step l { l with
        owed
        handles := w.show (.resolved o) l.handles
        past := l.past ++ .told s w o :: w.heard o }
  /-- a handle is asked for the outcome, and has it -/
  | reading (l : Ledger) (m : Moment) (i : Nat) (handles : List HandleState) (hm : m.Quiet) (hread : HasRead [m] i)
      (hlength : handles.length = l.handles.length) (hother : ∀ j, j ≠ i → handles[j]? = l.handles[j]?) :
      Step l { l with handles, past := l.past ++ [m] }

/-- a ledger agrees with the past -/
structure Books (l : Ledger) : Prop where
  numbering : Numbering l.next l.past
  accounts : Accounts (book l.past) l.pending l.owed
  shows : Shows l.past l.handles l.closed
  orderly : Orderly l.past
  heard : Heard l.past

section Books

variable {l l' : Ledger}

theorem Moment.Quiet.opened (h : m.Quiet) : opened [m] = [] := by
  simp [MessageBus.opened, h.opens]

theorem Moment.Quiet.issued (h : m.Quiet) : issued [m] = 0 := by
  simp [MessageBus.issued, h.isNumber]

theorem Moment.Quiet.heard_singleton (h : m.Quiet) : Heard [m] := by
  have hreply := h.heard
  cases m with
  | seen e =>
    have hnone : e.reply? = none := hreply
    simp [Heard, Moment.event?, Moment.run?, hnone]
  | told s w o => cases h.isIdle
  | _ => rfl

/-- the next serial in order is neither zero nor waited for -/
theorem Books.eq_next (h : Books l) (hs : l.Allots s) : s = l.next := by
  refine hs (fun hzero => ?_) (h.accounts.not_mem_pending fun w hw => ?_)
  · have hnext := h.numbering.next_eq
    rw [hzero] at hnext
    cases hnext
  · have hfresh : book l.past l.next = .unused := h.numbering.fresh
    rw [hfresh] at hw
    cases hw

theorem Moment.not_entered_of_idle (h : ∀ m ∈ more, m.isIdle = true) (s : UInt32) (w : Waiter) : .entered s w ∉ more :=
  fun hmem => absurd (h _ hmem) (by simp [isIdle])

/-- a ledger of which nothing but the past changes, and that by moments of which no call takes notice -/
theorem Books.idle (h : Books l) {next : UInt32} (hidle : ∀ m ∈ more, m.isIdle = true)
    (hnumbering : Numbering next (l.past ++ more)) (hopened : opened more = []) (hheard : Heard more) :
    Books { l with next, past := l.past ++ more } where
  numbering := hnumbering
  accounts := by
    rw [book_idle hidle]
    exact h.accounts
  shows := h.shows.idle hopened hidle
  orderly := h.orderly.idle hidle
  heard := h.heard.append hheard

theorem Books.opening (h : Books l) {e : Event} (hclosed : l.closed = false)
    (hw : ∀ i, w = .handle i → i = l.handles.length) (he : (Moment.seen e).Quiet) (hm : m.opens? = some (l.next, w))
    (hfew : issued (l.past ++ [.numbered l.next, .entered l.next w, .seen e, m]) < 2 ^ 32 - 1) :
    Books { l with
      next := l.next + 1
      pending := l.pending ++ [(l.next, w)]
      handles := l.handles ++ w.handles
      past := l.past ++ [.numbered l.next, .entered l.next w, .seen e, m] } := by
  have hfresh := h.numbering.fresh
  have hrest : ∀ x ∈ [.seen e, m], x.isIdle = true := by simp [he.isIdle, Moment.isIdle_of_opens? hm]
  have hbook : book (l.past ++ [.numbered l.next, .entered l.next w, .seen e, m])
      = Function.update (book l.past) l.next (.waiting w) := book_entering hfresh hrest
  -- a call that gets through is an action, and neither a number nor the entry of a waiter
  obtain ⟨action, answer, rfl⟩ : ∃ action answer, m = .acted action answer := by
    cases m with
    | acted action answer => exact ⟨action, answer, rfl⟩
    | _ => cases hm
  refine ⟨h.numbering.number hfew ?_ ?_, ?_, h.shows.open hclosed hfresh hw ?_ hbook, h.orderly.entering hfresh hrest,
    h.heard.append ?_⟩
  · rfl
  · intro s v hmem
    have hentered : s = l.next ∧ v = w := by simpa using hmem
    exact hentered.1
  · rw [hbook]
    exact h.accounts.enter hfresh w
  · change List.filterMap Moment.opens? [.acted action answer] = _
    rw [List.filterMap_cons_some hm]
    rfl
  · change List.filterMap Event.reply? [e] = []
    have hnone : e.reply? = none := he.heard
    rw [List.filterMap_cons_none hnone]
    rfl

theorem Books.losing (h : Books l) (hw : ∀ i, w = .handle i → l.handles.length ≤ i)
    (hfew : issued (l.past ++ [.numbered l.next, .entered l.next w]) < 2 ^ 32 - 1) :
    Books { l with
      next := l.next + 1
      pending := l.pending ++ [(l.next, w)]
      closed := true
      past := l.past ++ [.numbered l.next, .entered l.next w] } := by
  have hfresh := h.numbering.fresh
  have hbook : book (l.past ++ [.numbered l.next, .entered l.next w])
      = Function.update (book l.past) l.next (.waiting w) := book_entering hfresh (by simp)
  refine ⟨h.numbering.number hfew rfl ?_, ?_, h.shows.still rfl ?_ (fun _ => rfl) ?_,
    h.orderly.entering hfresh (by simp), h.heard.append rfl⟩
  · intro s v hmem
    have hentered : s = l.next ∧ v = w := by simpa using hmem
    exact hentered.1
  · rw [hbook]
    exact h.accounts.enter hfresh w
  · intro t i ht
    by_cases hts : t = l.next
    · rw [hts, stage_self hbook] at ht
      cases ht
      exact .inr ⟨rfl, hw i rfl⟩
    · rw [stage_other hbook hts] at ht
      exact .inl ht
  · intro t v ht
    have hts : t ≠ l.next := by
      intro hts
      rw [hts, hfresh] at ht
      cases ht
    rw [stage_other hbook hts]

theorem Books.dismissing (h : Books l) (reason : String) :
    Books { l with
      pending := []
      owed := l.pending.map (fun entry => (entry.1, entry.2, .error (.disconnected reason))) ++ l.owed
      closed := true
      past := l.past ++ [.dismissed reason] } := by
  refine ⟨h.numbering.keep rfl (by simp), ?_, h.shows.ending rfl fun _ => rfl, h.orderly.snoc trivial, h.heard.append rfl⟩
  rw [book_dismissed]
  exact h.accounts.dismiss reason

theorem Books.passing (h : Books l) {message : Message} (hno : ∀ entry ∈ l.pending, message.isReplyTo entry.1 = false) :
    Books { l with past := l.past ++ [.routed message] } := by
  have hbook : book (l.past ++ [.routed message]) = book l.past :=
    book_strange fun s w hs => hno (s, w) ((h.accounts.pending_iff s w).2 hs)
  refine ⟨h.numbering.keep rfl (by simp), ?_, h.shows.ending rfl id, h.orderly.snoc trivial, h.heard.append rfl⟩
  rw [hbook]
  exact h.accounts

theorem Books.replying (h : Books l) {message : Message} (hs : (s, w) ∈ l.pending) (hreply : message.isReplyTo s = true) :
    Books { l with
      pending := l.pending.filter fun entry => entry.1 ≠ s
      owed := (s, w, message.outcome) :: l.owed
      past := l.past ++ [.routed message] } := by
  have hw : stage s l.past = .waiting w := (h.accounts.pending_iff s w).1 hs
  refine ⟨h.numbering.keep rfl (by simp), ?_, h.shows.ending rfl id, h.orderly.snoc trivial, h.heard.append rfl⟩
  rw [book_routed hw hreply]
  exact h.accounts.finish hs message.outcome

theorem Books.cancelling (h : Books l) (hs : (s, w) ∈ l.pending) :
    Books { l with
      pending := l.pending.filter fun entry => entry.1 ≠ s
      handles := w.show .dropped l.handles
      past := l.past ++ [.acted (.cancel s) (.flag true)] } := by
  have hw : stage s l.past = .waiting w := (h.accounts.pending_iff s w).1 hs
  have hwaiter : (stage s l.past).waiter? = some w := by rw [hw]; rfl
  have hbook := book_cancel hw
  refine ⟨h.numbering.keep rfl (by simp), ?_, h.shows.put rfl hwaiter (x := .cancelled w) rfl hbook,
    h.orderly.snoc ⟨w, hw⟩, h.heard.append rfl⟩
  rw [hbook]
  exact h.accounts.cancel hs

theorem Books.telling (h : Books l) {owed : List (UInt32 × Waiter × CallOutcome)} (howed : l.owed = (s, w, o) :: owed) :
    Books { l with
      owed
      handles := w.show (.resolved o) l.handles
      past := l.past ++ .told s w o :: w.heard o } := by
  have haccounts := h.accounts
  rw [howed] at haccounts
  have hw : stage s l.past = .ended w o := (haccounts.owed_iff s w o).1 List.mem_cons_self
  have hwaiter : (stage s l.past).waiter? = some w := by rw [hw]; rfl
  have hidle : ∀ m ∈ w.heard o, m.isIdle = true := by cases w <;> simp [Waiter.heard, Moment.isIdle]
  have hbook : book (l.past ++ .told s w o :: w.heard o) = Function.update (book l.past) s (.told w o) := by
    rw [List.append_cons, book_idle hidle, book_told hw]
  refine ⟨h.numbering.keep ?_ ?_, ?_, h.shows.put ?_ hwaiter (x := .told w o) rfl hbook, ?_, h.heard.append ?_⟩
  · cases w <;> rfl
  · cases w <;> simp [Waiter.heard]
  · rw [hbook]
    exact haccounts.tell
  · cases w <;> rfl
  · rw [List.append_cons]
    have htold : (Moment.told s w o).Fits l.past := hw
    exact (h.orderly.snoc htold).idle hidle
  · cases w <;> rfl

/-- a step keeps the books right, unless the serials run out -/
theorem Books.step (h : Books l) (hstep : l.Step l') (hfew : issued l'.past < 2 ^ 32 - 1) : Books l' := by
  cases hstep with
  | quiet m hm =>
    have hidle : ∀ x ∈ [m], x.isIdle = true := by simp [hm.isIdle]
    exact h.idle hidle (h.numbering.keep hm.issued (Moment.not_entered_of_idle hidle)) hm.opened hm.heard_singleton
  | number s hs =>
    obtain rfl := h.eq_next hs
    have hidle : ∀ x ∈ [Moment.numbered l.next], x.isIdle = true := by simp [Moment.isIdle]
    exact h.idle hidle (h.numbering.number hfew rfl (by simp)) rfl rfl
  | opening s w e m hs hclosed hw he hm =>
    obtain rfl := h.eq_next hs
    exact h.opening hclosed hw he hm hfew
  | losing s w hs hw =>
    obtain rfl := h.eq_next hs
    exact h.losing hw hfew
  | dismissing reason => exact h.dismissing reason
  | passing message hno => exact h.passing hno
  | replying message s w hs hreply => exact h.replying hs hreply
  | cancelling s w hs => exact h.cancelling hs
  | telling s w o owed howed => exact h.telling howed
  | reading m i handles hm hread hlength hother =>
    have hidle : ∀ x ∈ [m], x.isIdle = true := by simp [hm.isIdle]
    have hread : HasRead (l.past ++ [m]) i := by
      obtain ⟨outcome, hread⟩ := hread
      exact ⟨outcome, hread.imp (List.mem_append_right _) (List.mem_append_right _)⟩
    have hbooks := h.idle hidle (h.numbering.keep hm.issued (Moment.not_entered_of_idle hidle)) hm.opened hm.heard_singleton
    exact { hbooks with shows := h.shows.read hm.opened hidle hread hlength hother }

theorem Ledger.Step.issued_le (hstep : l.Step l') : issued l.past ≤ issued l'.past := by
  cases hstep <;> simp

theorem Books.empty : Books .empty := by
  have hshows : Shows [] [] false := by
    refine ⟨by simp [opened], by simp [opened], by simp [opened], by simp [opened], fun s i hs => ?_, by simp [opened]⟩
    cases hs
  have haccounts : Accounts (book []) [] [] := ⟨by simp [book, stage], by simp, by simp [book, stage], by simp⟩
  exact ⟨⟨rfl, fun s hs => absurd rfl hs⟩, haccounts, hshows, fun before m after h => by simp [Ledger.empty] at h, rfl⟩

/-- any number of steps keep the books right, unless the serials run out -/
theorem Books.steps (h : Books l) (hsteps : Relation.ReflTransGen Ledger.Step l l') (hfew : issued l'.past < 2 ^ 32 - 1) :
    Books l' := by
  induction hsteps with
  | refl => exact h
  | tail _ hstep ih => exact (ih (hstep.issued_le.trans_lt hfew)).step hstep hfew

end Books

end MessageBus
