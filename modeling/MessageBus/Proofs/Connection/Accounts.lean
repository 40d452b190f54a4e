/-
What a connection owes to the waiters of calls, and what handles show.

`Accounts` says that just those are in the table of waiters who wait, and just those are still to be told whose call has
ended, each once; `Shows` that calls have serials and waiters of their own, and that a handle shows what has become of
its call until somebody asks it. Each comes with a lemma for every way in which a call goes on.
-/
import Mathlib.Tactic
import MessageBus.Proofs.Connection.Past

namespace MessageBus

variable {past more : List Moment} {m : Moment} {s t : UInt32} {w : Waiter} {o : CallOutcome}

/-! ## The table and what is owed -/

/-- just those who wait are in the table, and just those whose call has ended are still to be told, each once -/
structure Accounts (book : UInt32 → Stage) (pending : List (UInt32 × Waiter))
    (owed : List (UInt32 × Waiter × CallOutcome)) : Prop where
  pending_iff : ∀ s w, (s, w) ∈ pending ↔ book s = .waiting w
  pending_nodup : (pending.map Prod.fst).Nodup
  owed_iff : ∀ s w o, (s, w, o) ∈ owed ↔ book s = .ended w o
  owed_nodup : (owed.map Prod.fst).Nodup

section Accounts

variable {book : UInt32 → Stage} {pending : List (UInt32 × Waiter)} {owed : List (UInt32 × Waiter × CallOutcome)}

theorem Accounts.not_mem_pending (h : Accounts book pending owed) (hs : ∀ w, book s ≠ .waiting w) :
    s ∉ pending.map Prod.fst := by
  intro hmem
  obtain ⟨⟨s, w⟩, hw, rfl⟩ := List.mem_map.1 hmem
  exact hs w ((h.pending_iff s w).1 hw)

theorem Accounts.not_mem_owed (h : Accounts book pending owed) (hs : ∀ w o, book s ≠ .ended w o) :
    s ∉ owed.map Prod.fst := by
  intro hmem
  obtain ⟨⟨s, w, o⟩, hw, rfl⟩ := List.mem_map.1 hmem
  exact hs w o ((h.owed_iff s w o).1 hw)

/-- a waiter is entered for a serial that nobody was entered for -/
theorem Accounts.enter (h : Accounts book pending owed) (hs : book s = .unused) (w : Waiter) :
    Accounts (Function.update book s (.waiting w)) (pending ++ [(s, w)]) owed := by
  refine ⟨fun t v => ?_, ?_, fun t v o => ?_, h.owed_nodup⟩
  · by_cases ht : t = s
    · subst ht
      have hno : (t, v) ∉ pending := fun hmem => by simpa [hs] using (h.pending_iff t v).1 hmem
      simp [hno, eq_comm]
    · simp [ht, h.pending_iff]
  · have hno : s ∉ pending.map Prod.fst := h.not_mem_pending (by simp [hs])
    rw [List.map_append, List.map_singleton]
    exact h.pending_nodup.append (List.nodup_singleton s) (by simpa using hno)
  · by_cases ht : t = s
    · subst ht
      simp [h.owed_iff, hs]
    · simp [ht, h.owed_iff]

/-- a waiter is taken out of the table -/
theorem Accounts.filter (h : Accounts book pending owed) {x : Stage} (hx : ∀ w, x ≠ .waiting w) :
    (∀ t v, (t, v) ∈ pending.filter (fun entry => entry.1 ≠ s) ↔ Function.update book s x t = .waiting v) ∧
      ((pending.filter fun entry => entry.1 ≠ s).map Prod.fst).Nodup := by
  refine ⟨fun t v => ?_, ?_⟩
  · by_cases ht : t = s
    · subst ht
      simp [hx]
    · simp [ht, h.pending_iff]
  · exact h.pending_nodup.sublist (List.filter_sublist.map Prod.fst)

/-- whoever is taken out of the table for the outcome of the call is owed it -/
theorem Accounts.finish (h : Accounts book pending owed) (hs : (s, w) ∈ pending) (o : CallOutcome) :
    Accounts (Function.update book s (.ended w o)) (pending.filter fun entry => entry.1 ≠ s) ((s, w, o) :: owed) := by
  have hw := (h.pending_iff s w).1 hs
  obtain ⟨hiff, hnodup⟩ := h.filter (s := s) (x := .ended w o) (by simp)
  refine ⟨hiff, hnodup, fun t v o' => ?_, ?_⟩
  · by_cases ht : t = s
    · subst ht
      have hno : (t, v, o') ∉ owed := fun hmem => by simpa [hw] using (h.owed_iff t v o').1 hmem
      simp [hno, eq_comm]
    · simp [ht, h.owed_iff]
  · rw [List.map_cons, List.nodup_cons]
    exact ⟨h.not_mem_owed (by simp [hw]), h.owed_nodup⟩

theorem Accounts.cancel (h : Accounts book pending owed) (hs : (s, w) ∈ pending) :
    Accounts (Function.update book s (.cancelled w)) (pending.filter fun entry => entry.1 ≠ s) owed := by
  have hw := (h.pending_iff s w).1 hs
  obtain ⟨hiff, hnodup⟩ := h.filter (s := s) (x := .cancelled w) (by simp)
  refine ⟨hiff, hnodup, fun t v o => ?_, h.owed_nodup⟩
  by_cases ht : t = s
  · subst ht
    simp [h.owed_iff, hw]
  · simp [ht, h.owed_iff]

theorem Accounts.tell (h : Accounts book pending ((s, w, o) :: owed)) :
    Accounts (Function.update book s (.told w o)) pending owed := by
  have hw : book s = .ended w o := (h.owed_iff s w o).1 List.mem_cons_self
  have hnodup := h.owed_nodup
  rw [List.map_cons, List.nodup_cons] at hnodup
  refine ⟨fun t v => ?_, h.pending_nodup, fun t v o' => ?_, hnodup.2⟩
  · by_cases ht : t = s
    · subst ht
      simp [h.pending_iff, hw]
    · simp [ht, h.pending_iff]
  · by_cases ht : t = s
    · subst ht
      have hno : (t, v, o') ∉ owed := fun hmem => hnodup.1 (List.mem_map.2 ⟨_, hmem, rfl⟩)
      simp [hno]
    · simp [ht, ← h.owed_iff]

/-- everybody who waits is owed that the connection is closed -/
theorem Accounts.dismiss (h : Accounts book pending owed) (reason : String) :
    Accounts (fun s => (book s).dismissed reason) []
      (pending.map (fun entry => (entry.1, entry.2, .error (.disconnected reason))) ++ owed) := by
  refine ⟨fun t v => ?_, by simp, fun t v o => ?_, ?_⟩
  · cases ht : book t <;> simp [Stage.dismissed]
  · have hdismissed : (t, v, o) ∈ pending.map (fun entry => (entry.1, entry.2, .error (.disconnected reason)))
        ↔ (t, v) ∈ pending ∧ .error (.disconnected reason) = o := by
      simp
    rw [List.mem_append, hdismissed, h.pending_iff, h.owed_iff]
    cases book t <;> simp [Stage.dismissed]
  · rw [List.map_append, List.map_map]
    refine List.Nodup.append h.pending_nodup h.owed_nodup fun t ht => ?_
    obtain ⟨⟨t, v⟩, hv, rfl⟩ := List.mem_map.1 ht
    exact h.not_mem_owed (by simp [(h.pending_iff t v).1 hv])

end Accounts

/-! ## Handles -/

/-- somebody asked a handle for the outcome, and got it -/
def HasRead (past : List Moment) (index : Nat) : Prop :=
  ∃ outcome, .acted (.poll index) (.outcome outcome) ∈ past ∨ .acted (.await index) (.outcome outcome) ∈ past

/-- the handle of a waiter, if it has one, comes to say something else -/
def Waiter.show (state : HandleState) (handles : List HandleState) : Waiter → List HandleState
  | callback _ => handles
  | handle index => handles.set index state

@[simp] theorem Waiter.length_show (w : Waiter) (state : HandleState) (handles : List HandleState) :
    (w.show state handles).length = handles.length := by
  cases w <;> simp [Waiter.show]

/-- the handle that a waiter comes with -/
def Waiter.handles : Waiter → List HandleState
  | callback _ => []
  | handle _ => [.waiting]

/-- what the journal says when a waiter is told the outcome of its call -/
def Waiter.heard (outcome : CallOutcome) : Waiter → List Moment
  | callback cb => [.seen (.replied cb.label outcome)]
  | handle _ => []

/-- a call that got through has its own serial, and the waiter it was made with; if that is a handle, the handle is that
of no other call and shows what has become of it. A waiter that is a handle but of no such call is one of a call that
failed to be sent, at which the connection was closed -/
structure Shows (past : List Moment) (handles : List HandleState) (closed : Bool) : Prop where
  opened_nodup : ((opened past).map Prod.fst).Nodup
  opened_waiter : ∀ s w, (s, w) ∈ opened past → (stage s past).waiter? = some w
  handle_lt : ∀ s i, (s, .handle i) ∈ opened past → i < handles.length
  handle_single : ∀ s t i, (s, .handle i) ∈ opened past → (t, .handle i) ∈ opened past → s = t
  handle_lost : ∀ s i, (stage s past).waiter? = some (.handle i) →
    (s, .handle i) ∈ opened past ∨ (closed = true ∧ handles.length ≤ i)
  shown : ∀ s i, (s, .handle i) ∈ opened past → ¬HasRead past i → handles[i]? = some (stage s past).shown

section Handles

variable {handles handles' : List HandleState} {closed closed' : Bool} {i : Nat}

theorem HasRead.append (h : HasRead past i) (more : List Moment) : HasRead (past ++ more) i := by
  obtain ⟨outcome, h⟩ := h
  exact ⟨outcome, h.imp (List.mem_append_left _) (List.mem_append_left _)⟩

/-- no call gets through, and each handle that nobody has asked shows what has become of its call -/
theorem Shows.keep (h : Shows past handles closed) (hmore : opened more = []) (hlength : handles'.length = handles.length)
    (hlost : ∀ t i, (stage t (past ++ more)).waiter? = some (.handle i) →
      (stage t past).waiter? = some (.handle i) ∨ (closed' = true ∧ handles.length ≤ i))
    (hclosed : closed = true → closed' = true)
    (hshown : ∀ t i, (t, .handle i) ∈ opened past → ¬HasRead (past ++ more) i →
      handles'[i]? = some (stage t (past ++ more)).shown) :
    Shows (past ++ more) handles' closed' := by
  have hopened : opened (past ++ more) = opened past := by rw [opened_append, hmore, List.append_nil]
  refine ⟨?_, fun t v ht => ?_, fun t i ht => ?_, fun t u i ht hu => ?_, fun t i ht => ?_, fun t i ht hread => ?_⟩
  · rw [hopened]
    exact h.opened_nodup
  · rw [hopened] at ht
    exact waiter?_append (h.opened_waiter t v ht) more
  · rw [hopened] at ht
    rw [hlength]
    exact h.handle_lt t i ht
  · rw [hopened] at ht hu
    exact h.handle_single t u i ht hu
  · rw [hopened, hlength]
    obtain hbefore | hnew := hlost t i ht
    · exact (h.handle_lost t i hbefore).imp id (And.imp_left hclosed)
    · exact .inr hnew
  · rw [hopened] at ht
    exact hshown t i ht hread

/-- nothing happens that a handle would show -/
theorem Shows.still (h : Shows past handles closed) (hmore : opened more = [])
    (hlost : ∀ t i, (stage t (past ++ more)).waiter? = some (.handle i) →
      (stage t past).waiter? = some (.handle i) ∨ (closed' = true ∧ handles.length ≤ i))
    (hclosed : closed = true → closed' = true)
    (hshown : ∀ t w, (stage t past).waiter? = some w → (stage t (past ++ more)).shown = (stage t past).shown) :
    Shows (past ++ more) handles closed' := by
  refine h.keep hmore rfl hlost hclosed fun t i ht hread => ?_
  rw [hshown t _ (h.opened_waiter t _ ht)]
  exact h.shown t i ht fun hbefore => hread (hbefore.append more)

/-- no call comes to another stage -/
theorem Shows.idle (h : Shows past handles closed) (hmore : opened more = []) (hidle : ∀ m ∈ more, m.isIdle = true) :
    Shows (past ++ more) handles closed := by
  have hstage (t : UInt32) : stage t (past ++ more) = stage t past := congrFun (book_idle hidle) t
  exact h.still hmore (fun t i ht => .inl (by rwa [hstage] at ht)) id fun t _ _ => by rw [hstage]

/-- calls end, of which nobody is told yet -/
theorem Shows.ending (h : Shows past handles closed) (hm : m.isEnding = true) (hclosed : closed = true → closed' = true) :
    Shows (past ++ [m]) handles closed' := by
  have hopened : opened [m] = [] := by cases m <;> first | rfl | cases hm
  have hnext (t : UInt32) := Stage.next_ending hm t (stage t past)
  refine h.still hopened (fun t i ht => .inl ?_) hclosed fun t _ _ => ?_
  · rwa [stage_snoc, (hnext t).1] at ht
  · rw [stage_snoc, (hnext t).2]

/-- a handle is asked for the outcome -/
theorem Shows.read (h : Shows past handles closed) (hmore : opened more = []) (hidle : ∀ m ∈ more, m.isIdle = true)
    (hread : HasRead (past ++ more) i) (hlength : handles'.length = handles.length)
    (hother : ∀ j, j ≠ i → handles'[j]? = handles[j]?) : Shows (past ++ more) handles' closed := by
  have hstage (t : UInt32) : stage t (past ++ more) = stage t past := congrFun (book_idle hidle) t
  refine h.keep hmore hlength (fun t j ht => .inl (by rwa [hstage] at ht)) id fun t j ht hunread => ?_
  have hne : j ≠ i := fun hji => hunread (hji ▸ hread)
  rw [hother j hne, hstage]
  exact h.shown t j ht fun hbefore => hunread (hbefore.append more)

/-- a call comes to a stage that its handle shows -/
theorem Shows.put (h : Shows past handles closed) {x : Stage} (hmore : opened more = [])
    (hw : (stage s past).waiter? = some w) (hx : x.waiter? = some w)
    (hbook : book (past ++ more) = Function.update (book past) s x) :
    Shows (past ++ more) (w.show x.shown handles) closed := by
  refine h.keep hmore (by simp) (fun t i ht => .inl ?_) id fun t i ht hread => ?_
  · by_cases hts : t = s
    · subst hts
      rwa [stage_self hbook, hx, ← hw] at ht
    · rwa [stage_other hbook hts] at ht
  · by_cases hts : t = s
    · subst hts
      obtain rfl : w = .handle i := Option.some.inj (hw.symm.trans (h.opened_waiter t _ ht))
      rw [stage_self hbook, Waiter.show, List.getElem?_set_self (h.handle_lt t i ht)]
    · rw [stage_other hbook hts, ← h.shown t i ht fun hbefore => hread (hbefore.append more)]
      cases w with
      | callback cb => rfl
      | handle j =>
        -- the handle is that of another call, or there is none
        have hne : j ≠ i := by
          intro hji
          subst hji
          obtain hs | ⟨-, hlost⟩ := h.handle_lost s j hw
          · exact hts (h.handle_single t s j ht hs)
          · exact absurd (h.handle_lt t j ht) (by omega)
        rw [Waiter.show, List.getElem?_set_ne hne]

/-- a call gets through -/
theorem Shows.open (h : Shows past handles closed) (hclosed : closed = false) (hs : stage s past = .unused)
    (hw : ∀ i, w = .handle i → i = handles.length) (hmore : opened more = [(s, w)])
    (hbook : book (past ++ more) = Function.update (book past) s (.waiting w)) :
    Shows (past ++ more) (handles ++ w.handles) closed := by
  have hopened : opened (past ++ more) = opened past ++ [(s, w)] := by rw [opened_append, hmore]
  have hself : stage s (past ++ more) = .waiting w := stage_self hbook
  have hne {t : UInt32} {v : Waiter} (ht : (t, v) ∈ opened past) : t ≠ s := by
    intro hts
    have hwaiter := h.opened_waiter t v ht
    rw [hts, hs] at hwaiter
    cases hwaiter
  refine ⟨?_, fun t v ht => ?_, fun t i ht => ?_, fun t u i ht hu => ?_, fun t i ht => ?_, fun t i ht hread => ?_⟩
  · rw [hopened, List.map_append, List.map_singleton]
    refine h.opened_nodup.append (List.nodup_singleton s) fun t ht hts => ?_
    obtain ⟨⟨t, v⟩, hv, rfl⟩ := List.mem_map.1 ht
    exact hne hv (List.mem_singleton.1 hts)
  · rw [hopened, List.mem_append, List.mem_singleton] at ht
    obtain hold | hnew := ht
    · exact waiter?_append (h.opened_waiter t v hold) more
    · cases hnew
      rw [hself]
      rfl
  · rw [hopened, List.mem_append, List.mem_singleton] at ht
    rw [List.length_append]
    obtain hold | hnew := ht
    · exact Nat.lt_add_right _ (h.handle_lt t i hold)
    · cases hnew
      rw [hw i rfl]
      exact Nat.lt_add_one _
  · rw [hopened, List.mem_append, List.mem_singleton] at ht hu
    obtain ht | ht := ht <;> obtain hu | hu := hu
    · exact h.handle_single t u i ht hu
    · cases hu
      exact absurd (h.handle_lt t i ht) (by rw [hw i rfl]; omega)
    · cases ht
      exact absurd (h.handle_lt u i hu) (by rw [hw i rfl]; omega)
    · cases ht
      cases hu
      rfl
  · refine .inl ?_
    rw [hopened, List.mem_append, List.mem_singleton]
    by_cases hts : t = s
    · subst hts
      rw [hself] at ht
      cases ht
      exact .inr rfl
    · rw [stage_other hbook hts] at ht
      obtain hold | ⟨hyes, -⟩ := h.handle_lost t i ht
      · exact .inl hold
      · rw [hclosed] at hyes
        cases hyes
  · rw [hopened, List.mem_append, List.mem_singleton] at ht
    obtain hold | hnew := ht
    · rw [stage_other hbook (hne hold), List.getElem?_append_left (h.handle_lt t i hold)]
      exact h.shown t i hold fun hbefore => hread (hbefore.append more)
    · cases hnew
      rw [hself, hw i rfl, List.getElem?_append_right le_rfl, Nat.sub_self]
      rfl

end Handles

end MessageBus
