/-
What the past of a connection says about calls.

Serials count up (`Numbering`), and a call that got through to the transport is in `opened`, with its waiter. `Orderly`
says that every moment fits those before: a waiter is entered for a serial that was not used, it is told what its call
ended with, and a call is cancelled that is waited for. Hence waiters are entered and told once. `Heard` says that the
journal has an entry for each callback that was told.
-/
import Mathlib.Tactic
import MessageBus.Proofs.Connection.Stage

namespace MessageBus

variable {past more : List Moment} {m : Moment} {s t : UInt32} {w : Waiter} {o : CallOutcome}

/-! ## Numbers -/

def Moment.isNumber : Moment → Bool
  | .numbered _ => true
  | _ => false

/-- how many serials were allocated -/
def issued (past : List Moment) : Nat := past.countP Moment.isNumber

@[simp] theorem issued_append (past more : List Moment) : issued (past ++ more) = issued past + issued more :=
  List.countP_append

/-- serials count up from one, and nobody waits for a reply to one that is still to come -/
structure Numbering (next : UInt32) (past : List Moment) : Prop where
  next_eq : next.toNat = issued past + 1
  used_le : ∀ s, stage s past ≠ .unused → s.toNat ≤ issued past

section Numbering

variable {next : UInt32}

theorem Numbering.keep (h : Numbering next past) (hnumber : issued more = 0) (hmore : ∀ s w, .entered s w ∉ more) :
    Numbering next (past ++ more) := by
  refine ⟨by rw [issued_append, hnumber, h.next_eq], fun s hs => ?_⟩
  rw [issued_append, hnumber]
  exact h.used_le s fun hunused => hs (unused_append hunused (hmore s))

/-- the next serial is allocated, and perhaps somebody is entered for it -/
theorem Numbering.number (h : Numbering next past) (hroom : issued (past ++ more) < 2 ^ 32 - 1)
    (hnumber : issued more = 1) (hmore : ∀ s w, .entered s w ∈ more → s = next) :
    Numbering (next + 1) (past ++ more) := by
  have hnext := h.next_eq
  rw [issued_append, hnumber] at hroom
  refine ⟨?_, fun s hs => ?_⟩
  · have hone : (1 : UInt32).toNat = 1 := rfl
    rw [UInt32.toNat_add, issued_append, hnumber, hone]
    omega
  · rw [issued_append, hnumber]
    by_cases hsame : s = next
    · rw [hsame, h.next_eq]
    · have hbefore := h.used_le s fun hunused => hs (unused_append hunused fun w hw => hsame (hmore s w hw))
      omega

theorem Numbering.fresh (h : Numbering next past) : stage next past = .unused := by
  by_contra hused
  have hle := h.used_le next hused
  have hnext := h.next_eq
  omega

end Numbering

/-! ## Calls that got through -/

/-- a call got through to the transport: its serial, and who is told its outcome -/
def Moment.opens? : Moment → Option (UInt32 × Waiter)
  | .acted (.invoke _ label script) (.serial serial) => some (serial, .callback ⟨label, script⟩)
  | .acted (.call _) (.handle serial index) => some (serial, .handle index)
  | _ => none

/-- all calls that got through to the transport -/
def opened (past : List Moment) : List (UInt32 × Waiter) := past.filterMap Moment.opens?

@[simp] theorem opened_append (past more : List Moment) : opened (past ++ more) = opened past ++ opened more :=
  List.filterMap_append

theorem Moment.isIdle_of_opens? {opening : UInt32 × Waiter} (h : m.opens? = some opening) : m.isIdle = true := by
  unfold opens? at h
  split at h <;> first | rfl | cases h

/-! ## What waiters are told -/

/-- a waiter is entered for a serial that nobody was entered for, it is told what its call has ended with, once, and a
call is cancelled that is waited for -/
def Moment.Fits (past : List Moment) : Moment → Prop
  | .entered s _ => stage s past = .unused
  | .told s w o => stage s past = .ended w o
  | .acted (.cancel s) (.flag true) => ∃ w, stage s past = .waiting w
  | _ => True

theorem Moment.fits_of_idle (h : m.isIdle = true) (past : List Moment) : m.Fits past := by
  unfold Fits
  split
  · cases h
  · cases h
  · cases h
  · trivial

/-- every moment fits all that has happened before -/
def Orderly (past : List Moment) : Prop := ∀ before m after, past = before ++ m :: after → m.Fits before

namespace Orderly

theorem snoc (h : Orderly past) (hm : m.Fits past) : Orderly (past ++ [m]) := by
  intro before n after heq
  rcases List.eq_nil_or_concat after with rfl | ⟨rest, last, rfl⟩
  · obtain ⟨rfl, hlast⟩ := List.append_inj' heq rfl
    rwa [← List.head_eq_of_cons_eq hlast]
  · have hsplit : past ++ [m] = (before ++ n :: rest) ++ [last] := by simpa using heq
    exact h before n rest (List.append_inj' hsplit rfl).1

theorem idle (h : Orderly past) (hmore : ∀ m ∈ more, m.isIdle = true) : Orderly (past ++ more) := by
  induction more generalizing past with
  | nil => simpa using h
  | cons m more ih =>
    rw [List.forall_mem_cons] at hmore
    simpa using ih (h.snoc (Moment.fits_of_idle hmore.1 past)) hmore.2

theorem entering {rest : List Moment} (h : Orderly past) (hs : stage s past = .unused)
    (hrest : ∀ m ∈ rest, m.isIdle = true) : Orderly (past ++ .numbered t :: .entered s w :: rest) := by
  have hnumbered : Orderly (past ++ [.numbered t]) := h.snoc trivial
  have hentered : (Moment.entered s w).Fits (past ++ [.numbered t]) := unused_append hs (by simp)
  simpa using (hnumbered.snoc hentered).idle hrest

/-- a moment that comes about only while something does not hold of a stage, which holds ever after, comes only once -/
theorem once {before after : List Moment} {K : Moment → Prop} {P : Stage → Prop} (h : Orderly past)
    (hfirst : ∀ past m, K m → m.Fits past → ¬P (stage s past) ∧ P ((stage s past).next s m))
    (hkeep : ∀ x m, P x → P (x.next s m)) (heq : past = before ++ m :: after) (hm : K m) {n : Moment} (hn : K n) :
    n ∉ before ++ after := by
  -- of two such moments, the stage before the second one has what it must not have
  have hnever {before between after : List Moment} {m n : Moment} (heq : past = before ++ m :: (between ++ n :: after))
      (hm : K m) (hn : K n) : False := by
    have hlate : n.Fits (before ++ m :: between) := h _ n after (by simp [heq])
    have hearly := (hfirst before m hm (h before m _ heq)).2
    rw [← stage_snoc] at hearly
    refine (hfirst _ n hn hlate).1 ?_
    rw [List.append_cons]
    exact stage_append hearly fun m _ x hx => hkeep x m hx
  intro hmem
  obtain hbefore | hafter := List.mem_append.1 hmem
  · obtain ⟨a, b, rfl⟩ := List.append_of_mem hbefore
    exact hnever (by simpa using heq) hn hm
  · obtain ⟨a, b, rfl⟩ := List.append_of_mem hafter
    exact hnever heq hm hn

theorem entered_once (h : Orderly past) {before after : List Moment} (heq : past = before ++ .entered s w :: after)
    (v : Waiter) : .entered s v ∉ before ++ after := by
  refine h.once (s := s) (K := fun m => ∃ w, m = .entered s w) (P := fun x => x.waiter?.isSome = true) ?_ ?_ heq ⟨w, rfl⟩
    ⟨v, rfl⟩
  · rintro past m ⟨w, rfl⟩ hfits
    have hs : stage s past = .unused := hfits
    simp [hs, Stage.next, Stage.waiter?]
  · intro x m hx
    obtain ⟨w, hw⟩ := Option.isSome_iff_exists.1 hx
    rw [Stage.waiter?_next hw s m]
    rfl

theorem told_once (h : Orderly past) {before after : List Moment} (heq : past = before ++ .told s w o :: after)
    (v : Waiter) (p : CallOutcome) : .told s v p ∉ before ++ after := by
  refine h.once (s := s) (K := fun m => ∃ w o, m = .told s w o) (P := fun x => ∃ w o, x = .told w o) ?_ ?_ heq ⟨w, o, rfl⟩
    ⟨v, p, rfl⟩
  · rintro past m ⟨w, o, rfl⟩ hfits
    have hs : stage s past = .ended w o := hfits
    simp [hs, Stage.next]
  · rintro x m ⟨w, o, rfl⟩
    exact ⟨w, o, by cases m <;> rfl⟩

/-- whoever is entered for a serial stays the waiter of its call -/
theorem waiter?_of_entered (h : Orderly past) (hs : .entered s w ∈ past) : (stage s past).waiter? = some w := by
  obtain ⟨before, after, rfl⟩ := List.append_of_mem hs
  have hunused : stage s before = .unused := h before _ after rfl
  have hentered : (stage s (before ++ [.entered s w])).waiter? = some w := by
    simp [stage_snoc, hunused, Stage.next, Stage.waiter?]
  simpa using waiter?_append hentered after

/-- just those are told whose call has come so far -/
theorem told_iff (h : Orderly past) : .told s w o ∈ past ↔ stage s past = .told w o := by
  refine ⟨fun hmem => ?_, fun hs => ?_⟩
  · obtain ⟨before, after, rfl⟩ := List.append_of_mem hmem
    have hended : stage s before = .ended w o := h before _ after rfl
    have htold : stage s (before ++ [.told s w o]) = .told w o := by simp [stage_snoc, hended, Stage.next]
    rw [List.append_cons]
    exact stage_append (P := fun x => x = .told w o) htold fun m _ x hx => by subst hx; cases m <;> rfl
  · obtain ⟨before, m, after, x, rfl, hgoes, hno, hyes⟩ := exists_goes (P := fun x => x = .told w o) hs (by simp)
    subst hyes
    have hfits : m.Fits before := h before m after rfl
    generalize hbefore : stage s before = y at hgoes
    cases hgoes with
    | told _ v _ p =>
      have hfits : stage s before = .ended v p := hfits
      rw [hbefore] at hfits
      cases hfits
      simp

/-- just those calls were cancelled -/
theorem cancelled_iff (h : Orderly past) :
    .acted (.cancel s) (.flag true) ∈ past ↔ ∃ w, stage s past = .cancelled w := by
  refine ⟨fun hmem => ?_, fun ⟨w, hs⟩ => ?_⟩
  · obtain ⟨before, after, rfl⟩ := List.append_of_mem hmem
    obtain ⟨w, hwaiting⟩ : ∃ w, stage s before = .waiting w := h before _ after rfl
    have hcancelled : stage s (before ++ [.acted (.cancel s) (.flag true)]) = .cancelled w := by
      simp [stage_snoc, hwaiting, Stage.next]
    rw [List.append_cons]
    exact ⟨w, stage_append (P := fun x => x = .cancelled w) hcancelled fun m _ x hx => by subst hx; cases m <;> rfl⟩
  · obtain ⟨before, m, after, x, rfl, hgoes, hno, hyes⟩ := exists_goes (P := fun x => x = .cancelled w) hs (by simp)
    subst hyes
    generalize stage s before = y at hgoes
    cases hgoes
    simp

end Orderly

/-! ## What callbacks are told -/

/-- the outcome of a call, for which a callback ran -/
def Event.reply? : Event → Option (String × CallOutcome)
  | .replied label outcome => some (label, outcome)
  | _ => none

/-- the callback that is told, and what it is told -/
def Moment.run? : Moment → Option (String × CallOutcome)
  | .told _ (.callback cb) outcome => some (cb.label, outcome)
  | _ => none

/-- the journal has the outcomes that callbacks were told, in the order in which they were told -/
def Heard (past : List Moment) : Prop :=
  (past.filterMap Moment.event?).filterMap Event.reply? = past.filterMap Moment.run?

theorem Heard.append (h : Heard past) (hmore : Heard more) : Heard (past ++ more) := by
  rw [Heard, List.filterMap_append, List.filterMap_append, List.filterMap_append, h, hmore]

end MessageBus
