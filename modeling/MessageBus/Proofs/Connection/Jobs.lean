/-
What jobs owe, and what they leave.

A job may owe a waiter the outcome of its call (`owedBy`). Apart from telling it, no job enters anything into the journal
that is about the outgoing stream, the end of the connection or the outcome of a call: those are entered by the turns
themselves (`Job.IsSilent`). What taps, listeners and handlers are to do, and what scripts ask for, owes nobody anything
(`Job.IsModest`).
-/
import Mathlib.Tactic
import MessageBus.Proofs.Connection.Steps

namespace MessageBus

/-! ## What jobs carry out -/

/-- the action that a job carries out -/
def Job.action? : Job → Option Action
  | .own action | .task (.act action) => some action
  | _ => none

theorem Job.turn_of_action {job : Job} {action : Action} (h : job.action? = some action) (r : Router) :
    (job.turn r).1 = (r.perform action).2.1 := by
  unfold action? at h
  split at h <;> cases h <;> rfl

/-! ## What jobs owe -/

/-- the waiter that a job is to tell the outcome of a call -/
def Job.owed? : Job → Option (UInt32 × Waiter × CallOutcome)
  | task (.tell serial waiter outcome) => some (serial, waiter, outcome)
  | _ => none

def owedBy (jobs : List Job) : List (UInt32 × Waiter × CallOutcome) := jobs.filterMap Job.owed?

@[simp] theorem owedBy_nil : owedBy [] = [] := rfl

@[simp] theorem owedBy_append (jobs more : List Job) : owedBy (jobs ++ more) = owedBy jobs ++ owedBy more :=
  List.filterMap_append

theorem mem_owedBy {jobs : List Job} {s : UInt32} {w : Waiter} {o : CallOutcome} :
    (s, w, o) ∈ owedBy jobs ↔ .task (.tell s w o) ∈ jobs := by
  rw [owedBy, List.mem_filterMap]
  refine ⟨fun ⟨job, hjob, hs⟩ => ?_, fun hjob => ⟨_, hjob, rfl⟩⟩
  unfold Job.owed? at hs
  split at hs
  · cases hs
    exact hjob
  · cases hs

/-! ## What jobs enter into the journal -/

/-- an entry of the journal that is not about the outgoing stream, the end of the connection or the outcome of a call -/
def Event.isSilent : Event → Bool
  | .written _ | .closed _ | .replied _ _ => false
  | _ => true

/-- a job that enters only silent events into the journal by itself -/
def Job.IsSilent : Job → Prop
  | task (.note event) | task (.run _ event) => event.isSilent = true
  | _ => True

/-- a job that owes nobody anything and enters only silent events into the journal -/
structure Job.IsModest (job : Job) : Prop where
  owed : job.owed? = none
  isSilent : job.IsSilent

theorem Job.isModest_of_isBeginning {job : Job} (h : job.isBeginning = true) : job.IsModest := by
  cases job with
  | own _ | close _ | deal _ => exact ⟨rfl, trivial⟩
  | _ => cases h

theorem Callback.jobs_isModest (cb : Callback) : ∀ job ∈ cb.tasks.map Job.task, job.IsModest := by
  rw [Callback.tasks, List.map_map]
  exact List.forall_mem_map.2 fun _ _ => ⟨rfl, trivial⟩

theorem Job.excuses_isModest (call : Message) (sent : Except Error UInt32) :
    ∀ job ∈ Job.excuses call sent, job.IsModest := by
  cases sent with
  | ok serial => simp [Job.excuses]
  | error e => exact List.forall_mem_singleton.2 ⟨rfl, trivial⟩

namespace Router

theorem close_tasks (r : Router) (reason : String) :
    (r.close reason).2 = r.pending.map fun entry => .tell entry.1 entry.2 (.error (.disconnected reason)) := by
  unfold close
  dsimp only
  split <;> rfl

/-- whoever is in the table when the connection is closed is owed that it was -/
theorem close_owed (r : Router) (reason : String) :
    owedBy ((r.close reason).2.map .task) = r.pending.map fun entry => (entry.1, entry.2, .error (.disconnected reason)) := by
  rw [close_tasks, owedBy, List.filterMap_map, List.filterMap_map]
  exact congrFun List.filterMap_eq_map r.pending

theorem close_isSilent (r : Router) (reason : String) : ∀ job ∈ (r.close reason).2.map Job.task, job.IsSilent := by
  intro job hjob
  rw [close_tasks, List.mem_map] at hjob
  obtain ⟨task, htask, rfl⟩ := hjob
  obtain ⟨entry, -, rfl⟩ := List.mem_map.1 htask
  trivial

theorem tapped_isModest (r : Router) (message : Message) :
    ∀ job ∈ (r.tapped message).map Job.task, job.IsModest := by
  rw [tapped, List.map_map]
  exact List.forall_mem_map.2 fun _ _ => ⟨rfl, rfl⟩

theorem signalled_isModest (r : Router) (message : Message) :
    ∀ job ∈ (r.signalled message).map Job.task, job.IsModest := by
  unfold signalled
  split
  · simp
  · rw [List.map_map]
    exact List.forall_mem_map.2 fun _ _ => ⟨rfl, rfl⟩

theorem served_isModest (r : Router) (call : Message) :
    ∀ job ∈ (r.served call).2.map Job.task, job.IsModest := by
  unfold served
  split
  · exact List.forall_mem_singleton.2 ⟨rfl, rfl⟩
  · simp

theorem tell_isModest (r : Router) (s : UInt32) (w : Waiter) (o : CallOutcome) :
    ∀ job ∈ (r.tell s w o).2.map Job.task, job.IsModest := by
  cases w with
  | callback cb => exact cb.jobs_isModest
  | handle i => simp [tell]

end Router

end MessageBus
