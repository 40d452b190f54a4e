/-
Carrying out what callbacks ask for.

`Router.settle` works off a list of tasks, one turn at a time: what a task causes comes in front of the tasks that were
there, an action's tasks before the entry of its result. Scripts are finite and each waiter is dismissed once, so the
list comes to an end: the weight of the tasks and of the waiters together goes down with every turn.
-/
import MessageBus.Connection.Router

namespace MessageBus

mutual
/-- more than the weight of all that an action can cause, the dismissal of waiters apart -/
def Action.weight : Action → Nat
  | .invoke _ _ script => 3 + scriptWeight script
  | .call _ => 3
  | .send _ | .poll _ | .await _ | .cancel _ | .tap _ _ | .listen _ _ _ _ _ | .unlisten _ | .serve _ _ _ _ _ _
  | .unserve _ _ _ | .feed _ | .run _ | .close _ | .fail _ => 2
/-- weight of the actions of a script -/
def scriptWeight : List Action → Nat
  | [] => 0
  | action :: actions => action.weight + scriptWeight actions
end

/-- weight of what a waiter does once it is told the outcome of its call, and of telling it -/
def Waiter.weight : Waiter → Nat
  | callback cb => 1 + scriptWeight cb.script
  | handle _ => 1

def Task.weight : Task → Nat
  | note _ => 1
  | act action => action.weight
  | run callback _ => 1 + scriptWeight callback.script
  | tell _ waiter _ => waiter.weight

def tasksWeight : List Task → Nat
  | [] => 0
  | task :: tasks => task.weight + tasksWeight tasks

@[simp] theorem tasksWeight_append (as bs : List Task) : tasksWeight (as ++ bs) = tasksWeight as + tasksWeight bs := by
  induction as with
  | nil => simp [tasksWeight]
  | cons task as ih => simp [tasksWeight, ih, Nat.add_assoc]

/-- weight of those who wait for the replies to some serials -/
def waitersWeight : List (UInt32 × Waiter) → Nat
  | [] => 0
  | (_, waiter) :: entries => waiter.weight + waitersWeight entries

theorem waitersWeight_append (as bs : List (UInt32 × Waiter)) :
    waitersWeight (as ++ bs) = waitersWeight as + waitersWeight bs := by
  induction as with
  | nil => simp [waitersWeight]
  | cons entry as ih => simp [waitersWeight, ih, Nat.add_assoc]

theorem waitersWeight_filter_le (entries : List (UInt32 × Waiter)) (keep : UInt32 × Waiter → Bool) :
    waitersWeight (entries.filter keep) ≤ waitersWeight entries := by
  induction entries with
  | nil => exact Nat.le_refl _
  | cons entry entries ih =>
    rw [List.filter_cons]
    split <;> simp only [waitersWeight] <;> omega

/-- the actions of a callback, to be carried out in order -/
def Callback.tasks (callback : Callback) : List Task := callback.script.map .act

@[simp] theorem Callback.tasksWeight_tasks (callback : Callback) :
    tasksWeight callback.tasks = scriptWeight callback.script := by
  have sum : ∀ script : List Action, tasksWeight (script.map .act) = scriptWeight script := by
    intro script
    induction script with
    | nil => rfl
    | cons action actions ih => simp [scriptWeight, tasksWeight, Task.weight, ih]
  exact sum callback.script

/-- dismissing everybody weighs as much as everybody who waits -/
theorem tasksWeight_dismissals (entries : List (UInt32 × Waiter)) (outcome : CallOutcome) :
    tasksWeight (entries.map fun entry => .tell entry.1 entry.2 outcome) = waitersWeight entries := by
  induction entries with
  | nil => rfl
  | cons entry entries ih => simp [tasksWeight, waitersWeight, Task.weight, ih]

namespace Router

def pendingWeight (r : Router) : Nat := waitersWeight r.pending

theorem weight_close (r : Router) (reason : String) :
    tasksWeight (r.close reason).2 = r.pendingWeight ∧ (r.close reason).1.pendingWeight = 0 := by
  unfold close
  dsimp only
  split <;> exact ⟨tasksWeight_dismissals _ _, rfl⟩

@[simp] theorem pendingWeight_allocateSerial (r : Router) : r.allocateSerial.2.pendingWeight = r.pendingWeight := rfl

theorem weight_send (r : Router) (message : Message) (waiter : Option Waiter) :
    tasksWeight (r.send message waiter).2.2 + (r.send message waiter).2.1.pendingWeight
      ≤ r.pendingWeight + (waiter.map Waiter.weight).getD 0 := by
  unfold send
  split
  · simp [tasksWeight]
  · dsimp only
    split
    · simp [tasksWeight]
    · split
      · cases waiter <;>
          simp [tasksWeight, pendingWeight, waitersWeight, waitersWeight_append, log, record, allocateSerial]
      · rw [(weight_close _ _).1, (weight_close _ _).2]
        cases waiter <;> simp [pendingWeight, waitersWeight, waitersWeight_append, log, record, allocateSerial]

theorem weight_sendCall (r : Router) (message : Message) (waiter : Waiter) :
    tasksWeight (r.sendCall message waiter).2.2 + (r.sendCall message waiter).2.1.pendingWeight
      ≤ r.pendingWeight + waiter.weight := by
  unfold sendCall
  split
  · simpa using weight_send r message (some waiter)
  · simp [tasksWeight]

theorem pendingWeight_poll (r : Router) (index : Nat) : (r.poll index).2.pendingWeight = r.pendingWeight := by
  unfold poll
  split <;> rfl

theorem pendingWeight_await (r : Router) (index : Nat) : (r.await index).2.pendingWeight = r.pendingWeight := by
  have polled := pendingWeight_poll r index
  unfold await
  split
  · next h => rw [h] at polled; exact polled
  · exact polled

theorem pendingWeight_cancel (r : Router) (serial : UInt32) :
    (r.cancel serial).2.pendingWeight ≤ r.pendingWeight := by
  unfold cancel
  split
  · exact Nat.le_refl _
  · split <;> exact waitersWeight_filter_le r.pending _

theorem pendingWeight_listen (r : Router) (path interface member : String) (callback : Callback) :
    (r.listen path interface member callback).2.pendingWeight = r.pendingWeight := by
  unfold listen
  dsimp only
  split <;> rfl

theorem pendingWeight_serve (r : Router) (key : RouteKey) (callback : Callback) (handling : Handling) :
    (r.serve key callback handling).2.pendingWeight = r.pendingWeight := by
  unfold serve
  dsimp only
  split <;> rfl

theorem weight_exhaust (r : Router) (arrivals : List Arrival) :
    tasksWeight (r.exhaust arrivals).2.2 + (r.exhaust arrivals).2.1.pendingWeight ≤ r.pendingWeight := by
  induction arrivals with
  | nil =>
    obtain ⟨told, nobody⟩ := weight_close r "end of stream"
    simp only [exhaust]
    omega
  | cons arrival arrivals ih =>
    match arrival with
    | .bytes [] =>
      obtain ⟨told, nobody⟩ := weight_close r "end of stream"
      simp only [exhaust]
      omega
    | .bytes (_ :: _) => simp [exhaust, tasksWeight]
    | .interrupted => exact ih
    | .failed reason =>
      obtain ⟨told, nobody⟩ := weight_close r reason
      simp only [exhaust]
      omega

/-- an action weighs at least two more than what it causes -/
theorem weight_effect (r : Router) (action : Action) :
    tasksWeight (r.effect action).2.2 + (r.effect action).2.1.pendingWeight + 2
      ≤ r.pendingWeight + action.weight := by
  cases action with
  | send message =>
    have := weight_send r message none
    simp [effect, Action.weight] at this ⊢
    omega
  | invoke message label script =>
    have := weight_sendCall r message (.callback ⟨label, script⟩)
    change _ + _ + 2 ≤ r.pendingWeight + (3 + scriptWeight script)
    change _ ≤ r.pendingWeight + (1 + scriptWeight script) at this
    change tasksWeight (r.sendCall message _).2.2 + (r.sendCall message _).2.1.pendingWeight + 2 ≤ _
    omega
  | call message =>
    have := weight_sendCall r message (.handle r.handles.length)
    simp only [effect, Action.weight]
    split <;> next h => rw [h] at this; simp [Waiter.weight, pendingWeight] at this ⊢; omega
  | poll handle => simp [effect, Action.weight, tasksWeight, pendingWeight_poll]
  | await handle => simp [effect, Action.weight, tasksWeight, pendingWeight_await]
  | cancel serial => simpa [effect, Action.weight, tasksWeight] using pendingWeight_cancel r serial
  | tap label script => simp [effect, Action.weight, tasksWeight, pendingWeight]
  | listen path interface member label script =>
    simp [effect, Action.weight, tasksWeight, pendingWeight_listen]
  | unlisten listener =>
    simp only [effect, Action.weight]
    split <;> simp [tasksWeight, pendingWeight, unlisten]
  | serve path interface member label script handling =>
    simp [effect, Action.weight, tasksWeight, pendingWeight_serve]
  | unserve path interface member => simp [effect, Action.weight, tasksWeight, pendingWeight, unserve]
  | feed chunks => simp [effect, Action.weight, tasksWeight]
  | run arrivals => simpa [effect, Action.weight] using weight_exhaust r arrivals
  | close reason =>
    have := weight_close r reason
    simp [effect, Action.weight]
    omega
  | fail e => simp [effect, Action.weight, tasksWeight]

/-- tell a waiter the outcome of its call: a callback runs, and a handle holds the outcome from now on -/
def tell (r : Router) (serial : UInt32) (waiter : Waiter) (outcome : CallOutcome) : Router × List Task :=
  let r := r.record (.told serial waiter outcome)
  match waiter with
  | .callback cb => (r.log (.replied cb.label outcome), cb.tasks)
  | .handle index => ({ r with handles := r.handles.set index (.resolved outcome) }, [])

/-- carry out a task, up to the tasks that it causes -/
def turn (r : Router) : Task → Router × List Task
  | .note event => (r.log event, [])
  | .act action =>
    let (answer, r, tasks) := r.perform action
    (r, tasks ++ [.note (.result answer)])
  | .run callback event => (r.log event, callback.tasks)
  | .tell serial waiter outcome => r.tell serial waiter outcome

/-- a task weighs more than what it causes -/
theorem weight_turn (r : Router) (task : Task) :
    tasksWeight (r.turn task).2 + (r.turn task).1.pendingWeight < task.weight + r.pendingWeight := by
  cases task with
  | note event => simp [turn, tasksWeight, Task.weight, pendingWeight, log, record]
  | act action =>
    have heavier := weight_effect r action
    rcases h : r.effect action with ⟨answer, r', tasks⟩
    rw [h] at heavier
    simp only [turn, perform, h, record, tasksWeight_append, tasksWeight, Task.weight, pendingWeight] at heavier ⊢
    omega
  | run callback event => simp [turn, Task.weight, pendingWeight, log, record]
  | tell serial waiter outcome =>
    cases waiter <;> simp [turn, tell, tasksWeight, Task.weight, Waiter.weight, pendingWeight, log, record]

/-- carry out tasks and all that they cause -/
def settle (r : Router) (tasks : List Task) : Router :=
  match tasks with
  | [] => r
  | task :: tasks =>
    let next := r.turn task
    next.1.settle (next.2 ++ tasks)
termination_by tasksWeight tasks + r.pendingWeight
decreasing_by
  have := weight_turn r task
  simp only [tasksWeight_append, tasksWeight]
  omega

/-- carry out an action and all that it causes -/
def act (r : Router) (action : Action) : Answer × Router :=
  let (result, r, tasks) := r.perform action
  (result, r.settle tasks)

end Router

end MessageBus
