import Argentum.Core.Timeout

/-!
# Argentum.Core.Sched

The scheduler of `kernel/core/sched.c` on one CPU: the tasks, the run queues
`sched_queue[priority]`, the queues that tasks sleep on, the sleeping tasks' timeouts
`_k_sched_timeouts`, and the priority inheritance that `_k_sched_raise_priority` and
`_k_mutex_may_raise_priority` of `kernel/core/mutex.c` pass along chains of owners.

A task, a mutex and a semaphore are named by numbers. The `link` of a task is the queue it is
on, and each queue is the list of its tasks in order; `k_list_add_back` asserts that the link is
null, and a failed `k_assert` or a `k_panic` is `none`. A task's timer entry is its number on
the timeout queue of `Argentum.Core.Timeout`. Priority values are `Nat`s, the highest priority
0; a mutex nobody waits for has `K_TASK_MAX_PRIORITIES`.

A task that goes to sleep inside a blocking call leaves the CPU (`current` is `none`), and
`pending` says where its call goes on when the scheduler switches back to it.

`_k_sched_raise_priority` and `_k_mutex_may_raise_priority` call each other along a chain of
mutex owners; every call lowers one more owner's priority value to the same bound, so a chain
is no longer than the number of tasks, which the model passes as fuel.
-/

namespace Argentum.Core

/-! ## Constants -/

/-- `K_TASK_MAX_PRIORITIES`: `2 * NZERO`, with newlib's `NZERO` of 20. -/
def kTaskMaxPriorities : Nat := 40

/-- `EINTR`, with newlib's value. -/
def eIntr : Int := 4

/-- `EAGAIN`. -/
def eAgain : Int := 11

/-- `EINVAL`. -/
def eInval : Int := 22

/-- `EDEADLK`. -/
def eDeadlk : Int := 45

/-- `ETIMEDOUT`. -/
def eTimedout : Int := 116

/-- `K_SLEEP_UNWAKEABLE`. -/
def kSleepUnwakeable : Nat := 1

/-! ## State -/

/-- `K_TASK_STATE_*`. -/
inductive TaskState
  | none
  | ready
  | running
  | sleep
  | sleepUnwakeable
  | suspended
  | destroyed
  deriving DecidableEq, Repr

/-- The queue that a task's `link` is on. -/
inductive TaskQueue
  /-- `sched_queue[priority]`. -/
  | run (priority : Nat)
  /-- `mutex->queue`. -/
  | mutex (m : Nat)
  /-- `sem->queue`. -/
  | sem (s : Nat)
  deriving DecidableEq, Repr

/-- Where a task that left the CPU inside a blocking call goes on when it runs again. -/
inductive Pending
  | none
  /-- In `_k_mutex_timed_lock(mutex, timeout)`, after `_k_sched_sleep`. -/
  | lock (m : Nat) (timeout : Int)
  /-- In `k_semaphore_timed_get(sem, timeout, options)`, after `_k_sched_sleep`. -/
  | semGet (s : Nat) (timeout : Int) (options : Nat)
  deriving DecidableEq, Repr

/-- The fields of `struct KTask` that the scheduler and the mutexes use, with the call the task
is in and what its last call returned. -/
structure KTask where
  state : TaskState
  priority : Nat
  savedPriority : Nat
  /-- `owned_mutexes`, the mutex locked last first. -/
  ownedMutexes : List Nat
  sleepOnMutex : Option Nat
  sleepResult : Int
  link : Option TaskQueue
  pending : Pending
  ret : Int
  deriving DecidableEq, Repr

/-- `struct KMutex`. -/
structure KMutex where
  owner : Option Nat
  queue : List Nat
  priority : Nat
  deriving DecidableEq, Repr

/-- `struct KSemaphore`, whose count `k_semaphore_try_get_locked` asserts is not negative. -/
structure KSemaphore where
  count : Nat
  queue : List Nat
  deriving DecidableEq, Repr

/-- A task that was never created. -/
def noTask : KTask := ⟨.none, 0, 0, [], none, 0, none, .none, 0⟩

/-- A mutex as `k_mutex_init` makes it. -/
def mutexInit : KMutex := ⟨none, [], kTaskMaxPriorities⟩

/-- A semaphore as `k_semaphore_create(sem, 0)` makes it. -/
def semInit : KSemaphore := ⟨0, []⟩

/-- The scheduler's state: the tasks, mutexes and semaphores by number, the run queues
`sched_queue`, the timeout queue of the sleeping tasks, and the task on the CPU. -/
structure Sched where
  tasks : List KTask
  mutexes : List KMutex
  sems : List KSemaphore
  runQueue : List (List Nat)
  timeouts : List (Nat × Int)
  current : Option Nat

/-- Task `t`. -/
def Sched.task (S : Sched) (t : Nat) : KTask := S.tasks.getD t noTask

/-- Mutex `m`. -/
def Sched.mutex (S : Sched) (m : Nat) : KMutex := S.mutexes.getD m mutexInit

/-- Semaphore `s`. -/
def Sched.sem (S : Sched) (s : Nat) : KSemaphore := S.sems.getD s semInit

/-- Task `t` set to `k`. -/
def Sched.setTask (S : Sched) (t : Nat) (k : KTask) : Sched := { S with tasks := S.tasks.set t k }

/-- Mutex `m` set to `x`. -/
def Sched.setMutex (S : Sched) (m : Nat) (x : KMutex) : Sched :=
  { S with mutexes := S.mutexes.set m x }

/-- Semaphore `s` set to `x`. -/
def Sched.setSem (S : Sched) (s : Nat) (x : KSemaphore) : Sched := { S with sems := S.sems.set s x }

/-- The tasks on a queue, in order. -/
def Sched.queue (S : Sched) : TaskQueue → List Nat
  | .run p => S.runQueue.getD p []
  | .mutex m => (S.mutex m).queue
  | .sem s => (S.sem s).queue

/-- A queue set to `l`. -/
def Sched.setQueue (S : Sched) : TaskQueue → List Nat → Sched
  | .run p, l => { S with runQueue := S.runQueue.set p l }
  | .mutex m, l => S.setMutex m { S.mutex m with queue := l }
  | .sem s, l => S.setSem s { S.sem s with queue := l }

/-! ## Queues -/

/-- `k_list_remove(&task->link)`: off the queue it is on; a null link stays null. -/
def listRemove (S : Sched) (t : Nat) : Sched :=
  match (S.task t).link with
  | none => S
  | some q => (S.setQueue q ((S.queue q).erase t)).setTask t { S.task t with link := none }

/-- `k_list_add_back(queue, &task->link)`, which asserts that the link is null. -/
def listAddBack (S : Sched) (q : TaskQueue) (t : Nat) : Option Sched :=
  if (S.task t).link.isSome then none
  else some ((S.setQueue q (S.queue q ++ [t])).setTask t { S.task t with link := some q })

/-- `_k_sched_add(queue, task)`: before the first task with a larger priority value. -/
def schedAdd (S : Sched) (q : TaskQueue) (t : Nat) : Option Sched :=
  if (S.task t).link.isSome then none
  else
    let l := (S.queue q).orderedInsert (fun a b => (S.task a).priority < (S.task b).priority) t
    some ((S.setQueue q l).setTask t { S.task t with link := some q })

/-- `_k_sched_enqueue(task)`: ready, at the back of the run queue of its priority. -/
def schedEnqueue (S : Sched) (t : Nat) : Option Sched :=
  listAddBack (S.setTask t { S.task t with state := .ready }) (.run (S.task t).priority) t

/-! ## Sleeping and waking -/

/-- `_k_sched_sleep(queue, state, timeout, lock)` for the current task `t` up to its switch
out: its timer is queued for a non-zero timeout, and it sleeps on `q`. -/
def schedSleep (S : Sched) (t : Nat) (q : Option TaskQueue) (state : TaskState)
    (timeout : Int) : Option Sched := do
  let S ← if timeout ≠ 0 then
      (timeoutQueueAdd S.timeouts t timeout).map fun tq => { S with timeouts := tq }
    else some S
  let S := S.setTask t { S.task t with state }
  let S ← match q with
    | none => some S
    | some q => schedAdd S q t
  -- `_k_sched_yield_locked()`
  some { S with current := none }

/-- The rest of `_k_sched_sleep` once task `t` runs again: its timer comes off the queue if it
is still there, and the call returns `sleep_result`. -/
def schedSleepReturn (S : Sched) (t : Nat) (timeout : Int) : Option (Sched × Int) := do
  let S ← if timeout ≠ 0 ∧ t ∈ S.timeouts.map Prod.fst then
      (timeoutQueueRemove S.timeouts t).map fun tq => { S with timeouts := tq }
    else some S
  some (S, (S.task t).sleepResult)

/-- `_k_sched_resume(task, result)`: a sleeping task leaves its queue and is ready, with
`result` for the call it slept in. -/
def schedResume (S : Sched) (t : Nat) (result : Int) : Option Sched :=
  match (S.task t).state with
  | .sleep | .sleepUnwakeable =>
    -- `k_list_remove` is called twice; the second finds the link null
    let S := listRemove (listRemove S t) t
    schedEnqueue (S.setTask t { S.task t with sleepResult := result }) t
  | _ => some S

/-- `_k_sched_wakeup_one_locked(queue, result)`: the first task of the queue is resumed. -/
def schedWakeupOne (S : Sched) (q : TaskQueue) (result : Int) : Option Sched :=
  match S.queue q with
  | [] => some S
  | t :: _ => schedResume S t result

/-! ## Priority inheritance -/

mutual

/-- `_k_sched_raise_priority(task, priority)`: a ready task moves to its new run queue, and a
task asleep on a mutex moves up that mutex's queue and passes the priority to its owner. -/
def schedRaisePriority (fuel : Nat) (S : Sched) (t prio : Nat) : Option Sched :=
  match fuel with
  | 0 => none
  | fuel + 1 =>
    if (S.task t).priority ≤ prio then none
    else
      let S' := S.setTask t { S.task t with priority := prio }
      match (S.task t).state with
      | .ready => schedEnqueue (listRemove S' t) t
      | .sleep | .sleepUnwakeable =>
        match (S.task t).sleepOnMutex with
        | none => some S'
        | some m => do
          let S'' ← schedAdd (listRemove S' t) (.mutex m) t
          mutexMayRaisePriority fuel S'' m prio
      | _ => some S'
termination_by 2 * fuel
decreasing_by omega

/-- `_k_mutex_may_raise_priority(mutex, priority)`: the mutex takes a higher priority, and so
does its owner if it had a lower one. -/
def mutexMayRaisePriority (fuel : Nat) (S : Sched) (m prio : Nat) : Option Sched :=
  match (S.mutex m).owner with
  | none => none
  | some o =>
    if prio < (S.mutex m).priority then
      let S := S.setMutex m { S.mutex m with priority := prio }
      if prio < (S.task o).priority then schedRaisePriority fuel S o prio else some S
    else some S
termination_by 2 * fuel + 1
decreasing_by omega

end

/-! ## Timeouts and the CPU -/

/-- `k_task_timeout_callback(entry)` for the timer of task `t`: only a task in
`K_TASK_STATE_SLEEP` is resumed, with `-ETIMEDOUT`. -/
def taskTimeoutCallback (t : Nat) (S : Sched) : Option (Sched × Option Int) :=
  match (S.task t).state with
  | .sleep => (schedResume S t (-eTimedout)).map fun S => (S, none)
  | _ => some (S, none)

/-- `_k_sched_adjust_timeouts(delta_tick)`. -/
def schedAdjustTimeouts (S : Sched) (delta : Int) : Option Sched :=
  (timeoutQueueAdjust taskTimeoutCallback S S.timeouts delta).map fun x =>
    { x.1 with timeouts := x.2 }

/-- `k_sched_dequeue()`: the first task of the first run queue that is not empty, walking
`sched_queue` from priority 0. -/
def schedDequeue (S : Sched) : Option (Sched × Nat) :=
  match S.runQueue.findIdx? (· ≠ []) with
  | none => none
  | some i =>
    match S.runQueue.getD i [] with
    | [] => none
    | t :: rest => some ((S.setQueue (.run i) rest).setTask t { S.task t with link := none }, t)

/-- One round of the loop of `k_sched_start` on a CPU with no task: the next ready task is
switched to (`k_sched_switch`) and returned, or the CPU idles. -/
def schedNext (S : Sched) : Option (Sched × Option Nat) :=
  match schedDequeue S with
  | none => some (S, none)
  | some (S, t) =>
    if (S.task t).state ≠ .ready then none
    else some ({ S.setTask t { S.task t with state := .running } with current := some t }, some t)

end Argentum.Core
