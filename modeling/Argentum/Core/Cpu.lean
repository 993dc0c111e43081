import Argentum.Core.Sync

/-!
# Argentum.Core.Cpu

What happens on one CPU: the task on it makes a call, a timer interrupt comes (`k_tick`, and the
switch at the end of the interrupt, since `_k_sched_check_quantum` marks the task on every
tick), or, with no task on it, the scheduler loop of `k_sched_start` switches to the next
ready task, which goes on with the call it slept in.

`schedBoot prios` is the state after `k_task_create` and `k_task_resume` of one task for each
priority of `prios`, in order, before `k_sched_start`.
-/

namespace Argentum.Core

/-- A call that a task makes. -/
inductive Call
  /-- `k_mutex_timed_lock(mutex, timeout)`; `k_mutex_lock` is a timeout of 0. -/
  | lock (m : Nat) (timeout : Int)
  /-- `k_mutex_try_lock(mutex)`. -/
  | tryLock (m : Nat)
  /-- `k_mutex_unlock(mutex)`. -/
  | unlock (m : Nat)
  /-- `k_semaphore_timed_get(sem, timeout, options)`. -/
  | semGet (s : Nat) (timeout : Int) (options : Nat)
  /-- `k_semaphore_put(sem)`. -/
  | semPut (s : Nat)
  /-- `k_task_wake(task)`. -/
  | wake (u : Nat)
  deriving DecidableEq, Repr

/-- What happens next on the CPU. -/
inductive Event
  /-- The task on the CPU makes a call. -/
  | call (c : Call)
  /-- A timer interrupt. -/
  | tick
  /-- The scheduler loop, on a CPU with no task. -/
  | dispatch
  deriving DecidableEq, Repr

/-- `k_task_wake(task)`: a task that sleeps neither on a mutex nor unwakeable is resumed with
`-EINTR`. -/
def taskWake (S : Sched) (u : Nat) : Option Sched :=
  if (S.task u).sleepOnMutex.isNone ∧ (S.task u).state ≠ .sleepUnwakeable then
    schedResume S u (-eIntr)
  else some S

/-- The end of a call of task `t`: it returned `r` (`some r`), or the task went to sleep. -/
def finishCall (t : Nat) : Option (Sched × Option Int) → Option Sched
  | none => none
  | some (S, none) => some S
  | some (S, some r) => some (S.setTask t { S.task t with pending := .none, ret := r })

/-- The call `c` of the task `t` on the CPU. -/
def taskCall (S : Sched) (t : Nat) : Call → Option Sched
  | .lock m timeout => finishCall t (mutexTimedLockLoop S m t timeout)
  | .tryLock m => finishCall t ((mutexTryLockLocked S m t).map fun x => (x.1, some x.2))
  | .unlock m => finishCall t ((mutexUnlock S m t).map fun S => (S, some 0))
  | .semGet s timeout options => finishCall t (semTimedGetLoop S s t timeout options)
  | .semPut s => finishCall t ((semPut S s).map fun S => (S, some 0))
  | .wake u => taskWake S u

/-- Task `t`, switched to, goes on with the call it slept in. -/
def taskContinue (S : Sched) (t : Nat) : Option Sched :=
  match (S.task t).pending with
  | .none => some S
  | .lock m timeout => finishCall t (mutexTimedLockResume S m t timeout)
  | .semGet s timeout options => finishCall t (semTimedGetResume S s t timeout options)

/-- One event on the CPU. A call with no task on the CPU fails the `k_assert` of the call, and
the scheduler loop runs only when no task is on the CPU. -/
def cpuStep (S : Sched) : Event → Option Sched
  | .call c =>
    match S.current with
    | none => none
    | some t => taskCall S t c
  | .tick => do
    let S ← schedAdjustTimeouts S 1
    match S.current with
    | none => some S
    | some t => (schedEnqueue S t).map fun S => { S with current := none }
  | .dispatch =>
    match S.current with
    | some _ => none
    | none =>
      match schedNext S with
      | none => none
      | some (S, none) => some S
      | some (S, some t) => taskContinue S t

/-- A run of events from `S`. -/
def cpuRun (S : Sched) (evs : List Event) : Option Sched := evs.foldlM cpuStep S

/-- A task that `k_task_create(task, ..., priority)` made and `k_task_resume` made ready. -/
def readyTask (prio : Nat) : KTask where
  state := .ready
  priority := prio
  savedPriority := prio
  ownedMutexes := []
  sleepOnMutex := none
  sleepResult := 0
  link := some (.run prio)
  pending := .none
  ret := 0

/-- Tasks `0, 1, …` with the priorities `prios`, ready in that order, and `nmutexes` mutexes and
`nsems` semaphores as `k_mutex_init` and `k_semaphore_create(sem, 0)` make them. -/
def schedBoot (prios : List Nat) (nmutexes nsems : Nat) : Sched where
  tasks := prios.map readyTask
  mutexes := List.replicate nmutexes mutexInit
  sems := List.replicate nsems semInit
  runQueue := (List.range kTaskMaxPriorities).map fun p =>
    (List.range prios.length).filter fun t => prios[t]? = some p
  timeouts := []
  current := none

/-! ## An unwakeable timed sleep -/

/-- A task that sleeps unwakeable with a timeout is not woken when its timeout expires: from
boot with one task, it calls `k_semaphore_timed_get(sem, 1, K_SLEEP_UNWAKEABLE)` on an empty
semaphore, and after the tick that expires its timer it still sleeps, with no timer queued. -/
theorem unwakeable_timeout_lost :
    (cpuRun (schedBoot [3] 0 1) [.dispatch, .call (.semGet 0 1 kSleepUnwakeable), .tick]).map
        (fun S => (S.current, (S.task 0).state, S.timeouts, (S.sem 0).queue)) =
      some (none, .sleepUnwakeable, [], [0]) := by
  decide +kernel

/-! ## Priorities after a timed-out lock -/

/-- A waiter that times out leaves the mutex's priority behind. From boot with task 0 at
priority 5 and task 1 at priority 1, task 1 waits on a semaphore while task 0 locks mutex 0 and
wakes it; task 1 then locks mutex 0 with a timeout of 1 tick, which raises the mutex and task 0
to priority 1, and the next tick times it out. Mutex 0 then has no waiter but keeps priority 1,
and so does its owner. -/
theorem mutex_priority_after_timeout :
    (cpuRun (schedBoot [5, 1] 1 1)
        [.dispatch, .call (.semGet 0 0 0), .dispatch, .call (.lock 0 0), .call (.semPut 0), .tick,
          .dispatch, .call (.lock 0 1), .dispatch, .tick, .dispatch]).map
        (fun S => ((S.mutex 0).owner, (S.mutex 0).queue, (S.mutex 0).priority, (S.task 0).priority,
          (S.task 1).ret)) =
      some (some 0, [], 1, 1, -eTimedout) := by
  decide +kernel

/-! ## Locking again after an unlock -/

/-- The events of `lock_after_unlock_asserts`: tasks 1 and 2 wait on semaphores 0 and 1 while
task 0 locks mutex 0; task 0 wakes task 2, which waits on the mutex, then task 1, which waits on
it too; task 0 unlocks the mutex. -/
def unlockRun : List Event :=
  [.dispatch, .call (.semGet 0 0 0), .dispatch, .call (.semGet 1 0 0), .dispatch,
    .call (.lock 0 0), .call (.semPut 1), .tick, .dispatch, .call (.lock 0 0), .dispatch,
    .call (.semPut 0), .tick, .dispatch, .call (.lock 0 0), .dispatch, .call (.unlock 0)]

/-- A task that unlocks a mutex two others wait for, and locks it again, fails the assertion of
`k_mutex_try_lock_locked`. From boot with tasks 0, 1 and 2 at priorities 5, 1 and 2, after
`unlockRun` task 0 is on the CPU back at priority 5; the unlock woke task 1, and mutex 0 is
free with the priority 2 of task 2, which still waits. Its next `k_mutex_lock` panics. -/
theorem lock_after_unlock_asserts :
    (cpuRun (schedBoot [5, 1, 2] 1 2) unlockRun).map
        (fun S => (S.current, (S.mutex 0).owner, (S.mutex 0).queue, (S.mutex 0).priority,
          (S.task 0).priority)) =
      some (some 0, none, [2], 2, 5) ∧
    (cpuRun (schedBoot [5, 1, 2] 1 2) unlockRun).map (fun S => (S.task 1).state) = some .ready ∧
    cpuRun (schedBoot [5, 1, 2] 1 2) (unlockRun ++ [.call (.lock 0 0)]) = none := by
  decide +kernel

end Argentum.Core
