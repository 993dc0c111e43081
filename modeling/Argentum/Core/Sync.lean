import Argentum.Core.Sched

/-!
# Argentum.Core.Sync

The blocking calls that put tasks to sleep on the scheduler: the mutexes of
`kernel/core/mutex.c`, with `_k_sched_update_effective_priority` of `kernel/core/sched.c` that
their unlock ends with, and the semaphores of `kernel/core/semaphore.c`.

A call runs for the task `t` on the CPU. Its loop either returns (`some r`) or puts the task
to sleep (`none`), with `pending` set to where the call goes on; `...Resume` is that rest, run
when the scheduler switches back to the task.
-/

namespace Argentum.Core

/-! ## Mutexes -/

/-- `k_mutex_try_lock_locked(mutex)` for the current task `t`. A free mutex asserts that the
task has at least the mutex's priority: "the highest-priority task always locks the mutex
first". -/
def mutexTryLockLocked (S : Sched) (m t : Nat) : Option (Sched × Int) :=
  match (S.mutex m).owner with
  | some o => some (S, if o = t then -eDeadlk else -eAgain)
  | none =>
    if (S.task t).priority ≤ (S.mutex m).priority then
      let S := S.setMutex m { S.mutex m with owner := some t }
      some (S.setTask t { S.task t with ownedMutexes := m :: (S.task t).ownedMutexes }, 0)
    else none

/-- The loop of `_k_mutex_timed_lock(mutex, timeout)` for the current task `t`, from its
`k_mutex_try_lock_locked`: a busy mutex takes the task's priority, and the task sleeps on it. -/
def mutexTimedLockLoop (S : Sched) (m t : Nat) (timeout : Int) : Option (Sched × Option Int) :=
  match mutexTryLockLocked S m t with
  | none => none
  | some (S, r) =>
    if r = 0 ∨ r ≠ -eAgain then some (S, some r)
    else do
      let S ← mutexMayRaisePriority S.tasks.length S m (S.task t).priority
      let S := S.setTask t { S.task t with sleepOnMutex := some m, pending := .lock m timeout }
      let S ← schedSleep S t (some (.mutex m)) .sleep timeout
      some (S, none)

/-- `_k_mutex_timed_lock` once task `t` runs again after its `_k_sched_sleep`: an error ends the
call, and otherwise it tries again. -/
def mutexTimedLockResume (S : Sched) (m t : Nat) (timeout : Int) :
    Option (Sched × Option Int) := do
  let (S, r) ← schedSleepReturn S t timeout
  let S := S.setTask t { S.task t with sleepOnMutex := none }
  if r < 0 then some (S, some r) else mutexTimedLockLoop S m t timeout

/-- `_k_mutex_get_highest_priority(mutex_list)`. -/
def mutexGetHighestPriority (S : Sched) (l : List Nat) : Nat :=
  l.foldl (fun p m => if (S.mutex m).priority < p then (S.mutex m).priority else p)
    kTaskMaxPriorities

/-- `_k_mutex_recalc_priority(mutex)`: the priority of the first waiter, or none. -/
def mutexRecalcPriority (S : Sched) (m : Nat) : Sched :=
  match (S.mutex m).queue with
  | [] => S.setMutex m { S.mutex m with priority := kTaskMaxPriorities }
  | w :: _ => S.setMutex m { S.mutex m with priority := (S.task w).priority }

/-- `_k_sched_update_effective_priority()` for the current task `t`: its own priority, or a
higher one of a mutex it holds. -/
def schedUpdateEffectivePriority (S : Sched) (t : Nat) : Sched :=
  let p := min (S.task t).savedPriority (mutexGetHighestPriority S (S.task t).ownedMutexes)
  S.setTask t { S.task t with priority := p }

/-- `k_mutex_unlock(mutex)` by the current task `t`: `k_assert(k_mutex_holding(mutex))`, then
`_k_mutex_unlock`, which wakes the first waiter and gives the mutex the priority of the next. -/
def mutexUnlock (S : Sched) (m t : Nat) : Option Sched :=
  if (S.mutex m).owner ≠ some t then none
  else do
    let S := S.setTask t { S.task t with ownedMutexes := (S.task t).ownedMutexes.erase m }
    let S := S.setMutex m { S.mutex m with owner := none }
    let S ← schedWakeupOne S (.mutex m) 0
    let S := mutexRecalcPriority S m
    some (schedUpdateEffectivePriority S t)

/-! ## Semaphores -/

/-- `k_semaphore_try_get_locked(sem)`. -/
def semTryGetLocked (S : Sched) (s : Nat) : Sched × Int :=
  if (S.sem s).count = 0 then (S, -eAgain)
  else (S.setSem s { S.sem s with count := (S.sem s).count - 1 }, (S.sem s).count - 1)

/-- The loop of `k_semaphore_timed_get(sem, timeout, options)` for the current task `t`: it
sleeps on the semaphore, unwakeable if `options` has `K_SLEEP_UNWAKEABLE`. -/
def semTimedGetLoop (S : Sched) (s t : Nat) (timeout : Int) (options : Nat) :
    Option (Sched × Option Int) :=
  let (S, r) := semTryGetLocked S s
  if 0 ≤ r ∨ r ≠ -eAgain then some (S, some r)
  else do
    let state := if options &&& kSleepUnwakeable ≠ 0 then TaskState.sleepUnwakeable else .sleep
    let S := S.setTask t { S.task t with pending := .semGet s timeout options }
    let S ← schedSleep S t (some (.sem s)) state timeout
    some (S, none)

/-- `k_semaphore_timed_get` once task `t` runs again after its `_k_sched_sleep`. -/
def semTimedGetResume (S : Sched) (s t : Nat) (timeout : Int) (options : Nat) :
    Option (Sched × Option Int) := do
  let (S, r) ← schedSleepReturn S t timeout
  if r < 0 then some (S, some r) else semTimedGetLoop S s t timeout options

/-- `k_semaphore_put(sem)`. -/
def semPut (S : Sched) (s : Nat) : Option Sched :=
  schedWakeupOne (S.setSem s { S.sem s with count := (S.sem s).count + 1 }) (.sem s) 0

end Argentum.Core
