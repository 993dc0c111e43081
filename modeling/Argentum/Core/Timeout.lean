import Argentum.Lib.DeadlineQueue

/-!
# Argentum.Core.Timeout

The timeout queues of `kernel/core/timeout.c`: `_k_timeout_queue_add`,
`_k_timeout_queue_remove` and `_k_timeout_queue_adjust`, on which the scheduler keeps its
sleeping tasks (`_k_sched_timeouts`) and `kernel/core/timer.c` its timers.

A queue is a delta list: each entry keeps in `remain` the ticks between its deadline and the
deadline of the entry before it, the first entry the ticks from now. An entry is a value of
`α`; a queue is the list of its entries with their `remain`s. The callback of an adjust acts
on a state `σ` and returns the delay its entry is queued again with, as `_k_timer_timeout`
does for a periodic timer; `none` is a failed `k_assert`.

`deadlines now q` is the queue of absolute deadlines that `q` stands for at time `now`, and
`TimeoutQueueOk` what every queue satisfies: no `remain` is negative, the first is positive, and
no entry is queued twice. The main result is `timeout_queue_refines`: from the empty queue, any
sequence of adds, removes and adjusts is the same sequence of operations of
`DeadlineQueue.step` on the deadlines. In particular, an adjust calls back once for each
deadline it passes, in the order of the deadlines, and a callback that queues its entry again
for a deadline that the adjust also passes is called again.
-/

namespace Argentum.Core

open DeadlineQueue

variable {α σ : Type*}

/-! ## The walk of an add -/

/-- The walk of `_k_timeout_queue_add(queue, entry, delay)` from the head: `remain` is what is
left of the delay past the entries walked, and the entry goes in before the first entry with
more left. -/
def timeoutQueueWalk (e : α) (remain : Int) : List (α × Int) → List (α × Int)
  | [] => [(e, remain)]
  | (n, r) :: rest =>
    if r > remain then (e, remain) :: (n, r - remain) :: rest
    else (n, r) :: timeoutQueueWalk e (remain - r) rest

/-- The entries at the head of the queue with nothing left. -/
def zeroRun (q : List (α × Int)) : Nat := (q.takeWhile fun x => x.2 = 0).length

theorem zeroRun_cons_zero (e : α) (rest : List (α × Int)) :
    zeroRun ((e, 0) :: rest) = zeroRun rest + 1 := by
  simp [zeroRun]

theorem zeroRun_cons_ne {e : α} {r : Int} (rest : List (α × Int)) (h : r ≠ 0) :
    zeroRun ((e, r) :: rest) = 0 := by
  simp [zeroRun, h]

/-- An entry queued with a positive delay goes after the entries with nothing left. -/
theorem zeroRun_walk (e : α) (q : List (α × Int)) {d : Int} (hd : 0 < d) :
    zeroRun (timeoutQueueWalk e d q) = zeroRun q := by
  induction q generalizing d with
  | nil => simp [timeoutQueueWalk, zeroRun, hd.ne']
  | cons x rest ih =>
    obtain ⟨n, r⟩ := x
    simp only [timeoutQueueWalk]
    split
    · rw [zeroRun_cons_ne _ hd.ne', zeroRun_cons_ne _ (by omega)]
    · by_cases hr : r = 0
      · subst hr
        rw [zeroRun_cons_zero, zeroRun_cons_zero, sub_zero, ih hd]
      · rw [zeroRun_cons_ne _ hr, zeroRun_cons_ne _ hr]

/-! ## Deadlines -/

/-- The deadlines that the queue `q` stands for at time `now`: the `remain`s summed along it. -/
def deadlines (now : Int) : List (α × Int) → List (α × Int)
  | [] => []
  | (e, r) :: rest => (e, now + r) :: deadlines (now + r) rest

/-- What every queue satisfies. -/
structure TimeoutQueueOk (q : List (α × Int)) : Prop where
  nonneg : ∀ x ∈ q, 0 ≤ x.2
  head_pos : ∀ x ∈ q.head?, 0 < x.2
  nodup : (q.map Prod.fst).Nodup

theorem timeoutQueueOk_nil : TimeoutQueueOk ([] : List (α × Int)) :=
  ⟨by simp, by simp, List.nodup_nil⟩

@[simp]
theorem deadlines_nil (now : Int) : deadlines now ([] : List (α × Int)) = [] := rfl

@[simp]
theorem deadlines_cons (now : Int) (e : α) (r : Int) (rest : List (α × Int)) :
    deadlines now ((e, r) :: rest) = (e, now + r) :: deadlines (now + r) rest := rfl

@[simp]
theorem map_fst_deadlines (now : Int) (q : List (α × Int)) :
    (deadlines now q).map Prod.fst = q.map Prod.fst := by
  induction q generalizing now with
  | nil => rfl
  | cons x rest ih =>
    obtain ⟨e, r⟩ := x
    simp [ih]

theorem le_of_mem_deadlines {q : List (α × Int)} (h : ∀ x ∈ q, 0 ≤ x.2) (now : Int) :
    ∀ x ∈ deadlines now q, now ≤ x.2 := by
  induction q generalizing now with
  | nil => simp
  | cons x rest ih =>
    obtain ⟨e, r⟩ := x
    have hr : 0 ≤ r := h (e, r) (List.mem_cons_self ..)
    have hrest := ih (fun y hy => h y (List.mem_cons_of_mem _ hy)) (now + r)
    intro y hy
    rcases List.mem_cons.mp hy with rfl | hy
    · show now ≤ now + r
      omega
    · have := hrest y hy
      omega

/-- With no negative `remain`, the deadlines do not decrease along the queue. -/
theorem sorted_deadlines {q : List (α × Int)} (h : ∀ x ∈ q, 0 ≤ x.2) (now : Int) :
    Sorted (deadlines now q) := by
  induction q generalizing now with
  | nil => exact List.Pairwise.nil
  | cons x rest ih =>
    obtain ⟨e, r⟩ := x
    have hrest : ∀ y ∈ rest, 0 ≤ y.2 := fun y hy => h y (List.mem_cons_of_mem _ hy)
    exact List.pairwise_cons.mpr ⟨le_of_mem_deadlines hrest (now + r), ih hrest (now + r)⟩

/-- The walk of an add puts the entry where `DeadlineQueue.insert` puts its deadline. -/
theorem deadlines_walk (e : α) (q : List (α × Int)) (now d : Int) :
    deadlines now (timeoutQueueWalk e d q) =
      DeadlineQueue.insert (e, now + d) (deadlines now q) := by
  induction q generalizing now d with
  | nil => rfl
  | cons x rest ih =>
    obtain ⟨n, r⟩ := x
    simp only [timeoutQueueWalk, deadlines_cons, insert_cons]
    by_cases hr : r > d
    · rw [if_pos hr, if_pos (by omega), deadlines_cons, deadlines_cons,
        show now + d + (r - d) = now + r by omega]
    · rw [if_neg hr, if_neg (by omega), deadlines_cons, ih,
        show now + r + (d - r) = now + d by omega]

theorem map_fst_walk_perm (e : α) (q : List (α × Int)) (d : Int) :
    ((timeoutQueueWalk e d q).map Prod.fst).Perm (e :: q.map Prod.fst) := by
  rw [← map_fst_deadlines 0, deadlines_walk, ← map_fst_deadlines 0 q]
  exact (insert_perm _ _).map Prod.fst

theorem walk_nonneg (e : α) {q : List (α × Int)} (hq : ∀ x ∈ q, 0 ≤ x.2) {d : Int} (hd : 0 ≤ d) :
    ∀ x ∈ timeoutQueueWalk e d q, 0 ≤ x.2 := by
  induction q generalizing d with
  | nil => simpa [timeoutQueueWalk] using hd
  | cons y rest ih =>
    obtain ⟨n, r⟩ := y
    have hr : 0 ≤ r := hq (n, r) (List.mem_cons_self ..)
    have hrest : ∀ x ∈ rest, 0 ≤ x.2 := fun x hx => hq x (List.mem_cons_of_mem _ hx)
    simp only [timeoutQueueWalk]
    split
    · intro x hx
      simp only [List.mem_cons] at hx
      rcases hx with rfl | rfl | hx
      · exact hd
      · show 0 ≤ r - d
        omega
      · exact hrest x hx
    · intro x hx
      rcases List.mem_cons.mp hx with rfl | hx
      · exact hr
      · exact ih hrest (by omega) x hx

theorem walk_head_pos (e : α) {q : List (α × Int)} (hq : ∀ x ∈ q.head?, 0 < x.2) {d : Int}
    (hd : 0 < d) : ∀ x ∈ (timeoutQueueWalk e d q).head?, 0 < x.2 := by
  cases q with
  | nil => simpa [timeoutQueueWalk] using hd
  | cons y rest =>
    obtain ⟨n, r⟩ := y
    simp only [timeoutQueueWalk]
    split
    · simpa using hd
    · simpa using hq

/-! ## The operations -/

variable [DecidableEq α]

/-- `_k_timeout_queue_add(queue, entry, delay)`: `k_assert(delay > 0)`, and `k_list_add_back`
asserts that the entry is not on the queue. -/
def timeoutQueueAdd (q : List (α × Int)) (e : α) (delay : Int) : Option (List (α × Int)) :=
  if delay > 0 ∧ e ∉ q.map Prod.fst then some (timeoutQueueWalk e delay q) else none

/-- `_k_timeout_queue_remove(queue, entry)`: the entry's `remain` goes to the entry after it.
An entry that is not queued fails `k_assert(next_link != NULL)`. -/
def timeoutQueueRemove : List (α × Int) → α → Option (List (α × Int))
  | [], _ => none
  | (n, r) :: rest, e =>
    if n = e then
      some (match rest with
        | [] => []
        | (n', r') :: rest' => (n', r' + r) :: rest')
    else (timeoutQueueRemove rest e).map ((n, r) :: ·)

theorem timeoutQueueAdd_eq_some {q q' : List (α × Int)} {e : α} {d : Int}
    (h : timeoutQueueAdd q e d = some q') :
    0 < d ∧ e ∉ q.map Prod.fst ∧ q' = timeoutQueueWalk e d q := by
  unfold timeoutQueueAdd at h
  split at h
  · rename_i hc
    cases h
    exact ⟨hc.1, hc.2, rfl⟩
  · cases h

/-- The inner loop of `_k_timeout_queue_adjust`: while the head has nothing left, unlink it and
call back; the callback may queue the entry again. -/
def timeoutQueueDrain (cb : α → σ → Option (σ × Option Int)) (s : σ) :
    List (α × Int) → Option (σ × List (α × Int))
  | [] => some (s, [])
  | (e, r) :: rest =>
    if r = 0 then
      match cb e s with
      | none => none
      | some (s', none) => timeoutQueueDrain cb s' rest
      | some (s', some d) =>
        match _h : timeoutQueueAdd rest e d with
        | none => none
        | some q => timeoutQueueDrain cb s' q
    else some (s, (e, r) :: rest)
termination_by q => zeroRun q
decreasing_by
  · subst r
    rw [zeroRun_cons_zero]
    omega
  · subst r
    obtain ⟨hd, -, rfl⟩ := timeoutQueueAdd_eq_some _h
    rw [zeroRun_cons_zero, zeroRun_walk e rest hd]
    omega

/-- The outer loop of `_k_timeout_queue_adjust`, `while (delta_ticks > 0)`. Each round after the
first takes a positive `remain` off `delta`, so `delta + 1` rounds are enough for a queue whose
entries have positive `remain`s after a drain. -/
def timeoutQueueAdjustLoop (cb : α → σ → Option (σ × Option Int)) :
    Nat → σ → List (α × Int) → Int → Option (σ × List (α × Int))
  | 0, _, _, _ => none
  | fuel + 1, s, q, delta =>
    match q with
    | [] => some (s, [])
    | (e, r) :: rest =>
      if delta ≤ 0 then some (s, q)
      else if delta < r then some (s, (e, r - delta) :: rest)
      else
        let ticks := if delta > r then r else delta
        match timeoutQueueDrain cb s ((e, r - ticks) :: rest) with
        | none => none
        | some (s', []) => some (s', [])
        | some (s', q') => timeoutQueueAdjustLoop cb fuel s' q' (delta - ticks)

/-- `_k_timeout_queue_adjust(queue, callback, delta_ticks)`. -/
def timeoutQueueAdjust (cb : α → σ → Option (σ × Option Int)) (s : σ) (q : List (α × Int))
    (delta : Int) : Option (σ × List (α × Int)) :=
  match q with
  | [] => some (s, [])
  | (e, r) :: rest =>
    if delta = 0 then some (s, q)
    else if r = 0 then none
    else if delta < 0 then some (s, (e, r - delta) :: rest)
    else timeoutQueueAdjustLoop cb (delta.toNat + 1) s q delta

/-- One operation on a timeout queue, with the ticks `now` that the adjusts have passed. -/
def timeoutQueueStep (cb : α → σ → Option (σ × Option Int)) :
    Int × σ × List (α × Int) → Op α → Option (Int × σ × List (α × Int))
  | (now, s, q), .add e delay => (timeoutQueueAdd q e delay).map fun q => (now, s, q)
  | (now, s, q), .remove e => (timeoutQueueRemove q e).map fun q => (now, s, q)
  | (now, s, q), .advance delta => (timeoutQueueAdjust cb s q delta).map fun x => (now + delta, x)

/-! ## Adding -/

theorem timeoutQueueAdd_ok {q q' : List (α × Int)} {e : α} {d : Int} (hq : TimeoutQueueOk q)
    (h : timeoutQueueAdd q e d = some q') : TimeoutQueueOk q' := by
  obtain ⟨hd, he, rfl⟩ := timeoutQueueAdd_eq_some h
  refine ⟨walk_nonneg e hq.nonneg hd.le, walk_head_pos e hq.head_pos hd, ?_⟩
  exact (map_fst_walk_perm e q d).nodup_iff.mpr (List.nodup_cons.mpr ⟨he, hq.nodup⟩)

theorem timeoutQueueAdd_refines (q : List (α × Int)) (e : α) (now d : Int) :
    (timeoutQueueAdd q e d).map (deadlines now) =
      if 0 < d ∧ e ∉ (deadlines now q).map Prod.fst then
        some (DeadlineQueue.insert (e, now + d) (deadlines now q))
      else none := by
  rw [map_fst_deadlines]
  unfold timeoutQueueAdd
  by_cases hc : 0 < d ∧ e ∉ q.map Prod.fst
  · rw [if_pos hc, if_pos hc, Option.map_some, deadlines_walk]
  · rw [if_neg hc, if_neg hc, Option.map_none]

/-! ## Removing -/

theorem timeoutQueueRemove_none {q : List (α × Int)} {e : α} (he : e ∉ q.map Prod.fst) :
    timeoutQueueRemove q e = none := by
  induction q with
  | nil => rfl
  | cons x rest ih =>
    obtain ⟨n, r⟩ := x
    have hn : n ≠ e := fun h => he (by simp [h])
    simp only [timeoutQueueRemove, if_neg hn, ih (fun h => he (List.mem_cons_of_mem _ h)),
      Option.map_none]

/-- Removing a queued entry drops its deadline and keeps the others. -/
theorem timeoutQueueRemove_some {q : List (α × Int)} (hnd : (q.map Prod.fst).Nodup) {e : α}
    (he : e ∈ q.map Prod.fst) (now : Int) :
    ∃ q', timeoutQueueRemove q e = some q' ∧
      deadlines now q' = (deadlines now q).filter fun x => x.1 ≠ e := by
  induction q generalizing now with
  | nil => simp at he
  | cons x rest ih =>
    obtain ⟨n, r⟩ := x
    have hnd' := List.nodup_cons.mp hnd
    by_cases hn : n = e
    · subst hn
      -- the entries after it stay, and the next one takes over its `remain`
      have hkeep : (deadlines (now + r) rest).filter (fun x => x.1 ≠ n) =
          deadlines (now + r) rest := by
        rw [List.filter_eq_self]
        intro x hx
        have hx' : x.1 ∈ rest.map Prod.fst := by
          rw [← map_fst_deadlines (now + r)]
          exact List.mem_map_of_mem hx
        have hne : x.1 ≠ n := fun h => hnd'.1 (by rw [← h]; exact hx')
        simpa using hne
      refine ⟨_, by simp only [timeoutQueueRemove, ↓reduceIte]; rfl, ?_⟩
      rw [deadlines_cons, List.filter_cons_of_neg (by simp), hkeep]
      cases rest with
      | nil => rfl
      | cons y rest' =>
        obtain ⟨n', r'⟩ := y
        simp only [deadlines_cons, show now + (r' + r) = now + r + r' by omega]
    · have he' : e ∈ rest.map Prod.fst := by simpa [Ne.symm hn] using he
      obtain ⟨q', hq', hd⟩ := ih hnd'.2 he' (now + r)
      refine ⟨(n, r) :: q', by simp only [timeoutQueueRemove, if_neg hn, hq', Option.map_some], ?_⟩
      rw [deadlines_cons, deadlines_cons, hd, List.filter_cons_of_pos (by simpa using hn)]

theorem timeoutQueueRemove_refines {q : List (α × Int)} (hnd : (q.map Prod.fst).Nodup) (e : α)
    (now : Int) :
    (timeoutQueueRemove q e).map (deadlines now) =
      if e ∈ (deadlines now q).map Prod.fst then
        some ((deadlines now q).filter fun x => x.1 ≠ e)
      else none := by
  rw [map_fst_deadlines]
  split
  · rename_i he
    obtain ⟨q', hq', hd⟩ := timeoutQueueRemove_some hnd he now
    rw [hq', Option.map_some, hd]
  · rename_i he
    rw [timeoutQueueRemove_none he, Option.map_none]

theorem timeoutQueueRemove_nonneg {q q' : List (α × Int)} {e : α} (hq : ∀ x ∈ q, 0 ≤ x.2)
    (h : timeoutQueueRemove q e = some q') : ∀ x ∈ q', 0 ≤ x.2 := by
  induction q generalizing q' with
  | nil => cases h
  | cons x rest ih =>
    obtain ⟨n, r⟩ := x
    have hr : 0 ≤ r := hq (n, r) (List.mem_cons_self ..)
    have hrest : ∀ x ∈ rest, 0 ≤ x.2 := fun x hx => hq x (List.mem_cons_of_mem _ hx)
    simp only [timeoutQueueRemove] at h
    split at h
    · cases h
      cases rest with
      | nil => simp
      | cons y rest' =>
        obtain ⟨n', r'⟩ := y
        have hr' : 0 ≤ r' := hrest (n', r') (List.mem_cons_self ..)
        intro x hx
        rcases List.mem_cons.mp hx with rfl | hx
        · show 0 ≤ r' + r
          omega
        · exact hrest x (List.mem_cons_of_mem _ hx)
    · obtain ⟨q'', hq'', rfl⟩ := Option.map_eq_some_iff.mp h
      intro x hx
      rcases List.mem_cons.mp hx with rfl | hx
      · exact hr
      · exact ih hrest hq'' x hx

theorem timeoutQueueRemove_ok {q q' : List (α × Int)} {e : α} (hq : TimeoutQueueOk q)
    (h : timeoutQueueRemove q e = some q') : TimeoutQueueOk q' := by
  have he : e ∈ q.map Prod.fst := by
    by_contra he
    rw [timeoutQueueRemove_none he] at h
    cases h
  obtain ⟨q'', hq'', hd⟩ := timeoutQueueRemove_some hq.nodup he 0
  rw [h] at hq''
  cases hq''
  refine ⟨timeoutQueueRemove_nonneg hq.nonneg h, ?_, ?_⟩
  · -- the head stays, or the next entry takes over the head's positive `remain`
    cases q with
    | nil => cases h
    | cons x rest =>
      obtain ⟨n, r⟩ := x
      have hr : 0 < r := hq.head_pos (n, r) rfl
      simp only [timeoutQueueRemove] at h
      split at h
      · cases h
        cases rest with
        | nil => simp
        | cons y rest' =>
          have hr' : 0 ≤ y.2 := hq.nonneg y (by simp)
          simp only [List.head?_cons, Option.mem_def, Option.some.injEq, forall_eq']
          omega
      · obtain ⟨q'', -, rfl⟩ := Option.map_eq_some_iff.mp h
        simpa using hr
  · rw [← map_fst_deadlines 0, hd]
    exact (List.filter_sublist.map Prod.fst).nodup (by rw [map_fst_deadlines]; exact hq.nodup)

/-! ## Adjusting -/

/-- Draining is firing: the entries at the head with nothing left are due at the current time
`b`, and the drain fires them, and the entries their callbacks queue again, as
`DeadlineQueue.advance` does up to any later time. -/
theorem timeoutQueueDrain_refines (cb : α → σ → Option (σ × Option Int)) {b now : Int}
    (hb : b ≤ now) (s : σ) (q : List (α × Int)) (hnd : (q.map Prod.fst).Nodup) :
    advance cb now s (deadlines b q) =
      (timeoutQueueDrain cb s q).bind fun x => advance cb now x.1 (deadlines b x.2) := by
  fun_induction timeoutQueueDrain cb s q with
  | case1 s => rfl
  | case2 s e rest hcb =>
    rw [deadlines_cons, advance_due cb s _ (by omega), hcb]
    rfl
  | case3 s e rest s' hcb ih =>
    rw [deadlines_cons, advance_due cb s _ (by omega), hcb, add_zero]
    exact ih (List.nodup_cons.mp hnd).2
  | case4 s e rest s' d hcb hadd =>
    -- the entry was just unlinked, so the add fails only on a delay that is not positive
    have hd : ¬ 0 < d := by
      intro hd
      rw [timeoutQueueAdd, if_pos ⟨hd, (List.nodup_cons.mp hnd).1⟩] at hadd
      cases hadd
    rw [deadlines_cons, advance_due cb s _ (by omega), hcb]
    simp [hd]
  | case5 s e rest s' d hcb q hadd ih =>
    obtain ⟨hd, he, rfl⟩ := timeoutQueueAdd_eq_some hadd
    rw [deadlines_cons, advance_due cb s _ (by omega), hcb, add_zero]
    simp only [if_pos hd]
    rw [← deadlines_walk]
    exact ih ((map_fst_walk_perm e rest d).nodup_iff.mpr
      (List.nodup_cons.mpr ⟨he, (List.nodup_cons.mp hnd).2⟩))
  | case6 s e r rest hr => rfl

/-- A drain leaves a queue whose head has something left. -/
theorem timeoutQueueDrain_ok (cb : α → σ → Option (σ × Option Int)) {s s' : σ}
    {q q' : List (α × Int)} (hnn : ∀ x ∈ q, 0 ≤ x.2) (hnd : (q.map Prod.fst).Nodup)
    (h : timeoutQueueDrain cb s q = some (s', q')) : TimeoutQueueOk q' := by
  fun_induction timeoutQueueDrain cb s q with
  | case1 s =>
    cases h
    exact timeoutQueueOk_nil
  | case2 => cases h
  | case3 s e rest s'' hcb ih =>
    exact ih (fun x hx => hnn x (List.mem_cons_of_mem _ hx)) (List.nodup_cons.mp hnd).2 h
  | case4 => cases h
  | case5 s e rest s'' d hcb q hadd ih =>
    obtain ⟨hd, he, rfl⟩ := timeoutQueueAdd_eq_some hadd
    exact ih (walk_nonneg e (fun x hx => hnn x (List.mem_cons_of_mem _ hx)) hd.le)
      ((map_fst_walk_perm e rest d).nodup_iff.mpr
        (List.nodup_cons.mpr ⟨he, (List.nodup_cons.mp hnd).2⟩)) h
  | case6 s e r rest hr =>
    cases h
    have hr' : 0 ≤ r := hnn (e, r) (List.mem_cons_self ..)
    refine ⟨hnn, ?_, hnd⟩
    simp only [List.head?_cons, Option.mem_def, Option.some.injEq, forall_eq']
    omega

omit [DecidableEq α] in
/-- Ticks that pass before the head is due only bring it closer: the head's `remain` goes down
by them and every deadline stays. -/
theorem timeoutQueue_pass {e : α} {r delta : Int} {rest : List (α × Int)}
    (hq : TimeoutQueueOk ((e, r) :: rest)) (hlt : delta < r) (b : Int) :
    deadlines (b + delta) ((e, r - delta) :: rest) = deadlines b ((e, r) :: rest) ∧
      TimeoutQueueOk ((e, r - delta) :: rest) := by
  refine ⟨by rw [deadlines_cons, deadlines_cons, show b + delta + (r - delta) = b + r by omega],
    ⟨?_, ?_, ?_⟩⟩
  · intro x hx
    rcases List.mem_cons.mp hx with rfl | hx
    · show 0 ≤ r - delta
      omega
    · exact hq.nonneg x (List.mem_cons_of_mem _ hx)
  · simp only [List.head?_cons, Option.mem_def, Option.some.injEq, forall_eq']
    omega
  · simpa using hq.nodup

/-- The outer loop of an adjust by `delta` from time `b` is `DeadlineQueue.advance` to
`b + delta`, given a round of fuel for each tick. -/
theorem timeoutQueueAdjustLoop_refines (cb : α → σ → Option (σ × Option Int)) :
    ∀ (fuel : Nat) (s : σ) (q : List (α × Int)) (b delta : Int), TimeoutQueueOk q → 0 ≤ delta →
      delta.toNat < fuel →
      (timeoutQueueAdjustLoop cb fuel s q delta).map (fun x => (x.1, deadlines (b + delta) x.2)) =
        advance cb (b + delta) s (deadlines b q) ∧
      ∀ x ∈ timeoutQueueAdjustLoop cb fuel s q delta, TimeoutQueueOk x.2
  | 0, _, _, _, _, _, _, hfuel => absurd hfuel (Nat.not_lt_zero _)
  | fuel + 1, s, [], b, delta, _, _, _ => by
    simp [timeoutQueueAdjustLoop, advance_nil, timeoutQueueOk_nil]
  | fuel + 1, s, (e, r) :: rest, b, delta, hq, hdelta, hfuel => by
    have hr : 0 < r := hq.head_pos (e, r) rfl
    simp only [timeoutQueueAdjustLoop]
    by_cases h0 : delta ≤ 0
    · -- the last round: no time is left, and nothing is due
      obtain rfl : delta = 0 := by omega
      rw [if_pos h0, deadlines_cons, advance_not_due cb s _ (by omega)]
      simp only [Option.map_some, add_zero, deadlines_cons, Option.mem_def, Option.some.injEq,
        forall_eq']
      exact ⟨trivial, hq⟩
    · rw [if_neg h0]
      by_cases hlt : delta < r
      · -- the head is not due: it only comes closer
        rw [if_pos hlt, deadlines_cons, advance_not_due cb s _ (by omega)]
        obtain ⟨hd, hok⟩ := timeoutQueue_pass hq hlt b
        simp only [Option.map_some, Option.mem_def, Option.some.injEq, forall_eq']
        exact ⟨by rw [hd, deadlines_cons], hok⟩
      · -- the head is due: it and the entries due with it are drained at `b + r`
        rw [if_neg hlt]
        have hticks : (if delta > r then r else delta) = r := by split <;> omega
        simp only [hticks, sub_self]
        have hdrain := timeoutQueueDrain_refines cb (show b + r ≤ b + delta by omega) s
          ((e, 0) :: rest) (by simpa using hq.nodup)
        rw [deadlines_cons, add_zero] at hdrain
        rw [deadlines_cons, hdrain]
        cases hd : timeoutQueueDrain cb s ((e, 0) :: rest) with
        | none => simp
        | some x =>
          obtain ⟨s', q'⟩ := x
          have hq' := timeoutQueueDrain_ok cb
            (fun x hx => by
              rcases List.mem_cons.mp hx with rfl | hx
              · exact le_refl 0
              · exact hq.nonneg x (List.mem_cons_of_mem _ hx))
            (by simpa using hq.nodup) hd
          cases q' with
          | nil =>
            simp [advance_nil, timeoutQueueOk_nil]
          | cons y q'' =>
            obtain ⟨ih1, ih2⟩ := timeoutQueueAdjustLoop_refines cb fuel s' (y :: q'') (b + r)
              (delta - r) hq' (by omega) (by omega)
            rw [show b + r + (delta - r) = b + delta by omega] at ih1
            exact ⟨ih1, ih2⟩

/-- An adjust by `delta` from time `b` is `DeadlineQueue.advance` to `b + delta`, and keeps the
queue well formed. -/
theorem timeoutQueueAdjust_refines (cb : α → σ → Option (σ × Option Int)) (s : σ)
    {q : List (α × Int)} (hq : TimeoutQueueOk q) (b delta : Int) :
    (timeoutQueueAdjust cb s q delta).map (fun x => (x.1, deadlines (b + delta) x.2)) =
      advance cb (b + delta) s (deadlines b q) ∧
    ∀ x ∈ timeoutQueueAdjust cb s q delta, TimeoutQueueOk x.2 := by
  cases q with
  | nil => simp [timeoutQueueAdjust, advance_nil, timeoutQueueOk_nil]
  | cons x rest =>
    obtain ⟨e, r⟩ := x
    have hr : 0 < r := hq.head_pos (e, r) rfl
    simp only [timeoutQueueAdjust]
    by_cases h0 : delta = 0
    · subst h0
      rw [if_pos rfl, deadlines_cons, advance_not_due cb s _ (by omega)]
      simp only [Option.map_some, add_zero, deadlines_cons, Option.mem_def, Option.some.injEq,
        forall_eq']
      exact ⟨trivial, hq⟩
    · rw [if_neg h0, if_neg hr.ne']
      by_cases hneg : delta < 0
      · -- the clock goes back: the head gets further, and nothing is due
        rw [if_pos hneg, deadlines_cons, advance_not_due cb s _ (by omega)]
        obtain ⟨hd, hok⟩ := timeoutQueue_pass hq (by omega : delta < r) b
        simp only [Option.map_some, Option.mem_def, Option.some.injEq, forall_eq']
        exact ⟨by rw [hd, deadlines_cons], hok⟩
      · rw [if_neg hneg]
        exact timeoutQueueAdjustLoop_refines cb _ s _ b delta hq (by omega) (by omega)

/-! ## Runs -/

/-- What a state of a timeout queue stands for: the time, the callbacks' state and the
deadlines. -/
def deadlineView (x : Int × σ × List (α × Int)) : Int × σ × List (α × Int) :=
  (x.1, x.2.1, deadlines x.1 x.2.2)

theorem timeoutQueueStep_refines (cb : α → σ → Option (σ × Option Int))
    {x : Int × σ × List (α × Int)} (hq : TimeoutQueueOk x.2.2) (op : Op α) :
    (timeoutQueueStep cb x op).map deadlineView = DeadlineQueue.step cb (deadlineView x) op ∧
      ∀ y ∈ timeoutQueueStep cb x op, TimeoutQueueOk y.2.2 := by
  obtain ⟨now, s, q⟩ := x
  show _ = DeadlineQueue.step cb (now, s, deadlines now q) op ∧ _
  cases op with
  | add e d =>
    have hview : (timeoutQueueStep cb (now, s, q) (.add e d)).map deadlineView =
        ((timeoutQueueAdd q e d).map (deadlines now)).map fun l => (now, s, l) := by
      simp only [timeoutQueueStep, Option.map_map]
      rfl
    refine ⟨?_, ?_⟩
    · rw [hview, timeoutQueueAdd_refines]
      simp only [DeadlineQueue.step]
      split_ifs <;> rfl
    · intro y hy
      obtain ⟨q', hq', rfl⟩ := Option.map_eq_some_iff.mp hy
      exact timeoutQueueAdd_ok hq hq'
  | remove e =>
    have hview : (timeoutQueueStep cb (now, s, q) (.remove e)).map deadlineView =
        ((timeoutQueueRemove q e).map (deadlines now)).map fun l => (now, s, l) := by
      simp only [timeoutQueueStep, Option.map_map]
      rfl
    refine ⟨?_, ?_⟩
    · rw [hview, timeoutQueueRemove_refines hq.nodup]
      simp only [DeadlineQueue.step]
      split_ifs <;> rfl
    · intro y hy
      obtain ⟨q', hq', rfl⟩ := Option.map_eq_some_iff.mp hy
      exact timeoutQueueRemove_ok hq hq'
  | advance delta =>
    obtain ⟨h1, h2⟩ := timeoutQueueAdjust_refines cb s hq now delta
    refine ⟨?_, ?_⟩
    · simp only [timeoutQueueStep, DeadlineQueue.step, ← h1, Option.map_map]
      rfl
    · intro y hy
      obtain ⟨x, hx, rfl⟩ := Option.map_eq_some_iff.mp hy
      exact h2 x hx

/-- Each operation of a run is the operation of `DeadlineQueue.step` on the deadlines. -/
theorem timeoutQueueRun_refines (cb : α → σ → Option (σ × Option Int)) (ops : List (Op α)) :
    ∀ x : Int × σ × List (α × Int), TimeoutQueueOk x.2.2 →
      (ops.foldlM (timeoutQueueStep cb) x).map deadlineView =
        ops.foldlM (DeadlineQueue.step cb) (deadlineView x) ∧
      ∀ y ∈ ops.foldlM (timeoutQueueStep cb) x, TimeoutQueueOk y.2.2 := by
  induction ops with
  | nil =>
    intro x hq
    simp only [List.foldlM_nil]
    exact ⟨rfl, fun y hy => by cases hy; exact hq⟩
  | cons op ops ih =>
    intro x hq
    obtain ⟨h1, h2⟩ := timeoutQueueStep_refines cb hq op
    simp only [List.foldlM_cons]
    cases hs : timeoutQueueStep cb x op with
    | none =>
      rw [hs, Option.map_none] at h1
      rw [← h1]
      exact ⟨rfl, fun y hy => by cases hy⟩
    | some y =>
      rw [hs, Option.map_some] at h1
      rw [← h1]
      exact ih y (h2 y hs)

/-- From the empty queue, every run of adds, removes and adjusts is a run of
`DeadlineQueue.step` on the deadlines the queue stands for, and every queue on the way is well
formed, with its deadlines in order. -/
theorem timeout_queue_refines (cb : α → σ → Option (σ × Option Int)) (ops : List (Op α))
    (now : Int) (s : σ) :
    (ops.foldlM (timeoutQueueStep cb) (now, s, [])).map deadlineView =
      ops.foldlM (DeadlineQueue.step cb) (now, s, []) ∧
    ∀ x ∈ ops.foldlM (timeoutQueueStep cb) (now, s, []),
      TimeoutQueueOk x.2.2 ∧ Sorted (deadlines x.1 x.2.2) := by
  obtain ⟨h1, h2⟩ := timeoutQueueRun_refines cb ops (now, s, []) timeoutQueueOk_nil
  exact ⟨h1, fun x hx => ⟨h2 x hx, sorted_deadlines (h2 x hx).nonneg x.1⟩⟩

/-- An adjust by two ticks of a queue holding entry 0 due in one tick, whose callback logs its
entry and queues it again one tick later, calls back for entry 0 twice. -/
theorem adjust_fires_readded_twice :
    timeoutQueueAdjust (fun e l => some (l ++ [e], some 1)) ([] : List Nat) [(0, 1)] 2 =
      some ([0, 0], [(0, 1)]) := by
  simp [timeoutQueueAdjust, timeoutQueueAdjustLoop, timeoutQueueDrain, timeoutQueueAdd,
    timeoutQueueWalk]

end Argentum.Core
