import Mathlib

/-!
# Argentum.Lib.DeadlineQueue

A queue of timeouts seen from outside: entries of type `α`, each with the absolute time it is
due, kept earliest first. `insert` puts an entry after every entry due no later than it, so
entries due at the same time leave in the order they came. `advance cb now s l` moves the clock
to `now`: it fires, earliest first, every entry due by then, and hands each to the callback
`cb`, which acts on a state `σ` and may ask for its entry back, due some ticks after the time
it fired; an entry taken back this way fires again if it is due by `now` as well.

A callback that never asks for its entry back sees each entry due by `now` exactly once, in
the queue's order, and the rest of the queue stays as it was (`advance_of_no_readd`).
`step` is one operation of a timeout queue (add, remove or advance) on this view.
-/

namespace DeadlineQueue

variable {α σ : Type*}

/-- `x` after every entry of `l` due no later than it. -/
def insert (x : α × Int) (l : List (α × Int)) : List (α × Int) :=
  l.orderedInsert (fun a b => a.2 < b.2) x

/-- Deadlines do not decrease along the queue. -/
def Sorted (l : List (α × Int)) : Prop := l.Pairwise fun a b => a.2 ≤ b.2

theorem insert_perm (x : α × Int) (l : List (α × Int)) : (insert x l).Perm (x :: l) :=
  List.perm_orderedInsert _ x l

theorem insert_cons (x y : α × Int) (l : List (α × Int)) :
    insert x (y :: l) = if x.2 < y.2 then x :: y :: l else y :: insert x l := rfl

theorem mem_insert {x y : α × Int} {l : List (α × Int)} : y ∈ insert x l ↔ y = x ∨ y ∈ l := by
  rw [(insert_perm x l).mem_iff, List.mem_cons]

theorem Sorted.insert (x : α × Int) {l : List (α × Int)} (h : Sorted l) : Sorted (insert x l) := by
  induction l with
  | nil => exact List.pairwise_singleton _ x
  | cons y l ih =>
    have hy := List.pairwise_cons.mp h
    rw [insert_cons]
    split
    · rename_i hlt
      refine List.pairwise_cons.mpr ⟨?_, h⟩
      intro z hz
      rcases List.mem_cons.mp hz with rfl | hz
      · exact hlt.le
      · exact hlt.le.trans (hy.1 z hz)
    · rename_i hge
      refine List.pairwise_cons.mpr ⟨?_, ih hy.2⟩
      intro z hz
      rcases mem_insert.mp hz with rfl | hz
      · exact not_lt.mp hge
      · exact hy.1 z hz

/-- How late the entries are at `now`, counting one for an entry due exactly then: firing an
entry lowers it, and taking it back for later does not undo that. -/
def lateness (now : Int) (l : List (α × Int)) : Nat := (l.map fun x => (now + 1 - x.2).toNat).sum

theorem lateness_insert (now : Int) (x : α × Int) (l : List (α × Int)) :
    lateness now (insert x l) = (now + 1 - x.2).toNat + lateness now l := by
  unfold lateness
  rw [((insert_perm x l).map _).sum_eq, List.map_cons, List.sum_cons]

theorem lateness_cons (now : Int) (x : α × Int) (l : List (α × Int)) :
    lateness now (x :: l) = (now + 1 - x.2).toNat + lateness now l := by
  simp [lateness]

/-- Move the clock to `now`: fire every entry due by then, earliest first. A callback returns
the state after it and the delay it takes its entry back with, if it does; `none` is a callback
that fails, and so is one that asks for a delay that is not positive. -/
def advance (cb : α → σ → Option (σ × Option Int)) (now : Int) (s : σ) :
    List (α × Int) → Option (σ × List (α × Int))
  | [] => some (s, [])
  | (e, d) :: l =>
    if d ≤ now then
      match cb e s with
      | none => none
      | some (s', none) => advance cb now s' l
      | some (s', some p) => if 0 < p then advance cb now s' (insert (e, d + p) l) else none
    else some (s, (e, d) :: l)
termination_by l => lateness now l
decreasing_by
  · rw [lateness_cons]
    omega
  · rw [lateness_insert, lateness_cons]
    simp only
    omega

theorem advance_nil (cb : α → σ → Option (σ × Option Int)) (now : Int) (s : σ) :
    advance cb now s [] = some (s, []) := by
  rw [advance]

theorem advance_not_due (cb : α → σ → Option (σ × Option Int)) {now : Int} (s : σ) {e : α}
    {d : Int} (l : List (α × Int)) (h : now < d) :
    advance cb now s ((e, d) :: l) = some (s, (e, d) :: l) := by
  rw [advance, if_neg (not_le.mpr h)]

theorem advance_due (cb : α → σ → Option (σ × Option Int)) {now : Int} (s : σ) {e : α} {d : Int}
    (l : List (α × Int)) (h : d ≤ now) :
    advance cb now s ((e, d) :: l) =
      match cb e s with
      | none => none
      | some (s', none) => advance cb now s' l
      | some (s', some p) => if 0 < p then advance cb now s' (insert (e, d + p) l) else none := by
  rw [advance, if_pos h]

/-- The callbacks of the entries of `l`, in order, from `s`. -/
def fireAll (cb : α → σ → Option (σ × Option Int)) (s : σ) (l : List (α × Int)) : Option σ :=
  l.foldlM (fun s x => (cb x.1 s).map Prod.fst) s

/-- A callback that never takes its entry back is called once for each entry due by `now`, in
the order of the queue, and the entries not due stay as they are. -/
theorem advance_of_no_readd {cb : α → σ → Option (σ × Option Int)}
    (hcb : ∀ e s r, cb e s = some r → r.2 = none) (now : Int) (l : List (α × Int)) (s : σ) :
    advance cb now s l =
      (fireAll cb s (l.takeWhile fun x => x.2 ≤ now)).map fun s' =>
        (s', l.dropWhile fun x => x.2 ≤ now) := by
  induction l generalizing s with
  | nil => simp [advance_nil, fireAll]
  | cons x l ih =>
    obtain ⟨e, d⟩ := x
    by_cases hd : d ≤ now
    · rw [advance_due cb s l hd]
      simp only [List.takeWhile_cons, List.dropWhile_cons, hd, decide_true, ↓reduceIte, fireAll,
        List.foldlM_cons]
      cases hc : cb e s with
      | none => rfl
      | some r =>
        obtain ⟨s', p⟩ := r
        have hp : p = none := hcb e s _ hc
        subst hp
        exact ih s'
    · rw [advance_not_due cb s l (not_le.mp hd)]
      simp [hd, fireAll]

/-! ## Operations -/

/-- An operation on a timeout queue: add an entry due `delay` ticks from now, remove an entry,
or let `delta` ticks pass. -/
inductive Op (α : Type*)
  | add (e : α) (delay : Int)
  | remove (e : α)
  | advance (delta : Int)

variable [DecidableEq α]

/-- One operation at the time `now`, on the state `s` of the callbacks and the queue `l`. An
entry is added only if it is not queued and its delay is positive, and removed only if queued. -/
def step (cb : α → σ → Option (σ × Option Int)) :
    Int × σ × List (α × Int) → Op α → Option (Int × σ × List (α × Int))
  | (now, s, l), .add e delay =>
    if 0 < delay ∧ e ∉ l.map Prod.fst then some (now, s, insert (e, now + delay) l) else none
  | (now, s, l), .remove e =>
    if e ∈ l.map Prod.fst then some (now, s, l.filter fun x => x.1 ≠ e) else none
  | (now, s, l), .advance delta => (advance cb (now + delta) s l).map fun x => (now + delta, x)

end DeadlineQueue
