import Mathlib.Logic.Function.Basic
import Mathlib.Data.List.Basic

/-!
# Argentum.Lib.PointUpdate

Loops that update an array in place, one cell per round, with the array a function and a
round a `Function.update`. Three shapes:

* `foldl_update_eq`: each round stores a value that does not depend on the array;
* `foldl_range_update`: round `j` of `0, …, k - 1` stores at `d + j`, which is `memmove`
  reading from a copy;
* `foldl_update_read`: each round stores a value read from one other cell of the array as it
  is then. When no round reads a cell that an earlier round wrote, every value is the one the
  original array holds there.
-/

namespace PointUpdate

variable {ι α : Type*} [DecidableEq ι]

/-- A loop storing `f i` at each `i` of a list. -/
theorem foldl_update_eq (f : ι → α) (l : List ι) (init : ι → α) :
    l.foldl (fun b i => Function.update b i (f i)) init =
      fun i => if i ∈ l then f i else init i := by
  induction l generalizing init with
  | nil => simp
  | cons a l ih =>
    funext i
    rw [List.foldl_cons, ih]
    by_cases hl : i ∈ l
    · simp [hl]
    · by_cases ha : i = a
      · subst ha
        simp
      · simp [hl, ha]

/-- A loop storing `f j` at `d + j` for `j < k`. -/
theorem foldl_range_update (d : Nat) (f : Nat → α) (k : Nat) (init : Nat → α) :
    (List.range k).foldl (fun b j => Function.update b (d + j) (f j)) init =
      fun i => if d ≤ i ∧ i < d + k then f (i - d) else init i := by
  induction k with
  | zero =>
    funext i
    rw [if_neg (by omega)]
    rfl
  | succ k ih =>
    funext i
    rw [List.range_succ, List.foldl_append, ih, List.foldl_cons, List.foldl_nil]
    -- the last round stores at `d + k`; the others are below it
    by_cases hk : i = d + k
    · subst hk
      simp
    · rw [Function.update_of_ne hk]
      by_cases hlt : d ≤ i ∧ i < d + k
      · rw [if_pos hlt, if_pos (by omega)]
      · rw [if_neg hlt, if_neg (by omega)]

/-- A loop storing at each `i` of a list a value `g i` of the cell `src i`, read when the
round runs. If no round reads a cell an earlier round stored to, each stored value is read
from the original array. -/
theorem foldl_update_read (g : ι → α → α) (src : ι → ι) {l : List ι}
    (hl : l.Pairwise fun a b => src b ≠ a) (init : ι → α) :
    l.foldl (fun b i => Function.update b i (g i (b (src i)))) init =
      fun i => if i ∈ l then g i (init (src i)) else init i := by
  induction l generalizing init with
  | nil => simp
  | cons a l ih =>
    obtain ⟨hnot, hl⟩ := List.pairwise_cons.mp hl
    rw [List.foldl_cons, ih hl]
    funext i
    by_cases hi : i ∈ l
    · -- the round at `i` reads a cell the round at `a` did not store to
      rw [if_pos hi, if_pos (List.mem_cons_of_mem a hi), Function.update_of_ne (hnot i hi)]
    · by_cases ha : i = a
      · subst ha
        simp [hi]
      · simp [hi, ha]

end PointUpdate
