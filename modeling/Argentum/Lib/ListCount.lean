import Mathlib

/-!
# Argentum.Lib.ListCount

Counts over a list, and sums over a list, as one entry is written. A table written one entry at
a time changes each count by that entry alone; the forms here say so with no subtraction: the
count after the write plus the old entry's term is the count before plus the new entry's term.
-/

namespace ListCount

variable {α : Type*}

theorem countP_set_add {p : α → Bool} {l : List α} {i : Nat} (h : i < l.length) (a : α) :
    (l.set i a).countP p + (if p l[i] then 1 else 0) = l.countP p + (if p a then 1 else 0) := by
  rw [List.countP_set h]
  by_cases hp : p l[i] = true
  · have hpos : 0 < l.countP p := List.countP_pos_iff.mpr ⟨l[i], List.getElem_mem h, hp⟩
    simp only [hp, if_true]
    omega
  · simp only [Bool.not_eq_true] at hp
    simp only [hp, Bool.false_eq_true, if_false]
    omega

theorem sum_map_set_add {f : α → Nat} {L : List α} {i : Nat} (h : i < L.length) (x : α) :
    ((L.set i x).map f).sum + f L[i] = (L.map f).sum + f x := by
  induction L generalizing i with
  | nil => cases h
  | cons a L ih =>
    cases i with
    | zero =>
      simp only [List.set_cons_zero, List.map_cons, List.sum_cons, List.getElem_cons_zero]
      omega
    | succ i =>
      have := ih (Nat.lt_of_succ_lt_succ h)
      simp only [List.set_cons_succ, List.map_cons, List.sum_cons, List.getElem_cons_succ]
      omega

end ListCount
