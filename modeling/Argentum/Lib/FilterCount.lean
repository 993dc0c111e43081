import Mathlib.Algebra.BigOperators.Group.Finset.Piecewise

/-!
# Argentum.Lib.FilterCount

Counting the elements of a finite set that satisfy a predicate, as the predicate changes at
one element. A table that is written one entry at a time changes each count by that entry
alone: `card_filter_add_ite` says so, in a form with no subtraction.
-/

namespace FilterCount

variable {α : Type*} {s : Finset α} {p q : α → Prop} [DecidablePred p] [DecidablePred q]
  {a : α}

/-- Two predicates that agree on `s` off `a` count the same, up to `a`'s own term. -/
theorem card_filter_add_ite [DecidableEq α] (ha : a ∈ s) (h : ∀ x ∈ s, x ≠ a → (p x ↔ q x)) :
    (s.filter q).card + (if p a then 1 else 0) = (s.filter p).card + (if q a then 1 else 0) := by
  rw [Finset.card_filter, Finset.card_filter, ← Finset.sum_erase_add _ _ ha,
    ← Finset.sum_erase_add _ _ ha]
  have hrest : ∑ x ∈ s.erase a, (if q x then 1 else 0) = ∑ x ∈ s.erase a, (if p x then 1 else 0) :=
    Finset.sum_congr rfl fun x hx =>
      if_congr (h x (Finset.mem_of_mem_erase hx) (Finset.ne_of_mem_erase hx)).symm rfl rfl
  omega

end FilterCount
