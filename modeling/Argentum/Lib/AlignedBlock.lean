import Mathlib.Algebra.Order.Group.Nat
import Mathlib.Data.Nat.Bitwise

/-!
# Aligned power-of-two blocks

A block of order `o` starting at `p` is the span `[p, p + 2 ^ o)`; it is *aligned* when
`2 ^ o ∣ p`. Binary buddy allocators pair every aligned block with its *buddy*
`p ^^^ 2 ^ o`, the other half of the aligned block of order `o + 1` containing it.

This module states the arithmetic such an allocator rests on, in terms of spans:

* `Apart` — two spans share no point, with the facts that let interval reasoning
  go through `omega`;
* `buddy_cases` — the buddy is the neighbouring block on one side or the other,
  according to the parity of `p / 2 ^ o`; `buddy_buddy` — it is an involution;
* `dvd_min_buddy` — the lower of the two buddies starts the aligned parent block,
  and `buddy_of_dvd_succ` — the lower half of an aligned block has the upper half
  as its buddy (the split case).
-/

namespace AlignedBlock

/-! ## Disjoint spans -/

/-- The spans `[p, p + m)` and `[q, q + n)` share no point. -/
def Apart (p m q n : Nat) : Prop := p + m ≤ q ∨ q + n ≤ p

instance (p m q n : Nat) : Decidable (Apart p m q n) :=
  inferInstanceAs (Decidable (_ ∨ _))

theorem Apart.symm {p m q n : Nat} (h : Apart p m q n) : Apart q n p m := Or.symm h

/-- A nonempty span apart from two adjacent spans is apart from their union. -/
theorem Apart.union {x k p a b : Nat} (hk : 0 < k) (h₁ : Apart x k p a)
    (h₂ : Apart x k (p + a) b) : Apart x k p (a + b) := by
  unfold Apart at *
  omega

/-- A span apart from a span is apart from every span inside it. -/
theorem Apart.mono {x k p a q b : Nat} (h : Apart x k q b) (hq : q ≤ p)
    (hb : p + a ≤ q + b) : Apart x k p a := by
  unfold Apart at *
  omega

/-- A span inside a span apart from another is apart from it too. -/
theorem Apart.mono_left {p a q b x k : Nat} (h : Apart q b x k) (hq : q ≤ p)
    (hb : p + a ≤ q + b) : Apart p a x k :=
  (h.symm.mono hq hb).symm

/-- Scaling both spans by one factor keeps them apart: spans of pages stay apart as
spans of bytes. -/
theorem Apart.mul_right {p m q n : Nat} (h : Apart p m q n) (k : Nat) :
    Apart (p * k) (m * k) (q * k) (n * k) := by
  rcases h with h | h
  · exact Or.inl (by rw [← Nat.add_mul]; exact Nat.mul_le_mul_right k h)
  · exact Or.inr (by rw [← Nat.add_mul]; exact Nat.mul_le_mul_right k h)

/-- A nonempty span is never apart from itself. -/
theorem not_apart_self {p m : Nat} (hm : 0 < m) : ¬ Apart p m p m := by
  unfold Apart
  omega

/-! ## Buddies -/

/-- The buddy of the order-`o` block at `p`. -/
def buddy (p o : Nat) : Nat := p ^^^ 2 ^ o

theorem xor_one_eq (q : Nat) : q ^^^ 1 = if q % 2 = 0 then q + 1 else q - 1 := by
  have hdiv : (q ^^^ 1) / 2 = q / 2 := by
    rw [Nat.xor_div_two]
    simp
  have hmod : (q ^^^ 1) % 2 = 1 ↔ ¬ q % 2 = 1 := by
    rw [Nat.xor_mod_two_eq_one]
    simp
  have hsplit := Nat.div_add_mod (q ^^^ 1) 2
  split <;> omega

theorem xor_two_pow_of_dvd {p o : Nat} (h : 2 ^ o ∣ p) :
    p ^^^ 2 ^ o = 2 ^ o * (p / 2 ^ o ^^^ 1) := by
  have hpos : 0 < 2 ^ o := Nat.two_pow_pos o
  have hdiv : (p ^^^ 2 ^ o) / 2 ^ o = p / 2 ^ o ^^^ 1 := by
    rw [Nat.xor_div_two_pow, Nat.div_self hpos]
  have hmod : (p ^^^ 2 ^ o) % 2 ^ o = 0 := by
    rw [Nat.xor_mod_two_pow, Nat.mod_self, Nat.mod_eq_zero_of_dvd h]
    rfl
  rw [← Nat.div_add_mod (p ^^^ 2 ^ o) (2 ^ o), hdiv, hmod, Nat.add_zero]

/-- The buddy of an aligned block is its right neighbour when `p / 2 ^ o` is even and its
left neighbour when it is odd. -/
theorem buddy_cases {p o : Nat} (h : 2 ^ o ∣ p) :
    (p / 2 ^ o % 2 = 0 ∧ buddy p o = p + 2 ^ o) ∨
      (p / 2 ^ o % 2 = 1 ∧ p = buddy p o + 2 ^ o) := by
  obtain ⟨q, rfl⟩ := h
  have hq : 2 ^ o * q / 2 ^ o = q := Nat.mul_div_cancel_left q (Nat.two_pow_pos o)
  rw [buddy, xor_two_pow_of_dvd (Nat.dvd_mul_right _ _), hq, xor_one_eq]
  by_cases he : q % 2 = 0
  · left
    simp only [he, if_true, true_and]
    rw [Nat.mul_add, Nat.mul_one]
  · right
    have hq1 : 1 ≤ q := by omega
    simp only [he, if_false]
    refine ⟨by omega, ?_⟩
    rw [← Nat.mul_add_one, Nat.sub_add_cancel hq1]

theorem dvd_buddy {p o : Nat} (h : 2 ^ o ∣ p) : 2 ^ o ∣ buddy p o := by
  rcases buddy_cases h with ⟨-, hb⟩ | ⟨-, hb⟩
  · rw [hb]
    exact Nat.dvd_add h (Nat.dvd_refl _)
  · exact (Nat.dvd_add_right (Nat.dvd_refl _)).1 (by rw [Nat.add_comm, ← hb]; exact h)

theorem buddy_buddy (p o : Nat) : buddy (buddy p o) o = p := by
  simp only [buddy, Nat.xor_assoc, Nat.xor_self, Nat.xor_zero]

/-- The lower of two buddies is aligned to the parent order. -/
theorem dvd_min_buddy {p o : Nat} (h : 2 ^ o ∣ p) :
    2 ^ (o + 1) ∣ min p (buddy p o) := by
  -- split `p` into its parent-aligned part and the half it sits in
  have hp : p = 2 ^ (o + 1) * (p / 2 ^ o / 2) + 2 ^ o * (p / 2 ^ o % 2) := by
    rw [Nat.pow_succ, Nat.mul_assoc, ← Nat.mul_add, Nat.div_add_mod, Nat.mul_div_cancel' h]
  rcases buddy_cases h with ⟨he, hb⟩ | ⟨ho, hb⟩
  · rw [hb, min_eq_left (Nat.le_add_right _ _)]
    rw [he, Nat.mul_zero, Nat.add_zero] at hp
    rw [hp]
    exact Nat.dvd_mul_right _ _
  · rw [min_eq_right (by omega)]
    rw [ho, Nat.mul_one] at hp
    have hlow : buddy p o = 2 ^ (o + 1) * (p / 2 ^ o / 2) := by omega
    rw [hlow]
    exact Nat.dvd_mul_right _ _

/-- A nonempty span apart from two buddies is apart from the block they merge into. -/
theorem Apart.merge_buddy {x k p o : Nat} (hk : 0 < k) (hal : 2 ^ o ∣ p)
    (h₁ : Apart x k p (2 ^ o)) (h₂ : Apart x k (buddy p o) (2 ^ o)) :
    Apart x k (min p (buddy p o)) (2 ^ (o + 1)) := by
  have hcases := buddy_cases hal
  generalize buddy p o = b at *
  rw [Nat.two_pow_succ]
  rcases hcases with ⟨-, rfl⟩ | ⟨-, rfl⟩
  · rw [min_eq_left (by omega)]
    exact h₁.union hk h₂
  · rw [min_eq_right (by omega)]
    exact h₂.union hk h₁

/-- In an aligned block of order `o + 1`, the lower half's buddy is the upper half. -/
theorem buddy_of_dvd_succ {p o : Nat} (h : 2 ^ (o + 1) ∣ p) : buddy p o = p + 2 ^ o := by
  have ho : 2 ^ o ∣ p := Nat.dvd_trans (Nat.pow_dvd_pow 2 (Nat.le_succ o)) h
  rcases buddy_cases ho with ⟨-, hb⟩ | ⟨hodd, -⟩
  · exact hb
  · obtain ⟨k, rfl⟩ := h
    rw [Nat.pow_succ, Nat.mul_assoc, Nat.mul_div_cancel_left _ (Nat.two_pow_pos o)] at hodd
    omega

end AlignedBlock
