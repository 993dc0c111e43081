import Mathlib.Logic.Function.Basic

/-!
# Word bitmaps

A bitmap kept as an array of `w`-bit machine words: bit `n` lives in word `n / w` at
position `n % w`, and is tested, set and cleared through the one-bit mask
`1 <<< (n % w)`. The words are a function from word index to `BitVec w`, so that a
bitmap of any length is one value and an update touches exactly one word.

The lemmas say that the three word operations act on the bitmap as a set of bit
numbers (`test_set`, `test_clear`), which is all a client needs: no client proof
looks at a word.
-/

namespace WordBitmap

variable {w : Nat}

/-- The one-bit mask selecting bit `n` inside its word. -/
def mask (w n : Nat) : BitVec w := 1#w <<< (n % w)

/-- Is bit `n` of the bitmap set? -/
def test (bm : Nat → BitVec w) (n : Nat) : Bool :=
  (bm (n / w) &&& mask w n) != 0#w

/-- Set bit `n` (`bm[n / w] |= mask`). -/
def set (bm : Nat → BitVec w) (n : Nat) : Nat → BitVec w :=
  Function.update bm (n / w) (bm (n / w) ||| mask w n)

/-- Clear bit `n` (`bm[n / w] &= ~mask`). -/
def clear (bm : Nat → BitVec w) (n : Nat) : Nat → BitVec w :=
  Function.update bm (n / w) (bm (n / w) &&& ~~~mask w n)

theorem mask_eq_twoPow (n : Nat) : mask w n = BitVec.twoPow w (n % w) := rfl

/-- Testing through the mask reads the bit of the word. -/
theorem test_eq_getLsbD (hw : 0 < w) (bm : Nat → BitVec w) (n : Nat) :
    test bm n = (bm (n / w)).getLsbD (n % w) := by
  have hlt : n % w < w := Nat.mod_lt n hw
  have hne : BitVec.twoPow w (n % w) ≠ 0#w := by
    intro h
    have := congrArg (fun x => x.getLsbD (n % w)) h
    simp [hlt] at this
  unfold test
  rw [mask_eq_twoPow, BitVec.and_twoPow]
  cases (bm (n / w)).getLsbD (n % w) <;> simp [hne]

/-- Two bit numbers are equal iff they share their word and their position. -/
theorem eq_iff_div_mod (m n : Nat) : m = n ↔ m / w = n / w ∧ m % w = n % w := by
  constructor
  · rintro rfl
    exact ⟨rfl, rfl⟩
  · rintro ⟨hd, hm⟩
    rw [← Nat.div_add_mod m w, ← Nat.div_add_mod n w, hd, hm]

@[simp] theorem test_set (hw : 0 < w) (bm : Nat → BitVec w) (n m : Nat) :
    test (set bm n) m = (decide (m = n) || test bm m) := by
  rw [test_eq_getLsbD hw, test_eq_getLsbD hw]
  by_cases hd : m / w = n / w
  · have hlt : n % w < w := Nat.mod_lt n hw
    simp only [set, hd, Function.update_self, BitVec.getLsbD_or, mask_eq_twoPow,
      BitVec.getLsbD_twoPow, hlt, decide_true, Bool.true_and]
    by_cases hm : m % w = n % w
    · simp [(eq_iff_div_mod m n).2 ⟨hd, hm⟩]
    · have hne : m ≠ n := fun h => hm ((eq_iff_div_mod m n).1 h).2
      simp [hne, Ne.symm hm]
  · have hne : m ≠ n := fun h => hd ((eq_iff_div_mod m n).1 h).1
    simp [set, Function.update_of_ne hd, hne]

@[simp] theorem test_clear (hw : 0 < w) (bm : Nat → BitVec w) (n m : Nat) :
    test (clear bm n) m = (!decide (m = n) && test bm m) := by
  rw [test_eq_getLsbD hw, test_eq_getLsbD hw]
  by_cases hd : m / w = n / w
  · have hlt : m % w < w := Nat.mod_lt m hw
    simp only [clear, hd, Function.update_self, BitVec.getLsbD_and, BitVec.getLsbD_not,
      mask_eq_twoPow, BitVec.getLsbD_twoPow, hlt, decide_true, Bool.true_and]
    by_cases hm : m % w = n % w
    · simp [(eq_iff_div_mod m n).2 ⟨hd, hm⟩, Nat.mod_lt n hw]
    · have hne : m ≠ n := fun h => hm ((eq_iff_div_mod m n).1 h).2
      simp [hne, Ne.symm hm, Nat.mod_lt n hw]
  · have hne : m ≠ n := fun h => hd ((eq_iff_div_mod m n).1 h).1
    simp [clear, Function.update_of_ne hd, hne]

/-- Clearing a bit that was clear and has just been set gives the bitmap back. -/
theorem clear_set (hw : 0 < w) {bm : Nat → BitVec w} {n : Nat} (h : test bm n = false) :
    clear (set bm n) n = bm := by
  rw [test_eq_getLsbD hw] at h
  funext j
  by_cases hj : j = n / w
  · subst hj
    simp only [clear, set, Function.update_self]
    apply BitVec.eq_of_getLsbD_eq
    intro i hi
    -- only bit `n % w` of the word is touched, and it was clear
    by_cases hin : i = n % w
    · subst hin
      simp only [mask_eq_twoPow, BitVec.getLsbD_and, BitVec.getLsbD_or, BitVec.getLsbD_not,
        BitVec.getLsbD_twoPow, h]
      simp [hi]
    · simp [mask_eq_twoPow, hi, hin]
  · simp [clear, set, Function.update_of_ne hj]

/-- The all-zero bitmap has no bit set. -/
@[simp] theorem test_zero (n : Nat) : test (fun _ => 0#w) n = false := by
  simp [test]

end WordBitmap
