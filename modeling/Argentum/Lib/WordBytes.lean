import Mathlib.Data.List.GetD
import Mathlib.Logic.Function.Basic

/-!
# Bytes in words

A byte-addressed memory kept as an array of 32-bit little-endian words: byte `i` lives in word
`i / 4`, at bits `8 * (i % 4)` to `8 * (i % 4) + 7`. `get` reads a byte out of its word, and
`set` replaces it through a mask that leaves the word's other three bytes as they were.

`get_set` says that `set` acts on the bytes as an update of one byte, and `get_setRange` that
`setRange` writes a run of bytes; a client reads and writes bytes through these two and never
looks at a word.
-/

namespace WordBytes

/-- Where byte `i` sits in its word. -/
def shift (i : Nat) : Nat := 8 * (i % 4)

/-- The bits of byte `i` in its word. -/
def mask (i : Nat) : BitVec 32 := (BitVec.allOnes 8).setWidth 32 <<< shift i

/-- Byte `i` of the memory. -/
def get (m : Nat → BitVec 32) (i : Nat) : UInt8 :=
  UInt8.ofBitVec ((m (i / 4)).extractLsb' (shift i) 8)

/-- Byte `i` of the memory replaced by `v`. -/
def set (m : Nat → BitVec 32) (i : Nat) (v : UInt8) : Nat → BitVec 32 :=
  Function.update m (i / 4) ((m (i / 4) &&& ~~~mask i) ||| (v.toBitVec.setWidth 32 <<< shift i))

/-- The `n` bytes from `off`. -/
def getRange (m : Nat → BitVec 32) (off n : Nat) : List UInt8 :=
  (List.range n).map fun k => get m (off + k)

/-- The bytes `bs` written from `off` on. -/
def setRange (m : Nat → BitVec 32) : Nat → List UInt8 → Nat → BitVec 32
  | _, [] => m
  | off, b :: bs => setRange (set m off b) (off + 1) bs

/-- A bit of the word after `set`: the new byte's inside the mask, the old word's outside. -/
theorem getLsbD_replace (w : BitVec 32) (i : Nat) (b : BitVec 8) {p : Nat} (hp : p < 32) :
    ((w &&& ~~~mask i) ||| (b.setWidth 32 <<< shift i)).getLsbD p =
      if shift i ≤ p ∧ p < shift i + 8 then b.getLsbD (p - shift i) else w.getLsbD p := by
  simp only [mask, BitVec.getLsbD_or, BitVec.getLsbD_and, BitVec.getLsbD_not,
    BitVec.getLsbD_shiftLeft, BitVec.getLsbD_setWidth, BitVec.getLsbD_allOnes, hp]
  by_cases hin : shift i ≤ p ∧ p < shift i + 8
  · rw [if_pos hin]
    have h8 : p - shift i < 8 := by omega
    have hlt : ¬ p < shift i := by omega
    have h32 : p - shift i < 32 := by omega
    simp [hlt, h32, h8]
  · rw [if_neg hin]
    by_cases hlt : p < shift i
    · simp [hlt]
    · have hb : b.getLsbD (p - shift i) = false := BitVec.getLsbD_of_ge b _ (by omega)
      simp [hlt, hb]
      omega

theorem shift_add_lt (i : Nat) {k : Nat} (hk : k < 8) : shift i + k < 32 := by
  unfold shift
  omega

@[simp] theorem get_set_self (m : Nat → BitVec 32) (i : Nat) (v : UInt8) :
    get (set m i v) i = v := by
  unfold get set
  rw [Function.update_self]
  apply UInt8.toBitVec_inj.1
  apply BitVec.eq_of_getLsbD_eq
  intro k hk
  rw [BitVec.getLsbD_extractLsb', decide_eq_true hk, Bool.true_and,
    getLsbD_replace _ _ _ (shift_add_lt i hk), if_pos (by omega), Nat.add_sub_cancel_left]

theorem get_set_of_ne (m : Nat → BitVec 32) {i j : Nat} (v : UInt8) (h : j ≠ i) :
    get (set m i v) j = get m j := by
  unfold get set
  by_cases hw : j / 4 = i / 4
  · rw [hw, Function.update_self]
    congr 1
    apply BitVec.eq_of_getLsbD_eq
    intro k hk
    -- the two bytes share the word, so they sit at different shifts
    have hs : shift j ≠ shift i := fun hm => h (by unfold shift at hm; omega)
    have hsi : shift i % 8 = 0 ∧ shift j % 8 = 0 := by unfold shift; omega
    rw [BitVec.getLsbD_extractLsb', BitVec.getLsbD_extractLsb', decide_eq_true hk, Bool.true_and,
      Bool.true_and, getLsbD_replace _ _ _ (shift_add_lt j hk), if_neg (by omega), ← hw]
  · rw [Function.update_of_ne hw]

theorem get_set (m : Nat → BitVec 32) (i j : Nat) (v : UInt8) :
    get (set m i v) j = if j = i then v else get m j := by
  by_cases h : j = i
  · rw [if_pos h, h, get_set_self]
  · rw [if_neg h, get_set_of_ne m v h]

/-- After `setRange`, the bytes from `off` are those written, and the others as they were. -/
theorem get_setRange (m : Nat → BitVec 32) (off : Nat) (bs : List UInt8) (j : Nat) :
    get (setRange m off bs) j =
      if off ≤ j ∧ j < off + bs.length then bs.getD (j - off) 0 else get m j := by
  induction bs generalizing m off with
  | nil =>
    rw [setRange, if_neg (by simp)]
  | cons b bs ih =>
    rw [setRange, ih, get_set]
    -- `j` is the byte `b` went to, one of those after it, or outside
    by_cases hj : j = off
    · subst hj
      rw [if_neg (by omega), if_pos rfl, if_pos (by simp), Nat.sub_self, List.getD_cons_zero]
    · by_cases hin : off + 1 ≤ j ∧ j < off + 1 + bs.length
      · have hsub : j - off = (j - (off + 1)) + 1 := by omega
        rw [if_pos hin, if_pos (by simp; omega), hsub, List.getD_cons_succ]
      · rw [if_neg hin, if_neg hj, if_neg (by simp; omega)]

/-- The bytes of a zeroed memory are zero. -/
@[simp] theorem get_zero (i : Nat) : get (fun _ => 0#32) i = 0 := by
  simp [get]

@[simp] theorem length_getRange (m : Nat → BitVec 32) (off n : Nat) :
    (getRange m off n).length = n := by
  simp [getRange]

end WordBytes
