import Mathlib.Logic.Function.Basic
import Mathlib.Data.List.Range

/-!
# Argentum.Lib.RingQueue

A bounded FIFO queue kept in a ring of `cap` slots. `cell : Nat → β` gives what each slot
holds; the queue is the `count` slots from `head` on, taken modulo `cap` (`view`). A writer puts
a value in the slot after the last one and a reader takes the slot at `head` and moves it on by
one with `next`, which goes back to slot 0 past the last slot.

`view_push` says that a write to the slot after the queue appends to it (the slots of the queue
are distinct, `mod_ne`), and `view_pop` that the slot at `head` is the front and the rest
starts at `next cap head`.
-/

namespace RingQueue

variable {β : Type*}

/-- The slot after `i`, back to slot 0 past the last one. -/
def next (cap i : Nat) : Nat := if cap ≤ i + 1 then 0 else i + 1

theorem next_eq_mod {cap i : Nat} (hi : i < cap) : next cap i = (i + 1) % cap := by
  unfold next
  split
  · have hcap : i + 1 = cap := by omega
    rw [hcap, Nat.mod_self]
  · rw [Nat.mod_eq_of_lt (by omega)]

theorem next_lt {cap i : Nat} (hi : i < cap) : next cap i < cap := by
  unfold next
  split <;> omega

/-- The `count` slots from `head` on, read through `cell`: the queue the ring holds, front
first. -/
def view (cell : Nat → β) (cap head count : Nat) : List β :=
  (List.range count).map fun j => cell ((head + j) % cap)

variable {cell : Nat → β} {cap head count : Nat}

@[simp] theorem view_zero : view cell cap head 0 = [] := rfl

@[simp] theorem length_view : (view cell cap head count).length = count := by
  simp [view]

/-- Two offsets from `head` that are less than `cap` apart name distinct slots. -/
theorem mod_ne {j k : Nat} (hjk : j < k) (hk : k < cap) : (head + j) % cap ≠ (head + k) % cap := by
  intro h
  have hdvd : cap ∣ (head + k) - (head + j) :=
    Nat.dvd_of_mod_eq_zero (Nat.sub_mod_eq_zero_of_mod_eq h.symm)
  have hzero : (head + k) - (head + j) = 0 := Nat.eq_zero_of_dvd_of_lt hdvd (by omega)
  omega

/-- The queue reads only its own slots. -/
theorem view_congr {cell' : Nat → β}
    (h : ∀ j < count, cell' ((head + j) % cap) = cell ((head + j) % cap)) :
    view cell' cap head count = view cell cap head count := by
  unfold view
  apply List.map_congr_left
  intro j hj
  exact h j (List.mem_range.mp hj)

/-- Writing `v` to the slot after the queue appends it. -/
theorem view_push (v : β) (hcount : count < cap) :
    view (Function.update cell ((head + count) % cap) v) cap head (count + 1) =
      view cell cap head count ++ [v] := by
  have hfront : view (Function.update cell ((head + count) % cap) v) cap head count =
      view cell cap head count :=
    view_congr fun j hj => Function.update_of_ne (mod_ne hj hcount) _ _
  rw [← hfront, view, view, List.range_succ, List.map_append, List.map_singleton,
    Function.update_self]

/-- The front of the queue is the slot at `head`; the rest starts at the next slot. -/
theorem view_pop (cell : Nat → β) (hhead : head < cap) :
    view cell cap head (count + 1) = cell head :: view cell cap (next cap head) count := by
  rw [view, List.range_succ_eq_map, List.map_cons, List.map_map, Nat.add_zero,
    Nat.mod_eq_of_lt hhead, view, next_eq_mod hhead]
  congr 1
  apply List.map_congr_left
  intro j _
  -- the slot `j + 1` after `head` is the slot `j` after the next one
  simp only [Function.comp_apply]
  rw [Nat.mod_add_mod, Nat.add_assoc, Nat.add_comm 1 j]

end RingQueue
