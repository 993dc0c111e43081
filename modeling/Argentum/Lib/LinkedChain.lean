import Mathlib.Data.List.Nodup
import Mathlib.Logic.Function.Basic

/-!
# Argentum.Lib.LinkedChain

Singly linked lists threaded through a `next` field. Nodes are names of type `α`,
`next : α → Option α` is the array of link fields, and `none` is the null pointer.
`Chain next head l` says that the walk starting at `head` visits exactly the nodes of `l`,
in order, and then reaches null.

A walk that reaches null cannot revisit a node (`Chain.nodup`), so a chain is acyclic by
construction and its nodes are distinct. The stores a free list makes are covered by
`Chain.push` (link a node in front of the head) and `Chain.some_iff` (follow the head's
link); `Chain.frame` says that writing the link of a node off the chain changes nothing.
-/

namespace LinkedChain

variable {α : Type*}

/-- Following `next` from `head` visits the nodes of the list, then reaches null. -/
inductive Chain (next : α → Option α) : Option α → List α → Prop
  | nil : Chain next none []
  | cons {a : α} {l : List α} : Chain next (next a) l → Chain next (some a) (a :: l)

namespace Chain

variable {next : α → Option α} {head : Option α} {l l' : List α} {a : α}

theorem none_iff : Chain next none l ↔ l = [] := by
  constructor
  · rintro ⟨⟩
    rfl
  · rintro rfl
    exact .nil

theorem some_iff : Chain next (some a) l ↔ ∃ l', l = a :: l' ∧ Chain next (next a) l' := by
  constructor
  · rintro (_ | ⟨h⟩)
    exact ⟨_, rfl, h⟩
  · rintro ⟨l', rfl, h⟩
    exact .cons h

/-- The walk is determined by its start. -/
theorem unique (h₁ : Chain next head l) (h₂ : Chain next head l') : l = l' := by
  induction h₁ generalizing l' with
  | nil => exact (none_iff.1 h₂).symm
  | cons _ ih =>
    obtain ⟨l₂, rfl, htail⟩ := some_iff.1 h₂
    rw [ih htail]

/-- The head is null exactly when the chain is empty. -/
theorem eq_none_iff (h : Chain next head l) : head = none ↔ l = [] := by
  cases h with
  | nil => exact ⟨fun _ => rfl, fun _ => rfl⟩
  | cons _ => simp

/-- A node on the chain starts a walk no longer than the whole chain. -/
theorem suffix_of_mem (h : Chain next head l) (ha : a ∈ l) :
    ∃ l', Chain next (some a) l' ∧ l'.length ≤ l.length := by
  induction h with
  | nil => exact absurd ha List.not_mem_nil
  | @cons b l hb ih =>
    rcases List.mem_cons.1 ha with rfl | ha
    · exact ⟨_, .cons hb, Nat.le_refl _⟩
    · obtain ⟨l', h', hlen⟩ := ih ha
      exact ⟨l', h', by simp only [List.length_cons]; omega⟩

/-- A chain never revisits a node: the list it walks is acyclic. -/
theorem nodup (h : Chain next head l) : l.Nodup := by
  induction h with
  | nil => exact List.nodup_nil
  | @cons b l hb ih =>
    refine List.nodup_cons.2 ⟨fun hmem => ?_, ih⟩
    -- the walk from `b` would be both `b :: l` and a suffix of `l`
    obtain ⟨l', h', hlen⟩ := hb.suffix_of_mem hmem
    have heq : b :: l = l' := (Chain.cons hb).unique h'
    rw [← heq, List.length_cons] at hlen
    omega

variable [DecidableEq α]

/-- Writing the link of a node off the chain leaves the chain as it was. -/
theorem frame (h : Chain next head l) (ha : a ∉ l) (v : Option α) :
    Chain (Function.update next a v) head l := by
  induction h with
  | nil => exact .nil
  | @cons b l _ ih =>
    have hne : b ≠ a := fun hba => ha (hba ▸ List.mem_cons_self)
    refine .cons ?_
    rw [Function.update_of_ne hne]
    exact ih (fun hal => ha (List.mem_cons_of_mem _ hal))

/-- Linking a fresh node in front of the head. -/
theorem push (h : Chain next head l) (ha : a ∉ l) :
    Chain (Function.update next a head) (some a) (a :: l) := by
  refine .cons ?_
  rw [Function.update_self]
  exact h.frame ha head

end Chain

end LinkedChain
