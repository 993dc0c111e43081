import Mathlib.Data.List.Basic

/-!
# Argentum.Lib.CacheScan

The lookup loop of a cache kept on a list: walk the list, return the first entry that `hit`s,
and otherwise remember the last entry that is `free` for reuse, starting from a value `last`
that the caller gives. `scan` returns the hit (`.inl`), or what it remembered (`.inr`).

The lemmas say what each outcome means: a hit is on the list and hits (`scan_inl`); a miss
passed every entry, and what it remembered is the starting value or a free entry
(`scan_inr`); with no free entry the starting value comes back (`scan_of_not_free`), and with
one it cannot (`scan_free`).
-/

namespace CacheScan

variable {α : Type*} (hit free : α → Bool)

/-- The first entry that hits, or the last free entry after `last`. -/
def scan : List α → Option α → α ⊕ Option α
  | [], last => .inr last
  | a :: as, last => if hit a then .inl a else scan as (if free a then some a else last)

variable {hit free} {as : List α} {last u : Option α} {a : α}

/-- A hit is an entry of the list that hits. -/
theorem scan_inl (h : scan hit free as last = .inl a) : a ∈ as ∧ hit a := by
  induction as generalizing last with
  | nil => simp [scan] at h
  | cons x as ih =>
    by_cases hx : hit x
    · rw [scan, if_pos hx, Sum.inl.injEq] at h
      subst h
      exact ⟨by simp, hx⟩
    · rw [scan, if_neg hx] at h
      obtain ⟨ha, hha⟩ := ih h
      exact ⟨by simp [ha], hha⟩

/-- A miss passed every entry, and remembers `last` or a free entry. -/
theorem scan_inr (h : scan hit free as last = .inr u) :
    (∀ x ∈ as, hit x = false) ∧ (u = last ∨ ∃ x ∈ as, u = some x ∧ free x) := by
  induction as generalizing last with
  | nil =>
    rw [scan, Sum.inr.injEq] at h
    exact ⟨by simp, Or.inl h.symm⟩
  | cons x as ih =>
    by_cases hx : hit x
    · rw [scan, if_pos hx] at h
      cases h
    · rw [scan, if_neg hx] at h
      obtain ⟨hmiss, hu⟩ := ih h
      refine ⟨by simpa [hx] using hmiss, ?_⟩
      rcases hu with rfl | ⟨y, hy, rfl, hfy⟩
      · by_cases hf : free x
        · exact Or.inr ⟨x, by simp, by simp [hf], hf⟩
        · exact Or.inl (by simp [hf])
      · exact Or.inr ⟨y, by simp [hy], rfl, hfy⟩

/-- With no entry hitting or free, a scan remembers `last`. -/
theorem scan_of_not_free (hhit : ∀ x ∈ as, hit x = false) (hfree : ∀ x ∈ as, free x = false)
    (last : Option α) : scan hit free as last = .inr last := by
  induction as with
  | nil => rfl
  | cons x as ih =>
    rw [scan, if_neg (by simp [hhit x (by simp)]), if_neg (by simp [hfree x (by simp)])]
    exact ih (fun y hy => hhit y (by simp [hy])) (fun y hy => hfree y (by simp [hy]))

/-- Past a free entry, a miss remembers a free entry, whatever `last` was. -/
theorem scan_free (ha : a ∈ as) (hfa : free a) (h : scan hit free as last = .inr u) :
    ∃ x ∈ as, u = some x ∧ free x := by
  induction as generalizing last with
  | nil => simp at ha
  | cons x as ih =>
    have hx : hit x = false := by
      by_contra hx
      rw [scan, if_pos (by simpa using hx)] at h
      cases h
    rw [scan, if_neg (by simp [hx])] at h
    by_cases has : a ∈ as
    · obtain ⟨y, hy, rfl, hfy⟩ := ih has h
      exact ⟨y, by simp [hy], rfl, hfy⟩
    · have hax : a = x := by simpa [has] using ha
      subst hax
      rw [if_pos hfa] at h
      rcases (scan_inr h).2 with rfl | ⟨y, hy, rfl, hfy⟩
      · exact ⟨a, by simp, rfl, hfa⟩
      · exact ⟨y, by simp [hy], rfl, hfy⟩

end CacheScan
