import Mathlib.Data.List.Basic

/-!
# Argentum.Lib.OptionFold

A loop over a list that can fail at each element is a `List.foldlM` in `Option`. An invariant
that every step keeps holds after the whole loop, when it succeeds (`foldlM_inv`).
-/

namespace OptionFold

variable {α σ : Type*}

theorem foldlM_inv {P : σ → Prop} {f : σ → α → Option σ} {l : List α}
    (hstep : ∀ s a s', a ∈ l → P s → f s a = some s' → P s') :
    ∀ {s s' : σ}, P s → l.foldlM f s = some s' → P s' := by
  induction l with
  | nil =>
    intro s s' hs h
    cases h
    exact hs
  | cons a l ih =>
    intro s s' hs h
    rw [List.foldlM_cons] at h
    obtain ⟨s₁, h₁, h⟩ := Option.bind_eq_some_iff.mp h
    have hs₁ := hstep s a s₁ List.mem_cons_self hs h₁
    exact ih (fun t b t' hb => hstep t b t' (List.mem_cons_of_mem a hb)) hs₁ h

end OptionFold
