import Mathlib.Tactic.IntervalCases
import Mathlib.Data.List.Basic
import Mathlib.Data.List.Induction

/-!
# Argentum.Lib.Decimal

Decimal digit strings. A parser reads a digit `c` as `c - '0'` (`digitValue`) and folds the
digits of a string left to right with `v * 10 + d` (`valueFrom`, `value`). The digits of `n`
(`Nat.toDigits 10 n`, what a `%d` prints) read back as `n` (`value_toDigits`), and a digit
string without a leading zero is the digits of the number it reads as (`toDigits_value`). A
longer string reads as at least as much (`le_valueFrom`), which is what makes a running bound
on the value the same test as a bound on the final value.
-/

namespace Decimal

/-- `c - '0'`. -/
def digitValue (c : Char) : Nat := c.toNat - '0'.toNat

/-- The digits of `s` read after the value `v`. -/
def valueFrom (v : Nat) (s : List Char) : Nat := s.foldl (fun v c => v * 10 + digitValue c) v

/-- The number `s` reads as. -/
def value (s : List Char) : Nat := valueFrom 0 s

/-- A decimal numeral: one digit or more. -/
def IsNumeral (s : List Char) : Prop := s ≠ [] ∧ ∀ c ∈ s, c.isDigit = true

/-- Either `0` or not starting with `0`. -/
def NoLeadingZero (s : List Char) : Prop := s = ['0'] ∨ s.head? ≠ some '0'

@[simp] theorem valueFrom_nil (v : Nat) : valueFrom v [] = v := rfl

@[simp] theorem valueFrom_cons (v : Nat) (c : Char) (s : List Char) :
    valueFrom v (c :: s) = valueFrom (v * 10 + digitValue c) s :=
  List.foldl_cons

theorem valueFrom_append (v : Nat) (s t : List Char) :
    valueFrom v (s ++ t) = valueFrom (valueFrom v s) t := by
  simp [valueFrom, List.foldl_append]

theorem value_append_singleton (s : List Char) (c : Char) :
    value (s ++ [c]) = value s * 10 + digitValue c := by
  rw [value, valueFrom_append]
  rfl

theorem le_valueFrom (v : Nat) (s : List Char) : v ≤ valueFrom v s := by
  induction s generalizing v with
  | nil => exact le_refl v
  | cons c s ih =>
    rw [valueFrom_cons]
    have := ih (v * 10 + digitValue c)
    omega

theorem isDigit_iff {c : Char} : c.isDigit = true ↔ 48 ≤ c.toNat ∧ c.toNat ≤ 57 := by
  simp only [Char.isDigit, Bool.and_eq_true, decide_eq_true_eq]
  exact Iff.rfl

theorem digitValue_lt {c : Char} (h : c.isDigit = true) : digitValue c < 10 := by
  have := isDigit_iff.mp h
  have h0 : ('0' : Char).toNat = 48 := rfl
  unfold digitValue
  omega

theorem digitValue_digitChar {d : Nat} (h : d < 10) : digitValue (Nat.digitChar d) = d := by
  interval_cases d <;> rfl

theorem digitChar_digitValue {c : Char} (h : c.isDigit = true) :
    Nat.digitChar (digitValue c) = c := by
  obtain ⟨h1, h2⟩ := isDigit_iff.mp h
  apply Char.toNat_inj.mp
  unfold digitValue
  generalize hn : c.toNat = n at *
  interval_cases n <;> rfl

theorem isDigit_of_mem_toDigits {n : Nat} {c : Char} (h : c ∈ Nat.toDigits 10 n) :
    c.isDigit = true := by
  induction n using Nat.strong_induction_on with
  | _ n ih =>
    rw [Nat.toDigits_eq_if (by decide)] at h
    split at h
    · rw [List.mem_singleton.mp h, Nat.isDigit_digitChar]
      simpa using ‹n < 10›
    · rcases List.mem_append.mp h with h | h
      · exact ih (n / 10) (by omega) h
      · rw [List.mem_singleton.mp h, Nat.isDigit_digitChar]
        simpa using Nat.mod_lt n (by decide : 10 > 0)

theorem isNumeral_toDigits (n : Nat) : IsNumeral (Nat.toDigits 10 n) :=
  ⟨Nat.toDigits_ne_nil, fun _ => isDigit_of_mem_toDigits⟩

/-- The digits of `n` read back as `n`. -/
theorem value_toDigits (n : Nat) : value (Nat.toDigits 10 n) = n := by
  induction n using Nat.strong_induction_on with
  | _ n ih =>
    rw [Nat.toDigits_eq_if (by decide)]
    split
    · simp [value, digitValue_digitChar ‹n < 10›]
    · rw [value_append_singleton, ih (n / 10) (by omega),
        digitValue_digitChar (Nat.mod_lt n (by decide))]
      omega

theorem head_toDigits_ne_zero {n : Nat} (hn : 0 < n) : (Nat.toDigits 10 n).head? ≠ some '0' := by
  induction n using Nat.strong_induction_on with
  | _ n ih =>
    rw [Nat.toDigits_eq_if (by decide)]
    split
    · -- one digit, from 1 to 9
      intro h
      have hd := congrArg digitValue (Option.some.inj h)
      rw [digitValue_digitChar ‹n < 10›] at hd
      have h0 : digitValue '0' = 0 := rfl
      omega
    · rw [List.head?_append_of_ne_nil _ Nat.toDigits_ne_nil]
      exact ih (n / 10) (by omega) (by omega)

/-- A numeral without a leading zero is the digits of the number it reads as. -/
theorem toDigits_value {s : List Char} (hs : IsNumeral s) (hz : NoLeadingZero s) :
    Nat.toDigits 10 (value s) = s := by
  induction s using List.reverseRecOn with
  | nil => exact absurd rfl hs.1
  | append_singleton s c ih =>
    have hc : c.isDigit = true := hs.2 c (by simp)
    have hlt := digitValue_lt hc
    rw [value_append_singleton]
    rcases eq_or_ne s [] with rfl | hne
    · -- one digit
      rw [show value [] = 0 from rfl, Nat.zero_mul, Nat.zero_add, Nat.toDigits_of_lt_base hlt,
        digitChar_digitValue hc]
      rfl
    · -- the digits before the last have no leading zero either, and do not read as 0
      have hhead : s.head? ≠ some '0' := by
        rcases hz with h | h
        · obtain ⟨a, rfl⟩ : ∃ a, s = [a] := by
            rcases s with _ | ⟨a, _ | ⟨b, t⟩⟩
            · exact absurd rfl hne
            · exact ⟨a, rfl⟩
            · simp at h
          simp at h
        · rwa [List.head?_append_of_ne_nil _ hne] at h
      have hs' : IsNumeral s := ⟨hne, fun a ha => hs.2 a (by simp [ha])⟩
      have ih' := ih hs' (.inr hhead)
      have hpos : 0 < value s := by
        rcases Nat.eq_zero_or_pos (value s) with h0 | h
        · rw [h0] at ih'
          rw [← ih'] at hhead
          exact absurd rfl hhead
        · exact h
      rw [Nat.mul_comm, ← Nat.toDigits_append_toDigits (by decide) hpos hlt, ih',
        Nat.toDigits_of_lt_base hlt, digitChar_digitValue hc]

end Decimal
