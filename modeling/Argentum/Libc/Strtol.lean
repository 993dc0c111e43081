import Mathlib.Data.List.Basic
import Argentum.Lib.Decimal

/-!
# Argentum.Libc.Strtol

`strtol` and `atoi` of the kernel's C library (`kernel/lib/strtol.c`, `kernel/lib/atoi.c`).

`strtol` reads memory from `nptr` on, and may read past the string's NUL; it is modelled on the
list of bytes that can be read from `nptr`, and returns `none` where it would read past them. The
result is the return value and the offset `*endptr` is left at. `unsigned long` and `long` are
32-bit; the accumulator wraps modulo `2^32`.

The loops read one character a pass: the whitespace loop (`strtolSkipSpace`), which
`strchr(" \t\r\n", *s)` also keeps going on a NUL, and the digit loop (`strtolDigits`), which
looks each character up in the first `base` entries of the symbol table. What `strtol` does on a
string therefore follows from what each stage does to a suffix of it (`strtol_cons_nul` is the
NUL case).
-/

namespace Argentum.Libc

/-- `symbols[]` as the source has it: `w` is missing and `f` comes twice, at 15 and at 31. -/
def strtolSymbols : List Char := "0123456789abcdefghijklmnopqrstufvxyz".toList

/-- The `tolower` of `strtol.c`. -/
def strtolTolower (c : Char) : Char :=
  if 'A' ≤ c ∧ c ≤ 'Z' then Char.ofNat (c.toNat + 32) else c

/-- `memchr(symbols, tolower(c), base)`, as the offset of the symbol it finds. -/
def strtolDigit (c : Char) (base : Nat) : Option Nat :=
  (strtolSymbols.take base).idxOf? (strtolTolower c)

/-- `strchr(" \t\r\n", c) != NULL`: `strchr` also finds the NUL that ends `" \t\r\n"`. -/
def strchrSpace (c : Char) : Bool :=
  c == ' ' || c == '\t' || c == '\r' || c == '\n' || c == '\x00'

/-- `LONG_MAX` and `LONG_MIN` of a 32-bit `long`. -/
def longMax : Int := 2147483647
def longMin : Int := -2147483648

/-- `while (strchr(" \t\r\n", *s)) s++;`. -/
def strtolSkipSpace : List Char → Option (List Char)
  | [] => none
  | c :: s => if strchrSpace c then strtolSkipSpace s else some (c :: s)

/-- `if ((*s == '-') || (*s == '+')) negate = (*s++ == '-');` -/
def strtolSign : List Char → Bool × List Char
  | '-' :: s => (true, s)
  | '+' :: s => (false, s)
  | s => (false, s)

/-- The base, from the form of the constant when it is 0, and the prefix skipped: `0x`/`0X`
for 16, the `0` of an octal constant, or an optional `0x` when the base is 16. -/
def strtolBase (base : Nat) (s : List Char) : Option (Nat × List Char) :=
  if base = 0 then
    match s with
    | [] => none
    | ['0'] => none
    | '0' :: c :: s => if c = 'x' ∨ c = 'X' then some (16, s) else some (8, c :: s)
    | s => some (10, s)
  else if base = 16 then
    match s with
    | [] => none
    | ['0'] => none
    | '0' :: c :: s => if c = 'x' ∨ c = 'X' then some (16, s) else some (16, c :: s)
    | s => some (16, s)
  else some (base, s)

/-- The digit loop: `value = value * base + (digit - symbols)`, and `overflow` once the value
came out smaller than it was; after an overflow the digits are still consumed. -/
def strtolDigits (base value : Nat) (overflow : Bool) : List Char → Option (Nat × Bool × List Char)
  | [] => none
  | c :: s =>
    match strtolDigit c base with
    | none => some (value, overflow, c :: s)
    | some d =>
      if overflow then strtolDigits base value true s
      else
        strtolDigits base ((value * base + d) % 4294967296)
          (decide ((value * base + d) % 4294967296 < value)) s

/-- The return value once the digits are read: `LONG_MIN` or `LONG_MAX` on overflow, else the
value with its sign. -/
def strtolResult (negate overflow : Bool) (value : Nat) : Int :=
  if overflow || (if negate then 2147483648 < value else 2147483647 < value) then
    if negate then longMin else longMax
  else if negate then -(value : Int) else value

/-- `strtol(nptr, &end, base)`: the return value and the offset of `end` from `nptr`. A base
out of range returns 0 with `end = nptr`. -/
def strtol (nptr : List Char) (base : Int) : Option (Int × Nat) :=
  if base < 0 ∨ base = 1 ∨ 32 < base then some (0, 0)
  else
    (strtolSkipSpace nptr).bind fun s =>
      (strtolBase base.toNat (strtolSign s).2).bind fun bs =>
        (strtolDigits bs.1 0 false bs.2).map fun r =>
          (strtolResult (strtolSign s).1 r.2.1 r.1, nptr.length - r.2.2.length)

/-- `atoi(nptr)`: `(int) strtol(nptr, NULL, 10)`, `int` and `long` being the same width. -/
def atoi (nptr : List Char) : Option Int := (strtol nptr 10).map Prod.fst

/-! ## One character at a time -/

@[simp] theorem strtolSign_minus (s : List Char) : strtolSign ('-' :: s) = (true, s) := rfl

@[simp] theorem strtolSign_plus (s : List Char) : strtolSign ('+' :: s) = (false, s) := rfl

theorem strtolSign_of_ne {c : Char} (s : List Char) (hm : c ≠ '-') (hp : c ≠ '+') :
    strtolSign (c :: s) = (false, c :: s) := by
  unfold strtolSign
  split <;> simp_all

theorem strtolSkipSpace_of_not {c : Char} (s : List Char) (h : strchrSpace c = false) :
    strtolSkipSpace (c :: s) = some (c :: s) := by
  simp [strtolSkipSpace, h]

theorem strtolDigits_stop {base v : Nat} {o : Bool} {c : Char} (s : List Char)
    (h : strtolDigit c base = none) : strtolDigits base v o (c :: s) = some (v, o, c :: s) := by
  simp [strtolDigits, h]

/-! ## Each stage reads a suffix -/

theorem strtolSkipSpace_length {m s : List Char} (h : strtolSkipSpace m = some s) :
    s.length ≤ m.length := by
  induction m with
  | nil => cases h
  | cons c m ih =>
    simp only [strtolSkipSpace] at h
    split at h
    · have := ih h
      simp only [List.length_cons]
      omega
    · cases h
      exact Nat.le_refl _

theorem strtolSign_length (s : List Char) : (strtolSign s).2.length ≤ s.length := by
  unfold strtolSign
  split <;> simp

theorem strtolBase_length {base : Nat} {s : List Char} {bs : Nat × List Char}
    (h : strtolBase base s = some bs) : bs.2.length ≤ s.length := by
  unfold strtolBase at h
  split at h
  · split at h <;> (try split at h) <;> cases h <;> simp only [List.length_cons] <;> omega
  · split at h
    · split at h <;> (try split at h) <;> cases h <;> simp only [List.length_cons] <;> omega
    · cases h
      exact Nat.le_refl _

theorem strtolDigits_length {base v : Nat} {o : Bool} {s : List Char}
    {r : Nat × Bool × List Char} (h : strtolDigits base v o s = some r) :
    r.2.2.length ≤ s.length := by
  induction s generalizing v o with
  | nil => cases h
  | cons c s ih =>
    simp only [strtolDigits] at h
    split at h
    · cases h
      exact Nat.le_refl _
    · split at h
      · have := ih h
        simp only [List.length_cons]
        omega
      · have := ih h
        simp only [List.length_cons]
        omega

/-- The NUL counts as whitespace: on a string that ends at once, `strtol` reads on into the
bytes after it, and converts whatever number stands there. -/
theorem strtol_cons_nul (m : List Char) {base : Int}
    (hbase : ¬(base < 0 ∨ base = 1 ∨ 32 < base)) :
    strtol ('\x00' :: m) base = (strtol m base).map fun r => (r.1, r.2 + 1) := by
  have hskip : strtolSkipSpace ('\x00' :: m) = strtolSkipSpace m := by
    simp [strtolSkipSpace, strchrSpace]
  unfold strtol
  rw [if_neg hbase, if_neg hbase, hskip]
  cases hs : strtolSkipSpace m with
  | none => rfl
  | some s =>
    simp only [Option.bind_some]
    cases hb : strtolBase base.toNat (strtolSign s).2 with
    | none => rfl
    | some bs =>
      simp only [Option.bind_some]
      cases hd : strtolDigits bs.1 0 false bs.2 with
      | none => rfl
      | some r =>
        -- the digits stop inside `m`, so one more byte in front moves `end` by one
        have h1 := strtolDigits_length hd
        have h2 := strtolBase_length hb
        have h3 := strtolSign_length s
        have h4 := strtolSkipSpace_length hs
        simp only [Option.map_some, List.length_cons, Option.some.injEq, Prod.mk.injEq, true_and]
        omega

/-! ## Decimal numerals

On a decimal numeral whose value fits, each digit loop pass multiplies by ten and adds the digit
without wrapping, so `strtol` computes `Decimal.value`. -/

/-- A decimal digit is a digit of base 10 in the symbol table, and neither whitespace nor a
sign. -/
theorem strtolDigit_digitChar {d : Nat} (h : d < 10) :
    strtolDigit (Nat.digitChar d) 10 = some d ∧ strchrSpace (Nat.digitChar d) = false ∧
      Nat.digitChar d ≠ '-' ∧ Nat.digitChar d ≠ '+' := by
  interval_cases d <;> decide

theorem strtolDigit_of_isDigit {c : Char} (h : c.isDigit = true) :
    strtolDigit c 10 = some (Decimal.digitValue c) ∧ strchrSpace c = false ∧ c ≠ '-' ∧ c ≠ '+' := by
  have hc := strtolDigit_digitChar (Decimal.digitValue_lt h)
  rwa [Decimal.digitChar_digitValue h] at hc

/-- The digit loop over decimal digits whose value stays below `2^32`. -/
theorem strtolDigits_decimal {s : List Char} (hs : ∀ c ∈ s, c.isDigit = true) (v : Nat)
    (hv : Decimal.valueFrom v s < 4294967296) (t : List Char) :
    strtolDigits 10 v false (s ++ t) = strtolDigits 10 (Decimal.valueFrom v s) false t := by
  induction s generalizing v with
  | nil => rfl
  | cons c s ih =>
    have hc := (strtolDigit_of_isDigit (hs c (by simp))).1
    rw [Decimal.valueFrom_cons] at hv ⊢
    -- the new value is below the final one, so it neither wraps nor drops below `v`
    have hle := Decimal.le_valueFrom (v * 10 + Decimal.digitValue c) s
    have hmod : (v * 10 + Decimal.digitValue c) % 4294967296 = v * 10 + Decimal.digitValue c :=
      Nat.mod_eq_of_lt (by omega)
    have hnot : decide (v * 10 + Decimal.digitValue c < v) = false := by simp; omega
    simp only [List.cons_append, strtolDigits, hc, Bool.false_eq_true, if_false, hmod, hnot]
    exact ih (fun a ha => hs a (by simp [ha])) _ hv

/-- `strtol(s, &end, 10)` on a decimal numeral that fits in a `long`, followed by a character
that is no digit: the value of the numeral, with `end` just past it. -/
theorem strtol_decimal {s : List Char} (hs : Decimal.IsNumeral s)
    (hmax : Decimal.value s ≤ 2147483647) {c : Char} (hc : strtolDigit c 10 = none)
    (t : List Char) : strtol (s ++ c :: t) 10 = some ((Decimal.value s : Int), s.length) := by
  obtain ⟨d, s', rfl⟩ := List.exists_cons_of_ne_nil hs.1
  obtain ⟨-, hsp, hm, hp⟩ := strtolDigit_of_isDigit (hs.2 d (by simp))
  have hv : Decimal.valueFrom (Decimal.digitValue d) s' ≤ 2147483647 := by
    simpa [Decimal.value] using hmax
  have hdig := strtolDigits_decimal hs.2 0 (by simp; omega) (c :: t)
  rw [strtolDigits_stop _ hc, List.cons_append] at hdig
  simp [strtol, strtolSkipSpace_of_not _ hsp, strtolSign_of_ne _ hm hp, strtolBase, hdig,
    strtolResult, Decimal.value, show ¬2147483647 < Decimal.valueFrom (Decimal.digitValue d) s' by
      omega]
  omega

/-- `atoi` on a decimal numeral that fits in an `int`. -/
theorem atoi_decimal {s : List Char} (hs : Decimal.IsNumeral s)
    (hmax : Decimal.value s ≤ 2147483647) {c : Char} (hc : strtolDigit c 10 = none)
    (t : List Char) : atoi (s ++ c :: t) = some (Decimal.value s : Int) := by
  simp [atoi, strtol_decimal hs hmax hc t]

/-- Where `strtol` departs from C: the symbol table has no `w`, so `v`, digit 31, is no digit in
base 32; after `0x` with no hex digit the `0` is not backed off to; after a lone sign `end` is
not put back to `nptr`; the NUL of an empty string is skipped as whitespace, and what follows it
is read; and an overflow that wraps the accumulator past its old value is missed. -/
theorem strtol_departs_from_spec :
    (∀ rest : List Char, strtol ('v' :: rest) 32 = some (0, 0)) ∧
    (∀ (c : Char) (rest : List Char), strtolDigit c 16 = none →
      strtol ('0' :: 'x' :: c :: rest) 16 = some (0, 2)) ∧
    (∀ (c : Char) (rest : List Char), strtolDigit c 10 = none →
      strtol ('-' :: c :: rest) 10 = some (0, 1)) ∧
    (∀ (m : List Char) (base : Int), 0 ≤ base → base ≠ 1 → base ≤ 32 →
      strtol ('\x00' :: m) base = (strtol m base).map fun r => (r.1, r.2 + 1)) ∧
    strtol ("4772185890".toList ++ ['\x00']) 10 = some (477218594, 10) := by
  refine ⟨?_, ?_, ?_, ?_, by decide⟩
  · intro rest
    have hv : strtolDigit 'v' 32 = none := by decide
    simp [strtol, strtolSkipSpace_of_not _ (show strchrSpace 'v' = false by decide),
      strtolSign_of_ne _ (show 'v' ≠ '-' by decide) (show 'v' ≠ '+' by decide), strtolBase,
      strtolDigits_stop _ hv, strtolResult]
  · intro c rest hc
    simp [strtol, strtolSkipSpace_of_not _ (show strchrSpace '0' = false by decide),
      strtolSign_of_ne _ (show '0' ≠ '-' by decide) (show '0' ≠ '+' by decide), strtolBase,
      strtolDigits_stop _ hc, strtolResult]
  · intro c rest hc
    simp [strtol, strtolSkipSpace_of_not _ (show strchrSpace '-' = false by decide), strtolBase,
      strtolDigits_stop _ hc, strtolResult]
  · intro m base h0 h1 h32
    exact strtol_cons_nul m (by omega)

end Argentum.Libc
