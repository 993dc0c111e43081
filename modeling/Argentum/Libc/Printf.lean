import Mathlib.Data.List.Basic
import Argentum.Lib.Decimal
import Argentum.Libc.Strtol

/-!
# Argentum.Libc.Printf

`__printf`, the formatter under the kernel's `printf` family (`kernel/lib/__printf.c`), and
`vsnprintf`/`snprintf` over it (`kernel/lib/snprintf.c`).

The format is the list of bytes that can be read from `format` on; like `strtol`, the model
returns `none` where the code would read past them. The arguments are the `va_list` as the
caller passed it (`PrintfArg`); a `va_arg` of a type the argument does not have is undefined
behaviour, where the model stops with `none` too. The floating-point conversions and `%n` are
not modelled (`none`).

The format loop is split as the source is: one pass (`printfPass`) prints a run of literal
characters, parses one conversion specification (`printfSpec`) and prints the conversion
(`printfConversion`, `printInt`, `printStr`); `printfLoop` runs passes until the NUL. What a
pass prints does not depend on the output function (only `%n` would read the count), so
`__printf` is the output list handed character by character to `print_char`, and what the
output function does with it is a fold (`printChar`). `vsnprintf`'s output function `putch`
stores while `idx < n - 1`, computed in a 32-bit `size_t`.

Widths and precisions are read as unbounded integers: their parse overflows `int` only past
`2^31`, where the C code's behaviour is undefined.
-/

namespace Argentum.Libc

/-! ## Arguments -/

/-- A variadic argument as the caller passed it: an integer (a pointer as its address), or a
`char *` to a string (its bytes before the NUL), `none` being `NULL`. -/
inductive PrintfArg where
  | int (v : Int)
  | str (s : Option (List Char))
deriving DecidableEq, Repr

/-- An integer converted to the signed type of `bits` bits. -/
def toSigned (bits : Nat) (v : Int) : Int := (v + 2 ^ (bits - 1)) % 2 ^ bits - 2 ^ (bits - 1)

/-- `va_arg(ap, T)` for an integer type `T` of `bits` bits, signed or not. -/
def vaArgInt (bits : Nat) (signed : Bool) : List PrintfArg → Option (Int × List PrintfArg)
  | .int v :: ap => some (if signed then toSigned bits v else v % 2 ^ bits, ap)
  | _ => none

/-- `get_int_arg`: `long long`, `long`, `int`, then `(short)` and `(signed char)` of an
`int`, by the length modifier's count. -/
def getIntArg (ap : List PrintfArg) (length : Int) : Option (Int × List PrintfArg) :=
  if length > 1 then vaArgInt 64 true ap
  else if length = 1 then vaArgInt 32 true ap
  else if length = 0 then vaArgInt 32 true ap
  else if length = -1 then (vaArgInt 32 true ap).map fun r => (toSigned 16 r.1, r.2)
  else (vaArgInt 32 true ap).map fun r => (toSigned 8 r.1, r.2)

/-- `get_uint_arg`: the unsigned types of `get_int_arg`. -/
def getUintArg (ap : List PrintfArg) (length : Int) : Option (Int × List PrintfArg) :=
  if length > 1 then vaArgInt 64 false ap
  else if length = 1 then vaArgInt 32 false ap
  else if length = 0 then vaArgInt 32 false ap
  else if length = -1 then (vaArgInt 32 false ap).map fun r => (r.1 % 2 ^ 16, r.2)
  else (vaArgInt 32 false ap).map fun r => (r.1 % 2 ^ 8, r.2)

/-! ## The conversion specification -/

/-- `FLAG_LEFT`, `FLAG_SIGN`, `FLAG_BLANK`, `FLAG_ALT` and `FLAG_ZERO`. -/
structure PrintfFlags where
  left : Bool
  sign : Bool
  blank : Bool
  alt : Bool
  zero : Bool
deriving DecidableEq, Repr

/-- `pft.flags = 0`. -/
def PrintfFlags.none : PrintfFlags := ⟨false, false, false, false, false⟩

/-- The fields of `struct pft` a conversion reads. -/
structure Pft where
  flags : PrintfFlags
  width : Int
  precision : Int
  length : Int
  conversion : Char
deriving DecidableEq, Repr

/-- `strchr("-+ #0", c)` and the `switch` on it: the flag `c` sets. `strchr` also finds the
NUL that ends `"-+ #0"`, which sets no flag but keeps the loop going. -/
def printfFlag (c : Char) (flags : PrintfFlags) : Option PrintfFlags :=
  if c = '-' then some { flags with left := true }
  else if c = '+' then some { flags with sign := true }
  else if c = ' ' then some { flags with blank := true }
  else if c = '#' then some { flags with alt := true }
  else if c = '0' then some { flags with zero := true }
  else if c = '\x00' then some flags
  else none

/-- `while (strchr("-+ #0", *format)) switch (*format++) ...` -/
def printfFlags (flags : PrintfFlags) : List Char → Option (PrintfFlags × List Char)
  | [] => none
  | c :: s =>
    match printfFlag c flags with
    | some flags => printfFlags flags s
    | none => some (flags, c :: s)

/-- The digits of a width or a precision: `w = w * 10 + (*format - '0')`. -/
def printfNumber (w : Int) : List Char → Option (Int × List Char)
  | [] => none
  | c :: s =>
    if '0' ≤ c ∧ c ≤ '9' then printfNumber (w * 10 + (c.toNat - 48 : Nat)) s else some (w, c :: s)

/-- The length modifier: `pft.length--` for each `h`, `++` for each `l`. -/
def printfLength (length : Int) : List Char → Option (Int × List Char)
  | [] => none
  | c :: s =>
    if c = 'h' then printfLength (length - 1) s
    else if c = 'l' then printfLength (length + 1) s
    else some (length, c :: s)

/-- How the parse of a conversion specification ends: the specification, with the format
after its conversion character and the arguments left, or the `break` that a negative `*`
width takes out of the format loop. -/
inductive SpecResult where
  | spec (pft : Pft) (format : List Char) (ap : List PrintfArg)
  | negativeWidth
deriving DecidableEq, Repr

/-- The length modifier and the conversion character, after the precision. -/
def printfSpecTail (flags : PrintfFlags) (width precision : Int) (s : List Char)
    (ap : List PrintfArg) : Option SpecResult := do
  let (length, s) ← printfLength 0 s
  match s with
  | [] => none
  | c :: s => some (.spec ⟨flags, width, precision, length, c⟩ s ap)

/-- The precision: `.` then `*` (an `int` argument) or digits (none read as 0). -/
def printfPrecision (flags : PrintfFlags) (width : Int) (s : List Char) (ap : List PrintfArg) :
    Option SpecResult :=
  match s with
  | [] => none
  | '.' :: s =>
    match s with
    | [] => none
    | '*' :: s => do
      let (precision, ap) ← vaArgInt 32 true ap
      printfSpecTail flags width precision s ap
    | s => do
      let (precision, s) ← printfNumber 0 s
      printfSpecTail flags width precision s ap
  | s => printfSpecTail flags width (-1) s ap

/-- The specification after a `%`: flags, then the width, `*` (an `unsigned` argument stored
in the `int` field) or digits. -/
def printfSpec (s : List Char) (ap : List PrintfArg) : Option SpecResult := do
  let (flags, s) ← printfFlags PrintfFlags.none s
  match s with
  | [] => none
  | '*' :: s => do
    let (w, ap) ← vaArgInt 32 false ap
    -- `if (pft.width < 0) { ...; break; }`: the `break` leaves the format loop
    if toSigned 32 w < 0 then some .negativeWidth
    else printfPrecision flags (toSigned 32 w) s ap
  | c :: s =>
    if '0' ≤ c ∧ c ≤ '9' then do
      let (width, s) ← printfNumber 0 (c :: s)
      printfPrecision flags width s ap
    else printfPrecision flags (-1) (c :: s) ap

/-! ## Printing a conversion -/

/-- `symbols` of `print_int`. -/
def printSymbols (upper : Bool) : List Char :=
  if upper then "0123456789ABCDEF".toList else "0123456789abcdef".toList

/-- The digit loop `do digits[ndigits++] = symbols[abs_num % base]; while ((abs_num /= base)
!= 0)`: the digits of `n`, least significant first, one digit for 0. The loop runs with `base`
8, 10 or 16; the guard `base ≤ 1` only makes the definition total. -/
def convDigits (base n : Nat) : List Nat :=
  if _hstop : base ≤ 1 ∨ n / base = 0 then [n % base] else n % base :: convDigits base (n / base)
termination_by n
decreasing_by
  have hn : 0 < n := Nat.pos_of_ne_zero (by rintro rfl; simp at _hstop)
  exact Nat.div_lt_self hn (by omega)

/-- `base` of `print_int`. -/
def intBase (conversion : Char) : Nat :=
  if conversion = 'o' ∨ conversion = 'O' then 8
  else if conversion = 'x' ∨ conversion = 'X' ∨ conversion = 'p' then 16 else 10

/-- `upper` of `print_int`. -/
def intUpper (conversion : Char) : Bool := conversion == 'O' || conversion == 'X'

/-- `sign && (num < 0)`: a signed conversion of a negative number. -/
def intNegative (conversion : Char) (num : Int) : Bool :=
  (conversion == 'd' || conversion == 'i') && decide (num < 0)

/-- `abs_num`, an `unsigned long long`: `num`, negated for a negative signed conversion. -/
def intAbs (conversion : Char) (num : Int) : Nat :=
  ((if intNegative conversion num then -num else num) % 2 ^ 64).toNat

/-- `prefix[]` as it is stored, in reverse order: the alternate form's `0` or `0x`, then the
sign. -/
def intPrefixRev (pft : Pft) (num : Int) : List Char :=
  let altRev := if pft.flags.alt then
      (if intBase pft.conversion = 8 then ['0']
      else if intBase pft.conversion = 16 then [if intUpper pft.conversion then 'X' else 'x', '0']
      else [])
    else []
  let signRev := if intNegative pft.conversion num then ['-'] else if pft.flags.sign then ['+']
    else if pft.flags.blank then [' '] else []
  altRev ++ signRev

/-- `digits[]` as it is stored, least significant first. -/
def intDigitsRev (pft : Pft) (num : Int) : List Char :=
  (convDigits (intBase pft.conversion) (intAbs pft.conversion num)).map fun d =>
    (printSymbols (intUpper pft.conversion)).getD d '0'

/-- `nzeros` and `nblanks`, from `nprefix` and `ndigits`: zeros up to the precision, then the
field filled to its width, with zeros under the flag `0` without `-`, else with blanks. -/
def intPadding (pft : Pft) (prefixLen ndigits : Int) : Int × Int :=
  let nzeros : Int := if pft.precision > ndigits then pft.precision - ndigits else 0
  if pft.width > prefixLen + nzeros + ndigits then
    if pft.flags.zero && !pft.flags.left then (pft.width - (prefixLen + ndigits), 0)
    else (nzeros, pft.width - (prefixLen + nzeros + ndigits))
  else (nzeros, 0)

/-- `print_int(pft, num)`: the characters it hands to `print_char`. `prefix` and `digits` are
printed from the end. -/
def printInt (pft : Pft) (num : Int) : List Char :=
  let prefixRev := intPrefixRev pft num
  let digitsRev := intDigitsRev pft num
  let pad := intPadding pft prefixRev.length digitsRev.length
  (if pft.flags.left then [] else List.replicate pad.2.toNat ' ') ++ prefixRev.reverse ++
    List.replicate pad.1.toNat '0' ++ digitsRev.reverse ++
    (if pft.flags.left then List.replicate pad.2.toNat ' ' else [])

/-- `print_str(pft, s)`: a precision cuts the string only when it is positive. -/
def printStr (pft : Pft) (s : List Char) : List Char :=
  let n : Int := if pft.precision > 0 ∧ pft.precision < s.length then pft.precision else s.length
  let padding : Int := if pft.width > n then pft.width - n else 0
  if pft.flags.left then s.take n.toNat ++ List.replicate padding.toNat ' '
  else List.replicate padding.toNat ' ' ++ s.take n.toNat

/-- What the conversion of a pass does. -/
inductive ConvResult where
  | printed (out : List Char) (ap : List PrintfArg)
  | unknown
deriving DecidableEq, Repr

/-- The `switch (pft.conversion)` of `__printf`. -/
def printfConversion (pft : Pft) (ap : List PrintfArg) : Option ConvResult :=
  match pft.conversion with
  | 'd' | 'i' => (getIntArg ap pft.length).map fun r => .printed (printInt pft r.1) r.2
  | 'u' | 'o' | 'O' | 'x' | 'X' =>
    -- `num = get_uint_arg(...)` stores the unsigned value in a `long long`
    (getUintArg ap pft.length).map fun r => .printed (printInt pft (toSigned 64 r.1)) r.2
  | 'p' =>
    (vaArgInt 32 false ap).map fun r =>
      let flags := { pft.flags with zero := true, alt := true }
      .printed (printInt { pft with width := 10, flags := flags } r.1) r.2
  | 'c' => (vaArgInt 32 true ap).map fun r => .printed [Char.ofNat (r.1 % 256).toNat] r.2
  | 's' =>
    match ap with
    | .str s :: ap => some (.printed (printStr pft (s.getD "(null)".toList)) ap)
    | _ => none
  | '%' => some (.printed ['%'] ap)
  | 'f' | 'F' | 'a' | 'A' | 'n' => none
  | _ => some .unknown

/-! ## The format loop -/

/-- `while ((*format != '\0') && (*format != '%')) print_char(&pft, *format++);` -/
def printfLiteral : List Char → Option (List Char × List Char)
  | [] => none
  | c :: s =>
    if c = '\x00' ∨ c = '%' then some ([], c :: s)
    else (printfLiteral s).map fun r => (c :: r.1, r.2)

/-- How one pass of the format loop ends: what it printed, and the format and arguments the
next pass starts from, or the `break` out of the loop. -/
inductive PrintfStep where
  | next (out : List Char) (format : List Char) (ap : List PrintfArg)
  | stop (out : List Char)
deriving DecidableEq, Repr

/-- One pass of the format loop. An unknown conversion character sends `format` back to its
`%` (no character between the two is a `%`) and on past it, so the specification is then
printed as literal text. -/
def printfPass (format : List Char) (ap : List PrintfArg) : Option PrintfStep :=
  match printfLiteral format with
  | none => none
  | some (lit, rest) =>
    -- `if (*format == '\0') break;`, and otherwise `format++` past the `%`
    if rest.head? = some '\x00' then some (.stop lit)
    else
      match printfSpec rest.tail ap with
      | none => none
      | some .negativeWidth => some (.stop lit)
      | some (.spec pft f ap') =>
        match printfConversion pft ap' with
        | none => none
        | some (.printed out ap'') => some (.next (lit ++ out) f ap'')
        | some .unknown => some (.next lit rest.tail ap')

/-! ### Each stage reads a suffix -/

theorem printfLiteral_length {format lit rest : List Char}
    (h : printfLiteral format = some (lit, rest)) : rest.length ≤ format.length := by
  induction format generalizing lit with
  | nil => cases h
  | cons c s ih =>
    simp only [printfLiteral] at h
    split at h
    · cases h
      exact Nat.le_refl _
    · obtain ⟨r, hr, hrest⟩ := Option.map_eq_some_iff.mp h
      cases hrest
      have := ih hr
      simp only [List.length_cons]
      omega

/-- The literal loop stops at a NUL or a `%`. -/
theorem printfLiteral_stop {format lit rest : List Char}
    (h : printfLiteral format = some (lit, rest)) :
    ∃ c s, rest = c :: s ∧ (c = '\x00' ∨ c = '%') := by
  induction format generalizing lit with
  | nil => cases h
  | cons c s ih =>
    simp only [printfLiteral] at h
    split at h
    · cases h
      exact ⟨c, s, rfl, ‹_›⟩
    · obtain ⟨r, hr, hrest⟩ := Option.map_eq_some_iff.mp h
      cases hrest
      exact ih hr

theorem printfFlags_length {flags flags' : PrintfFlags} {s s' : List Char}
    (h : printfFlags flags s = some (flags', s')) : s'.length ≤ s.length := by
  induction s generalizing flags with
  | nil => cases h
  | cons c s ih =>
    simp only [printfFlags] at h
    split at h
    · have := ih h
      simp only [List.length_cons]
      omega
    · cases h
      exact Nat.le_refl _

theorem printfNumber_length {w w' : Int} {s s' : List Char}
    (h : printfNumber w s = some (w', s')) : s'.length ≤ s.length := by
  induction s generalizing w with
  | nil => cases h
  | cons c s ih =>
    simp only [printfNumber] at h
    split at h
    · have := ih h
      simp only [List.length_cons]
      omega
    · cases h
      exact Nat.le_refl _

theorem printfLength_length {l l' : Int} {s s' : List Char}
    (h : printfLength l s = some (l', s')) : s'.length ≤ s.length := by
  induction s generalizing l with
  | nil => cases h
  | cons c s ih =>
    simp only [printfLength] at h
    split at h
    · have := ih h
      simp only [List.length_cons]
      omega
    · split at h
      · have := ih h
        simp only [List.length_cons]
        omega
      · cases h
        exact Nat.le_refl _

/-- The conversion character is read, so a specification is at least one character. -/
theorem printfSpecTail_length {flags : PrintfFlags} {w p : Int} {s f : List Char}
    {ap ap' : List PrintfArg} {pft : Pft}
    (h : printfSpecTail flags w p s ap = some (.spec pft f ap')) : f.length < s.length := by
  simp only [printfSpecTail, Option.bind_eq_bind] at h
  obtain ⟨⟨l, s'⟩, hl, h⟩ := Option.bind_eq_some_iff.mp h
  have hr := printfLength_length hl
  dsimp only at h
  split at h
  · cases h
  · cases h
    simp only [List.length_cons] at hr
    omega

theorem printfPrecision_length {flags : PrintfFlags} {w : Int} {s f : List Char}
    {ap ap' : List PrintfArg} {pft : Pft}
    (h : printfPrecision flags w s ap = some (.spec pft f ap')) : f.length < s.length := by
  unfold printfPrecision at h
  split at h
  · cases h
  · split at h
    · cases h
    · -- `.*`
      simp only [Option.bind_eq_bind] at h
      obtain ⟨_, -, h⟩ := Option.bind_eq_some_iff.mp h
      have := printfSpecTail_length h
      simp only [List.length_cons]
      omega
    · -- `.` and digits
      simp only [Option.bind_eq_bind] at h
      obtain ⟨⟨_, s'⟩, hn, h⟩ := Option.bind_eq_some_iff.mp h
      dsimp only at h
      have := printfNumber_length hn
      have := printfSpecTail_length h
      simp only [List.length_cons]
      omega
  · exact printfSpecTail_length h

theorem printfSpec_length {s f : List Char} {ap ap' : List PrintfArg} {pft : Pft}
    (h : printfSpec s ap = some (.spec pft f ap')) : f.length < s.length := by
  simp only [printfSpec, Option.bind_eq_bind] at h
  obtain ⟨⟨_, s'⟩, hf, h⟩ := Option.bind_eq_some_iff.mp h
  have hr := printfFlags_length hf
  dsimp only at h
  split at h
  · cases h
  · -- `*`
    obtain ⟨_, -, h⟩ := Option.bind_eq_some_iff.mp h
    split at h
    · cases h
    · have := printfPrecision_length h
      simp only [List.length_cons] at hr
      omega
  · split at h
    · obtain ⟨⟨_, s''⟩, hn, h⟩ := Option.bind_eq_some_iff.mp h
      dsimp only at h
      have := printfNumber_length hn
      have := printfPrecision_length h
      omega
    · have := printfPrecision_length h
      omega

/-- A pass that goes on consumes at least the `%`. -/
theorem printfPass_length {format f : List Char} {ap ap' : List PrintfArg} {out : List Char}
    (h : printfPass format ap = some (.next out f ap')) : f.length < format.length := by
  unfold printfPass at h
  split at h
  · cases h
  · rename_i lit rest hlit
    obtain ⟨c, s, rfl, -⟩ := printfLiteral_stop hlit
    have hl := printfLiteral_length hlit
    simp only [List.length_cons, List.tail_cons] at hl h
    split at h
    · cases h
    · split at h
      · cases h
      · cases h
      · rename_i pft f' ap₁ hspec
        have := printfSpec_length hspec
        split at h
        · cases h
        · cases h
          omega
        · cases h
          omega

/-- The format loop, `while (*format != '\0')`: passes until the NUL or a `break`. -/
def printfLoop (format : List Char) (ap : List PrintfArg) : Option (List Char) :=
  match format with
  | [] => none
  | c :: f =>
    if c = '\x00' then some []
    else
      match _hpass : printfPass (c :: f) ap with
      | none => none
      | some (.stop out) => some out
      | some (.next out format' ap') => (printfLoop format' ap').map (out ++ ·)
termination_by format.length
decreasing_by exact printfPass_length _hpass

/-! ### One pass, then the rest of the run -/

theorem printfLoop_nil (ap : List PrintfArg) : printfLoop [] ap = none := by
  rw [printfLoop]

theorem printfLoop_nul (m : List Char) (ap : List PrintfArg) :
    printfLoop ('\x00' :: m) ap = some [] := by
  rw [printfLoop, if_pos rfl]

theorem printfLoop_next {c : Char} {f f' out : List Char} {ap ap' : List PrintfArg}
    (hc : c ≠ '\x00') (h : printfPass (c :: f) ap = some (.next out f' ap')) :
    printfLoop (c :: f) ap = (printfLoop f' ap').map (out ++ ·) := by
  rw [printfLoop, if_neg hc]
  split <;> simp_all

theorem printfLoop_stop {c : Char} {f out : List Char} {ap : List PrintfArg}
    (hc : c ≠ '\x00') (h : printfPass (c :: f) ap = some (.stop out)) :
    printfLoop (c :: f) ap = some out := by
  rw [printfLoop, if_neg hc]
  split <;> simp_all

theorem printfLoop_none {c : Char} {f : List Char} {ap : List PrintfArg}
    (hc : c ≠ '\x00') (h : printfPass (c :: f) ap = none) : printfLoop (c :: f) ap = none := by
  rw [printfLoop, if_neg hc]
  split <;> simp_all

/-- A pass with `c` printed first. -/
def PrintfStep.prepend (c : Char) : PrintfStep → PrintfStep
  | .next out f ap => .next (c :: out) f ap
  | .stop out => .stop (c :: out)

theorem printfLiteral_cons {c : Char} (f : List Char) (hn : c ≠ '\x00') (hp : c ≠ '%') :
    printfLiteral (c :: f) = (printfLiteral f).map fun r => (c :: r.1, r.2) := by
  simp [printfLiteral, hn, hp]

/-- A literal character in front of a pass is printed first. -/
theorem printfPass_cons {c : Char} (f : List Char) (ap : List PrintfArg) (hn : c ≠ '\x00')
    (hp : c ≠ '%') : printfPass (c :: f) ap = (printfPass f ap).map (PrintfStep.prepend c) := by
  unfold printfPass
  rw [printfLiteral_cons f hn hp]
  cases printfLiteral f with
  | none => rfl
  | some r =>
    obtain ⟨lit, rest⟩ := r
    simp only [Option.map_some]
    -- both passes go on from the same `rest`, through the same specification and conversion;
    -- only the literal text in front differs
    by_cases hstop : rest.head? = some '\x00'
    · rw [if_pos hstop, if_pos hstop]
      rfl
    · rw [if_neg hstop, if_neg hstop]
      cases printfSpec rest.tail ap with
      | none => rfl
      | some sr =>
        cases sr with
        | negativeWidth => rfl
        | spec pft f' ap' =>
          simp only
          cases printfConversion pft ap' with
          | none => rfl
          | some cr => cases cr <;> rfl

/-- A literal character in front of the format is printed first. -/
theorem printfLoop_cons {c : Char} (f : List Char) (ap : List PrintfArg) (hn : c ≠ '\x00')
    (hp : c ≠ '%') : printfLoop (c :: f) ap = (printfLoop f ap).map (c :: ·) := by
  have hpass := printfPass_cons f ap hn hp
  cases f with
  | nil =>
    rw [printfLoop_none hn (by simp [printfPass, printfLiteral, hn, hp]), printfLoop_nil]
    rfl
  | cons d f =>
    by_cases hd : d = '\x00'
    · -- `c` and then the end of the format
      subst hd
      have h : printfPass (c :: '\x00' :: f) ap = some (.stop [c]) := by
        rw [hpass]
        simp [printfPass, printfLiteral, PrintfStep.prepend]
      rw [printfLoop_stop hn h, printfLoop_nul]
      rfl
    · cases hd' : printfPass (d :: f) ap with
      | none =>
        rw [printfLoop_none hn (by rw [hpass, hd']; rfl), printfLoop_none hd hd']
        rfl
      | some step =>
        cases step with
        | next out f' ap' =>
          have h : printfPass (c :: d :: f) ap = some (.next (c :: out) f' ap') := by
            rw [hpass, hd']
            rfl
          rw [printfLoop_next hn h, printfLoop_next hd hd', Option.map_map]
          rfl
        | stop out =>
          have h : printfPass (c :: d :: f) ap = some (.stop (c :: out)) := by
            rw [hpass, hd']
            rfl
          rw [printfLoop_stop hn h, printfLoop_stop hd hd']
          rfl

/-- Literal text in front of the format is printed first. -/
theorem printfLoop_append {lit : List Char} (f : List Char) (ap : List PrintfArg)
    (hlit : ∀ c ∈ lit, c ≠ '\x00' ∧ c ≠ '%') :
    printfLoop (lit ++ f) ap = (printfLoop f ap).map (lit ++ ·) := by
  induction lit with
  | nil => simp
  | cons c lit ih =>
    have hc := hlit c (by simp)
    rw [List.cons_append, printfLoop_cons _ ap hc.1 hc.2,
      ih (fun a ha => hlit a (by simp [ha])), Option.map_map]
    rfl

/-- A conversion prints what `printfConversion` prints, and the run goes on after it. -/
theorem printfLoop_conv {s f out : List Char} {ap ap' ap'' : List PrintfArg} {pft : Pft}
    (hspec : printfSpec s ap = some (.spec pft f ap'))
    (hconv : printfConversion pft ap' = some (.printed out ap'')) :
    printfLoop ('%' :: s) ap = (printfLoop f ap'').map (out ++ ·) := by
  apply printfLoop_next (by decide)
  simp [printfPass, printfLiteral, hspec, hconv]

/-- A negative `*` width ends the run. -/
theorem printfLoop_negativeWidth {s : List Char} {ap : List PrintfArg}
    (hspec : printfSpec s ap = some .negativeWidth) : printfLoop ('%' :: s) ap = some [] := by
  apply printfLoop_stop (by decide)
  simp [printfPass, printfLiteral, hspec]

/-! ### Printing an integer -/

theorem printSymbols_lower {d : Nat} (h : d < 16) :
    (printSymbols false).getD d '0' = Nat.digitChar d := by
  interval_cases d <;> rfl

/-- With the lower-case symbols, the digit loop prints what `Nat.toDigits` does. -/
theorem convDigits_toDigits {base : Nat} (h2 : 2 ≤ base) (h16 : base ≤ 16) (n : Nat) :
    ((convDigits base n).map fun d => (printSymbols false).getD d '0').reverse =
      Nat.toDigits base n := by
  induction n using Nat.strong_induction_on with
  | _ n ih =>
    rw [convDigits, Nat.toDigits_eq_if (by omega)]
    by_cases hn : n < base
    · -- one digit, and the loop stops
      rw [dif_pos (Or.inr (Nat.div_eq_of_lt hn)), if_pos hn, Nat.mod_eq_of_lt hn, List.map_cons,
        List.map_nil, printSymbols_lower (by omega)]
      rfl
    · have hq : n / base ≠ 0 := by
        rw [Ne, Nat.div_eq_zero_iff]
        omega
      have hm := Nat.mod_lt n (show base > 0 by omega)
      rw [dif_neg (by omega), if_neg hn, List.map_cons, List.reverse_cons,
        ih (n / base) (Nat.div_lt_self (by omega) h2), printSymbols_lower (by omega)]

theorem intBase_range (conversion : Char) : 2 ≤ intBase conversion ∧ intBase conversion ≤ 16 := by
  unfold intBase
  split_ifs <;> omega

/-- The digits of a lower-case conversion are `Nat.toDigits` of `abs_num`. -/
theorem intDigitsRev_reverse {pft : Pft} (num : Int) (hu : intUpper pft.conversion = false) :
    (intDigitsRev pft num).reverse =
      Nat.toDigits (intBase pft.conversion) (intAbs pft.conversion num) := by
  obtain ⟨h2, h16⟩ := intBase_range pft.conversion
  rw [intDigitsRev, hu, convDigits_toDigits h2 h16]

theorem intDigitsRev_eq {pft : Pft} (num : Int) (hu : intUpper pft.conversion = false) :
    intDigitsRev pft num =
      (Nat.toDigits (intBase pft.conversion) (intAbs pft.conversion num)).reverse := by
  rw [← intDigitsRev_reverse num hu, List.reverse_reverse]

/-- No padding when the precision and the width ask for no more than the prefix and digits. -/
theorem intPadding_of_le {pft : Pft} {prefixLen ndigits : Int} (hp : pft.precision ≤ ndigits)
    (hw : pft.width ≤ prefixLen + ndigits) :
    intPadding pft prefixLen ndigits = (0, 0) := by
  unfold intPadding
  rw [if_neg (by omega), if_neg (by omega)]

/-- The zeros and blanks fill the field to its width, or to the precision if that is more. -/
theorem intPadding_fill (pft : Pft) (prefixLen ndigits : Int) :
    let pad := intPadding pft prefixLen ndigits
    0 ≤ pad.1 ∧ 0 ≤ pad.2 ∧
      prefixLen + pad.1 + ndigits + pad.2 =
        max pft.width (prefixLen + max pft.precision ndigits) := by
  simp only [intPadding]
  split_ifs <;> simp only <;> omega

theorem printInt_of_le {pft : Pft} {num : Int}
    (hp : pft.precision ≤ (intDigitsRev pft num).length)
    (hw : pft.width ≤ (intPrefixRev pft num).length + (intDigitsRev pft num).length) :
    printInt pft num = (intPrefixRev pft num).reverse ++ (intDigitsRev pft num).reverse := by
  simp only [printInt]
  rw [intPadding_of_le hp hw]
  cases pft.flags.left <;> simp

/-- `print_int` fills its field: the field's width, or the prefix and the digits with the zeros
of the precision if they are wider. -/
theorem printInt_length (pft : Pft) (num : Int) :
    ((printInt pft num).length : Int) = max pft.width
      ((intPrefixRev pft num).length + max pft.precision (intDigitsRev pft num).length) := by
  obtain ⟨hz, hb, hsum⟩ := intPadding_fill pft (intPrefixRev pft num).length
    (intDigitsRev pft num).length
  simp only [printInt]
  rw [← hsum]
  cases pft.flags.left <;> simp <;> omega

/-! ## The output function -/

/-- `print_char`: `pft->nchar += pft->xputc(pft->xputc_arg, c)`. -/
def printChar {σ : Type} (xputc : σ → Char → σ × Int) (st : σ × Int) (c : Char) : σ × Int :=
  ((xputc st.1 c).1, st.2 + (xputc st.1 c).2)

set_option linter.style.nameCheck false in
/-- `__printf(xputc, xputc_arg, format, ap)`: the output function's state after the output,
and the return value `pft.nchar`. -/
def __printf {σ : Type} (xputc : σ → Char → σ × Int) (xputcArg : σ) (format : List Char)
    (ap : List PrintfArg) : Option (σ × Int) :=
  (printfLoop format ap).map fun out => out.foldl (printChar xputc) (xputcArg, 0)

/-- `struct snprintfbuf`: the bytes stored from `s` on (`idx` is their number), and `n`. -/
structure SnprintfBuf where
  stored : List Char
  n : Nat
deriving DecidableEq, Repr

/-- `putch`: `if (buf->idx < (buf->n - 1))`, `n - 1` computed in a 32-bit `size_t`. -/
def putch (buf : SnprintfBuf) (ch : Char) : SnprintfBuf × Int :=
  if buf.stored.length < (buf.n + 4294967295) % 4294967296 then
    ({ buf with stored := buf.stored ++ [ch] }, 1)
  else (buf, 0)

/-- `vsnprintf(s, n, format, ap)`: the bytes it writes from `s` on, the NUL at `s[idx]` last,
and the return value `buf.idx`. -/
def vsnprintf (n : Nat) (format : List Char) (ap : List PrintfArg) : Option (List Char × Int) :=
  (__printf putch ⟨[], n⟩ format ap).map fun r => (r.1.stored ++ ['\x00'], r.1.stored.length)

/-- `snprintf(s, n, format, ...)`. -/
def snprintf (n : Nat) (format : List Char) (ap : List PrintfArg) : Option (List Char × Int) :=
  vsnprintf n format ap

/-! ### What the output function sees -/

/-- `putch` stores characters until `idx` reaches `n - 1` and drops the rest. -/
theorem foldl_putch (out : List Char) (buf : SnprintfBuf) (k : Int)
    (hle : buf.stored.length ≤ (buf.n + 4294967295) % 4294967296) :
    out.foldl (printChar putch) (buf, k) =
      (⟨buf.stored ++ out.take ((buf.n + 4294967295) % 4294967296 - buf.stored.length), buf.n⟩,
        k + (min ((buf.n + 4294967295) % 4294967296 - buf.stored.length) out.length : Nat)) := by
  induction out generalizing buf k with
  | nil => simp
  | cons c out ih =>
    rw [List.foldl_cons]
    by_cases hroom : buf.stored.length < (buf.n + 4294967295) % 4294967296
    · have hstep : printChar putch (buf, k) c = (⟨buf.stored ++ [c], buf.n⟩, k + 1) := by
        simp [printChar, putch, hroom]
      have hlen : (buf.n + 4294967295) % 4294967296 - buf.stored.length =
          ((buf.n + 4294967295) % 4294967296 - (buf.stored.length + 1)) + 1 := by omega
      rw [hstep, ih _ _ (by simp; omega), hlen, List.take_succ_cons]
      simp only [List.length_append, List.length_nil, Nat.zero_add, List.append_assoc,
        List.singleton_append, List.length_cons]
      refine Prod.ext rfl ?_
      simp only
      omega
    · -- the buffer is full: nothing more is stored or counted
      have hstep : printChar putch (buf, k) c = (buf, k) := by simp [printChar, putch, hroom]
      have hfull : (buf.n + 4294967295) % 4294967296 - buf.stored.length = 0 := by omega
      rw [hstep, ih _ _ hle, hfull]
      simp


/-- `vsnprintf(s, n, ...)` stores the first `n - 1` characters of the output (`n - 1` in a
32-bit `size_t`), then the NUL, and returns how many it stored. -/
theorem vsnprintf_eq (n : Nat) (format : List Char) (ap : List PrintfArg) :
    vsnprintf n format ap = (printfLoop format ap).map fun out =>
      (out.take ((n + 4294967295) % 4294967296) ++ ['\x00'],
        ((min ((n + 4294967295) % 4294967296) out.length : Nat) : Int)) := by
  unfold vsnprintf __printf
  rw [Option.map_map]
  refine congrArg (fun f => Option.map f (printfLoop format ap)) (funext fun out => ?_)
  -- `rw` and `dsimp` only: `simp` on the projections of the numerals here runs out of memory
  have hfold := foldl_putch out ⟨[], n⟩ 0 (Nat.zero_le _)
  dsimp only at hfold
  rw [List.length_nil, Nat.sub_zero, List.nil_append, Int.zero_add] at hfold
  rw [Function.comp_apply, hfold]
  dsimp only
  rw [List.length_take]

/-! ## What a conversion prints -/

theorem toSigned_emod {w : Int} (h1 : -2147483648 ≤ w) (h2 : w < 2147483648) :
    toSigned 32 (w % 4294967296) = w := by
  simp only [toSigned, Nat.reduceSub, Int.reducePow]
  omega

theorem toSigned_32_of_range {v : Int} (h1 : -2147483648 ≤ v) (h2 : v < 2147483648) :
    toSigned 32 v = v := by
  simp only [toSigned, Nat.reduceSub, Int.reducePow]
  omega

theorem toSigned_64_of_range {v : Int} (h1 : -9223372036854775808 ≤ v)
    (h2 : v < 9223372036854775808) : toSigned 64 v = v := by
  simp only [toSigned, Nat.reduceSub, Int.reducePow]
  omega

/-- A negative `*` width, passed as an `int`, is the `break` out of the format loop. -/
theorem printfSpec_star_negative {w : Int} (rest : List Char) (ap : List PrintfArg)
    (h1 : -2147483648 ≤ w) (h2 : w < 0) :
    printfSpec ('*' :: rest) (.int w :: ap) = some .negativeWidth := by
  have hw := toSigned_emod h1 (by omega)
  simp [printfSpec, printfFlags, printfFlag, vaArgInt, hw, h2]

/-- `%d` of a number that fits in an `int`: its decimal digits, after a `-` if it is negative. -/
theorem printInt_d {v : Int} (h1 : -2147483648 ≤ v) (h2 : v < 2147483648) :
    printInt ⟨PrintfFlags.none, -1, -1, 0, 'd'⟩ v =
      (if v < 0 then ['-'] else []) ++ Nat.toDigits 10 v.natAbs := by
  have habs : intAbs 'd' v = v.natAbs := by
    unfold intAbs intNegative
    by_cases hv : v < 0 <;> simp [hv] <;> omega
  rw [printInt_of_le (by dsimp only; omega) (by dsimp only; omega), intDigitsRev_eq v rfl,
    List.reverse_reverse, habs,
    show intBase 'd' = 10 from rfl]
  by_cases hv : v < 0 <;> simp [intPrefixRev, intNegative, PrintfFlags.none, hv]

/-- `%+u`: the `+` flag is applied to an unsigned conversion. -/
theorem printInt_plus_u {v : Int} (h0 : 0 ≤ v) (h1 : v < 9223372036854775808) :
    printInt ⟨⟨false, true, false, false, false⟩, -1, -1, 0, 'u'⟩ v =
      '+' :: Nat.toDigits 10 v.toNat := by
  have habs : intAbs 'u' v = v.toNat := by
    simp [intAbs, intNegative,
      show v % 18446744073709551616 = v from Int.emod_eq_of_lt h0 (by omega)]
  rw [printInt_of_le (by dsimp only; omega) (by dsimp only; omega), intDigitsRev_eq v rfl,
    List.reverse_reverse, habs,
    show intBase 'u' = 10 from rfl]
  simp [intPrefixRev, intNegative]

/-- `printStr` with a precision of 0 prints the whole string. -/
theorem printStr_precision_zero (pft : Pft) (s : List Char) (hp : pft.precision = 0)
    (hw : pft.width ≤ s.length) (hl : pft.flags.left = false) : printStr pft s = s := by
  simp [printStr, hp, hl, show ¬ pft.width > s.length by omega]

/-! ## The format loop on one conversion

Each of these is one pass of the loop over a conversion, followed by the rest of the run from
the format after it. -/

/-- `%d` of an `int`: its decimal digits, after a `-` if it is negative. -/
theorem printfLoop_d (rest : List Char) (ap : List PrintfArg) {v : Int}
    (h1 : -2147483648 ≤ v) (h2 : v < 2147483648) :
    printfLoop ('%' :: 'd' :: rest) (.int v :: ap) =
      (printfLoop rest ap).map
        (((if v < 0 then ['-'] else []) ++ Nat.toDigits 10 v.natAbs) ++ ·) := by
  have hspec : printfSpec ('d' :: rest) (.int v :: ap) =
      some (.spec ⟨PrintfFlags.none, -1, -1, 0, 'd'⟩ rest (.int v :: ap)) := by
    simp [printfSpec, printfFlags, printfFlag, printfPrecision, printfSpecTail, printfLength]
  have hconv : printfConversion ⟨PrintfFlags.none, -1, -1, 0, 'd'⟩ (.int v :: ap) =
      some (.printed (printInt ⟨PrintfFlags.none, -1, -1, 0, 'd'⟩ v) ap) := by
    simp [printfConversion, getIntArg, vaArgInt, toSigned_32_of_range h1 h2]
  rw [printfLoop_conv hspec hconv, printInt_d h1 h2]

/-- `%.0d` of 0 prints `0`. -/
theorem printfLoop_precision_zero (rest : List Char) (ap : List PrintfArg) :
    printfLoop ('%' :: '.' :: '0' :: 'd' :: rest) (.int 0 :: ap) =
      (printfLoop rest ap).map ('0' :: ·) := by
  let pft : Pft := ⟨PrintfFlags.none, -1, 0, 0, 'd'⟩
  have hspec : printfSpec ('.' :: '0' :: 'd' :: rest) (.int 0 :: ap) =
      some (.spec pft rest (.int 0 :: ap)) := by
    simp [pft, printfSpec, printfFlags, printfFlag, printfPrecision, printfNumber, printfSpecTail,
      printfLength]
  have hdigits : intDigitsRev pft 0 = ['0'] := by
    rw [intDigitsRev_eq 0 rfl]
    decide
  have hconv : printfConversion pft (.int 0 :: ap) = some (.printed ['0'] ap) := by
    have hprint : printInt pft 0 = ['0'] := by
      rw [printInt_of_le (by rw [hdigits]; decide) (by show (-1 : Int) ≤ _; omega), hdigits]
      decide
    simp [pft, printfConversion, getIntArg, vaArgInt, toSigned, ← hprint]
  rw [printfLoop_conv hspec hconv]
  rfl

/-- `%#x` of 0 prints `0x0`. -/
theorem printfLoop_alt_hex_zero (rest : List Char) (ap : List PrintfArg) :
    printfLoop ('%' :: '#' :: 'x' :: rest) (.int 0 :: ap) =
      (printfLoop rest ap).map (['0', 'x', '0'] ++ ·) := by
  let pft : Pft := ⟨⟨false, false, false, true, false⟩, -1, -1, 0, 'x'⟩
  have hspec : printfSpec ('#' :: 'x' :: rest) (.int 0 :: ap) =
      some (.spec pft rest (.int 0 :: ap)) := by
    simp [pft, printfSpec, printfFlags, printfFlag, printfPrecision, printfSpecTail, printfLength,
      PrintfFlags.none]
  have hdigits : intDigitsRev pft 0 = ['0'] := by
    rw [intDigitsRev_eq 0 rfl]
    decide
  have hconv : printfConversion pft (.int 0 :: ap) = some (.printed ['0', 'x', '0'] ap) := by
    have hprint : printInt pft 0 = ['0', 'x', '0'] := by
      rw [printInt_of_le (by rw [hdigits]; decide) (by show (-1 : Int) ≤ _; omega), hdigits]
      decide
    simp [pft, printfConversion, getUintArg, vaArgInt, toSigned, ← hprint]
  rw [printfLoop_conv hspec hconv]

/-- `%+u` prints a `+` before an unsigned number. -/
theorem printfLoop_plus_u (rest : List Char) (ap : List PrintfArg) {v : Int} (h0 : 0 ≤ v)
    (h1 : v < 4294967296) :
    printfLoop ('%' :: '+' :: 'u' :: rest) (.int v :: ap) =
      (printfLoop rest ap).map (('+' :: Nat.toDigits 10 v.toNat) ++ ·) := by
  let pft : Pft := ⟨⟨false, true, false, false, false⟩, -1, -1, 0, 'u'⟩
  have hspec : printfSpec ('+' :: 'u' :: rest) (.int v :: ap) =
      some (.spec pft rest (.int v :: ap)) := by
    simp [pft, printfSpec, printfFlags, printfFlag, printfPrecision, printfSpecTail, printfLength,
      PrintfFlags.none]
  have hconv : printfConversion pft (.int v :: ap) =
      some (.printed ('+' :: Nat.toDigits 10 v.toNat) ap) := by
    have hv : toSigned 64 (v % 4294967296) = v := by
      rw [Int.emod_eq_of_lt h0 h1, toSigned_64_of_range (by omega) (by omega)]
    simp [pft, printfConversion, getUintArg, vaArgInt, hv, printInt_plus_u h0 (by omega)]
  rw [printfLoop_conv hspec hconv]

/-- `%3c` prints the character alone, without the field's blanks. -/
theorem printfLoop_char_width (rest : List Char) (ap : List PrintfArg) (v : Int) :
    printfLoop ('%' :: '3' :: 'c' :: rest) (.int v :: ap) =
      (printfLoop rest ap).map (Char.ofNat (toSigned 32 v % 256).toNat :: ·) := by
  have hspec : printfSpec ('3' :: 'c' :: rest) (.int v :: ap) =
      some (.spec ⟨PrintfFlags.none, 3, -1, 0, 'c'⟩ rest (.int v :: ap)) := by
    simp [printfSpec, printfFlags, printfFlag, printfPrecision, printfNumber, printfSpecTail,
      printfLength]
  have hconv : printfConversion ⟨PrintfFlags.none, 3, -1, 0, 'c'⟩ (.int v :: ap) =
      some (.printed [Char.ofNat (toSigned 32 v % 256).toNat] ap) := by
    simp [printfConversion, vaArgInt]
  rw [printfLoop_conv hspec hconv]
  rfl

/-- `%05.2d` of 1 pads with zeros under a precision: `00001`. -/
theorem printfLoop_zero_flag_precision (rest : List Char) (ap : List PrintfArg) :
    printfLoop ('%' :: '0' :: '5' :: '.' :: '2' :: 'd' :: rest) (.int 1 :: ap) =
      (printfLoop rest ap).map (['0', '0', '0', '0', '1'] ++ ·) := by
  let pft : Pft := ⟨⟨false, false, false, false, true⟩, 5, 2, 0, 'd'⟩
  have hspec : printfSpec ('0' :: '5' :: '.' :: '2' :: 'd' :: rest) (.int 1 :: ap) =
      some (.spec pft rest (.int 1 :: ap)) := by
    simp [pft, printfSpec, printfFlags, printfFlag, printfPrecision, printfNumber, printfSpecTail,
      printfLength, PrintfFlags.none]
  have hdigits : intDigitsRev pft 1 = ['1'] := by
    rw [intDigitsRev_eq 1 rfl]
    decide
  have hconv : printfConversion pft (.int 1 :: ap) =
      some (.printed ['0', '0', '0', '0', '1'] ap) := by
    have hprint : printInt pft 1 = ['0', '0', '0', '0', '1'] := by
      simp only [printInt, hdigits]
      decide
    simp [pft, printfConversion, getIntArg, vaArgInt, toSigned, ← hprint]
  rw [printfLoop_conv hspec hconv]

/-- `%.0s` prints the whole string. -/
theorem printfLoop_string_precision_zero (rest : List Char) (ap : List PrintfArg)
    (str : List Char) :
    printfLoop ('%' :: '.' :: '0' :: 's' :: rest) (.str (some str) :: ap) =
      (printfLoop rest ap).map (str ++ ·) := by
  let pft : Pft := ⟨PrintfFlags.none, -1, 0, 0, 's'⟩
  have hspec : printfSpec ('.' :: '0' :: 's' :: rest) (.str (some str) :: ap) =
      some (.spec pft rest (.str (some str) :: ap)) := by
    simp [pft, printfSpec, printfFlags, printfFlag, printfPrecision, printfNumber, printfSpecTail,
      printfLength]
  have hconv : printfConversion pft (.str (some str) :: ap) = some (.printed str ap) := by
    simp [pft, printfConversion,
      printStr_precision_zero pft str rfl (by dsimp only [pft]; omega) rfl]
  rw [printfLoop_conv hspec hconv]

/-! ## `snprintf` -/

/-- With `0 < n`, `vsnprintf` stores the first `n - 1` characters and the NUL, and returns how
many it stored. -/
theorem vsnprintf_of_pos {n : Nat} (h0 : 0 < n) (h1 : n < 4294967296) (format : List Char)
    (ap : List PrintfArg) :
    vsnprintf n format ap = (printfLoop format ap).map fun out =>
      (out.take (n - 1) ++ ['\x00'], ((min (n - 1) out.length : Nat) : Int)) := by
  have hlim : (n + 4294967295) % 4294967296 = n - 1 := by omega
  rw [vsnprintf_eq, hlim]

/-- With `n = 0`, `n - 1` wraps to `SIZE_MAX`: `vsnprintf` stores the output, and the NUL after
it. -/
theorem vsnprintf_zero (format : List Char) (ap : List PrintfArg) :
    vsnprintf 0 format ap = (printfLoop format ap).map fun out =>
      (out.take 4294967295 ++ ['\x00'], ((min 4294967295 out.length : Nat) : Int)) := by
  rw [vsnprintf_eq, Nat.zero_add, Nat.mod_eq_of_lt (by decide)]

/-- What `snprintf(buf, n, "%d", v)` stores reads back as `v` with `atoi`. -/
theorem atoi_snprintf_d {v : Int} (h0 : 0 ≤ v) (h1 : v ≤ 2147483647) {n : Nat} (hn : 12 ≤ n)
    (hn' : n < 4294967296) (m : List Char) :
    ∃ buf ret, snprintf n ('%' :: 'd' :: '\x00' :: m) [.int v] = some (buf, ret) ∧
      atoi buf = some v := by
  have hloop : printfLoop ('%' :: 'd' :: '\x00' :: m) [.int v] =
      some (Nat.toDigits 10 v.natAbs) := by
    rw [printfLoop_d _ _ (by omega) (by omega), printfLoop_nul]
    simp [show ¬v < 0 by omega]
  -- at most ten digits, so `n - 1` bytes hold them all
  have hlen : (Nat.toDigits 10 v.natAbs).length ≤ 10 :=
    (Nat.length_toDigits_le_iff (by decide) (by decide)).mpr (by omega)
  refine ⟨Nat.toDigits 10 v.natAbs ++ ['\x00'], (Nat.toDigits 10 v.natAbs).length, ?_, ?_⟩
  · rw [snprintf, vsnprintf_of_pos (by omega) hn', hloop, Option.map_some,
      List.take_of_length_le (by omega), Nat.min_eq_right (by omega)]
  · have hread := atoi_decimal (Decimal.isNumeral_toDigits v.natAbs)
      (by rw [Decimal.value_toDigits]; omega) (c := '\x00') (by decide) []
    rw [Decimal.value_toDigits] at hread
    rw [hread]
    congr 1
    omega

theorem atoi_snprintf_d_42 :
    ∃ buf ret, snprintf 12 ['%', 'd', '\x00'] [.int 42] = some (buf, ret) ∧ atoi buf = some 42 :=
  atoi_snprintf_d (by decide) (by decide) (by decide) (by decide) []

/-! ## Where `__printf` departs from C -/

/-- Where `__printf` and `vsnprintf` depart from C: a negative `*` width ends the whole output
instead of left-justifying the field; `%.0d` of 0 prints `0` instead of nothing; `%#x` of 0
prints `0x0` instead of `0`; `+` applies to unsigned conversions; `%c` ignores its width; the
flag `0` is not ignored under a precision; `%.0s` prints the whole string; with `n = 0`,
`vsnprintf` stores the output and a NUL; and `vsnprintf` returns the number of characters it
stored, not the length of the output. -/
theorem printf_departs_from_c :
    (∀ (lit rest : List Char) (w : Int) (ap : List PrintfArg),
      (∀ c ∈ lit, c ≠ '\x00' ∧ c ≠ '%') → -2147483648 ≤ w → w < 0 →
      printfLoop (lit ++ '%' :: '*' :: rest) (.int w :: ap) = some lit) ∧
    (∀ (rest : List Char) (ap : List PrintfArg),
      printfLoop ('%' :: '.' :: '0' :: 'd' :: rest) (.int 0 :: ap) =
        (printfLoop rest ap).map ('0' :: ·)) ∧
    (∀ (rest : List Char) (ap : List PrintfArg),
      printfLoop ('%' :: '#' :: 'x' :: rest) (.int 0 :: ap) =
        (printfLoop rest ap).map (['0', 'x', '0'] ++ ·)) ∧
    (∀ (rest : List Char) (ap : List PrintfArg) (v : Int), 0 ≤ v → v < 4294967296 →
      printfLoop ('%' :: '+' :: 'u' :: rest) (.int v :: ap) =
        (printfLoop rest ap).map (('+' :: Nat.toDigits 10 v.toNat) ++ ·)) ∧
    (∀ (rest : List Char) (ap : List PrintfArg) (v : Int),
      printfLoop ('%' :: '3' :: 'c' :: rest) (.int v :: ap) =
        (printfLoop rest ap).map (Char.ofNat (toSigned 32 v % 256).toNat :: ·)) ∧
    (∀ (rest : List Char) (ap : List PrintfArg),
      printfLoop ('%' :: '0' :: '5' :: '.' :: '2' :: 'd' :: rest) (.int 1 :: ap) =
        (printfLoop rest ap).map (['0', '0', '0', '0', '1'] ++ ·)) ∧
    (∀ (rest : List Char) (ap : List PrintfArg) (str : List Char),
      printfLoop ('%' :: '.' :: '0' :: 's' :: rest) (.str (some str) :: ap) =
        (printfLoop rest ap).map (str ++ ·)) ∧
    (∀ (format : List Char) (ap : List PrintfArg),
      vsnprintf 0 format ap = (printfLoop format ap).map fun out =>
        (out.take 4294967295 ++ ['\x00'], ((min 4294967295 out.length : Nat) : Int))) ∧
    (∀ (n : Nat) (format : List Char) (ap : List PrintfArg), 0 < n → n < 4294967296 →
      vsnprintf n format ap = (printfLoop format ap).map fun out =>
        (out.take (n - 1) ++ ['\x00'], ((min (n - 1) out.length : Nat) : Int))) := by
  refine ⟨?_, printfLoop_precision_zero, printfLoop_alt_hex_zero,
    fun rest ap v h0 h1 => printfLoop_plus_u rest ap h0 h1, printfLoop_char_width,
    printfLoop_zero_flag_precision, printfLoop_string_precision_zero, vsnprintf_zero,
    fun n format ap h0 h1 => vsnprintf_of_pos h0 h1 format ap⟩
  intro lit rest w ap hlit h1 h2
  rw [printfLoop_append _ _ hlit, printfLoop_negativeWidth (printfSpec_star_negative rest ap h1 h2)]
  simp

end Argentum.Libc
