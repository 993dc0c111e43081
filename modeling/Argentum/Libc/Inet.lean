import Argentum.Lib.Decimal
import Argentum.Lib.ByteOrder

/-!
# Argentum.Libc.Inet

The IPv4 address conversions of the user C library (`lib/argentum/arpa/inet`): `inet_aton`,
`inet_pton`, `inet_ntoa`, `inet_addr`, and `htonl`/`ntohl` of `<arpa/inet.h>`.

A C string is a `List Char`; reading past its end gives the NUL (`peek`). `in_addr_t` is
`BitVec 32`; the accumulators are `Nat`s, with the `uint32_t` wrap written out where it can
happen. `inet_ntoa` prints with the C library's `snprintf`, whose `%d` is taken to print the
decimal digits of its argument (`formatD`).

Both parsers run a digit loop inside a loop over the parts. `inet_pton` stops a part as soon as
its value passes 255, which is the same as a bound on the whole part (`ptonDigits_append`), and
wants exactly four parts: it accepts exactly the dotted quads (`ptonParts_eq_some_iff`).
`inet_aton` checks parts before a dot against 255, but never the last of four, and packs a
single part into the address 0 (`atonResult`).
-/

namespace Argentum.Libc

open Decimal ByteOrder

/-- `*cp`: the character a pointer into a C string reads, the NUL past the end. -/
def peek : List Char → Char
  | c :: _ => c
  | [] => '\x00'

@[simp] theorem peek_cons (c : Char) (l : List Char) : peek (c :: l) = c := rfl

@[simp] theorem peek_nil : peek [] = '\x00' := rfl

/-- `isxdigit`. -/
def isXDigit (c : Char) : Bool :=
  c.isDigit || (decide ('a' ≤ c) && decide (c ≤ 'f')) || (decide ('A' ≤ c) && decide (c ≤ 'F'))

/-- `htonl(hostlong)`: the byte swap of `<arpa/inet.h>`. -/
def htonl (hostlong : BitVec 32) : BitVec 32 :=
  ((hostlong &&& 0x000000FF#32) <<< 24) ||| ((hostlong &&& 0x0000FF00#32) <<< 8) |||
    ((hostlong &&& 0x00FF0000#32) >>> 8) ||| ((hostlong &&& 0xFF000000#32) >>> 24)

/-- `ntohl(netlong)`, defined as `htonl(netlong)`. -/
def ntohl (netlong : BitVec 32) : BitVec 32 := htonl netlong

/-- `(parts[0] << 24) | (parts[1] << 16) | (parts[2] << 8) | parts[3]` on `uint32_t`s. -/
def packParts (p0 p1 p2 p3 : Nat) : BitVec 32 :=
  (BitVec.ofNat 32 p0 <<< 24) ||| (BitVec.ofNat 32 p1 <<< 16) ||| (BitVec.ofNat 32 p2 <<< 8) |||
    BitVec.ofNat 32 p3

/-- `NPARTS`. -/
def nParts : Nat := 4

/-- `AF_INET`. -/
def afInet : Int := 2

/-! ## `inet_pton` -/

/-- The digit loop of `inet_pton`, `value = value * 10 + (*src - '0')`, returning 0 as soon as
`value > 255`. The value is at most 255 at each pass, so the `uint32_t` never wraps. -/
def ptonDigits (value : Nat) : List Char → Option (Nat × List Char)
  | [] => some (value, [])
  | c :: src =>
    if c.isDigit then
      if 255 < value * 10 + digitValue c then none else ptonDigits (value * 10 + digitValue c) src
    else some (value, c :: src)

/-- The loop over the parts of `inet_pton`, with `slots` parts still free in `parts[NPARTS]`;
`none` is a `return 0`. -/
def ptonParts : Nat → List Nat → List Char → Option (List Nat)
  | 0, _, _ => none
  | slots + 1, parts, src =>
    if (peek src).isDigit then
      match ptonDigits 0 src with
      | none => none
      | some (value, src) =>
        if peek src = '\x00' then some (parts ++ [value])
        else if peek src ≠ '.' ∨ nParts ≤ (parts ++ [value]).length then none
        else ptonParts slots (parts ++ [value]) src.tail
    else none

/-- `inet_pton(af, src, dst)`: the return value and what it stores in `*dst`. Another family
than `AF_INET` returns -1 and sets `errno` to `EAFNOSUPPORT`. -/
def inetPton (af : Int) (src : List Char) : Int × Option (BitVec 32) :=
  if af ≠ afInet then (-1, none)
  else
    match ptonParts nParts [] src with
    | some [p0, p1, p2, p3] => (1, some (htonl (packParts p0 p1 p2 p3)))
    | _ => (0, none)

/-! ## `inet_aton` -/

/-- The prefix of a part of `inet_aton`: `0x` or `0X` for base 16, `0` for base 8, none for
base 10, and what follows it. -/
def atonPrefix (cp : List Char) : Nat × List Char :=
  if peek cp = '0' then
    if peek cp.tail = 'x' ∨ peek cp.tail = 'X' then (16, cp.tail.tail) else (8, cp.tail)
  else (10, cp)

/-- The digit loop of `inet_aton`: a hex digit of `base` or more returns 0, and so does a step
that leaves the `uint32_t` value smaller than it was (its only overflow test). -/
def atonDigits (base value : Nat) : List Char → Option (Nat × List Char)
  | [] => some (value, [])
  | c :: cp =>
    if isXDigit c then
      let digit := if c.isDigit then digitValue c else c.toLower.toNat - 'a'.toNat + 10
      if base ≤ digit then none
      else
        let newValue := (value * base + digit) % 4294967296
        if newValue < value then none else atonDigits base newValue cp
    else some (value, c :: cp)

/-- One part of `inet_aton`: its base, the check that a digit follows `0x` or starts a decimal
part, and its digits. -/
def atonPart (cp : List Char) : Option (Nat × List Char) :=
  let base := (atonPrefix cp).1
  let cp := (atonPrefix cp).2
  if base = 16 ∧ isXDigit (peek cp) = false then none
  else if base = 10 ∧ (peek cp).isDigit = false then none
  else atonDigits base 0 cp

/-- The loop over the parts of `inet_aton`, with `slots` parts still free; a part before a dot
must be at most 255. -/
def atonParts : Nat → List Nat → List Char → Option (List Nat)
  | 0, _, _ => none
  | slots + 1, parts, cp =>
    match atonPart cp with
    | none => none
    | some (value, cp) =>
      if peek cp = '\x00' then some (parts ++ [value])
      else if peek cp ≠ '.' ∨ nParts ≤ (parts ++ [value]).length ∨ 255 < value then none
      else atonParts slots (parts ++ [value]) cp.tail

/-- The `switch (part_count)` of `inet_aton`. A single part leaves `result` at 0; the last of
four parts is not checked. -/
def atonResult : List Nat → Option (BitVec 32)
  | [_] => some 0
  | [p0, p1] =>
    if 0xFFFFFF < p1 then none else some ((BitVec.ofNat 32 p0 <<< 24) ||| BitVec.ofNat 32 p1)
  | [p0, p1, p2] =>
    if 0xFFFF < p2 then none
    else some ((BitVec.ofNat 32 p0 <<< 24) ||| (BitVec.ofNat 32 p1 <<< 16) ||| BitVec.ofNat 32 p2)
  | [p0, p1, p2, p3] => some (packParts p0 p1 p2 p3)
  | _ => some 0

/-- `inet_aton(cp, inp)`: `none` when it returns 0, the address it stores in `*inp` when it
returns 1. -/
def inetAton (cp : List Char) : Option (BitVec 32) :=
  ((atonParts nParts [] cp).bind atonResult).map htonl

/-- `inet_addr(cp)`: `(in_addr_t) -1` where `inet_aton` fails. -/
def inetAddr (cp : List Char) : BitVec 32 := (inetAton cp).getD (BitVec.allOnes 32)

/-! ## `inet_ntoa` -/

/-- `BUF_MAX`: room for `"255.255.255.255"` and its NUL. -/
def bufMax : Nat := 16

/-- `%d` of a nonnegative `int`. -/
def formatD (n : Nat) : List Char := Nat.toDigits 10 n

/-- `inet_ntoa(in)`: what `snprintf(buf, BUF_MAX, "%d.%d.%d.%d", …)` leaves in `buf`, at most
`BUF_MAX - 1` characters. -/
def inetNtoa (inAddr : BitVec 32) : List Char :=
  let addr := ntohl inAddr
  (formatD ((addr >>> 24) &&& 0xFF#32).toNat ++ '.' :: formatD ((addr >>> 16) &&& 0xFF#32).toNat ++
    '.' :: formatD ((addr >>> 8) &&& 0xFF#32).toNat ++ '.' :: formatD (addr &&& 0xFF#32).toNat).take
    (bufMax - 1)

/-! ## Byte order -/

/-- The mask `0xFF << k`, as `ByteOrder.and_byteMask` takes it. -/
theorem toNat_byteMask_0 : (0x000000FF#32).toNat = (2 ^ 8 - 1) * 2 ^ 0 := rfl
theorem toNat_byteMask_8 : (0x0000FF00#32).toNat = (2 ^ 8 - 1) * 2 ^ 8 := rfl
theorem toNat_byteMask_16 : (0x00FF0000#32).toNat = (2 ^ 8 - 1) * 2 ^ 16 := rfl
theorem toNat_byteMask_24 : (0xFF000000#32).toNat = (2 ^ 8 - 1) * 2 ^ 24 := rfl

/-- `(x >> s) & 0xFF` is the byte at bit `s`. -/
theorem toNat_shiftRight_and (x : BitVec 32) (s : Nat) :
    ((x >>> s) &&& 0xFF#32).toNat = x.toNat / 2 ^ s % 256 := by
  rw [BitVec.toNat_and, BitVec.toNat_ushiftRight, Nat.shiftRight_eq_div_pow, toNat_byteMask_0,
    and_byteMask]
  simp

/-- `htonl` puts the bytes of a word in the opposite order. -/
theorem htonl_toNat (x : BitVec 32) :
    (htonl x).toNat = byte x 0 * 2 ^ 24 + byte x 1 * 2 ^ 16 + byte x 2 * 2 ^ 8 + byte x 3 := by
  have hx := x.isLt
  have hA : ((x &&& 0x000000FF#32) <<< 24).toNat = byte x 0 * 2 ^ 24 := by
    rw [BitVec.toNat_shiftLeft, BitVec.toNat_and, toNat_byteMask_0, and_byteMask,
      Nat.shiftLeft_eq]
    simp only [byte, Nat.reducePow, Nat.reduceMul]
    omega
  have hB : ((x &&& 0x0000FF00#32) <<< 8).toNat = byte x 1 * 2 ^ 16 := by
    rw [BitVec.toNat_shiftLeft, BitVec.toNat_and, toNat_byteMask_8, and_byteMask,
      Nat.shiftLeft_eq]
    simp only [byte, Nat.reducePow, Nat.reduceMul]
    omega
  have hC : ((x &&& 0x00FF0000#32) >>> 8).toNat = byte x 2 * 2 ^ 8 := by
    rw [BitVec.toNat_ushiftRight, BitVec.toNat_and, toNat_byteMask_16, and_byteMask,
      Nat.shiftRight_eq_div_pow]
    simp only [byte, Nat.reducePow, Nat.reduceMul]
    omega
  have hD : ((x &&& 0xFF000000#32) >>> 24).toNat = byte x 3 := by
    rw [BitVec.toNat_ushiftRight, BitVec.toNat_and, toNat_byteMask_24, and_byteMask,
      Nat.shiftRight_eq_div_pow]
    simp only [byte, Nat.reducePow, Nat.reduceMul]
    omega
  rw [htonl, BitVec.toNat_or, BitVec.toNat_or, BitVec.toNat_or, hA, hB, hC, hD,
    or_pack (byte_lt x 1) (byte_lt x 2) (byte_lt x 3)]

theorem htonl_htonl (x : BitVec 32) : htonl (htonl x) = x := by
  apply BitVec.eq_of_toNat_eq
  obtain ⟨h3, h2, h1, h0⟩ :=
    bytes_of_toNat (byte_lt x 1) (byte_lt x 2) (byte_lt x 3) (htonl_toNat x)
  rw [htonl_toNat, h0, h1, h2, h3, toNat_eq_bytes x]

/-- Four parts of at most 255 packed into a word. -/
theorem packParts_toNat {p0 p1 p2 p3 : Nat} (h0 : p0 < 256) (h1 : p1 < 256) (h2 : p2 < 256)
    (h3 : p3 < 256) :
    (packParts p0 p1 p2 p3).toNat = p0 * 2 ^ 24 + p1 * 2 ^ 16 + p2 * 2 ^ 8 + p3 := by
  have hpart (p k : Nat) (hp : p < 256) (hk : k ≤ 24) :
      (BitVec.ofNat 32 p <<< k).toNat = p * 2 ^ k := by
    have hlt : p * 2 ^ k < 2 ^ 32 :=
      calc p * 2 ^ k < 256 * 2 ^ 24 :=
            Nat.mul_lt_mul_of_lt_of_le hp (Nat.pow_le_pow_right (by decide) hk) (by positivity)
        _ = 2 ^ 32 := by norm_num
    rw [BitVec.toNat_shiftLeft, BitVec.toNat_ofNat, Nat.shiftLeft_eq,
      Nat.mod_eq_of_lt (show p < 2 ^ 32 by omega), Nat.mod_eq_of_lt hlt]
  have h3' : (BitVec.ofNat 32 p3).toNat = p3 := by
    rw [BitVec.toNat_ofNat]
    omega
  rw [packParts, BitVec.toNat_or, BitVec.toNat_or, BitVec.toNat_or, hpart p0 24 h0 le_rfl,
    hpart p1 16 h1 (by decide), hpart p2 8 h2 (by decide), h3', or_pack h1 h2 h3]

/-- A word is the packing of its four bytes. -/
theorem packParts_bytes (x : BitVec 32) :
    packParts (byte x 3) (byte x 2) (byte x 1) (byte x 0) = x := by
  apply BitVec.eq_of_toNat_eq
  rw [packParts_toNat (byte_lt x 3) (byte_lt x 2) (byte_lt x 1) (byte_lt x 0),
    ← toNat_eq_bytes x]

/-- The bytes of a packing are its parts. -/
theorem bytes_packParts {p0 p1 p2 p3 : Nat} (h0 : p0 < 256) (h1 : p1 < 256) (h2 : p2 < 256)
    (h3 : p3 < 256) :
    byte (packParts p0 p1 p2 p3) 3 = p0 ∧ byte (packParts p0 p1 p2 p3) 2 = p1 ∧
      byte (packParts p0 p1 p2 p3) 1 = p2 ∧ byte (packParts p0 p1 p2 p3) 0 = p3 :=
  bytes_of_toNat h1 h2 h3 (packParts_toNat h0 h1 h2 h3)

/-! ## `inet_pton` accepts the dotted quads -/

/-- A part of a dotted quad: a decimal numeral of at most 255. -/
def IsOctet (o : List Char) : Prop := IsNumeral o ∧ value o ≤ 255

theorem peek_append_of_ne_nil {ds : List Char} (rest : List Char) (h : ds ≠ []) :
    peek (ds ++ rest) = ds.head h := by
  cases ds with
  | nil => exact absurd rfl h
  | cons c ds => rfl

theorem intercalate_cons_of_ne_nil (o : List Char) {os : List (List Char)} (h : os ≠ []) :
    ['.'].intercalate (o :: os) = o ++ '.' :: ['.'].intercalate os := by
  obtain ⟨o', os', rfl⟩ := List.exists_cons_of_ne_nil h
  rw [List.intercalate_cons_cons, List.append_assoc, List.singleton_append]

/-- The digit loop on a run of digits: a running bound of 255 is a bound on the run's value,
the value only growing with each digit. -/
theorem ptonDigits_append {v : Nat} {ds rest : List Char} (hv : v ≤ 255)
    (hds : ∀ c ∈ ds, c.isDigit = true) (hrest : (peek rest).isDigit = false) :
    ptonDigits v (ds ++ rest) =
      if valueFrom v ds ≤ 255 then some (valueFrom v ds, rest) else none := by
  induction ds generalizing v with
  | nil =>
    rw [List.nil_append, valueFrom_nil, if_pos hv]
    cases rest with
    | nil => rfl
    | cons c rest =>
      simp only [peek] at hrest
      simp [ptonDigits, hrest]
  | cons c ds ih =>
    have hc := hds c List.mem_cons_self
    rw [List.cons_append, ptonDigits, if_pos hc, valueFrom_cons]
    by_cases hover : 255 < v * 10 + digitValue c
    · have := le_valueFrom (v * 10 + digitValue c) ds
      rw [if_pos hover, if_neg (by omega)]
    · rw [if_neg hover]
      exact ih (by omega) fun c' h => hds c' (List.mem_cons_of_mem c h)

/-- What the digit loop read: a run of digits of value at most 255, up to a non-digit. -/
theorem ptonDigits_eq_some {v w : Nat} {src rest : List Char} (hv : v ≤ 255)
    (h : ptonDigits v src = some (w, rest)) :
    ∃ ds, src = ds ++ rest ∧ (∀ c ∈ ds, c.isDigit = true) ∧ (peek rest).isDigit = false ∧
      valueFrom v ds = w ∧ w ≤ 255 := by
  induction src generalizing v with
  | nil =>
    simp only [ptonDigits, Option.some.injEq, Prod.mk.injEq] at h
    obtain ⟨rfl, rfl⟩ := h
    exact ⟨[], rfl, by simp, rfl, rfl, hv⟩
  | cons c src ih =>
    simp only [ptonDigits] at h
    split at h
    · next hc =>
      split at h
      · cases h
      · next hle =>
        obtain ⟨ds, rfl, hds, hrest, hval, hw⟩ := ih (by omega) h
        refine ⟨c :: ds, rfl, ?_, hrest, hval, hw⟩
        intro c' h'
        rcases List.mem_cons.mp h' with rfl | h'
        · exact hc
        · exact hds c' h'
    · next hc =>
      simp only [Option.some.injEq, Prod.mk.injEq] at h
      obtain ⟨rfl, rfl⟩ := h
      exact ⟨[], rfl, by simp, by simpa [peek] using hc, rfl, hv⟩

theorem isDigit_peek_octet {o : List Char} (ho : IsOctet o) (rest : List Char) :
    (peek (o ++ rest)).isDigit = true := by
  rw [peek_append_of_ne_nil rest ho.1.1]
  exact ho.1.2 _ (List.head_mem _)

/-- The last octet, up to the NUL. -/
theorem ptonParts_octet_last {slots : Nat} {parts : List Nat} {o : List Char} (ho : IsOctet o) :
    ptonParts (slots + 1) parts o = some (parts ++ [value o]) := by
  have hdig : ptonDigits 0 (o ++ []) = some (value o, []) := by
    rw [ptonDigits_append (Nat.zero_le _) ho.1.2 rfl]
    exact if_pos ho.2
  rw [List.append_nil] at hdig
  have hhead := isDigit_peek_octet ho []
  rw [List.append_nil] at hhead
  rw [ptonParts, if_pos hhead, hdig]
  rfl

/-- An octet before a dot: the loop goes on to the next part. -/
theorem ptonParts_octet_dot {slots : Nat} {parts : List Nat} {o : List Char} (rest : List Char)
    (ho : IsOctet o) (hroom : parts.length + 1 < nParts) :
    ptonParts (slots + 1) parts (o ++ '.' :: rest) = ptonParts slots (parts ++ [value o]) rest := by
  have hdig : ptonDigits 0 (o ++ '.' :: rest) = some (value o, '.' :: rest) := by
    rw [ptonDigits_append (Nat.zero_le _) ho.1.2 rfl]
    exact if_pos ho.2
  rw [ptonParts, if_pos (isDigit_peek_octet ho _), hdig]
  dsimp only
  rw [if_neg (by simp [peek]), if_neg (by simp only [peek, List.length_append]; simp; omega)]
  rfl

/-- Dot-separated octets, as many as there are slots, are read into the parts. -/
theorem ptonParts_intercalate {slots : Nat} {parts : List Nat} {os : List (List Char)}
    (hne : os ≠ []) (hlen : os.length ≤ slots) (hoct : ∀ o ∈ os, IsOctet o)
    (hslots : parts.length + slots = nParts) :
    ptonParts slots parts (['.'].intercalate os) = some (parts ++ os.map value) := by
  induction os generalizing parts slots with
  | nil => exact absurd rfl hne
  | cons o os ih =>
    obtain ⟨slots, rfl⟩ : ∃ k, slots = k + 1 := ⟨slots - 1, by simp at hlen; omega⟩
    have ho := hoct o List.mem_cons_self
    rcases eq_or_ne os [] with rfl | hne'
    · rw [List.intercalate_singleton, ptonParts_octet_last ho]
      simp
    · have hroom : parts.length + 1 < nParts := by
        have : os.length ≠ 0 := fun h => hne' (List.length_eq_zero_iff.mp h)
        simp only [List.length_cons] at hlen
        omega
      rw [intercalate_cons_of_ne_nil o hne', ptonParts_octet_dot _ ho hroom,
        ih hne' (by simp at hlen; omega) (fun o' h => hoct o' (List.mem_cons_of_mem _ h))
          (by simp; omega)]
      simp

/-- `ptonParts` reads dot-separated octets, as many as it has slots for, up to the NUL. -/
theorem ptonParts_eq_some_iff {slots : Nat} {parts ps : List Nat} {src : List Char}
    (hnul : '\x00' ∉ src) (hslots : parts.length + slots = nParts) :
    ptonParts slots parts src = some ps ↔
      ∃ os : List (List Char), os ≠ [] ∧ os.length ≤ slots ∧ (∀ o ∈ os, IsOctet o) ∧
        src = ['.'].intercalate os ∧ ps = parts ++ os.map value := by
  induction slots generalizing parts src with
  | zero =>
    refine ⟨fun h => by simp [ptonParts] at h, ?_⟩
    rintro ⟨os, hne, hlen, -⟩
    exact absurd (List.length_eq_zero_iff.mp (by omega)) hne
  | succ slots ih =>
    constructor
    · intro h
      simp only [ptonParts] at h
      split at h
      swap
      · cases h
      next hdig =>
      split at h
      · cases h
      next v r hd =>
      -- the first part is a run of digits `ds` up to `r`
      obtain ⟨ds, rfl, hds, hr, hval, hv⟩ := ptonDigits_eq_some (Nat.zero_le _) hd
      have hne : ds ≠ [] := by
        rintro rfl
        rw [List.nil_append, hr] at hdig
        cases hdig
      have hoct : IsOctet ds := ⟨⟨hne, hds⟩, by rw [value, hval]; exact hv⟩
      split at h
      · -- the NUL ends the string
        next hend =>
        cases h
        have hr0 : r = [] := by
          cases r with
          | nil => rfl
          | cons c r =>
            simp only [peek] at hend
            exact absurd (List.mem_append_right ds (hend ▸ List.mem_cons_self)) hnul
        subst hr0
        exact ⟨[ds], by simp, by simp, by simpa using hoct, by simp, by simp [value, hval]⟩
      · split at h
        · cases h
        next hnot =>
        -- a dot, and the parts after it
        have hdot : peek r = '.' := by
          by_contra hne'
          exact hnot (.inl hne')
        have hroom : ¬ nParts ≤ (parts ++ [v]).length := fun hle => hnot (.inr hle)
        obtain ⟨r', rfl⟩ : ∃ r', r = '.' :: r' := by
          cases r with
          | nil => simp [peek] at hdot
          | cons c r' =>
            simp only [peek] at hdot
            exact ⟨r', by rw [hdot]⟩
        have hnul' : '\x00' ∉ r' := fun hm => hnul (by simp [hm])
        have hslots' : (parts ++ [v]).length + slots = nParts := by simp; omega
        obtain ⟨os, hne', hlen, hoct', hsrc, hps⟩ := (ih hnul' hslots').mp h
        refine ⟨ds :: os, by simp, by simp; omega, ?_, ?_, ?_⟩
        · intro o ho
          rcases List.mem_cons.mp ho with rfl | ho
          · exact hoct
          · exact hoct' o ho
        · rw [intercalate_cons_of_ne_nil ds hne', hsrc]
        · rw [hps, List.map_cons, value, hval]
          simp
    · rintro ⟨os, hne, hlen, hoct, rfl, rfl⟩
      exact ptonParts_intercalate hne hlen hoct hslots

/-- `inet_pton` on four octets stores their packing, in network order. -/
theorem inetPton_quad {o0 o1 o2 o3 : List Char} (h0 : IsOctet o0) (h1 : IsOctet o1)
    (h2 : IsOctet o2) (h3 : IsOctet o3) :
    inetPton afInet (['.'].intercalate [o0, o1, o2, o3]) =
      (1, some (htonl (packParts (value o0) (value o1) (value o2) (value o3)))) := by
  have hparts := @ptonParts_intercalate nParts [] [o0, o1, o2, o3]
    (by simp) (by simp [nParts]) (by simp [h0, h1, h2, h3]) rfl
  simp only [inetPton, ne_eq, not_true_eq_false, if_false, hparts]
  rfl

/-- What `inet_pton` accepts, and what it stores. -/
theorem inetPton_eq_some {src : List Char} {b : BitVec 32} (hnul : '\x00' ∉ src)
    (h : inetPton afInet src = (1, some b)) :
    ∃ o0 o1 o2 o3, IsOctet o0 ∧ IsOctet o1 ∧ IsOctet o2 ∧ IsOctet o3 ∧
      src = ['.'].intercalate [o0, o1, o2, o3] ∧
      b = htonl (packParts (value o0) (value o1) (value o2) (value o3)) := by
  simp only [inetPton, ne_eq, not_true_eq_false, if_false] at h
  split at h
  · next p0 p1 p2 p3 hparts =>
    obtain ⟨os, -, hlen, hoct, rfl, hps⟩ :=
      (@ptonParts_eq_some_iff nParts [] _ _ hnul rfl).mp hparts
    match os, hps with
    | [o0, o1, o2, o3], hps =>
      simp only [List.map_cons, List.map_nil, List.nil_append, List.cons.injEq] at hps
      obtain ⟨rfl, rfl, rfl, rfl, -⟩ := hps
      simp only [Prod.mk.injEq, Option.some.injEq] at h
      exact ⟨o0, o1, o2, o3, hoct o0 (by simp), hoct o1 (by simp), hoct o2 (by simp),
        hoct o3 (by simp), rfl, h.2.symm⟩
  · simp at h

/-- `inet_pton` accepts exactly four dot-separated octets. -/
theorem inetPton_eq_one_iff {src : List Char} (hnul : '\x00' ∉ src) :
    (inetPton afInet src).1 = 1 ↔
      ∃ os : List (List Char), os.length = 4 ∧ (∀ o ∈ os, IsOctet o) ∧
        src = ['.'].intercalate os := by
  constructor
  · intro h
    have hsome : inetPton afInet src = (1, (inetPton afInet src).2) := Prod.ext h rfl
    cases hb : (inetPton afInet src).2 with
    | none =>
      simp only [inetPton, ne_eq, not_true_eq_false, if_false] at hsome hb
      split at hb <;> simp_all
    | some b =>
      rw [hb] at hsome
      obtain ⟨o0, o1, o2, o3, h0, h1, h2, h3, rfl, -⟩ := inetPton_eq_some hnul hsome
      exact ⟨[o0, o1, o2, o3], rfl, by simp [h0, h1, h2, h3], rfl⟩
  · rintro ⟨os, hlen, hoct, rfl⟩
    match os, hlen with
    | [o0, o1, o2, o3], _ =>
      rw [inetPton_quad (hoct o0 (by simp)) (hoct o1 (by simp)) (hoct o2 (by simp))
        (hoct o3 (by simp))]

/-! ## `inet_aton` on decimal parts -/

theorem isXDigit_of_isDigit {c : Char} (h : c.isDigit = true) : isXDigit c = true := by
  simp [isXDigit, h]

/-- The digit loop stops at a character that is no hex digit. -/
theorem atonDigits_stop {base v : Nat} {rest : List Char} (hrest : isXDigit (peek rest) = false) :
    atonDigits base v rest = some (v, rest) := by
  cases rest with
  | nil => rfl
  | cons c rest =>
    simp only [peek] at hrest
    simp [atonDigits, hrest]

/-- The digit loop in base 10 on a run of digits whose value fits in a `uint32_t`. -/
theorem atonDigits_decimal {v : Nat} {ds rest : List Char} (hds : ∀ c ∈ ds, c.isDigit = true)
    (hrest : isXDigit (peek rest) = false) (hfit : valueFrom v ds < 4294967296) :
    atonDigits 10 v (ds ++ rest) = some (valueFrom v ds, rest) := by
  induction ds generalizing v with
  | nil => exact atonDigits_stop hrest
  | cons c ds ih =>
    have hc := hds c List.mem_cons_self
    have hlt := digitValue_lt hc
    have hle := le_valueFrom (v * 10 + digitValue c) ds
    rw [valueFrom_cons] at hfit ⊢
    have hwrap : (v * 10 + digitValue c) % 4294967296 = v * 10 + digitValue c :=
      Nat.mod_eq_of_lt (by omega)
    simp only [List.cons_append, atonDigits, isXDigit_of_isDigit hc, if_true, hc, hwrap]
    rw [if_neg (by omega), if_neg (by omega)]
    exact ih (fun c' h => hds c' (List.mem_cons_of_mem c h)) hfit

/-- A part `inet_ntoa` prints, read by `inet_aton`: `0` in base 8, any other in base 10. -/
theorem atonPart_formatD {n : Nat} (hn : n < 4294967296) {rest : List Char}
    (hrest : peek rest = '\x00' ∨ peek rest = '.') :
    atonPart (formatD n ++ rest) = some (n, rest) := by
  have hx : isXDigit (peek rest) = false := by rcases hrest with h | h <;> rw [h] <;> rfl
  rcases Nat.eq_zero_or_pos n with rfl | hpos
  · have hpre : atonPrefix (formatD 0 ++ rest) = (8, rest) := by
      have hnx : ¬(peek rest = 'x' ∨ peek rest = 'X') := by
        rcases hrest with h | h <;> rw [h] <;> decide
      rw [show formatD 0 ++ rest = '0' :: rest from rfl]
      simp only [atonPrefix, peek_cons, List.tail_cons, if_true, hnx, if_false]
    simp only [atonPart, hpre]
    exact atonDigits_stop hx
  · have hne : formatD n ≠ [] := Nat.toDigits_ne_nil
    have hhead : (formatD n).head hne ≠ '0' := fun h =>
      head_toDigits_ne_zero hpos (show (formatD n).head? = some '0' by
        rw [List.head?_eq_some_head hne, h])
    have hpeek := peek_append_of_ne_nil rest hne
    have hdig : (peek (formatD n ++ rest)).isDigit = true := by
      rw [hpeek]
      exact isDigit_of_mem_toDigits (List.head_mem hne)
    have hpre : atonPrefix (formatD n ++ rest) = (10, formatD n ++ rest) := by
      rw [atonPrefix, hpeek, if_neg hhead]
    simp only [atonPart, hpre, hdig]
    rw [if_neg (by simp), if_neg (by simp),
      @atonDigits_decimal 0 (formatD n) rest (fun _ => isDigit_of_mem_toDigits) hx
        (by rw [← value, formatD, value_toDigits]; exact hn), ← value, formatD, value_toDigits]

/-- Parts printed with `%d` and joined with dots, as many as there are slots, read back by the
loop over the parts, as long as every part before a dot is at most 255. -/
theorem atonParts_formatD {slots : Nat} {parts ns : List Nat} (hne : ns ≠ [])
    (hlen : ns.length ≤ slots) (hslots : parts.length + slots = nParts)
    (hfit : ∀ n ∈ ns, n < 4294967296) (hdot : ∀ n ∈ ns.dropLast, n ≤ 255) :
    atonParts slots parts (['.'].intercalate (ns.map formatD)) = some (parts ++ ns) := by
  induction ns generalizing parts slots with
  | nil => exact absurd rfl hne
  | cons n ns ih =>
    obtain ⟨slots, rfl⟩ : ∃ k, slots = k + 1 := ⟨slots - 1, by simp at hlen; omega⟩
    have hn := hfit n List.mem_cons_self
    rcases eq_or_ne ns [] with rfl | hne'
    · -- the last part, up to the NUL
      have hpart := @atonPart_formatD n hn [] (.inl rfl)
      rw [List.append_nil] at hpart
      simp [atonParts, hpart]
    · -- a part before a dot, and the parts after it
      have hmap : ns.map formatD ≠ [] := by simpa using hne'
      have hpart := @atonPart_formatD n hn ('.' :: ['.'].intercalate (ns.map formatD)) (.inr rfl)
      have hdrop : (n :: ns).dropLast = n :: ns.dropLast := List.dropLast_cons_of_ne_nil hne'
      have hn255 : n ≤ 255 := hdot n (by rw [hdrop]; exact List.mem_cons_self)
      have hroom : ¬(nParts ≤ (parts ++ [n]).length) := by
        have : ns.length ≠ 0 := fun h => hne' (List.length_eq_zero_iff.mp h)
        simp only [List.length_cons] at hlen
        simp only [List.length_append, List.length_singleton]
        omega
      rw [List.map_cons, intercalate_cons_of_ne_nil _ hmap, atonParts, hpart]
      dsimp only
      rw [if_neg (by simp), if_neg (by
          simp only [peek_cons, ne_eq, not_true_eq_false, false_or, not_or]
          exact ⟨hroom, by omega⟩), List.tail_cons,
        ih hne' (by simp at hlen; omega) (by simp; omega)
          (fun m h => hfit m (List.mem_cons_of_mem n h))
          (fun m h => hdot m (by rw [hdrop]; exact List.mem_cons_of_mem n h))]
      simp

/-- `inet_aton` on four decimal parts: it stores their packing, whatever the last part is. -/
theorem inetAton_quad {a b c d : Nat} (ha : a ≤ 255) (hb : b ≤ 255) (hc : c ≤ 255)
    (hd : d < 4294967296) :
    inetAton (['.'].intercalate [formatD a, formatD b, formatD c, formatD d]) =
      some (htonl (packParts a b c d)) := by
  have hparts := @atonParts_formatD nParts [] [a, b, c, d]
    (by simp) (by simp [nParts]) rfl (by simp; omega) (by simp; omega)
  simp only [List.map_cons, List.map_nil, List.nil_append] at hparts
  simp only [inetAton, hparts]
  rfl

/-- `inet_aton` on one decimal part: it returns 1 and stores the address 0. -/
theorem inetAton_single {n : Nat} (hn : n < 4294967296) : inetAton (formatD n) = some 0 := by
  have hparts := @atonParts_formatD nParts [] [n]
    (by simp) (by simp [nParts]) rfl (by simpa using hn) (by simp)
  simp only [List.map_cons, List.map_nil, List.intercalate_singleton, List.nil_append] at hparts
  simp only [inetAton, hparts]
  rfl

/-! ## `inet_ntoa` -/

theorem toNat_and_ff (x : BitVec 32) : (x &&& 0xFF#32).toNat = byte x 0 := by
  have := toNat_shiftRight_and x 0
  rw [BitVec.ushiftRight_zero] at this
  exact this

theorem length_formatD_byte (x : BitVec 32) (k : Nat) : (formatD (byte x k)).length ≤ 3 :=
  (Nat.length_toDigits_le_iff (by decide) (by decide)).mpr (by have := byte_lt x k; omega)

/-- `inet_ntoa` prints the four bytes of the host-order address, most significant first; the
string fits in `buf`. -/
theorem inetNtoa_eq (a : BitVec 32) :
    inetNtoa a = ['.'].intercalate [formatD (byte (ntohl a) 3), formatD (byte (ntohl a) 2),
      formatD (byte (ntohl a) 1), formatD (byte (ntohl a) 0)] := by
  have h3 : ((ntohl a >>> 24) &&& 0xFF#32).toNat = byte (ntohl a) 3 := toNat_shiftRight_and _ 24
  have h2 : ((ntohl a >>> 16) &&& 0xFF#32).toNat = byte (ntohl a) 2 := toNat_shiftRight_and _ 16
  have h1 : ((ntohl a >>> 8) &&& 0xFF#32).toNat = byte (ntohl a) 1 := toNat_shiftRight_and _ 8
  have hlen := fun k => length_formatD_byte (ntohl a) k
  simp only [inetNtoa, h3, h2, h1, toNat_and_ff]
  rw [List.take_of_length_le]
  · simp only [List.intercalate_cons_cons, List.intercalate_singleton, List.append_assoc,
      List.cons_append, List.nil_append]
  · have := hlen 3
    have := hlen 2
    have := hlen 1
    have := hlen 0
    simp only [List.length_append, List.length_cons, bufMax]
    omega

/-! ## Round trips -/

theorem isOctet_formatD {n : Nat} (h : n ≤ 255) : IsOctet (formatD n) :=
  ⟨isNumeral_toDigits n, by rw [formatD, value_toDigits]; exact h⟩

theorem value_formatD (n : Nat) : value (formatD n) = n := value_toDigits n

theorem dot_not_mem_octet {o : List Char} (ho : IsOctet o) : '.' ∉ o := fun h =>
  absurd (ho.1.2 '.' h) (by decide)

/-- Dotted quads make the round trip: `inet_pton` and `inet_aton` read back what `inet_ntoa`
prints, `inet_ntoa` prints back every dotted quad that `inet_pton` accepts if its octets have no
leading zeros, and `inet_pton` accepts exactly four dot-separated decimal octets of at most 255. -/
theorem dotted_quad_round_trip :
    (∀ a : BitVec 32,
      inetPton afInet (inetNtoa a) = (1, some a) ∧ inetAton (inetNtoa a) = some a) ∧
    (∀ (s : List Char) (b : BitVec 32), '\x00' ∉ s → inetPton afInet s = (1, some b) →
      (∀ o ∈ s.splitOn '.', NoLeadingZero o) → inetNtoa b = s) ∧
    (∀ s : List Char, '\x00' ∉ s → ((inetPton afInet s).1 = 1 ↔
      ∃ os : List (List Char), os.length = 4 ∧ (∀ o ∈ os, IsOctet o) ∧
        s = ['.'].intercalate os)) := by
  refine ⟨fun a => ?_, fun s b hnul h hzero => ?_, fun s hnul => inetPton_eq_one_iff hnul⟩
  · -- the four bytes of the host-order address are octets, and pack back into it
    have hb (k : Nat) : byte (ntohl a) k ≤ 255 := by have := byte_lt (ntohl a) k; omega
    have hback : htonl (packParts (byte (ntohl a) 3) (byte (ntohl a) 2) (byte (ntohl a) 1)
        (byte (ntohl a) 0)) = a := by
      rw [packParts_bytes, ntohl, htonl_htonl]
    rw [inetNtoa_eq]
    refine ⟨?_, ?_⟩
    · rw [inetPton_quad (isOctet_formatD (hb 3)) (isOctet_formatD (hb 2))
        (isOctet_formatD (hb 1)) (isOctet_formatD (hb 0)), value_formatD, value_formatD,
        value_formatD, value_formatD, hback]
    · rw [inetAton_quad (hb 3) (hb 2) (hb 1) (by have := hb 0; omega), hback]
  · -- the octets of `s`, printed back without leading zeros
    obtain ⟨o0, o1, o2, o3, h0, h1, h2, h3, rfl, rfl⟩ := inetPton_eq_some hnul h
    have hsplit : (['.'].intercalate [o0, o1, o2, o3]).splitOn '.' = [o0, o1, o2, o3] :=
      List.splitOn_intercalate '.' (by simp [dot_not_mem_octet, h0, h1, h2, h3]) (by simp)
    rw [hsplit] at hzero
    have hprint {o : List Char} (ho : IsOctet o) (hmem : o ∈ [o0, o1, o2, o3]) :
        formatD (value o) = o := toDigits_value ho.1 (hzero o hmem)
    obtain ⟨e3, e2, e1, e0⟩ := bytes_packParts (Nat.lt_succ_of_le h0.2)
      (Nat.lt_succ_of_le h1.2) (Nat.lt_succ_of_le h2.2) (Nat.lt_succ_of_le h3.2)
    rw [inetNtoa_eq, ntohl, htonl_htonl, e3, e2, e1, e0, hprint h0 (by simp),
      hprint h1 (by simp), hprint h2 (by simp), hprint h3 (by simp)]

/-- `inet_aton` returns 1 where the numbers-and-dots grammar has no address: a single part is
stored as the address 0 whatever its value, and the last of four parts is never checked
against 255, its high bits or-ed into the other bytes of the address. -/
theorem inet_aton_accepts_out_of_range :
    (∀ n : Nat, n < 4294967296 → inetAton (formatD n) = some 0) ∧
    (∀ a b c d : Nat, a ≤ 255 → b ≤ 255 → c ≤ 255 → 255 < d → d < 4294967296 →
      inetAton (['.'].intercalate [formatD a, formatD b, formatD c, formatD d]) =
        some (htonl (packParts a b c d))) :=
  ⟨fun _ hn => inetAton_single hn, fun _ _ _ _ ha hb hc _ hd => inetAton_quad ha hb hc hd⟩

/-- `inet_aton("1.2.3.256")` returns 1 with the address 1.2.3.0, and `inet_aton("127")` with
0.0.0.0. -/
theorem inet_aton_accepts_out_of_range_1_2_3_256 :
    inetAton ['1', '.', '2', '.', '3', '.', '2', '5', '6'] = some (htonl (packParts 1 2 3 0)) ∧
      inetAton ['1', '2', '7'] = some 0 := by
  obtain ⟨hsingle, hquad⟩ := inet_aton_accepts_out_of_range
  have hquad' := hquad 1 2 3 256 (by decide) (by decide) (by decide) (by decide) (by decide)
  have hsingle' := hsingle 127 (by decide)
  have hs : ['.'].intercalate [formatD 1, formatD 2, formatD 3, formatD 256] =
      ['1', '.', '2', '.', '3', '.', '2', '5', '6'] := by decide
  have hp : packParts 1 2 3 256 = packParts 1 2 3 0 := by decide
  rw [hs, hp] at hquad'
  exact ⟨hquad', hsingle'⟩

end Argentum.Libc
