import Argentum.Kernel.Kdebug

/-!
# Argentum.Kernel.DebugLine

`get_debug_line_info` of `kernel/kdebug.c`: the interpreter of a DWARF line-number program
that the kernel's backtraces use to find the source line of a `pc`.

The source decodes and executes each opcode in one `switch`; the model takes the two apart.
`decodeLineOp` reads an opcode and its operands (`LineOp`), `execLineOp` applies it to the
two registers the lookup keeps, `address` and `line`, and `lineStep` is the two together,
one round of the loop. After every opcode, whether or not it appends a row to the line
table, the loop stops at the first `address >= pc` and reports the line register there.

The loop ends because every opcode takes at least one byte (`lineStep_lt`): it runs at most
`program_end - program_begin` rounds, which the model gives it as fuel
(`getDebugLineLoop_fuel`). `getDebugLineLoop_eq_find` says what the early exit computes:
the line of the first state of the whole run at or past `pc`.

`lineRows` and `coveringLine` are the line table as the DWARF standard defines it (the rows
appended by special opcodes, `DW_LNS_copy` and `DW_LNE_end_sequence`) and the lookup of the
row that covers `pc`, to compare the source with.

Not modelled: the header's `version` and `default_is_stmt`, which are skipped, and the
registers the source keeps only as comments (`file`, `column`, `is_stmt` and the flags).
A `line` overflow, undefined in C, is not modelled: `line` is an integer.
-/

namespace Argentum.Kernel

/-! ## The line-number program -/

/-- The header fields the lookup reads. -/
structure LineHeader where
  minInstructionLength : UInt8
  /-- `line_base`, an `int8_t`. -/
  lineBase : Int
  lineRange : UInt8
  opcodeBase : UInt8

/-- The registers of the line-number state machine that the lookup keeps. -/
structure LineRegs where
  address : UInt32
  line : Int
  deriving DecidableEq

/-- An opcode of the line-number program, with the operands it reads. -/
inductive LineOp
  | copy
  | advancePc (n : UInt32)
  | advanceLine (d : Int)
  | setFile
  | setColumn
  | negateStmt
  | setBasicBlock
  | constAddPc
  | fixedAdvancePc (n : UInt16)
  | setPrologueEnd
  | setEpilogueBegin
  | setIsa
  | endSequence
  | setAddress (a : UInt32)
  | defineFile
  /-- An extended opcode the source does not know: only its length and number are read. -/
  | extended (sub : UInt8)
  /-- Every other opcode, which the source takes for a special opcode. -/
  | special (opcode : UInt8)

/-- The loop `while (*ptr++);` of `DW_LNE_define_file`: the number of bytes up to and
including the terminating NUL. -/
def skipStringLoop : List UInt8 → Option Nat
  | [] => none
  | b :: bs => if b = 0 then some 1 else (skipStringLoop bs).map (· + 1)

/-- `while (*ptr++);` from `ptr`: the offset past the NUL. -/
def skipString (mem : List UInt8) (ptr : Nat) : Option Nat :=
  (skipStringLoop (mem.drop ptr)).map (ptr + ·)

/-- The inner `switch (*ptr++)` of an extended opcode, at the byte after its length. -/
def decodeExtended (mem : List UInt8) (ptr : Nat) : Option (LineOp × Nat) := do
  let sub ← mem[ptr]?
  let ptr := ptr + 1
  match sub.toNat with
  | 1 => some (.endSequence, ptr)
  | 2 =>
    let (a, ptr) ← getUword mem ptr
    some (.setAddress a, ptr)
  | 3 =>
    let ptr ← skipString mem ptr
    let (_, ptr) ← getUleb128 mem ptr
    let (_, ptr) ← getUleb128 mem ptr
    let (_, ptr) ← getUleb128 mem ptr
    some (.defineFile, ptr)
  | _ => some (.extended sub, ptr)

/-- The `switch` of `get_debug_line_info` as far as it reads: the opcode at `ptr`, its
operands, and the offset past them. -/
def decodeLineOp (mem : List UInt8) (ptr : Nat) : Option (LineOp × Nat) := do
  let opcode ← mem[ptr]?
  let ptr := ptr + 1
  match opcode.toNat with
  | 0 =>
    -- the extended opcode's length is read and not used
    let (_, ptr) ← getUleb128 mem ptr
    decodeExtended mem ptr
  | 1 => some (.copy, ptr)
  | 2 =>
    let (n, ptr) ← getUleb128 mem ptr
    some (.advancePc n, ptr)
  | 3 =>
    let (d, ptr) ← getSleb128 mem ptr
    some (.advanceLine d, ptr)
  | 4 =>
    let (_, ptr) ← getUleb128 mem ptr
    some (.setFile, ptr)
  | 5 =>
    let (_, ptr) ← getUleb128 mem ptr
    some (.setColumn, ptr)
  | 6 => some (.negateStmt, ptr)
  | 7 => some (.setBasicBlock, ptr)
  | 8 => some (.constAddPc, ptr)
  | 9 =>
    let (n, ptr) ← getUhalf mem ptr
    some (.fixedAdvancePc n, ptr)
  | 10 => some (.setPrologueEnd, ptr)
  | 11 => some (.setEpilogueBegin, ptr)
  | 12 =>
    let (_, ptr) ← getUleb128 mem ptr
    some (.setIsa, ptr)
  | _ => some (.special opcode, ptr)

/-- The `switch` of `get_debug_line_info` as far as it writes `address` and `line`. The
arithmetic of `DW_LNS_const_add_pc` and of a special opcode is on `int`s: a division by a
zero `line_range` is a failure, and the special opcode's quotient and remainder are C's,
truncated towards zero. -/
def execLineOp (h : LineHeader) (r : LineRegs) : LineOp → Option LineRegs
  | .advancePc n => some { r with address := r.address + n * h.minInstructionLength.toUInt32 }
  | .advanceLine d => some { r with line := r.line + d }
  | .constAddPc =>
    if h.lineRange = 0 then none
    else
      let advance := (255 - h.opcodeBase.toNat) / h.lineRange.toNat * h.minInstructionLength.toNat
      some { r with address := r.address + UInt32.ofNat advance }
  | .fixedAdvancePc n => some { r with address := r.address + n.toUInt32 }
  | .endSequence => some ⟨0, 1⟩
  | .setAddress a => some { r with address := a }
  | .special opcode =>
    if h.lineRange = 0 then none
    else
      let adjusted : Int := opcode.toNat - h.opcodeBase.toNat
      some ⟨r.address + UInt32.ofInt
          (adjusted.tdiv h.lineRange.toNat * h.minInstructionLength.toNat),
        r.line + (h.lineBase + adjusted.tmod h.lineRange.toNat)⟩
  | _ => some r

/-- One round of the loop of `get_debug_line_info`: the offset of the next opcode and the
registers after this one. -/
def lineStep (mem : List UInt8) (h : LineHeader) (ptr : Nat) (r : LineRegs) :
    Option (Nat × LineRegs) := do
  let (op, ptr) ← decodeLineOp mem ptr
  let r ← execLineOp h r op
  some (ptr, r)

/-- The loop of `get_debug_line_info` from `ptr`, with at most `fuel` rounds: `some (some
line)` where it stops at `address >= pc` with `info->line = line`, `some none` where it
reaches `program_end` and returns -1. -/
def getDebugLineLoop (mem : List UInt8) (h : LineHeader) (pc : UInt32) (programEnd : Nat) :
    Nat → Nat → LineRegs → Option (Option Int)
  | 0, _, _ => none
  | fuel + 1, ptr, r =>
    if ptr < programEnd then
      match lineStep mem h ptr r with
      | none => none
      | some (ptr, r) =>
        if pc ≤ r.address then some (some r.line)
        else getDebugLineLoop mem h pc programEnd fuel ptr r
    else some none

/-- The header of the unit at `ptr`: the fields the lookup keeps, the start of the program
(`ptr + header_length` after the field) and its end (`ptr + unit_length` after the
field). -/
def getLineHeader (mem : List UInt8) (ptr : Nat) : Option (LineHeader × Nat × Nat) := do
  let (unitLength, ptr) ← getUword mem ptr
  let programEnd := ptr + unitLength.toNat
  -- the version
  let (_, ptr) ← getUhalf mem ptr
  let (headerLength, ptr) ← getUword mem ptr
  let programBegin := ptr + headerLength.toNat
  let minInstructionLength ← mem[ptr]?
  -- `ptr + 1` is `default_is_stmt`, skipped
  let lineBase ← mem[ptr + 2]?
  let lineRange ← mem[ptr + 3]?
  let opcodeBase ← mem[ptr + 4]?
  some (⟨minInstructionLength, lineBase.toInt8.toInt, lineRange, opcodeBase⟩, programBegin,
    programEnd)

/-- `get_debug_line_info(ptr, pc, info)` on the `.debug_line` section `mem`: `some none` for
-1, `some (some line)` for 0 with `info->line = line`. The loop gets one round for each byte
of the program and one for the last test. -/
def getDebugLineInfo (mem : List UInt8) (ptr : Nat) (pc : UInt32) : Option (Option Int) :=
  if mem.length ≤ ptr then some none
  else do
    let (h, programBegin, programEnd) ← getLineHeader mem ptr
    getDebugLineLoop mem h pc programEnd (programEnd - programBegin + 1) programBegin ⟨0, 1⟩

/-! ## Every opcode takes a byte -/

theorem skipStringLoop_pos : ∀ {bytes : List UInt8} {n : Nat}, skipStringLoop bytes = some n → 0 < n
  | [], _, h => by simp [skipStringLoop] at h
  | b :: bytes, n, h => by
    rw [skipStringLoop] at h
    split at h
    · cases h
      exact Nat.one_pos
    · obtain ⟨n', -, rfl⟩ := Option.map_eq_some_iff.1 h
      exact Nat.succ_pos n'

theorem skipString_lt {mem : List UInt8} {ptr ptr' : Nat} (h : skipString mem ptr = some ptr') :
    ptr < ptr' := by
  obtain ⟨n, hloop, rfl⟩ := Option.map_eq_some_iff.1 h
  have := skipStringLoop_pos hloop
  omega

theorem decodeExtended_lt {mem : List UInt8} {ptr ptr' : Nat} {op : LineOp}
    (h : decodeExtended mem ptr = some (op, ptr')) : ptr < ptr' := by
  unfold decodeExtended at h
  obtain ⟨sub, -, h⟩ := Option.bind_eq_some_iff.1 h
  split at h <;> simp only [Option.bind_eq_bind, Option.bind_eq_some_iff, Prod.exists,
    Option.some.injEq, Prod.mk.injEq] at h
  case h_2 =>
    -- `DW_LNE_set_address`: a word
    obtain ⟨_, p, hp, -, rfl⟩ := h
    have := getUword_lt hp
    omega
  case h_3 =>
    -- `DW_LNE_define_file`: a string and three numbers
    obtain ⟨p₁, hp₁, _, p₂, hp₂, _, p₃, hp₃, _, p₄, hp₄, -, rfl⟩ := h
    have := skipString_lt hp₁
    have := getUleb128_lt hp₂
    have := getUleb128_lt hp₃
    have := getUleb128_lt hp₄
    omega
  all_goals omega

theorem decodeLineOp_lt {mem : List UInt8} {ptr ptr' : Nat} {op : LineOp}
    (h : decodeLineOp mem ptr = some (op, ptr')) : ptr < ptr' := by
  unfold decodeLineOp at h
  obtain ⟨opcode, -, h⟩ := Option.bind_eq_some_iff.1 h
  -- after the opcode: the extended opcodes, the standard ones whose operand is read by
  -- `get_uleb128`, `get_sleb128` or `get_uhalf`, and last those without operands
  split at h <;> simp only [Option.bind_eq_bind, Option.bind_eq_some_iff, Prod.exists,
    Option.some.injEq, Prod.mk.injEq] at h
  case h_1 =>
    obtain ⟨_, p, hp, h⟩ := h
    have := getUleb128_lt hp
    have := decodeExtended_lt h
    omega
  case h_3 | h_5 | h_6 | h_13 =>
    obtain ⟨_, p, hp, -, rfl⟩ := h
    have := getUleb128_lt hp
    omega
  case h_4 =>
    obtain ⟨_, p, hp, -, rfl⟩ := h
    have := getSleb128_lt hp
    omega
  case h_10 =>
    obtain ⟨_, p, hp, -, rfl⟩ := h
    have := getUhalf_lt hp
    omega
  all_goals omega

/-- Every round of the loop moves `ptr` on. -/
theorem lineStep_lt {mem : List UInt8} {h : LineHeader} {ptr ptr' : Nat} {r r' : LineRegs}
    (hs : lineStep mem h ptr r = some (ptr', r')) : ptr < ptr' := by
  obtain ⟨⟨op, p⟩, hdec, hs⟩ := Option.bind_eq_some_iff.1 hs
  obtain ⟨r'', -, hs⟩ := Option.bind_eq_some_iff.1 hs
  cases hs
  exact decodeLineOp_lt hdec

/-! ## The loop -/

/-- The loop does not run out of fuel: with more rounds than bytes left before
`program_end`, one more round changes nothing. -/
theorem getDebugLineLoop_fuel {mem : List UInt8} {h : LineHeader} {pc : UInt32}
    {programEnd : Nat} : ∀ (fuel ptr : Nat) (r : LineRegs), programEnd - ptr < fuel →
      getDebugLineLoop mem h pc programEnd (fuel + 1) ptr r =
        getDebugLineLoop mem h pc programEnd fuel ptr r
  | 0, _, _, hf => absurd hf (Nat.not_lt_zero _)
  | fuel + 1, ptr, r, hf => by
    rw [getDebugLineLoop.eq_2, getDebugLineLoop.eq_2]
    by_cases hp : ptr < programEnd
    · rw [if_pos hp, if_pos hp]
      rcases hs : lineStep mem h ptr r with _ | ⟨ptr', r'⟩
      · rfl
      · -- the round moved `ptr` on, so the fuel left still exceeds the bytes left
        have hlt := lineStep_lt hs
        dsimp only
        split_ifs
        · rfl
        · exact getDebugLineLoop_fuel fuel ptr' r' (by omega)
    · rw [if_neg hp, if_neg hp]

/-- The registers after each opcode from `ptr` up to `program_end`, as far as the program
decodes: the whole run, which the loop of `get_debug_line_info` leaves early. -/
def lineTrace (mem : List UInt8) (h : LineHeader) (programEnd : Nat) :
    Nat → Nat → LineRegs → Option (List LineRegs)
  | 0, _, _ => none
  | fuel + 1, ptr, r =>
    if ptr < programEnd then
      match lineStep mem h ptr r with
      | none => none
      | some (ptr, r) => (lineTrace mem h programEnd fuel ptr r).map (r :: ·)
    else some []

/-- The loop's early exit: where the whole run decodes, the loop reports the line of the
first state at or past `pc`, and -1 where there is none. -/
theorem getDebugLineLoop_eq_find {mem : List UInt8} {h : LineHeader} {pc : UInt32}
    {programEnd : Nat} : ∀ (fuel ptr : Nat) (r : LineRegs) (rs : List LineRegs),
      lineTrace mem h programEnd fuel ptr r = some rs →
      getDebugLineLoop mem h pc programEnd fuel ptr r =
        some ((rs.find? fun s => pc ≤ s.address).map LineRegs.line)
  | 0, _, _, _, ht => by simp [lineTrace] at ht
  | fuel + 1, ptr, r, rs, ht => by
    rw [lineTrace.eq_2] at ht
    rw [getDebugLineLoop.eq_2]
    by_cases hp : ptr < programEnd
    · rw [if_pos hp] at ht ⊢
      rcases hs : lineStep mem h ptr r with _ | ⟨ptr', r'⟩
      · simp [hs] at ht
      · simp only [hs, Option.map_eq_some_iff] at ht
        obtain ⟨rs', ht', rfl⟩ := ht
        dsimp only
        by_cases hpc : pc ≤ r'.address
        · rw [if_pos hpc]
          simp [hpc]
        · rw [if_neg hpc, List.find?_cons, decide_eq_false hpc]
          exact getDebugLineLoop_eq_find fuel ptr' r' rs' ht'
    · rw [if_neg hp] at ht ⊢
      cases ht
      rfl

/-! ## The line table of the DWARF standard -/

/-- A row of the line table. -/
structure LineRow where
  address : UInt32
  line : Int
  endSequence : Bool
  deriving DecidableEq

/-- The rows an opcode appends to the line table, from the registers `r` before it and `r'`
after: a special opcode and `DW_LNS_copy` append the registers after them, and
`DW_LNE_end_sequence` the registers it ends the sequence with. -/
def LineOp.rows (r r' : LineRegs) : LineOp → List LineRow
  | .copy | .special _ => [⟨r'.address, r'.line, false⟩]
  | .endSequence => [⟨r.address, r.line, true⟩]
  | _ => []

/-- The line table of the program from `ptr` to `programEnd`. -/
def lineRows (mem : List UInt8) (h : LineHeader) (programEnd : Nat) :
    Nat → Nat → LineRegs → Option (List LineRow)
  | 0, _, _ => none
  | fuel + 1, ptr, r =>
    if ptr < programEnd then
      match decodeLineOp mem ptr with
      | none => none
      | some (op, ptr') =>
        match execLineOp h r op with
        | none => none
        | some r' => (lineRows mem h programEnd fuel ptr' r').map (op.rows r r' ++ ·)
    else some []

/-- The line of the row that covers `pc`: a row of a sequence at or below `pc` whose
successor in the sequence is above it. `none` where no sequence covers `pc`. -/
def coveringLine (pc : UInt32) : List LineRow → Option Int
  | a :: b :: rows =>
    if a.endSequence = false ∧ a.address ≤ pc ∧ pc < b.address then some a.line
    else coveringLine pc (b :: rows)
  | _ => none

/-- The lookup the DWARF standard defines, on the unit `get_debug_line_info` reads: the line
of the row that covers `pc`, or -1. -/
def debugLineSpec (mem : List UInt8) (ptr : Nat) (pc : UInt32) : Option (Option Int) :=
  if mem.length ≤ ptr then some none
  else do
    let (h, programBegin, programEnd) ← getLineHeader mem ptr
    let rows ← lineRows mem h programEnd (programEnd - programBegin + 1) programBegin ⟨0, 1⟩
    some (coveringLine pc rows)

/-- A unit as `gas` writes it for one sequence of `a.c`: `DW_LNE_set_address 0x100`,
`DW_LNS_advance_line 9`, `DW_LNS_copy` (row `0x100`, line 10), a special opcode that advances
the address by 8 and the line by 2 (row `0x108`, line 12), `DW_LNS_advance_pc 4` and
`DW_LNE_end_sequence` (the end at `0x10c`). -/
def lineUnit : List UInt8 :=
  [0x30, 0, 0, 0, 2, 0, 0x1A, 0, 0, 0, 1, 1, 0xFB, 14, 13,
    0, 1, 1, 1, 1, 0, 0, 0, 1, 0, 0, 1, 0, 0x61, 0x2E, 0x63, 0, 0, 0, 0, 0,
    0, 5, 2, 0x00, 0x01, 0, 0, 3, 9, 1, 0x84, 2, 4, 0, 1, 1]

theorem debug_line_reports_later_state :
    getDebugLineInfo lineUnit 0 0x104 = some (some 12) ∧
      debugLineSpec lineUnit 0 0x104 = some (some 10) ∧
      getDebugLineInfo lineUnit 0 0x100 = some (some 1) ∧
      debugLineSpec lineUnit 0 0x100 = some (some 10) ∧
      getDebugLineInfo lineUnit 0 0x80 = some (some 1) ∧
      debugLineSpec lineUnit 0 0x80 = some none := by
  decide +kernel

end Argentum.Kernel
