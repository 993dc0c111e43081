import Mathlib.Data.Nat.Bitwise
import Mathlib.Logic.Relation

/-!
# Argentum.Kernel.Tty

The input side of a virtual console, `kernel/tty.c`: `tty_process_input` edits and stores the
characters a driver feeds in, and `tty_read` hands them to a reader.

The input buffer is a ring of `TTY_INPUT_MAX` bytes with `read_pos`, `write_pos` and `size`.
In canonical mode `VERASE` and `VKILL` edit the buffer's tail: `tty_erase_input` drops the
last byte stored, whatever it is, so an erase right after a delimiter takes the delimiter back
and joins the next line to the delimited one. A reader takes bytes as soon as there are any
and stops after a delimiter; it waits when the buffer runs empty before that.

Echo and `arch_tty_erase` are the console output `out`; signals sent to the foreground process
group are `signals`. The notification of readers, and the mutexes, are scheduling and are not
modelled: `tty_read` returns whether it finished or would wait.
-/

namespace Argentum.Kernel

/-- `TTY_INPUT_MAX`. -/
def ttyInputMax : Nat := 256

/-! ## Terminal flags, `lib/argentum/include/sys/termios.h` -/

def icrnl : Nat := 0x0002
def igncr : Nat := 0x0008
def inlcr : Nat := 0x0020
def istrip : Nat := 0x0080
def ixoff : Nat := 0x0100
def ixon : Nat := 0x0200
def ixany : Nat := 0x0800
def brkint : Nat := 0x0001

def echo : Nat := 0x0001
def echoe : Nat := 0x0002
def echok : Nat := 0x0004
def echonl : Nat := 0x0008
def icanon : Nat := 0x0010
def isig : Nat := 0x0040

/-- The indices of `c_cc`. -/
def vEof : Nat := 0
def vEol : Nat := 1
def vErase : Nat := 2
def vIntr : Nat := 3
def vKill : Nat := 4
def vMin : Nat := 5
def vQuit : Nat := 6
def vSusp : Nat := 8
def vStart : Nat := 9
def vStop : Nat := 10

/-- `IN_EOF` and `IN_EOL`, the bits of `tty_process_input`'s status. -/
def inEof : Nat := 1
def inEol : Nat := 2

/-- `SIGINT`, `SIGQUIT` and `SIGSTOP`. -/
def sigInt : Nat := 2
def sigQuit : Nat := 3
def sigStop : Nat := 17

/-! ## State -/

/-- What the console shows: an echoed character, or `arch_tty_erase`. -/
inductive TtyOut
  | char (c : UInt8)
  | erase
  deriving DecidableEq, Repr

/-- A `struct Tty`, with what it sent out. -/
structure Tty where
  buf : Nat → UInt8
  size : Nat
  readPos : Nat
  writePos : Nat
  stopped : Bool
  iflag : Nat
  lflag : Nat
  cc : Nat → UInt8
  pgrp : Int
  out : List TtyOut
  signals : List Nat

/-- A console as `tty_init` sets it up. -/
def ttyInit : Tty where
  buf := fun _ => 0
  size := 0
  readPos := 0
  writePos := 0
  stopped := false
  iflag := brkint ||| icrnl ||| ixon ||| ixany
  lflag := isig ||| icanon ||| echo ||| echoe
  cc := fun i =>
    if i = vEof then 4 else if i = vEol then 0xFF else if i = vErase then 8
    else if i = vIntr then 3 else if i = vKill then 21 else if i = vMin then 1
    else if i = vQuit then 28 else if i = vSusp then 26 else if i = vStart then 17
    else if i = vStop then 19 else 0
  pgrp := 0
  out := []
  signals := []

/-! ## Input -/

/-- `tty_echo(tty, c)`. -/
def ttyEcho (T : Tty) (c : UInt8) : Tty := { T with out := T.out ++ [.char c] }

/-- `tty_erase_input(tty)`: the last byte stored is dropped, and whether there was one. -/
def ttyEraseInput (T : Tty) : Tty × Bool :=
  if T.size = 0 then (T, false)
  else
    let out := if T.lflag &&& echoe ≠ 0 then T.out ++ [.erase] else T.out
    ({ T with
        out
        size := T.size - 1
        writePos := if T.writePos = 0 then ttyInputMax - 1 else T.writePos - 1 }, true)

/-- `while (tty_erase_input(tty));` -/
def ttyEraseAll (T : Tty) : Tty :=
  if _h : T.size = 0 then T else ttyEraseAll (ttyEraseInput T).1
termination_by T.size
decreasing_by
  simp only [ttyEraseInput, _h, ↓reduceIte]
  omega

/-- `tty_signal(tty, signo)`. -/
def ttySignal (T : Tty) (signo : Nat) : Tty :=
  if T.pgrp ≤ 1 then T else { T with signals := T.signals ++ [signo] }

/-- The signal a character stands for, or 0. -/
def ttySignalOf (T : Tty) (c : UInt8) : Nat :=
  if c = T.cc vIntr then sigInt else if c = T.cc vQuit then sigQuit
  else if c = T.cc vSusp then sigStop else 0

/-- The echo of a character on its way to the buffer: not `VEOF`, and a newline also with
`ECHONL`. -/
def ttyEchoInput (T : Tty) (c : UInt8) : Tty :=
  if c ≠ T.cc vEof ∧ T.lflag &&& echo ≠ 0 then ttyEcho T c
  else if c = 10 ∧ T.lflag &&& echonl ≠ 0 then ttyEcho T c else T

/-- The end of the loop body: echo, then store unless the buffer is full. In canonical mode
the last free slot is kept for a delimiter. -/
def ttyStore (T : Tty) (c : UInt8) : Tty :=
  let T := ttyEchoInput T c
  if T.size = ttyInputMax - 1 ∧
      (T.lflag &&& icanon = 0 ∨ (c ≠ T.cc vEol ∧ c ≠ T.cc vEof ∧ c ≠ 10)) then T
  else if T.size = ttyInputMax then T
  else
    { T with
      buf := Function.update T.buf T.writePos c
      writePos := (T.writePos + 1) % ttyInputMax
      size := T.size + 1 }

/-- `ISTRIP`, `IGNCR`, `ICRNL` and `INLCR`: the character after the input mapping, or `none`
for an ignored carriage return. -/
def ttyMapInput (T : Tty) (c : UInt8) : Option UInt8 :=
  let c := if T.iflag &&& istrip ≠ 0 then c &&& 0x7F else c
  if c = 13 ∧ T.iflag &&& igncr ≠ 0 then none
  else some (if c = 13 ∧ T.iflag &&& icrnl ≠ 0 then 10
    else if c = 10 ∧ T.iflag &&& inlcr ≠ 0 then 13 else c)

/-- The status bits a character sets in canonical mode. -/
def ttyStatusOf (T : Tty) (c : UInt8) : Nat :=
  (if c = T.cc vEof then inEof else 0) ||| (if c = T.cc vEol ∨ c = 10 then inEol else 0)

/-- The loop body after the canonical editing: flow control, signals, then the buffer. -/
def ttyInputRest (T : Tty) (c : UInt8) : Tty :=
  let flow := T.iflag &&& (ixon ||| ixoff) ≠ 0
  if flow ∧ c = T.cc vStop then
    let T := { T with stopped := true }
    if T.iflag &&& ixoff ≠ 0 then ttyEcho T c else T
  else
    let T := if flow ∧ (c = T.cc vStart ∨ T.iflag &&& ixany ≠ 0) then { T with stopped := false }
      else T
    if flow ∧ c = T.cc vStart then (if T.iflag &&& ixoff ≠ 0 then ttyEcho T c else T)
    else if T.lflag &&& isig ≠ 0 ∧ ttySignalOf T c ≠ 0 then
      ttyEcho (ttySignal T (ttySignalOf T c)) c
    else ttyStore T c

/-- One character of `tty_process_input`, with the status so far. -/
def ttyInputChar (T : Tty) (st : Nat) (c : UInt8) : Tty × Nat :=
  match ttyMapInput T c with
  | none => (T, st)
  | some c =>
    let canon := T.lflag &&& icanon ≠ 0
    if canon ∧ c = T.cc vErase then ((ttyEraseInput T).1, st)
    else if canon ∧ c = T.cc vKill then
      let T := ttyEraseAll T
      (if T.lflag &&& echok ≠ 0 then ttyEcho T c else T, st)
    else (ttyInputRest T c, if canon then st ||| ttyStatusOf T c else st)

/-- `tty_process_input(tty, buf)`: the characters up to the first 0, and whether readers are
woken. -/
def ttyProcessInput (T : Tty) (chunk : List UInt8) : Tty × Bool :=
  let r := (chunk.takeWhile (· ≠ 0)).foldl (fun x c => ttyInputChar x.1 x.2 c) (T, 0)
  (r.1, r.2 &&& (inEof ||| inEol) ≠ 0 ∨ T.lflag &&& icanon = 0)

/-! ## Reading -/

/-- The loop of `tty_read` after `acc` was read: the bytes for the reader, and whether the
read finished (`false`: it waits for input with the bytes so far already delivered). -/
def ttyReadLoop (T : Tty) (nbytes : Nat) (acc : List UInt8) : Tty × List UInt8 × Bool :=
  if nbytes ≤ acc.length then (T, acc, true)
  else if _h : T.size = 0 then (T, acc, false)
  else
    let c := T.buf T.readPos
    let T' := { T with readPos := (T.readPos + 1) % ttyInputMax, size := T.size - 1 }
    if T.lflag &&& icanon ≠ 0 then
      -- `VEOF` is taken and not returned; a delimiter ends the line
      if c = T.cc vEof then (T', acc, true)
      else if c = T.cc vEol ∨ c = 10 then (T', acc ++ [c], true)
      else ttyReadLoop T' nbytes (acc ++ [c])
    else if (T.cc vMin).toNat ≤ acc.length + 1 then (T', acc ++ [c], true)
    else ttyReadLoop T' nbytes (acc ++ [c])
termination_by T.size
decreasing_by all_goals omega

/-- `tty_read(req, dev, nbytes)`. -/
def ttyRead (T : Tty) (nbytes : Nat) : Tty × List UInt8 × Bool := ttyReadLoop T nbytes []

/-! ## The ring

Whatever the input and the reads, the buffer stays a ring: `size` bytes from `read_pos`, up to
`write_pos`. Each operation is checked on its own, and a chunk and a read from that. -/

/-- The ring invariant of the input buffer. -/
structure TtyRing (T : Tty) : Prop where
  size_le : T.size ≤ ttyInputMax
  read_lt : T.readPos < ttyInputMax
  write_eq : T.writePos = (T.readPos + T.size) % ttyInputMax

section Ring

variable {T : Tty}

/-- The invariant reads only the three counters. -/
theorem TtyRing.congr {T' : Tty} (h : TtyRing T) (hs : T'.size = T.size)
    (hr : T'.readPos = T.readPos) (hw : T'.writePos = T.writePos) : TtyRing T' where
  size_le := hs ▸ h.size_le
  read_lt := hr ▸ h.read_lt
  write_eq := by rw [hs, hr, hw, h.write_eq]

theorem TtyRing.echo (h : TtyRing T) (c : UInt8) : TtyRing (ttyEcho T c) :=
  h.congr rfl rfl rfl

theorem TtyRing.signal (h : TtyRing T) (signo : Nat) : TtyRing (ttySignal T signo) := by
  unfold ttySignal
  split
  · exact h
  · exact h.congr rfl rfl rfl

theorem TtyRing.stop (h : TtyRing T) (b : Bool) : TtyRing { T with stopped := b } :=
  h.congr rfl rfl rfl

theorem TtyRing.eraseInput (h : TtyRing T) : TtyRing (ttyEraseInput T).1 := by
  unfold ttyEraseInput
  split
  · exact h
  · -- `write_pos` steps back over the wrap
    have hw := h.write_eq
    have hs := h.size_le
    have hr := h.read_lt
    constructor <;> simp only [ttyInputMax] at * <;> (try split) <;> omega

theorem TtyRing.eraseAll (h : TtyRing T) : TtyRing (ttyEraseAll T) := by
  fun_induction ttyEraseAll T with
  | case1 T _ => exact h
  | case2 T _ ih => exact ih h.eraseInput

theorem TtyRing.echoInput (h : TtyRing T) (c : UInt8) : TtyRing (ttyEchoInput T c) := by
  unfold ttyEchoInput
  split_ifs
  · exact h.echo c
  · exact h.echo c
  · exact h

theorem TtyRing.store (h : TtyRing T) (c : UInt8) : TtyRing (ttyStore T c) := by
  -- a byte is stored only below `TTY_INPUT_MAX`
  have he := h.echoInput c
  unfold ttyStore
  dsimp only
  split_ifs with h₁ h₂
  · exact he
  · exact he
  · have hw := he.write_eq
    have hs := he.size_le
    have hr := he.read_lt
    constructor <;> simp only [ttyInputMax] at * <;> omega

theorem TtyRing.inputRest (h : TtyRing T) (c : UInt8) : TtyRing (ttyInputRest T c) := by
  unfold ttyInputRest
  dsimp only
  split_ifs
  -- the stop character, echoed with `IXOFF` or not
  · exact (h.stop _).echo _
  · exact h.stop _
  -- restarted: the start character, a signal, or a byte to store
  · exact (h.stop _).echo _
  · exact h.stop _
  · exact ((h.stop _).signal _).echo _
  · exact (h.stop _).store _
  -- not restarted: the same four
  · exact h.echo _
  · exact h
  · exact (h.signal _).echo _
  · exact h.store _

theorem TtyRing.inputChar (h : TtyRing T) (st : Nat) (c : UInt8) :
    TtyRing (ttyInputChar T st c).1 := by
  unfold ttyInputChar
  split
  · exact h
  · dsimp only
    split_ifs
    · exact h.eraseInput
    · exact h.eraseAll.echo _
    · exact h.eraseAll
    · exact h.inputRest _
    · exact h.inputRest _

theorem TtyRing.processInput (h : TtyRing T) (chunk : List UInt8) :
    TtyRing (ttyProcessInput T chunk).1 := by
  unfold ttyProcessInput
  -- the fold over the characters, from any state of the ring and any status
  suffices hfold : ∀ (cs : List UInt8) (x : Tty × Nat), TtyRing x.1 →
      TtyRing (cs.foldl (fun x c => ttyInputChar x.1 x.2 c) x).1 from hfold _ (T, 0) h
  intro cs
  induction cs with
  | nil => exact fun x hx => hx
  | cons c cs ih => exact fun x hx => ih _ (hx.inputChar x.2 c)

theorem TtyRing.readLoop (h : TtyRing T) (nbytes : Nat) (acc : List UInt8) :
    TtyRing (ttyReadLoop T nbytes acc).1 := by
  -- one byte off the head: `read_pos` moves on over the wrap
  have hstep : ∀ {T : Tty}, TtyRing T → T.size ≠ 0 →
      TtyRing { T with readPos := (T.readPos + 1) % ttyInputMax, size := T.size - 1 } := by
    intro T h hs
    have hw := h.write_eq
    have hl := h.size_le
    have hr := h.read_lt
    unfold ttyInputMax at *
    constructor <;> simp only [ttyInputMax] at * <;> omega
  fun_induction ttyReadLoop T nbytes acc <;>
  first
  | exact h
  | exact hstep h ‹_›
  | exact ‹TtyRing _ → TtyRing _› (hstep h ‹_›)

theorem TtyRing.init : TtyRing ttyInit where
  size_le := by decide
  read_lt := by decide
  write_eq := by decide

/-- What can happen to a console: a chunk of input from the driver, or a read. A read that
waits gives back the buffer as it left it; resuming it is a read of the rest. -/
inductive TtyStep : Tty → Tty → Prop
  | input (T : Tty) (chunk : List UInt8) : TtyStep T (ttyProcessInput T chunk).1
  | read (T : Tty) (nbytes : Nat) : TtyStep T (ttyRead T nbytes).1

theorem TtyRing.step {T' : Tty} (h : TtyRing T) (hs : TtyStep T T') : TtyRing T' := by
  cases hs with
  | input chunk => exact h.processInput chunk
  | read nbytes => exact h.readLoop nbytes []

/-- Every console reached from `tty_init` by input and reads keeps its ring. -/
theorem ttyRing_of_reachable (h : Relation.ReflTransGen TtyStep ttyInit T) : TtyRing T := by
  induction h with
  | refl => exact TtyRing.init
  | tail _ hs ih => exact ih.step hs

theorem ttyRing_of_reachable_input :
    Relation.ReflTransGen TtyStep ttyInit (ttyProcessInput ttyInit [97, 10]).1 ∧
      TtyRing (ttyProcessInput ttyInit [97, 10]).1 :=
  ⟨.single (.input _ _), ttyRing_of_reachable (.single (.input _ _))⟩

end Ring

/-- An erase right after a delimiter takes the delimiter back. A console as `tty_init` sets it
up gets the chunk "a", newline, `VERASE` (^H), "b", newline; the first read of up to 10 bytes
returns "ab" and a newline, where the line "a" was delimited before the erase. -/
theorem tty_erase_joins_lines :
    (ttyRead (ttyProcessInput ttyInit [97, 10, 8, 98, 10]).1 10).2 = ([97, 98, 10], true) := by
  simp [ttyRead, ttyReadLoop, ttyProcessInput, ttyInputChar, ttyInit, ttyStore, ttyEraseInput,
    ttyEcho, ttyEchoInput, ttyMapInput, ttyInputRest, ttyStatusOf, ttySignalOf, ttyInputMax,
    brkint, icrnl, igncr, inlcr, istrip, ixoff, ixon, ixany,
    echo, echoe, echonl, icanon, isig, vEof, vEol, vErase, vIntr, vKill, vMin, vQuit, vSusp,
    vStart, vStop, inEof, inEol]

end Argentum.Kernel
