import Mathlib.Logic.Function.Basic
import Mathlib.Data.Nat.Bitwise

/-!
# Argentum.Kernel.Screen

The text screen behind every console, `kernel/drivers/console/screen.c`. `screen_out_char`
feeds a byte to a parser of escape sequences: other bytes go to `screen_print_char`, `ESC [`
starts a CSI sequence whose numeric parameters are collected in `esc_params`, and its final
byte is carried out by `screen_handle_esc`. The screen keeps a buffer of cells and a cursor
`new_pos`, an `unsigned` that every command moves with 32-bit arithmetic; `old_pos` is how far
the display has been brought up to date.

The display ops are events of a log, and so is each cell of `buf` that is read or written: the
model keeps the source's arithmetic, lets an index go where the source lets it go, and the log
says where it went. Whether the screen is the one shown (`screen_is_current`) is a field. A
call that never returns, at a `for (;;);` or in a loop on an `unsigned` index that cannot end,
is `none`. The sizes are those of `screen_init`, and `cols` is never 0, as the `%` and `/` by it
need.

The parser is right: the bytes of a CSI sequence hand `screen_handle_esc` its parameters
(`screenRun_csi`). What the commands do with them is not held within the screen. A control
byte at the last cell writes past it, `ESC [ 0 G` in the first row moves the cursor to `0 - 1`,
and an unknown final byte ends in a `for (;;);` (`screen_output_breaks_bounds`).
-/

namespace Argentum.Kernel

/-- `SCREEN_ESC_MAX`, `SCREEN_COLS_MAX` and `SCREEN_ROWS_MAX`. -/
def screenEscMax : Nat := 16
def screenColsMax : Nat := 80
def screenRowsMax : Nat := 30

/-- `COLOR_MASK`, `COLOR_BLACK`, `COLOR_WHITE` and `COLOR_BRIGHT`. -/
def colorMask : Nat := 7
def colorBlack : Nat := 0
def colorWhite : Nat := 7
def colorBright : Nat := colorMask + 1

/-- `DISPLAY_TAB_WIDTH`. -/
def displayTabWidth : Nat := 4

/-- An `unsigned` result: the integer modulo `2 ^ 32`. -/
def u32 (x : Int) : Nat := (x % 2 ^ 32).toNat

/-- `enum ParserState`. -/
inductive ParserState
  | normal
  | esc
  | csi
  deriving DecidableEq, Repr

/-- A cell of `buf`: bit fields `ch : 8`, `fg : 4` and `bg : 4`. -/
structure ScreenCell where
  ch : Nat
  fg : Nat
  bg : Nat
  deriving DecidableEq, Repr

/-- What the screen does that can be seen from outside: each cell of `buf` it reads or writes,
and each call of its `ScreenOps`. -/
inductive ScreenEvent
  | read (i : Nat)
  | write (i : Nat)
  | drawCharAt (pos : Nat)
  | erase (start stop : Nat)
  | updateCursor (pos : Nat)
  | scrollDown (n : Nat)
  deriving DecidableEq, Repr

/-- `struct Screen`, with `screen_is_current` as `current` and the events so far as `log`. -/
structure Screen where
  fgColor : Nat
  bgColor : Nat
  state : ParserState
  escParams : Nat → Nat
  escCurParam : Int
  escQuestion : Bool
  buf : Nat → ScreenCell
  cols : Nat
  rows : Nat
  oldPos : Nat
  newPos : Nat
  current : Bool
  log : List ScreenEvent

namespace Screen

/-- A call of a display op. -/
def emit (S : Screen) (e : ScreenEvent) : Screen := { S with log := S.log ++ [e] }

/-- `buf[i] = cell`. -/
def write (S : Screen) (i : Nat) (cell : ScreenCell) : Screen :=
  { S with buf := Function.update S.buf i cell, log := S.log ++ [.write i] }

/-- The same cell written at each index of a loop. -/
def writeAll (S : Screen) (idx : List Nat) (cell : ScreenCell) : Screen :=
  idx.foldl (fun S i => S.write i cell) S

/-- `memmove(&buf[dst], &buf[src], k * sizeof(buf[0]))`: the `k` cells from `src` are read
before any is written. -/
def move (S : Screen) (dst src k : Nat) : Screen :=
  let old := S.buf
  let S := { S with log := S.log ++ (List.range k).map fun j => .read (src + j) }
  (List.range k).foldl (fun S j => S.write (dst + j) (old (src + j))) S

end Screen

/-- A blank cell in the given colours, which the bit fields keep 4 bits of. -/
def blankCell (fg bg : Nat) : ScreenCell := ⟨0x20, fg % 16, bg % 16⟩

/-- `screen_init`. The cells past `cols * rows` keep the zeros of the static screen. -/
def screenInit (cols rows : Nat) (current : Bool) : Screen where
  fgColor := colorWhite
  bgColor := colorBlack
  state := .normal
  escParams := fun _ => 0
  escCurParam := -1
  escQuestion := false
  buf := fun i => if i < cols * rows then blankCell colorWhite colorBlack else ⟨0, 0, 0⟩
  cols := cols
  rows := rows
  oldPos := 0
  newPos := 0
  current := current
  log := []

/-- `screen_flush`: the cells from `old_pos` up or down to `new_pos` are drawn, then the cursor. -/
def screenFlush (S : Screen) : Screen :=
  if S.current then
    let draws :=
      if S.oldPos < S.newPos then List.range' S.oldPos (S.newPos - S.oldPos)
      else (List.range' (S.newPos + 1) (S.oldPos - S.newPos)).reverse
    { S with oldPos := S.newPos,
             log := S.log ++ draws.map .drawCharAt ++ [.updateCursor S.newPos] }
  else S

/-- `screen_erase`: the cells from `from` to `to`, both included. -/
def screenErase (S : Screen) (start stop : Nat) : Option Screen :=
  -- `i <= to` holds of every `size_t i` when `to` is the largest one
  if stop = 2 ^ 32 - 1 then none
  else
    let S := S.writeAll (List.range' start (stop + 1 - start)) (blankCell S.fgColor S.bgColor)
    some (if S.current then S.emit (.erase start stop) else S)

/-- `screen_set_char`. -/
def screenSetChar (S : Screen) (i : Nat) (c : UInt8) : Screen :=
  S.write i ⟨c.toNat, S.fgColor % 16, S.bgColor % 16⟩

/-- `screen_set_char(screen, screen->new_pos++, c)`. -/
def screenPut (S : Screen) (c : UInt8) : Screen :=
  { screenSetChar S S.newPos c with newPos := u32 (S.newPos + 1) }

/-- `screen_scroll_down`: the rows move up by `n`, and the last `n` are cleared. -/
def screenScrollDown (S : Screen) (n : Nat) : Screen :=
  let S := screenFlush S
  let first := u32 (S.cols * u32 (S.rows - n))
  let last := u32 (S.cols * S.rows)
  let S := S.move 0 (u32 (S.cols * n)) first
  let S := S.writeAll (List.range' first (last - first)) (blankCell colorWhite colorBlack)
  let S := { S with newPos := u32 (S.newPos - n * S.cols) }
  if S.current then
    { S with oldPos := S.newPos,
             log := S.log ++ .scrollDown n :: (List.range' first (last - first)).map .drawCharAt }
  else S

/-- `screen_insert_rows`: `rows` blank rows at the cursor's row, the rows below moved down. -/
def screenInsertRows (S : Screen) (rows : Nat) : Screen :=
  let maxRows := u32 (S.rows - S.newPos / S.cols)
  let rows := min maxRows rows
  let startPos := u32 (S.newPos - S.newPos % S.cols)
  let endPos := u32 (startPos + rows * S.cols)
  let n := u32 ((maxRows - rows) * S.cols)
  let S := screenFlush S
  let S := S.writeAll ((List.range (u32 (rows * S.cols))).map fun i : Nat => u32 (i + startPos))
    (blankCell colorWhite colorBlack)
  screenFlush (S.move endPos startPos n)

/-- `screen_update_cursor`. -/
def screenUpdateCursor (S : Screen) : Screen :=
  if S.current then { S with oldPos := S.newPos, log := S.log ++ [.updateCursor S.newPos] }
  else S

/-- `c < ' '` for a `char`, which is signed: the bytes from `0x80` are negative. -/
def charLtSpace (c : UInt8) : Bool := c < 0x20 || 0x80 ≤ c

/-- The `do ... while` of a tab: a blank at the cursor, until the cursor is at a multiple of
`DISPLAY_TAB_WIDTH`. It stops within `DISPLAY_TAB_WIDTH` rounds, the fuel it is given. -/
def screenTab (S : Screen) : Nat → Screen
  | 0 => S
  | fuel + 1 =>
    let S := screenPut S 0x20
    if S.newPos % displayTabWidth ≠ 0 then screenTab S fuel else S

/-- `screen_print_char`, without its count of cells. -/
def screenPrintChar (S : Screen) (c : UInt8) : Screen :=
  let S :=
    match c with
    | 0x0a =>  -- '\n'
      let S := screenFlush S
      let pos := u32 (S.newPos + S.cols)
      screenUpdateCursor { S with newPos := u32 (pos - pos % S.cols) }
    | 0x0d =>  -- '\r'
      let S := screenFlush S
      screenUpdateCursor { S with newPos := u32 (S.newPos - S.newPos % S.cols) }
    | 0x08 =>  -- '\b'
      if 0 < S.newPos then
        let S := screenFlush S
        screenUpdateCursor { S with newPos := u32 (S.newPos - 1) }
      else S
    | 0x09 => screenTab S displayTabWidth  -- '\t'
    | 0x07 => S  -- C('G')
    | c => if charLtSpace c then screenPut (screenPut S 0x5e) (0x40 + c) else screenPut S c
  if u32 (S.cols * S.rows) ≤ S.newPos then screenScrollDown S 1 else S

/-- The loop of `'@'`: `m` from the end of the cursor's row down to `new_pos`, each cell past the
cursor taken from `n` cells before it, the cursor's cell blanked, and each one drawn. -/
def screenInsertChars (S : Screen) (n : Nat) : Option Screen :=
  -- `m >= new_pos` holds of every `unsigned m` when `new_pos` is 0
  if S.newPos = 0 then none
  else
    let last := u32 (S.newPos - S.newPos % S.cols + S.cols - 1)
    some ((List.range' S.newPos (last + 1 - S.newPos)).reverse.foldl (fun S m =>
      let S :=
        if S.newPos < m then (S.emit (.read (u32 (m - n)))).write m (S.buf (u32 (m - n)))
        else S.write m (blankCell S.fgColor S.bgColor)
      if S.current then S.emit (.drawCharAt m) else S) S)

/-- `x & ~m` for a colour, which is never negative. -/
def clearBits (x m : Nat) : Nat := x - (x &&& m)

/-- One parameter of `'m'`. -/
def screenSgrParam (S : Screen) (v : Nat) : Screen :=
  match v with
  | 0 => { S with bgColor := colorBlack, fgColor := colorWhite }
  | 1 => { S with fgColor := S.fgColor ||| colorBright }
  | 7 | 27 => { S with bgColor := S.fgColor, fgColor := S.bgColor }
  | 22 => { S with fgColor := clearBits S.fgColor colorBright }
  | 39 => { S with fgColor := clearBits S.fgColor colorMask ||| colorWhite }
  | 49 => { S with bgColor := clearBits S.bgColor colorMask ||| colorBlack }
  | v =>
    if 30 ≤ v ∧ v ≤ 37 then { S with fgColor := clearBits S.fgColor colorMask ||| (v - 30) }
    else if 40 ≤ v ∧ v ≤ 47 then { S with bgColor := clearBits S.bgColor colorMask ||| (v - 40) }
    else S

/-- `'m'`: no parameter resets the colours, and otherwise each one up to `SCREEN_ESC_MAX` is
applied in turn. -/
def screenSgr (S : Screen) : Screen :=
  if S.escCurParam = 0 then { S with bgColor := colorBlack, fgColor := colorWhite }
  else (List.range (min S.escCurParam.toNat screenEscMax)).foldl
    (fun S i => screenSgrParam S (S.escParams i)) S

/-- The loop of `'b'`: `n` times the character before the cursor, printed again. -/
def screenRepeat (S : Screen) : Nat → Screen
  | 0 => S
  | n + 1 =>
    let i := u32 (S.newPos - 1)
    screenRepeat (screenPrintChar (S.emit (.read i)) (S.buf i).ch.toUInt8) n

/-- `screen_handle_esc`: the command of a CSI sequence, by its final byte, between two flushes.
A parameter that was not given counts as 1, or 0 for the erases. -/
def screenHandleEsc (S : Screen) (c : UInt8) : Option Screen :=
  let S := screenFlush S
  let cur := S.escCurParam
  let p := S.escParams
  let r : Option Screen :=
    match c with
    | 0x41 =>  -- 'A', cursor up
      let n := min (if cur = 0 then 1 else p 0) (S.newPos / S.cols)
      some { S with newPos := u32 (S.newPos - n * S.cols) }
    | 0x42 =>  -- 'B', cursor down
      let n := min (if cur = 0 then 1 else p 0) (u32 (S.rows - S.newPos / S.cols - 1))
      some { S with newPos := u32 (S.newPos + n * S.cols) }
    | 0x43 =>  -- 'C', cursor forward
      let n := min (if cur = 0 then 1 else p 0) (u32 (S.cols - S.newPos % S.cols - 1))
      some { S with newPos := u32 (S.newPos + n) }
    | 0x44 =>  -- 'D', cursor back
      let n := min (if cur = 0 then 1 else p 0) (S.newPos % S.cols)
      some { S with newPos := u32 (S.newPos - n) }
    | 0x47 =>  -- 'G', cursor horizontal absolute
      let n := min (if cur < 1 then 1 else p 0) S.cols
      let pos := u32 (S.newPos - S.newPos % S.cols)
      some { S with newPos := u32 (pos + (n : Int) - 1) }
    | 0x48 =>  -- 'H', cursor position
      let n := min (if cur < 1 then 1 else p 0) S.rows
      let m := min (if cur < 2 then 1 else p 1) S.cols
      some { S with newPos := u32 (((n : Int) - 1) * S.cols + m - 1) }
    | 0x4a =>  -- 'J', erase in display
      let n := if cur < 1 then 0 else p 0
      if n = 0 then screenErase S S.newPos (u32 (S.cols * S.rows - 1))
      else if n = 1 then screenErase S 0 S.newPos
      else if n = 2 then screenErase S 0 (u32 (S.cols * S.rows - 1))
      else some S
    | 0x4b =>  -- 'K', erase in line
      let n := if cur < 1 then 0 else p 0
      let start := u32 (S.newPos - S.newPos % S.cols)
      let stop := u32 (start + S.cols - 1)
      if n = 0 then screenErase S S.newPos stop
      else if n = 1 then screenErase S start S.newPos
      else if n = 2 then screenErase S start stop
      else some S
    | 0x4c =>  -- 'L', insert line
      some (screenInsertRows S (if cur < 1 then 1 else p 0))
    | 0x64 =>  -- 'd', cursor vertical position
      let n := min (if cur < 1 then 1 else p 0) S.rows
      some { S with newPos := u32 (((n : Int) - 1) * S.cols + S.newPos % S.cols) }
    | 0x40 =>  -- '@', insert characters
      screenInsertChars S (min (if cur < 1 then 1 else p 0) (u32 (S.cols - S.newPos % S.cols)))
    | 0x6d => some (screenSgr S)  -- 'm', set graphic rendition
    | 0x62 => some (screenRepeat S (p 0))  -- 'b', repeat
    | 0x6e | 0x25 | 0x72 | 0x68 | 0x6c => some S  -- 'n', '%', 'r', 'h', 'l'
    -- `screen_dump` of the byte and of the first parameter, then `for (;;);`
    | _ => none
  r.map screenFlush

/-- `screen_out_char`: one byte through the parser. -/
def screenOutChar (S : Screen) (c : UInt8) : Option Screen :=
  match S.state with
  | .normal => some (if c = 0x1b then { S with state := .esc } else screenPrintChar S c)
  | .esc =>
    some (if c = 0x5b then  -- '['
      { S with state := .csi, escCurParam := -1, escQuestion := false, escParams := fun _ => 0 }
    else { S with state := .normal })
  | .csi =>
    if c = 0x3f then  -- '?'
      some (if S.escCurParam = -1 then { S with escQuestion := true }
        else { S with state := .normal })
    else if 0x30 ≤ c ∧ c ≤ 0x39 then  -- a digit of the current parameter
      let cur := if S.escCurParam = -1 then 0 else S.escCurParam
      let k := cur.toNat
      some (if cur < screenEscMax then
        { S with escCurParam := cur,
                 escParams := Function.update S.escParams k
                   (u32 (S.escParams k * 10 + (c.toNat - 0x30))) }
      else { S with escCurParam := cur })
    else if c = 0x3b then  -- ';', the next parameter
      some (if S.escCurParam < screenEscMax then { S with escCurParam := S.escCurParam + 1 }
        else S)
    else
      let S := if S.escCurParam < screenEscMax then { S with escCurParam := S.escCurParam + 1 }
        else S
      (screenHandleEsc S c).map fun S => { S with state := .normal }

/-- `screen_backspace`: the cell before the cursor blanked, then `'\b'` through the parser. -/
def screenBackspace (S : Screen) : Option Screen :=
  let S := if 0 < S.newPos then screenSetChar { S with newPos := S.newPos - 1 } (S.newPos - 1) 0x20
    else S
  (screenOutChar S 0x08).map screenFlush

/-- The two entries a console calls with what it outputs. -/
inductive ScreenCall
  | outChar (c : UInt8)
  | backspace
  deriving DecidableEq, Repr

def screenCall (S : Screen) : ScreenCall → Option Screen
  | .outChar c => screenOutChar S c
  | .backspace => screenBackspace S

/-- Calls one after another, until one does not return. -/
def screenRun (S : Screen) (calls : List ScreenCall) : Option Screen :=
  calls.foldlM screenCall S

/-! ## Unsigned arithmetic -/

theorem u32_of_lt {x : Int} (h0 : 0 ≤ x) (h : x < 2 ^ 32) : u32 x = x.toNat := by
  unfold u32
  rw [Int.emod_eq_of_lt h0 h]

theorem u32_natCast {n : Nat} (h : n < 2 ^ 32) : u32 n = n := by
  rw [u32_of_lt (by omega) (by omega)]
  rfl

theorem u32_neg_one : u32 (-1) = 2 ^ 32 - 1 := rfl

/-! ## The log only grows -/

/-- A loop whose every round only adds to the log. -/
theorem log_prefix_foldl {α : Type} (f : Screen → α → Screen)
    (hf : ∀ S a, S.log <+: (f S a).log) (l : List α) (S : Screen) :
    S.log <+: (l.foldl f S).log := by
  induction l generalizing S with
  | nil => exact List.prefix_refl _
  | cons a l ih => exact (hf S a).trans (ih (f S a))

theorem Screen.log_prefix_write (S : Screen) (i : Nat) (cell : ScreenCell) :
    S.log <+: (S.write i cell).log :=
  List.prefix_append _ _

theorem Screen.log_prefix_writeAll (S : Screen) (idx : List Nat) (cell : ScreenCell) :
    S.log <+: (S.writeAll idx cell).log :=
  log_prefix_foldl _ (fun S i => S.log_prefix_write i cell) idx S

theorem Screen.log_prefix_move (S : Screen) (dst src k : Nat) :
    S.log <+: (S.move dst src k).log := by
  unfold Screen.move
  dsimp only
  -- the reads, then the writes
  have hwrites := log_prefix_foldl (fun S' j => S'.write (dst + j) (S.buf (src + j)))
    (fun S' j => S'.log_prefix_write _ _) (List.range k)
    { S with log := S.log ++ (List.range k).map fun j => .read (src + j) }
  exact (List.prefix_append _ _).trans hwrites

/-! ## What a flush keeps -/

section Flush

variable (S : Screen)

@[simp] theorem screenFlush_newPos : (screenFlush S).newPos = S.newPos := by
  unfold screenFlush; split <;> rfl

@[simp] theorem screenFlush_cols : (screenFlush S).cols = S.cols := by
  unfold screenFlush; split <;> rfl

@[simp] theorem screenFlush_rows : (screenFlush S).rows = S.rows := by
  unfold screenFlush; split <;> rfl

@[simp] theorem screenFlush_current : (screenFlush S).current = S.current := by
  unfold screenFlush; split <;> rfl

@[simp] theorem screenFlush_state : (screenFlush S).state = S.state := by
  unfold screenFlush; split <;> rfl

@[simp] theorem screenFlush_escParams : (screenFlush S).escParams = S.escParams := by
  unfold screenFlush; split <;> rfl

@[simp] theorem screenFlush_escCurParam : (screenFlush S).escCurParam = S.escCurParam := by
  unfold screenFlush; split <;> rfl

/-- On the screen shown, a flush brings the display up to the cursor. -/
theorem screenFlush_oldPos {S : Screen} (h : S.current = true) :
    (screenFlush S).oldPos = S.newPos := by
  simp [screenFlush, h]

/-- A cursor that moved forward: the cells it passed are drawn, then the cursor. -/
theorem screenFlush_log_of_lt {S : Screen} (h : S.current = true) (hlt : S.oldPos < S.newPos) :
    (screenFlush S).log =
      S.log ++ (List.range' S.oldPos (S.newPos - S.oldPos)).map .drawCharAt ++
        [.updateCursor S.newPos] := by
  simp [screenFlush, h, hlt]

theorem screenFlush_log_prefix : S.log <+: (screenFlush S).log := by
  unfold screenFlush
  split
  · exact ⟨_, (List.append_assoc _ _ _).symm⟩
  · exact List.prefix_refl _

end Flush

/-- `screen_put` moves the cursor one cell on and keeps the size. -/
@[simp] theorem screenPut_cols (S : Screen) (c : UInt8) : (screenPut S c).cols = S.cols := rfl

@[simp] theorem screenPut_rows (S : Screen) (c : UInt8) : (screenPut S c).rows = S.rows := rfl

@[simp] theorem screenPut_newPos (S : Screen) (c : UInt8) :
    (screenPut S c).newPos = u32 (S.newPos + 1) := rfl

@[simp] theorem screenPut_current (S : Screen) (c : UInt8) :
    (screenPut S c).current = S.current := rfl

@[simp] theorem screenPut_oldPos (S : Screen) (c : UInt8) : (screenPut S c).oldPos = S.oldPos := rfl

/-- A scroll starts with a flush, and adds to what it leaves. -/
theorem screenScrollDown_log_prefix (S : Screen) (n : Nat) :
    (screenFlush S).log <+: (screenScrollDown S n).log := by
  have hmove := Screen.log_prefix_move (screenFlush S) 0 (u32 (S.cols * n))
    (u32 (S.cols * u32 (S.rows - n)))
  have hclear := Screen.log_prefix_writeAll
    ((screenFlush S).move 0 (u32 (S.cols * n)) (u32 (S.cols * u32 (S.rows - n))))
    (List.range' (u32 (S.cols * u32 (S.rows - n)))
      (u32 (S.cols * S.rows) - u32 (S.cols * u32 (S.rows - n))))
    (blankCell colorWhite colorBlack)
  unfold screenScrollDown
  simp only [screenFlush_cols, screenFlush_rows]
  split
  · exact (hmove.trans hclear).trans (List.prefix_append _ _)
  · exact hmove.trans hclear

/-! ## Commands -/

/-- `'G'`: the cursor goes to column `n - 1` of its row, `n` the parameter up to `cols`. -/
theorem screenHandleEsc_column (S : Screen) :
    (screenHandleEsc S 0x47).map (·.newPos) =
      some (u32 (u32 (S.newPos - S.newPos % S.cols) +
        ((min (if S.escCurParam < 1 then 1 else S.escParams 0) S.cols : Nat) : Int) - 1)) := by
  simp [screenHandleEsc]

/-- `'H'`: the cursor goes to row `n - 1` and column `m - 1`, the parameters up to `rows` and
`cols`, between two flushes. -/
theorem screenHandleEsc_position (S : Screen) :
    screenHandleEsc S 0x48 = some (screenFlush { screenFlush S with
      newPos := u32
        ((((min (if S.escCurParam < 1 then 1 else S.escParams 0) S.rows : Nat) : Int) - 1) *
          S.cols + (min (if S.escCurParam < 2 then 1 else S.escParams 1) S.cols : Nat) - 1) }) := by
  simp [screenHandleEsc]

/-- A final byte that `screen_handle_esc` has no case for: it never returns. -/
theorem screenHandleEsc_unknown (S : Screen) {c : UInt8}
    (hc : c ∉ [0x41, 0x42, 0x43, 0x44, 0x47, 0x48, 0x4a, 0x4b, 0x4c, 0x64, 0x40, 0x6d, 0x62,
      0x6e, 0x25, 0x72, 0x68, 0x6c]) :
    screenHandleEsc S c = none := by
  unfold screenHandleEsc
  split
  -- a byte with a case of its own is in the list; any other reaches `for (;;);`
  all_goals first
    | rfl
    | simp at hc

/-- A control byte other than those `screen_print_char` has a case for: `^` and the letter go
to the cursor and the one after it, and the screen scrolls if that passed its end. -/
theorem screenPrintChar_control (S : Screen) {c : UInt8} (hc : charLtSpace c = true)
    (hnot : c ∉ [0x0a, 0x0d, 0x08, 0x09, 0x07]) :
    screenPrintChar S c =
      if u32 (S.cols * S.rows) ≤ u32 (u32 (S.newPos + 1) + 1) then
        screenScrollDown (screenPut (screenPut S 0x5e) (0x40 + c)) 1
      else screenPut (screenPut S 0x5e) (0x40 + c) := by
  unfold screenPrintChar
  split
  all_goals first
    | (simp at hnot; done)
    | simp only [hc, if_true, screenPut_cols, screenPut_rows, screenPut_newPos]

/-- On the screen shown, a control byte at the last cell writes its letter one past the end of
the screen, and the scroll that follows draws that cell and moves the display's cursor past it. -/
theorem screenPrintChar_control_last {S : Screen} {c : UInt8} (hc : charLtSpace c = true)
    (hnot : c ∉ [0x0a, 0x0d, 0x08, 0x09, 0x07]) (hcur : S.current = true)
    (hold : S.oldPos = S.newPos) (hlast : S.newPos + 1 = S.cols * S.rows)
    (hsize : S.cols * S.rows + 1 < 2 ^ 32) :
    ∃ l, (screenPrintChar S c).log =
      S.log ++ [ScreenEvent.write S.newPos, .write (S.newPos + 1), .drawCharAt S.newPos,
        .drawCharAt (S.newPos + 1), .updateCursor (S.newPos + 2)] ++ l := by
  have h1 : u32 (S.newPos + 1) = S.newPos + 1 := by
    rw [u32_of_lt (by omega) (by omega)]
    omega
  have h2 : u32 ((S.newPos + 1 : Nat) + 1) = S.newPos + 2 := by
    rw [u32_of_lt (by omega) (by omega)]
    omega
  have hsz : u32 (S.cols * S.rows) = S.cols * S.rows := by
    rw [← Int.natCast_mul]
    exact u32_natCast (by omega)
  rw [screenPrintChar_control S hc hnot, h1, h2, hsz, if_pos (by omega)]
  -- the two cells written, then the flush at the start of the scroll
  have hlog : (screenPut (screenPut S 0x5e) (0x40 + c)).log =
      S.log ++ [ScreenEvent.write S.newPos, .write (S.newPos + 1)] := by
    simp [screenPut, screenSetChar, Screen.write, h1]
  have hpos : (screenPut (screenPut S 0x5e) (0x40 + c)).newPos = S.newPos + 2 := by
    simp only [screenPut, h1, h2]
  have hflush := screenFlush_log_of_lt (S := screenPut (screenPut S 0x5e) (0x40 + c))
    (by simp only [screenPut_current, hcur])
    (by rw [hpos, screenPut_oldPos, screenPut_oldPos]; omega)
  obtain ⟨l, hl⟩ := screenScrollDown_log_prefix (screenPut (screenPut S 0x5e) (0x40 + c)) 1
  rw [hflush, hlog, hpos] at hl
  refine ⟨l, ?_⟩
  rw [← hl]
  simp [screenPut, screenSetChar, Screen.write, hold, List.range'_succ]

/-! ## The parser -/

/-- The byte of a decimal digit. -/
def digitByte (d : Nat) : UInt8 := (0x30 + d).toUInt8

theorem digitByte_toNat {d : Nat} (hd : d < 10) : (digitByte d).toNat = 0x30 + d := by
  unfold digitByte
  rw [Nat.toUInt8_eq, UInt8.toNat_ofNat', Nat.mod_eq_of_lt (by omega)]

theorem digitByte_isDigit {d : Nat} (hd : d < 10) : 0x30 ≤ digitByte d ∧ digitByte d ≤ 0x39 := by
  have h := digitByte_toNat hd
  rw [UInt8.le_iff_toNat_le, UInt8.le_iff_toNat_le, h]
  constructor
  · simp
  · simp
    omega

/-- The value `esc_params` collects from the digits of a parameter, from `a` on. -/
def paramFold (a : Nat) (ds : List Nat) : Nat := ds.foldl (fun (a d : Nat) => u32 (a * 10 + d)) a

/-- The value of a parameter. -/
def paramValue (ds : List Nat) : Nat := paramFold 0 ds

/-- The parameters of a CSI sequence: the digits of each one, with a `;` before all but the
first. -/
def csiParamBytes : List (List Nat) → List UInt8
  | [] => []
  | ds :: rest => ds.map digitByte ++ rest.flatMap fun ds => 0x3b :: ds.map digitByte

/-- The bytes of a CSI sequence: `ESC [`, the parameters and the final byte. -/
def csiBytes (params : List (List Nat)) (final : UInt8) : List UInt8 :=
  0x1b :: 0x5b :: csiParamBytes params ++ [final]

/-- The parser after the parameters `done` of a CSI sequence. -/
def csiParsed (S : Screen) (done : List (List Nat)) : Screen :=
  { S with state := .csi, escQuestion := false, escCurParam := done.length - 1,
           escParams := fun i => ((done.map paramValue)[i]?).getD 0 }

section Parser

variable {S : Screen}

theorem screenRun_nil (S : Screen) : screenRun S [] = some S := rfl

theorem screenRun_cons (S : Screen) (call : ScreenCall) (calls : List ScreenCall) :
    screenRun S (call :: calls) = (screenCall S call).bind fun S => screenRun S calls := rfl

theorem screenRun_append (S : Screen) (l₁ l₂ : List ScreenCall) :
    screenRun S (l₁ ++ l₂) = (screenRun S l₁).bind fun S => screenRun S l₂ := by
  unfold screenRun
  rw [List.foldlM_append]
  rfl

/-- `ESC [` starts a sequence with no parameter. -/
theorem screenRun_escBracket (h : S.state = .normal) :
    screenRun S [.outChar 0x1b, .outChar 0x5b] = some (csiParsed S []) := by
  simp only [screenRun_cons, screenCall, screenOutChar, h]
  simp [screenRun_nil, csiParsed]

/-- A digit of the current parameter, once there is one. -/
theorem screenOutChar_digit (h : S.state = .csi) (h0 : 0 ≤ S.escCurParam)
    (h16 : S.escCurParam < screenEscMax) {d : Nat} (hd : d < 10) :
    screenOutChar S (digitByte d) =
      some { S with
        escParams := Function.update S.escParams S.escCurParam.toNat
          (u32 (S.escParams S.escCurParam.toNat * 10 + d)) } := by
  have hdig := digitByte_isDigit hd
  have hq : digitByte d ≠ 0x3f := fun hq => by
    have := digitByte_toNat hd
    rw [hq] at this
    simp at this
    omega
  have hne : S.escCurParam ≠ -1 := by omega
  have hsub : ((0x30 + d : Nat) : Int) - 0x30 = d := by omega
  unfold screenOutChar
  rw [h, if_neg hq, if_pos hdig, digitByte_toNat hd, hsub]
  simp only [hne, if_false, h16, if_true]

/-- The digits of the current parameter. -/
theorem screenRun_digits (h : S.state = .csi) (h0 : 0 ≤ S.escCurParam)
    (h16 : S.escCurParam < screenEscMax) {ds : List Nat} (hds : ∀ d ∈ ds, d < 10) :
    screenRun S (ds.map fun d => .outChar (digitByte d)) =
      some { S with
        escParams := Function.update S.escParams S.escCurParam.toNat
          (paramFold (S.escParams S.escCurParam.toNat) ds) } := by
  induction ds generalizing S with
  | nil => simp [screenRun_nil, paramFold]
  | cons d ds ih =>
    -- the first digit, then the others from the value it leaves
    have hrest := ih (S := { S with
      escParams := Function.update S.escParams S.escCurParam.toNat
        (u32 (S.escParams S.escCurParam.toNat * 10 + d)) }) h h0 h16
      fun d hd => hds d (List.mem_cons_of_mem _ hd)
    rw [List.map_cons, screenRun_cons, screenCall,
      screenOutChar_digit h h0 h16 (hds d List.mem_cons_self), Option.bind_some, hrest]
    simp [paramFold]

/-- The first digit of a sequence starts its first parameter. -/
theorem screenOutChar_firstDigit (h : S.state = .csi) (hcur : S.escCurParam = -1) {d : Nat}
    (hd : d < 10) :
    screenOutChar S (digitByte d) =
      some { S with
        escCurParam := 0
        escParams := Function.update S.escParams 0 (u32 (S.escParams 0 * 10 + d)) } := by
  have hdig := digitByte_isDigit hd
  have hq : digitByte d ≠ 0x3f := fun hq => by
    have := digitByte_toNat hd
    rw [hq] at this
    simp at this
    omega
  have hsub : ((0x30 + d : Nat) : Int) - 0x30 = d := by omega
  unfold screenOutChar
  rw [h, if_neg hq, if_pos hdig, digitByte_toNat hd, hsub]
  simp [hcur, screenEscMax]

/-- The digits of the first parameter. -/
theorem screenRun_firstParam {ds : List Nat} (hne : ds ≠ []) (hds : ∀ d ∈ ds, d < 10) :
    screenRun (csiParsed S []) (ds.map fun d => .outChar (digitByte d)) =
      some (csiParsed S [ds]) := by
  obtain ⟨d, ds, rfl⟩ := List.exists_cons_of_ne_nil hne
  rw [List.map_cons, screenRun_cons, screenCall,
    screenOutChar_firstDigit rfl rfl (hds d List.mem_cons_self), Option.bind_some]
  have hrest := screenRun_digits (S := { csiParsed S [] with
      escCurParam := 0
      escParams := Function.update (csiParsed S []).escParams 0
        (u32 ((csiParsed S []).escParams 0 * 10 + d)) })
    rfl (Int.le_refl 0) (by simp [screenEscMax]) fun d hd => hds d (List.mem_cons_of_mem _ hd)
  rw [hrest]
  -- only the first parameter has a value
  simp only [csiParsed]
  congr 2
  funext i
  cases i <;> simp [paramValue, paramFold]

/-- A `;` and the digits of one more parameter. -/
theorem screenRun_nextParam {done : List (List Nat)} (hdone : done ≠ [])
    (hlen : done.length < screenEscMax) {ds : List Nat} (hds : ∀ d ∈ ds, d < 10) :
    screenRun (csiParsed S done) (.outChar 0x3b :: ds.map fun d => .outChar (digitByte d)) =
      some (csiParsed S (done ++ [ds])) := by
  have hpos : 0 < done.length := List.length_pos_iff.mpr hdone
  have hsemi : screenOutChar (csiParsed S done) 0x3b =
      some { csiParsed S done with escCurParam := done.length } := by
    have hlt : ((done.length : Int) - 1) < screenEscMax := by omega
    simp [screenOutChar, csiParsed, hlt]
  have hrest := screenRun_digits (S := { csiParsed S done with escCurParam := done.length })
    rfl (Int.natCast_nonneg _) (by show (done.length : Int) < screenEscMax; omega) hds
  rw [screenRun_cons, screenCall, hsemi, Option.bind_some, hrest]
  -- the new parameter is at index `done.length`, past the others
  simp only [csiParsed, List.length_append, List.length_singleton, Int.toNat_natCast]
  congr 2
  · funext i
    rcases lt_trichotomy i done.length with hi | rfl | hi
    · simp [Function.update_of_ne (Nat.ne_of_lt hi), List.getElem?_append_left, hi]
    · simp [paramValue]
    · rw [Function.update_of_ne (Nat.ne_of_gt hi), List.getElem?_eq_none (by simp; omega),
        List.getElem?_eq_none (by simp; omega)]
  · omega

/-- The parameters after the first, each after a `;`. -/
theorem screenRun_params {rest done : List (List Nat)} (hdone : done ≠ [])
    (hlen : done.length + rest.length ≤ screenEscMax) (hds : ∀ ds ∈ rest, ∀ d ∈ ds, d < 10) :
    screenRun (csiParsed S done)
        ((rest.flatMap fun ds => 0x3b :: ds.map digitByte).map .outChar) =
      some (csiParsed S (done ++ rest)) := by
  induction rest generalizing done with
  | nil => simp [screenRun_nil]
  | cons ds rest ih =>
    have hnext := screenRun_nextParam (S := S) hdone (by simp at hlen; omega)
      (hds ds List.mem_cons_self)
    rw [List.flatMap_cons, List.map_append, screenRun_append, List.map_cons, List.map_map]
    rw [show (ScreenCall.outChar ∘ digitByte) = fun d => .outChar (digitByte d) from rfl, hnext,
      Option.bind_some, ih (by simp) (by simp at hlen ⊢; omega)
        fun ds hm => hds ds (List.mem_cons_of_mem _ hm)]
    simp

/-- The parameters of a sequence whose first one has a digit. -/
theorem screenRun_csiParams {params : List (List Nat)} (hlen : params.length ≤ screenEscMax)
    (hfirst : params.head? ≠ some []) (hdig : ∀ ds ∈ params, ∀ d ∈ ds, d < 10) :
    screenRun (csiParsed S []) ((csiParamBytes params).map .outChar) =
      some (csiParsed S params) := by
  cases params with
  | nil => rfl
  | cons ds rest =>
    have hne : ds ≠ [] := fun he => hfirst (by rw [he]; rfl)
    rw [csiParamBytes, List.map_append, screenRun_append, List.map_map,
      show (ScreenCall.outChar ∘ digitByte) = fun d => .outChar (digitByte d) from rfl,
      screenRun_firstParam hne (hdig ds List.mem_cons_self), Option.bind_some,
      screenRun_params (List.cons_ne_nil _ _) (by simp at hlen ⊢; omega)
        fun ds hm => hdig ds (List.mem_cons_of_mem _ hm)]
    rfl

/-- The final byte of a sequence counts the last parameter and carries out the command. -/
theorem screenOutChar_final (h : S.state = .csi) {c : UInt8} (hq : c ≠ 0x3f)
    (hd : ¬(0x30 ≤ c ∧ c ≤ 0x39)) (hs : c ≠ 0x3b) :
    screenOutChar S c =
      (screenHandleEsc (if S.escCurParam < screenEscMax then
          { S with escCurParam := S.escCurParam + 1 } else S) c).map
        fun S => { S with state := .normal } := by
  unfold screenOutChar
  rw [h, if_neg hq, if_neg hd, if_neg hs]

end Parser

/-- A whole CSI sequence, from a screen that is not inside one: `screen_handle_esc` gets its
parameters as `esc_params`, each one's digits folded in 32 bits, and their count as
`esc_cur_param`. The first parameter has a digit: before one `esc_cur_param` is still -1, and
a `;` only brings it to 0. -/
theorem screenRun_csi {S : Screen} (h : S.state = .normal) {params : List (List Nat)}
    (hlen : params.length ≤ screenEscMax) (hfirst : params.head? ≠ some [])
    (hdig : ∀ ds ∈ params, ∀ d ∈ ds, d < 10) {final : UInt8} (hq : final ≠ 0x3f)
    (hd : ¬(0x30 ≤ final ∧ final ≤ 0x39)) (hs : final ≠ 0x3b) :
    screenRun S ((csiBytes params final).map .outChar) =
      (screenHandleEsc { csiParsed S params with escCurParam := params.length } final).map
        fun S => { S with state := .normal } := by
  have hlt : ((params.length : Int) - 1) < screenEscMax := by omega
  have hsplit : (csiBytes params final).map ScreenCall.outChar =
      [ScreenCall.outChar 0x1b, .outChar 0x5b] ++ (csiParamBytes params).map .outChar ++
        [ScreenCall.outChar final] := by
    simp [csiBytes]
  rw [hsplit, screenRun_append, screenRun_append, screenRun_escBracket h, Option.bind_some,
    screenRun_csiParams hlen hfirst hdig, Option.bind_some, screenRun_cons, screenCall,
    screenOutChar_final rfl hq hd hs]
  simp only [csiParsed, hlt, if_true, sub_add_cancel]
  cases h' : (screenHandleEsc _ final) <;> rfl

/-! ## Out of bounds from `screen_init` -/

theorem screenOutChar_print {S : Screen} (h : S.state = .normal) {c : UInt8} (hc : c ≠ 0x1b) :
    screenOutChar S c = some (screenPrintChar S c) := by
  simp [screenOutChar, h, hc]

/-- For every size `screen_init` is given, three byte streams break the bounds the console
needs. `ESC [ 99 ; 99 H` takes the cursor to the last cell, where a control byte writes its
letter to `buf[cols * rows]` and the display is asked to draw that cell; `ESC [ 0 G` in the
first row moves the cursor to `0 - 1`; and an unknown final byte never returns. -/
theorem screen_output_breaks_bounds (cols rows : Nat) (hcols : 1 ≤ cols ∧ cols ≤ screenColsMax)
    (hrows : 1 ≤ rows ∧ rows ≤ screenRowsMax) :
    (∃ S, screenRun (screenInit cols rows true)
        ((csiBytes [[9, 9], [9, 9]] 0x48 ++ [0x01]).map .outChar) = some S ∧
      .write (cols * rows) ∈ S.log ∧ .drawCharAt (cols * rows) ∈ S.log) ∧
    (∀ current, (screenRun (screenInit cols rows current)
        ((csiBytes [[0]] 0x47).map .outChar)).map (·.newPos) = some (2 ^ 32 - 1)) ∧
    (∀ current, screenRun (screenInit cols rows current) ((csiBytes [] 0x58).map .outChar) =
      none) := by
  refine ⟨?_, fun current => ?_, fun current => ?_⟩
  · have hmax : cols * rows ≤ 80 * 30 := Nat.mul_le_mul hcols.2 hrows.2
    have hpos : 0 < cols * rows := Nat.mul_pos hcols.1 hrows.1
    -- `ESC [ 99 ; 99 H` puts the cursor on the last cell: 99 is past both sizes
    set S1 := { csiParsed (screenInit cols rows true) [[9, 9], [9, 9]] with escCurParam := 2 }
    have hlastCell : u32 ((((min (if S1.escCurParam < 1 then 1 else S1.escParams 0) S1.rows :
        Nat) : Int) - 1) * S1.cols +
          (min (if S1.escCurParam < 2 then 1 else S1.escParams 1) S1.cols : Nat) - 1) =
        cols * rows - 1 := by
      have hcur : S1.escCurParam = 2 := rfl
      have hp0 : S1.escParams 0 = 99 := rfl
      have hp1 : S1.escParams 1 = 99 := rfl
      have hsize : S1.cols = cols ∧ S1.rows = rows := ⟨rfl, rfl⟩
      have hrows99 : min 99 rows = rows := min_eq_right (by unfold screenRowsMax at hrows; omega)
      have hcols99 : min 99 cols = cols := min_eq_right (by unfold screenColsMax at hcols; omega)
      have hval : ((rows : Int) - 1) * cols + cols - 1 = ((cols * rows - 1 : Nat) : Int) := by
        have h1 : ((cols * rows - 1 : Nat) : Int) = ((cols * rows : Nat) : Int) - 1 := by omega
        rw [h1, Int.natCast_mul, Int.sub_mul, Int.one_mul, Int.mul_comm (rows : Int)]
        omega
      rw [hcur, hp0, hp1, hsize.1, hsize.2, if_neg (by decide), if_neg (by decide), hrows99,
        hcols99, hval]
      exact u32_natCast (by omega)
    set S3 := { screenFlush { screenFlush S1 with newPos := cols * rows - 1 } with
      state := .normal }
    have hcsi : screenRun (screenInit cols rows true)
        ((csiBytes [[9, 9], [9, 9]] 0x48).map .outChar) =
        (screenHandleEsc S1 0x48).map fun S => { S with state := .normal } :=
      screenRun_csi rfl (by decide) (by decide) (by decide) (by decide) (by decide) (by decide)
    have hrun : screenRun (screenInit cols rows true)
        ((csiBytes [[9, 9], [9, 9]] 0x48 ++ [0x01]).map .outChar) =
        some (screenPrintChar S3 0x01) := by
      rw [List.map_append, screenRun_append, hcsi, screenHandleEsc_position, hlastCell]
      rfl
    -- then the control byte, at the last cell of the screen shown
    have hcur : S3.current = true := rfl
    have hold : S3.oldPos = S3.newPos := screenFlush_oldPos (by rfl)
    have hlast : S3.newPos + 1 = cols * rows := by
      show cols * rows - 1 + 1 = cols * rows
      omega
    obtain ⟨l, hl⟩ := screenPrintChar_control_last (c := 0x01) (by decide) (by decide) hcur hold
      hlast (by show cols * rows + 1 < 2 ^ 32; omega)
    refine ⟨_, hrun, ?_⟩
    rw [hl, hlast]
    simp
  · -- `ESC [ 0 G`: column `0 - 1` of the first row
    have hrun : (screenRun (screenInit cols rows current)
        ((csiBytes [[0]] 0x47).map .outChar)).map (·.newPos) =
        (screenHandleEsc { csiParsed (screenInit cols rows current) [[0]] with
          escCurParam := 1 } 0x47).map (·.newPos) := by
      rw [screenRun_csi rfl (by decide) (by decide) (by decide) (by decide) (by decide)
        (by decide)]
      cases screenHandleEsc _ 0x47 <;> rfl
    have h0 : u32 0 = 0 := rfl
    rw [hrun, screenHandleEsc_column]
    simp [csiParsed, screenInit, paramValue, paramFold, h0, u32_neg_one]
  · -- `ESC [ X`: `screen_dump`, then `for (;;);`
    rw [screenRun_csi rfl (by decide) (by decide) (by decide) (by decide) (by decide) (by decide),
      screenHandleEsc_unknown _ (by decide)]
    rfl

/-- The text console of the i386 port, 80 by 25. -/
theorem screen_output_breaks_bounds_vga :
    (1 ≤ 80 ∧ 80 ≤ screenColsMax) ∧ (1 ≤ 25 ∧ 25 ≤ screenRowsMax) ∧
    (∃ S, screenRun (screenInit 80 25 true)
        ((csiBytes [[9, 9], [9, 9]] 0x48 ++ [0x01]).map .outChar) = some S ∧
      .write (80 * 25) ∈ S.log ∧ .drawCharAt (80 * 25) ∈ S.log) ∧
    (∀ current, (screenRun (screenInit 80 25 current)
        ((csiBytes [[0]] 0x47).map .outChar)).map (·.newPos) = some (2 ^ 32 - 1)) ∧
    (∀ current, screenRun (screenInit 80 25 current) ((csiBytes [] 0x58).map .outChar) =
      none) :=
  ⟨by decide, by decide, screen_output_breaks_bounds 80 25 (by decide) (by decide)⟩

end Argentum.Kernel
