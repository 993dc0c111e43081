import Argentum.Kernel.Screen
import Argentum.Lib.PointUpdate

/-!
# Argentum.Kernel.ScreenEdit

What the editing commands of `screen.c` do to the cells and to the cursor, set against what
they mean on a VT100 (`vt100InsertLines`, `vt100InsertChars`). Each loop of the source is a
loop of point updates of `buf`, read with `Argentum.Lib.PointUpdate`:

* `screen_insert_rows` stores its blank rows before its `memmove` reads the rows it moves, so
  it is the VT100 insertion of a buffer whose inserted rows were already blank
  (`screenInsertRows_buf`): the rows it should move down come out blank;
* the loop of `'@'` runs from the end of the row down to the cursor and stores at each cell
  the one `n` to its left, read before that one is overwritten (`screenInsertChars_buf`), so
  only the cursor's cell is blanked and the `n - 1` after it are copied from before it;
* `'G'`, `'d'` and `'H'` count a parameter given as 0 as 0, and subtract one from it;
* `screen_backspace` moves the cursor back itself, then prints a `'\b'` that moves it again.

The sizes are those of `screen_init`, with the cursor on the screen (`Screen.OnScreen`), so
that no `unsigned` of these commands wraps unless the command itself makes it.
-/

namespace Argentum.Kernel

open PointUpdate

/-- A screen of a size `screen_init` takes, with the cursor on it. -/
structure Screen.OnScreen (S : Screen) : Prop where
  cols_pos : 0 < S.cols
  cols_le : S.cols ≤ screenColsMax
  rows_le : S.rows ≤ screenRowsMax
  newPos_lt : S.newPos < S.cols * S.rows

/-! ## The VT100 meaning -/

/-- `ESC [ n L` on a VT100, inserting `k` lines at the cursor `pos`: the rows above the
cursor's stay, `k` blank rows start at the cursor's, and the rows that were there follow
them, those pushed past the last row lost. -/
def vt100InsertLines (buf : Nat → ScreenCell) (cols rows pos k : Nat) (i : Nat) : ScreenCell :=
  let r := pos / cols
  if i < r * cols ∨ rows * cols ≤ i then buf i
  else if i < (r + k) * cols then blankCell colorWhite colorBlack
  else buf (i - k * cols)

/-- `ESC [ n @` on a VT100, inserting `k` blanks at the cursor `pos`: the rest of the cursor's
row moves `k` cells right, and what passes its end is lost. -/
def vt100InsertChars (buf : Nat → ScreenCell) (blank : ScreenCell) (cols pos k : Nat)
    (i : Nat) : ScreenCell :=
  let last := pos / cols * cols + cols - 1
  if i < pos ∨ last < i then buf i
  else if i < pos + k then blank
  else buf (i - k)

/-! ## Cells -/

section Cells

variable (S : Screen)

@[simp] theorem screenFlush_buf : (screenFlush S).buf = S.buf := by
  unfold screenFlush; split <;> rfl

@[simp] theorem screenFlush_fgColor : (screenFlush S).fgColor = S.fgColor := by
  unfold screenFlush; split <;> rfl

@[simp] theorem screenFlush_bgColor : (screenFlush S).bgColor = S.bgColor := by
  unfold screenFlush; split <;> rfl

@[simp] theorem screenUpdateCursor_buf : (screenUpdateCursor S).buf = S.buf := by
  unfold screenUpdateCursor; split <;> rfl

@[simp] theorem screenUpdateCursor_newPos : (screenUpdateCursor S).newPos = S.newPos := by
  unfold screenUpdateCursor; split <;> rfl

@[simp] theorem screenUpdateCursor_cols : (screenUpdateCursor S).cols = S.cols := by
  unfold screenUpdateCursor; split <;> rfl

@[simp] theorem screenUpdateCursor_rows : (screenUpdateCursor S).rows = S.rows := by
  unfold screenUpdateCursor; split <;> rfl

@[simp] theorem Screen.emit_buf (e : ScreenEvent) : (S.emit e).buf = S.buf := rfl

@[simp] theorem Screen.write_buf (i : Nat) (cell : ScreenCell) :
    (S.write i cell).buf = Function.update S.buf i cell := rfl

theorem Screen.writeAll_buf (idx : List Nat) (cell : ScreenCell) :
    (S.writeAll idx cell).buf = fun i => if i ∈ idx then cell else S.buf i := by
  have hfold : (S.writeAll idx cell).buf =
      idx.foldl (fun b i => Function.update b i cell) S.buf :=
    (List.foldl_hom Screen.buf fun _ _ => rfl).symm
  rw [hfold]
  exact foldl_update_eq (fun _ => cell) idx S.buf

/-- `memmove` reads the `k` cells from `src` before it stores any. -/
theorem Screen.move_buf (dst src k : Nat) :
    (S.move dst src k).buf =
      fun i => if dst ≤ i ∧ i < dst + k then S.buf (src + (i - dst)) else S.buf i := by
  have hfold : (S.move dst src k).buf =
      (List.range k).foldl (fun b j => Function.update b (dst + j) (S.buf (src + j))) S.buf :=
    (List.foldl_hom Screen.buf fun _ _ => rfl).symm
  rw [hfold]
  exact foldl_range_update dst (fun j => S.buf (src + j)) k S.buf

end Cells

/-! ## Unsigned arithmetic -/

theorem u32_sub_of_le {a b : Nat} (h : b ≤ a) (ha : a < 2 ^ 32) :
    u32 ((a : Int) - b) = a - b := by
  unfold u32
  omega

/-- A difference below zero wraps to the top of the `unsigned` range. -/
theorem u32_sub_of_lt {a b : Nat} (h : a < b) (hb : b ≤ 2 ^ 32) :
    u32 ((a : Int) - b) = 2 ^ 32 + a - b := by
  unfold u32
  omega

namespace Screen.OnScreen

variable {S : Screen} (hS : S.OnScreen)
include hS

theorem size_le : S.cols * S.rows ≤ 2400 :=
  Nat.mul_le_mul hS.cols_le hS.rows_le

theorem row_lt : S.newPos / S.cols < S.rows :=
  (Nat.div_lt_iff_lt_mul hS.cols_pos).2 (by rw [Nat.mul_comm]; exact hS.newPos_lt)

theorem col_lt : S.newPos % S.cols < S.cols := Nat.mod_lt _ hS.cols_pos

/-- The first cell of the cursor's row, as the source computes it. -/
theorem u32_rowStart : u32 ((S.newPos : Int) - (S.newPos : Int) % S.cols) =
    S.newPos / S.cols * S.cols := by
  have hsize := hS.size_le
  have hlt := hS.newPos_lt
  rw [← Int.natCast_mod, u32_sub_of_le (Nat.mod_le _ _) (by omega)]
  have := Nat.div_add_mod' S.newPos S.cols
  omega

end Screen.OnScreen

theorem Screen.OnScreen.flush {S : Screen} (hS : S.OnScreen) : (screenFlush S).OnScreen :=
  ⟨by simpa using hS.cols_pos, by simpa using hS.cols_le, by simpa using hS.rows_le,
    by simpa using hS.newPos_lt⟩

/-! ## Insert line -/

/-- `screen_insert_rows`: the VT100 insertion, of the buffer in which the inserted rows are
already blank. -/
theorem screenInsertRows_buf {S : Screen} (hS : S.OnScreen) (n : Nat) :
    let r := S.newPos / S.cols
    let k := min (S.rows - r) n
    (screenInsertRows S n).buf = vt100InsertLines
      (fun i => if r * S.cols ≤ i ∧ i < (r + k) * S.cols then blankCell colorWhite colorBlack
        else S.buf i) S.cols S.rows S.newPos k := by
  intro r k
  have hr_def : r = S.newPos / S.cols := rfl
  have hk_def : k = min (S.rows - r) n := rfl
  clear_value r k
  have hr : r < S.rows := hr_def ▸ hS.row_lt
  have hsize := hS.size_le
  have hkr : r + k ≤ S.rows := by omega
  -- the products the source computes, all within 32 bits
  have hkc : (r + k) * S.cols ≤ S.rows * S.cols := Nat.mul_le_mul_right _ hkr
  have hadd : (r + k) * S.cols = r * S.cols + k * S.cols := Nat.add_mul _ _ _
  have hsz : S.rows * S.cols ≤ 2400 := by rw [Nat.mul_comm]; exact hsize
  have hrows : S.rows ≤ 30 := hS.rows_le
  have hmax : u32 ((S.rows : Int) - (S.newPos : Int) / S.cols) = S.rows - r := by
    rw [← Int.natCast_div, ← hr_def, u32_sub_of_le hr.le (by omega)]
  have hcount : u32 ((k : Int) * S.cols) = k * S.cols := by
    rw [← Int.natCast_mul]
    exact u32_natCast (by omega)
  have hend : u32 (((r * S.cols : Nat) : Int) + (k : Int) * S.cols) = (r + k) * S.cols := by
    rw [← Int.natCast_mul, ← Int.natCast_add, u32_natCast (by omega)]
    omega
  have hmoved : u32 ((((S.rows - r : Nat) : Int) - (k : Int)) * S.cols) =
      S.rows * S.cols - (r + k) * S.cols := by
    rw [← Int.natCast_sub (by omega), ← Int.natCast_mul, Nat.sub_sub, Nat.sub_mul,
      u32_natCast (by omega)]
  -- the blanks are stored at `r * cols + i` for `i < k * cols`
  have hmem : ∀ j,
      j ∈ (List.range (k * S.cols)).map (fun i : Nat => u32 (i + (r * S.cols : Nat))) ↔
        r * S.cols ≤ j ∧ j < (r + k) * S.cols := by
    intro j
    simp only [List.mem_map, List.mem_range]
    constructor
    · rintro ⟨i, hi, rfl⟩
      rw [← Int.natCast_add, u32_natCast (by omega)]
      omega
    · rintro ⟨hlo, hhi⟩
      refine ⟨j - r * S.cols, by omega, ?_⟩
      rw [← Int.natCast_add, u32_natCast (by omega)]
      omega
  unfold screenInsertRows
  simp only [screenFlush_buf, screenFlush_cols, hS.u32_rowStart, ← hr_def, hmax, ← hk_def,
    hcount, hend, hmoved, Screen.move_buf, Screen.writeAll_buf, hmem]
  funext i
  unfold vt100InsertLines
  simp only [← hr_def]
  -- the cells outside the moved rows, the blank rows and the moved rows
  by_cases hlo : i < r * S.cols ∨ S.rows * S.cols ≤ i
  · rw [if_pos hlo, if_neg (by omega)]
  · rw [if_neg hlo]
    by_cases hblank : i < (r + k) * S.cols
    · rw [if_neg (by omega), if_pos hblank, if_pos (by omega)]
    · -- the cell `k` rows up, in the buffer that already has the blank rows
      have hsrc : r * S.cols + (i - (r + k) * S.cols) = i - k * S.cols := by omega
      rw [if_pos (by omega), if_neg hblank, hsrc]

/-! ## Insert characters -/

/-- A round of the loop of `'@'`, at the cell `m`. -/
def screenInsertCharsStep (n : Nat) (S : Screen) (m : Nat) : Screen :=
  let S :=
    if S.newPos < m then (S.emit (.read (u32 (m - n)))).write m (S.buf (u32 (m - n)))
    else S.write m (blankCell S.fgColor S.bgColor)
  if S.current then S.emit (.drawCharAt m) else S

theorem screenInsertChars_eq (S : Screen) (n : Nat) :
    screenInsertChars S n =
      if S.newPos = 0 then none
      else some ((List.range' S.newPos
        (u32 (S.newPos - S.newPos % S.cols + S.cols - 1) + 1 - S.newPos)).reverse.foldl
          (screenInsertCharsStep n) S) := rfl

section Step

variable (n : Nat) (S : Screen) (m : Nat)

@[simp] theorem screenInsertCharsStep_newPos : (screenInsertCharsStep n S m).newPos = S.newPos := by
  unfold screenInsertCharsStep; dsimp only; split_ifs <;> rfl

@[simp] theorem screenInsertCharsStep_fgColor :
    (screenInsertCharsStep n S m).fgColor = S.fgColor := by
  unfold screenInsertCharsStep; dsimp only; split_ifs <;> rfl

@[simp] theorem screenInsertCharsStep_bgColor :
    (screenInsertCharsStep n S m).bgColor = S.bgColor := by
  unfold screenInsertCharsStep; dsimp only; split_ifs <;> rfl

theorem screenInsertCharsStep_buf : (screenInsertCharsStep n S m).buf =
    Function.update S.buf m
      (if S.newPos < m then S.buf (u32 (m - n)) else blankCell S.fgColor S.bgColor) := by
  unfold screenInsertCharsStep; dsimp only; split_ifs <;> rfl

end Step

/-- The rounds of the loop store into `buf` only; the cursor and the colours they read stay. -/
theorem screenInsertCharsStep_foldl_buf (n : Nat) (l : List Nat) (S : Screen) :
    (l.foldl (screenInsertCharsStep n) S).buf = l.foldl (fun b m => Function.update b m
      (if S.newPos < m then b (u32 (m - n)) else blankCell S.fgColor S.bgColor)) S.buf := by
  induction l generalizing S with
  | nil => rfl
  | cons m l ih =>
    simp only [List.foldl_cons, ih, screenInsertCharsStep_newPos, screenInsertCharsStep_fgColor,
      screenInsertCharsStep_bgColor, screenInsertCharsStep_buf]

/-- The loop of `'@'` with the cursor past the first cell: from the end of the cursor's row
down to the cell after the cursor, each cell holds the one `n` before it, read before the loop
reached it, and the cursor's cell is blank. -/
theorem screenInsertChars_buf {S : Screen} (hS : S.OnScreen) (hpos : 0 < S.newPos) {n : Nat}
    (hn : n ≤ S.cols) :
    let last := S.newPos / S.cols * S.cols + S.cols - 1
    (screenInsertChars S n).map (·.buf) = some fun i =>
      if S.newPos < i ∧ i ≤ last then S.buf (u32 (i - n))
      else if i = S.newPos then blankCell S.fgColor S.bgColor else S.buf i := by
  intro last
  have hlast_def : last = S.newPos / S.cols * S.cols + S.cols - 1 := rfl
  clear_value last
  have hsize := hS.size_le
  have hmod := Nat.div_add_mod' S.newPos S.cols
  have hc := hS.col_lt
  have hrow : S.newPos / S.cols * S.cols + S.cols ≤ S.cols * S.rows := by
    rw [Nat.mul_comm S.cols]
    exact Nat.succ_mul _ _ ▸ Nat.mul_le_mul_right _ hS.row_lt
  have hlast : u32 ((S.newPos : Int) - (S.newPos : Int) % S.cols + S.cols - 1) = last := by
    have hint : (S.newPos : Int) - (S.newPos : Int) % S.cols + S.cols - 1 = (last : Int) := by
      rw [← Int.natCast_mod]
      omega
    rw [hint, u32_natCast (by omega)]
  -- no round reads a cell that an earlier one, further right, stored to
  have hpw : (List.range' S.newPos (last + 1 - S.newPos)).reverse.Pairwise
      fun (a b : Nat) => u32 ((b : Int) - n) ≠ a := by
    rw [List.pairwise_reverse]
    refine (List.pairwise_lt_range' (s := S.newPos) (n := last + 1 - S.newPos)).imp_of_mem ?_
    intro a b _ hb hab
    rw [List.mem_range'_1] at hb
    by_cases hna : n ≤ a
    · rw [u32_sub_of_le hna (by omega)]
      omega
    · rw [u32_sub_of_lt (by omega) (by omega)]
      omega
  rw [screenInsertChars_eq, if_neg (by omega), Option.map_some, hlast,
    screenInsertCharsStep_foldl_buf,
    foldl_update_read (fun m x => if S.newPos < m then x else blankCell S.fgColor S.bgColor)
      (fun m => u32 ((m : Int) - n)) hpw S.buf]
  congr 1
  funext i
  simp only [List.mem_reverse, List.mem_range'_1]
  -- the cells of the loop are those from the cursor to the end of its row
  by_cases hin : S.newPos < i ∧ i ≤ last
  · rw [if_pos (by omega), if_pos hin.1, if_pos hin]
  · rw [if_neg hin]
    by_cases hi : i = S.newPos
    · rw [if_pos (by omega), if_neg (by omega), if_pos hi]
    · rw [if_neg (by omega), if_neg hi]

/-! ## What the VT100 insertion does to blanks -/

/-- Inserting lines into a buffer whose inserted rows are already blank: the rows that should
come down are blank too, those still on the screen. -/
theorem vt100InsertLines_blanked (buf : Nat → ScreenCell) {cols rows pos k : Nat}
    (hk : pos / cols + k ≤ rows) (i : Nat) :
    let r := pos / cols
    vt100InsertLines (fun j => if r * cols ≤ j ∧ j < (r + k) * cols then
        blankCell colorWhite colorBlack else buf j) cols rows pos k i =
      if (r + k) * cols ≤ i ∧ i < (r + 2 * k) * cols ∧ i < rows * cols then
        blankCell colorWhite colorBlack
      else vt100InsertLines buf cols rows pos k i := by
  intro r
  have hr_def : r = pos / cols := rfl
  clear_value r
  have h1 : (r + k) * cols = r * cols + k * cols := Nat.add_mul _ _ _
  have h2 : (r + 2 * k) * cols = (r + k) * cols + k * cols := by
    rw [show r + 2 * k = r + k + k by omega, Nat.add_mul]
  have h3 : (r + k) * cols ≤ rows * cols := Nat.mul_le_mul_right _ (hr_def ▸ hk)
  unfold vt100InsertLines
  simp only [← hr_def]
  -- each cell is below, inside or past the rows that move, and the blank rows are a band
  split_ifs <;> first | rfl | omega

/-! ## The commands, from their bytes -/

/-- The screen `screen_handle_esc` is called with after one parameter `p`. -/
def csiWith (S : Screen) (p : Nat) : Screen :=
  { S with state := .csi, escQuestion := false, escCurParam := 1,
           escParams := fun i => if i = 0 then p else 0 }

section CsiWith

variable (S : Screen) (p : Nat)

@[simp] theorem csiWith_buf : (csiWith S p).buf = S.buf := rfl
@[simp] theorem csiWith_newPos : (csiWith S p).newPos = S.newPos := rfl
@[simp] theorem csiWith_cols : (csiWith S p).cols = S.cols := rfl
@[simp] theorem csiWith_rows : (csiWith S p).rows = S.rows := rfl
@[simp] theorem csiWith_fgColor : (csiWith S p).fgColor = S.fgColor := rfl
@[simp] theorem csiWith_bgColor : (csiWith S p).bgColor = S.bgColor := rfl
@[simp] theorem csiWith_escCurParam : (csiWith S p).escCurParam = 1 := rfl
@[simp] theorem csiWith_escParams_zero : (csiWith S p).escParams 0 = p := rfl

/-- One parameter is counted: the tests of `screen_handle_esc` for none and for fewer than two. -/
@[simp] theorem csiWith_escCurParam_lt_one : (csiWith S p).escCurParam < 1 ↔ False :=
  iff_false_intro (Int.lt_irrefl 1)

@[simp] theorem csiWith_escCurParam_lt_two : (csiWith S p).escCurParam < 2 ↔ True :=
  iff_true_intro (show (1 : Int) < 2 by decide)

theorem Screen.OnScreen.csiWith {S : Screen} (hS : S.OnScreen) (p : Nat) :
    (csiWith S p).OnScreen :=
  ⟨hS.cols_pos, hS.cols_le, hS.rows_le, hS.newPos_lt⟩

end CsiWith

/-- A sequence with one parameter, from a screen outside one. -/
theorem screenRun_csiOne {S : Screen} (h : S.state = .normal) {ds : List Nat} (hne : ds ≠ [])
    (hds : ∀ d ∈ ds, d < 10) {final : UInt8} (hq : final ≠ 0x3f)
    (hd : ¬(0x30 ≤ final ∧ final ≤ 0x39)) (hs : final ≠ 0x3b) :
    screenRun S ((csiBytes [ds] final).map .outChar) =
      (screenHandleEsc (csiWith S (paramValue ds)) final).map
        fun S => { S with state := .normal } := by
  have hparsed : { csiParsed S [ds] with escCurParam := (([ds].length : Nat) : Int) } =
      csiWith S (paramValue ds) := by
    simp only [csiParsed, csiWith]
    congr 1
    funext i
    cases i <;> simp
  rw [screenRun_csi h (by simp [screenEscMax]) (by simpa using hne) (by simpa using hds) hq hd hs,
    hparsed]

/-- The end of a sequence leaves the cells and the cursor as its command left them. -/
theorem map_normal_buf (x : Option Screen) :
    (x.map fun S => { S with state := .normal }).map (·.buf) = x.map (·.buf) := by
  cases x <;> rfl

theorem map_normal_newPos (x : Option Screen) :
    (x.map fun S => { S with state := .normal }).map (·.newPos) = x.map (·.newPos) := by
  cases x <;> rfl

theorem screenHandleEsc_insertLine (S : Screen) :
    screenHandleEsc S 0x4c = some (screenFlush (screenInsertRows (screenFlush S)
      (if S.escCurParam < 1 then 1 else S.escParams 0))) := by
  simp [screenHandleEsc]

theorem screenHandleEsc_insertChars (S : Screen) :
    screenHandleEsc S 0x40 = (screenInsertChars (screenFlush S)
      (min (if S.escCurParam < 1 then 1 else S.escParams 0)
        (u32 (S.cols - S.newPos % S.cols)))).map screenFlush := by
  simp [screenHandleEsc]

/-- `'d'`: the cursor goes to row `n - 1` of its column, `n` the parameter up to `rows`. -/
theorem screenHandleEsc_row (S : Screen) :
    (screenHandleEsc S 0x64).map (·.newPos) =
      some (u32 ((((min (if S.escCurParam < 1 then 1 else S.escParams 0) S.rows : Nat) : Int) -
        1) * S.cols + S.newPos % S.cols)) := by
  simp [screenHandleEsc]

/-! ## Backspace -/

/-- `'\b'` away from the first cell moves the cursor back one and leaves the cells. -/
theorem screenPrintChar_backspace {S : Screen} (h0 : 0 < S.newPos)
    (hin : S.newPos ≤ S.cols * S.rows) (hsize : S.cols * S.rows < 2 ^ 32) :
    (screenPrintChar S 0x08).newPos = S.newPos - 1 ∧ (screenPrintChar S 0x08).buf = S.buf := by
  have hback : u32 ((S.newPos : Int) - 1) = S.newPos - 1 := by
    unfold u32
    omega
  have hend : u32 ((S.cols : Int) * S.rows) = S.cols * S.rows := by
    rw [← Int.natCast_mul]
    exact u32_natCast hsize
  -- the cursor stays on the screen, so no scroll follows
  have hstay : ¬S.cols * S.rows ≤ S.newPos - 1 := by omega
  simp [screenPrintChar, h0, hback, hend, hstay]

/-- `screen_backspace` outside an escape sequence, with the cursor past the second cell: the
cell before the cursor is blanked, and the `'\b'` it prints takes the cursor back once more. -/
theorem screenBackspace_twice {S : Screen} (hS : S.OnScreen) (h : S.state = .normal)
    (h2 : 2 ≤ S.newPos) :
    (screenBackspace S).map (fun S' => (S'.newPos, S'.buf)) =
      some (S.newPos - 2,
        Function.update S.buf (S.newPos - 1) (blankCell S.fgColor S.bgColor)) := by
  have hsize := hS.size_le
  have hlt := hS.newPos_lt
  -- the blank is stored first, with the cursor moved to it
  set S₁ := screenSetChar { S with newPos := S.newPos - 1 } (S.newPos - 1) 0x20 with hS₁
  have hset : (if 0 < S.newPos then S₁ else S) = S₁ := if_pos (by omega)
  have hstate : S₁.state = .normal := h
  have hback := screenPrintChar_backspace (S := S₁) (by show 0 < S.newPos - 1; omega)
    (by show S.newPos - 1 ≤ S.cols * S.rows; omega) (by show S.cols * S.rows < 2 ^ 32; omega)
  unfold screenBackspace
  rw [hset]
  dsimp only
  rw [screenOutChar_print hstate (by decide), Option.map_some, Option.map_some,
    screenFlush_newPos, screenFlush_buf, hback.1, hback.2]
  show some (S.newPos - 1 - 1, Function.update S.buf (S.newPos - 1) _) = _
  rw [Nat.sub_sub]
  rfl

/-! ## Against the VT100 -/

/-- The editing commands, from their bytes, on a screen outside an escape sequence with the
cursor at `r * cols + c`. `ESC [ n L` is the VT100 insertion of `k = min n (rows - r)` lines
except that the rows the insertion should move down to rows `r + k` to `r + 2k - 1` come out
blank. `ESC [ n @` blanks the cursor's cell whatever `k = min n (cols - c)` is, copies into the
`k - 1` cells after it the cells `k` to their left, and never returns at the first cell.
`ESC [ 0 G`, `ESC [ 0 d` and `ESC [ 0 H` take the cursor off its row, below the screen for the
last two. `screen_backspace` blanks the cell before the cursor and leaves the cursor one cell
further back. -/
theorem screen_edits_break_vt100 (S : Screen) (h : S.state = .normal) (hS : S.OnScreen) :
    (∀ ds : List Nat, ds ≠ [] → (∀ d ∈ ds, d < 10) →
      let r := S.newPos / S.cols
      let k := min (paramValue ds) (S.rows - r)
      (screenRun S ((csiBytes [ds] 0x4c).map .outChar)).map (·.buf) = some fun i =>
        if (r + k) * S.cols ≤ i ∧ i < (r + 2 * k) * S.cols ∧ i < S.rows * S.cols then
          blankCell colorWhite colorBlack
        else vt100InsertLines S.buf S.cols S.rows S.newPos k i) ∧
    (∀ ds : List Nat, ds ≠ [] → (∀ d ∈ ds, d < 10) →
      let k := min (paramValue ds) (S.cols - S.newPos % S.cols)
      (screenRun S ((csiBytes [ds] 0x40).map .outChar)).map (·.buf) =
        if S.newPos = 0 then none
        else some fun i =>
          if i = S.newPos then blankCell S.fgColor S.bgColor
          else if S.newPos < i ∧ i < S.newPos + k then S.buf (u32 (i - k))
          else vt100InsertChars S.buf (blankCell S.fgColor S.bgColor) S.cols S.newPos k i) ∧
    (screenRun S ((csiBytes [[0]] 0x47).map .outChar)).map (·.newPos) =
      some (if S.newPos < S.cols then 2 ^ 32 - 1 else S.newPos / S.cols * S.cols - 1) ∧
    (screenRun S ((csiBytes [[0]] 0x64).map .outChar)).map (·.newPos) =
      some (2 ^ 32 - S.cols + S.newPos % S.cols) ∧
    (screenRun S ((csiBytes [[0]] 0x48).map .outChar)).map (·.newPos) = some (2 ^ 32 - S.cols) ∧
    (2 ≤ S.newPos → (screenBackspace S).map (fun S' => (S'.newPos, S'.buf)) =
      some (S.newPos - 2,
        Function.update S.buf (S.newPos - 1) (blankCell S.fgColor S.bgColor))) := by
  have hsize := hS.size_le
  have hc := hS.col_lt
  have hcols : S.cols ≤ 80 := hS.cols_le
  have hlt := hS.newPos_lt
  have hzero : paramValue [0] = 0 := rfl
  refine ⟨?_, ?_, ?_, ?_, ?_, screenBackspace_twice hS h⟩
  · -- insert line
    intro ds hne hds r k
    have hkr : r + k ≤ S.rows := by have := hS.row_lt; omega
    rw [screenRun_csiOne h hne hds (by decide) (by decide) (by decide), map_normal_buf,
      screenHandleEsc_insertLine, Option.map_some]
    simp only [screenFlush_buf, csiWith_escCurParam_lt_one, csiWith_escParams_zero,
      if_false]
    rw [screenInsertRows_buf (hS.csiWith _).flush]
    simp only [screenFlush_buf, screenFlush_newPos, screenFlush_cols, screenFlush_rows,
      csiWith_buf, csiWith_newPos, csiWith_cols, csiWith_rows, min_comm (S.rows - _)]
    congr 1
    funext i
    exact vt100InsertLines_blanked S.buf hkr i
  · -- insert characters
    intro ds hne hds k
    have hk_def : k = min (paramValue ds) (S.cols - S.newPos % S.cols) := rfl
    clear_value k
    have hfree : u32 ((S.cols : Int) - (S.newPos : Int) % S.cols) = S.cols - S.newPos % S.cols := by
      rw [← Int.natCast_mod, u32_sub_of_le hc.le (by omega)]
    rw [screenRun_csiOne h hne hds (by decide) (by decide) (by decide), map_normal_buf,
      screenHandleEsc_insertChars, Option.map_map]
    simp only [csiWith_escCurParam_lt_one, csiWith_escParams_zero, csiWith_cols, csiWith_newPos,
      if_false, hfree, ← hk_def]
    have hflush : ((·.buf) ∘ screenFlush) = fun S : Screen => S.buf := by
      funext S
      simp
    rw [hflush]
    by_cases h0 : S.newPos = 0
    · rw [if_pos h0, screenInsertChars_eq, if_pos (by simpa using h0), Option.map_none]
    · have hpos : 0 < (screenFlush (csiWith S (paramValue ds))).newPos := by
        simpa using Nat.pos_of_ne_zero h0
      have hkc : k ≤ (screenFlush (csiWith S (paramValue ds))).cols := by
        simp only [screenFlush_cols, csiWith_cols]
        omega
      rw [if_neg h0, screenInsertChars_buf (hS.csiWith _).flush hpos hkc]
      simp only [screenFlush_buf, screenFlush_newPos, screenFlush_cols, screenFlush_fgColor,
        screenFlush_bgColor, csiWith_buf, csiWith_newPos, csiWith_cols, csiWith_fgColor,
        csiWith_bgColor]
      congr 1
      funext i
      have hmod := Nat.div_add_mod' S.newPos S.cols
      have hk : k ≤ S.cols - S.newPos % S.cols := hk_def ▸ min_le_right _ _
      unfold vt100InsertChars
      dsimp only
      -- the cursor's cell, the cells the loop reads into, and the cells outside the loop
      by_cases hi : i = S.newPos
      · subst hi
        simp
      · by_cases hA : S.newPos < i ∧ i ≤ S.newPos / S.cols * S.cols + S.cols - 1
        · rw [if_pos hA, if_neg hi]
          by_cases hlt : i < S.newPos + k
          · rw [if_pos ⟨hA.1, hlt⟩]
          · rw [if_neg (by omega), if_neg (by omega), if_neg hlt,
              u32_sub_of_le (by omega) (by omega)]
        · rw [if_neg hA, if_neg hi, if_neg hi, if_neg (by omega), if_pos (by omega)]
  · -- `ESC [ 0 G`
    rw [screenRun_csiOne h (List.cons_ne_nil _ _) (by simp) (by decide) (by decide) (by decide),
      map_normal_newPos, screenHandleEsc_column]
    simp only [csiWith_escCurParam_lt_one, csiWith_escParams_zero, csiWith_cols, csiWith_newPos,
      if_false, hzero, Nat.zero_min, hS.u32_rowStart]
    congr 1
    split_ifs with hrow
    · have : S.newPos / S.cols = 0 := Nat.div_eq_of_lt hrow
      rw [this, Nat.zero_mul]
      rfl
    · have hge : S.cols ≤ S.newPos / S.cols * S.cols := by
        have := (Nat.le_div_iff_mul_le hS.cols_pos).2 (by omega : 1 * S.cols ≤ S.newPos)
        exact Nat.le_mul_of_pos_left _ this
      have hle : S.newPos / S.cols * S.cols ≤ S.newPos := Nat.div_mul_le_self _ _
      generalize S.newPos / S.cols * S.cols = start at hge hle ⊢
      unfold u32
      omega
  · -- `ESC [ 0 d`
    rw [screenRun_csiOne h (List.cons_ne_nil _ _) (by simp) (by decide) (by decide) (by decide),
      map_normal_newPos, screenHandleEsc_row]
    simp only [csiWith_escCurParam_lt_one, csiWith_escParams_zero, csiWith_cols, csiWith_rows,
      csiWith_newPos, if_false, hzero, Nat.zero_min]
    congr 1
    rw [← Int.natCast_mod]
    unfold u32
    omega
  · -- `ESC [ 0 H`
    rw [screenRun_csiOne h (List.cons_ne_nil _ _) (by simp) (by decide) (by decide) (by decide),
      screenHandleEsc_position]
    simp only [Option.map_some, screenFlush_newPos, screenFlush_cols, screenFlush_rows,
      csiWith_escCurParam_lt_one, csiWith_escCurParam_lt_two, csiWith_escParams_zero,
      csiWith_cols, csiWith_rows, if_false, if_true, hzero, Nat.zero_min,
      Nat.min_eq_left hS.cols_pos]
    congr 1
    unfold u32
    omega

/-- The text console of the i386 port, 80 by 25, with the cursor in the second column of the
second row: a backspace leaves it in the last column of the first row. -/
theorem screen_edits_break_vt100_vga :
    ({ screenInit 80 25 true with newPos := 81 } : Screen).state = .normal ∧
    ({ screenInit 80 25 true with newPos := 81 } : Screen).OnScreen ∧
    (screenBackspace { screenInit 80 25 true with newPos := 81 }).map
        (fun S' => (S'.newPos, S'.buf)) =
      some (79, Function.update (screenInit 80 25 true).buf 80
        (blankCell colorWhite colorBlack)) :=
  ⟨rfl, ⟨by decide, by decide, by decide, by decide⟩,
    (screen_edits_break_vt100 { screenInit 80 25 true with newPos := 81 } rfl
      ⟨by decide, by decide, by decide, by decide⟩).2.2.2.2.2 (by decide)⟩

end Argentum.Kernel
