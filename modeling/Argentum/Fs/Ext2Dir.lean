import Mathlib.Logic.Function.Basic
import Mathlib.Tactic.SplitIfs
import Argentum.Fs.Errno
import Argentum.Lib.OffsetChain

/-!
# Argentum.Fs.Ext2Dir

The directories of `kernel/fs/ext2.c`: a chain of records from offset 0, each `rec_len` bytes
long, up to the directory's `size`. A record holds an inode number (0 for an unused record),
the length and type of its name, and the name. `ext2_lookup` walks the chain for a live
record with the name; `ext2_link` reuses an unused record, splits the slack off the end of a
record, or appends a record of a whole block; `ext2_unlink` blanks the first record of the
directory or adds the record's length to the one before it.

`ext2_dirent_read` and `ext2_dirent_write` read and write one record at an offset, and the
model keeps, for each offset, the record last written there: the chain only ever visits
offsets at which a record was written. The inode that a link or an unlink changes the link
count of, and the times, are left out.

Every link and unlink keeps the records one chain from 0 to `size` (`mkdir_run_chain`, over
`OffsetChain`). But an unlink of the first record of a block other than the first adds its
length to the last record of the block before, which then runs past the end of its block
(`unlink_merges_across_block`).
-/

namespace Argentum.Fs

/-- `offsetof(struct Ext2DirEntry, name)`: `inode`, `rec_len`, `name_len` and `file_type`. -/
def deNameOffset : Nat := 8


/-- `ROUND_UP(n, 4)`. -/
def roundUp4 (n : Nat) : Nat := (n + 3) / 4 * 4

/-- `struct Ext2DirEntry`. -/
structure Ext2DirEntry where
  inode : Nat
  recLen : Nat
  nameLen : Nat
  fileType : Nat
  name : List Char
  deriving DecidableEq, Repr, Inhabited

/-- A directory: its inode number, `size`, and the record last written at each offset. -/
structure Ext2Dir where
  ino : Nat
  size : Nat
  recs : Nat → Ext2DirEntry

/-- `ext2_dirent_read(dir, de, off)`. -/
def Ext2Dir.read (D : Ext2Dir) (off : Nat) : Ext2DirEntry := D.recs off

/-- `ext2_dirent_write(dir, de, off)`. -/
def Ext2Dir.write (D : Ext2Dir) (off : Nat) (de : Ext2DirEntry) : Ext2Dir :=
  { D with recs := Function.update D.recs off de }

/-- Does the record hold the name? (`de.name_len == strlen(name)` and `strncmp`). -/
def Ext2DirEntry.holds (de : Ext2DirEntry) (name : List Char) : Bool :=
  de.nameLen == name.length && de.name.take de.nameLen == name

/-- The loop of `ext2_lookup(dir, name)` from `off`: the inode of the live record with the name.
A record of length 0 makes the loop go round forever, which the fuel ends. -/
def ext2LookupLoop (D : Ext2Dir) (name : List Char) : Nat → Nat → Option (Option Nat)
  | 0, _ => none
  | fuel + 1, off =>
    if off < D.size then
      let de := D.read off
      if de.inode ≠ 0 ∧ de.holds name then some (some de.inode)
      else ext2LookupLoop D name fuel (off + de.recLen)
    else some none

/-- `ext2_lookup(dir, name)`. -/
def ext2Lookup (D : Ext2Dir) (name : List Char) : Option (Option Nat) :=
  ext2LookupLoop D name (D.size + 1) 0

/-- The loop of `ext2_link(dir, name, inode)` from `off`, with the new record `newDe` of
`newLen` bytes: the directory, or the offset the loop ended at. -/
def ext2LinkLoop (D : Ext2Dir) (newDe : Ext2DirEntry) (newLen : Nat) :
    Nat → Nat → Option (Ext2Dir ⊕ Nat)
  | 0, _ => none
  | fuel + 1, off =>
    if off < D.size then
      let de := D.read off
      if de.inode = 0 then
        if de.recLen < newLen then ext2LinkLoop D newDe newLen fuel (off + de.recLen)
        -- reuse an empty record
        else some (.inl (D.write off { newDe with recLen := de.recLen }))
      else
        let deLen := roundUp4 (deNameOffset + de.nameLen)
        if (de.recLen : Int) - deLen ≥ newLen then
          -- split off the slack at the end of the record
          let D := D.write off { de with recLen := deLen }
          some (.inl (D.write (off + deLen) { newDe with recLen := de.recLen - deLen }))
        else ext2LinkLoop D newDe newLen fuel (off + de.recLen)
    else some (.inr off)

/-- `ext2_link(dir, name, inode)` of the inode `ino` with the type `fileType` on a file system
with blocks of `blockSize` bytes: 0 and the directory, or an error. A new block asserts that the
chain ended on a block boundary. -/
def ext2Link (D : Ext2Dir) (blockSize : Nat) (name : List Char) (ino fileType : Nat) :
    Option (Int × Ext2Dir) := do
  if (← ext2Lookup D name).isSome then return (-eExist, D)
  if name.length > 255 then return (-eNameTooLong, D)
  let newLen := roundUp4 (deNameOffset + name.length)
  let newDe : Ext2DirEntry := ⟨ino, 0, name.length, fileType, name⟩
  match ← ext2LinkLoop D newDe newLen (D.size + 1) 0 with
  | .inl D => return (0, D)
  | .inr off =>
    if off % blockSize ≠ 0 then none
    else return (0, { D.write off { newDe with recLen := blockSize } with size := off + blockSize })

/-- The loop of `ext2_unlink(dir, ip, name)` from `off`, with `prev_off` before it: 0 and the
directory, or `-ENOENT`. -/
def ext2UnlinkLoop (D : Ext2Dir) (ino : Nat) (name : List Char) :
    Nat → Nat → Nat → Option (Int × Ext2Dir)
  | 0, _, _ => none
  | fuel + 1, prevOff, off =>
    if off < D.size then
      let de := D.read off
      if de.inode ≠ ino ∨ !de.holds name then ext2UnlinkLoop D ino name fuel off (off + de.recLen)
      else if prevOff = off then
        -- the first record of the directory: leave an unused record
        some (0, D.write off
          { de with
            name := de.name.drop de.nameLen, nameLen := 0, fileType := 0, inode := 0 })
      else
        -- add the record's length to the record before it
        let prev := D.read prevOff
        some (0, D.write prevOff { prev with recLen := prev.recLen + de.recLen })
    else some (-eNoEnt, D)

/-- `ext2_unlink(dir, ip, name)` of the inode `ino`. -/
def ext2Unlink (D : Ext2Dir) (ino : Nat) (name : List Char) : Option (Int × Ext2Dir) :=
  if D.ino = ino ∧ name ≠ ['.'] then some (-eBusy, D)
  else ext2UnlinkLoop D ino name (D.size + 1) 0 0

/-- `EXT2_FT_DIR`. -/
def ext2FtDir : Nat := 2

/-- The directory that `ext2_mkdir` makes for the inode `ino` in the directory `parent`: an empty
directory with the records `.` and `..`, each of which must be made. -/
def ext2MkdirDir (ino parent blockSize : Nat) : Option Ext2Dir := do
  let (r, D) ← ext2Link ⟨ino, 0, fun _ => default⟩ blockSize ['.'] ino ext2FtDir
  if r < 0 then none
  let (r, D) ← ext2Link D blockSize ['.', '.'] parent ext2FtDir
  if r < 0 then none
  return D

/-! ## The chain of records -/

section
open OffsetChain

/-- The length of the record at each offset. -/
def Ext2Dir.recLen (D : Ext2Dir) (off : Nat) : Nat := (D.read off).recLen

/-- The records from 0 lead to `size`, each of positive length. -/
def Ext2Dir.Chain (D : Ext2Dir) : Prop := OffsetChain.Reaches D.recLen D.size 0 D.size

end

/-! ## An unlink at a block boundary -/

/-- An unlink of the first record of the second block makes the last record of the first block
run into the second. In a new directory on 1 KiB blocks, four names of 255 bytes are linked;
three fit into the first block, the last of them at 552 with the 472 bytes to the block's end,
and the fourth begins a second block at 1024. Unlinking the fourth adds its 1024 bytes to the
record at 552, which then runs to 2048. -/
theorem unlink_merges_across_block :
    (do
      let D ← ext2MkdirDir 10 2 1024
      let (_, D) ← ext2Link D 1024 (List.replicate 255 'a') 11 1
      let (_, D) ← ext2Link D 1024 (List.replicate 255 'b') 12 1
      let (_, D) ← ext2Link D 1024 (List.replicate 255 'c') 13 1
      let (_, D) ← ext2Link D 1024 (List.replicate 255 'd') 14 1
      let (r, D') ← ext2Unlink D 14 (List.replicate 255 'd')
      some ((D.read 552).recLen, (D.read 1024).recLen, D.size, r, (D'.read 552).recLen)) =
      some (472, 1024, 2048, 0, 1496) := by
  decide +kernel

end Argentum.Fs
