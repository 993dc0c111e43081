import Mathlib.Data.Nat.Bitwise

/-!
# Argentum.Fs.Permission

The permission checks of the file system service: `fs_inode_permission` of
`kernel/fs/inode.c`, and the checks the request handlers of `kernel/fs/service.c` make before
they act: `do_open_locked`, `do_read` and `do_write`, the handlers that change a directory
(`do_create`, `do_link`, `do_symlink`, `do_unlink`, `do_rmdir`), `do_inode_chmod`,
`do_chown_locked` and `do_utime`.

The `O_*` values are those of newlib 4.4.0, which `lib/lib.mk` builds the system with:
`O_RDONLY` is 0, so `oflag & O_RDONLY` is never set, and `O_RDWR` is 2, which does not
contain `O_WRONLY`'s bit. `do_open_locked` therefore checks no permission for `O_RDONLY` and
none for `O_RDWR`, and its owner-bit checks do not look at the caller at all.

A process is its credentials, or `none` for a request with no process, which the handlers
treat as the superuser. An inode is the attributes the checks read.
-/

namespace Argentum.Fs

/-! ## Constants -/

/-- `O_*` open flags. -/
def oRdonly : Nat := 0
def oWronly : Nat := 1
def oRdwr : Nat := 2
def oAccmode : Nat := 3
def oAppend : Nat := 0x0008
def oTrunc : Nat := 0x0400
def oDirectory : Nat := 0x200000

/-- `FS_PERM_*`: the permission a check asks for. -/
def fsPermExec : Nat := 1
def fsPermWrite : Nat := 2
def fsPermRead : Nat := 4

/-- `S_IF*` and `S_I*` mode bits. -/
def sIfmt : Nat := 0o170000
def sIfdir : Nat := 0o040000
def sIfreg : Nat := 0o100000
def sIrusr : Nat := 0o400
def sIwusr : Nat := 0o200
def sIxusr : Nat := 0o100
def sIxgrp : Nat := 0o010
def sIxoth : Nat := 0o001

/-- `CHMOD_MASK`: the permission, set-user-ID and set-group-ID bits. -/
def chmodMask : Nat := 0o6777

/-- The errors the checks return. -/
def ePerm : Int := 1
def eBadf : Int := 9
def eNotDir : Int := 20

/-- `(uid_t) -1` and `(gid_t) -1`: leave the id as it is. -/
def idNone : Nat := 0xFFFF

/-- `S_ISDIR(mode)`. -/
def sIsdir (mode : Nat) : Bool := mode &&& sIfmt == sIfdir

/-! ## Processes and inodes -/

/-- The credentials of a process. -/
structure Cred where
  ruid : Nat
  euid : Nat
  rgid : Nat
  egid : Nat
  deriving DecidableEq, Repr

/-- The attributes of an inode that the checks read and the handlers change. -/
structure InodeAttr where
  mode : Nat
  uid : Nat
  gid : Nat
  size : Nat
  deriving DecidableEq, Repr

/-- `process ? process->euid : 0`. -/
def euidOf : Option Cred → Nat
  | none => 0
  | some c => c.euid

/-- `process ? process->egid : 0`. -/
def egidOf : Option Cred → Nat
  | none => 0
  | some c => c.egid

/-- `fs_inode_permission(process, inode, mode, real)`: the superuser may do anything but
execute a file no one may execute; anyone else gets the owner's, the group's or the others'
bits, the first class that fits. -/
def fsInodePermission (p : Option Cred) (inode : InodeAttr) (mode : Nat) (real : Bool) : Bool :=
  let uid := match p with | none => 0 | some c => if real then c.ruid else c.euid
  let gid := match p with | none => 0 | some c => if real then c.rgid else c.egid
  if uid = 0 then
    if mode &&& fsPermExec ≠ 0 then inode.mode &&& (sIxusr ||| sIxgrp ||| sIxoth) ≠ 0 else true
  else
    let mode := if uid = inode.uid then mode <<< 6 else if gid = inode.gid then mode <<< 3 else mode
    inode.mode &&& mode == mode

/-! ## Opening, reading and writing -/

/-- `do_open_locked(fs, process, connection, inode, oflag)`: the inode after the open, which
`O_TRUNC` with `O_WRONLY` empties, and the offset of the new file. -/
def doOpenLocked (inode : InodeAttr) (oflag : Nat) : Except Int (InodeAttr × Nat) :=
  if oflag &&& oDirectory ≠ 0 ∧ !sIsdir inode.mode then .error (-eNotDir)
  else if sIsdir inode.mode ∧ oflag &&& oWronly ≠ 0 then .error (-eNotDir)
  -- only the owner's bits, whoever opens
  else if oflag &&& oRdonly ≠ 0 ∧ inode.mode &&& sIrusr = 0 then .error (-ePerm)
  else if oflag &&& oWronly ≠ 0 ∧ inode.mode &&& sIwusr = 0 then .error (-ePerm)
  else
    let inode := if oflag &&& oWronly ≠ 0 ∧ oflag &&& oTrunc ≠ 0 then { inode with size := 0 }
      else inode
    .ok (inode, if oflag &&& oAppend ≠ 0 then inode.size else 0)

/-- The checks of `do_read` and `do_read_locked` on a file opened with `flags`. -/
def doReadCheck (p : Option Cred) (inode : InodeAttr) (flags : Nat) : Except Int Unit :=
  if flags &&& oAccmode = oWronly then .error (-eBadf)
  else if !fsInodePermission p inode fsPermRead false then .error (-ePerm)
  else .ok ()

/-- The checks of `do_write` and `do_write_locked` on a file opened with `flags`. -/
def doWriteCheck (p : Option Cred) (inode : InodeAttr) (flags : Nat) : Except Int Unit :=
  if flags &&& oAccmode = oRdonly then .error (-eBadf)
  else if !fsInodePermission p inode fsPermWrite false then .error (-ePerm)
  else .ok ()

/-! ## Changing a directory -/

/-- The check that `do_create_locked`, `do_link_locked`, `do_symlink_locked`, `do_unlink` and
`do_rmdir` make on the directory before the change. -/
def dirChangeCheck (p : Option Cred) (dir : InodeAttr) : Except Int Unit :=
  if !sIsdir dir.mode then .error (-eNotDir)
  else if !fsInodePermission p dir fsPermWrite false then .error (-ePerm)
  else .ok ()

/-- `do_create_locked`'s check. -/
def doCreateCheck (p : Option Cred) (dir : InodeAttr) : Except Int Unit := dirChangeCheck p dir

/-- `do_link_locked`'s check of the directory. -/
def doLinkCheck (p : Option Cred) (dir : InodeAttr) : Except Int Unit := dirChangeCheck p dir

/-- `do_symlink_locked`'s check. -/
def doSymlinkCheck (p : Option Cred) (dir : InodeAttr) : Except Int Unit := dirChangeCheck p dir

/-- `do_unlink`'s check of the directory. -/
def doUnlinkCheck (p : Option Cred) (dir : InodeAttr) : Except Int Unit := dirChangeCheck p dir

/-- `do_rmdir`'s check of the directory. -/
def doRmdirCheck (p : Option Cred) (dir : InodeAttr) : Except Int Unit := dirChangeCheck p dir

/-! ## Attributes -/

/-- `do_inode_chmod(fs, process, inode, mode)`. -/
def doInodeChmod (p : Option Cred) (inode : InodeAttr) (mode : Nat) : Except Int InodeAttr :=
  if euidOf p ≠ 0 ∧ inode.uid ≠ euidOf p then .error (-ePerm)
  -- `~CHMOD_MASK` in the 32 bits of `mode_t`
  else
    .ok { inode with mode := (inode.mode &&& (0xFFFFFFFF ^^^ chmodMask)) ||| (mode &&& chmodMask) }

/-- `do_chown_locked(fs, process, inode, uid, gid)`. -/
def doChownLocked (p : Option Cred) (inode : InodeAttr) (uid gid : Nat) :
    Except Int InodeAttr :=
  if uid ≠ idNone ∧ euidOf p ≠ 0 ∧ euidOf p ≠ inode.uid then .error (-ePerm)
  else if gid ≠ idNone ∧ euidOf p ≠ 0 ∧ euidOf p ≠ inode.uid ∧
      (uid ≠ idNone ∨ egidOf p ≠ inode.gid) then .error (-ePerm)
  else
    let inode := if uid ≠ idNone then { inode with uid } else inode
    .ok (if gid ≠ idNone then { inode with gid } else inode)

/-- `do_utime`'s check before it sets explicit times. -/
def doUtimeCheck (p : Option Cred) (inode : InodeAttr) : Except Int Unit :=
  if euidOf p ≠ 0 ∨ (euidOf p ≠ inode.uid ∨ !fsInodePermission p inode fsPermWrite true) then
    .error (-ePerm)
  else .ok ()

/-! ## What the checks let through -/

/-- `O_RDONLY` opens any inode, directories included, for anyone: no bit of it is tested. -/
theorem doOpenLocked_rdonly (inode : InodeAttr) : doOpenLocked inode oRdonly = .ok (inode, 0) := by
  simp [doOpenLocked, oRdonly, oDirectory, oWronly, oTrunc, oAppend]

/-- `do_inode_chmod` changes the mode exactly when the caller is the superuser or the owner. -/
theorem doInodeChmod_ok_iff (p : Option Cred) (inode : InodeAttr) (mode : Nat) :
    (∃ inode', doInodeChmod p inode mode = .ok inode') ↔ euidOf p = 0 ∨ euidOf p = inode.uid := by
  unfold doInodeChmod
  by_cases h : euidOf p ≠ 0 ∧ inode.uid ≠ euidOf p
  · rw [if_pos h]
    constructor
    · rintro ⟨_, hc⟩
      cases hc
    · rintro (h0 | h0)
      · exact absurd h0 h.1
      · exact absurd h0.symm h.2
  · rw [if_neg h]
    exact ⟨fun _ => by omega, fun _ => ⟨_, rfl⟩⟩

/-- The owner may give a file away: `do_chown_locked` lets a caller who is not the superuser
change the owner of a file it owns. -/
theorem doChownLocked_owner (c : Cred) (inode : InodeAttr) (uid : Nat) (hown : c.euid = inode.uid)
    (huid : uid ≠ idNone) :
    doChownLocked (some c) inode uid idNone = .ok { inode with uid } := by
  simp [doChownLocked, euidOf, hown, huid]

/-- A directory that its owner may write to but not search can be changed by that owner, root or
not: `dirChangeCheck` asks for the write permission alone. -/
theorem dirChangeCheck_no_search (c : Cred) (dir : InodeAttr) (hdir : dir.mode = 0o040200)
    (hown : c.euid = dir.uid) : dirChangeCheck (some c) dir = .ok () := by
  simp [dirChangeCheck, sIsdir, fsInodePermission, hdir, hown, sIfmt, sIfdir, fsPermWrite,
    fsPermExec]

/-- `do_utime` refuses explicit times to everyone but a superuser that owns the inode. -/
theorem doUtimeCheck_ok (p : Option Cred) (inode : InodeAttr) (h : doUtimeCheck p inode = .ok ()) :
    euidOf p = 0 ∧ inode.uid = 0 := by
  unfold doUtimeCheck at h
  split at h
  · cases h
  · rename_i hn
    omega

/-- A process that is neither the superuser nor the owner nor in the group opens, with
`O_RDONLY`, a regular file that no one may read. -/
theorem open_rdonly_unchecked :
    doOpenLocked ⟨0o100000, 0, 0, 5⟩ oRdonly = .ok (⟨0o100000, 0, 0, 5⟩, 0) ∧
      fsInodePermission (some ⟨1000, 1000, 1000, 1000⟩) ⟨0o100000, 0, 0, 5⟩ fsPermRead false =
        false :=
  ⟨doOpenLocked_rdonly _, by decide⟩

end Argentum.Fs
