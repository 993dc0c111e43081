import Argentum.Fs.Path
import Argentum.Fs.Permission

/-!
# Argentum.Fs.Lookup

The lookup of a name in a directory, from both sides that take part in it. The kernel side,
`fs_path_node_lookup` of `kernel/fs/path.c`, first looks for a child of the path node with that
name, and sends `IPC_MSG_LOOKUP` to the file system service only when there is none. The
service side, `do_lookup` of `kernel/fs/service.c`, answers for the process that sent the
request: the directory must be one, and the process must be allowed to *read* it.

So search permission is never asked for (`doLookup_of_dir`), and a child in the cache is handed
to any process whatever its credentials (`fsPathNodeLookup_cached`): what a resolution returns
depends on what other processes resolved before it.

The service a process sees is `processService`: `do_lookup` for that process answers its
lookups, and a given service answers the other requests.
-/

namespace Argentum.Fs

/-- `FS_LOOKUP_REAL`, which no caller of `fs_path_node_resolve` passes. -/
def fsLookupReal : Nat := 1 <<< 0

/-- What `do_lookup` reads of a file system: the attributes of each inode, and
`fs->ops->lookup`, the inode a directory holds under a name, 0 for none. -/
structure DirFs where
  attr : Nat → InodeAttr
  entry : Nat → List Char → Nat

/-- `do_lookup(fs, req, msg)` for the process `p` that sent the request. -/
def doLookup (fs : DirFs) (p : Option Cred) (flags : Nat) (dirIno : Nat) (name : List Char) :
    Int :=
  let dir := fs.attr dirIno
  if !sIsdir dir.mode then -eNotDir
  else if !fsInodePermission p dir fsPermRead (flags &&& fsLookupReal ≠ 0) then -ePerm
  else fs.entry dirIno name

/-- The file system service as the process `p` sees it, for lookups with `flags`: `do_lookup`
answers the lookups, and `base` the other requests. -/
def processService (fs : DirFs) (p : Option Cred) (flags : Nat) (base : FsService) :
    FsService :=
  { base with lookup := doLookup fs p flags }

/-- `do_lookup` in a directory: the entry if the process may read the directory, and
`-EPERM` if not. Whether it may search the directory is not asked. -/
theorem doLookup_of_dir (fs : DirFs) (p : Option Cred) (flags dirIno : Nat) (name : List Char)
    (hdir : sIsdir (fs.attr dirIno).mode = true) :
    doLookup fs p flags dirIno name =
      if fsInodePermission p (fs.attr dirIno) fsPermRead (flags &&& fsLookupReal ≠ 0) then
        (fs.entry dirIno name : Int)
      else -ePerm := by
  unfold doLookup
  simp only [hdir, Bool.not_true, Bool.false_eq_true, if_false]
  cases fsInodePermission p (fs.attr dirIno) fsPermRead (flags &&& fsLookupReal ≠ 0) <;> rfl

/-- A child in the cache: `fs_path_node_lookup` takes a reference to it and sends nothing, so
the service, and the process it answers for, play no part. -/
theorem fsPathNodeLookup_cached (S : FsService) (T : PathTree) (parent : Nat)
    (name : List Char) {c : Nat}
    (hc : (T.node parent).children.find? (fun c => (T.node c).name == name) = some c) :
    fsPathNodeLookup S T parent name =
      if pathNodeLockable T parent ∧ pathNodeLockable (T.addRef c 1) parent then
        some (T.addRef c 1, 0, some c)
      else none := by
  unfold fsPathNodeLookup
  simp only [fsPathNodeLookupCached, hc]
  by_cases h₁ : pathNodeLockable T parent
  · by_cases h₂ : pathNodeLockable (T.addRef c 1) parent <;> simp [h₁, h₂]
  · simp [h₁]

/-! ## Two processes -/

/-- A file system whose root, inode 1, holds the directories `d`, inode 2, which others may
read but not search, and `s`, inode 4, which only its owner, the superuser, may use; `d` holds
`f`, inode 3, and `s` holds `g`, inode 5. -/
def permFs : DirFs where
  attr ino :=
    if ino = 1 then ⟨0o040755, 0, 0, 0⟩
    else if ino = 2 then ⟨0o040744, 0, 0, 0⟩
    else if ino = 4 then ⟨0o040700, 0, 0, 0⟩
    else ⟨0o100644, 0, 0, 0⟩
  entry dir name :=
    if dir = 1 ∧ name = ['d'] then 2
    else if dir = 1 ∧ name = ['s'] then 4
    else if dir = 2 ∧ name = ['f'] then 3
    else if dir = 4 ∧ name = ['g'] then 5
    else 0

/-- The superuser and a user, 5, in no group of these inodes. -/
def rootCred : Option Cred := some ⟨0, 0, 0, 0⟩
def userCred : Option Cred := some ⟨5, 5, 5, 5⟩

/-- The service for a process of `permFs`, with no symbolic links. -/
def permService (p : Option Cred) : FsService := processService permFs p 0 dirAService

/-- Search permission is not what resolution checks, and the cache lets a process through a
directory it may not use. A cached child is returned to every process alike. `do_lookup` asks
for read permission and never for search permission. On `permFs`, the user has no search
permission on `d`, yet resolves `/d/f` from the tree `fs_init` leaves. The user resolves
`/s/g` to `-EPERM` from that tree. Once the superuser has resolved `/s/g` and kept its node,
the same request of the user resolves it, to the node the superuser holds. -/
theorem lookup_skips_search_and_cache :
    (∀ (S S' : FsService) (T : PathTree) (parent : Nat) (name : List Char),
      (∃ c, (T.node parent).children.find? (fun c => (T.node c).name == name) = some c) →
        fsPathNodeLookup S T parent name = fsPathNodeLookup S' T parent name) ∧
    (∀ (fs : DirFs) (p : Option Cred) (flags dirIno : Nat) (name : List Char),
      sIsdir (fs.attr dirIno).mode = true →
        (doLookup fs p flags dirIno name = -ePerm ↔
          fsInodePermission p (fs.attr dirIno) fsPermRead (flags &&& fsLookupReal ≠ 0) =
            false)) ∧
    fsInodePermission userCred (permFs.attr 2) fsPermExec false = false ∧
    ((fsPathInit 1).bind fun T =>
        fsPathNodeResolveAt (permService userCred) T 0 "/d/f".toList 0 true false).map
      (·.r) = some 0 ∧
    ((fsPathInit 1).bind fun T =>
        fsPathNodeResolveAt (permService userCred) T 0 "/s/g".toList 0 true false).map
      (·.r) = some (-ePerm) ∧
    ((fsPathInit 1).bind fun T =>
        (fsPathNodeResolveAt (permService rootCred) T 0 "/s/g".toList 0 true false).bind
          fun a => (fsPathNodeResolveAt (permService userCred) a.tree 0 "/s/g".toList 0 true
            false).map fun b =>
              (b.r, b.store, a.store, b.store.map fun n => (b.tree.node n).ino)) =
      some (0, some 2, some 2, some 5) := by
  refine ⟨fun S S' T parent name ⟨c, hc⟩ => ?_, fun fs p flags dirIno name hdir => ?_,
    by decide, by decide +kernel, by decide +kernel, by decide +kernel⟩
  · rw [fsPathNodeLookup_cached S T parent name hc, fsPathNodeLookup_cached S' T parent name hc]
  · rw [doLookup_of_dir fs p flags dirIno name hdir]
    by_cases hperm :
        fsInodePermission p (fs.attr dirIno) fsPermRead (flags &&& fsLookupReal ≠ 0) = true
    · -- an entry is an inode number, never negative
      rw [if_pos hperm, hperm]
      simp only [Bool.true_eq_false, iff_false]
      unfold ePerm
      omega
    · rw [if_neg hperm]
      simpa using hperm

end Argentum.Fs
