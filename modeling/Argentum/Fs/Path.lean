import Mathlib
import Argentum.Fs.Errno

/-!
# Argentum.Fs.Path

The tree of path nodes of `kernel/fs/path.c`, through which the pathname operations of
`kernel/fs/fs.c` reach the file system service. A node caches one name of a directory; it is
linked in its parent's `children`, and its `ref_count` counts the references held outside the
tree, its children, and one if it is linked in its parent. `fs_path_node_unref` returns a node
to `fs_path_pool` once it is unused, and goes on up the tree; the root is its own parent and
stays.

A node is named by its number in the pool, which hands out the node last returned to it first,
or a new one. The file system service answers the requests the resolution sends
(`IPC_MSG_LOOKUP`, `IPC_MSG_STAT`, `IPC_MSG_READLINK`, `IPC_MSG_LINK`, `IPC_MSG_UNLINK`) as a
function of their arguments, `FsService`, and mount points are left out. `none` is a failed
`k_assert` or a `k_panic`; the resolution loop runs on fuel, enough for every path
`fs_path_node_resolve_at` can follow.

`fs_rename` returns `-ENOENT` for a missing last component of the old path without dropping
the reference to its directory that the resolution handed it, and that node can then never go
back to the pool (`rename_missing_leaks_dir`).
-/

namespace Argentum.Fs

/-! ## Constants -/

/-- `NAME_MAX` and `PATH_MAX` of the system's `limits.h`. -/
def nameMax : Nat := 255
def pathMax : Nat := 4096

/-- `FS_LOOKUP_FOLLOW_LINKS`. -/
def fsLookupFollowLinks : Nat := 1 <<< 1


/-! ## State -/

/-- `struct PathNode`: its name, inode, parent, children (the first added first in the list)
and `ref_count`. -/
structure PathNode where
  name : List Char
  ino : Nat
  parent : Option Nat
  children : List Nat
  refCount : Int
  deriving DecidableEq, Repr, Inhabited

/-- The nodes by number, the nodes in `fs_path_pool`, and `fs_root`. -/
structure PathTree where
  nodes : List PathNode
  pool : List Nat
  root : Nat
  deriving DecidableEq, Repr

/-- The node numbered `n`. -/
def PathTree.node (T : PathTree) (n : Nat) : PathNode := T.nodes.getD n default

/-- The tree with node `n` replaced. -/
def PathTree.setNode (T : PathTree) (n : Nat) (x : PathNode) : PathTree :=
  { T with nodes := T.nodes.set n x }

/-- The tree with the reference count of node `n` moved by `d`. -/
def PathTree.addRef (T : PathTree) (n : Nat) (d : Int) : PathTree :=
  T.setNode n { T.node n with refCount := (T.node n).refCount + d }

/-- The answers of the file system service: `IPC_MSG_LOOKUP` (an inode, 0 for none, or an
error), `IPC_MSG_STAT` (an error, or whether the inode is a symbolic link),
`IPC_MSG_READLINK` (a length or an error, and the target), `IPC_MSG_UNLINK` and
`IPC_MSG_LINK`. -/
structure FsService where
  lookup : Nat → List Char → Int
  stat : Nat → Int × Bool
  readlink : Nat → Int × List Char
  unlink : Nat → List Char → Nat → Int
  link : Nat → List Char → Nat → Int

/-! ## Nodes -/

/-- `k_object_pool_get(fs_path_pool)`: the node last put back, or a new one as
`fs_path_node_ctor` makes it. -/
def pathPoolGet (T : PathTree) : PathTree × Nat :=
  match T.pool with
  | n :: rest => ({ T with pool := rest }, n)
  | [] => ({ T with nodes := T.nodes ++ [default] }, T.nodes.length)

/-- `fs_path_node_create(name, ino, connection, parent)`: a node with one reference, and with
`parent` one more for the parent and one for the link. -/
def fsPathNodeCreate (T : PathTree) (name : List Char) (ino : Nat) (parent : Option Nat) :
    PathTree × Nat :=
  let (T, n) := pathPoolGet T
  let T := T.setNode n
    { T.node n with
      name := name.take nameMax, ino, parent, refCount := (T.node n).refCount + 1 }
  match parent with
  | none => (T, n)
  | some p =>
    let T := T.setNode p
      { T.node p with
        refCount := (T.node p).refCount + 1, children := n :: (T.node p).children }
    (T.addRef n 1, n)

/-- `fs_path_node_remove(path)`: unlink the node from its parent. -/
def fsPathNodeRemove (T : PathTree) (n : Nat) : PathTree :=
  let T := match (T.node n).parent with
    | none => T
    | some p =>
      let T := T.setNode p
        { T.node p with
          refCount := (T.node p).refCount - 1, children := (T.node p).children.erase n }
      T.setNode n { T.node n with parent := none }
  T.addRef n (-1)

/-- `fs_path_node_ref(node)`, which asserts that the node has a reference. -/
def fsPathNodeRef (T : PathTree) (n : Nat) : Option PathTree :=
  if (T.node n).refCount > 0 then some (T.addRef n 1) else none

/-- The loop of `fs_path_node_unref`: while the node is unused (no reference but its link, or
none at all and no parent), return it to the pool and go on with its parent. Each round frees a
node, so the number of nodes is enough fuel. -/
def fsPathNodeUnrefLoop : Nat → PathTree → Option Nat → Option PathTree
  | _, T, none => some T
  | 0, _, some _ => none
  | fuel + 1, T, some n =>
    if (T.node n).refCount ≥ 2 then some T
    else if (T.node n).refCount < 0 then none
    else
      let parent := (T.node n).parent
      if (T.node n).refCount = 1 ∧ parent = none then some T
      else
        match parent with
        | some p =>
          if (T.node n).refCount ≠ 1 then none
          else
            let T := T.setNode p { T.node p with children := (T.node p).children.erase n }
            let T := T.setNode n { T.node n with refCount := 0, ino := 0 }
            fsPathNodeUnrefLoop fuel ({ T with pool := n :: T.pool }.addRef p (-1)) (some p)
        | none =>
          let T := T.setNode n { T.node n with ino := 0 }
          some { T with pool := n :: T.pool }

/-- `fs_path_node_unref(path)`: one reference less; a node left with none but still linked
panics ("path in bad state"). -/
def fsPathNodeUnref (T : PathTree) (n : Nat) : Option PathTree :=
  let T := T.addRef n (-1)
  if (T.node n).refCount = 0 ∧ (T.node n).parent.isSome then none
  else fsPathNodeUnrefLoop T.nodes.length T (some n)

/-- `fs_path_node_lock(node)` and `fs_path_node_unlock(node)` assert that the node is not one
that only its link holds. -/
def pathNodeLockable (T : PathTree) (n : Nat) : Bool :=
  (T.node n).refCount ≠ 1 || (T.node n).parent.isNone

/-- `fs_path_parent_ref(node)`. -/
def fsPathParentRef (T : PathTree) (n : Nat) : Option (PathTree × Option Nat) :=
  if !pathNodeLockable T n then none
  else
    match (T.node n).parent with
    | none => some (T, none)
    | some p => (fsPathNodeRef T p).map fun T => (T, some p)

/-- `fs_path_node_lookup_cached(parent, name)`: a child with the name, with one more
reference. -/
def fsPathNodeLookupCached (T : PathTree) (parent : Nat) (name : List Char) :
    PathTree × Option Nat :=
  match (T.node parent).children.find? fun c => (T.node c).name == name with
  | some c => (T.addRef c 1, some c)
  | none => (T, none)

/-- `fs_path_node_lookup(parent, name, flags, &child)`: the cached child, or a new node for
what the service finds. -/
def fsPathNodeLookup (S : FsService) (T : PathTree) (parent : Nat) (name : List Char) :
    Option (PathTree × Int × Option Nat) :=
  if !pathNodeLockable T parent then none
  else
    let (T, child) := fsPathNodeLookupCached T parent name
    let (T, r, child) := match child with
      | some c => (T, 0, some c)
      | none =>
        let r := S.lookup (T.node parent).ino name
        if r > 0 then
          let (T, c) := fsPathNodeCreate T name r.toNat (some parent)
          (T, r, some c)
        else (T, r, none)
    if !pathNodeLockable T parent then none else some (T, r, child)

/-! ## Resolution -/

/-- `fs_path_next(path, name_buf, &p)`: the next component and the rest after it, 0 at the end
of the path (which leaves `p` as it was), or `-ENAMETOOLONG`. -/
def fsPathNext (path : List Char) : Int × List Char × List Char :=
  let path' := path.dropWhile (· = '/')
  if path' = [] then (0, [], path)
  else
    let name := path'.takeWhile (· ≠ '/')
    if name.length > nameMax + 1 then (-eNameTooLong, [], path)
    else (name.length, name, (path'.dropWhile (· ≠ '/')).dropWhile (· = '/'))

/-- `fs_path_resolve_symlink(ino, connection, rest, &path)`: the target of the link, then the
rest of the path, in a buffer of `PATH_MAX` bytes. It asserts that the target is not empty and
fits. `strncpy(&path[r], rest, PATH_MAX - 1 - r)` writes exactly its count of bytes, the rest
and then NULs; the count is a `size_t`, and a byte past the buffer is `none`. -/
def fsPathResolveSymlink (S : FsService) (ino : Nat) (rest : List Char) :
    Option (Int × List Char) :=
  let (r, target) := S.readlink ino
  if r < 0 then some (r, [])
  else if ¬(r > 0 ∧ r < pathMax) then none
  else
    let path := target.take r.toNat
    let (r, path) :=
      if path.getLast? ≠ some '/' ∧ rest ≠ [] then (r + 1, path ++ ['/']) else (r, path)
    let count := ((pathMax - 1 - r) % 2 ^ 32).toNat
    if r.toNat + count > pathMax then none
    else some (r, path ++ rest.take count)

/-- The state of the loop of `fs_path_node_resolve_at`: the tree, the rest of the path,
`name_buf`, `prev`, `next` and the number of links followed. -/
structure ResolveState where
  tree : PathTree
  path : List Char
  nameBuf : List Char
  prev : Option Nat
  next : Option Nat
  links : Nat

/-- Drop the reference to a node, if there is one. -/
def unrefOpt (T : PathTree) : Option Nat → Option PathTree
  | none => some T
  | some n => fsPathNodeUnref T n

/-- The loop of `fs_path_node_resolve_at`: `r` when it ends, and the state. -/
def resolveLoop (S : FsService) (flags : Nat) : Nat → ResolveState → Option (Int × ResolveState)
  | 0, _ => none
  | fuel + 1, st =>
    let (r, name, rest) := fsPathNext st.path
    if r ≤ 0 then some (r, st)
    else
      let st := { st with path := rest, nameBuf := name }
      if name = ['.'] then resolveLoop S flags fuel st
      else do
        let T ← unrefOpt st.tree st.prev
        let prev := st.next
        match prev with
        | none => none
        | some pv =>
        if name = ['.', '.'] then
          -- the parent of `prev`; a node with none is a dangling node
          let (T, next) ← fsPathParentRef T pv
          if next.isNone then none
          else resolveLoop S flags fuel { st with tree := T, prev := some pv, next }
        else
          let (T, r, next) ← fsPathNodeLookup S T pv name
          let st := { st with tree := T, prev := some pv, next }
          if r < 0 then some (r, st)
          else
            match next with
            | none => some (if rest ≠ [] then -eNoEnt else r, st)
            | some nx =>
              let (r, isLink) := S.stat (T.node nx).ino
              if r < 0 then some (r, st)
              else if !isLink then resolveLoop S flags fuel st
              else if rest = [] ∧ flags &&& fsLookupFollowLinks = 0 then some (r, st)
              else if st.links + 1 > 20 then some (-eLoop, { st with links := st.links + 1 })
              else
                let st := { st with links := st.links + 1 }
                let (r, path) ← fsPathResolveSymlink S (T.node nx).ino rest
                if r < 0 then some (r, st)
                else
                  let T ← fsPathNodeUnref T nx
                  let target := if path.head? = some '/' then T.root else pv
                  let T ← fsPathNodeRef T target
                  resolveLoop S flags fuel { st with tree := T, path, next := some target }

/-- The fuel of `resolveLoop`: each round takes a component off the path, which is at most
`PATH_MAX` long, or follows one of at most 21 links. -/
def resolveFuel : Nat := 22 * pathMax

/-- What `fs_path_node_resolve_at` returns: `r`, the tree, `name_buf`, and the node and its
directory that it hands back when `r` is 0, each with a reference. -/
structure Resolved where
  r : Int
  tree : PathTree
  name : List Char
  store : Option Nat
  parentStore : Option Nat

/-- `fs_path_node_resolve_at(start, path, name_buf, flags, &store, &parent_store)`, where
`wantStore` and `wantParent` say whether the caller passes `store` and `parent_store`. -/
def fsPathNodeResolveAt (S : FsService) (T : PathTree) (start : Nat) (path : List Char)
    (flags : Nat) (wantStore wantParent : Bool) : Option Resolved := do
  if path = [] then return ⟨-eNoEnt, T, [], none, none⟩
  let path := path.take (pathMax - 1)
  let first := if path.head? = some '/' then T.root else start
  let T ← fsPathNodeRef T first
  let (r, st) ← resolveLoop S flags resolveFuel ⟨T, path, [], none, some first, 0⟩
  let (T, parentStore) ←
    if r = 0 ∧ wantParent then some (st.tree, st.prev)
    else (unrefOpt st.tree st.prev).map fun T => (T, none)
  let (T, store) ←
    if r = 0 ∧ wantStore then some (T, st.next)
    else (unrefOpt T st.next).map fun T => (T, none)
  return ⟨r, T, st.nameBuf, store, parentStore⟩

/-! ## Pathname operations -/

/-- The tree after `fs_init`: the root node, for the inode `rootIno`, its own parent. -/
def fsPathInit (rootIno : Nat) : Option PathTree := do
  let (T, r) := fsPathNodeCreate ⟨[], [], 0⟩ ['/'] rootIno none
  let T ← fsPathNodeRef T r
  some ({ T with root := r }.setNode r { T.node r with parent := some r })

/-- `fs_unlink(path)` for a process whose current directory is `cwd`. `fs_path_ino` and
`fs_path_node_unref` of a NULL node fault. -/
def fsUnlink (S : FsService) (T : PathTree) (cwd : Nat) (path : List Char) :
    Option (Int × PathTree) := do
  let u ← fsPathNodeResolveAt S T cwd path fsLookupFollowLinks true true
  if u.r < 0 then return (u.r, u.tree)
  let some dir := u.parentStore | none
  -- a missing node: the reference to its directory is dropped
  let some pp := u.store | return (-eNoEnt, ← fsPathNodeUnref u.tree dir)
  let r := S.unlink (u.tree.node dir).ino (u.tree.node pp).name (u.tree.node pp).ino
  let T := if r = 0 then fsPathNodeRemove u.tree pp else u.tree
  let T ← fsPathNodeUnref T dir
  let T ← fsPathNodeUnref T pp
  return (r, T)

/-- The end of `fs_rename` from `out1`: drop the references to the old node and its
directory. -/
def fsRenameOut1 (T : PathTree) (oldDir oldNode : Option Nat) (r : Int) :
    Option (Int × PathTree) := do
  let T ← unrefOpt T oldDir
  let T ← unrefOpt T oldNode
  return (r, T)

/-- The middle of `fs_rename` once both paths are resolved: unlink a target that exists, link
the old node under the new name, and unlink the old name. -/
def fsRenameMove (S : FsService) (T : PathTree) (oldDir : Option Nat) (oldNode : Nat)
    (oldName : List Char) (newDir : Nat) (newNode : Option Nat) (newName : List Char) :
    Option (Int × PathTree) := do
  let (T, r) ← match newNode with
    | none => some (T, 0)
    | some nn =>
      let r := S.unlink (T.node newDir).ino newName (T.node nn).ino
      let T := if r = 0 then fsPathNodeRemove T nn else T
      (fsPathNodeUnref T nn).map fun T => (T, r)
  if r ≠ 0 then return (r, T)
  let r := S.link (T.node newDir).ino newName (T.node oldNode).ino
  if r < 0 then return (r, T)
  -- `fs_path_ino(old_dir)` of a NULL `old_dir` faults
  let some od := oldDir | none
  let r := S.unlink (T.node od).ino oldName (T.node oldNode).ino
  return (r, if r = 0 then fsPathNodeRemove T oldNode else T)

/-- `fs_rename(old, new)` for a process whose current directory is `cwd`. -/
def fsRename (S : FsService) (T : PathTree) (cwd : Nat) (old new : List Char) :
    Option (Int × PathTree) := do
  let o ← fsPathNodeResolveAt S T cwd old fsLookupFollowLinks true true
  if o.r < 0 then return (o.r, o.tree)
  -- a missing old node returns at once, with `old_dir` still referenced
  let some oldNode := o.store | return (-eNoEnt, o.tree)
  let n ← fsPathNodeResolveAt S o.tree cwd new fsLookupFollowLinks true true
  if n.r < 0 then return ← fsRenameOut1 n.tree o.parentStore (some oldNode) n.r
  let some newDir := n.parentStore
    | return ← fsRenameOut1 n.tree o.parentStore (some oldNode) (-eNoEnt)
  let (r, T) ← fsRenameMove S n.tree o.parentStore oldNode o.name newDir n.store n.name
  let T ← fsPathNodeUnref T newDir
  fsRenameOut1 T o.parentStore (some oldNode) r

/-! ## A missing old name -/

/-- The service of a file system whose root, inode 1, holds only the directory `a`, inode 2,
which is empty. -/
def dirAService : FsService where
  lookup i name := if i = 1 ∧ name = ['a'] then 2 else 0
  stat _ := (0, false)
  readlink _ := (-eNoEnt, [])
  unlink _ _ _ := -eNoEnt
  link _ _ _ := 0

/-- `fs_rename` of a missing name leaks a reference to its directory. From the tree of
`fs_init` over `dirAService`, `fs_unlink("/a/m")` returns `-ENOENT`, and the node it made for
`a` goes back to the pool, the root again with its two references. `fs_rename("/a/m", "/b")`
returns `-ENOENT` too, but leaves that node with two references and out of the pool, though it
has no children and nobody holds it: it can never be freed. -/
theorem rename_missing_leaks_dir :
    ((fsPathInit 1).bind fun T => fsUnlink dirAService T 0 "/a/m".toList).map
        (fun x => (x.1, x.2.pool, (x.2.node 0).refCount)) = some (-eNoEnt, [1], 2) ∧
    ((fsPathInit 1).bind fun T => fsRename dirAService T 0 "/a/m".toList "/b".toList).map
        (fun x => (x.1, x.2.pool, (x.2.node 1).refCount, (x.2.node 1).children)) =
      some (-eNoEnt, [], 2, []) := by
  decide +kernel

end Argentum.Fs
