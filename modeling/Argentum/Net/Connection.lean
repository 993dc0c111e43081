import Mathlib.Data.List.Basic
import Argentum.Lib.ListCount
import Argentum.Lib.OptionFold

/-!
# Argentum.Net.Connection

Connections and the descriptor tables that refer to them: `connection_alloc`, `connection_ref`
and `connection_unref` (`kernel/ipc/connection.c`), `fd_alloc`, `fd_lookup`, `fd_close`,
`fd_set_flags`, `fd_clone`, `fd_close_on_exec` and `fd_close_all` (`kernel/process/fd.c`), and
`sys_fcntl`'s commands that write a descriptor table (`kernel/syscall.c`).

A Connection is known by its address. `connection_pool` hands out free addresses; which one
`connection_alloc` gets is the caller's choice here. A process's descriptor table is its
`connections[OPEN_MAX]` array, and the tables of all processes are listed by process.

`ref_count` counts the descriptor slots that refer to a connection (`RefInv`): every descriptor
operation is built from two moves, filling an empty slot and taking a reference
(`RefInv.fill`), and clearing a slot and dropping its reference (`RefInv.clear`), and a
reference a system call takes with `fd_lookup` it drops again (`connectionUnref_ref`). When
the count drops from 1, `connection_unref` sends `IPC_MSG_CLOSE` to the connection's IPC
endpoint, which for a `NULL` endpoint returns -1 at once, and puts the Connection back in the
pool. `FdStep` collects the operations, and `refInv_reachable` says that `RefInv` holds in every
state they reach.
-/

namespace Argentum.Net

/-- `OPEN_MAX`. -/
def openMax : Nat := 32

def eBadF : Int := 9
def eInval : Int := 22
def eMFile : Int := 24

/-- `CONNECTION_TYPE_*`; `connection_alloc` leaves the type 0. -/
inductive ConnectionType
  | none
  | file
  | pipe
  | socket
deriving DecidableEq, Repr

/-- The fields of a `struct Connection` that the reference counting reads. -/
structure Connection where
  type : ConnectionType
  refCount : Nat
  /-- The IPC endpoint that `connection_send` sends to; `none` is `NULL`. -/
  endpoint : Option Nat
deriving DecidableEq, Repr

/-- A descriptor slot, `struct ConnectionDesc`: the connection and `FD_CLOEXEC`. -/
structure ConnectionDesc where
  connection : Nat
  cloexec : Bool
deriving DecidableEq, Repr

/-- A process's `connections[OPEN_MAX]`; `none` is a slot whose connection is `NULL`. -/
abbrev FdTable := List (Option ConnectionDesc)

/-- `fd_init`: every slot empty. -/
def fdInit : FdTable := List.replicate openMax none

/-- The Connections out of `connection_pool` and the descriptor tables of the processes. -/
structure ConnState where
  connections : Nat → Option Connection
  tables : List FdTable

namespace ConnState

def table (s : ConnState) (p : Nat) : FdTable := s.tables.getD p []

def slot (s : ConnState) (p n : Nat) : Option ConnectionDesc := (s.table p).getD n none

def setSlot (s : ConnState) (p n : Nat) (d : Option ConnectionDesc) : ConnState :=
  { s with tables := s.tables.set p ((s.table p).set n d) }

def setConnection (s : ConnState) (c : Nat) (x : Option Connection) : ConnState :=
  { s with connections := Function.update s.connections c x }

end ConnState

/-! ## `connection.c` -/

/-- `connection_alloc`: the free Connection `c` that `k_object_pool_get` returned, with type 0,
no reference and no endpoint. -/
def connectionAlloc (s : ConnState) (c : Nat) : ConnState :=
  s.setConnection c (some ⟨.none, 0, none⟩)

/-- `connection_ref`. (Under `RefInv` it is only taken on a live Connection.) -/
def connectionRef (s : ConnState) (c : Nat) : ConnState :=
  match s.connections c with
  | some conn => s.setConnection c (some { conn with refCount := conn.refCount + 1 })
  | none => s

/-- `connection_unref`: `none` where the code panics on a count below 1 or reads a Connection
already back in the pool. The last reference puts it back in the pool. -/
def connectionUnref (s : ConnState) (c : Nat) : Option ConnState :=
  match s.connections c with
  | none => none
  | some conn =>
    if conn.refCount < 1 then none
    else if conn.refCount = 1 then some (s.setConnection c none)
    else some (s.setConnection c (some { conn with refCount := conn.refCount - 1 }))

/-! ## `fd.c` -/

/-- The first empty slot from `start` on. -/
def fdFindFree (t : FdTable) (start : Nat) : Option Nat :=
  (List.range' start (openMax - start)).find? fun i => (t.getD i none).isNone

/-- `fd_alloc(process, f, start)`: the slot it fills, or an error. -/
def fdAlloc (s : ConnState) (p f : Nat) (start : Int) : ConnState × Int :=
  if start < 0 ∨ openMax ≤ start then (s, -eInval)
  else
    match fdFindFree (s.table p) start.toNat with
    | none => (s, -eMFile)
    | some i => (connectionRef (s.setSlot p i (some ⟨f, false⟩)) f, i)

/-- `fd_lookup(process, n)`: the connection of slot `n` with a reference taken, or `NULL`. -/
def fdLookup (s : ConnState) (p : Nat) (n : Int) : Option (ConnState × Nat) :=
  if n < 0 ∨ openMax ≤ n then none
  else
    match s.slot p n.toNat with
    | none => none
    | some d => some (connectionRef s d.connection, d.connection)

/-- `fd_close(process, n)`. -/
def fdClose (s : ConnState) (p : Nat) (n : Int) : Option (ConnState × Int) :=
  if n < 0 ∨ openMax ≤ n then some (s, -eBadF)
  else
    match s.slot p n.toNat with
    | none => some (s, -eBadF)
    | some d => (connectionUnref (s.setSlot p n.toNat none) d.connection).map (·, 0)

/-- `_fd_close` of slot `i`, which holds a connection. -/
def fdCloseSlot (s : ConnState) (p i : Nat) : Option ConnState :=
  match s.slot p i with
  | none => some s
  | some d => connectionUnref (s.setSlot p i none) d.connection

/-- `fd_close_all(process)`. -/
def fdCloseAll (s : ConnState) (p : Nat) : Option ConnState :=
  (List.range openMax).foldlM (fun s i => fdCloseSlot s p i) s

/-- `fd_close_on_exec(process)`: the slots with `FD_CLOEXEC`. -/
def fdCloseOnExec (s : ConnState) (p : Nat) : Option ConnState :=
  (List.range openMax).foldlM
    (fun s i => if (s.slot p i).any (·.cloexec) then fdCloseSlot s p i else some s) s

/-- One slot of `fd_clone(parent, child)`: the child's slot gets the parent's, and a reference. -/
def fdCloneSlot (s : ConnState) (parent child i : Nat) : ConnState :=
  match s.slot parent i with
  | none => s
  | some d => connectionRef (s.setSlot child i (some d)) d.connection

/-- `fd_clone(parent, child)`. -/
def fdClone (s : ConnState) (parent child : Nat) : ConnState :=
  (List.range openMax).foldl (fun s i => fdCloneSlot s parent child i) s

/-- `fd_set_flags(process, n, flags)`. -/
def fdSetFlags (s : ConnState) (p : Nat) (n flags : Int) : ConnState × Int :=
  -- `flags & ~FD_CLOEXEC` is zero for 0 and 1 only
  if flags ≠ 0 ∧ flags ≠ 1 then (s, -eInval)
  else if n < 0 ∨ openMax ≤ n then (s, -eBadF)
  else
    match s.slot p n.toNat with
    | none => (s, -eBadF)
    | some d => (s.setSlot p n.toNat (some { d with cloexec := decide (flags = 1) }), 0)

/-- The commands of `sys_fcntl` that write a descriptor table. -/
inductive FcntlCmd
  | dupFd
  | setFd
  | dupFdCloexec
deriving DecidableEq, Repr

/-- The `switch (cmd)` of `sys_fcntl`, on the connection `file` of descriptor `fd`. -/
def fcntlSwitch (s : ConnState) (p : Nat) (fd : Int) (file : Nat) (cmd : FcntlCmd) (arg : Int) :
    ConnState × Int :=
  match cmd with
  | .dupFd => fdAlloc s p file arg
  | .setFd => fdSetFlags s p fd arg
  | .dupFdCloexec =>
    let a := fdAlloc s p file arg
    if 0 ≤ a.2 then ((fdSetFlags a.1 p a.2 1).1, a.2) else a

/-- `sys_fcntl(fd, cmd, arg)`: `fd_lookup`, the command, and `connection_unref` of the lookup's
reference. -/
def sysFcntl (s : ConnState) (p : Nat) (fd : Int) (cmd : FcntlCmd) (arg : Int) :
    Option (ConnState × Int) :=
  match fdLookup s p fd with
  | none => some (s, -eBadF)
  | some (s₁, file) =>
    let a := fcntlSwitch s₁ p fd file cmd arg
    (connectionUnref a.1 file).map (·, a.2)

/-! ## References and slots -/

/-- The slots of a table that refer to `c`. -/
def refs (t : FdTable) (c : Nat) : Nat := t.countP fun d => d.any (·.connection == c)

/-- The slots of all tables that refer to `c`. -/
def ConnState.refsTo (s : ConnState) (c : Nat) : Nat := (s.tables.map (refs · c)).sum

/-- Every table has `OPEN_MAX` slots. -/
def TablesWF (s : ConnState) : Prop := ∀ t ∈ s.tables, t.length = openMax

/-- A live Connection's count is the number of slots that refer to it, and no slot refers to a
Connection back in the pool. -/
def RefInv (s : ConnState) : Prop :=
  ∀ c, match s.connections c with
    | some conn => conn.refCount = s.refsTo c
    | none => s.refsTo c = 0

/-! ## Slots -/

namespace ConnState

@[simp] theorem connections_setSlot (s : ConnState) (p n : Nat) (d : Option ConnectionDesc) :
    (s.setSlot p n d).connections = s.connections := rfl

@[simp] theorem tables_setConnection (s : ConnState) (c : Nat) (x : Option Connection) :
    (s.setConnection c x).tables = s.tables := rfl

@[simp] theorem connections_setConnection (s : ConnState) (c : Nat) (x : Option Connection) :
    (s.setConnection c x).connections = Function.update s.connections c x := rfl

@[simp] theorem slot_setConnection (s : ConnState) (c : Nat) (x : Option Connection) :
    (s.setConnection c x).slot = s.slot := rfl

@[simp] theorem refsTo_setConnection (s : ConnState) (c : Nat) (x : Option Connection) :
    (s.setConnection c x).refsTo = s.refsTo := rfl

theorem table_eq_getElem {s : ConnState} {p : Nat} (hp : p < s.tables.length) :
    s.table p = s.tables[p] := by
  simp [table, List.getD_eq_getElem?_getD, hp]

theorem length_setSlot (s : ConnState) (p n : Nat) (d : Option ConnectionDesc) :
    (s.setSlot p n d).tables.length = s.tables.length := by
  simp [setSlot]

theorem slot_setSlot {s : ConnState} {p n : Nat} (hp : p < s.tables.length)
    (d : Option ConnectionDesc) (q m : Nat) :
    (s.setSlot p n d).slot q m = if q = p ∧ m = n ∧ n < (s.table p).length then d
      else s.slot q m := by
  simp only [slot, table, setSlot, List.getD_eq_getElem?_getD, List.getElem?_set]
  by_cases hq : q = p
  · subst hq
    simp only [hp, if_true, Option.getD_some, List.getElem?_set, true_and]
    by_cases hm : m = n
    · subst hm
      by_cases hn : m < (s.tables[q]?.getD []).length <;> simp [hn]
    · simp [hm, Ne.symm hm]
  · simp [hq, Ne.symm hq]

/-- Writing one slot changes the count of `c` by that slot alone. -/
theorem refsTo_setSlot {s : ConnState} {p n : Nat} (hp : p < s.tables.length)
    (hn : n < (s.table p).length) (d : Option ConnectionDesc) (c : Nat) :
    (s.setSlot p n d).refsTo c + (if (s.slot p n).any (·.connection == c) then 1 else 0) =
      s.refsTo c + (if d.any (·.connection == c) then 1 else 0) := by
  have hsum := ListCount.sum_map_set_add (f := (refs · c)) hp ((s.table p).set n d)
  have hcount := ListCount.countP_set_add (p := fun d => d.any (·.connection == c)) hn d
  have hslot : s.slot p n = (s.table p)[n] := by
    simp [slot, List.getD_eq_getElem?_getD, hn]
  rw [← table_eq_getElem hp] at hsum
  simp only [refsTo, setSlot, refs] at hsum ⊢
  rw [hslot]
  omega

/-- A slot that holds a connection is inside its table. -/
theorem slot_some_lt {s : ConnState} {p n : Nat} {d : ConnectionDesc} (h : s.slot p n = some d) :
    p < s.tables.length ∧ n < (s.table p).length := by
  have hn : n < (s.table p).length := by
    by_contra hn
    simp [slot, List.getD_eq_getElem?_getD, List.getElem?_eq_none (Nat.le_of_not_lt hn)] at h
  refine ⟨?_, hn⟩
  by_contra hp
  simp [table, List.getD_eq_getElem?_getD, List.getElem?_eq_none (Nat.le_of_not_lt hp)] at hn

/-- Writing a slot with a descriptor of the same connection leaves every count alone. -/
theorem refsTo_setSlot_same {s : ConnState} {p n : Nat} {d : ConnectionDesc}
    (hslot : s.slot p n = some d) (d' : ConnectionDesc) (hc : d'.connection = d.connection) :
    (s.setSlot p n (some d')).refsTo = s.refsTo := by
  obtain ⟨hp, hn⟩ := slot_some_lt hslot
  funext c
  have h := refsTo_setSlot hp hn (some d') c
  rw [hslot] at h
  simp only [Option.any_some, hc] at h
  omega

@[simp] theorem setConnection_setConnection (s : ConnState) (c : Nat) (x y : Option Connection) :
    (s.setConnection c x).setConnection c y = s.setConnection c y := by
  simp [setConnection]

theorem slot_eq_of_tables_eq {s s' : ConnState} (h : s'.tables = s.tables) : s'.slot = s.slot := by
  funext p n
  simp only [slot, table, h]

end ConnState

/-! ## The two moves -/

@[simp] theorem tables_connectionRef (s : ConnState) (c : Nat) :
    (connectionRef s c).tables = s.tables := by
  unfold connectionRef
  split <;> rfl

@[simp] theorem slot_connectionRef (s : ConnState) (c : Nat) :
    (connectionRef s c).slot = s.slot := by
  unfold connectionRef
  split <;> rfl

@[simp] theorem refsTo_connectionRef (s : ConnState) (c : Nat) :
    (connectionRef s c).refsTo = s.refsTo := by
  unfold connectionRef
  split <;> rfl

theorem tables_of_connectionUnref {s s' : ConnState} {c : Nat} (h : connectionUnref s c = some s') :
    s'.tables = s.tables := by
  unfold connectionUnref at h
  split at h
  · cases h
  · split at h
    · cases h
    · split at h <;> (cases h; rfl)

/-- A reference taken and dropped again leaves the state as it was. -/
theorem connectionUnref_ref {s : ConnState} {c : Nat} {conn : Connection}
    (hc : s.connections c = some conn) (h1 : 1 ≤ conn.refCount) :
    connectionUnref (connectionRef s c) c = some s := by
  have href : (connectionRef s c).connections c = some { conn with refCount := conn.refCount + 1 } := by
    simp [connectionRef, hc]
  have hback : (connectionRef s c).setConnection c (some conn) = s := by
    simp only [connectionRef, hc, ConnState.setConnection, Function.update_idem]
    rw [Function.update_eq_self_iff.mpr hc.symm]
  simp only [connectionUnref, href]
  rw [if_neg (by omega), if_neg (by omega)]
  simp only [Nat.add_sub_cancel]
  rw [hback]

/-- A reference taken on a Connection that had none is the last: dropping it puts the
Connection back in the pool. -/
theorem connectionUnref_ref_zero {s : ConnState} {c : Nat} {conn : Connection}
    (hc : s.connections c = some conn) (h0 : conn.refCount = 0) :
    connectionUnref (connectionRef s c) c = some (s.setConnection c none) := by
  simp [connectionUnref, connectionRef, hc, h0]

/-- A Connection that no slot refers to goes back to the pool, keeping `RefInv`. -/
theorem RefInv.release {s : ConnState} (hinv : RefInv s) {c : Nat} {conn : Connection}
    (hc : s.connections c = some conn) (h0 : conn.refCount = 0) :
    RefInv (s.setConnection c none) := by
  intro c'
  have hinvc := hinv c'
  simp only [ConnState.connections_setConnection, ConnState.refsTo_setConnection]
  by_cases hc' : c' = c
  · subst hc'
    rw [hc] at hinvc
    simp only [Function.update_self]
    omega
  · rw [Function.update_of_ne hc']
    exact hinvc

/-- A Connection out of the pool with no reference keeps `RefInv`. -/
theorem RefInv.setNew {s : ConnState} (hinv : RefInv s) {c : Nat} (hfree : s.connections c = none)
    (ty : ConnectionType) (endpoint : Option Nat) :
    RefInv (s.setConnection c (some ⟨ty, 0, endpoint⟩)) := by
  intro c'
  have hinvc := hinv c'
  simp only [ConnState.connections_setConnection, ConnState.refsTo_setConnection]
  by_cases hc' : c' = c
  · subst hc'
    rw [hfree] at hinvc
    simp only [Function.update_self]
    omega
  · rw [Function.update_of_ne hc']
    exact hinvc

/-- Under `RefInv`, a slot's connection is live. -/
theorem RefInv.live {s : ConnState} (hinv : RefInv s) {p n : Nat} {d : ConnectionDesc}
    (hp : p < s.tables.length) (hn : n < (s.table p).length) (hslot : s.slot p n = some d) :
    ∃ conn, s.connections d.connection = some conn ∧ 1 ≤ conn.refCount := by
  have hcount := ConnState.refsTo_setSlot hp hn none d.connection
  rw [hslot] at hcount
  simp only [Option.any_some, beq_self_eq_true, if_true, Option.any_none, Bool.false_eq_true,
    if_false] at hcount
  have hinvc := hinv d.connection
  cases hconn : s.connections d.connection with
  | none =>
    rw [hconn] at hinvc
    omega
  | some conn =>
    rw [hconn] at hinvc
    exact ⟨conn, rfl, by omega⟩

/-- Filling an empty slot with a live connection and taking a reference keeps `RefInv`. -/
theorem RefInv.fill {s : ConnState} (hinv : RefInv s) {p n f : Nat} {cl : Bool}
    (hp : p < s.tables.length) (hn : n < (s.table p).length) (hempty : s.slot p n = none)
    (hlive : s.connections f ≠ none) :
    RefInv (connectionRef (s.setSlot p n (some ⟨f, cl⟩)) f) := by
  obtain ⟨conn, hconn⟩ := Option.ne_none_iff_exists'.mp hlive
  intro c
  have hcount := ConnState.refsTo_setSlot hp hn (some ⟨f, cl⟩) c
  rw [hempty] at hcount
  have hinvc := hinv c
  simp only [connectionRef, ConnState.connections_setSlot, hconn, ConnState.connections_setConnection,
    ConnState.refsTo_setConnection]
  by_cases hcf : c = f
  · -- the filled slot's connection: one more slot, one more reference
    subst hcf
    rw [hconn] at hinvc
    simp only [Function.update_self, Option.any_some, beq_self_eq_true, if_true, Option.any_none,
      Bool.false_eq_true, if_false] at hcount ⊢
    omega
  · -- any other connection: same slots, same count
    have hne : (f == c) = false := beq_false_of_ne (Ne.symm hcf)
    simp only [Function.update_of_ne hcf, Option.any_some, hne, Bool.false_eq_true, if_false,
      Option.any_none] at hcount ⊢
    cases hc : s.connections c with
    | none => rw [hc] at hinvc; simp only; omega
    | some conn' => rw [hc] at hinvc; simp only; omega

/-- Clearing a slot and dropping its reference keeps `RefInv`. -/
theorem RefInv.clear {s s' : ConnState} (hinv : RefInv s) {p n : Nat} {d : ConnectionDesc}
    (hp : p < s.tables.length) (hn : n < (s.table p).length) (hslot : s.slot p n = some d)
    (h : connectionUnref (s.setSlot p n none) d.connection = some s') : RefInv s' := by
  obtain ⟨conn, hconn, h1⟩ := hinv.live hp hn hslot
  have hinvd := hinv d.connection
  rw [hconn] at hinvd
  intro c
  have hcount := ConnState.refsTo_setSlot hp hn none c
  rw [hslot] at hcount
  have hinvc := hinv c
  simp only [connectionUnref, ConnState.connections_setSlot, hconn] at h
  rw [if_neg (by omega)] at h
  by_cases hcd : c = d.connection
  · -- the cleared slot's connection: one slot and one reference fewer
    subst hcd
    simp only [Option.any_some, beq_self_eq_true, if_true, Option.any_none, Bool.false_eq_true,
      if_false] at hcount
    split at h
    · cases h
      simp only [ConnState.connections_setConnection, Function.update_self,
        ConnState.refsTo_setConnection]
      omega
    · cases h
      simp only [ConnState.connections_setConnection, Function.update_self,
        ConnState.refsTo_setConnection]
      omega
  · have hne : (d.connection == c) = false := beq_false_of_ne (Ne.symm hcd)
    simp only [Option.any_some, hne, Bool.false_eq_true, if_false, Option.any_none] at hcount
    split at h <;>
    · cases h
      simp only [ConnState.connections_setConnection, Function.update_of_ne hcd,
        ConnState.refsTo_setConnection, ConnState.connections_setSlot]
      cases hc : s.connections c with
      | none => rw [hc] at hinvc; simp only; omega
      | some conn' => rw [hc] at hinvc; simp only; omega

/-! ## Descriptor operations keep `RefInv` -/

theorem TablesWF.setSlot {s : ConnState} (hwf : TablesWF s) {p n : Nat}
    (d : Option ConnectionDesc) : TablesWF (s.setSlot p n d) := by
  intro t ht
  simp only [ConnState.setSlot] at ht
  by_cases hp : p < s.tables.length
  · rcases List.mem_or_eq_of_mem_set ht with ht | rfl
    · exact hwf t ht
    · rw [List.length_set, ConnState.table_eq_getElem hp]
      exact hwf _ (List.getElem_mem hp)
  · -- writing past the last table leaves the tables as they are
    rw [List.set_eq_of_length_le (by omega)] at ht
    exact hwf t ht

theorem TablesWF.of_tables_eq {s s' : ConnState} (hwf : TablesWF s) (h : s'.tables = s.tables) :
    TablesWF s' := by
  intro t ht
  rw [h] at ht
  exact hwf t ht

theorem slot_lt {s : ConnState} (hwf : TablesWF s) {p : Nat} (hp : p < s.tables.length) {n : Nat}
    (hn : n < openMax) : n < (s.table p).length := by
  rw [ConnState.table_eq_getElem hp, hwf _ (List.getElem_mem hp)]
  exact hn

theorem connectionRef_setSlot (s : ConnState) (c p n : Nat) (d : Option ConnectionDesc) :
    (connectionRef s c).setSlot p n d = connectionRef (s.setSlot p n d) c := by
  unfold connectionRef
  rw [ConnState.connections_setSlot]
  cases s.connections c <;> rfl

/-- What one `_fd_close` keeps. -/
theorem RefInv.closeSlot {s s' : ConnState} (hinv : RefInv s) (hwf : TablesWF s) {p i : Nat}
    (hp : p < s.tables.length) (hi : i < openMax) (h : fdCloseSlot s p i = some s') :
    RefInv s' ∧ TablesWF s' ∧ s'.tables.length = s.tables.length := by
  unfold fdCloseSlot at h
  split at h
  · cases h
    exact ⟨hinv, hwf, rfl⟩
  · rename_i d hslot
    refine ⟨hinv.clear hp (slot_lt hwf hp hi) hslot h,
      (hwf.setSlot none).of_tables_eq (tables_of_connectionUnref h), ?_⟩
    rw [tables_of_connectionUnref h, ConnState.length_setSlot]

/-- `fd_close_all` keeps `RefInv`. -/
theorem RefInv.closeAll {s s' : ConnState} (hinv : RefInv s) (hwf : TablesWF s) {p : Nat}
    (hp : p < s.tables.length) (h : fdCloseAll s p = some s') :
    RefInv s' ∧ TablesWF s' ∧ s'.tables.length = s.tables.length := by
  -- each pass closes one slot of the same process
  refine OptionFold.foldlM_inv (P := fun t => RefInv t ∧ TablesWF t ∧
    t.tables.length = s.tables.length) ?_ ⟨hinv, hwf, rfl⟩ h
  intro t i t' hi ⟨htinv, htwf, htlen⟩ hstep
  obtain ⟨h1, h2, h3⟩ := htinv.closeSlot htwf (by omega) (List.mem_range.mp hi) hstep
  exact ⟨h1, h2, by omega⟩

/-- `fd_close_on_exec` keeps `RefInv`. -/
theorem RefInv.closeOnExec {s s' : ConnState} (hinv : RefInv s) (hwf : TablesWF s) {p : Nat}
    (hp : p < s.tables.length) (h : fdCloseOnExec s p = some s') :
    RefInv s' ∧ TablesWF s' ∧ s'.tables.length = s.tables.length := by
  refine OptionFold.foldlM_inv (P := fun t => RefInv t ∧ TablesWF t ∧
    t.tables.length = s.tables.length) ?_ ⟨hinv, hwf, rfl⟩ h
  intro t i t' hi ⟨htinv, htwf, htlen⟩ hstep
  split at hstep
  · obtain ⟨h1, h2, h3⟩ := htinv.closeSlot htwf (by omega) (List.mem_range.mp hi) hstep
    exact ⟨h1, h2, by omega⟩
  · cases hstep
    exact ⟨htinv, htwf, htlen⟩

/-- `fd_close` keeps `RefInv`. -/
theorem RefInv.closeFd {s s' : ConnState} (hinv : RefInv s) (hwf : TablesWF s) {p : Nat}
    {n r : Int} (hp : p < s.tables.length) (h : fdClose s p n = some (s', r)) :
    RefInv s' ∧ TablesWF s' ∧ s'.tables.length = s.tables.length := by
  unfold fdClose at h
  split at h
  · cases h
    exact ⟨hinv, hwf, rfl⟩
  · split at h
    · cases h
      exact ⟨hinv, hwf, rfl⟩
    · rename_i hn d hslot
      obtain ⟨s₁, h₁, hs⟩ := Option.map_eq_some_iff.mp h
      cases hs
      refine ⟨hinv.clear hp (slot_lt hwf hp (by omega)) hslot h₁,
        (hwf.setSlot none).of_tables_eq (tables_of_connectionUnref h₁), ?_⟩
      rw [tables_of_connectionUnref h₁, ConnState.length_setSlot]

theorem fdFindFree_spec {t : FdTable} {start i : Nat} (h : fdFindFree t start = some i) :
    i < openMax ∧ t.getD i none = none := by
  have hfree := List.find?_some h
  obtain ⟨k, hk, rfl⟩ := List.mem_range'.mp (List.mem_of_find?_eq_some h)
  refine ⟨by omega, ?_⟩
  simpa using hfree

theorem connections_connectionRef_self {s : ConnState} {c : Nat} {conn : Connection}
    (hc : s.connections c = some conn) :
    (connectionRef s c).connections c = some { conn with refCount := conn.refCount + 1 } := by
  simp [connectionRef, hc]

/-- `fd_alloc` of a live connection keeps `RefInv`. -/
theorem RefInv.alloc {s s' : ConnState} (hinv : RefInv s) (hwf : TablesWF s) {p f : Nat}
    {start r : Int} (hp : p < s.tables.length) (hlive : s.connections f ≠ none)
    (h : fdAlloc s p f start = (s', r)) :
    RefInv s' ∧ TablesWF s' ∧ s'.tables.length = s.tables.length := by
  unfold fdAlloc at h
  split at h
  · cases h
    exact ⟨hinv, hwf, rfl⟩
  · split at h
    · cases h
      exact ⟨hinv, hwf, rfl⟩
    · rename_i i hfind
      cases h
      obtain ⟨hi, hempty⟩ := fdFindFree_spec hfind
      refine ⟨hinv.fill hp (slot_lt hwf hp hi) hempty hlive,
        (hwf.setSlot _).of_tables_eq (tables_connectionRef _ _), ?_⟩
      rw [tables_connectionRef, ConnState.length_setSlot]

/-- `fd_alloc` after a reference was taken: the reference taken, and the allocation. -/
theorem fdAlloc_connectionRef (s : ConnState) (p f : Nat) (start : Int) :
    fdAlloc (connectionRef s f) p f start =
      (connectionRef (fdAlloc s p f start).1 f, (fdAlloc s p f start).2) := by
  have htable : (connectionRef s f).table p = s.table p := by
    simp [ConnState.table]
  unfold fdAlloc
  rw [htable]
  split
  · rfl
  · split
    · rfl
    · rw [connectionRef_setSlot]

/-- `fd_alloc` fills an empty slot: a slot that holds a descriptor keeps it. -/
theorem fdAlloc_slot_of_some {s : ConnState} {p n f : Nat} {start : Int} {d : ConnectionDesc}
    (hslot : s.slot p n = some d) : (fdAlloc s p f start).1.slot p n = some d := by
  unfold fdAlloc
  split
  · exact hslot
  · split
    · exact hslot
    · rename_i i hfind
      obtain ⟨-, hempty⟩ := fdFindFree_spec hfind
      have hni : n ≠ i := by
        rintro rfl
        have hnone : s.slot p n = none := hempty
        rw [hnone] at hslot
        cases hslot
      rw [slot_connectionRef, ConnState.slot_setSlot (ConnState.slot_some_lt hslot).1]
      simp [hni, hslot]

/-- A reference taken and kept: the count is one above the slots. -/
theorem not_refInv_connectionRef {s : ConnState} {f : Nat} {conn : Connection} (hinv : RefInv s)
    (hc : s.connections f = some conn) : ¬ RefInv (connectionRef s f) := by
  intro hinv'
  have h1 := hinv f
  have h2 := hinv' f
  rw [hc] at h1
  rw [connections_connectionRef_self hc, refsTo_connectionRef] at h2
  dsimp only at h1 h2
  omega

/-- `fd_alloc` keeps a live connection live, with at least its count. -/
theorem fdAlloc_connections {s : ConnState} {p f : Nat} {start : Int} {conn : Connection}
    (hc : s.connections f = some conn) :
    ∃ conn', (fdAlloc s p f start).1.connections f = some conn' ∧
      conn.refCount ≤ conn'.refCount := by
  unfold fdAlloc
  split
  · exact ⟨conn, hc, Nat.le_refl _⟩
  · split
    · exact ⟨conn, hc, Nat.le_refl _⟩
    · rename_i i _
      have hc' : (s.setSlot p i (some ⟨f, false⟩)).connections f = some conn := hc
      exact ⟨_, connections_connectionRef_self hc', by simp⟩

/-- What `fd_alloc` can do: fail and leave the state, or fill the first free slot from
`start` on and take a reference. -/
theorem fdAlloc_cases {s s' : ConnState} {p f : Nat} {start r : Int}
    (h : fdAlloc s p f start = (s', r)) :
    (s' = s ∧ r < 0) ∨
      ∃ j, 0 ≤ start ∧ fdFindFree (s.table p) start.toNat = some j ∧
        s' = connectionRef (s.setSlot p j (some ⟨f, false⟩)) f ∧ r = j := by
  unfold fdAlloc at h
  split at h
  · cases h
    exact .inl ⟨rfl, by simp [eInval]⟩
  · rename_i hstart
    split at h
    · cases h
      exact .inl ⟨rfl, by simp [eMFile]⟩
    · rename_i j hfind
      cases h
      exact .inr ⟨j, by omega, hfind, rfl, rfl⟩

/-- A reference the caller holds, handed over to a new descriptor: `fd_alloc` takes the
descriptor's reference and `connection_unref` drops the caller's. `RefInv` holds again after,
whether `fd_alloc` succeeded or not. -/
theorem RefInv.handOff {s s' : ConnState} (hinv : RefInv s) (hwf : TablesWF s) {p f : Nat}
    {start : Int} {conn : Connection} (hp : p < s.tables.length)
    (hc : s.connections f = some conn)
    (h : connectionUnref (fdAlloc (connectionRef s f) p f start).1 f = some s') :
    RefInv s' ∧ TablesWF s' ∧ s'.tables.length = s.tables.length := by
  have halloc : fdAlloc s p f start = ((fdAlloc s p f start).1, (fdAlloc s p f start).2) := rfl
  obtain ⟨h1, h2, h3⟩ := hinv.alloc hwf hp (by simp [hc]) halloc
  obtain ⟨conn', hconn', -⟩ := fdAlloc_connections (p := p) hc
  rw [fdAlloc_connectionRef] at h
  by_cases hpos : 1 ≤ conn'.refCount
  · -- the descriptor holds a reference: the caller's is not the last
    rw [connectionUnref_ref hconn' hpos] at h
    cases h
    exact ⟨h1, h2, h3⟩
  · -- `fd_alloc` failed: the caller's reference was the only one
    rw [connectionUnref_ref_zero hconn' (by omega)] at h
    cases h
    exact ⟨h1.release hconn' (by omega), h2.of_tables_eq rfl, h3⟩

/-- `fd_close` of the last descriptor of a Connection puts it back in the pool. -/
theorem fdClose_last {s : ConnState} {p : Nat} {n : Int} {d : ConnectionDesc}
    {conn : Connection} (hn : 0 ≤ n) (hmax : n < openMax) (hslot : s.slot p n.toNat = some d)
    (hc : s.connections d.connection = some conn) (h1 : conn.refCount = 1) :
    fdClose s p n = some ((s.setSlot p n.toNat none).setConnection d.connection none, 0) := by
  have hrange : ¬(n < 0 ∨ openMax ≤ n) := by omega
  simp [fdClose, hrange, hslot, connectionUnref, hc, h1]

/-- What a successful `fd_lookup` returns: a reference taken on the slot's connection. -/
theorem fdLookup_spec {s s₁ : ConnState} {p f : Nat} {n : Int}
    (h : fdLookup s p n = some (s₁, f)) :
    s₁ = connectionRef s f ∧ n.toNat < openMax ∧
      ∃ d, s.slot p n.toNat = some d ∧ d.connection = f := by
  unfold fdLookup at h
  split at h
  · cases h
  · split at h
    · cases h
    · rename_i hn d hslot
      cases h
      exact ⟨rfl, by omega, d, hslot, rfl⟩

@[simp] theorem connections_fdSetFlags (s : ConnState) (p : Nat) (n flags : Int) :
    (fdSetFlags s p n flags).1.connections = s.connections := by
  unfold fdSetFlags
  split
  · rfl
  · split
    · rfl
    · split <;> rfl

theorem fdSetFlags_connectionRef (s : ConnState) (c p : Nat) (n flags : Int) :
    fdSetFlags (connectionRef s c) p n flags =
      (connectionRef (fdSetFlags s p n flags).1 c, (fdSetFlags s p n flags).2) := by
  unfold fdSetFlags
  rw [slot_connectionRef]
  split
  · rfl
  · split
    · rfl
    · split
      · rfl
      · rw [connectionRef_setSlot]

/-- `fd_set_flags` writes a slot's `FD_CLOEXEC` only. -/
theorem RefInv.setFlags {s : ConnState} (hinv : RefInv s) (hwf : TablesWF s) (p : Nat)
    (n flags : Int) :
    RefInv (fdSetFlags s p n flags).1 ∧ TablesWF (fdSetFlags s p n flags).1 ∧
      (fdSetFlags s p n flags).1.tables.length = s.tables.length := by
  unfold fdSetFlags
  split
  · exact ⟨hinv, hwf, rfl⟩
  · split
    · exact ⟨hinv, hwf, rfl⟩
    · split
      · exact ⟨hinv, hwf, rfl⟩
      · rename_i d hslot
        refine ⟨?_, hwf.setSlot _, ConnState.length_setSlot _ _ _ _⟩
        intro c
        rw [ConnState.connections_setSlot,
          ConnState.refsTo_setSlot_same hslot { d with cloexec := decide (flags = 1) } rfl]
        exact hinv c

theorem fcntlSwitch_connectionRef (s : ConnState) (p f : Nat) (fd : Int) (cmd : FcntlCmd)
    (arg : Int) :
    fcntlSwitch (connectionRef s f) p fd f cmd arg =
      (connectionRef (fcntlSwitch s p fd f cmd arg).1 f, (fcntlSwitch s p fd f cmd arg).2) := by
  cases cmd with
  | dupFd => exact fdAlloc_connectionRef s p f arg
  | setFd => exact fdSetFlags_connectionRef s f p fd arg
  | dupFdCloexec =>
    simp only [fcntlSwitch, fdAlloc_connectionRef]
    split
    · rw [fdSetFlags_connectionRef]
    · rfl

/-- The command keeps a live connection live, with at least its count. -/
theorem fcntlSwitch_connections {s : ConnState} {p f : Nat} {fd arg : Int} {cmd : FcntlCmd}
    {conn : Connection} (hc : s.connections f = some conn) :
    ∃ conn', (fcntlSwitch s p fd f cmd arg).1.connections f = some conn' ∧
      conn.refCount ≤ conn'.refCount := by
  have halloc : ∃ conn', (fdAlloc s p f arg).1.connections f = some conn' ∧
      conn.refCount ≤ conn'.refCount := fdAlloc_connections hc
  cases cmd with
  | dupFd => exact halloc
  | setFd => exact ⟨conn, by simp [fcntlSwitch, hc], Nat.le_refl _⟩
  | dupFdCloexec =>
    obtain ⟨conn', h', hle⟩ := halloc
    simp only [fcntlSwitch]
    split
    · exact ⟨conn', by rw [connections_fdSetFlags]; exact h', hle⟩
    · exact ⟨conn', h', hle⟩

/-- A command of `sys_fcntl` on a live connection keeps `RefInv`. -/
theorem RefInv.command {s : ConnState} (hinv : RefInv s) (hwf : TablesWF s) {p f : Nat}
    {fd arg : Int} {cmd : FcntlCmd} (hp : p < s.tables.length) (hlive : s.connections f ≠ none) :
    RefInv (fcntlSwitch s p fd f cmd arg).1 ∧ TablesWF (fcntlSwitch s p fd f cmd arg).1 ∧
      (fcntlSwitch s p fd f cmd arg).1.tables.length = s.tables.length := by
  have halloc : fdAlloc s p f arg = ((fdAlloc s p f arg).1, (fdAlloc s p f arg).2) := rfl
  cases cmd with
  | dupFd => exact hinv.alloc hwf hp hlive halloc
  | setFd => exact hinv.setFlags hwf p fd arg
  | dupFdCloexec =>
    obtain ⟨h1, h2, h3⟩ := hinv.alloc hwf hp hlive halloc
    simp only [fcntlSwitch]
    split
    · obtain ⟨k1, k2, k3⟩ := h1.setFlags h2 p (fdAlloc s p f arg).2 1
      exact ⟨k1, k2, k3.trans h3⟩
    · exact ⟨h1, h2, h3⟩

/-- `sys_fcntl` keeps `RefInv`: the reference of its `fd_lookup` is the one it drops. -/
theorem RefInv.fcntl {s s' : ConnState} (hinv : RefInv s) (hwf : TablesWF s) {p : Nat}
    {fd arg r : Int} {cmd : FcntlCmd} (hp : p < s.tables.length)
    (h : sysFcntl s p fd cmd arg = some (s', r)) :
    RefInv s' ∧ TablesWF s' ∧ s'.tables.length = s.tables.length := by
  unfold sysFcntl at h
  split at h
  · cases h
    exact ⟨hinv, hwf, rfl⟩
  · rename_i s₁ f hlookup
    obtain ⟨rfl, hn, d, hslot, rfl⟩ := fdLookup_spec hlookup
    obtain ⟨conn, hconn, h1⟩ := hinv.live hp (slot_lt hwf hp hn) hslot
    have hcmd : ∃ conn', (fcntlSwitch s p fd d.connection cmd arg).1.connections d.connection =
        some conn' ∧ conn.refCount ≤ conn'.refCount := fcntlSwitch_connections hconn
    obtain ⟨conn', hconn', hle⟩ := hcmd
    rw [fcntlSwitch_connectionRef] at h
    dsimp only at h
    rw [connectionUnref_ref hconn' (by omega)] at h
    cases h
    exact hinv.command hwf hp (by simp [hconn])

/-- `fd_clone` over slots of the child that are still empty keeps `RefInv`, and leaves the
parent's slots alone. -/
theorem RefInv.cloneSlots {parent child : Nat} (hne : parent ≠ child) :
    ∀ (l : List Nat) (s : ConnState), l.Nodup → (∀ j ∈ l, j < openMax) → RefInv s →
      TablesWF s → parent < s.tables.length → child < s.tables.length →
      (∀ j ∈ l, s.slot child j = none) →
      RefInv (l.foldl (fun s i => fdCloneSlot s parent child i) s) ∧
        TablesWF (l.foldl (fun s i => fdCloneSlot s parent child i) s) ∧
        (l.foldl (fun s i => fdCloneSlot s parent child i) s).tables.length = s.tables.length
  | [], s, _, _, hinv, hwf, _, _, _ => ⟨hinv, hwf, rfl⟩
  | i :: l, s, hnd, hl, hinv, hwf, hp, hc, hempty => by
    have hi : i < openMax := hl i List.mem_cons_self
    obtain ⟨hnotin, hnd'⟩ := List.nodup_cons.mp hnd
    -- one slot copied: the invariant, the shape and the child's later slots are kept
    have hstep : RefInv (fdCloneSlot s parent child i) ∧ TablesWF (fdCloneSlot s parent child i) ∧
        (fdCloneSlot s parent child i).tables.length = s.tables.length ∧
        ∀ j ∈ l, (fdCloneSlot s parent child i).slot child j = none := by
      unfold fdCloneSlot
      split
      · exact ⟨hinv, hwf, rfl, fun j hj => hempty j (List.mem_cons_of_mem i hj)⟩
      · rename_i d hslot
        obtain ⟨conn, hconn, -⟩ := hinv.live hp (slot_lt hwf hp (hl i List.mem_cons_self)) hslot
        refine ⟨hinv.fill hc (slot_lt hwf hc hi) (hempty i List.mem_cons_self) (by simp [hconn]),
          (hwf.setSlot _).of_tables_eq (tables_connectionRef _ _), ?_, ?_⟩
        · rw [tables_connectionRef, ConnState.length_setSlot]
        · intro j hj
          have hji : j ≠ i := fun h => hnotin (h ▸ hj)
          rw [slot_connectionRef, ConnState.slot_setSlot hc]
          simp only [hji, false_and, and_false, if_false]
          exact hempty j (List.mem_cons_of_mem i hj)
    obtain ⟨h1, h2, h3, h4⟩ := hstep
    have ih := RefInv.cloneSlots hne l _ hnd' (fun j hj => hl j (List.mem_cons_of_mem i hj)) h1 h2
      (by omega) (by omega) h4
    rw [List.foldl_cons]
    exact ⟨ih.1, ih.2.1, by omega⟩

theorem refs_fdInit (c : Nat) : refs fdInit c = 0 := by
  simp [refs, fdInit, List.countP_replicate]

/-- A new process with `fd_init`'s table: empty, so it adds no reference. -/
theorem RefInv.create {s : ConnState} (hinv : RefInv s) (hwf : TablesWF s) :
    RefInv { s with tables := s.tables ++ [fdInit] } ∧
      TablesWF { s with tables := s.tables ++ [fdInit] } ∧
      ({ s with tables := s.tables ++ [fdInit] } : ConnState).tables.length =
        s.tables.length + 1 := by
  have hrefs : ({ s with tables := s.tables ++ [fdInit] } : ConnState).refsTo = s.refsTo := by
    funext c
    simp [ConnState.refsTo, refs_fdInit]
  refine ⟨?_, ?_, by simp⟩
  · intro c
    rw [hrefs]
    exact hinv c
  · intro t ht
    rcases List.mem_append.mp ht with ht | ht
    · exact hwf t ht
    · rw [List.mem_singleton.mp ht]
      simp [fdInit]

/-- `fork`: a new process with `fd_init`'s table, then `fd_clone` of the parent's. -/
theorem RefInv.fork {s : ConnState} (hinv : RefInv s) (hwf : TablesWF s) {p : Nat}
    (hp : p < s.tables.length) :
    RefInv (fdClone { s with tables := s.tables ++ [fdInit] } p s.tables.length) ∧
      TablesWF (fdClone { s with tables := s.tables ++ [fdInit] } p s.tables.length) ∧
      (fdClone { s with tables := s.tables ++ [fdInit] } p s.tables.length).tables.length =
        s.tables.length + 1 := by
  obtain ⟨hinv₀, hwf₀, hlen⟩ := RefInv.create hinv hwf
  have htables : ({ s with tables := s.tables ++ [fdInit] } : ConnState).tables =
      s.tables ++ [fdInit] := rfl
  generalize ({ s with tables := s.tables ++ [fdInit] } : ConnState) = s₀ at hinv₀ hwf₀ hlen htables ⊢
  -- `List.range openMax` stays opaque: Lean would otherwise unfold the 32 passes to compare
  unfold fdClone
  generalize hl : List.range openMax = l
  have hnd : l.Nodup := hl ▸ List.nodup_range
  have hbound : ∀ j ∈ l, j < openMax := hl ▸ fun j hj => List.mem_range.mp hj
  -- the child's slots are all empty
  have hempty : ∀ j ∈ l, s₀.slot s.tables.length j = none := by
    intro j _
    simp only [ConnState.slot, ConnState.table, htables, List.getD_eq_getElem?_getD,
      List.getElem?_append_right (Nat.le_refl _), Nat.sub_self, List.getElem?_cons_zero,
      Option.getD_some, fdInit, List.getElem?_replicate]
    split <;> rfl
  obtain ⟨h1, h2, h3⟩ := RefInv.cloneSlots (Nat.ne_of_lt hp) l s₀ hnd hbound hinv₀ hwf₀
    (by omega) (by omega) hempty
  exact ⟨h1, h2, by omega⟩

/-! ## Runs of descriptor operations -/

/-- The descriptor operations, on a process `p` that exists: `fd_init` of a new process,
`sys_close`, `sys_fcntl`, `fork`'s `fd_clone` into a new process, `exec`'s
`fd_close_on_exec` and `exit`'s `fd_close_all`. A call that panics makes no step. -/
inductive FdStep : ConnState → ConnState → Prop
  | create (s : ConnState) : FdStep s { s with tables := s.tables ++ [fdInit] }
  | close {s s' : ConnState} {p : Nat} {n r : Int} (hp : p < s.tables.length)
      (h : fdClose s p n = some (s', r)) : FdStep s s'
  | fcntl {s s' : ConnState} {p : Nat} {fd arg r : Int} {cmd : FcntlCmd}
      (hp : p < s.tables.length) (h : sysFcntl s p fd cmd arg = some (s', r)) : FdStep s s'
  | fork {s : ConnState} {p : Nat} (hp : p < s.tables.length) :
      FdStep s (fdClone { s with tables := s.tables ++ [fdInit] } p s.tables.length)
  | exec {s s' : ConnState} {p : Nat} (hp : p < s.tables.length)
      (h : fdCloseOnExec s p = some s') : FdStep s s'
  | exit {s s' : ConnState} {p : Nat} (hp : p < s.tables.length)
      (h : fdCloseAll s p = some s') : FdStep s s'

/-- One descriptor operation keeps `RefInv` and the shape of the tables. -/
theorem FdStep.refInv {s s' : ConnState} (step : FdStep s s') (hinv : RefInv s)
    (hwf : TablesWF s) : RefInv s' ∧ TablesWF s' := by
  cases step with
  | create => exact (hinv.create hwf).imp_right And.left
  | close hp h => exact (hinv.closeFd hwf hp h).imp_right And.left
  | fcntl hp h => exact (hinv.fcntl hwf hp h).imp_right And.left
  | fork hp => exact (hinv.fork hwf hp).imp_right And.left
  | exec hp h => exact (hinv.closeOnExec hwf hp h).imp_right And.left
  | exit hp h => exact (hinv.closeAll hwf hp h).imp_right And.left

/-- `RefInv` holds after every run of descriptor operations. -/
theorem RefInv.run {s s' : ConnState} (hinv : RefInv s) (hwf : TablesWF s)
    (steps : Relation.ReflTransGen FdStep s s') : RefInv s' ∧ TablesWF s' := by
  induction steps with
  | refl => exact ⟨hinv, hwf⟩
  | tail _ step ih => exact step.refInv ih.1 ih.2

/-- No process, and every Connection in the pool. -/
def connInit : ConnState := ⟨fun _ => none, []⟩

theorem refInv_connInit : RefInv connInit ∧ TablesWF connInit := by
  refine ⟨fun c => ?_, fun t ht => ?_⟩
  · simp [connInit, ConnState.refsTo]
  · cases ht

/-- In every state the descriptor operations reach, a live Connection's `ref_count` is the
number of descriptor slots that refer to it, and a Connection in the pool has none. -/
theorem refInv_reachable {s : ConnState} (steps : Relation.ReflTransGen FdStep connInit s) :
    RefInv s ∧ TablesWF s :=
  refInv_connInit.1.run refInv_connInit.2 steps

end Argentum.Net
